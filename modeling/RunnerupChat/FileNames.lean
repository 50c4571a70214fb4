import RunnerupChat.Storage
import RunnerupChat.Scanning

/-!
The display name of an upload. `sanitize_filename` rewrites the raw name from
left to right and trims it; a character of the result is found again in the raw
name, so that what the result looks like is said of the raw name.
-/

namespace RunnerupChat.Storage

open Scanning
open MessageStore (isSpace strip)

/-- Below 128 the tables are those of ASCII. -/
def AsciiTables (characters : Characters) : Prop :=
  ∀ char, char.toNat < 128 →
    characters.isAlnum char = char.isAlphanum ∧ characters.lower char = [char.toLower]

theorem ascii_only_tables : AsciiTables asciiOnly := fun _ _ => ⟨rfl, rfl⟩

section Rewriting
variable (characters : Characters)

def isSeparator (char : Char) : Bool := char == '\\' || char == '/'

/-- What `name.strip(". ")` takes away. -/
def isTrimmed (char : Char) : Bool := ['.', ' '].contains char

/-- No trace of the character is left in a display name. -/
def isDropped (char : Char) : Bool :=
  char == Char.ofNat 0 || !(isSeparator char || isNameChar characters char)

/-- The character is left wherever it stands. -/
def isSolid (char : Char) : Bool := !isDropped characters char && !isTrimmed char

def separated (text : List Char) : List Char :=
  (text.filter (· != Char.ofNat 0)).map fun char => if isSeparator char then '_' else char

/-- The rewriting steps before the name is trimmed. -/
def rewritten (text : List Char) : List Char :=
  (collapseDots (separated text)).filter (isNameChar characters)

/-- What a part of a name, from its start on, comes to. -/
def shown (front : List Char) : List Char := (rewritten characters front).dropWhile isTrimmed

/-- The steps as one walk, which remembers that the last character was a dot. -/
def afterDot (dotted : Bool) (char : Char) : Bool :=
  if char == Char.ofNat 0 then dotted else char == '.'

def face (dotted : Bool) (char : Char) : Option Char :=
  if isDropped characters char || dotted && char == '.' then none
  else some (if isSeparator char then '_' else char)

variable {characters}

theorem name_dot : isNameChar characters '.' = true := by
  simp [isNameChar]

theorem name_space {char : Char} (space : isSpace char = true) :
    isNameChar characters char = true := by
  simp [isNameChar, space]

theorem name_low_line : isNameChar characters '_' = true := by
  simp [isNameChar, isWord]

theorem collapse_cons {char : Char} (other : char ≠ '.') (text : List Char) :
    collapseDots (char :: text) = char :: collapseDots text := by
  rw [collapseDots]
  exact fun _ same => absurd same other

theorem collapse_dot_cons {char : Char} (other : char ≠ '.') (text : List Char) :
    collapseDots ('.' :: char :: text) = '.' :: char :: collapseDots text := by
  rw [collapseDots, collapse_cons other]
  rintro _ _ split
  exact other (List.cons.inj split).1

theorem separated_cons {char : Char} (visible : char ≠ Char.ofNat 0) (rest : List Char) :
    separated (char :: rest) = (if isSeparator char then '_' else char) :: separated rest := by
  simp [separated, visible]

/-- A character that is no dot and no NUL is kept or not, whatever is before it. -/
theorem face_plain {char : Char} (visible : char ≠ Char.ofNat 0) (other : char ≠ '.')
    (dotted : Bool) :
    ([if isSeparator char then '_' else char] : List Char).filter (isNameChar characters) =
      (face characters dotted char).toList := by
  unfold face isDropped
  cases separator : isSeparator char with
  | true => simp [visible, other, name_low_line]
  | false => cases named : isNameChar characters char <;> simp [visible, other, named]

/-- The walk is the steps, at the start of a name and after a dot. -/
theorem rewritten_walk (text : List Char) :
    rewritten characters text = emitted afterDot (face characters) false text ∧
      (collapseDots ('.' :: separated text)).filter (isNameChar characters) =
        '.' :: emitted afterDot (face characters) true text := by
  induction text with
  | nil =>
      refine ⟨rfl, ?_⟩
      change ['.'].filter (isNameChar characters) = ['.']
      simp [name_dot]
  | cons char rest ih =>
      by_cases nul : char = Char.ofNat 0
      · subst nul
        exact ih
      · by_cases dot : char = '.'
        · subst dot
          have kept : face characters false '.' = some '.' := by
            simp [face, isDropped, name_dot, isSeparator]
          have absorbed : face characters true '.' = none := by simp [face]
          have same : separated ('.' :: rest) = '.' :: separated rest := rfl
          constructor
          · rw [rewritten, same, ih.2, emitted, kept]
            rfl
          · rw [same, emitted, absorbed]
            exact ih.2
        · have shape : (if isSeparator char then '_' else char) ≠ '.' := by
            split
            · decide
            · exact dot
          have onward : afterDot true char = false ∧ afterDot false char = false := by
            simp [afterDot, nul, dot]
          have rest_ := ih.1
          unfold rewritten at rest_ ⊢
          rw [separated_cons nul, collapse_cons shape, collapse_dot_cons shape, emitted, emitted,
            onward.1, onward.2, ← rest_, ← face_plain nul dot true, ← face_plain nul dot false]
          constructor
          · rw [← List.filter_append]
            rfl
          · rw [← List.filter_append]
            simp [List.filter_cons, name_dot]

/-- The characters of a name after a part of it. -/
theorem rewritten_append (front tail : List Char) :
    rewritten characters (front ++ tail) = rewritten characters front ++
      emitted afterDot (face characters) (front.foldl afterDot false) tail := by
  rw [(rewritten_walk _).1, (rewritten_walk _).1, emitted_append]

theorem face_of_solid {char : Char} (solid : isSolid characters char = true) (dotted : Bool) :
    ∃ output, face characters dotted char = some output ∧ isTrimmed output = false := by
  simp only [isSolid, Bool.and_eq_true, Bool.not_eq_eq_eq_not, Bool.not_true] at solid
  obtain ⟨kept, inside⟩ := solid
  have other : char ≠ '.' := by
    rintro rfl
    revert inside
    decide
  unfold face
  rw [kept, beq_false_of_ne other, Bool.and_false, Bool.or_false]
  refine ⟨_, rfl, ?_⟩
  split
  · decide
  · exact inside

theorem face_eq {char output : Char} {dotted : Bool}
    (given : face characters dotted char = some output) :
    isDropped characters char = false ∧ (dotted && char == '.') = false ∧
      output = if isSeparator char then '_' else char := by
  unfold face at given
  split at given
  · cases given
  · rename_i kept
    simp only [Bool.or_eq_true, not_or, Bool.not_eq_true] at kept
    exact ⟨kept.1, kept.2, (Option.some.inj given).symm⟩

/-- A character other than the low line stands for itself. -/
theorem face_self {char output : Char} {dotted : Bool} (other : output ≠ '_')
    (given : face characters dotted char = some output) : char = output := by
  obtain ⟨_, _, rfl⟩ := face_eq given
  split at other
  · exact absurd rfl other
  · rename_i plain
    rw [if_neg plain]

theorem face_dot (dotted : Bool) :
    face characters dotted '.' = if dotted then none else some '.' := by
  cases dotted <;> simp [face, isDropped, name_dot, isSeparator]

theorem dot_fresh {dotted : Bool} (given : face characters dotted '.' = some '.') :
    dotted = false := by
  rw [face_dot] at given
  cases dotted with
  | false => rfl
  | true => cases given

theorem solid_of_face {char output : Char} {dotted : Bool}
    (given : face characters dotted char = some output) (inside : isTrimmed output = false) :
    isSolid characters char = true := by
  obtain ⟨kept, _, rfl⟩ := face_eq given
  have apart : isTrimmed char = false := by
    cases separator : isSeparator char with
    | true =>
        simp only [isSeparator, Bool.or_eq_true, beq_iff_eq] at separator
        rcases separator with rfl | rfl <;> decide
    | false =>
        rw [separator] at inside
        exact inside
  simp [isSolid, kept, apart]

theorem dot_not_solid : isSolid characters '.' = false := by
  simp [isSolid, isTrimmed]

/-- What is made of a text has more than dots and spaces when the text has. -/
theorem emitted_solid (text : List Char) (dotted : Bool) :
    (∃ output ∈ emitted afterDot (face characters) dotted text, isTrimmed output = false) ↔
      ∃ char ∈ text, isSolid characters char = true := by
  induction text generalizing dotted with
  | nil => simp [emitted]
  | cons char rest ih =>
      rw [emitted]
      simp only [List.mem_append, or_and_right, exists_or, ih, List.mem_cons, exists_eq_left]
      apply or_congr_left
      constructor
      · rintro ⟨output, member, inside⟩
        exact solid_of_face (Option.mem_toList.mp member) inside
      · intro solid
        obtain ⟨output, given, inside⟩ := face_of_solid solid dotted
        exact ⟨output, Option.mem_toList.mpr given, inside⟩

/-- After a dot, the last that was made is a dot. -/
theorem dotted_ends (text : List Char) (dotted : Bool)
    (ended : text.foldl afterDot dotted = true) :
    (dotted = true ∧ emitted afterDot (face characters) dotted text = []) ∨
      ∃ before, emitted afterDot (face characters) dotted text = before ++ ['.'] := by
  induction text generalizing dotted with
  | nil => exact Or.inl ⟨ended, rfl⟩
  | cons char rest ih =>
      rw [emitted]
      rcases ih (afterDot dotted char) ended with ⟨after, nothing⟩ | ⟨before, made⟩
      · rw [nothing, List.append_nil]
        unfold afterDot at after
        split at after
        · -- a NUL, which leaves everything as it was
          rename_i nul
          obtain rfl := beq_iff_eq.mp nul
          exact Or.inl ⟨after, by simp [face, isDropped]⟩
        · obtain rfl := beq_iff_eq.mp after
          rw [face_dot]
          cases dotted with
          | true => exact Or.inl ⟨rfl, rfl⟩
          | false => exact Or.inr ⟨[], rfl⟩
      · rw [made, ← List.append_assoc]
        exact Or.inr ⟨_, rfl⟩

theorem rewritten_dot (front : List Char) :
    ∃ before, rewritten characters (front ++ ['.']) = before ++ ['.'] := by
  rw [rewritten_append, emitted, emitted, List.append_nil, face_dot]
  cases ended : front.foldl afterDot false with
  | false => exact ⟨_, rfl⟩
  | true =>
      rw [(rewritten_walk front).1]
      rcases @dotted_ends characters front false ended with ⟨⟨⟩, _⟩ | ⟨before, made⟩
      exact ⟨before, by simpa using made⟩

/-- Of a dot and what follows it, the last dot that is read begins what is made
after the dot. -/
theorem last_dot {rest made : List Char}
    (after : emitted afterDot (face characters) true rest = made) (plain : '.' ∉ made) :
    ∃ front tail, '.' :: rest = front ++ '.' :: tail ∧ '.' ∉ tail ∧
      emitted afterDot (face characters) false (front ++ ['.']) = ['.'] ∧
      emitted afterDot (face characters) true tail = made := by
  obtain ⟨tail, front, split, last⟩ := List.eq_append_cons_of_mem
    (List.mem_reverse.mpr (List.mem_cons_self (a := '.') (l := rest)))
  have whole : '.' :: rest = front.reverse ++ '.' :: tail.reverse := by
    rw [← List.reverse_inj, split]
    simp
  have start : emitted afterDot (face characters) false ('.' :: rest) = '.' :: made := by
    rw [emitted, face_dot, ← after]
    rfl
  obtain ⟨before, ends⟩ := @rewritten_dot characters front.reverse
  rw [(rewritten_walk _).1] at ends
  have parts : '.' :: made =
      before ++ '.' :: emitted afterDot (face characters) true tail.reverse := by
    rw [← start, whole, List.append_cons, emitted_append, ends, List.append_assoc]
    simp [afterDot]
  refine ⟨front.reverse, tail.reverse, whole, by simpa using last, ?_, ?_⟩
  · cases before with
    | nil => exact ends
    | cons _ before =>
        obtain ⟨rfl, rfl⟩ := List.cons.inj parts
        exact absurd (by simp) plain
  · cases before with
    | nil => exact (List.cons.inj parts).2.symm
    | cons _ before =>
        obtain ⟨rfl, rfl⟩ := List.cons.inj parts
        exact absurd (by simp) plain

theorem solid_append {front : List Char} (solid : ∃ char ∈ front, isSolid characters char = true)
    (tail : List Char) : ∃ char ∈ front ++ tail, isSolid characters char = true :=
  solid.imp fun _ found => ⟨List.mem_append_left tail found.1, found.2⟩

/-- Behind something solid nothing is trimmed at the start. -/
theorem shown_append {front : List Char} (solid : ∃ char ∈ front, isSolid characters char = true)
    (tail : List Char) :
    shown characters (front ++ tail) = shown characters front ++
      emitted afterDot (face characters) (front.foldl afterDot false) tail := by
  rw [← emitted_solid front false, ← (rewritten_walk front).1] at solid
  unfold shown
  rw [rewritten_append, drop_append solid]

theorem shown_length (front : List Char) : (shown characters front).length ≤ front.length :=
  calc (shown characters front).length
      ≤ (rewritten characters front).length := (List.dropWhile_sublist _).length_le
    _ ≤ front.length := by
      rw [(rewritten_walk front).1]
      exact emitted_length false front

theorem made_trimmed_iff (text : List Char) (dotted : Bool) :
    (∀ output ∈ emitted afterDot (face characters) dotted text, isTrimmed output = true) ↔
      ∀ char ∈ text, isSolid characters char = false := by
  have solid := not_congr (@emitted_solid characters text dotted)
  simpa using solid

theorem shown_nil_iff (front : List Char) :
    shown characters front = [] ↔ ∀ char ∈ front, isSolid characters char = false := by
  unfold shown
  rw [List.dropWhile_eq_nil_iff, (rewritten_walk front).1]
  exact made_trimmed_iff front false

/-- With something solid before it, a dot is the last that is shown. -/
theorem shown_dot {front : List Char} (solid : ∃ char ∈ front, isSolid characters char = true) :
    ∃ opening, shown characters (front ++ ['.']) = opening ++ ['.'] := by
  obtain ⟨before, ends⟩ := @rewritten_dot characters front
  have present : ∃ output ∈ before ++ ['.'], isTrimmed output = false := by
    rw [← ends, (rewritten_walk _).1, emitted_solid]
    exact solid_append solid _
  have inside : ∃ output ∈ before, isTrimmed output = false := by
    obtain ⟨output, member, stays⟩ := present
    rcases List.mem_append.mp member with early | last
    · exact ⟨output, early, stays⟩
    · rw [List.mem_singleton.mp last] at stays
      cases stays
  unfold shown
  rw [ends, drop_append inside]
  exact ⟨_, rfl⟩

end Rewriting

section Display
variable {characters : Characters}

/-- The name, unless nothing is left of it. -/
def displayed (characters : Characters) (text : List Char) : List Char :=
  (trim isTrimmed (rewritten characters text)).take 200

theorem sanitize_eq (characters : Characters) (raw : String) :
    (sanitizeFilename characters raw).toList =
      if trim isTrimmed (rewritten characters (strip raw).toList) = [] then "file".toList
      else displayed characters (strip raw).toList := by
  have same : sanitizeFilename characters raw = String.ofList
      ((if trim isTrimmed (rewritten characters (strip raw).toList) = [] then "file".toList
        else trim isTrimmed (rewritten characters (strip raw).toList)).take 200) := rfl
  rw [same, String.toList_ofList]
  split
  · rfl
  · rfl

/-- The character of a name that is made from the one after `front`: something
solid is on either side of it, itself included, and it is before the cut. -/
theorem displayed_at (text before after : List Char) (output : Char) :
    displayed characters text = before ++ output :: after ↔
      ∃ front char tail, text = front ++ char :: tail ∧ shown characters front = before ∧
        before.length < 200 ∧
        face characters (front.foldl afterDot false) char = some output ∧
        ((emitted afterDot (face characters) (afterDot (front.foldl afterDot false) char)
          tail).rdropWhile isTrimmed).take (200 - before.length - 1) = after ∧
        (∃ other ∈ front ++ [char], isSolid characters other = true) ∧
        ∃ other ∈ char :: tail, isSolid characters other = true := by
  unfold displayed
  rw [take_at]
  simp only [trim_at, (rewritten_walk _).1, emitted_at]
  constructor
  · rintro ⟨rest, ⟨_, _, ⟨front, char, tail, rfl, rfl, given, rfl⟩, rfl, rfl, opened, closed⟩,
      within, rfl⟩
    refine ⟨front, char, tail, rfl, ?_, within, given, rfl, ?_, ?_⟩
    · rw [shown, (rewritten_walk _).1]
    · rw [← emitted_solid _ false, emitted_append]
      simpa [emitted, given] using opened
    · rw [← emitted_solid _ (front.foldl afterDot false)]
      simpa [emitted, given] using closed
  · rintro ⟨front, char, tail, rfl, rfl, within, given, rfl, opened, closed⟩
    refine ⟨_, ⟨_, _, ⟨front, char, tail, rfl, rfl, given, rfl⟩, ?_, rfl, ?_, ?_⟩, within, rfl⟩
    · rw [shown, (rewritten_walk _).1]
    · rw [← emitted_solid _ false, emitted_append] at opened
      simpa [emitted, given] using opened
    · rw [← emitted_solid _ (front.foldl afterDot false)] at closed
      simpa [emitted, given] using closed

end Display

end RunnerupChat.Storage
