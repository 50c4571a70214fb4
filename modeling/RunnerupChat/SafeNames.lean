import RunnerupChat.FileNames

/-!
What a display name promises, and the raw names for which the steps of
`sanitize_filename` break it: a later step makes again what an earlier one
removed.
-/

namespace RunnerupChat.Storage

open Scanning
open MessageStore (isSpace strip)

/-- What is promised of a display name; it is sanitized again for a download. -/
structure Neat (characters : Characters) (name : String) : Prop where
  length : 1 ≤ name.length ∧ name.length ≤ 200
  plain : ∀ char ∈ name.toList, char ∉ ['/', '\\', Char.ofNat 0, '"', '\r', '\n']
  traversal : ¬['.', '.'] <:+: name.toList
  opens : ∀ char ∈ name.toList.head?, char ≠ '.' ∧ char ≠ ' '
  closes : ∀ char ∈ name.toList.getLast?, char ≠ '.' ∧ char ≠ ' '
  fixed : sanitizeFilename characters name = name

/-- The raw names, already stripped, whose display name breaks the promise. -/
inductive Flawed (characters : Characters) (text : List Char) : Prop
  /-- A line break before the cut. -/
  | lineBreak (front : List Char) (char : Char) (tail : List Char)
      (split : text = front ++ char :: tail) (breaks : char = '\r' ∨ char = '\n')
      (within : (shown characters front).length < 200)
  /-- Two dots that only removed characters keep apart. -/
  | dots (front gap tail : List Char) (split : text = front ++ '.' :: (gap ++ '.' :: tail))
      (dropped : ∀ char ∈ gap, isDropped characters char = true)
      (apart : ∃ char ∈ gap, char ≠ Char.ofNat 0)
      (before : ∃ char ∈ front, isSolid characters char = true)
      (after : ∃ char ∈ tail, isSolid characters char = true)
      (within : (shown characters (front ++ ['.'])).length < 200)
  /-- White space, other than a space, behind what is trimmed at the start. -/
  | opens (front : List Char) (char : Char) (tail : List Char)
      (split : text = front ++ char :: tail)
      (trimmed : ∀ other ∈ front, isSolid characters other = false)
      (space : isSpace char = true) (other : char ≠ ' ')
  /-- The same before what is trimmed at the end. -/
  | closes (front : List Char) (char : Char) (tail : List Char)
      (split : text = front ++ char :: tail)
      (trimmed : ∀ other ∈ tail, isSolid characters other = false)
      (space : isSpace char = true) (other : char ≠ ' ')
      (within : (shown characters front).length < 200)
  /-- The cut comes right after a dot or white space. -/
  | cut (front : List Char) (char : Char) (tail : List Char)
      (split : text = front ++ char :: tail) (ends : char = '.' ∨ isSpace char = true)
      (before : (shown characters front).length = 199)
      (last : (shown characters (front ++ [char])).length = 200)
      (after : ∃ other ∈ char :: tail, isSolid characters other = true)

/-- What the fixed point and the promise come to for a sanitized name. -/
structure Sound (chars : List Char) : Prop where
  breaks : ∀ char ∈ chars, char ≠ '\r' ∧ char ≠ '\n'
  traversal : ¬['.', '.'] <:+: chars
  opens : ∀ char ∈ chars.head?, isSpace char = false
  closes : ∀ char ∈ chars.getLast?, isSpace char = false ∧ char ≠ '.'

section Spaces
variable {characters : Characters}

theorem space_plain {char : Char} (space : isSpace char = true) :
    char ≠ '_' ∧ char ≠ '.' ∧ char ≠ Char.ofNat 0 ∧ isSeparator char = false := by
  refine ⟨?_, ?_, ?_, ?_⟩
  · rintro rfl
    revert space
    decide
  · rintro rfl
    revert space
    decide
  · rintro rfl
    revert space
    decide
  · cases separator : isSeparator char with
    | false => rfl
    | true =>
        simp only [isSeparator, Bool.or_eq_true, beq_iff_eq] at separator
        rcases separator with rfl | rfl <;> revert space <;> decide

theorem face_space {char : Char} (space : isSpace char = true) (dotted : Bool) :
    face characters dotted char = some char := by
  obtain ⟨_, other, visible, plain⟩ := space_plain space
  simp [face, isDropped, plain, name_space space, visible, other]

theorem space_solid {char : Char} (space : isSpace char = true) (other : char ≠ ' ') :
    isSolid characters char = true := by
  have given : face characters false char = some char := face_space space false
  apply solid_of_face given
  have dot := (space_plain space).2.1
  simp [isTrimmed, dot, other]

end Spaces

section Flaws
variable {characters : Characters} {text : List Char}

theorem ends_unsound {before : List Char} {char : Char}
    (flaw : isSpace char = true ∨ char = '.') : ¬Sound (before ++ [char]) := by
  intro sound
  have closes := sound.closes char (by simp)
  rcases flaw with space | dot
  · rw [closes.1] at space
    cases space
  · exact closes.2 dot

theorem dropped_not_dot {char : Char} (dropped : isDropped characters char = true) :
    char ≠ '.' := by
  rintro rfl
  simp [isDropped, name_dot] at dropped

theorem emitted_dropped {gap : List Char} (dotted : Bool)
    (dropped : ∀ char ∈ gap, isDropped characters char = true) :
    emitted afterDot (face characters) dotted gap = [] := by
  induction gap generalizing dotted with
  | nil => rfl
  | cons char rest ih =>
      obtain ⟨here, others⟩ := List.forall_mem_cons.mp dropped
      rw [emitted, ih _ others]
      simp [face, here]

/-- Removed characters do not begin a run of dots. -/
theorem dropped_state {gap : List Char}
    (dropped : ∀ char ∈ gap, isDropped characters char = true) :
    gap.foldl afterDot false = false := by
  induction gap with
  | nil => rfl
  | cons char rest ih =>
      obtain ⟨here, others⟩ := List.forall_mem_cons.mp dropped
      have state : afterDot false char = false := by simp [afterDot, dropped_not_dot here]
      rw [List.foldl_cons, state]
      exact ih others

/-- Unless all are NUL, they end one. -/
theorem gap_state_iff {gap : List Char}
    (dropped : ∀ char ∈ gap, isDropped characters char = true) :
    gap.foldl afterDot true = false ↔ ∃ char ∈ gap, char ≠ Char.ofNat 0 := by
  induction gap with
  | nil => simp
  | cons char rest ih =>
      obtain ⟨here, others⟩ := List.forall_mem_cons.mp dropped
      rw [List.foldl_cons, List.exists_mem_cons_iff]
      by_cases nul : char = Char.ofNat 0
      · have state : afterDot true char = true := by simp [afterDot, nul]
        rw [state, ih others]
        exact (or_iff_right (not_not.mpr nul)).symm
      · have state : afterDot true char = false := by
          simp [afterDot, nul, dropped_not_dot here]
        rw [state]
        exact iff_of_true (dropped_state others) (Or.inl nul)

/-- Two dots come together when nothing that is made stands between them. -/
theorem dots_unsound {front gap tail : List Char}
    (split : text = front ++ '.' :: (gap ++ '.' :: tail))
    (dropped : ∀ char ∈ gap, isDropped characters char = true)
    (apart : ∃ char ∈ gap, char ≠ Char.ofNat 0)
    (before : ∃ char ∈ front, isSolid characters char = true)
    (after : ∃ char ∈ tail, isSolid characters char = true)
    (within : (shown characters (front ++ ['.'])).length < 200) :
    ¬Sound (displayed characters text) := by
  have fresh := (gap_state_iff dropped).mpr apart
  have nothing := emitted_dropped true dropped
  have state : (front ++ '.' :: gap).foldl afterDot false = false := by
    simpa [List.foldl_append, afterDot] using fresh
  have whole : shown characters (front ++ '.' :: gap) = shown characters (front ++ ['.']) := by
    have parts : front ++ '.' :: gap = front ++ ['.'] ++ gap := by simp
    rw [parts, shown_append (solid_append before _)]
    simp [List.foldl_append, afterDot, nothing]
  obtain ⟨opening, ends⟩ := shown_dot before
  have parts : text = (front ++ '.' :: gap) ++ '.' :: tail := by
    rw [split]
    simp
  have dot : face characters ((front ++ '.' :: gap).foldl afterDot false) '.' = some '.' := by
    rw [state, face_dot]
    rfl
  have here := (displayed_at text _ _ '.').mpr ⟨front ++ '.' :: gap, '.', tail, parts,
    rfl, whole ▸ within, dot, rfl,
    before.imp fun _ found => ⟨by simp [found.1], found.2⟩,
    after.imp fun _ found => ⟨by simp [found.1], found.2⟩⟩
  intro sound
  rw [here, whole, ends] at sound
  exact sound.traversal ⟨opening, _, by rw [List.append_assoc, List.append_assoc]; rfl⟩

/-- The cut leaves the dot or white space before it at the end. -/
theorem cut_unsound {front tail : List Char} {char : Char} (split : text = front ++ char :: tail)
    (ends : char = '.' ∨ isSpace char = true)
    (before : (shown characters front).length = 199)
    (last : (shown characters (front ++ [char])).length = 200)
    (after : ∃ other ∈ char :: tail, isSolid characters other = true) :
    ¬Sound (displayed characters text) := by
  have solid : ∃ other ∈ front, isSolid characters other = true := by
    by_contra none
    rw [(shown_nil_iff front).mpr (by simpa using none)] at before
    cases before
  rw [shown_append solid, emitted, emitted, List.append_nil, List.length_append, before] at last
  cases given : face characters (front.foldl afterDot false) char with
  | none =>
      rw [given] at last
      cases last
  | some output =>
      have same : char = output := by
        rcases ends with rfl | space
        · rw [face_dot] at given
          split at given <;> cases given
          rfl
        · exact Option.some.inj ((face_space space _).symm.trans given)
      have here := (displayed_at text _ [] output).mpr ⟨front, char, tail, split, rfl,
        by omega, given, by simp [before], solid_append solid _, after⟩
      rw [here]
      exact ends_unsound (same ▸ ends.symm)

theorem flawed_unsound (flawed : Flawed characters text) :
    ¬Sound (displayed characters text) := by
  cases flawed with
  | lineBreak front char tail split breaks within =>
      have space : isSpace char = true := by rcases breaks with rfl | rfl <;> decide
      have solid : isSolid characters char = true :=
        space_solid space (by rcases breaks with rfl | rfl <;> decide)
      have here := (displayed_at text _ _ char).mpr ⟨front, char, tail, split, rfl, within,
        face_space space _, rfl, ⟨char, by simp, solid⟩, char, by simp, solid⟩
      intro sound
      rw [here] at sound
      have none := sound.breaks char (by simp)
      exact breaks.elim none.1 none.2
  | dots front gap tail split dropped apart before after within =>
      exact dots_unsound split dropped apart before after within
  | opens front char tail split trimmed space other =>
      have solid : isSolid characters char = true := space_solid space other
      have nothing := (shown_nil_iff front).mpr trimmed
      have here := (displayed_at text _ _ char).mpr ⟨front, char, tail, split, nothing,
        by simp, face_space space _, rfl, ⟨char, by simp, solid⟩, char, by simp, solid⟩
      intro sound
      rw [here] at sound
      have opens := sound.opens char rfl
      rw [space] at opens
      cases opens
  | closes front char tail split trimmed space other within =>
      have solid : isSolid characters char = true := space_solid space other
      have ended : (emitted afterDot (face characters)
          (afterDot (front.foldl afterDot false) char) tail).rdropWhile isTrimmed = [] :=
        List.rdropWhile_eq_nil_iff.mpr ((made_trimmed_iff tail _).mpr trimmed)
      have here := (displayed_at text _ [] char).mpr ⟨front, char, tail, split, rfl, within,
        face_space space _, by rw [ended, List.take_nil], ⟨char, by simp, solid⟩, char, by simp,
        solid⟩
      rw [here]
      exact ends_unsound (Or.inl space)
  | cut front char tail split ends before last after =>
      exact cut_unsound split ends before last after

/-- What is made of a text without dots is made of characters that are kept. -/
theorem dropped_of_nothing {gap : List Char} {dotted : Bool} (plain : '.' ∉ gap)
    (nothing : emitted afterDot (face characters) dotted gap = []) :
    ∀ char ∈ gap, isDropped characters char = true := by
  induction gap generalizing dotted with
  | nil => simp
  | cons char rest ih =>
      rw [emitted, List.append_eq_nil_iff] at nothing
      rw [List.mem_cons, not_or] at plain
      have here : isDropped characters char = true := by
        by_contra kept
        have given := nothing.1
        simp [face, kept, Ne.symm plain.1] at given
      exact List.forall_mem_cons.mpr ⟨here, ih plain.2 nothing.2⟩

/-- Two dots in a row of a name were two dots with a gap of removed characters. -/
theorem traversal_flawed {before after : List Char}
    (made : displayed characters text = before ++ '.' :: '.' :: after) :
    Flawed characters text := by
  obtain ⟨front, char, tail, split, rfl, within, given, ends, opened, _⟩ :=
    (displayed_at text before _ '.').mp made
  obtain rfl := face_self (by decide) given
  obtain ⟨_, trimmed, room, _⟩ := (take_at _ _ [] after '.').mp ends
  obtain ⟨_, more, _, closed⟩ := (rdrop_at _ [] _ '.').mp trimmed
  obtain ⟨between, char, tail, rfl, nothing, second, rfl⟩ := (emitted_at _ _ [] _ '.').mp more
  obtain rfl := face_self (by decide) second
  obtain ⟨dots, gap, regrouped, plain, one, silent⟩ := last_dot nothing List.not_mem_nil
  have dropped := dropped_of_nothing plain silent
  have before : ∃ char ∈ front, isSolid characters char = true := by
    obtain ⟨char, member, solid⟩ := opened
    rcases List.mem_append.mp member with early | last
    · exact ⟨char, early, solid⟩
    · rw [List.mem_singleton.mp last, dot_not_solid] at solid
      cases solid
  have whole : text = front ++ dots ++ '.' :: (gap ++ '.' :: tail) := by
    rw [split, ← List.cons_append, regrouped]
    simp
  -- the state after the run of dots and the gap is that of the second dot
  have state : gap.foldl afterDot true = false := by
    have same := congrArg (List.foldl afterDot false) regrouped
    rw [List.foldl_append] at same
    exact same.symm.trans (dot_fresh second)
  have length : (shown characters (front ++ dots ++ ['.'])).length < 200 := by
    rw [List.append_assoc, shown_append before, dot_fresh given, one, List.length_append]
    change _ + 1 < 200
    simp only [List.length_nil] at room
    omega
  exact .dots (front ++ dots) gap tail whole dropped ((gap_state_iff dropped).mp state)
    (solid_append before _)
    (by
      rw [← emitted_solid tail]
      obtain ⟨other, member, stays⟩ := closed
      rcases List.mem_cons.mp member with rfl | later
      · cases stays
      · exact ⟨other, later, stays⟩)
    length

theorem stands_for {char output : Char} {dotted : Bool}
    (flaw : isSpace output = true ∨ output = '.')
    (given : face characters dotted char = some output) : char = output := by
  apply face_self _ given
  rcases flaw with space | rfl
  · exact (space_plain space).1
  · decide

theorem opens_flawed {char : Char} {after : List Char} (space : isSpace char = true)
    (made : displayed characters text = char :: after) : Flawed characters text := by
  obtain ⟨front, _, tail, split, nothing, _, given, _, ⟨other, member, solid⟩, _⟩ :=
    (displayed_at text [] after char).mp made
  obtain rfl := stands_for (Or.inl space) given
  have trimmed := (shown_nil_iff front).mp nothing
  refine .opens front _ tail split trimmed space ?_
  rintro rfl
  rcases List.mem_append.mp member with early | last
  · rw [trimmed other early] at solid
    cases solid
  · rw [List.mem_singleton.mp last] at solid
    simp [isSolid, isTrimmed] at solid

theorem ends_flawed {before : List Char} {char : Char}
    (flaw : isSpace char = true ∨ char = '.')
    (made : displayed characters text = before ++ [char]) : Flawed characters text := by
  obtain ⟨front, raw, tail, split, rfl, within, given, ends, opened, closed⟩ :=
    (displayed_at text before [] char).mp made
  obtain rfl := stands_for flaw given
  by_cases full : (shown characters front).length = 199
  · have solid : ∃ other ∈ front, isSolid characters other = true := by
      by_contra none
      rw [(shown_nil_iff front).mpr (by simpa using none)] at full
      cases full
    have last : (shown characters (front ++ [raw])).length = 200 := by
      rw [shown_append solid, emitted, emitted, given, List.length_append, full]
      rfl
    exact .cut front raw tail split flaw.symm full last closed
  · -- nothing is left of the tail, so that only what is trimmed follows
    have room : 0 < 200 - (shown characters front).length - 1 := by omega
    have trimmed := (made_trimmed_iff tail _).mp
      (List.rdropWhile_eq_nil_iff.mp ((List.take_eq_nil_iff.mp ends).resolve_left (by omega)))
    obtain ⟨other, member, solid⟩ := closed
    rcases List.mem_cons.mp member with rfl | later
    · have apart : other ≠ ' ' ∧ other ≠ '.' := by
        constructor <;> rintro rfl <;> simp [isSolid, isTrimmed] at solid
      exact .closes front other tail split trimmed (flaw.resolve_right apart.2) apart.1 within
    · rw [trimmed other later] at solid
      cases solid

/-- A name that breaks the promise comes from a flawed text. -/
theorem unflawed_sound (unflawed : ¬Flawed characters text) :
    Sound (displayed characters text) where
  breaks := by
    intro char member
    rw [← not_or]
    intro breaks
    obtain ⟨before, after, made⟩ := List.append_of_mem member
    obtain ⟨front, _, tail, split, rfl, within, given, _⟩ :=
      (displayed_at text before after char).mp made
    have space : isSpace char = true := by rcases breaks with rfl | rfl <;> decide
    obtain rfl := stands_for (Or.inl space) given
    exact unflawed (.lineBreak front _ tail split breaks within)
  traversal := by
    rintro ⟨before, after, made⟩
    have whole : displayed characters text = before ++ '.' :: '.' :: after := by
      rw [← made]
      simp
    exact unflawed (traversal_flawed whole)
  opens := by
    intro char first
    by_contra space
    obtain ⟨after, made⟩ := List.head?_eq_some_iff.mp first
    exact unflawed (opens_flawed (by simpa using space) made)
  closes := by
    intro char last
    obtain ⟨before, made⟩ := List.getLast?_eq_some_iff.mp last
    constructor
    · by_contra space
      exact unflawed (ends_flawed (Or.inl (by simpa using space)) made)
    · intro dot
      exact unflawed (ends_flawed (Or.inr dot) made)

theorem sound_iff : Sound (displayed characters text) ↔ ¬Flawed characters text :=
  ⟨fun sound flawed => flawed_unsound flawed sound, unflawed_sound⟩

end Flaws

section Fixed
variable {characters : Characters}

/-- No character of a name is one of those that are always removed. -/
theorem name_char_plain (ascii : AsciiTables characters) {char : Char}
    (named : isNameChar characters char = true) :
    char ∉ ['/', '\\', Char.ofNat 0, '"'] := by
  intro member
  have excluded : (['/', '\\', Char.ofNat 0, '"'].all fun char => decide (char.toNat < 128) &&
      !char.isAlphanum && !isSpace char && char != '_' &&
      !(['.', '-', '(', ')', '[', ']'].contains char)) = true := by decide
  have here := List.all_eq_true.mp excluded char member
  simp only [Bool.and_eq_true, decide_eq_true_eq, Bool.not_eq_eq_eq_not, Bool.not_true,
    bne_iff_ne] at here
  obtain ⟨⟨⟨⟨low, letter⟩, space⟩, line⟩, other⟩ := here
  rw [isNameChar, isWord, (ascii char low).1, letter, space, beq_false_of_ne line, other] at named
  cases named

theorem displayed_named (text : List Char) :
    ∀ char ∈ displayed characters text, isNameChar characters char = true := by
  intro char member
  have inside : char ∈ rewritten characters text :=
    (trim_sublist _).subset (List.mem_of_mem_take member)
  exact (List.mem_filter.mp inside).2

theorem displayed_length (text : List Char) :
    (displayed characters text).length ≤ text.length :=
  calc (displayed characters text).length
      ≤ (trim isTrimmed (rewritten characters text)).length := List.length_take_le' _ _
    _ ≤ (rewritten characters text).length := (trim_sublist _).length_le
    _ ≤ text.length := by
      rw [(rewritten_walk text).1]
      exact emitted_length false text

theorem collapse_fixed (text : List Char) (plain : ¬['.', '.'] <:+: text) :
    collapseDots text = text := by
  induction text with
  | nil => rfl
  | cons char rest ih =>
      have onward : collapseDots (char :: rest) = char :: collapseDots rest := by
        rw [collapseDots]
        rintro more rfl rfl
        exact plain ⟨[], more, rfl⟩
      rw [onward, ih fun inside => plain (List.infix_cons inside)]

/-- A sound text of kept characters is rewritten to itself. -/
theorem rewritten_fixed (ascii : AsciiTables characters) {text : List Char}
    (named : ∀ char ∈ text, isNameChar characters char = true)
    (plain : ¬['.', '.'] <:+: text) : rewritten characters text = text := by
  have clean : ∀ char ∈ text, char ≠ Char.ofNat 0 ∧ isSeparator char = false := by
    intro char member
    have apart := name_char_plain ascii (named char member)
    simp only [List.mem_cons, not_or] at apart
    simp [isSeparator, apart]
  have whole : separated text = text := by
    unfold separated
    rw [List.filter_eq_self.mpr fun char member => by simpa using (clean char member).1]
    refine (List.map_congr_left fun char member => ?_).trans (List.map_id text)
    rw [(clean char member).2]
    rfl
  unfold rewritten
  rw [whole, collapse_fixed text plain, List.filter_eq_self.mpr named]

theorem strip_eq (text : String) : (strip text).toList = trim isSpace text.toList := by
  rw [strip, String.toList_ofList]
  rfl

/-- What a name begins and ends with before the cut is never trimmed. -/
theorem trimmed_opens {skip : Char → Bool} (text : List Char) :
    ∀ char ∈ ((trim skip text).take 200).head?, skip char = false := by
  intro char first
  obtain ⟨after, made⟩ := List.head?_eq_some_iff.mp first
  obtain ⟨rest, whole, _⟩ := (take_at 200 _ [] after char).mp made
  obtain ⟨front, tail, _, nothing, _, ⟨other, member, stays⟩, _⟩ := (trim_at text [] rest char).mp whole
  rcases List.mem_append.mp member with early | last
  · rw [List.dropWhile_eq_nil_iff.mp nothing other early] at stays
    cases stays
  · rw [← List.mem_singleton.mp last]
    exact stays

/-- A sound name is sanitized to itself. -/
theorem sanitize_sound (ascii : AsciiTables characters) {name : String}
    (named : ∀ char ∈ name.toList, isNameChar characters char = true)
    (present : name.toList ≠ []) (short : name.toList.length ≤ 200)
    (opens : ∀ char ∈ name.toList.head?, isTrimmed char = false) (sound : Sound name.toList) :
    sanitizeFilename characters name = name := by
  have stripped : (strip name).toList = name.toList := by
    rw [strip_eq, trim_fixed_iff]
    exact ⟨sound.opens, fun char last => (sound.closes char last).1⟩
  have whole : trim isTrimmed name.toList = name.toList := by
    rw [trim_fixed_iff]
    refine ⟨opens, fun char last => ?_⟩
    have ends := sound.closes char last
    have space : char ≠ ' ' := by
      rintro rfl
      cases ends.1
    simp [isTrimmed, ends.2, space]
  apply String.toList_inj.mp
  rw [sanitize_eq, displayed, stripped, rewritten_fixed ascii named sound.traversal, whole,
    if_neg present, List.take_of_length_le short]

/-- A fixed point is not longer than what is left of it without the white space
at its ends. -/
theorem sanitize_fixed_stripped {name : String}
    (fixed : sanitizeFilename characters name = name) : trim isSpace name.toList = name.toList := by
  have chars := congrArg String.toList fixed
  rw [sanitize_eq] at chars
  split at chars
  · rw [← chars]
    decide
  · apply (trim_sublist _).eq_of_length_le
    rw [← strip_eq]
    calc name.toList.length
        = (displayed characters (strip name).toList).length := by rw [chars]
      _ ≤ (strip name).toList.length := displayed_length _

theorem file_sound : Sound "file".toList where
  breaks := by
    intro char member
    have letters : ("file".toList.all fun char => char != '\r' && char != '\n') = true := by decide
    simpa using List.all_eq_true.mp letters char member
  traversal := by decide
  opens := by
    rintro _ ⟨⟩
    rfl
  closes := by
    rintro _ ⟨⟩
    decide

/-- What holds of every sanitized name. -/
structure Shaped (characters : Characters) (chars : List Char) : Prop where
  named : ∀ char ∈ chars, isNameChar characters char = true
  present : chars ≠ []
  short : chars.length ≤ 200
  opens : ∀ char ∈ chars.head?, isTrimmed char = false

theorem sanitize_shaped (ascii : AsciiTables characters) (raw : String) :
    Shaped characters (sanitizeFilename characters raw).toList := by
  rw [sanitize_eq]
  split
  · have letters : ("file".toList.all fun char =>
        decide (char.toNat < 128) && char.isAlphanum) = true := by decide
    exact {
      named := by
        intro char member
        have here := List.all_eq_true.mp letters char member
        rw [Bool.and_eq_true, decide_eq_true_eq] at here
        simp [isNameChar, isWord, (ascii char here.1).1, here.2]
      present := by decide
      short := by decide
      opens := by
        rintro _ ⟨⟩
        rfl }
  · rename_i left
    exact {
      named := displayed_named _
      present := by
        intro empty
        exact left ((List.take_eq_nil_iff.mp empty).resolve_left (by decide))
      short := List.length_take_le 200 _
      opens := trimmed_opens _ }

/-- Of a sanitized name only these parts of the promise are not sure. -/
theorem neat_iff_sound (ascii : AsciiTables characters) (raw : String) :
    Neat characters (sanitizeFilename characters raw) ↔
      Sound (sanitizeFilename characters raw).toList := by
  have shaped := sanitize_shaped ascii raw
  constructor
  · intro neat
    obtain ⟨opens, closes⟩ := (trim_fixed_iff _).mp (sanitize_fixed_stripped neat.fixed)
    exact {
      breaks := fun char member => by
        have apart := neat.plain char member
        simp only [List.mem_cons, not_or] at apart
        exact ⟨apart.2.2.2.2.1, apart.2.2.2.2.2.1⟩
      traversal := neat.traversal
      opens := opens
      closes := fun char last => ⟨closes char last, (neat.closes char last).1⟩ }
  · intro sound
    exact {
      length := ⟨List.length_pos_iff.mpr shaped.present, shaped.short⟩
      plain := fun char member => by
        have apart := name_char_plain ascii (shaped.named char member)
        have breaks := sound.breaks char member
        simp only [List.mem_cons, not_or] at apart ⊢
        exact ⟨apart.1, apart.2.1, apart.2.2.1, apart.2.2.2.1, breaks.1, breaks.2, apart.2.2.2.2⟩
      traversal := sound.traversal
      opens := fun char first => by
        have inside := shaped.opens char first
        constructor <;> rintro rfl <;> cases inside
      closes := fun char last => by
        obtain ⟨solid, dot⟩ := sound.closes char last
        refine ⟨dot, ?_⟩
        rintro rfl
        cases solid
      fixed := sanitize_sound ascii shaped.named shaped.present shaped.short shaped.opens sound }

theorem sanitized_sound_iff (raw : String) :
    Sound (sanitizeFilename characters raw).toList ↔ ¬Flawed characters (strip raw).toList := by
  rw [← sound_iff, sanitize_eq]
  split
  · rename_i nothing
    apply iff_of_true file_sound
    rw [displayed, nothing, List.take_nil]
    constructor <;> simp
  · rfl

/-- A display name keeps its promise exactly when the raw name has no flaw. -/
theorem sanitize_neat_iff (ascii : AsciiTables characters) (raw : String) :
    Neat characters (sanitizeFilename characters raw) ↔
      ¬Flawed characters (strip raw).toList :=
  (neat_iff_sound ascii raw).trans (sanitized_sound_iff raw)

theorem notes_neat_iff :
    Neat asciiOnly (sanitizeFilename asciiOnly "notes.pdf") ↔
      ¬Flawed asciiOnly (strip "notes.pdf").toList :=
  sanitize_neat_iff ascii_only_tables "notes.pdf"

/-- A line break inside a name gets through. -/
theorem line_break_kept :
    ¬∀ raw, Neat asciiOnly (sanitizeFilename asciiOnly raw) := by
  intro always
  have sound := (neat_iff_sound ascii_only_tables "a\nb").mp (always "a\nb")
  apply (sanitized_sound_iff "a\nb").mp sound
  exact .lineBreak ['a'] '\n' ['b'] (by decide) (Or.inr rfl)
    (Nat.lt_of_le_of_lt (shown_length ['a']) (by decide))

end Fixed

end RunnerupChat.Storage
