import Mathlib

/-!
The origin of a URL by the generic syntax: scheme, authority and a rest that is
not looked at. Letter case does not count in the scheme and the host, and a
port that is left out or empty is the standard one of the scheme.
-/

namespace RunnerupChat.UrlOrigins

structure Origin where
  scheme : List Char
  host : List Char
  port : Option Nat
  deriving DecidableEq

section Cutting
variable {Symbol : Type} {stop : Symbol → Bool}

/-- What stands before the first stop, and what is left from it on. -/
def cut (stop : Symbol → Bool) (text : List Symbol) : List Symbol × List Symbol :=
  (text.takeWhile fun symbol => !stop symbol, text.dropWhile fun symbol => !stop symbol)

theorem cut_iff (text front rest : List Symbol) :
    cut stop text = (front, rest) ↔ front ++ rest = text ∧
      (∀ symbol ∈ front, stop symbol = false) ∧ ∀ symbol ∈ rest.head?, stop symbol = true := by
  constructor
  · intro pieces
    obtain ⟨rfl, rfl⟩ := Prod.mk.inj pieces
    refine ⟨List.takeWhile_append_dropWhile, fun symbol member => ?_, fun symbol first => ?_⟩
    · simpa using List.mem_takeWhile_imp member
    · have dropped := List.head?_dropWhile_not (fun symbol => !stop symbol) text
      rw [Option.mem_def.mp first] at dropped
      simpa using dropped
  · rintro ⟨rfl, inside, boundary⟩
    have kept : ∀ symbol ∈ front, (!stop symbol) = true := by simpa using inside
    rw [cut, List.takeWhile_append_of_pos kept, List.dropWhile_append_of_pos kept]
    cases rest with
    | nil => simp
    | cons symbol tail => simp [boundary symbol rfl]

theorem cut_mark [BEq Symbol] [LawfulBEq Symbol] {mark : Symbol} {front rest : List Symbol}
    (absent : mark ∉ front) : cut (· == mark) (front ++ mark :: rest) = (front, mark :: rest) := by
  refine (cut_iff _ _ _).mpr ⟨rfl, fun symbol member => ?_, by simp⟩
  exact beq_eq_false_iff_ne.mpr (ne_of_mem_of_not_mem member absent)

theorem first_mark [BEq Symbol] [LawfulBEq Symbol] {mark : Symbol}
    {front rest before after : List Symbol} (same : front ++ mark :: rest = before ++ mark :: after)
    (absent : mark ∉ front) (missing : mark ∉ before) : front = before ∧ rest = after := by
  have pieces := (cut_mark absent).symm.trans (same ▸ cut_mark missing)
  obtain ⟨fronts, rests⟩ := Prod.mk.inj pieces
  exact ⟨fronts, (List.cons.inj rests).2⟩

/-- What stands after the last stop. -/
def afterLast (stop : Symbol → Bool) (text : List Symbol) : List Symbol :=
  text.rtakeWhile fun symbol => !stop symbol

def uptoLast (stop : Symbol → Bool) (text : List Symbol) : List Symbol :=
  text.rdropWhile fun symbol => !stop symbol

theorem last_iff (text front rest : List Symbol) :
    (uptoLast stop text, afterLast stop text) = (front, rest) ↔ front ++ rest = text ∧
      (∀ symbol ∈ front.getLast?, stop symbol = true) ∧ ∀ symbol ∈ rest, stop symbol = false := by
  have mirrored := @cut_iff Symbol stop text.reverse rest.reverse front.reverse
  have pieces : (uptoLast stop text, afterLast stop text) = (front, rest) ↔
      cut stop text.reverse = (rest.reverse, front.reverse) := by
    unfold uptoLast afterLast cut List.rdropWhile List.rtakeWhile
    rw [Prod.mk.injEq, Prod.mk.injEq, List.reverse_eq_iff, List.reverse_eq_iff, and_comm]
  rw [pieces, mirrored, ← List.reverse_append, List.reverse_inj]
  simp [and_comm]

end Cutting

section Syntax

def isSchemeChar (char : Char) : Bool := char.isAlphanum || ['+', '-', '.'].contains char

def isScheme : List Char → Bool
  | [] => false
  | first :: rest => first.isAlpha && rest.all isSchemeChar

/-- The end of the authority. -/
def isEnd (char : Char) : Bool := ['/', '?', '#'].contains char

def lower (text : List Char) : List Char := text.map Char.toLower

def number (digits : List Char) : Nat :=
  digits.foldl (fun value digit => 10 * value + (digit.toNat - '0'.toNat)) 0

def portOf (standard : Option Nat) : List Char → Option (Option Nat)
  | [] => some standard
  | [':'] => some standard
  | ':' :: digits =>
      if digits.all Char.isDigit ∧ number digits ≤ 65535 then some (some (number digits)) else none
  | _ => none

/-- A host and what is left of the authority; an address with colons stands in
brackets. -/
def splitHost : List Char → Option (List Char × List Char)
  | '[' :: text =>
      match cut (· == ']') text with
      | (_, []) => none
      | (inner, _ :: rest) => some ('[' :: (inner ++ [']']), rest)
  | text =>
      match cut (· == ':') text with
      | ([], _) => none
      | pieces => some pieces

/-- The text of a URL in its parts; `user` has its `@`, `port` its colon. -/
structure Parts where
  scheme : List Char
  user : List Char
  host : List Char
  port : List Char
  rest : List Char

def Parts.text (parts : Parts) : List Char :=
  parts.scheme ++ ':' :: '/' :: '/' :: (parts.user ++ (parts.host ++ parts.port) ++ parts.rest)

def Parts.origin (standardPort : List Char → Option Nat) (parts : Parts) : Option Origin :=
  (portOf (standardPort (lower parts.scheme)) parts.port).map fun port =>
    ⟨lower parts.scheme, lower parts.host, port⟩

def partsOf (text : List Char) : Option Parts :=
  match cut (· == ':') text with
  | (scheme, ':' :: '/' :: '/' :: after) =>
      let (authority, rest) := cut isEnd after
      if isScheme scheme then
        (splitHost (afterLast (· == '@') authority)).map fun (host, port) =>
          ⟨scheme, uptoLast (· == '@') authority, host, port, rest⟩
      else none
  | _ => none

def parse (standardPort : List Char → Option Nat) (text : List Char) : Option Origin :=
  (partsOf text).bind (Parts.origin standardPort)

end Syntax

section Grammar

inductive Hosted : List Char → Prop
  | bracketed (inner : List Char) (closed : ']' ∉ inner) : Hosted ('[' :: (inner ++ [']']))
  | named (first : Char) (name : List Char) (opens : first ≠ '[') (plain : ':' ∉ first :: name) :
      Hosted (first :: name)

structure Parts.Sound (parts : Parts) : Prop where
  scheme : isScheme parts.scheme = true
  user : ∀ char ∈ parts.user.getLast?, char = '@'
  host : Hosted parts.host
  port : parts.host.head? ≠ some '[' → ∀ char ∈ parts.port.head?, char = ':'
  plain : '@' ∉ parts.host ++ parts.port
  within : ∀ char ∈ parts.user ++ (parts.host ++ parts.port), isEnd char = false
  ends : ∀ char ∈ parts.rest.head?, isEnd char = true

theorem split_host_iff (text host port : List Char) :
    splitHost text = some (host, port) ↔ host ++ port = text ∧ Hosted host ∧
      (host.head? ≠ some '[' → ∀ char ∈ port.head?, char = ':') := by
  constructor
  · intro answer
    unfold splitHost at answer
    split at answer
    · split at answer
      · cases answer
      · next inner _ rest pieces =>
          obtain ⟨rfl, open_, closes⟩ := (cut_iff _ _ _).mp pieces
          obtain ⟨rfl, rfl⟩ := Prod.mk.inj (Option.some.inj answer)
          have bracket := closes _ rfl
          refine ⟨?_, .bracketed inner fun member => ?_, fun other => absurd rfl other⟩
          · simpa using (beq_iff_eq.mp bracket).symm
          · simpa using open_ _ member
    · next text other =>
        split at answer
        · cases answer
        · next pieces named =>
            obtain ⟨split, plain, colon⟩ := (cut_iff _ _ _).mp (Option.some.inj answer)
            refine ⟨split, ?_, fun _ char first => by simpa using colon char first⟩
            cases host with
            | nil => exact absurd (Option.some.inj answer) (named port)
            | cons first name =>
                refine .named first name ?_ fun member => ?_
                · rintro rfl
                  exact other _ split.symm
                · simpa using plain _ member
  · rintro ⟨rfl, hosted, colon⟩
    cases hosted with
    | bracketed inner closed =>
        have pieces : cut (· == ']') (inner ++ ']' :: port) = (inner, ']' :: port) :=
          cut_mark closed
        simp [splitHost, pieces]
    | named first name opens plain =>
        have pieces : cut (· == ':') (first :: name ++ port) = (first :: name, port) := by
          refine (cut_iff _ _ _).mpr ⟨rfl, fun char member => ?_, fun char first => ?_⟩
          · exact beq_eq_false_iff_ne.mpr (ne_of_mem_of_not_mem member plain)
          · exact beq_iff_eq.mpr (colon (by simpa using opens) char first)
        rw [splitHost]
        · rw [pieces]
        · rintro text same
          exact opens (List.cons.inj same).1

theorem scheme_colon {scheme : List Char} (sound : isScheme scheme = true) : ':' ∉ scheme := by
  cases scheme with
  | nil => exact List.not_mem_nil
  | cons first rest =>
      obtain ⟨alpha, others⟩ := Bool.and_eq_true_iff.mp sound
      intro member
      rcases List.mem_cons.mp member with rfl | later
      · exact absurd alpha (by decide)
      · exact absurd (List.all_eq_true.mp others _ later) (by decide)

theorem parts_iff (text : List Char) (parts : Parts) :
    partsOf text = some parts ↔ parts.text = text ∧ parts.Sound := by
  constructor
  · intro answer
    unfold partsOf at answer
    split at answer
    · next scheme after pieces =>
        obtain ⟨rfl, _, _⟩ := (cut_iff _ _ _).mp pieces
        split at answer
        next authority rest bounded =>
        split at answer
        · next valid =>
            obtain ⟨⟨host, port⟩, hosted, rfl⟩ := Option.map_eq_some_iff.mp answer
            obtain ⟨rfl, within, ends⟩ := (cut_iff _ _ _).mp bounded
            obtain ⟨split, user, plain⟩ := (@last_iff Char (· == '@') authority _ _).mp rfl
            obtain ⟨joined, named, colon⟩ := (split_host_iff _ _ _).mp hosted
            rw [← joined] at split plain
            refine ⟨?_, valid, ?_, named, colon, ?_, ?_, ends⟩
            · simp only [Parts.text, split]
            · exact fun char last => by simpa using user char last
            · exact fun member => by simpa using plain _ member
            · rw [split]
              exact within
        · cases answer
    · cases answer
  · rintro ⟨rfl, sound⟩
    have scheme : cut (· == ':') parts.text = (parts.scheme, ':' :: '/' :: '/' ::
        (parts.user ++ (parts.host ++ parts.port) ++ parts.rest)) :=
      cut_mark (scheme_colon sound.scheme)
    have authority : cut isEnd (parts.user ++ (parts.host ++ parts.port) ++ parts.rest) =
        (parts.user ++ (parts.host ++ parts.port), parts.rest) :=
      (cut_iff _ _ _).mpr ⟨rfl, sound.within, sound.ends⟩
    have user : (uptoLast (· == '@') (parts.user ++ (parts.host ++ parts.port)),
        afterLast (· == '@') (parts.user ++ (parts.host ++ parts.port))) =
          (parts.user, parts.host ++ parts.port) := by
      refine (last_iff _ _ _).mpr ⟨rfl, fun char last => ?_, fun char member => ?_⟩
      · exact beq_iff_eq.mpr (sound.user char last)
      · exact beq_eq_false_iff_ne.mpr (ne_of_mem_of_not_mem member sound.plain)
    have host := (split_host_iff _ _ _).mpr ⟨rfl, sound.host, sound.port⟩
    obtain ⟨before, after⟩ := Prod.mk.inj user
    unfold partsOf
    simp only [scheme, authority, before, after, host, if_pos sound.scheme, Option.map_some]

variable {standardPort : List Char → Option Nat}

theorem parse_iff (text : List Char) (origin : Origin) :
    parse standardPort text = some origin ↔
      ∃ parts : Parts, (parts.text = text ∧ parts.Sound) ∧
        parts.origin standardPort = some origin := by
  simp only [parse, Option.bind_eq_some_iff, parts_iff]

/-- A URL that is its origin alone. -/
def IsOrigin (standardPort : List Char → Option Nat) (text : List Char) : Prop :=
  ∃ parts : Parts, (parts.text = text ∧ parts.Sound) ∧ parts.user = [] ∧ parts.rest = [] ∧
    parts.port ≠ [':'] ∧ (parts.origin standardPort).isSome = true

theorem is_origin_iff (text : List Char) : IsOrigin standardPort text ↔
    ∃ parts ∈ partsOf text, parts.user = [] ∧ parts.rest = [] ∧ parts.port ≠ [':'] ∧
      (parts.origin standardPort).isSome = true := by
  simp only [IsOrigin, ← parts_iff, Option.mem_def]

instance (text : List Char) : Decidable (IsOrigin standardPort text) :=
  decidable_of_iff _ (is_origin_iff text).symm

/-- The end of the authority is next. -/
def Ended (rest : List Char) : Prop := ∀ char ∈ rest.head?, isEnd char = true

/-- A host and a port, as they are written, are those of the parts. -/
structure Parts.Places (standard : Option Nat) (parts : Parts) (host port : List Char) :
    Prop where
  host : lower host = lower parts.host
  port : portOf standard port = portOf standard parts.port

theorem lower_char {char mark : Char} (plain : mark.isAlpha = false) :
    char.toLower = mark ↔ char = mark := by
  have fixed {letter : Char} (other : letter.isAlpha = false) : letter.toLower = letter :=
    Char.toLower_eq_of_not_isUpper fun upper => by simp [Char.isAlpha, upper] at other
  constructor
  · rintro rfl
    rw [Char.isAlpha_toLower_eq_isAlpha] at plain
    exact (fixed plain).symm
  · rintro rfl
    exact fixed plain

theorem lower_mem {mark : Char} {text : List Char} (plain : mark.isAlpha = false) :
    mark ∈ lower text ↔ mark ∈ text := by
  simp only [lower, List.mem_map, lower_char plain, exists_eq_right]

theorem Hosted.lowered {host other : List Char} (same : lower host = lower other)
    (hosted : Hosted other) : Hosted host := by
  cases hosted with
  | bracketed inner closed =>
      cases host with
      | nil => simp [lower] at same
      | cons first tail =>
          simp only [lower, List.map_cons, List.map_append, List.map_nil, List.cons.injEq] at same
          obtain ⟨opens, inside⟩ := same
          obtain rfl : first = '[' := (lower_char (by decide)).mp opens
          obtain ⟨text, last, rfl, within, closes⟩ := List.map_eq_append_iff.mp inside
          obtain ⟨mark, rfl, ends⟩ := List.map_eq_singleton_iff.mp closes
          obtain rfl : mark = ']' := (lower_char (by decide)).mp ends
          refine .bracketed text fun member => closed ?_
          rw [← lower_mem (by decide), lower, ← within]
          exact List.mem_map_of_mem member
  | named first name opens plain =>
      cases host with
      | nil => simp [lower] at same
      | cons head tail =>
          refine .named head tail ?_ fun member => plain ?_
          · rintro rfl
            exact opens ((lower_char (by decide)).mp (List.cons.inj same).1.symm)
          · rw [← lower_mem (by decide), ← same]
            exact (lower_mem (by decide)).mpr member

/-- A host goes on without a colon, and not at all behind its bracket. -/
theorem Hosted.longer {host more : List Char} (hosted : Hosted host)
    (grown : Hosted (host ++ more)) : ':' ∉ more ∧ (host.head? = some '[' → more = []) := by
  generalize whole : host ++ more = text at grown
  cases hosted with
  | bracketed inner closed =>
      cases grown with
      | bracketed outer shut =>
          have same : inner ++ ']' :: more = outer ++ [']'] := by simpa using whole
          simp [(first_mark same closed shut).2]
      | named first name opens => exact absurd (List.cons.inj whole).1.symm opens
  | named first name opens plain =>
      refine ⟨fun member => ?_, fun head => absurd (Option.some.inj head) opens⟩
      cases grown with
      | bracketed => exact absurd (List.cons.inj whole).1 opens
      | named head tail _ without => exact without (whole ▸ List.mem_append_right _ member)

theorem port_text {standard : Option Nat} {text : List Char}
    (read : (portOf standard text).isSome = true) :
    text = [] ∨ ∃ digits : List Char, text = ':' :: digits ∧
      digits.all Char.isDigit = true ∧ number digits ≤ 65535 := by
  unfold portOf at read
  split at read
  · exact .inl rfl
  · exact .inr ⟨[], rfl, rfl, by decide⟩
  · split at read
    · next digits _ valid => exact .inr ⟨digits, rfl, valid⟩
    · cases read
  · cases read

theorem port_plain {standard : Option Nat} {text : List Char}
    (read : (portOf standard text).isSome = true) {char : Char} (member : char ∈ text) :
    char ≠ '@' ∧ isEnd char = false := by
  rcases port_text read with rfl | ⟨digits, rfl, valid, _⟩
  · cases member
  · rcases List.mem_cons.mp member with rfl | later
    · decide
    · have digit := List.all_eq_true.mp valid char later
      refine ⟨?_, Bool.eq_false_iff.mpr fun stops => ?_⟩
      · rintro rfl
        exact absurd digit (by decide)
      · simp only [isEnd, List.contains_iff_mem, List.mem_cons, List.not_mem_nil, or_false] at stops
        rcases stops with rfl | rfl | rfl <;> exact absurd digit (by decide)

theorem number_append (front back : List Char) :
    number (front ++ back) = number front * 10 ^ back.length + number back := by
  have shifted (start : Nat) (digits : List Char) :
      digits.foldl (fun value digit => 10 * value + (digit.toNat - '0'.toNat)) start =
        start * 10 ^ digits.length + number digits := by
    induction digits generalizing start with
    | nil => simp [number]
    | cons digit rest ih =>
        rw [number, List.foldl_cons, List.foldl_cons, ih, ih (10 * 0 + _), List.length_cons]
        grind
  rw [number, List.foldl_append, shifted]
  rfl

theorem number_zero {digits : List Char} (valid : digits.all Char.isDigit = true) :
    number digits = 0 ↔ ∀ digit ∈ digits, digit = '0' := by
  induction digits with
  | nil => simp [number]
  | cons digit rest ih =>
      obtain ⟨first, others⟩ := Bool.and_eq_true_iff.mp valid
      have head : number [digit] = 0 ↔ digit = '0' := by
        simp only [number, List.foldl_cons, List.foldl_nil]
        simp only [Char.isDigit, Bool.and_eq_true, decide_eq_true_eq] at first
        rw [← Char.toNat_inj]
        grind [UInt32.le_iff_toNat_le, Char.toNat_val]
      rw [← List.singleton_append, number_append, List.forall_mem_append, ← ih others,
        List.forall_mem_singleton, ← head]
      have scale : 10 ^ rest.length ≠ 0 := Nat.pos_iff_ne_zero.mp (Nat.pow_pos (by decide))
      simp only [Nat.add_eq_zero_iff, Nat.mul_eq_zero, scale, or_false]

theorem port_number {standard : Option Nat} {digits : List Char} (filled : digits ≠ [])
    (valid : digits.all Char.isDigit = true) (small : number digits ≤ 65535) :
    portOf standard (':' :: digits) = some (some (number digits)) := by
  cases digits with
  | nil => exact absurd rfl filled
  | cons digit rest => exact if_pos ⟨valid, small⟩

/-- A port that is left out stays the standard one: nothing follows, or a colon and
the standard port. -/
theorem portless_iff {standard : Option Nat} {more : List Char} :
    portOf standard more = some standard ↔ more = [] ∨
      ∃ digits : List Char, more = ':' :: digits ∧ (digits = [] ∨
        digits.all Char.isDigit = true ∧ number digits ≤ 65535 ∧
          standard = some (number digits)) := by
  constructor
  · intro same
    have text := port_text (by rw [same]; rfl : (portOf standard more).isSome = true)
    rcases text with none | ⟨digits, rfl, valid, small⟩
    · exact .inl none
    · refine .inr ⟨digits, rfl, ?_⟩
      by_cases filled : digits = []
      · exact .inl filled
      · rw [port_number filled valid small] at same
        exact .inr ⟨valid, small, (Option.some.inj same).symm⟩
  · rintro (rfl | ⟨digits, rfl, rfl | ⟨valid, small, rfl⟩⟩)
    · rfl
    · rfl
    · by_cases filled : digits = []
      · subst filled
        rfl
      · exact port_number filled valid small

/-- A written port stays the same number only with nothing behind it, or as zero
with more zeros. -/
theorem grown_port_iff {standard : Option Nat} {digits more : List Char} (filled : digits ≠ [])
    (valid : digits.all Char.isDigit = true) (small : number digits ≤ 65535) :
    portOf standard (':' :: (digits ++ more)) = some (some (number digits)) ↔
      more = [] ∨ number digits = 0 ∧ ∀ digit ∈ more, digit = '0' := by
  have longer : digits ++ more ≠ [] := by simp [filled]
  constructor
  · intro same
    have text := port_text
      (by rw [same]; rfl : (portOf standard (':' :: (digits ++ more))).isSome = true)
    rcases text with none | ⟨text, whole, every, within⟩
    · cases none
    · obtain rfl := (List.cons.inj whole).2
      rw [port_number longer every within, Option.some.injEq, Option.some.injEq,
        number_append] at same
      rw [List.all_append, Bool.and_eq_true] at every
      by_cases bare : more = []
      · exact .inl bare
      · -- another digit multiplies the number by ten at least
        have scale : 10 ≤ 10 ^ more.length :=
          Nat.le_self_pow (by simpa using bare) 10
        have grown := Nat.mul_le_mul_left (number digits) scale
        have zero : number digits = 0 := by omega
        refine .inr ⟨zero, (number_zero every.2).mp ?_⟩
        rw [zero, Nat.zero_mul, Nat.zero_add] at same
        exact same
  · rintro (rfl | ⟨zero, all⟩)
    · rw [List.append_nil, port_number filled valid small]
    · have every : more.all Char.isDigit = true :=
        List.all_eq_true.mpr fun digit member => by rw [all digit member]; rfl
      have same : number (digits ++ more) = number digits := by
        rw [number_append, (number_zero every).mpr all, zero, Nat.zero_mul]
      have whole : (digits ++ more).all Char.isDigit = true := by
        rw [List.all_append, valid, every]; rfl
      rw [port_number longer whole (same ▸ small), same]

/-- What may follow a port without changing it. -/
theorem same_port_iff {standard : Option Nat} {port more : List Char}
    (read : (portOf standard port).isSome = true) (named : port ≠ [':']) :
    portOf standard (port ++ more) = portOf standard port ↔ more = [] ∨
      (port = [] ∧ ∃ digits : List Char, more = ':' :: digits ∧ (digits = [] ∨
        digits.all Char.isDigit = true ∧ number digits ≤ 65535 ∧
          standard = some (number digits))) ∨
      ∃ digits : List Char, port = ':' :: digits ∧ number digits = 0 ∧
        ∀ digit ∈ more, digit = '0' := by
  rcases port_text read with rfl | ⟨digits, rfl, valid, small⟩
  · rw [List.nil_append]
    exact portless_iff.trans (by simp)
  · have filled : digits ≠ [] := fun none => named (by rw [none])
    rw [port_number filled valid small, List.cons_append, grown_port_iff filled valid small]
    simp

variable {own entry : Parts}

/-- Another place and user in sound parts: what is written is sound again. -/
theorem Parts.Sound.placed (sound : own.Sound) (meant : entry.Sound) {standard : Option Nat}
    {user host port rest : List Char} (names : ∀ char ∈ user.getLast?, char = '@')
    (inside : ∀ char ∈ user, isEnd char = false) (ends : Ended rest)
    (place : entry.Places standard host port) (read : (portOf standard port).isSome = true) :
    (Parts.mk own.scheme user host port rest).Sound := by
  have without {mark : Char} (plain : mark.isAlpha = false) (absent : mark ∉ entry.host) :
      mark ∉ host := by
    rw [← lower_mem plain, place.host]
    exact mt (lower_mem plain).mp absent
  refine ⟨sound.scheme, names, meant.host.lowered place.host, fun _ char first => ?_, ?_, ?_, ends⟩
  · rcases port_text read with rfl | ⟨digits, rfl, _⟩
    · cases first
    · exact (Option.some.inj first).symm
  · intro member
    rcases List.mem_append.mp member with hosted | ported
    · refine without (by decide) (fun listed => meant.plain ?_) hosted
      exact List.mem_append_left _ listed
    · exact (port_plain read ported).1 rfl
  · intro char member
    rcases List.mem_append.mp member with named | placed
    · exact inside char named
    · rcases List.mem_append.mp placed with hosted | ported
      · refine Bool.eq_false_iff.mpr fun stops => ?_
        have plain : char.isAlpha = false := by
          simp only [isEnd, List.contains_iff_mem, List.mem_cons, List.not_mem_nil, or_false]
            at stops
          rcases stops with rfl | rfl | rfl <;> decide
        refine without plain (fun listed => ?_) hosted
        have open_ := meant.within char (List.mem_append_right _ (List.mem_append_left _ listed))
        exact absurd stops (by simp [open_])
      · exact (port_plain read ported).2

/-- A place that begins with the place of `own`: more of the host, which only an
origin without a port leaves open, and more of the port. -/
theorem place_tail (sound : own.Sound) {standard : Option Nat}
    (listed : (portOf standard own.port).isSome = true) {tail host port rest : List Char}
    (hosted : Hosted host) (read : (portOf standard port).isSome = true) (ends : Ended rest)
    (same : own.host ++ (own.port ++ tail) = host ++ (port ++ rest)) :
    ∃ name more : List Char, host = own.host ++ name ∧ port = own.port ++ more ∧
      tail = name ++ (more ++ rest) ∧ (own.port ≠ [] → name = []) := by
  have open_ {char : Char} (member : char ∈ own.host ++ own.port) : isEnd char = false :=
    sound.within char (List.mem_append_right _ member)
  have grown : ∃ name : List Char, host = own.host ++ name ∧
      own.port ++ tail = name ++ (port ++ rest) := by
    rcases List.append_eq_append_iff.mp same with ⟨name, longer, left⟩ | ⟨name, shorter, left⟩
    · exact ⟨name, longer, left⟩
    · cases name with
      | nil => exact ⟨[], by simpa using shorter.symm, by simpa using left.symm⟩
      | cons char name =>
          -- the place ends at a colon or at the end of the authority, no host there
          have colonless := (hosted.longer (shorter ▸ sound.host)).1
          have placed : char ∈ own.host := shorter ▸ by simp
          have inside := open_ (List.mem_append_left own.port placed)
          rcases port_text read with rfl | ⟨digits, rfl, _⟩
          · have stops := ends char (by rw [← List.nil_append rest, left]; rfl)
            exact absurd stops (by simp [inside])
          · obtain ⟨rfl, _⟩ := List.cons.inj left
            exact absurd (List.mem_cons_self ..) colonless
  obtain ⟨name, rfl, left⟩ := grown
  rcases port_text listed with none | ⟨digits, ported, _⟩
  · refine ⟨name, port, rfl, by simp [none], by simpa [none] using left, fun some => ?_⟩
    exact absurd none some
  · have nameless : name = [] := by
      cases name with
      | nil => rfl
      | cons char name =>
          rw [ported] at left
          obtain ⟨rfl, _⟩ := List.cons.inj left
          exact absurd (List.mem_cons_self ..) (sound.host.longer hosted).1
    subst nameless
    rw [List.nil_append] at left
    rcases List.append_eq_append_iff.mp left with ⟨more, longer, behind⟩ | ⟨more, shorter, behind⟩
    · exact ⟨[], more, rfl, longer, behind, fun _ => rfl⟩
    · cases more with
      | nil =>
          refine ⟨[], [], rfl, ?_, by simpa using behind.symm, fun _ => rfl⟩
          simpa using shorter.symm
      | cons char more =>
          have stops := ends char (behind ▸ rfl)
          have ported : char ∈ own.port := shorter ▸ by simp
          have inside := open_ (List.mem_append_right own.host ported)
          exact absurd stops (by simp [inside])

/-- A user that begins with a text without an `@` ends behind it. -/
theorem user_tail {front tail user behind : List Char} (plain : '@' ∉ front) (filled : user ≠ [])
    (ends : ∀ char ∈ user.getLast?, char = '@') (same : front ++ tail = user ++ behind) :
    ∃ more : List Char, user = front ++ (more ++ ['@']) ∧ tail = more ++ '@' :: behind := by
  rcases List.eq_nil_or_concat user with none | ⟨init, last, rfl⟩
  · exact absurd none filled
  · obtain rfl : last = '@' := ends last (by simp)
    have after : front ++ tail = init ++ '@' :: behind := by simpa using same
    rcases List.append_eq_append_iff.mp after with ⟨more, rfl, left⟩ | ⟨more, rfl, left⟩
    · exact ⟨more, by simp, left⟩
    · cases more with
      | nil => exact ⟨[], by simp, by simpa using left.symm⟩
      | cons char more =>
          obtain ⟨rfl, _⟩ := List.cons.inj left
          exact absurd (by simp) plain

/-- The text behind an origin leaves it that of `entry` in two ways: up to the end
of the authority it makes the place of `entry` of the place before it, or it
turns that one into a user and writes the place of `entry` behind an `@`. -/
theorem tail_iff {tail : List Char} (sound : own.Sound) (userless : own.user = [])
    (bare : own.rest = []) (listed : (own.origin standardPort).isSome = true)
    (meant : entry.Sound) (known : (entry.origin standardPort).isSome = true) :
    (∃ origin, entry.origin standardPort = some origin ∧
        parse standardPort (own.text ++ tail) = some origin) ↔
      lower own.scheme = lower entry.scheme ∧
        ((∃ name more rest : List Char, tail = name ++ (more ++ rest) ∧ Ended rest ∧
            (own.port ≠ [] → name = []) ∧
            entry.Places (standardPort (lower own.scheme)) (own.host ++ name) (own.port ++ more)) ∨
          ∃ user host port rest : List Char, tail = user ++ '@' :: (host ++ port ++ rest) ∧
            (∀ char ∈ user, isEnd char = false) ∧ Ended rest ∧
            entry.Places (standardPort (lower own.scheme)) host port) := by
  rw [Parts.origin, Option.isSome_map] at listed
  obtain ⟨origin, named⟩ := Option.isSome_iff_exists.mp known
  obtain ⟨port, wrote, rfl⟩ := Option.map_eq_some_iff.mp named
  have text : own.text ++ tail =
      own.scheme ++ ':' :: '/' :: '/' :: (own.host ++ (own.port ++ tail)) := by
    simp [Parts.text, userless, bare]
  simp only [named, Option.some.injEq, exists_eq_left', parse_iff, text]
  constructor
  · rintro ⟨spelled, ⟨same, soundly⟩, reads⟩
    obtain ⟨spelledPort, writes, origins⟩ := Option.map_eq_some_iff.mp reads
    obtain ⟨scheme, host, rfl⟩ := Origin.mk.inj origins
    obtain ⟨schemes, after⟩ := first_mark same (scheme_colon soundly.scheme)
      (scheme_colon sound.scheme)
    rw [schemes] at scheme writes
    have place : entry.Places (standardPort (lower own.scheme)) spelled.host spelled.port :=
      ⟨host, by rw [writes, scheme, wrote]⟩
    have read : (portOf (standardPort (lower own.scheme)) spelled.port).isSome = true := by
      rw [writes]; rfl
    have behind : own.host ++ (own.port ++ tail) =
        spelled.user ++ (spelled.host ++ spelled.port ++ spelled.rest) := by simpa using after.symm
    refine ⟨scheme, ?_⟩
    -- without a user the place of `own` begins the place that is read, else the user
    by_cases none : spelled.user = []
    · rw [none, List.nil_append, List.append_assoc] at behind
      obtain ⟨name, more, hosts, ports, left, placed⟩ :=
        place_tail sound listed soundly.host read soundly.ends behind
      exact .inl ⟨name, more, spelled.rest, left, soundly.ends, placed, hosts ▸ ports ▸ place⟩
    · rw [← List.append_assoc] at behind
      obtain ⟨user, users, left⟩ := user_tail sound.plain none soundly.user behind
      refine .inr ⟨user, spelled.host, spelled.port, spelled.rest, left, fun char member => ?_,
        soundly.ends, place⟩
      exact soundly.within char (by simp [users, member])
  · rintro ⟨scheme, ways⟩
    rw [← scheme] at wrote
    have reads {host port : List Char}
        (place : entry.Places (standardPort (lower own.scheme)) host port) :
        (portOf (standardPort (lower own.scheme)) port).isSome = true := by
      rw [place.port, wrote]; rfl
    have origins {user host port rest : List Char}
        (place : entry.Places (standardPort (lower own.scheme)) host port) :
        (Parts.mk own.scheme user host port rest).origin standardPort =
          some ⟨lower entry.scheme, lower entry.host, _⟩ :=
      Option.map_eq_some_iff.mpr ⟨_, place.port.trans wrote, by rw [place.host, scheme]⟩
    -- either way the parts that the text is read in are written down and sound
    rcases ways with ⟨name, more, rest, rfl, ends, placed, place⟩ |
      ⟨user, host, port, rest, rfl, inside, ends, place⟩
    · refine ⟨⟨own.scheme, [], own.host ++ name, own.port ++ more, rest⟩, ⟨?_, ?_⟩, origins place⟩
      · by_cases portless : own.port = []
        · simp [Parts.text, portless]
        · simp [Parts.text, placed portless]
      · exact sound.placed meant (by simp) (by simp) ends place (reads place)
    · refine ⟨⟨own.scheme, own.host ++ own.port ++ user ++ ['@'], host, port, rest⟩, ⟨?_, ?_⟩,
        origins place⟩
      · simp [Parts.text]
      · refine sound.placed meant (by simp) (fun char member => ?_) ends place (reads place)
        rcases List.mem_append.mp member with before | last
        · rcases List.mem_append.mp before with placed | named
          · exact sound.within char (List.mem_append_right _ placed)
          · exact inside char named
        · obtain rfl := List.mem_singleton.mp last
          rfl

end Grammar

end RunnerupChat.UrlOrigins
