import Mathlib.Data.List.DropRight

/-!
Texts that are rewritten from left to right: both ends are trimmed, and each
symbol that is read gives at most one. Where a symbol of the result stands, the
text is split at the symbol it was made from.
-/

namespace RunnerupChat.Scanning

section Trimming
variable {Symbol : Type} {skip : Symbol → Bool}

/-- What is left between the skipped symbols at both ends. -/
def trim (skip : Symbol → Bool) (text : List Symbol) : List Symbol :=
  (text.dropWhile skip).rdropWhile skip

theorem trim_sublist (text : List Symbol) : (trim skip text).Sublist text :=
  (List.rdropWhile_prefix _ _).sublist.trans (List.dropWhile_sublist _)

theorem trim_nil_iff (text : List Symbol) :
    trim skip text = [] ↔ ∀ symbol ∈ text, skip symbol = true := by
  unfold trim
  rw [List.rdropWhile_eq_nil_iff]
  constructor
  · intro rest symbol member
    rw [← List.takeWhile_append_dropWhile (p := skip) (l := text)] at member
    rcases List.mem_append.mp member with early | late
    · exact List.mem_takeWhile_imp early
    · exact rest symbol late
  · intro all symbol member
    exact all symbol ((List.dropWhile_sublist skip).subset member)

/-- Nothing is taken from a text exactly when its ends stay. -/
theorem trim_fixed_iff (text : List Symbol) :
    trim skip text = text ↔ (∀ symbol ∈ text.head?, skip symbol = false) ∧
      ∀ symbol ∈ text.getLast?, skip symbol = false := by
  have opens : text.dropWhile skip = text ↔ ∀ symbol ∈ text.head?, skip symbol = false := by
    cases text with
    | nil => simp
    | cons first rest => simp [List.dropWhile_eq_self_iff]
  have closes : text.rdropWhile skip = text ↔ ∀ symbol ∈ text.getLast?, skip symbol = false := by
    rw [List.rdropWhile_eq_self_iff]
    constructor
    · intro stays symbol last
      obtain ⟨front, rfl⟩ := List.getLast?_eq_some_iff.mp last
      simpa using stays (by simp)
    · intro stays present
      simpa using stays _ (List.getLast?_eq_some_getLast present)
  rw [← opens, ← closes]
  constructor
  · intro whole
    have start : text.dropWhile skip = text := by
      apply (List.dropWhile_sublist skip).eq_of_length_le
      have shorter := ((List.rdropWhile_prefix skip (text.dropWhile skip)).sublist).length_le
      rw [← trim, whole] at shorter
      exact shorter
    refine ⟨start, ?_⟩
    rw [trim, start] at whole
    exact whole
  · rintro ⟨start, ending⟩
    rw [trim, start, ending]

theorem drop_append {front : List Symbol} (kept : ∃ symbol ∈ front, skip symbol = false)
    (tail : List Symbol) : (front ++ tail).dropWhile skip = front.dropWhile skip ++ tail := by
  obtain ⟨symbol, member, stays⟩ := kept
  rw [List.dropWhile_append, if_neg]
  intro empty
  have all := List.dropWhile_eq_nil_iff.mp (List.isEmpty_iff.mp empty) symbol member
  rw [stays] at all
  cases all

theorem rdrop_append (front : List Symbol) {tail : List Symbol}
    (kept : ∃ symbol ∈ tail, skip symbol = false) :
    (front ++ tail).rdropWhile skip = front ++ tail.rdropWhile skip := by
  obtain ⟨symbol, member, stays⟩ := kept
  unfold List.rdropWhile
  rw [List.reverse_append, drop_append ⟨symbol, List.mem_reverse.mpr member, stays⟩,
    List.reverse_append, List.reverse_reverse]

/-- What is taken from the end is all skipped. -/
theorem rdrop_rest (text : List Symbol) :
    ∃ ending, text = text.rdropWhile skip ++ ending ∧ ∀ symbol ∈ ending, skip symbol = true := by
  refine ⟨text.rtakeWhile skip, List.rdropWhile_append_rtakeWhile.symm, fun symbol member => ?_⟩
  exact List.mem_rtakeWhile_imp member

/-- A part that stays is not reached from the end. -/
theorem rdrop_stays {front : List Symbol} (stays : ∀ symbol ∈ front, skip symbol = false)
    (tail : List Symbol) :
    (front ++ tail).rdropWhile skip = front ++ tail.rdropWhile skip := by
  by_cases kept : ∃ symbol ∈ tail, skip symbol = false
  · exact rdrop_append front kept
  · have skipped : ∀ symbol ∈ tail, skip symbol = true := by simpa using kept
    rw [List.rdropWhile_eq_nil_iff.mpr skipped, List.append_nil]
    unfold List.rdropWhile
    rw [List.reverse_append, List.dropWhile_append_of_pos (by simpa using skipped)]
    have whole : front.reverse.dropWhile skip = front.reverse := by
      rw [List.dropWhile_eq_self_iff]
      intro present
      simpa using stays _ (List.mem_reverse.mp (List.getElem_mem present))
    rw [whole, List.reverse_reverse]

/-- A part that stays keeps what is before it, and is kept from the end. -/
theorem trim_part {text opening kept beyond : List Symbol}
    (start : text.dropWhile skip = opening ++ (kept ++ beyond))
    (stays : ∀ symbol ∈ kept, skip symbol = false) (present : kept ≠ []) :
    trim skip text = opening ++ (kept ++ beyond.rdropWhile skip) := by
  obtain ⟨symbol, member⟩ := List.exists_mem_of_ne_nil kept present
  have inside : ∃ symbol ∈ kept ++ beyond, skip symbol = false :=
    ⟨symbol, List.mem_append_left _ member, stays symbol member⟩
  rw [trim, start, rdrop_append opening inside, rdrop_stays stays]

/-- Nothing is skipped before a symbol when the first symbol stays. -/
theorem first_stays {first symbol : Symbol} {rest front after : List Symbol}
    (stays : skip first = false) (split : first :: rest = front ++ symbol :: after) :
    front.dropWhile skip = front ∧ first ∈ front ++ [symbol] := by
  cases front with
  | nil =>
      obtain ⟨rfl, -⟩ := List.cons.inj split
      exact ⟨rfl, List.mem_singleton_self first⟩
  | cons _ front =>
      obtain ⟨rfl, -⟩ := List.cons.inj split
      exact ⟨List.dropWhile_cons_of_neg (by simp [stays]), List.mem_cons_self⟩

/-- A place after the skipped start. -/
theorem drop_at (text before after : List Symbol) (symbol : Symbol) :
    text.dropWhile skip = before ++ symbol :: after ↔
      ∃ front, text = front ++ symbol :: after ∧ front.dropWhile skip = before ∧
        ∃ other ∈ front ++ [symbol], skip other = false := by
  induction text with
  | nil => simp
  | cons first rest ih =>
      cases skipped : skip first with
      | true =>
          rw [List.dropWhile_cons_of_pos skipped, ih]
          constructor
          · rintro ⟨front, rfl, rfl, other, member, stays⟩
            exact ⟨first :: front, rfl, List.dropWhile_cons_of_pos skipped, other,
              List.mem_cons_of_mem _ member, stays⟩
          · rintro ⟨front, split, rfl, other, member, stays⟩
            cases front with
            | nil =>
                obtain ⟨rfl, -⟩ := List.cons.inj split
                rw [List.mem_singleton.mp member, skipped] at stays
                cases stays
            | cons _ front =>
                obtain ⟨rfl, rfl⟩ := List.cons.inj split
                have apart : other ≠ first := by
                  rintro rfl
                  rw [skipped] at stays
                  cases stays
                exact ⟨front, rfl, (List.dropWhile_cons_of_pos skipped).symm, other,
                  (List.mem_cons.mp member).resolve_left apart, stays⟩
      | false =>
          rw [List.dropWhile_cons_of_neg (by simp [skipped])]
          constructor
          · intro split
            obtain ⟨whole, member⟩ := first_stays skipped split
            exact ⟨before, split, whole, first, member, skipped⟩
          · rintro ⟨front, split, rfl, _⟩
            rw [(first_stays skipped split).1]
            exact split

/-- A place before the skipped end. -/
theorem rdrop_at (text before after : List Symbol) (symbol : Symbol) :
    text.rdropWhile skip = before ++ symbol :: after ↔
      ∃ tail, text = before ++ symbol :: tail ∧ tail.rdropWhile skip = after ∧
        ∃ other ∈ symbol :: tail, skip other = false := by
  have reflected : ∀ front back : List Symbol,
      (front ++ symbol :: back).reverse = back.reverse ++ symbol :: front.reverse := by simp
  have mirrored := @drop_at Symbol skip text.reverse after.reverse before.reverse symbol
  rw [← reflected] at mirrored
  unfold List.rdropWhile
  rw [List.reverse_eq_iff, mirrored]
  constructor
  · rintro ⟨front, split, skipped, other, member, stays⟩
    refine ⟨front.reverse, ?_, ?_, other, ?_, stays⟩
    · rw [List.reverse_eq_iff, reflected] at split
      simpa using split
    · rw [List.reverse_reverse, skipped, List.reverse_reverse]
    · simpa [or_comm] using member
  · rintro ⟨tail, rfl, rfl, other, member, stays⟩
    refine ⟨tail.reverse, reflected before tail, ?_, other, ?_, stays⟩
    · rw [List.reverse_reverse]
    · simpa [or_comm] using member

/-- A place in a trimmed text: something stays on either side of it, itself
included. -/
theorem trim_at (text before after : List Symbol) (symbol : Symbol) :
    trim skip text = before ++ symbol :: after ↔
      ∃ front tail, text = front ++ symbol :: tail ∧ front.dropWhile skip = before ∧
        tail.rdropWhile skip = after ∧ (∃ other ∈ front ++ [symbol], skip other = false) ∧
        ∃ other ∈ symbol :: tail, skip other = false := by
  unfold trim
  rw [rdrop_at]
  constructor
  · rintro ⟨tail, dropped, ends, closed⟩
    obtain ⟨front, split, starts, opened⟩ := (drop_at text before tail symbol).mp dropped
    exact ⟨front, tail, split, starts, ends, opened, closed⟩
  · rintro ⟨front, tail, split, starts, ends, opened, closed⟩
    exact ⟨tail, (drop_at text before tail symbol).mpr ⟨front, split, starts, opened⟩, ends,
      closed⟩

/-- A place in what is left of a text that is cut. -/
theorem take_at (size : Nat) (text before after : List Symbol) (symbol : Symbol) :
    text.take size = before ++ symbol :: after ↔
      ∃ rest, text = before ++ symbol :: rest ∧ before.length < size ∧
        rest.take (size - before.length - 1) = after := by
  have cut : ∀ rest, before.length < size → (before ++ symbol :: rest).take size =
      before ++ symbol :: rest.take (size - before.length - 1) := by
    intro rest within
    obtain ⟨more, enough⟩ := Nat.exists_eq_add_of_lt within
    rw [List.take_append, List.take_of_length_le (Nat.le_of_lt within), enough,
      Nat.add_assoc, Nat.add_sub_cancel_left, List.take_succ_cons, Nat.add_sub_cancel]
  constructor
  · intro taken
    have within : before.length < size := by
      have length := congrArg List.length taken
      rw [List.length_take, List.length_append, List.length_cons] at length
      omega
    have whole : text = before ++ symbol :: (after ++ text.drop size) := by
      rw [← List.cons_append, ← List.append_assoc, ← taken, List.take_append_drop]
    refine ⟨_, whole, within, ?_⟩
    rw [whole, cut _ within] at taken
    exact (List.cons.inj (List.append_cancel_left taken)).2
  · rintro ⟨rest, rfl, within, rfl⟩
    exact cut rest within

end Trimming

section Emission
variable {State Symbol Output : Type} {next : State → Symbol → State}
  {emit : State → Symbol → Option Output}

/-- What is made of the symbols, one after another. -/
def emitted (next : State → Symbol → State) (emit : State → Symbol → Option Output) :
    State → List Symbol → List Output
  | _, [] => []
  | state, symbol :: rest => (emit state symbol).toList ++ emitted next emit (next state symbol) rest

theorem emitted_append (state : State) (front tail : List Symbol) :
    emitted next emit state (front ++ tail) =
      emitted next emit state front ++ emitted next emit (front.foldl next state) tail := by
  induction front generalizing state with
  | nil => rfl
  | cons symbol front ih => simp [emitted, ih]

theorem emitted_length (state : State) (text : List Symbol) :
    (emitted next emit state text).length ≤ text.length := by
  induction text generalizing state with
  | nil => exact Nat.le_refl 0
  | cons symbol rest ih =>
      have later := ih (next state symbol)
      rw [emitted, List.length_append, List.length_cons]
      cases emit state symbol with
      | none =>
          simp only [Option.toList_none, List.length_nil]
          omega
      | some output =>
          simp only [Option.toList_some, List.length_singleton]
          omega

/-- A part of the result is made from a part of the symbols. -/
theorem emitted_split (state : State) (text : List Symbol) (before after : List Output)
    (made : emitted next emit state text = before ++ after) :
    ∃ front tail, text = front ++ tail ∧ emitted next emit state front = before ∧
      emitted next emit (front.foldl next state) tail = after := by
  induction text generalizing state before with
  | nil =>
      obtain ⟨rfl, rfl⟩ := List.nil_eq_append_iff.mp made
      exact ⟨[], [], rfl, rfl, rfl⟩
  | cons symbol rest ih =>
      cases given : emit state symbol with
      | none =>
          have onward : emitted next emit (next state symbol) rest = before ++ after := by
            rw [← made, emitted, given]
            rfl
          obtain ⟨front, tail, rfl, first, second⟩ := ih (next state symbol) before onward
          refine ⟨symbol :: front, tail, rfl, ?_, second⟩
          rw [emitted, given]
          exact first
      | some output =>
          rw [emitted, given, Option.toList_some, List.singleton_append] at made
          cases before with
          | nil =>
              refine ⟨[], symbol :: rest, rfl, rfl, ?_⟩
              rw [List.foldl_nil, emitted, given]
              exact made
          | cons _ before =>
              obtain ⟨rfl, onward⟩ := List.cons.inj made
              obtain ⟨front, tail, rfl, first, second⟩ := ih (next state symbol) before onward
              refine ⟨symbol :: front, tail, rfl, ?_, second⟩
              rw [emitted, given, first]
              rfl

/-- The symbol from which the first part of a result is made. -/
theorem emitted_cons (state : State) (text : List Symbol) (output : Output) (after : List Output)
    (made : emitted next emit state text = output :: after) :
    ∃ front symbol tail, text = front ++ symbol :: tail ∧ emitted next emit state front = [] ∧
      emit (front.foldl next state) symbol = some output ∧
      emitted next emit (next (front.foldl next state) symbol) tail = after := by
  induction text generalizing state with
  | nil => cases made
  | cons symbol rest ih =>
      cases given : emit state symbol with
      | none =>
          rw [emitted, given] at made
          obtain ⟨front, other, tail, rfl, first, here, onward⟩ := ih (next state symbol) made
          refine ⟨symbol :: front, other, tail, rfl, ?_, here, onward⟩
          rw [emitted, given, first]
          rfl
      | some found =>
          rw [emitted, given] at made
          obtain ⟨rfl, onward⟩ := List.cons.inj made
          exact ⟨[], symbol, rest, rfl, rfl, given, onward⟩

/-- A place in the result is the place of the symbol it was made from. -/
theorem emitted_at (state : State) (text : List Symbol) (before after : List Output)
    (output : Output) :
    emitted next emit state text = before ++ output :: after ↔
      ∃ front symbol tail, text = front ++ symbol :: tail ∧
        emitted next emit state front = before ∧
        emit (front.foldl next state) symbol = some output ∧
        emitted next emit (next (front.foldl next state) symbol) tail = after := by
  constructor
  · intro made
    obtain ⟨first, rest, rfl, before_, onward⟩ := emitted_split state text before _ made
    obtain ⟨skipped, symbol, tail, rfl, nothing, here, after_⟩ := emitted_cons _ rest _ _ onward
    refine ⟨first ++ skipped, symbol, tail, by simp, ?_, ?_, ?_⟩
    · rw [emitted_append, nothing, List.append_nil, before_]
    · rw [List.foldl_append]
      exact here
    · rw [List.foldl_append]
      exact after_
  · rintro ⟨front, symbol, tail, rfl, rfl, here, rfl⟩
    rw [emitted_append, emitted, here]
    rfl

end Emission

end RunnerupChat.Scanning
