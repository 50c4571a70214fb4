import Mathlib.Algebra.Group.Nat.Defs
import Mathlib.Data.List.Basic

/-!
Words of digits, the most significant digit first. On words of one length the
lexicographic order is the order of the numbers, whatever the base, and it
does not change when the digits are written in an alphabet of the same order
or when a separator is put at fixed places.
-/

namespace RunnerupChat.DigitOrder

def digits (base : Nat) : Nat → Nat → List Nat
  | 0, _ => []
  | width + 1, number => number / base ^ width % base :: digits base width number

/-- The word with a separator after each of the first groups. -/
def grouped {Letter : Type} (separator : Letter) : List Nat → List Letter → List Letter
  | [], word => word
  | size :: sizes, word => word.take size ++ separator :: grouped separator sizes (word.drop size)

@[simp] theorem digits_length (base width number : Nat) :
    (digits base width number).length = width := by
  induction width with
  | zero => rfl
  | succ width ih => simp [digits, ih]

theorem digits_below {base : Nat} (positive : 0 < base) (width number : Nat) :
    ∀ digit ∈ digits base width number, digit < base := by
  induction width with
  | zero => simp [digits]
  | succ width ih =>
      intro digit member
      rcases List.mem_cons.mp member with rfl | later
      · exact Nat.mod_lt _ positive
      · exact ih digit later

/-- Two numbers below `base * size`, compared by quotient and then by remainder. -/
theorem quotient_lt_iff {size first second left right : Nat} (below : left < size)
    (bounded : right < size) :
    left + size * first < right + size * second ↔
      first < second ∨ first = second ∧ left < right := by
  constructor
  · intro less
    rcases Nat.lt_trichotomy first second with smaller | same | larger
    · exact Or.inl smaller
    · subst same
      exact Or.inr ⟨rfl, by omega⟩
    · have step := Nat.mul_le_mul_left size (Nat.succ_le_of_lt larger)
      rw [Nat.mul_succ] at step
      omega
  · rintro (smaller | ⟨rfl, less⟩)
    · have step := Nat.mul_le_mul_left size (Nat.succ_le_of_lt smaller)
      rw [Nat.mul_succ] at step
      omega
    · omega

section Order
variable {base : Nat} (positive : 0 < base)
include positive

theorem digits_lt_mod_iff (width left right : Nat) :
    digits base width left < digits base width right ↔
      left % base ^ width < right % base ^ width := by
  induction width with
  | zero => simp [digits, Nat.mod_one]
  | succ width ih =>
      have size : 0 < base ^ width := Nat.pow_pos positive
      rw [digits, digits, List.cons_lt_cons_iff, ih, Nat.pow_succ, Nat.mod_mul, Nat.mod_mul,
        quotient_lt_iff (Nat.mod_lt _ size) (Nat.mod_lt _ size)]

theorem digits_lt_iff {width left right : Nat} (fits : left < base ^ width)
    (bounded : right < base ^ width) :
    digits base width left < digits base width right ↔ left < right := by
  rw [digits_lt_mod_iff positive, Nat.mod_eq_of_lt fits, Nat.mod_eq_of_lt bounded]

end Order

section Values
variable {base : Nat}

/-- The number that a word of digits writes. -/
def value (base : Nat) : List Nat → Nat
  | [] => 0
  | digit :: rest => digit * base ^ rest.length + value base rest

theorem value_lt (word : List Nat) (below : ∀ digit ∈ word, digit < base) :
    value base word < base ^ word.length := by
  induction word with
  | nil => exact Nat.one_pos
  | cons digit rest ih =>
      have tail := ih fun other later => below other (List.mem_cons_of_mem digit later)
      have head := Nat.mul_le_mul_right (base ^ rest.length) (below digit List.mem_cons_self)
      rw [Nat.succ_mul] at head
      rw [value, List.length_cons, Nat.pow_succ, Nat.mul_comm (base ^ rest.length)]
      omega

/-- A word of digits says nothing of what stands above its highest digit. -/
theorem digits_above (positive : 0 < base) (width high low : Nat) :
    digits base width (high * base ^ width + low) = digits base width low := by
  induction width generalizing high with
  | zero => rfl
  | succ width ih =>
      have size : 0 < base ^ width := Nat.pow_pos positive
      have split : high * base ^ (width + 1) + low = high * base * base ^ width + low := by
        rw [Nat.pow_succ, Nat.mul_assoc, Nat.mul_comm base]
      rw [digits, digits, split, ih, Nat.add_comm, Nat.add_mul_div_right _ _ size,
        Nat.add_mul_mod_self_right]

theorem digits_value (positive : 0 < base) (word : List Nat) (below : ∀ digit ∈ word, digit < base) :
    digits base word.length (value base word) = word := by
  induction word with
  | nil => rfl
  | cons digit rest ih =>
      have tail : ∀ other ∈ rest, other < base := fun other later =>
        below other (List.mem_cons_of_mem digit later)
      have size : 0 < base ^ rest.length := Nat.pow_pos positive
      have head : (digit * base ^ rest.length + value base rest) / base ^ rest.length = digit := by
        rw [Nat.add_comm, Nat.add_mul_div_right _ _ size, Nat.div_eq_of_lt (value_lt rest tail),
          Nat.zero_add]
      rw [value, List.length_cons, digits, digits_above positive, ih tail, head,
        Nat.mod_eq_of_lt (below digit List.mem_cons_self)]

theorem value_digits (width number : Nat) :
    value base (digits base width number) = number % base ^ width := by
  induction width with
  | zero => rw [Nat.pow_zero, Nat.mod_one]; rfl
  | succ width ih =>
      rw [digits, value, digits_length, ih, Nat.pow_succ, Nat.mod_mul, Nat.add_comm,
        Nat.mul_comm (base ^ width)]

end Values

section Letters
variable {Letter : Type} [LT Letter]

/-- Digits written in an alphabet that keeps their order. -/
theorem map_lt_iff {base : Nat} {letter : Nat → Letter}
    (ordered : ∀ first second, first < base → second < base →
      (letter first < letter second ↔ first < second))
    (distinct : ∀ first second, first < base → second < base →
      (letter first = letter second ↔ first = second))
    (left right : List Nat) (below : ∀ digit ∈ left, digit < base)
    (bounded : ∀ digit ∈ right, digit < base) :
    left.map letter < right.map letter ↔ left < right := by
  induction left generalizing right with
  | nil => cases right with
    | nil => simp
    | cons second rest => simp
  | cons first others ih => cases right with
    | nil => simp
    | cons second rest =>
        have head := below first List.mem_cons_self
        have other := bounded second List.mem_cons_self
        rw [List.map_cons, List.map_cons, List.cons_lt_cons_iff, List.cons_lt_cons_iff,
          ordered first second head other, distinct first second head other,
          ih rest (fun digit later => below digit (List.mem_cons_of_mem first later))
            (fun digit later => bounded digit (List.mem_cons_of_mem second later))]

theorem append_lt_iff {left right : List Letter} (same : left.length = right.length)
    (others rest : List Letter) :
    left ++ others < right ++ rest ↔ left < right ∨ left = right ∧ others < rest := by
  induction left generalizing right with
  | nil => simp [List.length_eq_zero_iff.mp same.symm]
  | cons first tail ih => cases right with
    | nil => simp at same
    | cons second after =>
        have shorter : tail.length = after.length := by simpa using same
        rw [List.cons_append, List.cons_append, List.cons_lt_cons_iff, List.cons_lt_cons_iff,
          ih shorter, List.cons.injEq]
        tauto

theorem grouped_lt_iff {separator : Letter} (irreflexive : ¬separator < separator)
    (sizes : List Nat) {left right : List Letter} (same : left.length = right.length) :
    grouped separator sizes left < grouped separator sizes right ↔ left < right := by
  induction sizes generalizing left right with
  | nil => rfl
  | cons size sizes ih =>
      have heads : (left.take size).length = (right.take size).length := by simp [same]
      have tails : (left.drop size).length = (right.drop size).length := by simp [same]
      rw [grouped, grouped, append_lt_iff heads, List.cons_lt_cons_iff, ih tails]
      simp only [irreflexive, false_or, true_and]
      rw [← append_lt_iff heads, List.take_append_drop, List.take_append_drop]

end Letters

end RunnerupChat.DigitOrder
