import Mathlib.Data.List.Basic

/-!
Calls that are carried out at most once under a key. The first call that
stores a value is told that it made it; every call that finds one is told the
value it found.
-/

namespace RunnerupChat.Idempotency

variable {Value : Type}

/-- One step on the slot of a key, with what a call is told. -/
inductive Step : Option Value → List (Value × Bool) → Option Value → Prop
  | silent (slot : Option Value) : Step slot [] slot
  | place (value : Value) : Step none [(value, true)] (some value)
  | reuse (value : Value) : Step (some value) [(value, false)] (some value)

/-- The calls so far were told what one creation and any number of retries are told. -/
def Told (slot : Option Value) (answers : List (Value × Bool)) : Prop :=
  match slot with
  | none => answers = []
  | some value => ∃ retries, answers = (value, true) :: List.replicate retries (value, false)

variable {slot next : Option Value} {told answers : List (Value × Bool)}

theorem told_step (stepped : Step slot answers next) (before : Told slot told) :
    Told next (told ++ answers) := by
  cases stepped with
  | silent => rwa [List.append_nil]
  | place value =>
      obtain rfl : told = [] := before
      exact ⟨0, rfl⟩
  | reuse value =>
      obtain ⟨retries, rfl⟩ := before
      exact ⟨retries + 1, by rw [List.cons_append, ← List.replicate_succ']⟩

/-- What is stored stays stored. -/
theorem slot_kept (stepped : Step slot answers next) {value : Value}
    (stored : slot = some value) : next = some value := by
  cases stepped with
  | silent | reuse => exact stored
  | place => cases stored

end RunnerupChat.Idempotency
