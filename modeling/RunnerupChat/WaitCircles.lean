import Mathlib.Data.Set.Basic
import RunnerupChat.SnapshotUpdate
import RunnerupChat.UniqueKeys

/-!
Transactions that wait for the locks of one another. A lock that is taken is
accounted for by the phase of the open transaction that holds it, so what
cannot go on waits for somebody who is open. `Key`, `Tx`, `Phase` and what a
phase may hold are parameters.
-/

namespace RunnerupChat.WaitCircles

open SnapshotUpdate UniqueKeys

variable {Key Tx Phase : Type}

/-- Transactions each of which waits for another of them: nothing but a
rollback lets any of them go on. -/
structure Circle (waits : Tx → Tx → Prop) (members : Set Tx) : Prop where
  someone : members.Nonempty
  waits : ∀ tx ∈ members, ∃ holder ∈ members, waits tx holder

section Circles
variable {waits : Tx → Tx → Prop} {members : Set Tx}

/-- A member that is waited for waits itself. -/
theorem Circle.next (circle : Circle waits members) :
    ∃ tx ∈ members, ∃ holder ∈ members, waits tx holder ∧ ∃ third ∈ members, waits holder third := by
  obtain ⟨tx, inside⟩ := circle.someone
  obtain ⟨holder, within, first⟩ := circle.waits tx inside
  exact ⟨tx, inside, holder, within, first, circle.waits holder within⟩

end Circles

/-- Every lock is held by an open transaction whose phase accounts for it. -/
def Accounted (holds : Phase → Key → Prop) (locks : Locks Key Tx) (txs : Tx → Option Phase) :
    Prop :=
  ∀ key holder, locks key = some holder → ∃ phase, txs holder = some phase ∧ holds phase key

section Accounts
variable [DecidableEq Tx] {holds : Phase → Key → Prop} {locks : Locks Key Tx}
  {txs : Tx → Option Phase} {tx : Tx} {later : Phase}

end Accounts

end RunnerupChat.WaitCircles
