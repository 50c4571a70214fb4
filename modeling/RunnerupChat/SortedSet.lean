import Mathlib.Data.List.Perm.Basic

/-!
A Redis sorted set under one key, with the key's expiry. Members are unique
and stand in score order; a key whose last member is removed is deleted
together with its expiry. Scores and times are whole milliseconds.
-/

namespace RunnerupChat.SortedSet

structure ZSet (Member : Type) where
  entries : List (Member × Nat)
  expireAt : Option Nat

variable {Member : Type} [DecidableEq Member] [LT Member] [DecidableLT Member]

def missing : ZSet Member := ⟨[], none⟩

/-- An expired key reads as a missing one. -/
def alive (now : Nat) (set : ZSet Member) : ZSet Member :=
  match set.expireAt with
  | none => set
  | some deadline => if deadline < now then missing else set

/-- `ZREMRANGEBYSCORE key -inf (now - window)`. -/
def zremrangebyscore (now window : Nat) (set : ZSet Member) : ZSet Member :=
  match set.entries.filter fun entry => decide (now < entry.2 + window) with
  | [] => missing
  | kept => { set with entries := kept }

def zcard (set : ZSet Member) : Nat := set.entries.length

def insertEntry (entry : Member × Nat) : List (Member × Nat) → List (Member × Nat)
  | [] => [entry]
  | head :: rest =>
      if entry.2 < head.2 ∨ (entry.2 = head.2 ∧ entry.1 < head.1) then entry :: head :: rest
      else head :: insertEntry entry rest

/-- `ZADD key score member`: an existing member only changes its score. -/
def zadd (score : Nat) (member : Member) (set : ZSet Member) : ZSet Member :=
  { set with
    entries := insertEntry (member, score)
      (set.entries.filter fun entry => decide (entry.1 ≠ member)) }

def pexpire (now ttl : Nat) (set : ZSet Member) : ZSet Member :=
  { set with expireAt := some (now + ttl) }

omit [DecidableEq Member] in
theorem insert_entry_perm (entry : Member × Nat) (entries : List (Member × Nat)) :
    (insertEntry entry entries).Perm (entry :: entries) := by
  induction entries with
  | nil => exact List.Perm.refl _
  | cons head rest ih =>
      unfold insertEntry
      split
      · exact List.Perm.refl _
      · exact (ih.cons head).trans (List.Perm.swap entry head rest)

theorem mem_zadd_iff (score : Nat) (member : Member) (set : ZSet Member)
    (entry : Member × Nat) :
    entry ∈ (zadd score member set).entries ↔
      entry = (member, score) ∨ (entry ∈ set.entries ∧ entry.1 ≠ member) := by
  simp [zadd, (insert_entry_perm _ _).mem_iff]

omit [DecidableEq Member] [LT Member] [DecidableLT Member] in
theorem zremrangebyscore_entries (now window : Nat) (set : ZSet Member) :
    (zremrangebyscore now window set).entries =
      set.entries.filter fun entry => decide (now < entry.2 + window) := by
  unfold zremrangebyscore
  split
  · rename_i empty
    rw [empty]
    rfl
  · rfl

omit [DecidableEq Member] [LT Member] [DecidableLT Member] in
theorem zremrangebyscore_expiry (now window deadline : Nat) (set : ZSet Member)
    (expires : (zremrangebyscore now window set).expireAt = some deadline) :
    set.expireAt = some deadline := by
  unfold zremrangebyscore at expires
  split at expires
  · simp [missing] at expires
  · exact expires

end RunnerupChat.SortedSet
