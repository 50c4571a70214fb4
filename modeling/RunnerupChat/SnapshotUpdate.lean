import Mathlib.Data.List.Nodup

/-!
An `UPDATE` statement under READ COMMITTED. The statement takes its row set
from the rows committed when it starts, reaches the rows of that set one by
one, waits for each row lock, and rewrites a row only if the row is still
`live` when its lock is obtained. Rows committed after the start are never
reached. `Row`, `Key`, `Tx` and the predicate `live` are parameters.
-/

namespace RunnerupChat.SnapshotUpdate

variable {Row Key Tx : Type} [DecidableEq Key] [DecidableEq Tx]

/-! Row locks. A lock is held by one transaction until that transaction ends. -/
section Locks

abbrev Locks (Key Tx : Type) := Key → Option Tx

def available (locks : Locks Key Tx) (key : Key) (tx : Tx) : Bool :=
  decide (locks key = none) || decide (locks key = some tx)

def acquire (locks : Locks Key Tx) (key : Key) (tx : Tx) : Locks Key Tx :=
  fun other => if other = key then some tx else locks other

def release (locks : Locks Key Tx) (tx : Tx) : Locks Key Tx :=
  fun key => if locks key = some tx then none else locks key

omit [DecidableEq Tx] in
@[simp] theorem acquire_same (locks : Locks Key Tx) (key : Key) (tx : Tx) :
    acquire locks key tx key = some tx := by
  simp [acquire]

/-- Acquiring an available lock takes no lock away from another holder. -/
theorem acquire_keeps (locks : Locks Key Tx) (key held : Key) (tx holder : Tx)
    (free : available locks key tx = true) (owned : locks held = some holder) :
    acquire locks key tx held = some holder := by
  by_cases same : held = key
  · subst held
    simp only [available, owned, reduceCtorEq, decide_false, Bool.false_or, decide_eq_true_eq,
      Option.some.injEq] at free
    simp [free]
  · simp [acquire, same, owned]

omit [DecidableEq Key] in
theorem release_keeps (locks : Locks Key Tx) (held : Key) (tx holder : Tx)
    (other : holder ≠ tx) (owned : locks held = some holder) :
    release locks tx held = some holder := by
  simp [release, owned, other]

end Locks

/-- The progress of the statements of one transaction. `seen` collects their
row sets, `pending` the keys still to be reached, `updated` the keys of the
rows the transaction has locked and rewritten. -/
structure Progress (Key : Type) where
  seen : List Key
  pending : List Key
  updated : List Key

def Progress.none : Progress Key := ⟨[], [], []⟩

/-- A statement starts: its row set is read from the committed rows. The
transaction's own rewritten rows no longer match its predicate. -/
def start (keyOf : Row → Key) (selects : Row → Bool) (rows : List Row)
    (progress : Progress Key) : Progress Key :=
  let found := ((rows.filter selects).map keyOf).filter fun key => decide (key ∉ progress.updated)
  { seen := progress.seen ++ found, pending := progress.pending ++ found,
    updated := progress.updated }

def stillLive (keyOf : Row → Key) (live : Row → Bool) (rows : List Row) (key : Key) : Bool :=
  rows.any fun row => decide (keyOf row = key) && live row

/-- One row of the row set is reached under its lock and checked again. -/
def reach (keyOf : Row → Key) (live : Row → Bool) (rows : List Row) (key : Key)
    (progress : Progress Key) : Progress Key :=
  { seen := progress.seen
    pending := progress.pending.filter fun other => decide (other ≠ key)
    -- under READ COMMITTED the locked row is checked again as it is now
    updated := if stillLive keyOf live rows key then key :: progress.updated
      else progress.updated }

/-- The rows after the transaction commits. -/
def written (keyOf : Row → Key) (rewrite : Row → Row) (progress : Progress Key)
    (rows : List Row) : List Row :=
  rows.map fun row => if keyOf row ∈ progress.updated then rewrite row else row

/-- What is known of a statement while other transactions run: every key of
its row set is still to be reached, or rewritten under a lock, or its row is
live no more. -/
structure Tracked (keyOf : Row → Key) (live : Row → Bool) (rows : List Row)
    (locks : Locks Key Tx) (tx : Tx) (progress : Progress Key) : Prop where
  accounted : ∀ key ∈ progress.seen, key ∈ progress.pending ∨ key ∈ progress.updated ∨
    stillLive keyOf live rows key = false
  locked : ∀ key ∈ progress.updated, locks key = some tx
  pending_seen : ∀ key ∈ progress.pending, key ∈ progress.seen
  updated_seen : ∀ key ∈ progress.updated, key ∈ progress.seen

variable {keyOf : Row → Key} {live : Row → Bool}

theorem still_live_iff (rows : List Row) (key : Key) :
    stillLive keyOf live rows key = true ↔ ∃ row ∈ rows, keyOf row = key ∧ live row = true := by
  simp [stillLive]

omit [DecidableEq Tx] in
theorem none_tracked (rows : List Row) (locks : Locks Key Tx) (tx : Tx) :
    Tracked keyOf live rows locks tx Progress.none where
  accounted := by simp [Progress.none]
  locked := by simp [Progress.none]
  pending_seen := by simp [Progress.none]
  updated_seen := by simp [Progress.none]

omit [DecidableEq Tx] in
theorem start_tracked {rows : List Row} {locks : Locks Key Tx} {tx : Tx}
    {progress : Progress Key} (selects : Row → Bool)
    (tracked : Tracked keyOf live rows locks tx progress) :
    Tracked keyOf live rows locks tx (start keyOf selects rows progress) where
  accounted := by
    intro key member
    simp only [start, List.mem_append] at member ⊢
    rcases member with old | fresh
    · rcases tracked.accounted key old with waiting | rest
      · exact Or.inl (Or.inl waiting)
      · exact Or.inr rest
    · exact Or.inl (Or.inr fresh)
  locked := tracked.locked
  pending_seen := by
    intro key member
    simp only [start, List.mem_append] at member ⊢
    exact member.imp (tracked.pending_seen key) id
  updated_seen := fun key member =>
    List.mem_append_left _ (tracked.updated_seen key member)

theorem reach_tracked {rows : List Row} {locks : Locks Key Tx} {tx : Tx}
    {progress : Progress Key} {key : Key}
    (tracked : Tracked keyOf live rows locks tx progress) (waiting : key ∈ progress.pending)
    (free : available locks key tx = true) :
    Tracked keyOf live rows (acquire locks key tx) tx (reach keyOf live rows key progress) where
  accounted := by
    intro other member
    by_cases same : other = key
    · subst other
      cases current : stillLive keyOf live rows key with
      | true => simp [reach, current]
      | false => simp
    · rcases tracked.accounted other member with old | old | old
      · exact Or.inl (by simp [reach, old, same])
      · refine Or.inr (Or.inl ?_)
        simp only [reach]
        split
        · exact List.mem_cons_of_mem key old
        · exact old
      · exact Or.inr (Or.inr old)
  locked := by
    intro other member
    by_cases same : other = key
    · subst other
      exact acquire_same locks key tx
    · apply acquire_keeps locks key other tx tx free
      apply tracked.locked
      simp only [reach] at member
      split at member
      · exact (List.mem_cons.mp member).resolve_left same
      · exact member
  pending_seen := fun other member =>
    tracked.pending_seen other (List.mem_filter.mp member).1
  updated_seen := by
    intro other member
    simp only [reach] at member
    split at member
    · rcases List.mem_cons.mp member with same | old
      · exact same ▸ tracked.pending_seen key waiting
      · exact tracked.updated_seen other old
    · exact tracked.updated_seen other member

omit [DecidableEq Tx] in
/-- Another transaction's lock or release keeps a statement tracked. -/
theorem locks_tracked {rows : List Row} {locks later : Locks Key Tx} {tx : Tx}
    {progress : Progress Key} (tracked : Tracked keyOf live rows locks tx progress)
    (kept : ∀ key, locks key = some tx → later key = some tx) :
    Tracked keyOf live rows later tx progress :=
  { tracked with locked := fun key member => kept key (tracked.locked key member) }

omit [DecidableEq Tx] in
/-- A commit elsewhere keeps a statement tracked as long as it brings no row
of the row set back to life. -/
theorem rows_tracked {rows later : List Row} {locks : Locks Key Tx} {tx : Tx}
    {progress : Progress Key} (tracked : Tracked keyOf live rows locks tx progress)
    (fades : ∀ key ∈ progress.seen, stillLive keyOf live later key = true →
      stillLive keyOf live rows key = true) :
    Tracked keyOf live later locks tx progress where
  accounted := by
    intro key member
    refine (tracked.accounted key member).imp_right (Or.imp_right fun dead => ?_)
    by_contra alive
    rw [Bool.not_eq_false] at alive
    simp [fades key member alive] at dead
  locked := tracked.locked
  pending_seen := tracked.pending_seen
  updated_seen := tracked.updated_seen

omit [DecidableEq Tx] in
/-- Once every row of the row set is reached, the live rows of the row set are
exactly the rewritten ones. -/
theorem finished_updated {rows : List Row} {locks : Locks Key Tx} {tx : Tx}
    {progress : Progress Key} (tracked : Tracked keyOf live rows locks tx progress)
    (finished : progress.pending = []) (row : Row) (member : row ∈ rows)
    (alive : live row = true) :
    keyOf row ∈ progress.updated ↔ keyOf row ∈ progress.seen := by
  refine ⟨tracked.updated_seen _, fun seen => ?_⟩
  have current : stillLive keyOf live rows (keyOf row) = true :=
    (still_live_iff rows (keyOf row)).mpr ⟨row, member, rfl, alive⟩
  rcases tracked.accounted _ seen with waiting | updated | dead
  · simp [finished] at waiting
  · exact updated
  · simp [current] at dead

omit [DecidableEq Tx] in
/-- A finished statement leaves no live row behind exactly when every row that
is live at its commit was already committed at its start. -/
theorem leaves_none_iff {rows : List Row} {locks : Locks Key Tx} {tx : Tx}
    {progress : Progress Key} (tracked : Tracked keyOf live rows locks tx progress)
    (finished : progress.pending = []) (rewrite : Row → Row)
    (ends : ∀ row, live (rewrite row) = false) (concerns : Row → Prop) :
    (∀ row ∈ written keyOf rewrite progress rows, concerns row → live row = false) ↔
      ∀ row ∈ rows, concerns row → live row = true → keyOf row ∈ progress.seen := by
  constructor
  · intro none row member about alive
    by_contra unseen
    have kept : keyOf row ∉ progress.updated := fun updated =>
      unseen (tracked.updated_seen _ updated)
    have survives : row ∈ written keyOf rewrite progress rows :=
      List.mem_map.mpr ⟨row, member, by simp [kept]⟩
    simp [none row survives about] at alive
  · intro covered row member about
    obtain ⟨before, present, rfl⟩ := List.mem_map.mp member
    split at about
    · rw [if_pos (by assumption)]
      exact ends before
    · rename_i kept
      rw [if_neg kept]
      by_contra alive
      rw [Bool.not_eq_false] at alive
      exact kept ((finished_updated tracked finished before present alive).mpr
        (covered before present about alive))

/-! A commit, as the other transactions see it: it rewrites rows it holds the
locks of, brings none back to life, and adds rows under new keys. -/

structure Rewrites (keyOf : Row → Key) (live : Row → Bool) (rows : List Row)
    (locks : Locks Key Tx) (tx : Tx) (change : Row → Row) (added later : List Row) : Prop where
  shape : later = rows.map change ++ added
  keys : ∀ row, keyOf (change row) = keyOf row
  fades : ∀ row ∈ rows, live (change row) = true → live row = true
  owned : ∀ row, locks (keyOf row) ≠ some tx → change row = row
  new : ∀ row ∈ added, ∀ other ∈ rows, keyOf row ≠ keyOf other

section Commits
variable {rows later added : List Row} {locks : Locks Key Tx} {tx other : Tx}
  {change : Row → Row} (rewrites : Rewrites keyOf live rows locks tx change added later)
include rewrites

omit [DecidableEq Key] [DecidableEq Tx] in
/-- A row locked by another transaction is still there as it was. -/
theorem Rewrites.locked_member (distinct : other ≠ tx) {row : Row} (member : row ∈ rows)
    (held : locks (keyOf row) = some other) : row ∈ later := by
  have untouched : change row = row :=
    rewrites.owned row (by rw [held]; exact fun same => distinct (Option.some.inj same))
  rw [rewrites.shape, List.mem_append]
  exact Or.inl (List.mem_map.mpr ⟨row, member, untouched⟩)

omit [DecidableEq Key] [DecidableEq Tx] in
theorem Rewrites.heir {row : Row} (member : row ∈ rows) : change row ∈ later := by
  rw [rewrites.shape, List.mem_append]
  exact Or.inl (List.mem_map_of_mem member)

omit [DecidableEq Key] [DecidableEq Tx] in
theorem Rewrites.origin {row : Row} (member : row ∈ later) :
    (∃ before ∈ rows, row = change before) ∨ row ∈ added := by
  rw [rewrites.shape, List.mem_append, List.mem_map] at member
  rcases member with ⟨before, old, rfl⟩ | fresh
  · exact Or.inl ⟨before, old, rfl⟩
  · exact Or.inr fresh

theorem Rewrites.tracked (distinct : other ≠ tx) {progress : Progress Key}
    (known : ∀ key ∈ progress.seen, ∃ row ∈ rows, keyOf row = key)
    (tracked : Tracked keyOf live rows locks other progress) :
    Tracked keyOf live later (release locks tx) other progress := by
  apply locks_tracked (rows_tracked tracked _)
  · exact fun key owned => release_keeps locks key tx other distinct owned
  · intro key seen alive
    rw [still_live_iff] at alive ⊢
    obtain ⟨row, member, same, current⟩ := alive
    rcases rewrites.origin member with ⟨before, old, rfl⟩ | fresh
    · exact ⟨before, old, (rewrites.keys before).symm.trans same, rewrites.fades before old current⟩
    · obtain ⟨present, old, also⟩ := known key seen
      exact absurd (same.trans also.symm) (rewrites.new row fresh present old)

end Commits

end RunnerupChat.SnapshotUpdate
