import Mathlib.Data.List.Nodup

/-!
Keys of rows that transactions insert. A key is drawn fresh, stays pending in
its transaction, and joins the committed keys when the transaction commits.
Committed and pending keys never collide.
-/

namespace RunnerupChat.UniqueKeys

variable {Key Tx Value : Type} [DecidableEq Tx]

def assign (values : Tx → Option Value) (tx : Tx) (value : Option Value) : Tx → Option Value :=
  fun other => if other = tx then value else values other

@[simp] theorem assign_same (values : Tx → Option Value) (tx : Tx) (value : Option Value) :
    assign values tx value tx = value := by
  simp [assign]

theorem assign_other (values : Tx → Option Value) {tx other : Tx} (value : Option Value)
    (distinct : other ≠ tx) : assign values tx value other = values other := by
  simp [assign, distinct]

theorem assign_cases {values : Tx → Option Value} {tx other : Tx} {value : Option Value}
    {found : Value} (held : assign values tx value other = some found) :
    other = tx ∧ value = some found ∨ other ≠ tx ∧ values other = some found := by
  by_cases same : other = tx
  · rw [same, assign_same] at held
    exact Or.inl ⟨same, held⟩
  · rw [assign_other values value same] at held
    exact Or.inr ⟨same, held⟩

theorem assign_none_kept {values : Tx → Option Value} {tx other : Tx} {found : Value}
    (held : assign values tx none other = some found) :
    other ≠ tx ∧ values other = some found := by
  rcases assign_cases held with ⟨_, missing⟩ | kept
  · cases missing
  · exact kept

theorem assign_again (values : Tx → Option Value) (tx : Tx) (first second : Option Value) :
    assign (assign values tx first) tx second = assign values tx second := by
  funext other
  by_cases same : other = tx
  · simp [assign, same]
  · simp [assign, same]

theorem assign_self {values : Tx → Option Value} {tx : Tx} {value : Option Value}
    (same : values tx = value) : assign values tx value = values := by
  funext other
  by_cases here : other = tx
  · rw [here, assign_same, same]
  · exact assign_other values value here

theorem assign_bind {Part : Type} (values : Tx → Option Value) (tx : Tx) (value : Option Value)
    (part : Value → Option Part) :
    (fun other => (assign values tx value other).bind part) =
      assign (fun other => (values other).bind part) tx (value.bind part) := by
  funext other
  by_cases same : other = tx
  · simp [assign, same]
  · simp [assign, same]

structure Unique (keys drawn : List Key) (pending : Tx → Option Key) : Prop where
  distinct : keys.Nodup
  drawnKeys : ∀ key ∈ keys, key ∈ drawn
  drawnPending : ∀ tx key, pending tx = some key → key ∈ drawn
  apart : ∀ tx key, pending tx = some key → key ∉ keys
  owned : ∀ tx other key, pending tx = some key → pending other = some key → tx = other

variable {keys drawn : List Key} {pending : Tx → Option Key}

theorem unique_draw (unique : Unique keys drawn pending) (tx : Tx) {key : Key}
    (fresh : key ∉ drawn) : Unique keys (key :: drawn) (assign pending tx (some key)) where
  distinct := unique.distinct
  drawnKeys := fun old member => List.mem_cons_of_mem key (unique.drawnKeys old member)
  drawnPending := by
    intro other held found
    by_cases same : other = tx
    · subst other
      rw [assign_same] at found
      exact Option.some.inj found ▸ List.mem_cons_self
    · rw [assign_other _ _ same] at found
      exact List.mem_cons_of_mem key (unique.drawnPending other held found)
  apart := by
    intro other held found member
    by_cases same : other = tx
    · subst other
      rw [assign_same] at found
      exact fresh (Option.some.inj found ▸ unique.drawnKeys held member)
    · rw [assign_other _ _ same] at found
      exact unique.apart other held found member
  owned := by
    intro left right held one another
    -- a key drawn before is not the new one
    have old : ∀ other, other ≠ tx → assign pending tx (some key) other = some held →
        held ∈ drawn ∧ pending other = some held := by
      intro other distinct found
      rw [assign_other _ _ distinct] at found
      exact ⟨unique.drawnPending other held found, found⟩
    by_cases left_tx : left = tx <;> by_cases right_tx : right = tx
    · exact left_tx.trans right_tx.symm
    · rw [left_tx, assign_same] at one
      exact absurd (Option.some.inj one ▸ (old right right_tx another).1) fresh
    · rw [right_tx, assign_same] at another
      exact absurd (Option.some.inj another ▸ (old left left_tx one).1) fresh
    · exact unique.owned left right held (old left left_tx one).2 (old right right_tx another).2

omit [DecidableEq Tx] in
/-- More keys may count as drawn. -/
theorem unique_widen (unique : Unique keys drawn pending) {wider : List Key}
    (within : drawn ⊆ wider) : Unique keys wider pending :=
  { unique with
    drawnKeys := fun key member => within (unique.drawnKeys key member)
    drawnPending := fun tx key held => within (unique.drawnPending tx key held) }

/-- A transaction that has no key pending, or gives its key up. -/
theorem unique_drop (unique : Unique keys drawn pending) (tx : Tx) :
    Unique keys drawn (assign pending tx none) := by
  have kept : ∀ other key, assign pending tx none other = some key → pending other = some key :=
    fun other key found => (assign_none_kept found).2
  exact {
    distinct := unique.distinct
    drawnKeys := unique.drawnKeys
    drawnPending := fun other key found => unique.drawnPending other key (kept other key found)
    apart := fun other key found => unique.apart other key (kept other key found)
    owned := fun left right key one another =>
      unique.owned left right key (kept left key one) (kept right key another) }

theorem unique_commit (unique : Unique keys drawn pending) {tx : Tx} {key : Key}
    (held : pending tx = some key) : Unique (keys ++ [key]) drawn (assign pending tx none) where
  distinct := by
    apply List.nodup_append.mpr ⟨unique.distinct, List.nodup_singleton key, ?_⟩
    rintro old member other inside rfl
    exact unique.apart tx key held (List.mem_singleton.mp inside ▸ member)
  drawnKeys := by
    intro old member
    rcases List.mem_append.mp member with before | added
    · exact unique.drawnKeys old before
    · exact List.mem_singleton.mp added ▸ unique.drawnPending tx key held
  drawnPending := (unique_drop unique tx).drawnPending
  apart := by
    intro other old found member
    rcases List.mem_append.mp member with before | added
    · exact (unique_drop unique tx).apart other old found before
    · by_cases same : other = tx
      · simp [same] at found
      · rw [assign_other _ _ same, List.mem_singleton.mp added] at found
        exact same (unique.owned other tx key found held)
  owned := (unique_drop unique tx).owned

section Rows
variable {Row : Type} (key : Row → Key) {rows : List Row}

/-- A lookup by a key that is not repeated finds the row that has it. -/
theorem find_member [BEq Key] [LawfulBEq Key] (distinct : (rows.map key).Nodup) {row : Row}
    (member : row ∈ rows) : (rows.find? fun other => key other == key row) = some row := by
  induction rows with
  | nil => cases member
  | cons head rest ih =>
      rw [List.map_cons, List.nodup_cons] at distinct
      rcases List.mem_cons.mp member with rfl | later
      · simp
      · have apart : key head ≠ key row :=
          fun same => distinct.1 (same ▸ List.mem_map_of_mem later)
        rw [List.find?_cons_of_neg (by simpa using apart)]
        exact ih distinct.2 later

/-- At most one row has a key that is not repeated. -/
theorem filter_unique [BEq Key] [LawfulBEq Key] (distinct : (rows.map key).Nodup) (wanted : Key) :
    (rows.filter fun row => key row == wanted) =
      (rows.find? fun row => key row == wanted).toList := by
  induction rows with
  | nil => rfl
  | cons head rest ih =>
      rw [List.map_cons, List.nodup_cons] at distinct
      by_cases here : key head = wanted
      · have none : (rest.filter fun row => key row == wanted) = [] := by
          rw [List.filter_eq_nil_iff]
          intro row member same
          have named : key row = wanted := by simpa using same
          exact distinct.1 (here ▸ named ▸ List.mem_map_of_mem member)
        simp [here, none]
      · simpa [here] using ih distinct.2

theorem same_row (distinct : (rows.map key).Nodup) {left right : Row} (first : left ∈ rows)
    (second : right ∈ rows) (same : key left = key right) : left = right :=
  List.inj_on_of_nodup_map distinct first second same

end Rows

end RunnerupChat.UniqueKeys
