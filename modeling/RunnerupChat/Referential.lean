import Mathlib.Data.List.Nodup
import RunnerupChat.Runs
import RunnerupChat.UniqueKeys

/-!
Rows that refer to one another by foreign keys. A deletion goes on in rounds:
the rows whose cascading keys name a deleted row are deleted next, and the
other keys that name one are set to null. What a role may not update and not
delete it can still remove or blank through the rows that are referred to, and
only so.
-/

namespace RunnerupChat.Referential

open Runs

inductive OnDelete where
  | cascade | setNull
  deriving DecidableEq

structure ForeignKey (Table Column : Type) where
  column : Column
  target : Table
  onDelete : OnDelete
  required : Bool

/-- A column is of one foreign key at most. -/
structure Schema (Table Column : Type) where
  foreignKeys : Table → List (ForeignKey Table Column)
  distinct : ∀ table, ((foreignKeys table).map ForeignKey.column).Nodup

structure Row (Table Column Id Data : Type) where
  table : Table
  id : Id
  ref : Column → Option Id
  data : Data

section Rows
variable {Table Column Id Data : Type}

def Row.name (row : Row Table Column Id Data) : Table × Id := (row.table, row.id)

def Row.target (row : Row Table Column Id Data) (key : ForeignKey Table Column) :
    Option (Table × Id) :=
  (row.ref key.column).map fun id => (key.target, id)

def names (rows : List (Row Table Column Id Data)) : List (Table × Id) := rows.map Row.name

/-- The foreign keys and the columns that may not be null. -/
structure Consistent (schema : Schema Table Column) (rows : List (Row Table Column Id Data)) :
    Prop where
  distinct : (names rows).Nodup
  resolved : ∀ row ∈ rows, ∀ key ∈ schema.foreignKeys row.table, ∀ target ∈ row.target key,
    target ∈ names rows
  given : ∀ row ∈ rows, ∀ key ∈ schema.foreignKeys row.table, key.required = true →
    (row.ref key.column).isSome = true

variable [DecidableEq Table] [DecidableEq Column] [DecidableEq Id] (schema : Schema Table Column)

instance (rows : List (Row Table Column Id Data)) : Decidable (Consistent schema rows) :=
  decidable_of_iff
    ((names rows).Nodup ∧
      (∀ row ∈ rows, ∀ key ∈ schema.foreignKeys row.table, ∀ target ∈ row.target key,
        target ∈ names rows) ∧
      ∀ row ∈ rows, ∀ key ∈ schema.foreignKeys row.table, key.required = true →
        (row.ref key.column).isSome = true)
    ⟨fun ⟨distinct, resolved, given⟩ => ⟨distinct, resolved, given⟩,
      fun ⟨distinct, resolved, given⟩ => ⟨distinct, resolved, given⟩⟩

/-- A key of the row names one of these. -/
def named (victims : List (Table × Id)) (row : Row Table Column Id Data)
    (key : ForeignKey Table Column) : Bool :=
  (row.target key).any fun target => decide (target ∈ victims)

def falls (victims : List (Table × Id)) (row : Row Table Column Id Data) : Bool :=
  (schema.foreignKeys row.table).any fun key =>
    decide (key.onDelete = .cascade) && named victims row key

def nulled (victims : List (Table × Id)) (row : Row Table Column Id Data) :
    Row Table Column Id Data :=
  { row with
    ref := fun column =>
      if (schema.foreignKeys row.table).any fun key =>
          decide (key.column = column) && decide (key.onDelete = .setNull) && named victims row key
      then none
      else row.ref column }

/-- The victims are gone and no key that may be null names one. -/
def swept (victims : List (Table × Id)) (rows : List (Row Table Column Id Data)) :
    List (Row Table Column Id Data) :=
  (rows.filter fun row => decide (row.name ∉ victims)).map (nulled schema victims)

def cascade : Nat → List (Table × Id) → List (Row Table Column Id Data) →
    List (Row Table Column Id Data)
  | 0, _, rows => rows
  | rounds + 1, victims, rows =>
      let left := swept schema victims rows
      let next := names (left.filter (falls schema victims))
      if next.isEmpty then left else cascade rounds next left

inductive Privilege where
  | insert | update | delete
  deriving DecidableEq

/-- An update may rewrite whatever it likes of the rows it hits, but not move
them to another table. -/
inductive Statement (Table Column Id Data : Type) where
  | insert (rows : List (Row Table Column Id Data))
  | update (table : Table)
      (change : Row Table Column Id Data → Id × (Column → Option Id) × Data)
  | delete (table : Table) (hit : Row Table Column Id Data → Bool)

def rewritten (table : Table) (change : Row Table Column Id Data → Id × (Column → Option Id) × Data)
    (row : Row Table Column Id Data) : Row Table Column Id Data :=
  if row.table = table then
    { table := row.table, id := (change row).1, ref := (change row).2.1, data := (change row).2.2 }
  else row

def victims (table : Table) (hit : Row Table Column Id Data → Bool)
    (rows : List (Row Table Column Id Data)) : List (Table × Id) :=
  names (rows.filter fun row => decide (row.table = table) && hit row)

/-- A statement that would break a key or a check fails and changes nothing. -/
def execute (granted : Table → Privilege → Bool) (rows : List (Row Table Column Id Data)) :
    Statement Table Column Id Data → Option (List (Row Table Column Id Data))
  | .insert new =>
      if (new.all fun row => granted row.table .insert) && decide (Consistent schema (rows ++ new))
      then some (rows ++ new) else none
  | .update table change =>
      let next := rows.map (rewritten table change)
      if granted table .update && decide (Consistent schema next) then some next else none
  | .delete table hit =>
      let next := cascade schema (rows.length + 1) (victims table hit rows) rows
      if granted table .delete && decide (Consistent schema next) then some next else none

end Rows

section Sweeping
variable {Table Column Id Data : Type} [DecidableEq Table] [DecidableEq Column] [DecidableEq Id]
  {schema : Schema Table Column} {rows : List (Row Table Column Id Data)}
  {row later last : Row Table Column Id Data}

/-- A later version of a row: only keys that may be set to null have been. -/
structure Kept (schema : Schema Table Column) (row later : Row Table Column Id Data) : Prop where
  name : later.name = row.name
  data : later.data = row.data
  refs : ∀ column, later.ref column = row.ref column ∨
    later.ref column = none ∧ ∃ key ∈ schema.foreignKeys row.table,
      key.column = column ∧ key.onDelete = .setNull

omit [DecidableEq Table] [DecidableEq Column] [DecidableEq Id] in
theorem Kept.refl (row : Row Table Column Id Data) : Kept schema row row :=
  ⟨rfl, rfl, fun _ => Or.inl rfl⟩

omit [DecidableEq Table] [DecidableEq Column] [DecidableEq Id] in
theorem Kept.sameTable (kept : Kept schema row later) : later.table = row.table :=
  congrArg Prod.fst kept.name

omit [DecidableEq Table] [DecidableEq Column] [DecidableEq Id] in
theorem Kept.trans (first : Kept schema row later) (second : Kept schema later last) :
    Kept schema row last := by
  refine ⟨second.name.trans first.name, second.data.trans first.data, fun column => ?_⟩
  rcases second.refs column with same | ⟨gone, key, member, rest⟩
  · rcases first.refs column with before | ⟨none, rest⟩
    · exact Or.inl (same.trans before)
    · exact Or.inr ⟨same.trans none, rest⟩
  · exact Or.inr ⟨gone, key, first.sameTable ▸ member, rest⟩

omit [DecidableEq Table] [DecidableEq Column] [DecidableEq Id] in
/-- A cascading key is never set to null. -/
theorem Kept.cascades (kept : Kept schema row later) {key : ForeignKey Table Column}
    (member : key ∈ schema.foreignKeys row.table) (cascading : key.onDelete = .cascade) :
    later.target key = row.target key := by
  unfold Row.target
  rcases kept.refs key.column with same | ⟨_, other, listed, column, nulling⟩
  · rw [same]
  · have same : other = key :=
      List.inj_on_of_nodup_map (schema.distinct row.table) listed member column
    rw [same, cascading] at nulling
    cases nulling

theorem nulled_kept (victims : List (Table × Id)) (row : Row Table Column Id Data) :
    Kept schema row (nulled schema victims row) := by
  refine ⟨rfl, rfl, fun column => ?_⟩
  simp only [nulled]
  split
  · rename_i found
    obtain ⟨key, member, holds⟩ := List.any_eq_true.mp found
    simp only [Bool.and_eq_true, decide_eq_true_eq] at holds
    exact Or.inr ⟨rfl, key, member, holds.1.1, holds.1.2⟩
  · exact Or.inl rfl

theorem nulled_target (victims : List (Table × Id)) (row : Row Table Column Id Data)
    {key : ForeignKey Table Column} (member : key ∈ schema.foreignKeys row.table) :
    (nulled schema victims row).target key =
      if key.onDelete = .setNull ∧ named victims row key = true then none else row.target key := by
  unfold Row.target nulled
  dsimp only
  by_cases gone : key.onDelete = .setNull ∧ named victims row key = true
  · rw [if_pos gone, if_pos]
    · rfl
    · exact List.any_eq_true.mpr ⟨key, member, by simp [gone.1, gone.2]⟩
  · rw [if_neg gone, if_neg]
    intro found
    obtain ⟨other, listed, holds⟩ := List.any_eq_true.mp found
    simp only [Bool.and_eq_true, decide_eq_true_eq] at holds
    have same : other = key :=
      List.inj_on_of_nodup_map (schema.distinct row.table) listed member holds.1.1
    exact gone ⟨same ▸ holds.1.2, same ▸ holds.2⟩

theorem mem_swept {victims : List (Table × Id)} (member : later ∈ swept schema victims rows) :
    ∃ row ∈ rows, row.name ∉ victims ∧ later = nulled schema victims row := by
  obtain ⟨row, kept, rfl⟩ := List.mem_map.mp member
  obtain ⟨listed, spared⟩ := List.mem_filter.mp kept
  exact ⟨row, listed, of_decide_eq_true spared, rfl⟩

theorem swept_spares {victims : List (Table × Id)} (member : row ∈ rows)
    (spared : row.name ∉ victims) : nulled schema victims row ∈ swept schema victims rows :=
  List.mem_map_of_mem (List.mem_filter.mpr ⟨member, decide_eq_true spared⟩)

theorem swept_names (victims : List (Table × Id)) (rows : List (Row Table Column Id Data)) :
    names (swept schema victims rows) =
      (names rows).filter fun name => decide (name ∉ victims) := by
  simp only [names, swept, List.map_map, List.filter_map]
  rfl

theorem mem_swept_names {victims : List (Table × Id)} {name : Table × Id} :
    name ∈ names (swept schema victims rows) ↔ name ∈ names rows ∧ name ∉ victims := by
  rw [swept_names, List.mem_filter, decide_eq_true_eq]

/-- What a round of a deletion starts from: only victims are named in vain. -/
structure Sound (schema : Schema Table Column) (victims : List (Table × Id))
    (rows : List (Row Table Column Id Data)) : Prop where
  distinct : (names rows).Nodup
  listed : ∀ name ∈ victims, name ∈ names rows
  resolved : ∀ row ∈ rows, row.name ∉ victims → ∀ key ∈ schema.foreignKeys row.table,
    ∀ target ∈ row.target key, target ∈ names rows

def fallen (schema : Schema Table Column) (victims : List (Table × Id))
    (rows : List (Row Table Column Id Data)) : List (Table × Id) :=
  names ((swept schema victims rows).filter (falls schema victims))

theorem swept_sound {victims : List (Table × Id)} (sound : Sound schema victims rows) :
    Sound schema (fallen schema victims rows) (swept schema victims rows) where
  distinct := by
    rw [swept_names]
    exact sound.distinct.filter _
  listed := by
    intro name member
    obtain ⟨row, kept, rfl⟩ := List.mem_map.mp member
    exact List.mem_map_of_mem (List.mem_filter.mp kept).1
  resolved := by
    intro later member standing key listed target found
    obtain ⟨row, here, spared, rfl⟩ := mem_swept member
    have found := found
    rw [nulled_target victims row listed] at found
    split at found
    · cases found
    · rename_i kept
      refine mem_swept_names.mpr ⟨sound.resolved row here spared key listed target found, ?_⟩
      intro victim
      have hit : named victims row key = true := by
        simp only [named, Option.mem_def.mp found, Option.any_some, victim, decide_true]
      cases action : key.onDelete with
      | setNull => exact kept ⟨action, hit⟩
      | cascade =>
          -- a cascading key that names a victim makes the row fall
          refine standing (List.mem_map_of_mem (List.mem_filter.mpr ⟨member, ?_⟩))
          refine List.any_eq_true.mpr ⟨key, listed, ?_⟩
          simp only [action, decide_true, Bool.true_and, named,
            (nulled_kept victims row).cascades listed action, Option.mem_def.mp found,
            Option.any_some, victim]

/-- What a deletion comes to: what falls falls with something it refers to. -/
structure Deleted (schema : Schema Table Column) (victims : List (Table × Id))
    (rows after : List (Row Table Column Id Data)) : Prop where
  distinct : (names after).Nodup
  resolved : ∀ row ∈ after, ∀ key ∈ schema.foreignKeys row.table, ∀ target ∈ row.target key,
    target ∈ names after
  versions : ∀ later ∈ after, ∃ row ∈ rows, row.name ∉ victims ∧ Kept schema row later
  spared : ∀ row ∈ rows, row.name ∉ victims →
    (∀ key ∈ schema.foreignKeys row.table, key.onDelete = .cascade →
      ∀ target ∈ row.target key, target ∈ names after) → row.name ∈ names after
  blanked : ∀ row ∈ rows, ∀ later ∈ after, later.name = row.name →
    ∀ key ∈ schema.foreignKeys row.table, ∀ target ∈ row.target key, target ∈ names after →
      later.target key = row.target key

omit [DecidableEq Table] [DecidableEq Column] [DecidableEq Id] in
theorem Deleted.outside {victims : List (Table × Id)} {after : List (Row Table Column Id Data)}
    (deleted : Deleted schema victims rows after) {name : Table × Id} (there : name ∈ names after) :
    name ∉ victims := by
  obtain ⟨later, member, rfl⟩ := List.mem_map.mp there
  obtain ⟨row, _, spared, kept⟩ := deleted.versions later member
  rw [kept.name]
  exact spared

omit [DecidableEq Table] [DecidableEq Column] [DecidableEq Id] in
theorem same_named (distinct : (names rows).Nodup) (first : row ∈ rows) (second : later ∈ rows)
    (same : row.name = later.name) : row = later :=
  UniqueKeys.same_row Row.name distinct first second same

/-- A key of a swept row that still names a row was not set to null. -/
theorem swept_target {victims : List (Table × Id)} {key : ForeignKey Table Column}
    (listed : key ∈ schema.foreignKeys row.table) {target : Table × Id}
    (found : target ∈ row.target key) (spared : target ∉ victims) :
    (nulled schema victims row).target key = row.target key := by
  rw [nulled_target victims row listed, if_neg]
  rintro ⟨_, hit⟩
  simp only [named, Option.mem_def.mp found, Option.any_some, decide_eq_true_eq] at hit
  exact spared hit

omit [DecidableEq Column] in
theorem falls_names {victims : List (Table × Id)} (fallen : falls schema victims row = true) :
    ∃ key ∈ schema.foreignKeys row.table, key.onDelete = .cascade ∧
      ∃ target ∈ row.target key, target ∈ victims := by
  obtain ⟨key, listed, holds⟩ := List.any_eq_true.mp fallen
  simp only [Bool.and_eq_true, decide_eq_true_eq, named, Option.any_eq_true] at holds
  obtain ⟨cascading, target, found, victim⟩ := holds
  exact ⟨key, listed, cascading, target, found, victim⟩

theorem last_round {victims : List (Table × Id)} (sound : Sound schema victims rows)
    (settled : fallen schema victims rows = []) :
    Deleted schema victims rows (swept schema victims rows) where
  distinct := (swept_sound sound).distinct
  resolved := by
    intro row member
    exact (swept_sound sound).resolved row member (by rw [settled]; exact List.not_mem_nil)
  versions := by
    intro later member
    obtain ⟨row, here, spared, rfl⟩ := mem_swept member
    exact ⟨row, here, spared, nulled_kept victims row⟩
  spared := by
    intro row member spared _
    exact mem_swept_names.mpr ⟨List.mem_map_of_mem member, spared⟩
  blanked := by
    intro row member later kept same key listed target found there
    obtain ⟨other, here, _, rfl⟩ := mem_swept kept
    obtain rfl : other = row := same_named sound.distinct here member same
    exact swept_target listed found (mem_swept_names.mp there).2

theorem next_round {victims : List (Table × Id)} (sound : Sound schema victims rows)
    {after : List (Row Table Column Id Data)}
    (rest : Deleted schema (fallen schema victims rows) (swept schema victims rows) after) :
    Deleted schema victims rows after := by
  have inside : ∀ name ∈ names after, name ∉ victims := by
    intro name member
    obtain ⟨later, kept, rfl⟩ := List.mem_map.mp member
    obtain ⟨middle, here, _, version⟩ := rest.versions later kept
    have listed : middle.name ∈ names (swept schema victims rows) := List.mem_map_of_mem here
    rw [version.name]
    exact (mem_swept_names.mp listed).2
  refine ⟨rest.distinct, rest.resolved, ?_, ?_, ?_⟩
  · intro later kept
    obtain ⟨middle, here, _, version⟩ := rest.versions later kept
    obtain ⟨row, listed, spared, rfl⟩ := mem_swept here
    exact ⟨row, listed, spared, (nulled_kept victims row).trans version⟩
  · intro row member spared alive
    refine rest.spared (nulled schema victims row) (swept_spares member spared) ?_ ?_
    · intro falling
      obtain ⟨other, fell, same⟩ := List.mem_map.mp falling
      obtain ⟨here, hit⟩ := List.mem_filter.mp fell
      obtain ⟨source, listed, _, rfl⟩ := mem_swept here
      obtain rfl : source = row := same_named sound.distinct listed member same
      obtain ⟨key, listed, cascading, target, found, victim⟩ := falls_names hit
      rw [(nulled_kept victims source).cascades listed cascading] at found
      exact inside target (alive key listed cascading target found) victim
    · intro key listed cascading target found
      rw [(nulled_kept victims row).cascades listed cascading] at found
      exact alive key listed cascading target found
  · intro row member later kept same key listed target found there
    obtain ⟨middle, here, _, version⟩ := rest.versions later kept
    obtain ⟨source, listing, _, rfl⟩ := mem_swept here
    obtain rfl : source = row := same_named sound.distinct listing member (version.name.symm.trans same)
    have before : (nulled schema victims source).target key = source.target key :=
      swept_target listed found (inside target there)
    rw [← before] at found
    exact (rest.blanked (nulled schema victims source) here later kept version.name key listed target
      found there).trans before

/-- A deletion of what is there is over after a round for each row. -/
theorem cascade_deleted (rounds : Nat) {victims : List (Table × Id)}
    (sound : Sound schema victims rows) (enough : rows.length < rounds) :
    Deleted schema victims rows (cascade schema rounds victims rows) := by
  induction rounds generalizing victims rows with
  | zero => omega
  | succ rounds ih =>
      unfold cascade
      dsimp only
      split
      · rename_i settled
        exact last_round sound (List.isEmpty_iff.mp settled)
      · rename_i onward
        refine next_round sound (ih (swept_sound sound) ?_)
        -- a row that falls names a victim, and that victim is gone
        obtain ⟨fell, member⟩ := List.exists_mem_of_ne_nil _ fun empty =>
          onward (List.isEmpty_iff.mpr empty)
        obtain ⟨row, falling, _⟩ := List.mem_map.mp member
        obtain ⟨_, _, _, target, _, victim⟩ := falls_names (List.mem_filter.mp falling).2
        have shorter : (names (swept schema victims rows)).length < (names rows).length := by
          rw [swept_names]
          exact List.length_filter_lt_length_iff_exists.mpr
            ⟨target, sound.listed target victim, by simpa using victim⟩
        simp only [names, List.length_map] at shorter
        omega

theorem delete_deleted (consistent : Consistent schema rows) (table : Table)
    (hit : Row Table Column Id Data → Bool) :
    Deleted schema (victims table hit rows) rows
      (cascade schema (rows.length + 1) (victims table hit rows) rows) := by
  refine cascade_deleted _ ⟨consistent.distinct, ?_, fun row member _ =>
    consistent.resolved row member⟩ (Nat.lt_succ_self _)
  intro name member
  obtain ⟨row, listed, rfl⟩ := List.mem_map.mp member
  exact List.mem_map_of_mem (List.mem_filter.mp listed).1

end Sweeping

section Guarded
variable {Table Column Id Data : Type} [DecidableEq Table] [DecidableEq Column] [DecidableEq Id]
  {schema : Schema Table Column} {granted : Table → Privilege → Bool}
  {rows next final : List (Row Table Column Id Data)} {row : Row Table Column Id Data}

/-- A table that the role may add to at most. -/
def Guarded (granted : Table → Privilege → Bool) (table : Table) : Prop :=
  granted table .update = false ∧ granted table .delete = false

theorem execute_consistent {statement : Statement Table Column Id Data}
    (ran : execute schema granted rows statement = some next) : Consistent schema next := by
  cases statement with
  | insert new =>
      simp only [execute, Option.ite_none_right_eq_some, Bool.and_eq_true, decide_eq_true_eq,
        Option.some.injEq] at ran
      exact ran.2 ▸ ran.1.2
  | update table change =>
      simp only [execute, Option.ite_none_right_eq_some, Bool.and_eq_true, decide_eq_true_eq,
        Option.some.injEq] at ran
      exact ran.2 ▸ ran.1.2
  | delete table hit =>
      simp only [execute, Option.ite_none_right_eq_some, Bool.and_eq_true, decide_eq_true_eq,
        Option.some.injEq] at ran
      exact ran.2 ▸ ran.1.2

omit [DecidableEq Column] [DecidableEq Id] in
theorem delete_keeps (consistent : Consistent schema rows) {table : Table}
    {hit : Row Table Column Id Data → Bool} (member : row ∈ rows) (other : row.table ≠ table)
    {after : List (Row Table Column Id Data)}
    (deleted : Deleted schema (victims table hit rows) rows after)
    (alive : ∀ key ∈ schema.foreignKeys row.table, key.onDelete = .cascade →
      ∀ target ∈ row.target key, target ∈ names after) :
    ∃ later ∈ after, Kept schema row later ∧ ∀ key ∈ schema.foreignKeys row.table,
      ∀ target ∈ row.target key, target ∈ names after → later.target key = row.target key := by
  have spared : row.name ∉ victims table hit rows := by
    intro victim
    obtain ⟨hitRow, chosen, same⟩ := List.mem_map.mp victim
    have here := (List.mem_filter.mp chosen).2
    simp only [Bool.and_eq_true, decide_eq_true_eq] at here
    exact other ((congrArg Prod.fst same).symm.trans here.1)
  obtain ⟨later, present, same⟩ := List.mem_map.mp (deleted.spared row member spared alive)
  obtain ⟨source, listed, _, kept⟩ := deleted.versions later present
  obtain rfl : source = row :=
    same_named consistent.distinct listed member (kept.name.symm.trans same)
  exact ⟨later, present, kept, fun key listed target found there =>
    deleted.blanked source member later present same key listed target found there⟩

/-- A statement leaves a row of a guarded table alone, but for what the rows it
refers to do to it. -/
theorem execute_keeps (consistent : Consistent schema rows)
    {statement : Statement Table Column Id Data}
    (ran : execute schema granted rows statement = some next) (member : row ∈ rows)
    (guarded : Guarded granted row.table)
    (alive : ∀ key ∈ schema.foreignKeys row.table, key.onDelete = .cascade →
      ∀ target ∈ row.target key, target ∈ names next) :
    ∃ later ∈ next, Kept schema row later ∧ ∀ key ∈ schema.foreignKeys row.table,
      ∀ target ∈ row.target key, target ∈ names next → later.target key = row.target key := by
  cases statement with
  | insert new =>
      simp only [execute, Option.ite_none_right_eq_some, Option.some.injEq] at ran
      obtain ⟨_, rfl⟩ := ran
      exact ⟨row, List.mem_append_left _ member, Kept.refl row, fun _ _ _ _ _ => rfl⟩
  | update table change =>
      simp only [execute, Option.ite_none_right_eq_some, Bool.and_eq_true, Option.some.injEq] at ran
      obtain ⟨⟨allowed, _⟩, rfl⟩ := ran
      have other : row.table ≠ table := by
        intro same
        rw [← same, guarded.1] at allowed
        cases allowed
      have same : rewritten table change row = row := if_neg other
      exact ⟨row, List.mem_map.mpr ⟨row, member, same⟩, Kept.refl row, fun _ _ _ _ _ => rfl⟩
  | delete table hit =>
      simp only [execute, Option.ite_none_right_eq_some, Bool.and_eq_true, Option.some.injEq] at ran
      obtain ⟨⟨allowed, _⟩, rfl⟩ := ran
      have other : row.table ≠ table := by
        intro same
        rw [← same, guarded.2] at allowed
        cases allowed
      exact delete_keeps consistent member other (delete_deleted consistent table hit) alive

omit [DecidableEq Table] [DecidableEq Column] [DecidableEq Id] in
theorem Kept.target_or_none {row later : Row Table Column Id Data} (kept : Kept schema row later)
    (key : ForeignKey Table Column) : later.target key = row.target key ∨ later.target key = none := by
  unfold Row.target
  rcases kept.refs key.column with same | ⟨gone, _⟩
  · exact Or.inl (by rw [same])
  · exact Or.inr (by rw [gone]; rfl)

/-- A row of a guarded table is there at the end of a run whose states all have
what its cascading keys name, as it was but for the keys that name something
that some state does not have: these are null. -/
theorem run_keeps (consistent : Consistent schema rows)
    {statements : List (Statement Table Column Id Data)}
    (ran : run (execute schema granted) rows statements = some final) (member : row ∈ rows)
    (guarded : Guarded granted row.table)
    (alive : ∀ visited, Visits (execute schema granted) rows statements visited →
      ∀ key ∈ schema.foreignKeys row.table, key.onDelete = .cascade →
        ∀ target ∈ row.target key, target ∈ names visited) :
    ∃ later ∈ final, Kept schema row later ∧ ∀ key ∈ schema.foreignKeys row.table,
      ∀ target ∈ row.target key, later.target key = row.target key ↔
        ∀ visited, Visits (execute schema granted) rows statements visited →
          target ∈ names visited := by
  induction statements generalizing rows row with
  | nil =>
      cases ran
      refine ⟨row, member, Kept.refl row, fun key listed target found => ⟨?_, fun _ => rfl⟩⟩
      rintro _ visited ⟨before, after, split, reached⟩
      cases List.append_eq_nil_iff.mp split.symm |>.1
      cases reached
      exact consistent.resolved row member key listed target found
  | cons statement rest ih =>
      obtain ⟨next, taken, onward⟩ := (run_cons_iff _ _ _ _).mp ran
      have arrives := visits_later taken ⟨[], rest, rfl, rfl⟩
      obtain ⟨later, here, kept, keeps⟩ :=
        execute_keeps consistent taken member guarded (alive next arrives)
      have table := kept.sameTable
      obtain ⟨last, there, version, iff⟩ := ih (execute_consistent taken) onward here
        (table ▸ guarded) fun visited visits key listed cascading target found => by
          rw [table] at listed
          rw [kept.cascades listed cascading] at found
          exact alive visited (visits_later taken visits) key listed cascading target found
      refine ⟨last, there, kept.trans version, fun key listed target found => ⟨?_, ?_⟩⟩
      · intro same visited visits
        have between : later.target key = row.target key := by
          rcases kept.target_or_none key with still | gone
          · exact still
          · rcases version.target_or_none key with still | none
            · rw [same, gone, Option.mem_def.mp found] at still
              cases still
            · rw [same, Option.mem_def.mp found] at none
              cases none
        rcases (visits_cons_iff taken).mp visits with rfl | later_visits
        · exact consistent.resolved row member key listed target found
        · exact (iff key (table ▸ listed) target (between ▸ found)).mp (same.trans between.symm)
            visited later_visits
      · intro always
        have between := keeps key listed target found (always next arrives)
        refine ((iff key (table ▸ listed) target (between ▸ found)).mpr ?_).trans between
        exact fun visited visits => always visited (visits_later taken visits)

end Guarded

end RunnerupChat.Referential
