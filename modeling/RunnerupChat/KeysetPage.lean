import Mathlib.Data.List.Nodup
import Mathlib.Data.List.Sort

/-!
Keyset pages. A call is given a cursor and serves the first rows above it in
key order; the key of the last one is its cursor for the next call. A reader
that chains its calls sees every row up to its cursor exactly when no call
serves a row while a lower one is yet to become servable.
-/

namespace RunnerupChat.KeysetPage

variable {Row : Type} (key : Row → Nat)

/-- `WHERE key > after ORDER BY key`. -/
def above (after : Nat) (rows : List Row) : List Row :=
  (rows.filter fun row => decide (after < key row)).insertionSort
    fun left right => key left ≤ key right

def page (after limit : Nat) (rows : List Row) : List Row := (above key after rows).take limit

def cursor (after : Nat) (served : List Row) : Nat :=
  (served.getLast?.map key).getD after

structure Call (Row : Type) where
  servable : List Row
  after : Nat
  limit : Nat
  served : List Row
  cursor : Nat

structure Call.Answered (call : Call Row) : Prop where
  served : call.served = page key call.after call.limit call.servable
  cursor : call.cursor = KeysetPage.cursor key call.after call.served

/-- Each call passes the cursor the call before it returned. -/
def Chained : Nat → List (Call Row) → Prop
  | _, [] => True
  | after, call :: rest => call.after = after ∧ Chained call.cursor rest

/-- A row with servable rows above it and fewer than `limit` below it. -/
def Overtaken (call : Call Row) (row : Row) : Prop :=
  (∃ other ∈ call.servable, key row < key other) ∧
    call.servable.countP (fun other => decide (call.after < key other ∧ key other < key row)) <
      call.limit

/-- Every row the call moves its cursor over is one it serves. -/
def Covers (rows : List Row) (call : Call Row) : Prop :=
  ∀ row ∈ rows, call.after < key row → key row ≤ call.cursor → row ∈ call.served

/-- Each call returns with every row up to its cursor served by then, and no
row is served twice. -/
structure Complete (rows : List Row) (first : Nat) (calls : List (Call Row)) : Prop where
  served : ∀ earlier call later, calls = earlier ++ call :: later →
    ∀ row ∈ rows, first < key row → key row ≤ call.cursor →
      ∃ other ∈ earlier ++ [call], row ∈ other.served
  once : ((calls.flatMap Call.served).map key).Nodup

/-- No call overtakes a row that it cannot serve yet. -/
def NoneOvertaken (rows : List Row) (calls : List (Call Row)) : Prop :=
  ∀ call ∈ calls, ∀ row ∈ rows, call.after < key row → row ∉ call.servable →
    ¬Overtaken key call row

section Pages
variable {key}

/-- In a strictly sorted list, a row is among the first as many rows lie below it. -/
theorem mem_take_iff {rows : List Row}
    (sorted : rows.Pairwise fun left right => key left < key right) (limit : Nat) (row : Row) :
    row ∈ rows.take limit ↔
      row ∈ rows ∧ rows.countP (fun other => decide (key other < key row)) < limit := by
  induction rows generalizing limit with
  | nil => simp
  | cons head rest ih =>
      obtain ⟨least, tail⟩ := List.pairwise_cons.mp sorted
      cases limit with
      | zero => simp
      | succ limit =>
          rw [List.take_succ_cons, List.mem_cons, List.mem_cons, List.countP_cons, ih tail]
          -- no row of the tail lies below the head
          by_cases same : row = head
          · subst row
            have none : rest.countP (fun other => decide (key other < key head)) = 0 := by
              rw [List.countP_eq_zero]
              intro other member
              have above := least other member
              simp only [decide_eq_true_eq]
              omega
            simp [none]
          · constructor
            · rintro (found | ⟨member, below⟩)
              · exact absurd found same
              · refine ⟨Or.inr member, ?_⟩
                split <;> omega
            · rintro ⟨found | member, below⟩
              · exact absurd found same
              · have above := least row member
                rw [if_pos (decide_eq_true above)] at below
                exact Or.inr ⟨member, by omega⟩

variable {after limit : Nat} {rows : List Row}

theorem above_sorted (distinct : (rows.map key).Nodup) :
    (above key after rows).Pairwise fun left right => key left < key right := by
  have different : (above key after rows).Pairwise fun left right => key left ≠ key right := by
    apply List.pairwise_map.mp
    apply ((List.perm_insertionSort _ _).map key).nodup_iff.mpr
    exact distinct.sublist (List.filter_sublist.map key)
  have ordered : (above key after rows).Pairwise fun left right => key left ≤ key right :=
    List.pairwise_insertionSort _ _
  exact (ordered.and different).imp fun both => Nat.lt_of_le_of_ne both.1 both.2

theorem page_sorted (after limit : Nat) (distinct : (rows.map key).Nodup) :
    (page key after limit rows).Pairwise fun left right => key left < key right :=
  (above_sorted distinct).sublist (List.take_sublist _ _)

theorem above_count (bound : Nat) :
    (above key after rows).countP (fun other => decide (key other < bound)) =
      rows.countP fun other => decide (after < key other ∧ key other < bound) := by
  unfold above
  rw [(List.perm_insertionSort _ _).countP_eq, List.countP_filter]
  simp only [Bool.decide_and, Bool.and_comm]

theorem mem_above_iff (row : Row) : row ∈ above key after rows ↔ row ∈ rows ∧ after < key row := by
  simp [above]

theorem mem_page_iff (distinct : (rows.map key).Nodup) (row : Row) :
    row ∈ page key after limit rows ↔
      row ∈ rows ∧ after < key row ∧
        rows.countP (fun other => decide (after < key other ∧ key other < key row)) < limit := by
  unfold page
  rw [mem_take_iff (above_sorted distinct), above_count, mem_above_iff, and_assoc]

/-- No key lies between the cursor and the row, so room for one is enough. -/
theorem page_just_before (distinct : (rows.map key).Nodup) {row : Row} (member : row ∈ rows)
    (positive : 0 < key row) : row ∈ page key (key row - 1) 1 rows := by
  apply (mem_page_iff distinct row).mpr
  refine ⟨member, by omega, ?_⟩
  rw [List.countP_eq_zero.mpr]
  · exact Nat.zero_lt_one
  · intro other _
    simp only [decide_eq_true_eq]
    omega

theorem cursor_cases (after limit : Nat) (distinct : (rows.map key).Nodup) :
    (page key after limit rows = [] ∧ cursor key after (page key after limit rows) = after) ∨
      ∃ last ∈ page key after limit rows, cursor key after (page key after limit rows) = key last ∧
        ∀ row ∈ page key after limit rows, key row ≤ key last := by
  rcases List.eq_nil_or_concat (page key after limit rows) with empty | ⟨front, last, filled⟩
  · rw [empty]
    exact Or.inl ⟨rfl, rfl⟩
  · have sorted := page_sorted after limit distinct
    rw [List.concat_eq_append] at filled
    rw [filled] at sorted ⊢
    refine Or.inr ⟨last, by simp, by simp [cursor], ?_⟩
    intro row member
    rcases List.mem_append.mp member with before | same
    · have below := (List.pairwise_append.mp sorted).2.2 row before last (by simp)
      omega
    · rw [List.mem_singleton.mp same]

end Pages

section Calls
variable {key} {call : Call Row}

theorem served_range (answered : call.Answered key) (distinct : (call.servable.map key).Nodup) :
    call.after ≤ call.cursor ∧
      ∀ row ∈ call.served, call.after < key row ∧ key row ≤ call.cursor := by
  rw [answered.cursor, answered.served]
  have lower : ∀ row ∈ page key call.after call.limit call.servable, call.after < key row :=
    fun row member => ((mem_page_iff distinct row).mp member).2.1
  rcases cursor_cases call.after call.limit distinct with
    ⟨empty, same⟩ | ⟨last, member, same, most⟩
  · rw [same, empty]
    exact ⟨le_refl _, by simp⟩
  · rw [same]
    exact ⟨(lower last member).le, fun row inside => ⟨lower row inside, most row inside⟩⟩

/-- A cursor that moved is the key of a served row. -/
theorem cursor_served (answered : call.Answered key) (distinct : (call.servable.map key).Nodup)
    (moved : call.after < call.cursor) : ∃ last ∈ call.served, key last = call.cursor := by
  rw [answered.cursor, answered.served] at *
  rcases cursor_cases call.after call.limit distinct with
    ⟨empty, same⟩ | ⟨last, member, same, most⟩
  · omega
  · exact ⟨last, member, same.symm⟩

theorem below_count_mono (rows : List Row) (after : Nat) {low high : Nat} (order : low ≤ high) :
    rows.countP (fun other => decide (after < key other ∧ key other < low)) ≤
      rows.countP fun other => decide (after < key other ∧ key other < high) := by
  apply List.countP_mono_left
  intro other member below
  simp only [decide_eq_true_eq] at below ⊢
  omega

/-- A row that is no servable one is overtaken when the cursor moves past it. -/
theorem overtaken_iff (answered : call.Answered key) (distinct : (call.servable.map key).Nodup)
    {row : Row} (beyond : call.after < key row)
    (apart : ∀ other ∈ call.servable, key other ≠ key row) :
    Overtaken key call row ↔ key row ≤ call.cursor := by
  have range := (served_range answered distinct).2
  constructor
  · rintro ⟨⟨other, servable, higher⟩, few⟩
    by_contra behind
    -- all that is served lies below the row, so the page is not full and ends the rows
    have below : ∀ found ∈ call.served, decide (key found < key row) = true := by
      intro found member
      have least := range found member
      simp only [decide_eq_true_eq]
      omega
    have short : call.served.length < call.limit := by
      rw [← List.countP_eq_length.mpr below, answered.served]
      have most := (List.take_sublist call.limit (above key call.after call.servable)).countP_le
        (p := fun found => decide (key found < key row))
      rw [above_count] at most
      exact Nat.lt_of_le_of_lt most few
    have whole : call.served = above key call.after call.servable := by
      rw [answered.served] at short ⊢
      unfold page at short ⊢
      rw [List.length_take] at short
      exact List.take_of_length_le (by omega)
    have reached := (range other (whole ▸ (mem_above_iff other).mpr ⟨servable, by omega⟩)).2
    omega
  · intro passed
    obtain ⟨last, member, same⟩ := cursor_served answered distinct (by omega)
    rw [answered.served, mem_page_iff distinct] at member
    have different := apart last member.1
    refine ⟨⟨last, member.1, by omega⟩, ?_⟩
    exact Nat.lt_of_le_of_lt (below_count_mono _ _ (by omega)) member.2.2

theorem covers_iff {rows : List Row} (answered : call.Answered key)
    (distinct : (rows.map key).Nodup) (within : call.servable.Sublist rows) :
    Covers key rows call ↔
      ∀ row ∈ rows, call.after < key row → row ∉ call.servable → ¬Overtaken key call row := by
  have inner : (call.servable.map key).Nodup := distinct.sublist (within.map key)
  have apart : ∀ row ∈ rows, row ∉ call.servable → ∀ other ∈ call.servable,
      key other ≠ key row := by
    intro row member missing other servable same
    exact missing
      (List.inj_on_of_nodup_map distinct (within.subset servable) member same ▸ servable)
  constructor
  · intro covers row member beyond missing overtaken
    have passed := (overtaken_iff answered inner beyond (apart row member missing)).mp overtaken
    have served := covers row member beyond passed
    rw [answered.served, mem_page_iff inner] at served
    exact missing served.1
  · intro none row member beyond passed
    by_cases servable : row ∈ call.servable
    · obtain ⟨last, found, same⟩ := cursor_served answered inner (by omega)
      rw [answered.served, mem_page_iff inner] at found ⊢
      exact ⟨servable, beyond, Nat.lt_of_le_of_lt (below_count_mono _ _ (by omega)) found.2.2⟩
    · exact absurd ((overtaken_iff answered inner beyond (apart row member servable)).mpr passed)
        (none row member beyond servable)

theorem served_once (answered : call.Answered key) (distinct : (call.servable.map key).Nodup) :
    (call.served.map key).Nodup := by
  rw [answered.served]
  exact List.pairwise_map.mpr ((page_sorted _ _ distinct).imp fun order => Nat.ne_of_lt order)

end Calls

section Readers
variable {key} {rows : List Row}

/-- All that chained calls serve lies above their first cursor. -/
theorem chained_above {calls : List (Call Row)} {first : Nat} (chained : Chained first calls)
    (answered : ∀ call ∈ calls, call.Answered key)
    (distinct : ∀ call ∈ calls, (call.servable.map key).Nodup) :
    ∀ call ∈ calls, first ≤ call.cursor ∧ ∀ row ∈ call.served, first < key row := by
  induction calls generalizing first with
  | nil => simp
  | cons head rest ih =>
      obtain ⟨rfl, chained⟩ := chained
      obtain ⟨grows, range⟩ := served_range (answered head List.mem_cons_self)
        (distinct head List.mem_cons_self)
      intro call member
      rcases List.mem_cons.mp member with rfl | later
      · exact ⟨grows, fun row inside => (range row inside).1⟩
      · obtain ⟨further, higher⟩ := ih chained
          (fun call inside => answered call (List.mem_cons_of_mem _ inside))
          (fun call inside => distinct call (List.mem_cons_of_mem _ inside)) call later
        exact ⟨le_trans grows further,
          fun row inside => Nat.lt_of_le_of_lt grows (higher row inside)⟩

theorem complete_cons_iff {head : Call Row} {rest : List (Call Row)}
    (chained : Chained head.cursor rest)
    (answered : ∀ call ∈ head :: rest, call.Answered key)
    (distinct : ∀ call ∈ head :: rest, (call.servable.map key).Nodup) :
    Complete key rows head.after (head :: rest) ↔
      Covers key rows head ∧ Complete key rows head.cursor rest := by
  obtain ⟨grows, range⟩ := served_range (answered head List.mem_cons_self)
    (distinct head List.mem_cons_self)
  have higher := chained_above chained
    (fun call inside => answered call (List.mem_cons_of_mem _ inside))
    (fun call inside => distinct call (List.mem_cons_of_mem _ inside))
  constructor
  · intro complete
    refine ⟨?_, ?_, ?_⟩
    · intro row member beyond passed
      obtain ⟨other, found, served⟩ := complete.served [] head rest rfl row member beyond passed
      rw [List.mem_singleton.mp found] at served
      exact served
    · rintro earlier call later rfl row member beyond passed
      obtain ⟨other, found, served⟩ := complete.served (head :: earlier) call later rfl row member
        (by omega) passed
      rcases List.mem_cons.mp found with rfl | found
      · have most := (range row served).2
        omega
      · exact ⟨other, found, served⟩
    · have once := complete.once
      rw [List.flatMap_cons, List.map_append] at once
      exact once.of_append_right
  · rintro ⟨covers, later⟩
    constructor
    · intro earlier call tail split row member beyond passed
      cases earlier with
      | nil =>
          obtain ⟨rfl, rfl⟩ := List.cons.inj split
          exact ⟨head, by simp, covers row member beyond passed⟩
      | cons first earlier =>
          obtain ⟨rfl, rfl⟩ := List.cons.inj split
          by_cases here : key row ≤ head.cursor
          · exact ⟨head, by simp, covers row member beyond here⟩
          · obtain ⟨other, found, served⟩ := later.served earlier call tail rfl row member
              (by omega) passed
            exact ⟨other, List.mem_cons_of_mem _ found, served⟩
    · rw [List.flatMap_cons, List.map_append]
      apply List.nodup_append.mpr ⟨?_, later.once, ?_⟩
      · exact served_once (answered head List.mem_cons_self) (distinct head List.mem_cons_self)
      · rintro low inHead high inRest rfl
        obtain ⟨row, served, rfl⟩ := List.mem_map.mp inHead
        obtain ⟨other, served', same⟩ := List.mem_map.mp inRest
        obtain ⟨call, inside, found⟩ := List.mem_flatMap.mp served'
        have below := (range row served).2
        have above := (higher call inside).2 other found
        omega

/-- A reader misses nothing exactly when no call overtakes a row. -/
theorem complete_iff (distinct : (rows.map key).Nodup) {calls : List (Call Row)} {first : Nat}
    (chained : Chained first calls) (answered : ∀ call ∈ calls, call.Answered key)
    (within : ∀ call ∈ calls, call.servable.Sublist rows) :
    Complete key rows first calls ↔ NoneOvertaken key rows calls := by
  induction calls generalizing first with
  | nil =>
      constructor
      · intro _ call member
        cases member
      · intro _
        exact ⟨by simp, by simp⟩
  | cons head rest ih =>
      obtain ⟨rfl, chained⟩ := chained
      have inner : ∀ call ∈ head :: rest, (call.servable.map key).Nodup :=
        fun call member => distinct.sublist ((within call member).map key)
      have later := ih chained (fun call member => answered call (List.mem_cons_of_mem _ member))
        fun call member => within call (List.mem_cons_of_mem _ member)
      rw [complete_cons_iff chained answered inner, later,
        covers_iff (answered head List.mem_cons_self) distinct (within head List.mem_cons_self)]
      simp [NoneOvertaken]

end Readers

end RunnerupChat.KeysetPage
