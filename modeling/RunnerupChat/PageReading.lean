import Mathlib.Order.Defs.Unbundled
import Mathlib.Order.RelClasses
import Mathlib.Data.List.Sort

/-!
A reader that asks for one page after the other, each from the furthest key it
has received on, in either direction. A page is the front of the rows beyond
that key. Rows may appear between the pages, as long as they appear beyond it.
-/

namespace RunnerupChat.PageReading

variable {Row Key : Type} (order : Key → Key → Prop) (key : Row → Key)

def Beyond (cursor : Option Key) (row : Row) : Prop :=
  ∀ last, cursor = some last → order last (key row)

/-- The front of the ordered rows, not empty while there are any. -/
structure Page (rows page : List Row) : Prop where
  sorted : page.Pairwise fun left right => order (key left) (key right)
  inside : ∀ row ∈ page, row ∈ rows
  closed : ∀ row ∈ page, ∀ other ∈ rows, order (key other) (key row) → other ∈ page
  filled : page = [] → rows = []

/-- The cursor after these rows: the furthest of their keys, or the first one. -/
def Furthest (first : Option Key) (received : List Row) (cursor : Option Key) : Prop :=
  received = [] ∧ cursor = first ∨
    ∃ row ∈ received, cursor = some (key row) ∧
      ∀ other ∈ received, ¬order (key row) (key other)

/-- What was received, in order, is all the tracked rows up to the cursor. -/
structure Reading (tracked received : List Row) (cursor : Option Key) : Prop where
  sorted : received.Pairwise fun left right => order (key left) (key right)
  covered : ∀ row, row ∈ received ↔ row ∈ tracked ∧ ¬Beyond order key cursor row

section Pages
variable {order key} {rows page sorted : List Row}

/-- The first of the sorted rows. -/
theorem page_take (irreflexive : ∀ left right, order left right → ¬order right left)
    (ordered : sorted.Pairwise fun left right => order (key left) (key right))
    (same : ∀ row, row ∈ sorted ↔ row ∈ rows) {limit : Nat} (room : 0 < limit) :
    Page order key rows (sorted.take limit) where
  sorted := ordered.sublist (List.take_sublist _ _)
  inside := fun row member => (same row).mp (List.mem_of_mem_take member)
  closed := by
    intro row member other stored before
    have split := (same other).mpr stored
    rw [← List.take_append_drop limit sorted] at split ordered
    rcases List.mem_append.mp split with front | back
    · exact front
    · have after := (List.pairwise_append.mp ordered).2.2 row member other back
      exact absurd after (irreflexive _ _ before)
  filled := by
    intro empty
    rcases List.take_eq_nil_iff.mp empty with none | none
    · omega
    · apply List.eq_nil_iff_forall_not_mem.mpr
      intro row member
      have listed := (same row).mpr member
      rw [none] at listed
      cases listed

/-- A page of rows is a page of what stands for them. -/
theorem page_map {Image : Type} (imageKey : Image → Key) (image : Row → Image)
    (keys : ∀ row, imageKey (image row) = key row) (chunk : Page order key rows page) :
    Page order imageKey (rows.map image) (page.map image) where
  sorted := by
    rw [List.pairwise_map]
    simpa only [keys] using chunk.sorted
  inside := by
    intro row member
    obtain ⟨source, present, rfl⟩ := List.mem_map.mp member
    exact List.mem_map_of_mem (chunk.inside source present)
  closed := by
    intro row member other listed before
    obtain ⟨source, present, rfl⟩ := List.mem_map.mp member
    obtain ⟨found, stored, rfl⟩ := List.mem_map.mp listed
    rw [keys, keys] at before
    exact List.mem_map_of_mem (chunk.closed source present found stored before)
  filled := by
    intro empty
    rw [chunk.filled (List.map_eq_nil_iff.mp empty)]
    rfl

end Pages

section Readers
variable {order key} {tracked received rows page : List Row} {first cursor next : Option Key}

theorem reading_starts (beyond : ∀ row ∈ tracked, Beyond order key cursor row) :
    Reading order key tracked [] cursor where
  sorted := List.Pairwise.nil
  covered := by
    intro row
    constructor
    · intro member
      cases member
    · rintro ⟨member, passed⟩
      exact absurd (beyond row member) passed

/-- Rows that appear beyond the cursor wait for a later page. -/
theorem reading_grows (reading : Reading order key tracked received cursor) {added : List Row}
    (beyond : ∀ row ∈ added, Beyond order key cursor row) :
    Reading order key (tracked ++ added) received cursor where
  sorted := reading.sorted
  covered := by
    intro row
    rw [reading.covered, List.mem_append]
    constructor
    · rintro ⟨member, passed⟩
      exact ⟨Or.inl member, passed⟩
    · rintro ⟨member | member, passed⟩
      · exact ⟨member, passed⟩
      · exact absurd (beyond row member) passed

/-- An empty page ends the reading with every tracked row received. -/
theorem reading_ends (reading : Reading order key tracked received cursor)
    (ahead : ∀ row ∈ tracked, Beyond order key cursor row → row ∈ rows)
    (chunk : Page order key rows []) (row : Row) : row ∈ received ↔ row ∈ tracked := by
  rw [reading.covered]
  constructor
  · exact fun both => both.1
  · intro member
    refine ⟨member, fun beyond => ?_⟩
    have stored := ahead row member beyond
    rw [chunk.filled rfl] at stored
    cases stored

variable [IsStrictTotalOrder Key order]

/-- A row that is not beyond a key is at it or before it. -/
theorem up_to_iff (last : Key) (row : Row) :
    ¬Beyond order key (some last) row ↔ key row = last ∨ order (key row) last := by
  constructor
  · intro passed
    have behind : ¬order last (key row) := by
      intro further
      apply passed
      rintro other ⟨⟩
      exact further
    rcases trichotomous_of order (key row) last with before | same | after
    · exact Or.inr before
    · exact Or.inl same
    · exact absurd after behind
  · rintro reached beyond
    have further := beyond last rfl
    rcases reached with same | before
    · rw [same] at further
      exact irrefl_of order last further
    · exact asymm_of order further before

theorem not_beyond_iff (row : Row) :
    ¬Beyond order key cursor row ↔
      ∃ last, cursor = some last ∧ (key row = last ∨ order (key row) last) := by
  cases cursor with
  | none =>
      constructor
      · intro passed
        exact absurd (by rintro last ⟨⟩) passed
      · rintro ⟨last, ⟨⟩, _⟩
  | some last =>
      rw [up_to_iff]
      constructor
      · exact fun reached => ⟨last, rfl, reached⟩
      · rintro ⟨other, ⟨⟩, reached⟩
        exact reached

/-- The next page goes on where the last one ended. -/
theorem reading_page (reading : Reading order key tracked received cursor)
    (distinct : ∀ row ∈ tracked, ∀ other ∈ tracked, key row = key other → row = other)
    (ahead : ∀ row, row ∈ rows ↔ row ∈ tracked ∧ Beyond order key cursor row)
    (chunk : Page order key rows page) (reached : Furthest order key first received cursor)
    (furthest : Furthest order key first (received ++ page) next) :
    Reading order key tracked (received ++ page) next where
  sorted := by
    apply List.pairwise_append.mpr ⟨reading.sorted, chunk.sorted, ?_⟩
    intro left before right after
    obtain ⟨last, rfl, upTo⟩ := (not_beyond_iff left).mp ((reading.covered left).mp before).2
    have beyond := ((ahead right).mp (chunk.inside right after)).2 last rfl
    rcases upTo with same | less
    · rw [same]
      exact beyond
    · exact trans_of order less beyond
  covered := by
    intro row
    constructor
    · intro member
      constructor
      · rcases List.mem_append.mp member with old | new
        · exact ((reading.covered row).mp old).1
        · exact ((ahead row).mp (chunk.inside row new)).1
      · rcases furthest with ⟨none, _⟩ | ⟨top, _, rfl, most⟩
        · rw [none] at member
          cases member
        · intro beyond
          exact most row member (beyond _ rfl)
    · rintro ⟨member, passed⟩
      obtain ⟨last, rfl, upTo⟩ := (not_beyond_iff row).mp passed
      by_cases before : Beyond order key cursor row
      · apply List.mem_append_right
        rcases furthest with ⟨none, same⟩ | ⟨top, listed, same, most⟩
        · -- nothing was received, so the cursor has not moved
          rcases reached with ⟨_, start⟩ | ⟨held, present, _⟩
          · have further := before last (start.trans same.symm)
            rcases upTo with here | less
            · rw [here] at further
              exact absurd further (irrefl_of order last)
            · exact absurd further (asymm_of order less)
          · rw [(List.append_eq_nil_iff.mp none).1] at present
            cases present
        · obtain rfl : last = key top := Option.some.inj same
          rcases List.mem_append.mp listed with old | new
          · obtain ⟨at', rfl, reachedTop⟩ :=
              (not_beyond_iff top).mp ((reading.covered top).mp old).2
            have further := before at' rfl
            have less : order (key top) (key row) := by
              rcases reachedTop with here | less
              · rw [here]
                exact further
              · exact trans_of order less further
            rcases upTo with here | back
            · rw [here] at less
              exact absurd less (irrefl_of order _)
            · exact absurd less (asymm_of order back)
          · have tops := (ahead top).mp (chunk.inside top new)
            rcases upTo with here | less
            · rw [distinct row member top tops.1 here]
              exact new
            · exact chunk.closed top new row ((ahead row).mpr ⟨member, before⟩) less
      · exact List.mem_append_left _ ((reading.covered row).mpr ⟨member, before⟩)

end Readers

end RunnerupChat.PageReading
