import Mathlib.Data.List.Perm.Subperm
import RunnerupChat.SlidingWindow

/-!
How fast a sliding window lets calls through. Calls at increasing times that
all find room lie at least a window apart in strides of `limit`; at full pace
they come in bursts of `limit` at the start of each window.
-/

namespace RunnerupChat.SlidingWindow

section Spacing
variable {limit window : Nat} {calls : List Nat}

theorem increasing_spacing (increasing : calls.Pairwise (· < ·)) (first steps : Nat)
    (inside : first + steps < calls.length) : calls[first] + steps ≤ calls[first + steps] := by
  induction steps with
  | zero => simp
  | succ steps ih =>
      have before := ih (by omega)
      have next := List.pairwise_iff_getElem.mp increasing (first + steps) (first + (steps + 1))
        (by omega) inside (by omega)
      omega

/-- Were the stride shorter, `limit` calls would lie in the window of its last. -/
theorem window_spacing (increasing : calls.Pairwise (· < ·))
    (room : HasRoom mergedWeight limit window calls) (first : Nat)
    (inside : first + limit < calls.length) :
    calls[first] + window ≤ calls[first + limit] := by
  by_contra close
  have ordered := List.pairwise_iff_getElem.mp increasing
  have found := room (calls.take (first + limit)) calls[first + limit]
    (calls.drop (first + limit + 1)) (by
      rw [← List.drop_eq_getElem_cons, List.take_append_drop])
  -- the calls from `first` on, up to the last of the stride
  have stride : ((calls.take (first + limit)).drop first).Sublist
      (recent window calls[first + limit] (calls.take (first + limit))) := by
    have all : ((calls.take (first + limit)).drop first).filter (fun time =>
        decide (calls[first + limit] < time + window) &&
          decide (time ≤ calls[first + limit])) = (calls.take (first + limit)).drop first := by
      rw [List.filter_eq_self]
      intro time member
      obtain ⟨index, bound, rfl⟩ := List.mem_iff_getElem.mp member
      simp only [List.length_drop, List.length_take] at bound
      simp only [List.getElem_drop, List.getElem_take, Bool.and_eq_true, decide_eq_true_eq]
      have later := ordered (first + index) (first + limit) (by omega) inside (by omega)
      have earlier := increasing_spacing increasing first index (by omega)
      omega
    rw [← all]
    exact (List.drop_sublist _ _).filter _
  have distinct : (recent window calls[first + limit] (calls.take (first + limit))).Nodup :=
    ((increasing.imp Nat.ne_of_lt).sublist (List.take_sublist _ _)).filter _
  have long := stride.length_le
  rw [(merged_weight_eq_iff _).mpr distinct] at found
  rw [List.length_drop, List.length_take] at long
  omega

/-- Call `index` at full pace. -/
def paced (limit window index : Nat) : Nat := index / limit * window + index % limit

theorem paced_turn (positive : 0 < limit) (index : Nat) :
    paced limit window (index + limit) = paced limit window index + window := by
  simp only [paced, Nat.add_div_right _ positive, Nat.add_mod_right, Nat.succ_mul]
  omega

/-- No sequence is faster. -/
theorem paced_le (positive : 0 < limit) (increasing : calls.Pairwise (· < ·))
    (room : HasRoom mergedWeight limit window calls) (index : Nat)
    (inside : index < calls.length) :
    calls[0] + paced limit window index ≤ calls[index] := by
  induction index using Nat.strong_induction_on with
  | _ index ih =>
      rcases Nat.lt_or_ge index limit with short | long
      · have spaced := increasing_spacing increasing 0 index (by omega)
        simp only [paced, Nat.div_eq_of_lt short, Nat.mod_eq_of_lt short, Nat.zero_mul,
          Nat.zero_add] at spaced ⊢
        exact spaced
      · obtain ⟨rest, rfl⟩ := Nat.exists_eq_add_of_le' long
        have before := ih rest (by omega) (by omega)
        have stride := window_spacing increasing room rest inside
        rw [paced_turn positive]
        omega

theorem paced_increasing (positive : 0 < limit) (wide : limit ≤ window) {one other : Nat}
    (before : one < other) : paced limit window one < paced limit window other := by
  have split := Nat.div_add_mod one limit
  have splitOther := Nat.div_add_mod other limit
  have low := Nat.mod_lt one positive
  rcases Nat.lt_or_ge (one / limit) (other / limit) with turns | same
  · have bound : (one / limit + 1) * window ≤ other / limit * window :=
      Nat.mul_le_mul_right window turns
    rw [Nat.succ_mul] at bound
    unfold paced
    omega
  · have equal : one / limit = other / limit :=
      Nat.le_antisymm (Nat.div_le_div_right (by omega)) same
    unfold paced
    rw [equal] at split ⊢
    omega

/-- At full pace every call finds room. -/
theorem paced_room (positive : 0 < limit) (wide : limit ≤ window) (count : Nat) :
    HasRoom mergedWeight limit window ((List.range count).map (paced limit window)) := by
  intro before now after cut
  obtain ⟨earlier, rest, split, rfl, shown⟩ := List.map_eq_append_iff.mp cut
  obtain ⟨index, later, rfl, rfl, rfl⟩ := List.map_eq_cons_iff.mp shown
  obtain rfl : earlier = List.range index := by
    rw [List.range_eq_range'] at split ⊢
    obtain ⟨size, _, rfl, tail⟩ := List.range'_eq_append_iff.mp split
    obtain ⟨same, _⟩ := List.range'_eq_cons_iff.mp tail.symm
    rw [← same, Nat.zero_add, Nat.mul_one]
  -- a call one stride back has just left the window
  have close : (List.range index).filter (fun other =>
      decide (paced limit window index < paced limit window other + window) &&
        decide (paced limit window other ≤ paced limit window index)) ⊆
      List.range' (index + 1 - limit) (limit - 1) := by
    intro other member
    simp only [List.mem_filter, List.mem_range, Bool.and_eq_true, decide_eq_true_eq] at member
    obtain ⟨below, recent, _⟩ := member
    rw [← paced_turn positive] at recent
    have near : index < other + limit := by
      by_contra far
      rcases Nat.lt_or_ge (other + limit) index with earlier | same
      · exact absurd (paced_increasing positive wide earlier) (by omega)
      · rw [show other + limit = index by omega] at recent
        omega
    rw [List.mem_range'_1]
    omega
  have few := ((List.nodup_range.filter _).subperm close).length_le
  rw [List.length_range'] at few
  refine Nat.lt_of_le_of_lt (merged_weight_le _) ?_
  rw [recent, List.filter_map, List.length_map]
  exact Nat.lt_of_le_of_lt few (by omega)

end Spacing

section After
variable {limit window : Nat} {allowed calls : List Nat}

/-- Every call finds room beside what was allowed before and the calls before
it. -/
def HasRoomAfter (weight : List Nat → Nat) (limit window : Nat) (allowed calls : List Nat) : Prop :=
  ∀ before now after, calls = before ++ now :: after →
    weight (recent window now (allowed ++ before)) < limit

theorem has_room_cons (weight : List Nat → Nat) (now : Nat) :
    HasRoomAfter weight limit window allowed (now :: calls) ↔
      weight (recent window now allowed) < limit ∧
        HasRoomAfter weight limit window (allowed ++ [now]) calls := by
  constructor
  · intro room
    refine ⟨by simpa using room [] now calls rfl, fun before call after cut => ?_⟩
    rw [List.append_assoc]
    exact room (now :: before) call after (by rw [cut]; rfl)
  · rintro ⟨first, later⟩ before call after cut
    cases before with
    | nil =>
        obtain ⟨rfl, rfl⟩ := List.cons.inj cut
        simpa using first
    | cons head before =>
        obtain ⟨rfl, rest⟩ := List.cons.inj cut
        have room := later before call after rest
        rwa [List.append_assoc] at room

theorem merged_weight_mono {few many : List Nat} (subset : few ⊆ many) :
    mergedWeight few ≤ mergedWeight many := by
  have inside : few.dedup ⊆ many.dedup := fun time member =>
    List.mem_dedup.mpr (subset (List.mem_dedup.mp member))
  exact ((List.nodup_dedup few).subperm inside).length_le

/-- What came before only takes room. -/
theorem has_room_of_after (room : HasRoomAfter mergedWeight limit window allowed calls) :
    HasRoom mergedWeight limit window calls := by
  intro before now after cut
  refine Nat.lt_of_le_of_lt (merged_weight_mono ?_) (room before now after cut)
  intro time member
  rw [mem_recent_iff] at member ⊢
  exact ⟨List.mem_append_right _ member.1, member.2⟩

end After

end RunnerupChat.SlidingWindow
