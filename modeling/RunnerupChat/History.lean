import Mathlib.Data.List.Basic
import Mathlib.Data.List.Induction
import Mathlib.Data.List.Nodup
import Mathlib.Data.List.Perm.Subperm

/-!
Logs that only grow at the end. A law of the form "every entry is right in
view of the entries before it" holds of a longer log exactly when it holds of
the log and of the new entry.
-/

namespace RunnerupChat.History

variable {Entry : Type}

def Each (right : List Entry → Entry → Prop) (log : List Entry) : Prop :=
  ∀ before entry after, log = before ++ entry :: after → right before entry

variable {right : List Entry → Entry → Prop}

theorem each_nil : Each right [] := by
  intro before entry after split
  simp at split

theorem each_snoc_iff (log : List Entry) (entry : Entry) :
    Each right (log ++ [entry]) ↔ Each right log ∧ right log entry := by
  constructor
  · intro each
    constructor
    · intro before found after split
      exact each before found (after ++ [entry]) (by simp [split])
    · exact each log entry [] rfl
  · rintro ⟨each, last⟩ before found after split
    rcases List.eq_nil_or_concat after with rfl | ⟨middle, final, rfl⟩
    · obtain ⟨rfl, same⟩ := List.append_inj' split rfl
      exact List.singleton_inj.mp same ▸ last
    · have shorter : log ++ [entry] = (before ++ found :: middle) ++ [final] := by simpa using split
      exact each before found middle (List.append_inj' shorter rfl).1

theorem each_at {log : List Entry} (each : Each right log) {position : Nat} {entry : Entry}
    (found : log[position]? = some entry) : right (log.take position) entry := by
  obtain ⟨inside, rfl⟩ := List.getElem?_eq_some_iff.mp found
  exact each _ _ (log.drop (position + 1)) (by simp)

/-- An entry that rules out earlier ones of its kind occurs once. -/
theorem each_first_count {kind : Entry → Bool} {log : List Entry}
    (each : Each (fun before entry => kind entry = true → before.any kind = false) log) :
    log.countP kind ≤ 1 := by
  induction log using List.reverseRecOn with
  | nil => simp
  | append_singleton log entry ih =>
      obtain ⟨earlier, last⟩ := (each_snoc_iff log entry).mp each
      rw [List.countP_append, List.countP_singleton]
      split
      · rename_i found
        have none : log.countP kind = 0 := by
          simpa [List.countP_eq_zero] using last found
        omega
      · exact ih earlier

theorem count_take_lt {kind : Entry → Bool} {log : List Entry} {early late : Nat} {entry : Entry}
    (found : log[early]? = some entry) (counts : kind entry = true) (order : early < late) :
    (log.take early).countP kind < (log.take late).countP kind := by
  obtain ⟨inside, rfl⟩ := List.getElem?_eq_some_iff.mp found
  have more : (log.take (early + 1)).countP kind ≤ (log.take late).countP kind :=
    (List.take_sublist_take_left (by omega)).countP_le
  rw [List.take_add_one, List.countP_append] at more
  simp only [found, Option.toList_some, List.countP_singleton, counts, if_true] at more
  omega

/-- Entries of one kind that each see fewer than `bound` earlier ones are at
most `bound`. -/
theorem positions_bounded (kind : Entry → Bool) {log : List Entry} {bound : Nat}
    (positions : List Nat) (distinct : positions.Nodup)
    (each : ∀ position ∈ positions, ∃ entry, log[position]? = some entry ∧ kind entry = true ∧
      (log.take position).countP kind < bound) : positions.length ≤ bound := by
  have counts : (positions.map fun position => (log.take position).countP kind).Nodup := by
    apply List.Nodup.map_on _ distinct
    intro left leftIn right rightIn same
    obtain ⟨_, leftFound, leftCounts, _⟩ := each left leftIn
    obtain ⟨_, rightFound, rightCounts, _⟩ := each right rightIn
    by_contra distinct
    rcases Nat.lt_or_gt_of_ne distinct with order | order
    · have less := count_take_lt leftFound leftCounts order
      omega
    · have less := count_take_lt rightFound rightCounts order
      omega
  have within : (positions.map fun position => (log.take position).countP kind) ⊆
      List.range bound := by
    intro value member
    obtain ⟨position, inside, rfl⟩ := List.mem_map.mp member
    obtain ⟨_, _, _, less⟩ := each position inside
    exact List.mem_range.mpr less
  simpa using (List.subperm_of_subset counts within).length_le

end RunnerupChat.History
