import Mathlib.Data.List.Dedup
import Mathlib.Data.List.Infix

/-!
Sliding-window limiters over call times. A limiter remembers the times it
allowed and weighs those that still lie in the window `(now - window, now]`.
`List.length` weighs every call; `mergedWeight` weighs calls made at one time
as a single call. The two limiters agree on a sequence of calls exactly when
no call is refused while two calls in its window share their time.
-/

namespace RunnerupChat.SlidingWindow

def recent (window now : Nat) (times : List Nat) : List Nat :=
  times.filter fun time => decide (now < time + window) && decide (time ≤ now)

def admits (weight : List Nat → Nat) (limit window : Nat) (allowed : List Nat) (now : Nat) : Bool :=
  decide (weight (recent window now allowed) < limit)

def allow (weight : List Nat → Nat) (limit window : Nat) (allowed : List Nat) (now : Nat) :
    List Nat :=
  if admits weight limit window allowed now then allowed ++ [now] else allowed

/-- The times a limiter has allowed after serving `calls` in order. -/
def allowedBy (weight : List Nat → Nat) (limit window : Nat) (calls : List Nat) : List Nat :=
  calls.foldl (allow weight limit window) []

def mergedWeight (times : List Nat) : Nat := times.dedup.length

theorem mem_recent_iff (window now time : Nat) (times : List Nat) :
    time ∈ recent window now times ↔ time ∈ times ∧ now < time + window ∧ time ≤ now := by
  simp [recent]

theorem allowed_by_snoc (weight : List Nat → Nat) (limit window : Nat) (calls : List Nat)
    (now : Nat) :
    allowedBy weight limit window (calls ++ [now]) =
      allow weight limit window (allowedBy weight limit window calls) now := by
  simp [allowedBy]

theorem allowed_by_sublist (weight : List Nat → Nat) (limit window : Nat) (calls : List Nat) :
    (allowedBy weight limit window calls).Sublist calls := by
  induction calls using List.reverseRecOn with
  | nil => simp [allowedBy]
  | append_singleton calls now ih =>
      rw [allowed_by_snoc, allow]
      split
      · exact ih.append (List.Sublist.refl _)
      · exact ih.trans (List.sublist_append_left _ _)

/-- Allowed calls in the half-open interval of one window length. -/
def inInterval (window first : Nat) (times : List Nat) : List Nat :=
  times.filter fun time => decide (first ≤ time) && decide (time < first + window)

theorem interval_recent_le (window first now : Nat) (times : List Nat)
    (ordered : ∀ time ∈ times, time ≤ now) (inside : now < first + window) :
    (inInterval window first times).length ≤ (recent window now times).length := by
  apply List.Sublist.length_le
  have same : inInterval window first times =
      inInterval window first (recent window now times) := by
    simp only [inInterval, recent, List.filter_filter]
    apply List.filter_congr
    intro time member
    have bound := ordered time member
    -- from `first` on, nothing of the interval has left the window yet
    by_cases low : first ≤ time
    · have high : now < time + window := by omega
      simp [low, high, bound]
    · simp [low]
  rw [same]
  exact List.filter_sublist

/-- A limiter that weighs every call allows at most `limit` calls in every
interval of one window length. -/
theorem interval_within_limit (limit window : Nat) (calls : List Nat)
    (ordered : calls.Pairwise (· ≤ ·)) (first : Nat) :
    (inInterval window first (allowedBy List.length limit window calls)).length ≤ limit := by
  induction calls using List.reverseRecOn with
  | nil => simp [allowedBy, inInterval]
  | append_singleton calls now ih =>
      rw [List.pairwise_append] at ordered
      have earlier := ih ordered.1
      rw [allowed_by_snoc, allow]
      split
      · rename_i admitted
        simp only [admits, decide_eq_true_eq] at admitted
        -- only a call inside the interval adds to it, and it was admitted by its own window
        by_cases inside : first ≤ now ∧ now < first + window
        · have bounded : ∀ time ∈ allowedBy List.length limit window calls, time ≤ now :=
            fun time member =>
              ordered.2.2 time ((allowed_by_sublist _ _ _ _).subset member) now (by simp)
          have fewer := interval_recent_le window first now _ bounded inside.2
          simp only [inInterval, List.filter_append, List.length_append] at fewer ⊢
          simp only [inside, decide_true, Bool.and_self, List.filter_cons_of_pos,
            List.filter_nil, List.length_singleton]
          omega
        · have outside : inInterval window first [now] = [] := by
            simp only [inInterval, List.filter_eq_nil_iff, List.mem_singleton, forall_eq,
              Bool.and_eq_true, decide_eq_true_eq]
            exact inside
          have split : inInterval window first
              (allowedBy List.length limit window calls ++ [now]) =
              inInterval window first (allowedBy List.length limit window calls) ++
                inInterval window first [now] := List.filter_append _ _
          rw [split, outside, List.append_nil]
          exact earlier
      · exact earlier

theorem recent_within_limit (limit window now : Nat) (calls : List Nat)
    (ordered : calls.Pairwise (· ≤ ·)) :
    (recent window now (allowedBy List.length limit window calls)).length ≤ limit := by
  refine Nat.le_trans (List.Sublist.length_le ?_)
    (interval_within_limit limit window calls ordered (now + 1 - window))
  apply List.monotone_filter_right
  intro time member
  simp only [Bool.and_eq_true, decide_eq_true_eq] at member ⊢
  omega

theorem merged_weight_le (times : List Nat) : mergedWeight times ≤ times.length :=
  List.Sublist.length_le (List.dedup_sublist times)

theorem merged_weight_eq_iff (times : List Nat) :
    mergedWeight times = times.length ↔ times.Nodup := by
  constructor
  · intro same
    exact List.dedup_eq_self.mp ((List.dedup_sublist times).eq_of_length same)
  · intro distinct
    rw [mergedWeight, List.dedup_eq_self.mpr distinct]

/-- Every call finds room in its window, whatever came before it is allowed. -/
def HasRoom (weight : List Nat → Nat) (limit window : Nat) (calls : List Nat) : Prop :=
  ∀ before now after, calls = before ++ now :: after → weight (recent window now before) < limit

/-- A limiter allows a whole sequence exactly when each call finds room. -/
theorem allowed_all_iff (weight : List Nat → Nat) (limit window : Nat) (calls : List Nat) :
    allowedBy weight limit window calls = calls ↔ HasRoom weight limit window calls := by
  induction calls using List.reverseRecOn with
  | nil => simp [allowedBy, HasRoom]
  | append_singleton calls now ih =>
      rw [allowed_by_snoc, allow]
      constructor
      · intro all
        have shorter := (allowed_by_sublist weight limit window calls).length_le
        split at all
        · rename_i admitted
          have same := List.append_cancel_right all
          have room := ih.mp same
          rw [same, admits, decide_eq_true_eq] at admitted
          intro before call after cut
          rcases List.eq_nil_or_concat after with rfl | ⟨middle, last, rfl⟩
          · obtain ⟨rfl, rfl⟩ := List.append_inj' cut rfl |>.imp_right (List.cons.inj · |>.1)
            exact admitted
          · rw [List.concat_eq_append, ← List.cons_append, ← List.append_assoc] at cut
            exact room before call middle (List.append_inj' cut rfl).1
        · have lengths := congrArg List.length all
          rw [List.length_append, List.length_singleton] at lengths
          omega
      · intro room
        have same := ih.mpr fun before call after cut =>
          room before call (after ++ [now]) (by rw [cut]; simp)
        rw [same, admits, if_pos (decide_eq_true (room calls now [] rfl))]

theorem has_room_short (limit window : Nat) (calls : List Nat) (short : calls.length ≤ limit) :
    HasRoom mergedWeight limit window calls := by
  intro before now after cut
  have fewer : (recent window now before).length ≤ before.length := List.length_filter_le _ _
  have merged := merged_weight_le (recent window now before)
  rw [cut, List.length_append, List.length_cons] at short
  omega

/-- `weight` decides every call of the sequence as a count of the calls it
allowed before would. -/
def CountsCalls (weight : List Nat → Nat) (limit window : Nat) (calls : List Nat) : Prop :=
  ∀ before now after, calls = before ++ now :: after →
    admits weight limit window (allowedBy weight limit window before) now =
      admits List.length limit window (allowedBy weight limit window before) now

/-- Every call refused by the counting limiter finds the allowed calls of its
window at pairwise different times. -/
def Separated (limit window : Nat) (calls : List Nat) : Prop :=
  ∀ before now after, calls = before ++ now :: after →
    admits List.length limit window (allowedBy List.length limit window before) now = false →
    (recent window now (allowedBy List.length limit window before)).Nodup

theorem counts_calls_init (weight : List Nat → Nat) (limit window : Nat) (calls later : List Nat)
    (counts : CountsCalls weight limit window (calls ++ later)) :
    CountsCalls weight limit window calls := by
  intro before now after split
  exact counts before now (after ++ later) (by rw [split]; simp)

theorem separated_init (limit window : Nat) (calls later : List Nat)
    (separated : Separated limit window (calls ++ later)) : Separated limit window calls := by
  intro before now after split
  exact separated before now (after ++ later) (by rw [split]; simp)

/-- A limiter that counts calls allows the same times as the counting one. -/
theorem counts_calls_allowed (weight : List Nat → Nat) (limit window : Nat) (calls : List Nat)
    (counts : CountsCalls weight limit window calls) :
    allowedBy weight limit window calls = allowedBy List.length limit window calls := by
  induction calls using List.reverseRecOn with
  | nil => rfl
  | append_singleton calls now ih =>
      have earlier := ih (counts_calls_init weight limit window calls [now] counts)
      have last := counts calls now [] rfl
      rw [allowed_by_snoc, allowed_by_snoc, allow, allow, last, earlier]

theorem merged_refuses_iff (limit window now : Nat) (allowed : List Nat)
    (bounded : (recent window now allowed).length ≤ limit)
    (full : admits List.length limit window allowed now = false) :
    admits mergedWeight limit window allowed now = false ↔ (recent window now allowed).Nodup := by
  simp only [admits, decide_eq_false_iff_not, Nat.not_lt] at full ⊢
  rw [← merged_weight_eq_iff]
  have fewer := merged_weight_le (recent window now allowed)
  omega

theorem separated_merged_allowed (limit window : Nat) (calls : List Nat)
    (ordered : calls.Pairwise (· ≤ ·)) (separated : Separated limit window calls) :
    allowedBy mergedWeight limit window calls = allowedBy List.length limit window calls ∧
      CountsCalls mergedWeight limit window calls := by
  induction calls using List.reverseRecOn with
  | nil => exact ⟨rfl, fun before now after split => by simp at split⟩
  | append_singleton calls now ih =>
      have prior := (List.pairwise_append.mp ordered).1
      obtain ⟨same, counts⟩ := ih prior (separated_init limit window calls [now] separated)
      have decided : admits mergedWeight limit window (allowedBy mergedWeight limit window calls)
          now =
            admits List.length limit window (allowedBy mergedWeight limit window calls) now := by
        rw [same]
        cases full :
            admits List.length limit window (allowedBy List.length limit window calls) now with
        | false =>
            exact (merged_refuses_iff limit window now _
              (recent_within_limit limit window now calls prior) full).mpr
              (separated calls now [] rfl full)
        | true =>
            simp only [admits, decide_eq_true_eq] at full ⊢
            exact Nat.lt_of_le_of_lt (merged_weight_le _) full
      refine ⟨by rw [allowed_by_snoc, allowed_by_snoc, allow, allow, decided, same], ?_⟩
      intro before time after split
      rcases List.eq_nil_or_concat after with rfl | ⟨rest, last, rfl⟩
      · obtain ⟨rfl, atEnd⟩ := List.append_inj' split rfl
        simp only [List.cons.injEq, and_true] at atEnd
        exact atEnd ▸ decided
      · have shorter : calls ++ [now] = (before ++ time :: rest) ++ [last] := by
          rw [split]; simp
        exact counts before time rest (List.append_inj' shorter rfl).1

/-- Merging calls of one time loses nothing exactly on separated sequences. -/
theorem merged_counts_iff (limit window : Nat) (calls : List Nat)
    (ordered : calls.Pairwise (· ≤ ·)) :
    CountsCalls mergedWeight limit window calls ↔ Separated limit window calls := by
  constructor
  · intro counts before now after split full
    have prior : before.Pairwise (· ≤ ·) := by
      rw [split] at ordered
      exact (List.pairwise_append.mp ordered).1
    have same := counts_calls_allowed mergedWeight limit window before
      (counts_calls_init mergedWeight limit window before (now :: after) (split ▸ counts))
    have decided := counts before now after split
    rw [same, full] at decided
    exact (merged_refuses_iff limit window now _
      (recent_within_limit limit window now before prior) full).mp decided
  · exact fun separated => (separated_merged_allowed limit window calls ordered separated).2

/-- Calls at pairwise different times are separated. -/
theorem nodup_separated (limit window : Nat) (calls : List Nat)
    (distinct : calls.Nodup) : Separated limit window calls := by
  intro before now after split _
  have prior : before.Nodup := (split ▸ distinct).of_append_left
  exact ((allowed_by_sublist _ _ _ before).nodup prior).filter _

end RunnerupChat.SlidingWindow
