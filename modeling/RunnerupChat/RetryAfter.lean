import RunnerupChat.RateLimit

/-!
The delay a refusal of `core/ratelimit.py` advertises. The script counts it in
milliseconds up to the moment its oldest entry leaves the window; `check`
rounds it down to whole seconds, and to one second at least.
-/

namespace RunnerupChat.RateLimit

open SlidingWindow SortedSet

section Buckets
variable {limit window now : Nat} {bucket : ZSet String}

def Sorted (entries : List (String × Nat)) : Prop :=
  entries.Pairwise fun first second => first.2 ≤ second.2

/-- What every run of the script leaves of a bucket. -/
structure Bounded (limit : Nat) (bucket : ZSet String) : Prop where
  few : zcard bucket ≤ limit
  sorted : Sorted bucket.entries

theorem missing_bounded (limit : Nat) : Bounded limit missing where
  few := Nat.zero_le limit
  sorted := List.Pairwise.nil

theorem insert_entry_sorted (entry : String × Nat) (entries : List (String × Nat))
    (sorted : Sorted entries) : Sorted (insertEntry entry entries) := by
  induction entries with
  | nil => exact List.pairwise_singleton _ _
  | cons head rest ih =>
      obtain ⟨least, later⟩ := List.pairwise_cons.mp sorted
      unfold insertEntry
      split
      · next before =>
        refine List.pairwise_cons.mpr ⟨fun other member => ?_, sorted⟩
        have bound : entry.2 ≤ head.2 := by omega
        rcases List.mem_cons.mp member with rfl | rest
        · exact bound
        · exact Nat.le_trans bound (least other rest)
      · next after =>
        refine List.pairwise_cons.mpr ⟨fun other member => ?_, ih later⟩
        rcases List.mem_cons.mp ((insert_entry_perm entry rest).mem_iff.mp member) with rfl | rest
        · omega
        · exact least other rest

theorem evicted_bounded (now window : Nat) (bounded : Bounded limit bucket) :
    Bounded limit (evicted now window bucket) := by
  have live : Bounded limit (alive now bucket) := by
    unfold alive
    split
    · exact bounded
    · split
      · exact missing_bounded limit
      · exact bounded
  constructor
  · unfold zcard evicted
    rw [zremrangebyscore_entries]
    exact Nat.le_trans (List.length_filter_le _ _) live.few
  · unfold evicted
    rw [zremrangebyscore_entries]
    exact live.sorted.filter _

/-- An entry is added only where there is room for one. -/
theorem script_bounded (member : String) (bounded : Bounded limit bucket) :
    Bounded limit (slidingWindow now window limit member bucket).2 := by
  have kept := evicted_bounded now window bounded
  unfold slidingWindow
  simp only [← evicted.eq_1 now window bucket]
  split
  · split <;> exact kept
  · next room =>
    constructor
    · have added := (insert_entry_perm (member, now) ((evicted now window bucket).entries.filter
        fun entry => decide (entry.1 ≠ member))).length_eq
      have fewer := List.length_filter_le (fun entry => decide (entry.1 ≠ member))
        (evicted now window bucket).entries
      simp only [zcard, pexpire, zadd, List.length_cons] at room added ⊢
      omega
    · exact insert_entry_sorted _ _ (kept.sorted.filter _)

/-- How long the oldest entry still counts, in milliseconds. -/
def remaining (now window : Nat) (bucket : ZSet String) : Nat :=
  match (evicted now window bucket).entries with
  | [] => 0
  | oldest :: _ => oldest.2 + window - now

theorem script_refusal_iff (member : String) :
    (slidingWindow now window limit member bucket).1.allowed = false ↔
      limit ≤ zcard (evicted now window bucket) := by
  unfold slidingWindow
  simp only [← evicted.eq_1 now window bucket]
  split
  · next full => split <;> simp [full]
  · next room => simpa using Nat.lt_of_not_le room

/-- A refusal takes out what has left the window and adds nothing. -/
theorem script_refused (member : String) (full : limit ≤ zcard (evicted now window bucket)) :
    (slidingWindow now window limit member bucket).1.retryMs = remaining now window bucket ∧
      (slidingWindow now window limit member bucket).2 = evicted now window bucket := by
  unfold slidingWindow remaining
  simp only [← evicted.eq_1 now window bucket, if_pos full]
  cases left : (evicted now window bucket).entries with
  | nil => exact ⟨rfl, rfl⟩
  | cons oldest rest => exact ⟨rfl, rfl⟩

theorem evicted_live (member : String × Nat) (listed : member ∈ (evicted now window bucket).entries) :
    now < member.2 + window := by
  unfold evicted at listed
  rw [zremrangebyscore_entries, List.mem_filter, decide_eq_true_eq] at listed
  exact listed.2

def expired (now : Nat) (bucket : ZSet String) : Bool :=
  bucket.expireAt.any fun deadline => decide (deadline < now)

theorem alive_expired (gone : expired now bucket = true) : alive now bucket = missing := by
  unfold expired at gone
  obtain ⟨deadline, found, past⟩ := (Option.any_eq_true _ _).mp gone
  unfold alive
  rw [found]
  exact if_pos (of_decide_eq_true past)

theorem alive_unexpired (live : expired now bucket = false) : alive now bucket = bucket := by
  unfold expired at live
  unfold alive
  cases found : bucket.expireAt with
  | none => rfl
  | some deadline =>
      rw [found, Option.any_some, decide_eq_false_iff_not] at live
      exact if_neg live

/-- A bucket that refused goes on refusing until its oldest entry has left the
window or the key has expired. -/
theorem still_full_iff (positive : 0 < limit) (bounded : Bounded limit bucket)
    (full : limit ≤ zcard (evicted now window bucket)) (later : Nat) :
    limit ≤ zcard (evicted later window (evicted now window bucket)) ↔
      expired later (evicted now window bucket) = false ∧
        later < now + remaining now window bucket := by
  have kept := evicted_bounded now window bounded
  cases gone : expired later (evicted now window bucket) with
  | true =>
      have empty : zcard (evicted later window (evicted now window bucket)) = 0 := by
        unfold zcard
        rw [evicted.eq_1 later, zremrangebyscore_entries, alive_expired gone]
        rfl
      rw [empty]
      exact iff_of_false (by omega) fun both => Bool.noConfusion both.1
  | false =>
      have entries : (evicted later window (evicted now window bucket)).entries =
          (evicted now window bucket).entries.filter
            fun entry => decide (later < entry.2 + window) := by
        rw [evicted.eq_1 later, zremrangebyscore_entries, alive_unexpired gone]
      cases left : (evicted now window bucket).entries with
      | nil =>
          simp only [zcard, left, List.length_nil] at full
          omega
      | cons oldest rest =>
          have sorted := kept.sorted
          rw [left] at entries sorted
          have least := (List.pairwise_cons.mp sorted).1
          have inside := evicted_live oldest (left ▸ List.mem_cons_self)
          have limited := kept.few
          have until_ : remaining now window bucket = oldest.2 + window - now := by
            simp [remaining, left]
          simp only [zcard, left] at full limited
          rw [zcard, entries, until_]
          constructor
          · intro all
            have same := (List.filter_eq_self (l := oldest :: rest)).mp
              (List.filter_sublist.eq_of_length_le (Nat.le_trans limited all))
            have waits := of_decide_eq_true (same oldest List.mem_cons_self)
            exact ⟨rfl, by omega⟩
          · rintro ⟨_, waits⟩
            rw [List.filter_eq_self.mpr]
            · exact full
            · intro entry member
              rw [decide_eq_true_eq]
              rcases List.mem_cons.mp member with rfl | younger
              · omega
              · have older := least entry younger
                omega

/-- The advertised seconds reach the moment when the oldest entry leaves the
window, or the key expires before they are over. -/
def DelayReaches (now window : Nat) (bucket : ZSet String) : Prop :=
  remaining now window bucket ≤ 1000 ∨ 1000 ∣ remaining now window bucket ∨
    expired (now + 1000 * (remaining now window bucket / 1000)) (evicted now window bucket) = true

theorem delay_reaches_iff (positive : 0 < limit) (bounded : Bounded limit bucket)
    (full : limit ≤ zcard (evicted now window bucket)) :
    zcard (evicted (now + 1000 * max 1 (remaining now window bucket / 1000)) window
      (evicted now window bucket)) < limit ↔ DelayReaches now window bucket := by
  rw [← Nat.not_le, still_full_iff positive bounded full, DelayReaches]
  by_cases short : remaining now window bucket < 1000
  · have seconds : max 1 (remaining now window bucket / 1000) = 1 := by omega
    rw [seconds]
    constructor
    · exact fun _ => Or.inl (by omega)
    · exact fun _ waits => by omega
  · have seconds : max 1 (remaining now window bucket / 1000) =
        remaining now window bucket / 1000 := by omega
    rw [seconds]
    cases gone : expired (now + 1000 * (remaining now window bucket / 1000))
        (evicted now window bucket) with
    | true => simp
    | false =>
        simp only [true_and, Bool.false_eq_true, or_false]
        omega

end Buckets

section Served
variable {name : LimitName} {identity : String}

theorem serve_store (world : World) (call : Call) (key : String) :
    (serve world call).store key =
      if key = bucketKey call.name call.identity then
        (slidingWindow call.now (windowMs call.name) (limits call.name).limit
          (memberName call.now 0) (world.store key)).2
      else world.store key := by
  simp only [serve]
  rw [check_store]
  split
  · next same => rw [same]
  · rfl

/-- In every reachable state a bucket holds no more entries than its limit. -/
theorem served_bounded (name : LimitName) (identity : String) (calls : List Call) :
    Bounded (limits name).limit ((served calls).store (bucketKey name identity)) := by
  induction calls using List.reverseRecOn with
  | nil => exact missing_bounded _
  | append_singleton calls call ih =>
      rw [served_snoc, serve_store]
      split
      · next same =>
        obtain ⟨rfl, rfl⟩ := bucket_key_injective name call.name identity call.identity same
        exact script_bounded _ ih
      · exact ih

/-- Calls of other buckets leave a bucket alone. -/
theorem served_elsewhere (calls others : List Call)
    (apart : ∀ call ∈ others, call.to name identity = false) :
    (served (calls ++ others)).store (bucketKey name identity) =
      (served calls).store (bucketKey name identity) := by
  induction others using List.reverseRecOn with
  | nil => rw [List.append_nil]
  | append_singleton others call ih =>
      rw [← List.append_assoc, served_snoc, serve_store, if_neg]
      · exact ih fun other member => apart other (List.mem_append_left _ member)
      · intro same
        obtain ⟨names, identities⟩ :=
          bucket_key_injective name call.name identity call.identity same
        have own := (call_to_iff call name identity).mpr ⟨names.symm, identities.symm⟩
        rw [apart call (List.mem_append_right _ (List.mem_singleton_self _))] at own
        cases own

theorem limits_positive (name : LimitName) : 0 < (limits name).limit := by
  cases name <;> decide

/-- A refusal tells how long to wait, in seconds, and the same call after that
time is allowed, whatever happens to other buckets. -/
def RetryHonoured (name : LimitName) (identity : String) (before : List Call) (now : Nat) : Prop :=
  let decision := (check (served before).store name identity now 1).1
  decision.allowed = false → 0 < decision.retryAfterSeconds ∧
    ∀ others : List Call, (∀ call ∈ others, call.to name identity = false) →
      (check (served (before ++ ⟨name, identity, now⟩ :: others)).store name identity
        (now + 1000 * decision.retryAfterSeconds) 1).1.allowed = true

/-- The budget is not used up, or the delay of the refusal reaches its end. -/
def RetryExact (name : LimitName) (identity : String) (before : List Call) (now : Nat) : Prop :=
  let bucket := (served before).store (bucketKey name identity)
  (limits name).limit ≤ zcard (evicted now (windowMs name) bucket) →
    DelayReaches now (windowMs name) bucket

theorem check_refused {store : Store} {now : Nat}
    (full : (limits name).limit ≤
      zcard (evicted now (windowMs name) (store (bucketKey name identity)))) :
    (check store name identity now 1).1.retryAfterSeconds =
      max 1 (remaining now (windowMs name) (store (bucketKey name identity)) / 1000) ∧
    (check store name identity now 1).2 (bucketKey name identity) =
      evicted now (windowMs name) (store (bucketKey name identity)) := by
  have refused := (script_refusal_iff (memberName now 0)).mpr full
  obtain ⟨retry, left⟩ := script_refused (memberName now 0) full
  constructor
  · simp only [check, Nat.sub_self, checkFrom, evalScript, ← windowMs.eq_1 name, refused,
      Bool.false_eq_true, if_false, retry]
  · rw [check_store, if_pos rfl, left]

theorem check_refusal_iff {store : Store} {now : Nat} :
    (check store name identity now 1).1.allowed = false ↔ (limits name).limit ≤
      zcard (evicted now (windowMs name) (store (bucketKey name identity))) := by
  rw [check_allowed, script_refusal_iff]

theorem check_allowed_iff {store : Store} {now : Nat} :
    (check store name identity now 1).1.allowed = true ↔
      zcard (evicted now (windowMs name) (store (bucketKey name identity))) <
        (limits name).limit := by
  rw [← Bool.not_eq_false, check_refusal_iff, Nat.not_le]

/-- What a bucket is after a refused call and any calls of other buckets. -/
theorem refused_bucket {before : List Call} {now : Nat} (others : List Call)
    (full : (limits name).limit ≤
      zcard (evicted now (windowMs name) ((served before).store (bucketKey name identity))))
    (apart : ∀ call ∈ others, call.to name identity = false) :
    (served (before ++ ⟨name, identity, now⟩ :: others)).store (bucketKey name identity) =
      evicted now (windowMs name) ((served before).store (bucketKey name identity)) := by
  rw [← List.singleton_append, ← List.append_assoc, served_elsewhere _ _ apart, served_snoc]
  exact (check_refused full).2

/-- An obedient client is let in exactly when rounding down lost nothing. -/
theorem retry_honoured_iff (name : LimitName) (identity : String) (before : List Call)
    (now : Nat) : RetryHonoured name identity before now ↔ RetryExact name identity before now := by
  unfold RetryHonoured RetryExact
  simp only [check_refusal_iff]
  apply imp_congr_right
  intro full
  rw [(check_refused full).1]
  have reaches := delay_reaches_iff (limits_positive name) (served_bounded name identity before) full
  constructor
  · rintro ⟨_, admitted⟩
    have again := check_allowed_iff.mp (admitted [] (by simp))
    rw [refused_bucket [] full (by simp)] at again
    exact reaches.mp again
  · intro exact_
    refine ⟨by omega, fun others apart => ?_⟩
    rw [check_allowed_iff, refused_bucket others full apart]
    exact reaches.mpr exact_

/-- Three codes for one number within two milliseconds, a fourth after half a
second: its retry after 899 seconds comes half a second too early. -/
theorem early_retry_refused : ¬ ∀ name identity before now,
    RetryHonoured name identity before now := by
  intro claimed
  have honoured := claimed .otpRequestPhone "a"
    [⟨.otpRequestPhone, "a", 0⟩, ⟨.otpRequestPhone, "a", 1⟩, ⟨.otpRequestPhone, "a", 2⟩] 500
  obtain ⟨_, admitted⟩ := honoured (by decide)
  exact absurd (admitted [] (by simp)) (by decide)

end Served

end RunnerupChat.RateLimit
