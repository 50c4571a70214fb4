import Mathlib.Data.List.Basic
import RunnerupChat.SlidingWindow
import RunnerupChat.SortedSet

/-!
`core/ratelimit.py`. Each script run is atomic, so a sequence of calls from
any replicas is one list of calls served in turn against the shared store.
The script names a sorted-set member after the millisecond of the call, so
calls of one bucket in one millisecond share a member.
-/

namespace RunnerupChat.RateLimit

open SlidingWindow SortedSet

structure Limit where
  limit : Nat
  windowSeconds : Nat

structure Decision where
  allowed : Bool
  used : Nat
  retryAfterSeconds : Nat
  deriving DecidableEq

inductive LimitName where
  | otpRequestPhone | otpRequestIp | otpVerifyPhone | otpVerifyIp | authRefreshIp
  | messageSendUser | messageSendConv | messageEditUser | searchUser | uploadInitUser
  | conversationCreateUser | inviteCreateUser | reportCreateUser | wsEventConnection
  | wsConnectUser
  deriving DecidableEq

def LimitName.text : LimitName → String
  | .otpRequestPhone => "otp:request:phone"
  | .otpRequestIp => "otp:request:ip"
  | .otpVerifyPhone => "otp:verify:phone"
  | .otpVerifyIp => "otp:verify:ip"
  | .authRefreshIp => "auth:refresh:ip"
  | .messageSendUser => "message:send:user"
  | .messageSendConv => "message:send:conv"
  | .messageEditUser => "message:edit:user"
  | .searchUser => "search:user"
  | .uploadInitUser => "upload:init:user"
  | .conversationCreateUser => "conversation:create:user"
  | .inviteCreateUser => "invite:create:user"
  | .reportCreateUser => "report:create:user"
  | .wsEventConnection => "ws:event:connection"
  | .wsConnectUser => "ws:connect:user"

def limits : LimitName → Limit
  | .otpRequestPhone => ⟨3, 900⟩
  | .otpRequestIp => ⟨10, 900⟩
  | .otpVerifyPhone => ⟨10, 900⟩
  | .otpVerifyIp => ⟨30, 900⟩
  | .authRefreshIp => ⟨120, 3600⟩
  | .messageSendUser => ⟨30, 10⟩
  | .messageSendConv => ⟨120, 10⟩
  | .messageEditUser => ⟨20, 60⟩
  | .searchUser => ⟨20, 60⟩
  | .uploadInitUser => ⟨20, 300⟩
  | .conversationCreateUser => ⟨10, 3600⟩
  | .inviteCreateUser => ⟨20, 3600⟩
  | .reportCreateUser => ⟨10, 3600⟩
  | .wsEventConnection => ⟨60, 10⟩
  | .wsConnectUser => ⟨20, 60⟩

/-- The Redis keys the limiter uses. -/
abbrev Store := String → ZSet String

def emptyStore : Store := fun _ => missing

def bucketKey (name : LimitName) (identity : String) : String :=
  "rl:" ++ name.text ++ ":" ++ identity

def memberName (now index : Nat) : String := toString now ++ "-" ++ toString index

/-- What `_SLIDING_WINDOW` returns: allowed, used, retry in milliseconds. -/
structure Reply where
  allowed : Bool
  used : Nat
  retryMs : Nat

def slidingWindow (now window limit : Nat) (member : String) (bucket : ZSet String) :
    Reply × ZSet String :=
  let bucket := zremrangebyscore now window (alive now bucket)
  let used := zcard bucket
  if limit ≤ used then
    match bucket.entries with
    | [] => (⟨false, used, 0⟩, bucket) -- a zero limit, which no budget has
    | oldest :: _ => (⟨false, used, oldest.2 + window - now⟩, bucket)
  else
    (⟨true, used + 1, 0⟩, pexpire now window (zadd now member bucket))

def evalScript (store : Store) (name : LimitName) (identity : String) (now index : Nat) :
    Reply × Store :=
  let spec := limits name
  let key := bucketKey name identity
  let (reply, bucket) :=
    slidingWindow now (spec.windowSeconds * 1000) spec.limit (memberName now index) (store key)
  (reply, fun other => if other = key then bucket else store other)

/-- The loop of `check` from script run `index` on, with `more` runs to come
after it; the first refusal ends it. -/
def checkFrom (store : Store) (name : LimitName) (identity : String) (now index : Nat) :
    Nat → Decision × Store
  | 0 =>
      let (reply, next) := evalScript store name identity now index
      if reply.allowed then (⟨true, reply.used, 0⟩, next)
      else (⟨false, reply.used, max 1 (reply.retryMs / 1000)⟩, next)
  | more + 1 =>
      let (reply, next) := evalScript store name identity now index
      if reply.allowed then checkFrom next name identity now (index + 1) more
      else (⟨false, reply.used, max 1 (reply.retryMs / 1000)⟩, next)

/-- `check` at the millisecond `now`. Every caller leaves `cost` at its
default, one. -/
def check (store : Store) (name : LimitName) (identity : String) (now cost : Nat) :
    Decision × Store :=
  checkFrom store name identity now 0 (cost - 1)

structure RateLimited where
  retryAfter : Nat
  deriving DecidableEq

def enforce (store : Store) (name : LimitName) (identity : String) (now : Nat) :
    Except RateLimited Unit × Store :=
  let (decision, next) := check store name identity now 1
  if decision.allowed then (.ok (), next) else (.error ⟨decision.retryAfterSeconds⟩, next)

/-! Buckets of different names or identities never share a key. -/

theorem limit_text_leads (left right : LimitName)
    (leads : (left.text.toList ++ [':']).isPrefixOf (right.text.toList ++ [':']) = true) :
    left = right := by
  revert leads
  cases left <;> cases right <;> decide

theorem bucket_key_injective (left right : LimitName) (one other : String)
    (same : bucketKey left one = bucketKey right other) : left = right ∧ one = other := by
  have chars : (left.text.toList ++ [':']) ++ one.toList =
      (right.text.toList ++ [':']) ++ other.toList := by
    have split := congrArg String.toList same
    simpa [bucketKey] using split
  have names : left = right := by
    rcases List.prefix_or_prefix_of_prefix (List.prefix_append _ one.toList)
      (chars ▸ List.prefix_append _ other.toList) with leads | leads
    · exact limit_text_leads left right (List.isPrefixOf_iff_prefix.mpr leads)
    · exact (limit_text_leads right left (List.isPrefixOf_iff_prefix.mpr leads)).symm
  subst names
  exact ⟨rfl, String.toList_inj.mp (List.append_cancel_left chars)⟩

theorem member_name_injective (left right : Nat)
    (same : memberName left 0 = memberName right 0) : left = right := by
  have chars : (toString left).toList = (toString right).toList := by
    have split := congrArg String.toList same
    simpa [memberName] using split
  have digits : Nat.toDigits 10 left = Nat.toDigits 10 right := by
    simpa [Nat.toString_eq_ofList_toDigits] using chars
  rw [← Nat.ofDigitChars_ten_toDigits (n := left), digits, Nat.ofDigitChars_ten_toDigits]

/-! One bucket. It holds one member for each distinct time the budget allowed
a call and has not evicted yet, and it expires no earlier than those times
leave the window. -/

structure Represents (window last : Nat) (allowed : List Nat) (bucket : ZSet String) : Prop where
  named : ∀ entry ∈ bucket.entries, entry.1 = memberName entry.2 0 ∧ entry.2 ∈ allowed
  kept : ∀ time ∈ allowed, last < time + window → (memberName time 0, time) ∈ bucket.entries
  distinct : (bucket.entries.map Prod.snd).Nodup
  expiry : ∀ deadline, bucket.expireAt = some deadline → ∀ time ∈ allowed, time + window ≤ deadline
  past : ∀ time ∈ allowed, time ≤ last

theorem missing_represents (window last : Nat) : Represents window last [] missing where
  named := by simp [missing]
  kept := by simp
  distinct := by simp [missing]
  expiry := by simp
  past := by simp

def evicted (now window : Nat) (bucket : ZSet String) : ZSet String :=
  zremrangebyscore now window (alive now bucket)

theorem evicted_entries (window last now : Nat) (allowed : List Nat) (bucket : ZSet String)
    (rep : Represents window last allowed bucket) (later : last ≤ now) (entry : String × Nat) :
    entry ∈ (evicted now window bucket).entries ↔
      entry.1 = memberName entry.2 0 ∧ entry.2 ∈ recent window now allowed := by
  have present : entry ∈ bucket.entries ∧ now < entry.2 + window ↔
      entry.1 = memberName entry.2 0 ∧ entry.2 ∈ recent window now allowed := by
    rw [mem_recent_iff]
    constructor
    · rintro ⟨member, inside⟩
      have known := rep.named entry member
      have past := rep.past entry.2 known.2
      exact ⟨known.1, known.2, inside, by omega⟩
    · rintro ⟨named, member, inside, _⟩
      have kept := rep.kept entry.2 member (by omega)
      rw [← named] at kept
      exact ⟨kept, inside⟩
  rw [evicted, zremrangebyscore_entries, List.mem_filter, decide_eq_true_eq]
  unfold alive
  split
  · exact present
  · rename_i deadline expires
    split
    · rename_i gone
      -- an expired key has outlived every time the budget allowed
      simp only [missing, List.not_mem_nil, false_and, false_iff, not_and]
      intro _ member
      have window := (mem_recent_iff _ _ _ _).mp member
      have bound := rep.expiry deadline expires entry.2 window.1
      omega
    · exact present

theorem evicted_distinct (window last now : Nat) (allowed : List Nat) (bucket : ZSet String)
    (rep : Represents window last allowed bucket) :
    ((evicted now window bucket).entries.map Prod.snd).Nodup := by
  rw [evicted, zremrangebyscore_entries]
  unfold alive
  split
  · exact rep.distinct.sublist (List.filter_sublist.map _)
  · split
    · simp [missing]
    · exact rep.distinct.sublist (List.filter_sublist.map _)

theorem evicted_card (window last now : Nat) (allowed : List Nat) (bucket : ZSet String)
    (rep : Represents window last allowed bucket) (later : last ≤ now) :
    zcard (evicted now window bucket) = mergedWeight (recent window now allowed) := by
  have same : ((evicted now window bucket).entries.map Prod.snd).Perm
      (recent window now allowed).dedup := by
    apply (List.perm_ext_iff_of_nodup (evicted_distinct window last now allowed bucket rep)
      (List.nodup_dedup _)).mpr
    intro time
    rw [List.mem_map, List.mem_dedup]
    constructor
    · rintro ⟨entry, member, rfl⟩
      exact ((evicted_entries window last now allowed bucket rep later entry).mp member).2
    · intro member
      exact ⟨(memberName time 0, time),
        (evicted_entries window last now allowed bucket rep later _).mpr ⟨rfl, member⟩, rfl⟩
  simpa [zcard, mergedWeight] using same.length_eq

theorem evicted_represents (window last now : Nat) (allowed : List Nat) (bucket : ZSet String)
    (rep : Represents window last allowed bucket) (later : last ≤ now) :
    Represents window now allowed (evicted now window bucket) where
  named := by
    intro entry member
    have known := (evicted_entries window last now allowed bucket rep later entry).mp member
    exact ⟨known.1, ((mem_recent_iff _ _ _ _).mp known.2).1⟩
  kept := by
    intro time member inside
    have past := rep.past time member
    exact (evicted_entries window last now allowed bucket rep later _).mpr
      ⟨rfl, (mem_recent_iff _ _ _ _).mpr ⟨member, inside, by omega⟩⟩
  distinct := evicted_distinct window last now allowed bucket rep
  expiry := by
    intro deadline expires
    have live := zremrangebyscore_expiry now window deadline _ expires
    unfold alive at live
    split at live
    · simp_all
    · split at live
      · simp [missing] at live
      · exact rep.expiry deadline live
  past := fun time member => Nat.le_trans (rep.past time member) later

theorem zadd_represents (window now : Nat) (allowed : List Nat) (bucket : ZSet String)
    (rep : Represents window now allowed bucket) :
    Represents window now (allowed ++ [now])
      (pexpire now window (zadd now (memberName now 0) bucket)) where
  named := by
    intro entry member
    rcases (mem_zadd_iff now (memberName now 0) bucket entry).mp member with rfl | ⟨old, _⟩
    · simp
    · have known := rep.named entry old
      exact ⟨known.1, List.mem_append_left _ known.2⟩
  kept := by
    intro time member inside
    apply (mem_zadd_iff now (memberName now 0) bucket _).mpr
    by_cases same : time = now
    · exact Or.inl (by rw [same])
    · rcases List.mem_append.mp member with old | fresh
      · exact Or.inr ⟨rep.kept time old inside,
          fun clash => same (member_name_injective time now clash)⟩
      · exact absurd (List.mem_singleton.mp fresh) same
  distinct := by
    have order := (insert_entry_perm (memberName now 0, now)
      (bucket.entries.filter fun entry => decide (entry.1 ≠ memberName now 0))).map Prod.snd
    refine (order.nodup_iff).mpr (List.nodup_cons.mpr ⟨?_, ?_⟩)
    · intro clash
      obtain ⟨entry, member, same⟩ := List.mem_map.mp clash
      rw [List.mem_filter, decide_eq_true_eq] at member
      exact member.2 ((rep.named entry member.1).1.trans (by rw [same]))
    · exact rep.distinct.sublist (List.filter_sublist.map _)
  expiry := by
    intro deadline expires time member
    simp only [pexpire, Option.some.injEq] at expires
    rcases List.mem_append.mp member with old | fresh
    · have past := rep.past time old
      omega
    · have same := List.mem_singleton.mp fresh
      omega
  past := by
    intro time member
    rcases List.mem_append.mp member with old | fresh
    · exact rep.past time old
    · exact Nat.le_of_eq (List.mem_singleton.mp fresh)

/-- One script run decides as the limiter that merges calls of one
millisecond, and leaves a bucket that represents its new allowed times. -/
theorem script_refines (window limit last now : Nat) (allowed : List Nat) (bucket : ZSet String)
    (rep : Represents window last allowed bucket) (later : last ≤ now) :
    (slidingWindow now window limit (memberName now 0) bucket).1.allowed =
      admits mergedWeight limit window allowed now ∧
    Represents window now (allow mergedWeight limit window allowed now)
      (slidingWindow now window limit (memberName now 0) bucket).2 := by
  have card := evicted_card window last now allowed bucket rep later
  have kept := evicted_represents window last now allowed bucket rep later
  have full : admits mergedWeight limit window allowed now =
      decide (zcard (evicted now window bucket) < limit) := by rw [admits, card]
  unfold slidingWindow
  simp only [allow, full, decide_eq_true_eq, ← evicted.eq_1 now window bucket]
  by_cases refused : limit ≤ zcard (evicted now window bucket)
  · have notBelow : ¬ zcard (evicted now window bucket) < limit := by omega
    rw [if_pos refused, if_neg notBelow]
    cases (evicted now window bucket).entries with
    | nil => exact ⟨(decide_eq_false notBelow).symm, kept⟩
    | cons oldest rest => exact ⟨(decide_eq_false notBelow).symm, kept⟩
  · have below : zcard (evicted now window bucket) < limit := by omega
    rw [if_neg refused, if_pos below]
    exact ⟨(decide_eq_true below).symm, zadd_represents window now allowed _ kept⟩

/-! Call sequences over the whole store. The log keeps every call with its
decision, oldest first. -/

structure Call where
  name : LimitName
  identity : String
  now : Nat
  deriving DecidableEq

def Call.to (call : Call) (name : LimitName) (identity : String) : Bool :=
  call.name == name && call.identity == identity

structure World where
  store : Store
  log : List (Call × Decision)

def serve (world : World) (call : Call) : World :=
  let (decision, next) := check world.store call.name call.identity call.now 1
  ⟨next, world.log ++ [(call, decision)]⟩

def served (calls : List Call) : World := calls.foldl serve ⟨emptyStore, []⟩

def windowMs (name : LimitName) : Nat := (limits name).windowSeconds * 1000

/-- The times at which calls with this name and identity were allowed. -/
def allowedTimes (name : LimitName) (identity : String) (log : List (Call × Decision)) :
    List Nat :=
  (log.filter fun entry => entry.1.to name identity && entry.2.allowed).map (·.1.now)

def callTimes (name : LimitName) (identity : String) (calls : List Call) : List Nat :=
  (calls.filter (Call.to · name identity)).map Call.now

theorem served_snoc (calls : List Call) (call : Call) :
    served (calls ++ [call]) = serve (served calls) call := by
  simp [served]

/-- With the default cost `check` is one script run. -/
theorem check_one (store : Store) (name : LimitName) (identity : String) (now : Nat) :
    (check store name identity now 1).1.allowed = (evalScript store name identity now 0).1.allowed ∧
    (check store name identity now 1).2 = (evalScript store name identity now 0).2 := by
  by_cases reply : (evalScript store name identity now 0).1.allowed = true
  · simp [check, checkFrom, reply]
  · simp [check, checkFrom, reply]

theorem check_allowed (store : Store) (name : LimitName) (identity : String) (now : Nat) :
    (check store name identity now 1).1.allowed =
      (slidingWindow now (windowMs name) (limits name).limit (memberName now 0)
        (store (bucketKey name identity))).1.allowed :=
  (check_one store name identity now).1

theorem check_store (store : Store) (name : LimitName) (identity : String) (now : Nat)
    (key : String) :
    (check store name identity now 1).2 key =
      if key = bucketKey name identity then
        (slidingWindow now (windowMs name) (limits name).limit (memberName now 0)
          (store (bucketKey name identity))).2
      else store key :=
  congrFun (check_one store name identity now).2 key

theorem call_to_iff (call : Call) (name : LimitName) (identity : String) :
    call.to name identity = true ↔ call.name = name ∧ call.identity = identity := by
  simp [Call.to]

theorem allowed_times_serve (name : LimitName) (identity : String) (world : World) (call : Call) :
    allowedTimes name identity (serve world call).log =
      allowedTimes name identity world.log ++
        if call.to name identity && (check world.store call.name call.identity call.now 1).1.allowed
        then [call.now] else [] := by
  simp only [serve, allowedTimes, List.filter_append, List.map_append, List.filter_cons,
    List.filter_nil]
  split <;> rfl

theorem call_times_snoc (name : LimitName) (identity : String) (calls : List Call) (call : Call) :
    callTimes name identity (calls ++ [call]) =
      callTimes name identity calls ++ if call.to name identity then [call.now] else [] := by
  simp only [callTimes, List.filter_append, List.map_append, List.filter_cons, List.filter_nil]
  split <;> rfl

/-- Served in any order with calls of other buckets, the calls of one bucket
are decided as the limiter that merges calls of one millisecond decides them. -/
theorem served_refines (name : LimitName) (identity : String) (calls : List Call)
    (ordered : (calls.map Call.now).Pairwise (· ≤ ·)) :
    allowedTimes name identity (served calls).log =
      allowedBy mergedWeight (limits name).limit (windowMs name) (callTimes name identity calls) ∧
    ∃ last, (∀ now, (∀ call ∈ calls, call.now ≤ now) → last ≤ now) ∧
      Represents (windowMs name) last (allowedTimes name identity (served calls).log)
        ((served calls).store (bucketKey name identity)) := by
  induction calls using List.reverseRecOn with
  | nil => exact ⟨rfl, 0, fun now _ => Nat.zero_le now, missing_represents (windowMs name) 0⟩
  | append_singleton calls call ih =>
      rw [List.map_append, List.pairwise_append] at ordered
      obtain ⟨same, last, bound, rep⟩ := ih ordered.1
      have later : last ≤ call.now := bound call.now fun earlier member =>
        ordered.2.2 earlier.now (List.mem_map_of_mem member) call.now (by simp)
      rw [served_snoc, allowed_times_serve, call_times_snoc]
      by_cases own : call.to name identity = true
      · obtain ⟨rfl, rfl⟩ := (call_to_iff call name identity).mp own
        have refined := script_refines (windowMs call.name) (limits call.name).limit last call.now
          _ _ rep later
        have bucket : (serve (served calls) call).store (bucketKey call.name call.identity) =
            (slidingWindow call.now (windowMs call.name) (limits call.name).limit
              (memberName call.now 0)
              ((served calls).store (bucketKey call.name call.identity))).2 := by
          simp only [serve]
          rw [check_store, if_pos rfl]
        have grown : (allowedTimes call.name call.identity (served calls).log ++
            if call.to call.name call.identity && (check (served calls).store call.name
              call.identity call.now 1).1.allowed then [call.now] else []) =
            allow mergedWeight (limits call.name).limit (windowMs call.name)
              (allowedTimes call.name call.identity (served calls).log) call.now := by
          rw [own, Bool.true_and, check_allowed, refined.1, allow]
          split <;> simp
        rw [grown, bucket, if_pos own, allowed_by_snoc, same]
        exact ⟨rfl, call.now, fun now all => all call (by simp), same ▸ refined.2⟩
      · rw [Bool.not_eq_true] at own
        have bucket : (serve (served calls) call).store (bucketKey name identity) =
            (served calls).store (bucketKey name identity) := by
          simp only [serve]
          rw [check_store, if_neg]
          intro clash
          obtain ⟨names, identities⟩ :=
            bucket_key_injective name call.name identity call.identity clash
          have match_ := (call_to_iff call name identity).mpr ⟨names.symm, identities.symm⟩
          simp [own] at match_
        rw [own, Bool.false_and, bucket]
        simp only [Bool.false_eq_true, if_false, List.append_nil]
        exact ⟨same, last, fun now all => bound now fun earlier member =>
          all earlier (List.mem_append_left _ member), rep⟩

/-- Every call with this name and identity is allowed exactly when fewer than
`limit` earlier ones were allowed in the window that ends at it, and every
interval of one window length holds at most `limit` allowed ones. -/
def AdmitsByWindow (name : LimitName) (identity : String) (calls : List Call) : Prop :=
  (∀ before call after, calls = before ++ call :: after →
    call.name = name → call.identity = identity →
    ((check (served before).store name identity call.now 1).1.allowed = true ↔
      (recent (windowMs name) call.now
        (allowedTimes name identity (served before).log)).length < (limits name).limit)) ∧
  ∀ first, (inInterval (windowMs name) first
    (allowedTimes name identity (served calls).log)).length ≤ (limits name).limit

theorem call_times_split (name : LimitName) (identity : String) (calls : List Call)
    (before : List Nat) (now : Nat) (after : List Nat)
    (split : callTimes name identity calls = before ++ now :: after) :
    ∃ first call rest, calls = first ++ call :: rest ∧ call.to name identity = true ∧
      call.now = now ∧ callTimes name identity first = before := by
  induction calls generalizing before with
  | nil => simp [callTimes] at split
  | cons head tail ih =>
      by_cases own : head.to name identity = true
      · simp only [callTimes, List.filter_cons, own, if_true, List.map_cons] at split
        cases before with
        | nil =>
            simp only [List.nil_append, List.cons.injEq] at split
            exact ⟨[], head, tail, rfl, own, split.1, rfl⟩
        | cons earliest before =>
            simp only [List.cons_append, List.cons.injEq] at split
            obtain ⟨first, call, rest, same, mine, time, prior⟩ := ih before split.2
            refine ⟨head :: first, call, rest, by rw [same]; rfl, mine, time, ?_⟩
            rw [← prior, ← split.1]
            simp [callTimes, own]
      · have skipped : callTimes name identity tail = before ++ now :: after := by
          rw [← split]
          simp [callTimes, own]
        obtain ⟨first, call, rest, same, mine, time, prior⟩ := ih before skipped
        refine ⟨head :: first, call, rest, by rw [same]; rfl, mine, time, ?_⟩
        rw [← prior]
        simp [callTimes, own]

theorem call_times_ordered (name : LimitName) (identity : String) (calls : List Call)
    (ordered : (calls.map Call.now).Pairwise (· ≤ ·)) :
    (callTimes name identity calls).Pairwise (· ≤ ·) :=
  ordered.sublist (List.filter_sublist.map _)

/-- The decision on the next call, in terms of the merging limiter. -/
theorem next_decision (name : LimitName) (identity : String) (before after : List Call)
    (call : Call) (ordered : ((before ++ call :: after).map Call.now).Pairwise (· ≤ ·)) :
    (check (served before).store name identity call.now 1).1.allowed =
      admits mergedWeight (limits name).limit (windowMs name)
        (allowedBy mergedWeight (limits name).limit (windowMs name)
          (callTimes name identity before)) call.now := by
  rw [List.map_append, List.pairwise_append] at ordered
  obtain ⟨same, last, bound, rep⟩ := served_refines name identity before ordered.1
  have later : last ≤ call.now := bound call.now fun earlier member =>
    ordered.2.2 earlier.now (List.mem_map_of_mem member) call.now (by simp)
  rw [check_allowed, (script_refines _ _ last call.now _ _ rep later).1, same]

theorem decisions_count_iff (name : LimitName) (identity : String) (calls : List Call)
    (ordered : (calls.map Call.now).Pairwise (· ≤ ·)) :
    (∀ before call after, calls = before ++ call :: after →
      call.name = name → call.identity = identity →
      ((check (served before).store name identity call.now 1).1.allowed = true ↔
        (recent (windowMs name) call.now
          (allowedTimes name identity (served before).log)).length < (limits name).limit)) ↔
    CountsCalls mergedWeight (limits name).limit (windowMs name)
      (callTimes name identity calls) := by
  constructor
  · intro decided before now after split
    obtain ⟨first, call, rest, rfl, own, rfl, rfl⟩ :=
      call_times_split name identity calls before now after split
    obtain ⟨names, identities⟩ := (call_to_iff call name identity).mp own
    have prior := (List.pairwise_append.mp (List.map_append ▸ ordered)).1
    have exact := decided first call rest rfl names identities
    rw [next_decision name identity first rest call ordered,
      (served_refines name identity first prior).1] at exact
    rw [Bool.eq_iff_iff, exact, admits, decide_eq_true_eq]
  · rintro counts before call after rfl rfl rfl
    have prior := (List.pairwise_append.mp (List.map_append ▸ ordered)).1
    have times : callTimes call.name call.identity (before ++ call :: after) =
        callTimes call.name call.identity before ++
          call.now :: callTimes call.name call.identity after := by
      simp [callTimes, Call.to]
    rw [next_decision call.name call.identity before after call ordered,
      counts _ _ _ times, (served_refines call.name call.identity before prior).1, admits,
      decide_eq_true_eq]

/-- Decisions that count every call also respect the interval bound. -/
theorem admits_iff_counts (name : LimitName) (identity : String) (calls : List Call)
    (ordered : (calls.map Call.now).Pairwise (· ≤ ·)) :
    AdmitsByWindow name identity calls ↔
      CountsCalls mergedWeight (limits name).limit (windowMs name)
        (callTimes name identity calls) := by
  rw [AdmitsByWindow, decisions_count_iff _ _ _ ordered]
  refine ⟨And.left, fun counts => ⟨counts, fun first => ?_⟩⟩
  rw [(served_refines name identity calls ordered).1, counts_calls_allowed _ _ _ _ counts]
  exact interval_within_limit _ _ _ (call_times_ordered name identity calls ordered) first

/-- The limiter is a sliding window for a bucket exactly when no call of the
bucket is due a refusal while two calls of its window share a millisecond. -/
theorem admits_by_window_iff (name : LimitName) (identity : String) (calls : List Call)
    (ordered : (calls.map Call.now).Pairwise (· ≤ ·)) :
    AdmitsByWindow name identity calls ↔
      Separated (limits name).limit (windowMs name) (callTimes name identity calls) :=
  (admits_iff_counts name identity calls ordered).trans
    (merged_counts_iff _ _ _ (call_times_ordered name identity calls ordered))

theorem admits_by_window_spaced :
    AdmitsByWindow .otpRequestPhone "a"
        [⟨.otpRequestPhone, "a", 7⟩, ⟨.otpRequestPhone, "a", 8⟩] ↔
      Separated 3 900000 [7, 8] :=
  admits_by_window_iff .otpRequestPhone "a"
    [⟨.otpRequestPhone, "a", 7⟩, ⟨.otpRequestPhone, "a", 8⟩] (by decide)

/-- In particular calls at pairwise different milliseconds are limited exactly. -/
theorem distinct_times_admitted (name : LimitName) (identity : String) (calls : List Call)
    (ordered : (calls.map Call.now).Pairwise (· ≤ ·))
    (distinct : (callTimes name identity calls).Nodup) : AdmitsByWindow name identity calls :=
  (admits_iff_counts name identity calls ordered).mpr
    ((merged_counts_iff _ _ _ (call_times_ordered name identity calls ordered)).mpr
      (nodup_separated _ _ _ distinct))

/-- Four code requests for one number in one millisecond. -/
def burst : List Call := List.replicate 4 ⟨.otpRequestPhone, "a", 1700000000000⟩

/-- The fourth is allowed although the budget is three. -/
theorem burst_exceeds_limit :
    ¬ ∀ name identity calls, (calls.map Call.now).Pairwise (· ≤ ·) →
      AdmitsByWindow name identity calls := by
  intro claimed
  have fourth := (claimed .otpRequestPhone "a" burst (by decide)).1
    (List.replicate 3 ⟨.otpRequestPhone, "a", 1700000000000⟩)
    ⟨.otpRequestPhone, "a", 1700000000000⟩ [] rfl rfl rfl
  have refused : ¬ (recent (windowMs .otpRequestPhone) 1700000000000
      (allowedTimes .otpRequestPhone "a"
        (served (List.replicate 3 ⟨.otpRequestPhone, "a", 1700000000000⟩)).log)).length <
      (limits .otpRequestPhone).limit := by decide
  exact refused (fourth.mp (by decide))

end RunnerupChat.RateLimit
