import RunnerupChat.OtpOutcomes

/-!
The worker's purge, seen by clients. With clocks that agree within an hour and
challenge ids that never repeat, purging changes no reply, but for the
verification of a purged challenge that the database would have rejected.
-/

namespace RunnerupChat.OtpPurge

open Accounts OtpStore OtpLogin OtpAudit OtpConsumption OtpRequests OtpOutcomes UnitOfWork

variable {Digest : Type}

/-- The cutoff of a purge. -/
def sweeps : Call → Option Time
  | .purge now => some now
  | .request _ _ _ | .verify _ _ _ => none

/-- The clock that decides what a call does with a challenge. -/
def clock : Call → Option Time
  | .request _ draws _ => some draws.issuedAt
  | .verify _ draws _ => some draws.verifiedAt
  | .purge _ => none

/-- No purge has taken the row. -/
def kept (purges : List Time) (row : OtpChallenge Digest) : Bool :=
  purges.all fun now => decide (now ≤ row.expiresAt + hour)

/-- The reply to a call beside the one that the purges lead to, with the challenges
that are there without them. -/
inductive Close [DecidableEq Digest] (environment : Environment Digest) (purges : List Time)
    (database : Database Digest) : Call → Reply → Reply → Prop where
  | same (call : Call) (reply : Reply) : Close environment purges database call reply reply
  /-- A purge took the challenge. It has no room for another attempt, or it is
  consumed and the security event of the replay has no place for the address. -/
  | gone {request : RequestInfo} {draws : Draws} {payload : OtpVerifyIn} {phone : String}
      {row : OtpChallenge Digest}
      (normal : environment.normalizePhone payload.phone payload.region = some phone)
      (found : findChallenge environment.crypto database payload.challengeId phone = some row)
      (taken : kept purges row = false)
      (rejected : smallintMax ≤ row.attempts ∨
        row.consumedAt.isSome = true ∧ inetAccepted environment request.clientIp = false) :
      Close environment purges database (.verify request draws payload)
        (.verified (.error .database))
        (.verified (.error (.app (.notAuthenticated "verification_failed"))))

/-- What is left of a system after the purges. -/
structure Swept (purges : List Time) (full purged : System Digest) : Prop where
  database : Beside (fun left right => right = left.filter (kept purges)) full.database
    purged.database
  services : purged.services = full.services
  texts : purged.texts = full.texts

def ids (database : Database Digest) : List Uuid := database.challenges.map OtpChallenge.id

section Keeping
variable (purges : List Time)

theorem kept_expiry {row other : OtpChallenge Digest} (same : other.expiresAt = row.expiresAt) :
    kept purges other = kept purges row := by
  unfold kept
  rw [same]

/-- A challenge that outlives the purges by the clock of a call was not taken. -/
theorem kept_later {row : OtpChallenge Digest} {now : Time}
    (agree : ∀ purge ∈ purges, purge ≤ now + hour) (later : now ≤ row.expiresAt) :
    kept purges row = true := by
  apply List.all_eq_true.mpr
  intro purge member
  exact decide_eq_true (Nat.le_trans (agree purge member) (Nat.add_le_add_right later hour))

theorem gone_expired {row : OtpChallenge Digest} {now : Time}
    (agree : ∀ purge ∈ purges, purge ≤ now + hour) (gone : kept purges row = false) :
    row.expiresAt ≤ now := by
  by_contra live
  rw [kept_later purges agree (Nat.le_of_not_le live)] at gone
  cases gone

/-- An expired challenge refuses any code, as a replay if it is consumed. -/
theorem expired_refuses {row : OtpChallenge Digest} {now : Time} (expired : row.expiresAt ≤ now)
    (matching : Bool) :
    row.consumedAt.isSome = true ∧ judge (burn row) now matching = .replay ∨
      judge (burn row) now matching = .expired := by
  have late : (burn row).expiresAt ≤ now := expired
  unfold judge
  split
  · rename_i consumed
    exact Or.inl ⟨consumed, rfl⟩
  · exact Or.inr rfl

/-- Rows with one id are one row. -/
theorem one_row {database : Database Digest} (unique : (ids database).Nodup)
    {row other : OtpChallenge Digest} (first : row ∈ database.challenges)
    (second : other ∈ database.challenges) (same : other.id = row.id) : other = row :=
  List.inj_on_of_nodup_map unique second first same

variable [DecidableEq Digest]

/-- The purged rows are not found, the others are. -/
theorem find_kept {database purged : Database Digest} (unique : (ids database).Nodup)
    (swept : purged.challenges = database.challenges.filter (kept purges)) (crypto : Crypto Digest)
    (challengeId phone : String) :
    findChallenge crypto purged challengeId phone =
      (findChallenge crypto database challengeId phone).filter (kept purges) := by
  unfold findChallenge
  rw [swept]
  cases crypto.parseUuid challengeId with
  | none => rfl
  | some wanted =>
      rw [Option.bind_some, Option.bind_some]
      generalize fits : (fun row : OtpChallenge Digest =>
        row.id == wanted && row.phoneHash == phoneFingerprint crypto phone) = named
      have identified : ∀ row, named row = true → row.id = wanted := by
        intro row
        rw [← fits]
        simp only [Bool.and_eq_true, beq_iff_eq]
        exact And.left
      cases found : database.challenges.find? named with
      | none =>
          rw [Option.filter_none, List.find?_eq_none]
          intro row member
          exact List.find?_eq_none.mp found row (List.mem_filter.mp member).1
      | some row =>
          have present := List.mem_of_find?_eq_some found
          have right := List.find?_some found
          have only : ∀ other ∈ database.challenges, named other = true → other = row :=
            fun other member matching => one_row unique present member
              ((identified other matching).trans (identified row right).symm)
          cases remains : kept purges row with
          | true =>
              rw [Option.filter_some_pos remains]
              have some_row : ((database.challenges.filter (kept purges)).find? named).isSome :=
                List.find?_isSome.mpr ⟨row, List.mem_filter.mpr ⟨present, remains⟩, right⟩
              obtain ⟨other, there⟩ := Option.isSome_iff_exists.mp some_row
              rw [there, only other (List.mem_filter.mp (List.mem_of_find?_eq_some there)).1
                (List.find?_some there)]
          | false =>
              rw [Option.filter_some_neg (by simp [remains]), List.find?_eq_none]
              intro other member matching
              obtain ⟨listed, stays⟩ := List.mem_filter.mp member
              rw [only other listed matching, remains] at stays
              cases stays

end Keeping

section Writing
variable (purges : List Time)

/-- An update that keeps the expiries and the ids commutes with the purges. -/
theorem filter_updated {rows : List (OtpChallenge Digest)}
    {update : OtpChallenge Digest → OtpChallenge Digest}
    (expiry : ∀ row ∈ rows, (update row).expiresAt = row.expiresAt) :
    (rows.map update).filter (kept purges) = (rows.filter (kept purges)).map update := by
  rw [List.filter_map]
  congr 1
  apply List.filter_congr
  intro row member
  exact kept_expiry purges (expiry row member)

/-- The rows with the id of the saved one expire when it does. -/
theorem written_expiry {database : Database Digest} (unique : (ids database).Nodup)
    {row saved : OtpChallenge Digest} (member : row ∈ database.challenges)
    (named : saved.id = row.id) (expiry : saved.expiresAt = row.expiresAt) :
    ∀ other ∈ database.challenges,
      (if other.id = saved.id then saved else other).expiresAt = other.expiresAt := by
  intro other present
  split
  · rename_i same
    rw [one_row unique member present (same.trans named), expiry]
  · rfl

theorem written_kept {database purged : Database Digest} (unique : (ids database).Nodup)
    (beside : Beside (fun left right => right = left.filter (kept purges)) database purged)
    {row saved : OtpChallenge Digest} (member : row ∈ database.challenges)
    (named : saved.id = row.id) (expiry : saved.expiresAt = row.expiresAt) :
    Beside (fun left right => right = left.filter (kept purges)) (written saved database)
      (written saved purged) := by
  have updated := filter_updated purges (written_expiry unique member named expiry)
  rw [beside.rest]
  refine ⟨?_, rfl⟩
  unfold written
  dsimp only
  rw [beside.challenges, updated]

/-- Writing a challenge that is gone changes nothing of what is left. -/
theorem written_gone {database purged : Database Digest} (unique : (ids database).Nodup)
    (beside : Beside (fun left right => right = left.filter (kept purges)) database purged)
    {row saved : OtpChallenge Digest} (member : row ∈ database.challenges)
    (named : saved.id = row.id) (expiry : saved.expiresAt = row.expiresAt)
    (gone : kept purges row = false) :
    Beside (fun left right => right = left.filter (kept purges)) (written saved database)
      purged := by
  have untouched : (written saved purged).challenges = purged.challenges := by
    refine (List.map_congr_left ?_).trans (List.map_id _)
    intro other present
    rw [beside.challenges] at present
    obtain ⟨listed, stays⟩ := List.mem_filter.mp present
    apply if_neg
    intro same
    rw [one_row unique member listed (same.trans named), gone] at stays
    cases stays
  refine ⟨?_, beside.rest⟩
  rw [← untouched]
  exact (written_kept purges unique beside member named expiry).challenges

theorem settles_id (branch : Branch) (now : Time) (row : OtpChallenge Digest) :
    (branch.settles now (burn row)).id = row.id := by
  cases branch <;> rfl

theorem settles_expiry (branch : Branch) (now : Time) (row : OtpChallenge Digest) :
    (branch.settles now (burn row)).expiresAt = row.expiresAt := by
  cases branch <;> rfl

variable [DecidableEq Digest] {environment : Environment Digest} {settings : Settings}
  {sms : SmsSettings} {full purged : System Digest}

/-- A verification that reaches a challenge which is still there. -/
theorem settled_swept (unique : (ids full.database).Nodup) (swept : Swept purges full purged)
    (request : RequestInfo) (draws : Draws) (payload : OtpVerifyIn) (phone : String)
    {row : OtpChallenge Digest} (member : row ∈ full.database.challenges) (services : Services) :
    let left := settled environment request draws payload phone row full.database services
    let right := settled environment request draws payload phone row purged.database services
    left.1 = right.1 ∧ Swept purges ⟨left.2.1, left.2.2, full.texts⟩
      ⟨right.2.1, right.2.2, purged.texts⟩ := by
  have saved := written_kept purges unique swept.database member
    (settles_id (branchOf environment draws.verifiedAt payload.code row) draws.verifiedAt row)
    (settles_expiry _ _ row)
  unfold settled
  dsimp only
  split
  · split
    · obtain ⟨answers, databases, others⟩ := open_beside payload phone saved services
      exact ⟨answers, databases, others.symm, swept.texts⟩
    · exact ⟨rfl, saved, rfl, swept.texts⟩
  · exact ⟨rfl, swept.database, rfl, swept.texts⟩

/-- A verification that reaches a challenge which is gone by now. -/
theorem settled_stale (unique : (ids full.database).Nodup) (swept : Swept purges full purged)
    (request : RequestInfo) (draws : Draws) (payload : OtpVerifyIn) {phone : String}
    {row : OtpChallenge Digest}
    (normal : environment.normalizePhone payload.phone payload.region = some phone)
    (found : findChallenge environment.crypto full.database payload.challengeId phone = some row)
    (member : row ∈ full.database.challenges) (gone : kept purges row = false)
    (expired : row.expiresAt ≤ draws.verifiedAt) (services : Services) :
    let left := settled environment request draws payload phone row full.database services
    Close environment purges full.database (.verify request draws payload) (.verified left.1)
        (.verified (.error (.app (.notAuthenticated "verification_failed")))) ∧
      Swept purges ⟨left.2.1, left.2.2, full.texts⟩
        ⟨purged.database, services, purged.texts⟩ := by
  have saved := written_gone purges unique swept.database member
    (settles_id (branchOf environment draws.verifiedAt payload.code row) draws.verifiedAt row)
    (settles_expiry _ _ row) gone
  have refused := expired_refuses expired
    (row.codeHash == hashOtp environment.crypto row.id payload.code)
  have unaccepted : branchOf environment draws.verifiedAt payload.code row ≠ .accepted := by
    unfold branchOf
    rcases refused with ⟨_, replay⟩ | late
    · rw [replay]; simp
    · rw [late]; simp
  unfold settled
  dsimp only
  split
  · refine ⟨?_, saved, rfl, swept.texts⟩
    dsimp only
    unfold OtpOutcomes.refusal
    split
    · exact .same _ _
    · rename_i fails
      obtain ⟨other, unnamed⟩ := not_or.mp fails
      rcases refused with ⟨consumed, _⟩ | late
      · exact .gone normal found gone (Or.inr ⟨consumed, by simpa using unnamed⟩)
      · exact absurd late other
  · rename_i full_row
    exact ⟨.gone normal found gone (Or.inl (Nat.le_of_not_lt full_row)), swept.database, rfl,
      swept.texts⟩

theorem verify_swept (unique : (ids full.database).Nodup) (swept : Swept purges full purged)
    (request : RequestInfo) (draws : Draws) (payload : OtpVerifyIn)
    (agree : ∀ purge ∈ purges, purge ≤ draws.verifiedAt + hour) :
    Close environment purges full.database (.verify request draws payload)
        (serve environment settings sms full (.verify request draws payload)).1
        (serve environment settings sms purged (.verify request draws payload)).1 ∧
      Swept purges (serve environment settings sms full (.verify request draws payload)).2
        (serve environment settings sms purged (.verify request draws payload)).2 := by
  unfold serve
  dsimp only
  rw [post_verify_eq, post_verify_eq, swept.services]
  cases normal : environment.normalizePhone payload.phone payload.region with
  | none => exact ⟨.same _ _, swept.database, rfl, swept.texts⟩
  | some phone =>
      dsimp only
      rw [find_kept purges unique swept.database.challenges]
      rcases charges (verifyBudgets environment request draws phone) full.services with
        ⟨answer, after⟩
      cases answer with
      | error failure => exact ⟨.same _ _, swept.database, rfl, swept.texts⟩
      | ok value =>
          dsimp only
          cases found : findChallenge environment.crypto full.database payload.challengeId phone with
          | none => exact ⟨.same _ _, swept.database, rfl, swept.texts⟩
          | some row =>
              obtain ⟨wanted, _, listed⟩ := Option.bind_eq_some_iff.mp found
              have member := List.mem_of_find?_eq_some listed
              cases remains : kept purges row with
              | true =>
                  rw [Option.filter_some_pos remains]
                  obtain ⟨answers, further⟩ := settled_swept purges unique swept request draws
                    payload phone member after
                  exact ⟨answers ▸ .same _ _, further⟩
              | false =>
                  rw [Option.filter_some_neg (by simp [remains])]
                  exact settled_stale purges unique swept request draws payload normal found member
                    remains (gone_expired purges agree remains) after

theorem supersede_kept (crypto : Crypto Digest) (phone : String) (now : Time)
    {database left : Database Digest}
    (beside : Beside (fun left right => right = left.filter (kept purges)) database left) :
    Beside (fun left right => right = left.filter (kept purges))
      (supersede crypto phone now database) (supersede crypto phone now left) := by
  rw [beside.rest]
  refine ⟨?_, rfl⟩
  unfold supersede
  dsimp only
  rw [beside.challenges, filter_updated purges]
  intro row _
  split <;> rfl

omit [DecidableEq Digest] in
theorem insert_kept {database left : Database Digest}
    (beside : Beside (fun left right => right = left.filter (kept purges)) database left)
    {row : OtpChallenge Digest} (stays : kept purges row = true) :
    Beside (fun left right => right = left.filter (kept purges)) (insertChallenge row database)
      (insertChallenge row left) := by
  rw [beside.rest]
  refine ⟨?_, rfl⟩
  unfold insertChallenge
  dsimp only
  rw [beside.challenges, List.filter_append]
  simp [stays]

omit [DecidableEq Digest] in
/-- A new challenge has a new id in both. -/
theorem fits_kept {database left : Database Digest}
    (beside : Beside (fun left right => right = left.filter (kept purges)) database left)
    {row : OtpChallenge Digest} (fresh : row.id ∉ ids database) :
    challengeFits environment row left = challengeFits environment row database := by
  have absent : database.challenges.all (fun other => other.id != row.id) = true := by
    apply List.all_eq_true.mpr
    intro other member
    exact bne_iff_ne.mpr fun same => fresh (same ▸ List.mem_map_of_mem member)
  have fewer : left.challenges.all (fun other => other.id != row.id) = true := by
    rw [beside.challenges]
    apply List.all_eq_true.mpr
    intro other member
    exact List.all_eq_true.mp absent other (List.mem_filter.mp member).1
  unfold challengeFits
  rw [absent, fewer]

theorem supersede_ids (crypto : Crypto Digest) (phone : String) (now : Time)
    (database : Database Digest) : ids (supersede crypto phone now database) = ids database := by
  unfold ids supersede
  dsimp only
  rw [List.map_map]
  apply List.map_congr_left
  intro row _
  simp only [Function.comp_apply]
  split <;> rfl

theorem request_swept (swept : Swept purges full purged) (request : RequestInfo)
    (draws : RequestDraws) (payload : OtpRequestIn) (fresh : draws.challengeId ∉ ids full.database)
    (agree : ∀ purge ∈ purges, purge ≤ draws.issuedAt + hour) :
    (requestOtp environment settings sms request draws payload full).1 =
        (requestOtp environment settings sms request draws payload purged).1 ∧
      Swept purges (requestOtp environment settings sms request draws payload full).2
        (requestOtp environment settings sms request draws payload purged).2 := by
  rw [request_otp_eq, request_otp_eq, swept.services]
  cases environment.normalizePhone payload.phone payload.region with
  | none => exact ⟨rfl, swept⟩
  | some phone =>
      have superseded := supersede_kept purges environment.crypto phone draws.supersededAt
        swept.database
      have unseen : (challengeRow environment settings request draws phone).id ∉
          ids (supersede environment.crypto phone draws.supersededAt full.database) := by
        rw [supersede_ids]
        exact fresh
      dsimp only
      rw [fits_kept purges superseded unseen]
      rcases charges (requestBudgets environment request draws phone) full.services with
        ⟨answer, after⟩
      cases answer with
      | error failure => exact ⟨rfl, swept.database, rfl, swept.texts⟩
      | ok value =>
          dsimp only
          split
          · have stays : kept purges (challengeRow environment settings request draws phone) = true :=
              kept_later purges agree (Nat.le_add_right _ _)
            unfold dispatched
            dsimp only
            rw [swept.texts]
            exact ⟨rfl, insert_kept purges superseded stays, rfl, rfl⟩
          · exact ⟨rfl, swept.database, rfl, swept.texts⟩

end Writing

section Runs
variable [DecidableEq Digest] (environment : Environment Digest) (settings : Settings)
  (sms : SmsSettings)

omit [DecidableEq Digest] in
theorem purge_swept {purges : List Time} {full purged : System Digest}
    (swept : Swept purges full purged) (now : Time) :
    Swept (purges ++ [now]) full
      { purged with database := purgeExpiredOtp now purged.database } := by
  refine ⟨?_, swept.services, swept.texts⟩
  rw [swept.database.rest]
  refine ⟨?_, rfl⟩
  unfold purgeExpiredOtp
  dsimp only
  rw [swept.database.challenges, List.filter_filter]
  apply List.filter_congr
  intro row _
  unfold kept
  rw [List.all_append, Bool.and_comm]
  simp

omit [DecidableEq Digest] in
theorem written_ids (saved : OtpChallenge Digest) (database : Database Digest) :
    (written saved database).challenges.map OtpChallenge.id = ids database := by
  unfold ids written
  dsimp only
  rw [List.map_map]
  apply List.map_congr_left
  intro row _
  simp only [Function.comp_apply]
  split
  · rename_i same
    exact same.symm
  · rfl

/-- A call leaves the ids as they are, or adds the one it draws. -/
theorem serve_ids (system : System Digest) (call : Call) (client : sweeps call = none) :
    ids (serve environment settings sms system call).2.database = ids system.database ∨
      ∃ id, call.drawn = some id ∧
        ids (serve environment settings sms system call).2.database =
          ids system.database ++ [id] := by
  cases call with
  | purge now => cases client
  | verify request draws payload =>
      left
      rcases verify_challenges environment request draws payload system.database system.services with
        same | ⟨phone, row, _, _, same⟩
      · exact congrArg (List.map OtpChallenge.id) same
      · exact (congrArg (List.map OtpChallenge.id) same).trans (written_ids _ _)
  | request request draws payload =>
      unfold serve
      dsimp only
      rw [request_otp_eq]
      split
      · exact Or.inl rfl
      · rename_i phone _
        dsimp only
        split
        · exact Or.inl rfl
        · split
          · refine Or.inr ⟨draws.challengeId, rfl, ?_⟩
            rw [← supersede_ids environment.crypto phone draws.supersededAt system.database]
            exact List.map_append
          · exact Or.inl rfl

/-- Every challenge id is new when it is drawn. -/
def FreshIds (system : System Digest) (calls : List Call) : Prop :=
  (ids system.database ++ calls.filterMap Call.drawn).Nodup

/-- No clock of a call is more than an hour behind a purge before it. -/
def ClocksAgree (calls : List Call) : Prop :=
  calls.Pairwise fun earlier later =>
    ∀ purge ∈ sweeps earlier, ∀ now ∈ clock later, purge ≤ now + hour

omit [DecidableEq Digest] in
theorem fresh_unique {system : System Digest} {calls : List Call} (fresh : FreshIds system calls) :
    (ids system.database).Nodup := (List.nodup_append.mp fresh).1

theorem fresh_served {system : System Digest} {call : Call} {rest : List Call}
    (client : sweeps call = none) (fresh : FreshIds system (call :: rest)) :
    FreshIds (serve environment settings sms system call).2 rest := by
  unfold FreshIds at fresh ⊢
  rcases serve_ids environment settings sms system call client with same | ⟨id, drawn, added⟩
  · rw [same]
    refine fresh.sublist ((List.sublist_cons_self call rest).filterMap _ |>.append_left _)
  · rw [List.filterMap_cons_some drawn] at fresh
    rw [added, List.append_assoc]
    exact fresh

/-- A client's call is replied to closely, and leaves the systems as they should be. -/
theorem client_swept {purges : List Time} {full purged : System Digest} {call : Call}
    {rest : List Call} (client : sweeps call = none) (swept : Swept purges full purged)
    (fresh : FreshIds full (call :: rest))
    (agree : ∀ purge ∈ purges, ∀ now ∈ clock call, purge ≤ now + hour) :
    Close environment purges full.database call (serve environment settings sms full call).1
        (serve environment settings sms purged call).1 ∧
      Swept purges (serve environment settings sms full call).2
        (serve environment settings sms purged call).2 := by
  cases call with
  | purge now => cases client
  | verify request draws payload =>
      exact verify_swept purges (fresh_unique fresh) swept request draws payload
        fun purge member => agree purge member _ rfl
  | request request draws payload =>
      have unseen : draws.challengeId ∉ ids full.database := fun present =>
        (List.nodup_append.mp fresh).2.2 _ present _ (by simp [Call.drawn]) rfl
      obtain ⟨answers, further⟩ := request_swept purges swept request draws payload unseen
        fun purge member => agree purge member _ rfl
      exact ⟨by unfold serve; dsimp only; rw [answers]; exact .same _ _, further⟩

/-- The calls of a run without its purges. -/
def unpurged (calls : List Call) : List Call := calls.filter fun call => (sweeps call).isNone

/-- What a run with purges leaves, beside the run without them. -/
theorem purge_run {purges : List Time} (calls : List Call) {rest : List Call}
    {full purged : System Digest} (swept : Swept purges full purged)
    (fresh : FreshIds full (calls ++ rest)) (agree : ClocksAgree calls)
    (earlier : ∀ purge ∈ purges, ∀ call ∈ calls, ∀ now ∈ clock call, purge ≤ now + hour) :
    Swept (purges ++ calls.filterMap sweeps)
        (serveAll environment settings sms full (unpurged calls)).2
        (serveAll environment settings sms purged calls).2 ∧
      FreshIds (serveAll environment settings sms full (unpurged calls)).2 rest := by
  unfold unpurged
  induction calls generalizing purges full purged with
  | nil =>
      refine ⟨?_, fresh⟩
      rw [List.filterMap_nil, List.append_nil]
      exact swept
  | cons call others ih =>
      obtain ⟨now_agrees, later_agree⟩ := List.pairwise_cons.mp agree
      have before : ∀ purge ∈ purges, ∀ other ∈ others, ∀ now ∈ clock other, purge ≤ now + hour :=
        fun purge member other listed => earlier purge member other (List.mem_cons_of_mem _ listed)
      cases client : sweeps call with
      | some now =>
          have dropped : ((sweeps call).isNone) = false := by rw [client]; rfl
          rw [List.filter_cons_of_neg (by simp [dropped]), List.filterMap_cons_some client]
          cases call with
          | request _ _ _ => cases client
          | verify _ _ _ => cases client
          | purge swept_at =>
              obtain rfl : swept_at = now := Option.some.inj client
              have next := ih (purge_swept swept swept_at) fresh later_agree (by
                intro purge member other listed
                rcases List.mem_append.mp member with old | new
                · exact before purge old other listed
                · rw [List.mem_singleton.mp new]
                  exact now_agrees other listed swept_at rfl)
              rw [List.append_assoc] at next
              exact next
      | none =>
          obtain ⟨_, further⟩ := client_swept environment settings sms client swept fresh
            (fun purge member => earlier purge member call List.mem_cons_self)
          rw [List.filter_cons_of_pos (by rw [client]; rfl), List.filterMap_cons_none client]
          exact ih further (fresh_served environment settings sms client fresh) later_agree before

/-- At every point of a run the purges have changed nothing of what is stored but
challenges that they took, and the next call of a client is replied to as without
them, but for the rejected verification of a challenge that is gone. -/
theorem purge_unseen (environment : Environment Digest) (settings : Settings) (sms : SmsSettings)
    (system : System Digest) (calls : List Call) (fresh : FreshIds system calls)
    (agree : ClocksAgree calls) {before after : List Call} (split : calls = before ++ after) :
    let purges := before.filterMap sweeps
    let full := (serveAll environment settings sms system (unpurged before)).2
    let purged := (serveAll environment settings sms system before).2
    Swept purges full purged ∧ ∀ call ∈ after.head?, sweeps call = none →
      Close environment purges full.database call (serve environment settings sms full call).1
        (serve environment settings sms purged call).1 := by
  subst split
  obtain ⟨agree_before, _, between⟩ := List.pairwise_append.mp agree
  have untouched : Swept [] system system := by
    refine ⟨⟨?_, rfl⟩, rfl, rfl⟩
    exact (List.filter_eq_self.mpr fun _ _ => rfl).symm
  obtain ⟨swept, unused⟩ := purge_run environment settings sms before untouched fresh agree_before
    fun _ member => by cases member
  refine ⟨swept, fun call next client => ?_⟩
  obtain ⟨rest, rfl⟩ : ∃ rest, after = call :: rest := List.head?_eq_some_iff.mp next
  refine (client_swept environment settings sms client swept unused ?_).1
  intro purge member now decides
  obtain ⟨sweep, listed, taken⟩ := List.mem_filterMap.mp member
  exact between sweep listed call List.mem_cons_self purge taken now decides

end Runs

/-- The challenge is issued at 0, lives for five minutes and is purged later. -/
def purgedLate : List Call :=
  [.purge 3901000001, .verify fromAddress { firstDraws with verifiedAt := 3901000000 } wrongCode]

theorem purged_late_unseen :
    let purges := (purgedLate.take 1).filterMap sweeps
    let start : System String := ⟨outstanding, ⟨RateLimit.emptyStore, []⟩, []⟩
    let full := (serveAll host ⟨300, 5⟩ ⟨"console", false⟩ start (unpurged (purgedLate.take 1))).2
    let purged := (serveAll host ⟨300, 5⟩ ⟨"console", false⟩ start (purgedLate.take 1)).2
    Swept purges full purged ∧ ∀ call ∈ (purgedLate.drop 1).head?, sweeps call = none →
      Close host purges full.database call (serve host ⟨300, 5⟩ ⟨"console", false⟩ full call).1
        (serve host ⟨300, 5⟩ ⟨"console", false⟩ purged call).1 := by
  refine purge_unseen host ⟨300, 5⟩ ⟨"console", false⟩ _ purgedLate ?_ ?_
    (List.take_append_drop 1 purgedLate).symm
  · simp [FreshIds, ids, purgedLate, Call.drawn, outstanding, List.filterMap_cons]
  · simp [ClocksAgree, purgedLate, sweeps, clock, hour, second, firstDraws]

end RunnerupChat.OtpPurge
