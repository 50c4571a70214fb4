import RunnerupChat.CoupledWork
import RunnerupChat.OtpRequests

/-!
Everything that a call on the one-time codes can do, as one equation a call.
What opens a session once a code was accepted never looks at the challenges,
so it runs alike beside any of them.
-/

namespace RunnerupChat.OtpOutcomes

open Accounts RateLimit OtpStore OtpLogin OtpAudit OtpConsumption OtpRequests UnitOfWork CoupledWork

variable {Digest : Type}

/-- Two databases that differ in their challenges only. -/
structure Beside (alike : List (OtpChallenge Digest) → List (OtpChallenge Digest) → Prop)
    (left right : Database Digest) : Prop where
  challenges : alike left.challenges right.challenges
  rest : right = { left with challenges := right.challenges }

section Opening
variable {alike : List (OtpChallenge Digest) → List (OtpChallenge Digest) → Prop}
  {environment : Environment Digest} {request : RequestInfo} {draws : Draws}

/-- A statement that leaves the challenges alone. -/
theorem beside_statement {statement : Database Digest → Database Digest}
    (blind : ∀ database rows, statement { database with challenges := rows } =
      { statement database with challenges := rows }) :
    ∀ left right, Beside alike left right → Beside alike (statement left) (statement right) := by
  intro left right beside
  have kept : ∀ database : Database Digest, (statement database).challenges = database.challenges := by
    intro database
    have same := congrArg Database.challenges (blind database database.challenges)
    exact same
  refine ⟨by rw [kept, kept]; exact beside.challenges, ?_⟩
  calc statement right = statement { left with challenges := right.challenges } := by
        rw [← beside.rest]
    _ = { statement left with challenges := right.challenges } := blind _ _
    _ = { statement left with challenges := (statement right).challenges } := by rw [kept]

theorem coupled_checked (accepted : Bool) {statement : Database Digest → Database Digest}
    (blind : ∀ database rows, statement { database with challenges := rows } =
      { statement database with challenges := rows }) :
    Coupled (Beside alike) Eq (executeChecked accepted statement)
      (executeChecked accepted statement) := by
  cases accepted with
  | true => exact coupled_execute (beside_statement blind)
  | false => exact coupled_throw _

theorem coupled_audit (entry : AuditLog) :
    Coupled (Beside alike) Eq (recordAudit environment request entry)
      (recordAudit environment request entry) :=
  coupled_checked _ fun _ _ => rfl

theorem coupled_security (entry : SecurityEvent) :
    Coupled (Beside alike) Eq (recordSecurity environment request entry)
      (recordSecurity environment request entry) :=
  coupled_checked _ fun _ _ => rfl

variable [DecidableEq Digest]

theorem coupled_login (phone : String) :
    Coupled (Beside alike) Eq (loginUser environment request draws phone)
      (loginUser environment request draws phone) := by
  unfold loginUser
  apply coupled_bind coupled_rows
  intro left right beside
  have users : right.users = left.users := by rw [beside.rest]
  simp only [users]
  cases left.users.find? fun user => user.phoneHash == phoneFingerprint environment.crypto phone with
  | none =>
      apply coupled_seq (coupled_checked _ fun _ _ => rfl)
      intro _
      apply coupled_seq (coupled_audit _)
      intro _
      exact coupled_pure rfl
  | some user =>
      dsimp only
      split
      · exact coupled_pure rfl
      · apply coupled_seq (coupled_security _)
        intro _
        apply coupled_seq coupled_commit
        intro _
        exact coupled_throw _

theorem coupled_create (user : User Digest) (platform label : String) (existing : Option Uuid) :
    Coupled (Beside alike) Eq (createSession environment request draws user platform label existing)
      (createSession environment request draws user platform label existing) := by
  unfold createSession
  apply coupled_bind coupled_rows
  intro left right beside
  have devices : right.devices = left.devices := by rw [beside.rest]
  simp only [devices]
  rcases SessionStore.existingDevice (left.devices.map DeviceRow.toUserDevice) user.id existing with
    _ | found
  on_goal 1 =>
    apply coupled_seq (coupled_checked _ fun _ _ => rfl)
    intro _
  -- from here on the device is all that differs
  all_goals
    apply coupled_seq (coupled_pure rfl)
    intro device
    apply coupled_bind coupled_rows
    intro first second further
    have sessions : second.sessions = first.sessions := by rw [further.rest]
    simp only [sessions]
    apply coupled_seq (coupled_checked _ fun _ _ => rfl)
    intro _
    apply coupled_seq (coupled_audit _)
    intro _
    apply coupled_seq coupled_commit
    intro _
    apply coupled_seq (coupled_outside _)
    intro _
    exact coupled_pure rfl

/-- A session is opened without a look at the challenges. -/
theorem coupled_open (payload : OtpVerifyIn) (phone : String) :
    Coupled (Beside alike) Eq (openSession environment request draws payload phone)
      (openSession environment request draws payload phone) := by
  unfold openSession
  apply coupled_seq (coupled_login phone)
  rintro ⟨user, isNew⟩
  apply coupled_seq (coupled_create user _ _ _)
  intro _
  exact coupled_pure rfl

theorem open_beside (payload : OtpVerifyIn) (phone : String) {left right : Database Digest}
    (beside : Beside alike left right) (services : Services) :
    let opened := fun database : Database Digest =>
      withSession (openSession environment request draws payload phone) database services
    (opened left).1 = (opened right).1 ∧ Beside alike (opened left).2.1 (opened right).2.1 ∧
      (opened left).2.2 = (opened right).2.2 :=
  coupled_session (coupled_open payload phone) beside services

theorem open_keeps_challenges (payload : OtpVerifyIn) (phone : String)
    (database : Database Digest) (services : Services) :
    (withSession (openSession environment request draws payload phone) database
      services).2.1.challenges = database.challenges := by
  have beside : Beside (fun _ right => right = database.challenges) database database :=
    ⟨rfl, rfl⟩
  exact (open_beside payload phone beside services).2.1.challenges

end Opening

/-! Limits touch the services alone. -/

section Limits

def charge (name : LimitName) (identity : String) (nowMs : Nat) (services : Services) :
    Except Failure Unit × Services :=
  match enforce services.limiter name identity nowMs with
  | (.ok (), limiter) => (.ok (), { services with limiter := limiter })
  | (.error refused, limiter) =>
      (.error (.app (.rateLimited refused.retryAfter)), { services with limiter := limiter })

/-- Budgets are charged in order, up to the first that is spent. -/
def charges : List (LimitName × String × Nat) → Services → Except Failure Unit × Services
  | [], services => (.ok (), services)
  | (name, identity, nowMs) :: rest, services =>
      match charge name identity nowMs services with
      | (.ok (), after) => charges rest after
      | (.error failure, after) => (.error failure, after)

theorem charges_passed {name : LimitName} {identity : String} {nowMs : Nat}
    {services after : Services} (passed : charge name identity nowMs services = (.ok (), after))
    (rest : List (LimitName × String × Nat)) :
    charges ((name, identity, nowMs) :: rest) services = charges rest after := by
  rw [charges, passed]

theorem charges_refused {name : LimitName} {identity : String} {nowMs : Nat}
    {services after : Services} {failure : Failure}
    (refused : charge name identity nowMs services = (.error failure, after))
    (rest : List (LimitName × String × Nat)) :
    charges ((name, identity, nowMs) :: rest) services = (.error failure, after) := by
  rw [charges, refused]

variable (environment : Environment Digest) (request : RequestInfo)

def addressBudgets (name : LimitName) (nowMs : Nat) : List (LimitName × String × Nat) :=
  (request.clientIp.filter (· ≠ "")).toList.map fun address => (name, address, nowMs)

def verifyBudgets (draws : Draws) (phone : String) : List (LimitName × String × Nat) :=
  (.otpVerifyPhone, environment.crypto.hex (phoneFingerprint environment.crypto phone),
    draws.phoneLimitMs) :: addressBudgets request .otpVerifyIp draws.ipLimitMs

def requestBudgets (draws : RequestDraws) (phone : String) : List (LimitName × String × Nat) :=
  (.otpRequestPhone, environment.crypto.hex (phoneFingerprint environment.crypto phone),
    draws.phoneLimitMs) :: addressBudgets request .otpRequestIp draws.ipLimitMs

variable (session : Session (Database Digest) Services)

theorem perform_limit (name : LimitName) (identity : String) (nowMs : Nat) :
    perform (enforceLimit name identity nowMs) session =
      ((charge name identity nowMs session.outside).1,
        { session with outside := (charge name identity nowMs session.outside).2 }) := rfl

/-- Two budgets, the second one for an address if there is one. -/
theorem perform_limits (name other : LimitName) (identity : String) (first second : Nat) :
    perform (do
        enforceLimit name identity first
        match request.clientIp.filter (· ≠ "") with
        | none => pure ()
        | some address => enforceLimit other address second) session =
      ((charges ((name, identity, first) :: addressBudgets request other second) session.outside).1,
        { session with
          outside := (charges ((name, identity, first) :: addressBudgets request other second)
            session.outside).2 }) := by
  rcases done : charge name identity first session.outside with ⟨answer, after⟩
  have charged := perform_limit session name identity first
  rw [done] at charged
  cases answer with
  | error failure => rw [perform_bind_error session charged, charges_refused done]
  | ok value =>
      rw [perform_bind_ok session charged, charges_passed done]
      unfold addressBudgets
      cases request.clientIp.filter (· ≠ "") with
      | none => rfl
      | some address =>
          simp only [Option.toList_some, List.map_cons, List.map_nil]
          rw [perform_limit]
          rcases last : charge other address second after with ⟨found, final⟩
          cases found with
          | ok value => rw [charges_passed last]; rfl
          | error failure => rw [charges_refused last]

theorem perform_verify_limits (draws : Draws) (phone : String) :
    perform (enforceVerifyLimits environment request draws phone) session =
      ((charges (verifyBudgets environment request draws phone) session.outside).1,
        { session with
          outside := (charges (verifyBudgets environment request draws phone)
            session.outside).2 }) :=
  perform_limits request session _ _ _ _ _

theorem perform_request_limits (draws : RequestDraws) (phone : String) :
    perform (enforceRequestLimits environment request draws phone) session =
      ((charges (requestBudgets environment request draws phone) session.outside).1,
        { session with
          outside := (charges (requestBudgets environment request draws phone)
            session.outside).2 }) :=
  perform_limits request session _ _ _ _ _

end Limits

section Equations
variable [DecidableEq Digest] (environment : Environment Digest) (request : RequestInfo)

def branchOf (now : Time) (code : String) (row : OtpChallenge Digest) : Branch :=
  judge (burn row) now (row.codeHash == hashOtp environment.crypto row.id code)

/-- How a request ends that `branch` refuses: its security event may not fit. -/
def refusal (branch : Branch) : Failure :=
  if branch = .expired ∨ inetAccepted environment request.clientIp then
    .app (.notAuthenticated "verification_failed")
  else .database

/-- What becomes of a request that has reached a challenge. -/
def settled (draws : Draws) (payload : OtpVerifyIn) (phone : String) (row : OtpChallenge Digest)
    (database : Database Digest) (services : Services) :
    Except Failure SessionOut × Database Digest × Services :=
  let branch := branchOf environment draws.verifiedAt payload.code row
  let saved := written (branch.settles draws.verifiedAt (burn row)) database
  if row.attempts < smallintMax then
    if branch = .accepted then
      withSession (openSession environment request draws payload phone) saved services
    else (.error (refusal environment request branch), saved, services)
  else (.error .database, database, services)

omit [DecidableEq Digest] in
theorem perform_security (entry : SecurityEvent) (session : Session (Database Digest) Services) :
    perform (recordSecurity environment request entry) session =
      if inetAccepted environment entry.ip then
        (.ok (), { session with working := { session.working with
          securityEvents := session.working.securityEvents ++ [(request.requestId, entry)] } })
      else (.error .database, session) := by
  unfold recordSecurity executeChecked
  cases inetAccepted environment entry.ip with
  | true => rfl
  | false => rfl

omit [DecidableEq Digest] in
/-- The saved row is durable whatever the audit row does. -/
theorem settle_audited (row : OtpChallenge Digest) (fits : row.attempts ≤ smallintMax)
    (entry : SecurityEvent) (result : OtpResult) (database : Database Digest)
    (services : Services) :
    ∃ after, perform (do
        saveChallenge row
        UnitOfWork.commit
        recordSecurity environment request entry
        return (result, false)) ⟨database, database, services⟩ =
      (if inetAccepted environment entry.ip then .ok (result, false) else .error .database, after) ∧
      after.committed = written row database ∧ after.outside = services := by
  rw [save_challenge_fits fits, perform_bind_ok _ (perform_execute _ _),
    perform_bind_ok _ (perform_commit _)]
  have security := perform_security environment request entry
    ⟨written row database, written row database, services⟩
  by_cases accepted : inetAccepted environment entry.ip = true
  · rw [if_pos accepted] at security ⊢
    rw [perform_bind_ok _ security]
    exact ⟨_, rfl, rfl, rfl⟩
  · rw [if_neg accepted] at security ⊢
    rw [perform_bind_error _ security]
    exact ⟨_, rfl, rfl, rfl⟩

/-- A refusal that fits its column is durable, whatever its event does. -/
theorem settle_refused (challengeId code : String) (now : Time) (row : OtpChallenge Digest)
    (fits : row.attempts < smallintMax) (refused : branchOf environment now code row ≠ .accepted)
    (database : Database Digest) (services : Services) :
    ∃ result after, perform (settleChallenge environment request challengeId code now row)
        ⟨database, database, services⟩ =
      (if branchOf environment now code row = .expired ∨ inetAccepted environment request.clientIp
        then .ok (result, false) else .error .database, after) ∧
      after.committed = written ((branchOf environment now code row).settles now (burn row))
        database ∧ after.outside = services := by
  have burns : (burn row).attempts ≤ smallintMax := fits
  have consumes : (consume now (burn row)).attempts ≤ smallintMax := fits
  unfold settleChallenge
  unfold branchOf at refused ⊢
  cases decided : judge (burn row) now (row.codeHash == hashOtp environment.crypto row.id code) with
  | accepted => exact absurd decided refused
  | expired =>
      refine ⟨.expired, ⟨written (burn row) database, written (burn row) database, services⟩, ?_⟩
      simp only [decided, save_challenge_fits burns]
      exact ⟨rfl, rfl, trivial⟩
  | replay | wrongCode =>
      obtain ⟨after, ended, kept⟩ := settle_audited environment request (burn row) burns _ .invalid
        database services
      refine ⟨.invalid, after, ?_, kept⟩
      simp only [decided, reduceCtorEq, false_or]
      exact ended
  | exhausted =>
      obtain ⟨after, ended, kept⟩ := settle_audited environment request
        (consume now (burn row)) consumes _ .exhausted database services
      refine ⟨.exhausted, after, ?_, kept⟩
      simp only [decided, reduceCtorEq, false_or]
      exact ended

theorem settle_accepted (challengeId code : String) (now : Time) (row : OtpChallenge Digest)
    (fits : row.attempts < smallintMax) (accepted : branchOf environment now code row = .accepted)
    (database : Database Digest) (services : Services) :
    perform (settleChallenge environment request challengeId code now row)
        ⟨database, database, services⟩ =
      (.ok (.ok, true), ⟨written (consume now (burn row)) database,
        written (consume now (burn row)) database, services⟩) := by
  have consumes : (consume now (burn row)).attempts ≤ smallintMax := fits
  unfold branchOf at accepted
  unfold settleChallenge
  simp only [accepted, save_challenge_fits consumes]
  rfl

/-- What `verify_otp` does with the result of the challenge. -/
def concluded (draws : Draws) (payload : OtpVerifyIn) (phone : String)
    (verified : OtpResult × Bool) : Handler Digest SessionOut := do
  if !verified.2 then throw (.app (.notAuthenticated "verification_failed"))
  openSession environment request draws payload phone

theorem verify_settled (draws : Draws) (payload : OtpVerifyIn) (phone : String)
    (row : OtpChallenge Digest) (database : Database Digest) (services : Services) :
    withSession (settleChallenge environment request payload.challengeId payload.code
        draws.verifiedAt row >>= concluded environment request draws payload phone)
        database services =
      settled environment request draws payload phone row database services := by
  unfold withSession settled
  by_cases fits : row.attempts < smallintMax
  · rw [if_pos fits]
    by_cases accepted : branchOf environment draws.verifiedAt payload.code row = .accepted
    · rw [if_pos accepted, perform_bind_ok _ (settle_accepted environment request _ _ _ row fits
        accepted database services), accepted]
      rfl
    · obtain ⟨result, after, ended, kept, same⟩ := settle_refused environment request
        payload.challengeId payload.code draws.verifiedAt row fits accepted database services
      rw [if_neg accepted]
      unfold refusal
      split at ended
      · rename_i recorded
        rw [perform_bind_ok _ ended, if_pos recorded, ← kept, ← same]
        rfl
      · rename_i unrecorded
        rw [perform_bind_error _ ended, if_neg unrecorded, ← kept, ← same]
  · rw [if_neg fits, perform_bind_error _ (settle_challenge_overflows environment request _ _ _ row
      _ fits)]

/-- `POST /auth/otp/verify`, case by case. -/
theorem post_verify_eq (draws : Draws) (payload : OtpVerifyIn) (database : Database Digest)
    (services : Services) :
    postVerify environment request draws payload database services =
      match environment.normalizePhone payload.phone payload.region with
      | none => (.error (.app (.validationFailed "invalid_phone")), database, services)
      | some phone =>
          match charges (verifyBudgets environment request draws phone) services with
          | (.error failure, after) => (.error failure, database, after)
          | (.ok (), after) =>
              match findChallenge environment.crypto database payload.challengeId phone with
              | none => (.error (.app (.notAuthenticated "verification_failed")), database, after)
              | some row => settled environment request draws payload phone row database after := by
  unfold postVerify verifyOtp
  cases environment.normalizePhone payload.phone payload.region with
  | none => rfl
  | some phone =>
      have limits := perform_verify_limits environment request ⟨database, database, services⟩
        draws phone
      change withSession (verifyChallenge environment request draws payload.challengeId
        payload.code phone >>= concluded environment request draws payload phone) database
        services = _
      dsimp only
      unfold withSession
      rcases charged : charges (verifyBudgets environment request draws phone) services with
        ⟨answer, after⟩
      rw [charged] at limits
      cases answer with
      | error failure =>
          have ended : perform (verifyChallenge environment request draws payload.challengeId
              payload.code phone) ⟨database, database, services⟩ =
                (.error failure, ⟨database, database, after⟩) := by
            unfold verifyChallenge
            rw [perform_bind_error _ limits]
          rw [perform_bind_error _ ended]
      | ok value =>
          have reaches : perform (verifyChallenge environment request draws payload.challengeId
              payload.code phone) ⟨database, database, services⟩ =
              perform (match findChallenge environment.crypto database payload.challengeId phone with
                | none => pure (.invalid, false)
                | some row => settleChallenge environment request payload.challengeId payload.code
                    draws.verifiedAt row) ⟨database, database, after⟩ := by
            unfold verifyChallenge
            exact (perform_bind_ok _ limits).trans (perform_bind_ok _ (perform_rows _))
          cases found : findChallenge environment.crypto database payload.challengeId phone with
          | none =>
              rw [found] at reaches
              rw [perform_bind_ok _ (reaches.trans (perform_pure _ _))]
              rfl
          | some row =>
              rw [found] at reaches
              rw [perform_bind_same reaches]
              exact verify_settled environment request draws payload phone row database after

theorem settled_challenges (request : RequestInfo) (draws : Draws) (payload : OtpVerifyIn)
    (phone : String) {row : OtpChallenge Digest} (fits : row.attempts < smallintMax)
    (database : Database Digest) (services : Services) :
    (settled environment request draws payload phone row database services).2.1.challenges =
      (written ((branchOf environment draws.verifiedAt payload.code row).settles draws.verifiedAt
        (burn row)) database).challenges := by
  unfold settled
  dsimp only
  rw [if_pos fits]
  split
  · exact open_keeps_challenges payload phone _ services
  · rfl

/-- Whatever the request, its challenges are those it found or it has settled one. -/
theorem verify_challenges (request : RequestInfo) (draws : Draws) (payload : OtpVerifyIn)
    (database : Database Digest) (services : Services) :
    (postVerify environment request draws payload database services).2.1.challenges =
        database.challenges ∨
      ∃ phone row, findChallenge environment.crypto database payload.challengeId phone = some row ∧
        row.attempts < smallintMax ∧
        (postVerify environment request draws payload database services).2.1.challenges =
          (written ((branchOf environment draws.verifiedAt payload.code row).settles
            draws.verifiedAt (burn row)) database).challenges := by
  rw [post_verify_eq]
  cases environment.normalizePhone payload.phone payload.region with
  | none => exact Or.inl rfl
  | some phone =>
      dsimp only
      rcases charges (verifyBudgets environment request draws phone) services with ⟨answer, after⟩
      cases answer with
      | error failure => exact Or.inl rfl
      | ok value =>
          dsimp only
          cases found : findChallenge environment.crypto database payload.challengeId phone with
          | none => exact Or.inl rfl
          | some row =>
              dsimp only
              by_cases fits : row.attempts < smallintMax
              · exact Or.inr ⟨phone, row, found, fits,
                  settled_challenges environment request draws payload phone fits database after⟩
              · unfold settled
                rw [if_neg fits]
                exact Or.inl rfl

/-- The challenge is durable; the text is handed over or not. -/
def dispatched (settings : Settings) (sms : SmsSettings) (draws : RequestDraws) (phone : String)
    (system : System Digest) : Except RequestFailure OtpRequestOut × System Digest :=
  ((sendSms sms draws.dispatch phone (numericOtp 6 draws.code) system.texts).1.map fun _ =>
      ⟨toString draws.challengeId, settings.otpTtlSeconds⟩,
    { system with
      texts := (sendSms sms draws.dispatch phone (numericOtp 6 draws.code) system.texts).2 })

/-- `POST /auth/otp/request`, case by case. -/
theorem request_otp_eq (settings : Settings) (sms : SmsSettings) (draws : RequestDraws)
    (payload : OtpRequestIn) (system : System Digest) :
    requestOtp environment settings sms request draws payload system =
      match environment.normalizePhone payload.phone payload.region with
      | none => (.error (.handler (.app (.validationFailed "invalid_phone"))), system)
      | some phone =>
          let row := challengeRow environment settings request draws phone
          let superseded := supersede environment.crypto phone draws.supersededAt system.database
          match charges (requestBudgets environment request draws phone) system.services with
          | (.error failure, after) =>
              (.error (.handler failure), { system with services := after })
          | (.ok (), after) =>
              if challengeFits environment row superseded then
                dispatched settings sms draws phone
                  { system with database := insertChallenge row superseded, services := after }
              else (.error (.handler .database), { system with services := after }) := by
  unfold requestOtp
  cases environment.normalizePhone payload.phone payload.region with
  | none => rfl
  | some phone =>
      have limits := perform_request_limits environment request
        ⟨system.database, system.database, system.services⟩ draws phone
      dsimp only
      unfold withSession issueChallenge
      rcases charged : charges (requestBudgets environment request draws phone) system.services with
        ⟨answer, after⟩
      rw [charged] at limits
      cases answer with
      | error failure => rw [perform_bind_error _ limits]
      | ok value =>
          rw [perform_bind_ok _ limits, perform_bind_ok _ (perform_execute _ _)]
          dsimp only
          rw [perform_bind_ok _ (perform_rows _)]
          cases fits : challengeFits environment (challengeRow environment settings request draws phone)
              (supersede environment.crypto phone draws.supersededAt system.database) with
          | false =>
              rw [perform_bind_error _ (checked_refused rfl _)]
              rfl
          | true =>
              rw [perform_bind_ok _ (checked_taken rfl _), perform_commit]
              unfold dispatched
              dsimp only
              rcases sendSms sms draws.dispatch phone (numericOtp 6 draws.code) system.texts with
                ⟨sent, texts⟩
              cases sent with
              | error failure => rfl
              | ok sent => rfl

end Equations

end RunnerupChat.OtpOutcomes
