import RunnerupChat.OtpLogin
import RunnerupChat.OtpVerification

/-!
What a verification leaves in the database. A refused one commits its burned
attempt first and records its security event afterwards, in a transaction
that nobody commits: the route raises and the session is rolled back.
-/

namespace RunnerupChat.OtpAudit

open Accounts RateLimit OtpStore OtpLogin UnitOfWork

variable {Digest : Type}

/-- One new event beside the burned attempt. -/
def RecordsRefusal (row : OtpChallenge Digest) (before after : Database Digest) : Prop :=
  (∃ burned ∈ after.challenges, burned.id = row.id ∧ burned.attempts = row.attempts + 1) ∧
    ∃ event, after.securityEvents.Perm (event :: before.securityEvents)

section Writers
variable (environment : Environment Digest) (request : RequestInfo)

theorem checked_uncommitting (accepted : Bool) (statement : Database Digest → Database Digest) :
    Uncommitting (executeChecked accepted statement) :=
  uncommitting_checked _ _ _

theorem record_security_uncommitting (entry : SecurityEvent) :
    Uncommitting (recordSecurity environment request entry) :=
  checked_uncommitting _ _

theorem enforce_limit_outward (name : LimitName) (identity : String) (nowMs : Nat) :
    Outward (enforceLimit name identity nowMs : Handler Digest Unit) :=
  outward_outside _

theorem enforce_verify_limits_outward (draws : Draws) (phone : String) :
    Outward (enforceVerifyLimits environment request draws phone) := by
  apply outward_bind (enforce_limit_outward _ _ _)
  intro _
  cases request.clientIp.filter (· ≠ "") with
  | none => exact outward_pure ()
  | some address => exact enforce_limit_outward _ _ _

end Writers

/-- The challenge rows with `row` written over its old version. -/
def written (row : OtpChallenge Digest) (database : Database Digest) : Database Digest :=
  { database with
    challenges := database.challenges.map fun other => if other.id = row.id then row else other }

theorem save_challenge_fits {row : OtpChallenge Digest} (fits : row.attempts ≤ smallintMax) :
    saveChallenge row = execute (written row) := by
  unfold saveChallenge executeChecked
  rw [if_pos (decide_eq_true fits)]
  rfl

theorem save_challenge_overflows {row : OtpChallenge Digest}
    (overflows : ¬row.attempts ≤ smallintMax) : saveChallenge row = throw .database := by
  unfold saveChallenge executeChecked
  rw [if_neg (by simpa using overflows)]

section Settling
variable [DecidableEq Digest] (environment : Environment Digest) (request : RequestInfo)

/-- Whatever the branch, the settled row is what becomes durable. -/
theorem settle_challenge_commits (challengeId code : String) (now : Time)
    (row : OtpChallenge Digest) (session : Session (Database Digest) Services)
    (fits : row.attempts < smallintMax) {branch : Branch}
    (decided : judge (burn row) now (row.codeHash == hashOtp environment.crypto row.id code) =
      branch) :
    (perform (settleChallenge environment request challengeId code now row) session).2.committed =
        written (branch.settles now (burn row)) session.working := by
  have burns : (burn row).attempts ≤ smallintMax := fits
  have consumes : (consume now (burn row)).attempts ≤ smallintMax := fits
  have audited : ∀ entry value, Uncommitting
      (recordSecurity environment request entry >>= fun _ =>
        (pure value : Handler Digest (OtpResult × Bool))) := fun entry value =>
    uncommitting_bind (record_security_uncommitting environment request entry)
      fun _ => uncommitting_pure value
  unfold settleChallenge
  simp only [decided]
  cases branch with
  | replay => 
      rw [save_challenge_fits burns]
      exact committed_of_commit session _ (audited _ _)
  | expired => 
      rw [save_challenge_fits burns]
      exact committed_of_commit session _ (uncommitting_pure _)
  | exhausted =>
      rw [save_challenge_fits consumes]
      exact committed_of_commit session _ (audited _ _)
  | wrongCode =>
      rw [save_challenge_fits burns]
      exact committed_of_commit session _ (audited _ _)
  | accepted =>
      rw [save_challenge_fits consumes]
      exact committed_of_commit session _ (uncommitting_pure _)

/-- A burned attempt that does not fit its column fails the request. -/
theorem settle_challenge_overflows (challengeId code : String) (now : Time)
    (row : OtpChallenge Digest) (session : Session (Database Digest) Services)
    (overflows : ¬row.attempts < smallintMax) :
    perform (settleChallenge environment request challengeId code now row) session =
      (.error .database, session) := by
  have burns : ¬(burn row).attempts ≤ smallintMax := overflows
  have consumes : ¬(consume now (burn row)).attempts ≤ smallintMax := overflows
  unfold settleChallenge
  cases decided : judge (burn row) now (row.codeHash == hashOtp environment.crypto row.id code) with
  | replay | expired | wrongCode =>
      simp only [decided]
      rw [save_challenge_overflows burns]
      exact perform_bind_error session (perform_throw session _)
  | exhausted | accepted =>
      simp only [decided]
      rw [save_challenge_overflows consumes]
      exact perform_bind_error session (perform_throw session _)

/-- Only the accepting branch answers that the code was consumed. -/
theorem settle_challenge_answers (challengeId code : String) (now : Time)
    (row : OtpChallenge Digest)
    (refused : judge (burn row) now (row.codeHash == hashOtp environment.crypto row.id code) ≠
      .accepted) :
    Answers (fun answer => answer.2 = false)
      (settleChallenge environment request challengeId code now row) := by
  unfold settleChallenge
  cases decided : judge (burn row) now (row.codeHash == hashOtp environment.crypto row.id code) with
  | replay | exhausted | wrongCode =>
      simp only [decided]
      exact answers_bind fun _ => answers_bind fun _ => answers_bind fun _ => answers_pure rfl
  | expired =>
      simp only [decided]
      exact answers_bind fun _ => answers_bind fun _ => answers_pure rfl
  | accepted => exact absurd decided refused

end Settling

section Requests
variable [DecidableEq Digest]

/-- The request gets past its limits to `row`, a challenge of its number, and
is refused on `branch`. -/
structure Refused (environment : Environment Digest) (request : RequestInfo) (draws : Draws)
    (payload : OtpVerifyIn) (database : Database Digest) (services : Services)
    (row : OtpChallenge Digest) (branch : Branch) : Prop where
  admitted : ∃ phone, environment.normalizePhone payload.phone payload.region = some phone ∧
    (perform (enforceVerifyLimits environment request draws phone)
      ⟨database, database, services⟩).1 = .ok () ∧
    findChallenge environment.crypto database payload.challengeId phone = some row
  decided : judge (burn row) draws.verifiedAt
    (row.codeHash == hashOtp environment.crypto row.id payload.code) = branch
  audited : branch = .replay ∨ branch = .exhausted ∨ branch = .wrongCode

variable {environment : Environment Digest} {request : RequestInfo} {draws : Draws}
  {payload : OtpVerifyIn} {database : Database Digest} {services : Services}
  {row : OtpChallenge Digest} {branch : Branch}

/-- A refused request ends as its challenge was settled. -/
theorem post_verify_settles
    (refused : Refused environment request draws payload database services row branch) :
    ∃ services', (postVerify environment request draws payload database services).2.1 =
      (perform (settleChallenge environment request payload.challengeId payload.code
        draws.verifiedAt row) ⟨database, database, services'⟩).2.committed := by
  obtain ⟨phone, number, passed, found⟩ := refused.admitted
  have unaccepted : branch ≠ .accepted := by
    rcases refused.audited with rfl | rfl | rfl <;> decide
  obtain ⟨services', same⟩ :=
    enforce_verify_limits_outward environment request draws phone ⟨database, database, services⟩
  have limits : perform (enforceVerifyLimits environment request draws phone)
      ⟨database, database, services⟩ = (.ok (), ⟨database, database, services'⟩) :=
    Prod.ext passed same
  refine ⟨services', ?_⟩
  have reaches : perform (verifyChallenge environment request draws payload.challengeId
      payload.code phone) ⟨database, database, services⟩ =
      perform (settleChallenge environment request payload.challengeId payload.code
        draws.verifiedAt row) ⟨database, database, services'⟩ := by
    unfold verifyChallenge
    rw [perform_bind_ok _ limits, perform_bind_ok _ (perform_rows _)]
    simp only [found]
  rcases done : perform (settleChallenge environment request payload.challengeId payload.code
    draws.verifiedAt row) ⟨database, database, services'⟩ with ⟨answer, after⟩
  rw [done] at reaches
  unfold postVerify withSession verifyOtp
  simp only [number]
  cases answer with
  | error failure => rw [perform_bind_error _ reaches]
  | ok value =>
      have unconsumed := settle_challenge_answers environment request payload.challengeId
        payload.code draws.verifiedAt row (refused.decided ▸ unaccepted) _ value after done
      rw [perform_bind_ok _ reaches]
      obtain ⟨result, consumed⟩ := value
      obtain rfl : consumed = false := unconsumed
      rfl

/-- No refusal leaves its security event: the request commits the settled
challenge, or nothing if the attempt does not fit its column. -/
theorem refusal_never_recorded (environment : Environment Digest) (request : RequestInfo)
    (draws : Draws) (payload : OtpVerifyIn) (database : Database Digest) (services : Services)
    (row : OtpChallenge Digest) (branch : Branch)
    (refused : Refused environment request draws payload database services row branch) :
    (postVerify environment request draws payload database services).2.1 =
        (if row.attempts < smallintMax then
          written (branch.settles draws.verifiedAt (burn row)) database else database) ∧
      ¬RecordsRefusal row database
        (postVerify environment request draws payload database services).2.1 := by
  obtain ⟨services', ends⟩ := post_verify_settles refused
  have leaves : (postVerify environment request draws payload database services).2.1 =
      (if row.attempts < smallintMax then
        written (branch.settles draws.verifiedAt (burn row)) database else database) := by
    rw [ends]
    split
    · rename_i fits
      exact settle_challenge_commits environment request _ _ _ row _ fits refused.decided
    · rename_i overflows
      rw [settle_challenge_overflows environment request _ _ _ row _ overflows]
  refine ⟨leaves, ?_⟩
  rintro ⟨_, event, grown⟩
  rw [leaves] at grown
  have same := grown.length_eq
  split at same <;> simp [written] at same

end Requests

section Login
variable [DecidableEq Digest] (environment : Environment Digest) (request : RequestInfo)

/-- A login blocked by the state of its account does leave its event: there
the route commits after it records. -/
theorem blocked_login_recorded (draws : Draws) (phone : String) {user : User Digest}
    (session : Session (Database Digest) Services)
    (found : session.working.users.find?
      (fun row => row.phoneHash == phoneFingerprint environment.crypto phone) = some user)
    (blocked : user.isUsable = false)
    (addressed : inetAccepted environment request.clientIp = true) :
    (perform (loginUser environment request draws phone) session).2.committed.securityEvents =
      session.working.securityEvents ++
        [(request.requestId,
          { event := "login_blocked_account_state", userId := some user.id, ip := request.clientIp,
            detail := [("state", .text (AccountState.text user.accountState))] })] := by
  have rejected : Uncommitting (throw (.app (.notAuthenticated "verification_failed")) :
      Handler Digest (User Digest × Bool)) := uncommitting_throw _
  have committed := committed_of_commit session
    (fun database : Database Digest => { database with
      securityEvents := database.securityEvents ++
        [(request.requestId,
          { event := "login_blocked_account_state", userId := some user.id, ip := request.clientIp,
            detail := [("state", .text (AccountState.text user.accountState))] })] })
    rejected
  unfold loginUser recordSecurity executeChecked
  rw [perform_bind_ok session (perform_rows session)]
  simp only [found, blocked, addressed, Bool.false_eq_true, if_false, if_true]
  exact congrArg Database.securityEvents committed

end Login

def issuedRow : OtpChallenge String := newChallenge plain ⟨300, 5⟩ 1 "+911" "123456" none none 0

/-- One outstanding challenge of one number. -/
def outstanding : Database String :=
  { challenges := [issuedRow], users := [],
    devices := [], sessions := [], auditLogs := [], securityEvents := [] }

def host : Environment String :=
  { crypto := plain, jwt := ⟨fun _ => "token", fun _ _ => none⟩, tokens := ⟨600, 3600⟩,
    normalizePhone := fun text _ => some text, countryCode := fun _ => "91",
    isInet := fun _ => true, cookieSecure := true }

def wrongCode : OtpVerifyIn := { challengeId := "c1", code := "000000", phone := "+911" }

def fromAddress : RequestInfo := ⟨some "r1", some "10.0.0.1", none⟩

def firstDraws : Draws := ⟨0, 0, 1000, 2, 3, "refresh", 4, 1000, 5, 1000, "csrf"⟩

theorem wrong_code_refused :
    Refused host fromAddress firstDraws wrongCode outstanding ⟨emptyStore, []⟩ issuedRow
      .wrongCode :=
  ⟨⟨"+911", rfl, rfl, rfl⟩, rfl, Or.inr (Or.inr rfl)⟩

theorem wrong_code_unrecorded :
    ¬RecordsRefusal issuedRow outstanding
      (postVerify host fromAddress firstDraws wrongCode outstanding ⟨emptyStore, []⟩).2.1 :=
  (refusal_never_recorded host fromAddress firstDraws wrongCode outstanding ⟨emptyStore, []⟩
    issuedRow .wrongCode wrong_code_refused).2

theorem refusals_not_all_recorded : ¬∀ (environment : Environment String) (request : RequestInfo)
    (draws : Draws) (payload : OtpVerifyIn) (database : Database String) (services : Services)
    (row : OtpChallenge String) (branch : Branch),
    Refused environment request draws payload database services row branch →
      RecordsRefusal row database
        (postVerify environment request draws payload database services).2.1 := by
  intro claimed
  obtain ⟨_, event, grown⟩ := claimed host fromAddress firstDraws wrongCode outstanding
    ⟨emptyStore, []⟩ issuedRow .wrongCode wrong_code_refused
  have lengths : 0 = 1 := grown.length_eq
  cases lengths

end RunnerupChat.OtpAudit
