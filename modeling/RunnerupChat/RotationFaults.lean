import RunnerupChat.OtpLogin

/-!
One call of `rotate_session` in `services/sessions.py` over the session that
`get_db` opens and rolls back. Each statement, the commit and each command to
Redis may fail, and may have had its effect when it does.
-/

namespace RunnerupChat.RotationFaults

open Accounts UnitOfWork
open OtpLogin (Detail IssuedTokens SecurityEvent)
open SessionStore (RefreshRejected UserSession revoke spend successor)

inductive Step where
  | selectSession
  | revokeFamily
  | mark (session : Uuid)
  | announce
  | recordSecurity
  | selectUser
  | flush
  | touchDevice
  | commit
  deriving DecidableEq

/-- What becomes of a step. -/
inductive Fate where
  | fine
  | failed
  /-- The step has its effect, and its answer is lost. -/
  | unanswered
  deriving DecidableEq

inductive Failure where
  | rejected (answer : RefreshRejected)
  | raised
  deriving DecidableEq

structure Device where
  id : Uuid
  lastActiveAt : Option Time
  ipLastSeen : Option String
  deriving DecidableEq

structure Database (Digest : Type) where
  sessions : List (UserSession Digest)
  users : List (User Digest)
  devices : List Device
  securityEvents : List (Option String × SecurityEvent)

structure Announcement where
  userId : Uuid
  sessionIds : List Uuid
  reason : String

/-- The marks with their lifetimes in seconds, and what was published. -/
structure Redis where
  marks : List (Uuid × Nat) := []
  published : List Announcement := []

/-- `isInet` is the input check of PostgreSQL's `INET`. -/
structure Environment (Digest : Type) where
  sha256 : String → Digest
  jwt : AccessTokens.Jwt
  tokens : AccessTokens.Settings
  isInet : String → Bool

structure Presented where
  refresh : String
  ip : Option String
  requestId : Option String

/-- The clock readings and random values of one call. -/
structure Draws where
  now : Time
  revokedAt : Time
  mintedAt : Time
  sessionId : Uuid
  refreshToken : String

section Call
variable {Digest Answer : Type}

abbrev Call (Digest : Type) := Work (Database Digest) Redis Failure

def attempt (fates : Step → Fate) (step : Step) (work : Call Digest Answer) :
    Call Digest Answer :=
  match fates step with
  | .fine => work
  | .failed => throw .raised
  | .unanswered => work >>= fun _ => throw .raised

/-- A statement with a condition that the database checks. -/
def executeChecked (accepted : Bool) (statement : Database Digest → Database Digest) :
    Call Digest Unit :=
  if accepted then execute statement else throw .raised

variable (env : Environment Digest) (fates : Step → Fate) (draws : Draws) (presented : Presented)

def markRevokedInCache (session : Uuid) : Call Digest Unit :=
  attempt fates (.mark session) (outside fun redis =>
    (.ok (), { redis with
      marks := redis.marks ++ [(session, env.tokens.accessTokenTtlSeconds + 60)] }))

def markAll : List Uuid → Call Digest Unit
  | [] => pure ()
  | session :: rest => do
      markRevokedInCache env fates session
      markAll rest

def announceRevocation (userId : Uuid) (sessionIds : List Uuid) (reason : String) :
    Call Digest Unit :=
  attempt fates .announce (outside fun redis =>
    (.ok (), { redis with published := redis.published ++ [⟨userId, sessionIds, reason⟩] }))

def revokedRows (family : Uuid) (database : Database Digest) : List (UserSession Digest) :=
  database.sessions.filter fun row => row.familyId == family && row.unrevoked

/-- `UPDATE user_sessions`, for the rows of the family that are not revoked. -/
def revokeRows (now : Time) (family : Uuid) (reason : String) (database : Database Digest) :
    Database Digest :=
  { database with
    sessions := database.sessions.map fun row =>
      if row.familyId == family && row.unrevoked then revoke now reason row else row }

/-- What follows the `UPDATE` with the rows that it has returned. -/
def spreadRevocation (reason : String) (revoked : List (UserSession Digest)) :
    Call Digest Unit := do
  markAll env fates (revoked.map UserSession.id)
  match revoked with
  | [] => pure ()
  | first :: _ => announceRevocation fates first.userId (revoked.map UserSession.id) reason

def revokeFamily (family : Uuid) (reason : String) : Call Digest Unit := do
  let revoked ← attempt fates .revokeFamily (do
    let database ← rows
    execute (revokeRows draws.revokedAt family reason)
    return revokedRows family database)
  spreadRevocation env fates reason revoked

/-- The evidence of a token that is presented again. -/
def reuseEvent (session : UserSession Digest) : SecurityEvent :=
  { event := "refresh_reuse_detected", severity := .critical, userId := some session.userId,
    sessionId := some session.id, deviceId := some session.deviceId, ip := presented.ip,
    detail := [("family_id", .text (toString session.familyId))] }

def recordSecurity (entry : SecurityEvent) : Call Digest Unit :=
  executeChecked (entry.ip.all env.isInet) fun database =>
    { database with securityEvents := database.securityEvents ++ [(presented.requestId, entry)] }

/-- Reuse is detected: the entire family is burned. -/
def burnFamily (session : UserSession Digest) : Call Digest Answer := do
  revokeFamily env fates draws session.familyId "refresh_reuse_detected"
  attempt fates .recordSecurity (recordSecurity env presented (reuseEvent presented session))
  attempt fates .commit commit
  throw (.rejected .reuseDetected)

variable [DecidableEq Digest]

/-- The id and the hash of a session are unique. -/
def conflicts (next : UserSession Digest) (database : Database Digest) : Bool :=
  database.sessions.any fun row => row.id == next.id || row.refreshHash == next.refreshHash

omit [DecidableEq Digest] in
def spendRow (now : Time) (session next : UserSession Digest) (database : Database Digest) :
    Database Digest :=
  { database with
    sessions := (database.sessions.map fun row =>
      if row.id = session.id then spend now row else row) ++ [next] }

def flush (session next : UserSession Digest) : Call Digest Unit := do
  let database ← rows
  executeChecked (!conflicts next database) (spendRow draws.now session next)

omit [DecidableEq Digest] in
def touchRow (device : Uuid) (database : Database Digest) : Database Digest :=
  { database with
    devices := database.devices.map fun row =>
      if row.id = device then
        { row with lastActiveAt := some draws.now, ipLastSeen := presented.ip }
      else row }

def successorOf (session : UserSession Digest) : UserSession Digest :=
  successor session draws.sessionId (env.sha256 draws.refreshToken)

def issued (session : UserSession Digest) (user : User Digest) : IssuedTokens :=
  { accessToken := env.jwt.encode (AccessTokens.mintAccessToken env.tokens draws.mintedAt user.id
      draws.sessionId session.deviceId user.systemRole)
    refreshToken := draws.refreshToken, sessionId := draws.sessionId, deviceId := session.deviceId
    expiresIn := env.tokens.accessTokenTtlSeconds, userId := user.id
    displayName := user.displayName }

/-- The commit, and the mark for the old session id. -/
def settle (session : UserSession Digest) (user : User Digest) : Call Digest IssuedTokens := do
  attempt fates .commit commit
  markRevokedInCache env fates session.id
  return issued env draws session user

/-- Mark the presented token spent, then mint its successor in the same family. -/
def exchange (session : UserSession Digest) (user : User Digest) : Call Digest IssuedTokens := do
  attempt fates .flush (flush draws session (successorOf env draws session))
  attempt fates .touchDevice
    (executeChecked (presented.ip.all env.isInet) (touchRow draws presented session.deviceId))
  settle env fates draws session user

def admitUser (session : UserSession Digest) : Call Digest IssuedTokens := do
  let database ← attempt fates .selectUser rows
  match database.users.find? fun user => user.id == session.userId with
  | none => throw (.rejected .accountUnavailable)
  | some user =>
      if user.isUsable then exchange env fates draws presented session user
      else throw (.rejected .accountUnavailable)

def rotateSession : Call Digest IssuedTokens := do
  let database ← attempt fates .selectSession rows
  match database.sessions.find? fun row => row.refreshHash == env.sha256 presented.refresh with
  | none => throw (.rejected .unknownToken)
  | some session =>
      if session.rotatedAt.isSome then burnFamily env fates draws presented session
      else if session.revokedAt.isSome then throw (.rejected .revoked)
      else if session.expiresAt ≤ draws.now then throw (.rejected .expired)
      else admitUser env fates draws presented session

end Call

section Attempts
variable {Digest Answer : Type} {fates : Step → Fate} {step : Step} {work : Call Digest Answer}
  {session : Session (Database Digest) Redis}

theorem attempt_fine (fine : fates step = .fine) : attempt fates step work = work := by
  rw [attempt, fine]

variable (work session) in
/-- A step that is not fine ends the call. -/
theorem attempt_ends (broken : fates step ≠ .fine) : ∃ failure after,
    perform (attempt fates step work) session = (.error failure, after) ∧
      (after = session ∨ after = (perform work session).2) := by
  unfold attempt
  cases fate : fates step with
  | fine => exact absurd fate broken
  | failed => exact ⟨.raised, session, rfl, Or.inl rfl⟩
  | unanswered =>
      rcases done : perform work session with ⟨answer, after⟩
      cases answer with
      | ok value =>
          exact ⟨.raised, after, (perform_bind_ok session done).trans rfl,
            Or.inr rfl⟩
      | error failure => exact ⟨failure, after, perform_bind_error session done, Or.inr rfl⟩

theorem attempt_breaks (broken : fates step ≠ .fine) (uncommitting : Uncommitting work) :
    Breaks (attempt fates step work) session := by
  obtain ⟨failure, after, ended, rfl | rfl⟩ := attempt_ends work session broken
  · exact ⟨failure, after, ended, rfl⟩
  · exact ⟨failure, _, ended, uncommitting session⟩

theorem attempt_outward (outward : Outward work) : Outward (attempt fates step work) := by
  intro session
  by_cases fine : fates step = .fine
  · rw [attempt_fine fine]
    exact outward session
  · obtain ⟨failure, after, ended, rfl | rfl⟩ := attempt_ends work session fine
    · exact ⟨after.outside, by rw [ended]⟩
    · rw [ended]
      exact outward session

theorem checked_uncommitting (accepted : Bool) (statement : Database Digest → Database Digest) :
    Uncommitting (executeChecked accepted statement) :=
  uncommitting_checked _ _ _

variable (session) in
/-- A statement succeeds when it is fine and the database accepts it. -/
theorem attempt_checked {accepted : Bool} {statement : Database Digest → Database Digest}
    (fine : fates step = .fine) (accepts : accepted = true) :
    perform (attempt fates step (executeChecked accepted statement)) session =
      (.ok (), { session with working := statement session.working }) := by
  rw [attempt_fine fine, accepts]
  rfl

theorem checked_breaks {accepted : Bool} {statement : Database Digest → Database Digest}
    (broken : ¬(fates step = .fine ∧ accepted = true)) :
    Breaks (attempt fates step (executeChecked accepted statement)) session := by
  by_cases fine : fates step = .fine
  · have refused : accepted = false := by
      cases accepted with
      | true => exact absurd ⟨fine, rfl⟩ broken
      | false => rfl
    rw [attempt_fine fine, refused]
    exact breaks_throw _ session
  · exact attempt_breaks fine (checked_uncommitting _ _)

theorem commit_fine (fine : fates .commit = .fine) :
    perform (attempt fates .commit commit : Call Digest Unit) session =
      (.ok (), { session with committed := session.working }) := by
  rw [attempt_fine fine]
  rfl

variable (session) in
/-- A commit that is not fine may have taken effect. -/
theorem commit_ends (broken : fates .commit ≠ .fine) : ∃ failure after,
    perform (attempt fates .commit commit : Call Digest Unit) session = (.error failure, after) ∧
      (after.committed = session.committed ∨ after.committed = session.working) := by
  obtain ⟨failure, after, ended, rfl | rfl⟩ :=
    attempt_ends (commit : Call Digest Unit) session broken
  · exact ⟨failure, after, ended, Or.inl rfl⟩
  · exact ⟨failure, _, ended, Or.inr rfl⟩

end Attempts

section Reuse
variable {Digest : Type} (env : Environment Digest) (fates : Step → Fate) (draws : Draws)
  (presented : Presented)

theorem mark_outward (session : Uuid) :
    Outward (markRevokedInCache env fates session : Call Digest Unit) :=
  attempt_outward (outward_outside _)

theorem mark_all_outward (sessions : List Uuid) :
    Outward (markAll env fates sessions : Call Digest Unit) := by
  induction sessions with
  | nil => exact outward_pure ()
  | cons session rest ih => exact outward_bind (mark_outward env fates session) fun _ => ih

theorem spread_outward (reason : String) (revoked : List (UserSession Digest)) :
    Outward (spreadRevocation env fates reason revoked) := by
  apply outward_bind (mark_all_outward env fates _)
  intro _
  cases revoked with
  | nil => exact outward_pure ()
  | cons first rest => exact attempt_outward (outward_outside _)

/-- Work outside the database goes on, or it ends the call. -/
theorem outward_cases {work : Call Digest Unit} (outward : Outward work)
    (session : Session (Database Digest) Redis) :
    Breaks work session ∨ ∃ redis, perform work session = (.ok (), { session with outside := redis }) := by
  obtain ⟨redis, same⟩ := outward session
  rcases done : perform work session with ⟨answer, after⟩
  obtain rfl : after = { session with outside := redis } := by rwa [done] at same
  cases answer with
  | ok => exact Or.inr ⟨redis, rfl⟩
  | error failure => exact Or.inl ⟨failure, _, done, rfl⟩

theorem revoke_family_outcome (family : Uuid) (reason : String)
    (session : Session (Database Digest) Redis) :
    Breaks (revokeFamily env fates draws family reason) session ∨ ∃ redis,
      perform (revokeFamily env fates draws family reason) session =
        (.ok (), ⟨session.committed, revokeRows draws.revokedAt family reason session.working,
          redis⟩) := by
  by_cases fine : fates .revokeFamily = .fine
  · have updated : perform (attempt fates .revokeFamily (do
        let database ← rows
        execute (revokeRows draws.revokedAt family reason)
        return revokedRows family database) : Call Digest (List (UserSession Digest))) session =
        (.ok (revokedRows family session.working), ⟨session.committed,
          revokeRows draws.revokedAt family reason session.working, session.outside⟩) := by
      rw [attempt_fine fine]
      rfl
    rcases outward_cases (spread_outward env fates reason (revokedRows family session.working))
      ⟨session.committed, revokeRows draws.revokedAt family reason session.working,
        session.outside⟩ with broken | ⟨redis, spread⟩
    · exact Or.inl (breaks_after updated rfl broken)
    · exact Or.inr ⟨redis, (perform_bind_ok session updated).trans spread⟩
  · refine Or.inl (breaks_bind (attempt_breaks fine ?_))
    exact fun session => rfl

/-- The database after a detected reuse. -/
def burned (session : UserSession Digest) (database : Database Digest) : Database Digest :=
  let revoked := revokeRows draws.revokedAt session.familyId "refresh_reuse_detected" database
  { revoked with
    securityEvents := revoked.securityEvents ++
      [(presented.requestId, reuseEvent presented session)] }

/-- A detected reuse ends in an exception; the family is burned as a whole, or
nothing is. -/
theorem burn_outcome (Answer : Type) (session : UserSession Digest) (database : Database Digest)
    (redis : Redis) : ∃ failure after,
      perform (burnFamily env fates draws presented session : Call Digest Answer)
        ⟨database, database, redis⟩ = (.error failure, after) ∧
      (after.committed = database ∨
        after.committed = burned draws presented session database) := by
  have unchanged : Breaks (burnFamily env fates draws presented session : Call Digest Answer)
      ⟨database, database, redis⟩ → ∃ failure after,
      perform (burnFamily env fates draws presented session : Call Digest Answer)
        ⟨database, database, redis⟩ = (.error failure, after) ∧
      (after.committed = database ∨
        after.committed = burned draws presented session database) := by
    rintro ⟨failure, after, ended, kept⟩
    exact ⟨failure, after, ended, Or.inl kept⟩
  rcases revoke_family_outcome env fates draws session.familyId "refresh_reuse_detected"
    ⟨database, database, redis⟩ with broken | ⟨after, revoked⟩
  · exact unchanged (breaks_bind broken)
  · by_cases recorded : fates .recordSecurity = .fine ∧ (presented.ip.all env.isInet) = true
    · let written : Session (Database Digest) Redis :=
        ⟨database, burned draws presented session database, after⟩
      have event : perform (attempt fates .recordSecurity
          (recordSecurity env presented (reuseEvent presented session)))
          ⟨database, revokeRows draws.revokedAt session.familyId "refresh_reuse_detected" database,
            after⟩ = (.ok (), written) := attempt_checked _ recorded.1 recorded.2
      have onward : perform (burnFamily env fates draws presented session : Call Digest Answer)
          ⟨database, database, redis⟩ = perform (attempt fates .commit commit >>= fun _ =>
            throw (.rejected .reuseDetected) : Call Digest Answer) written :=
        (perform_bind_ok _ revoked).trans (perform_bind_ok _ event)
      rw [onward]
      by_cases fine : fates .commit = .fine
      · exact ⟨_, _, (perform_bind_ok written (commit_fine fine)).trans rfl, Or.inr rfl⟩
      · obtain ⟨failure, final, ended, durable⟩ := commit_ends written fine
        exact ⟨failure, final, perform_bind_error written ended, durable⟩
    · exact unchanged (breaks_after revoked rfl (breaks_bind (checked_breaks recorded)))

end Reuse

section Settling
variable {Digest : Type} {env : Environment Digest} {fates : Step → Fate} {draws : Draws}
  {row : UserSession Digest} {user : User Digest} {session : Session (Database Digest) Redis}

variable (env draws user session) in
theorem settle_answers (committed : fates .commit = .fine) (marked : fates (.mark row.id) = .fine) :
    ∃ after, perform (settle env fates draws row user) session =
      (.ok (issued env draws row user), after) := by
  rw [settle, perform_bind_ok session (commit_fine committed), markRevokedInCache,
    attempt_fine marked]
  exact ⟨_, rfl⟩

variable (env draws row user session) in
theorem settle_breaks (failed : fates .commit = .failed) :
    Breaks (settle env fates draws row user) session := by
  apply breaks_bind
  rw [attempt, failed]
  exact breaks_throw _ session

variable (env draws user session) in
/-- The exchange is durable, and the caller gets an exception. -/
theorem settle_loses (effective : fates .commit ≠ .failed)
    (lost : ¬(fates .commit = .fine ∧ fates (.mark row.id) = .fine)) : ∃ failure after,
    perform (settle env fates draws row user) session = (.error failure, after) ∧
      after.committed = session.working := by
  cases fate : fates .commit with
  | failed => exact absurd fate effective
  | unanswered =>
      have ended : perform (attempt fates .commit commit : Call Digest Unit) session =
          (.error .raised, { session with committed := session.working }) := by
        rw [attempt, fate]
        rfl
      exact ⟨.raised, _, perform_bind_error session ended, rfl⟩
  | fine =>
      have unmarked : fates (.mark row.id) ≠ .fine := fun marked => lost ⟨fate, marked⟩
      let durable : Session (Database Digest) Redis :=
        { session with committed := session.working }
      obtain ⟨failure, after, ended, kept⟩ : Breaks (markRevokedInCache env fates row.id) durable :=
        attempt_breaks unmarked fun _ => rfl
      refine ⟨failure, after, ?_, kept⟩
      rw [settle, perform_bind_ok session (commit_fine fate)]
      exact perform_bind_error durable ended

end Settling

section Rotation
variable {Digest : Type} [DecidableEq Digest] (env : Environment Digest) (fates : Step → Fate)
  (draws : Draws) (presented : Presented) (database : Database Digest) (redis : Redis)

/-- The session row of the presented token. -/
def presentedRow : Option (UserSession Digest) :=
  database.sessions.find? fun row => row.refreshHash == env.sha256 presented.refresh

/-- The call comes to the commit of an exchange. -/
structure Prepared (row : UserSession Digest) (user : User Digest) : Prop where
  selected : fates .selectSession = .fine
  found : presentedRow env presented database = some row
  unspent : row.rotatedAt = none
  unrevoked : row.revokedAt = none
  current : draws.now < row.expiresAt
  asked : fates .selectUser = .fine
  owner : database.users.find? (fun user => user.id == row.userId) = some user
  usable : user.isUsable = true
  flushed : fates .flush = .fine
  unique : conflicts (successorOf env draws row) database = false
  touched : fates .touchDevice = .fine
  addressed : presented.ip.all env.isInet = true

/-- The database with the exchange. -/
def exchanged (row : UserSession Digest) : Database Digest :=
  touchRow draws presented row.deviceId
    (spendRow draws.now row (successorOf env draws row) database)

variable {env fates draws presented database redis} {row : UserSession Digest} {user : User Digest}

theorem flush_staged (flushed : fates .flush = .fine)
    (unique : conflicts (successorOf env draws row) database = false) :
    perform (attempt fates .flush (flush draws row (successorOf env draws row)))
      ⟨database, database, redis⟩ =
      (.ok (), ⟨database, spendRow draws.now row (successorOf env draws row) database, redis⟩) := by
  rw [attempt_fine flushed, flush, perform_bind_ok _ (perform_rows _), executeChecked, unique]
  rfl

theorem flush_breaks (broken : ¬(fates .flush = .fine ∧
      conflicts (successorOf env draws row) database = false)) :
    Breaks (attempt fates .flush (flush draws row (successorOf env draws row)))
      ⟨database, database, redis⟩ := by
  by_cases fine : fates .flush = .fine
  · have refused : conflicts (successorOf env draws row) database = true := by
      rw [← Bool.not_eq_false]
      exact fun unique => broken ⟨fine, unique⟩
    rw [attempt_fine fine]
    refine breaks_after (perform_rows _) rfl ?_
    rw [executeChecked, refused]
    exact breaks_throw _ _
  · exact attempt_breaks fine (uncommitting_bind (fun _ => rfl) fun _ => checked_uncommitting _ _)

theorem exchange_staged (flushed : fates .flush = .fine)
    (unique : conflicts (successorOf env draws row) database = false)
    (touched : fates .touchDevice = .fine) (addressed : presented.ip.all env.isInet = true) :
    perform (exchange env fates draws presented row user) ⟨database, database, redis⟩ =
      perform (settle env fates draws row user)
        ⟨database, exchanged env draws presented database row, redis⟩ := by
  rw [exchange, perform_bind_ok _ (flush_staged flushed unique),
    perform_bind_ok _ (attempt_checked _ touched addressed)]
  rfl

variable (env fates draws presented database redis row user) in
/-- An exchange that does not come to its commit leaves nothing. -/
theorem exchange_cases : Breaks (exchange env fates draws presented row user)
      ⟨database, database, redis⟩ ∨
    (fates .flush = .fine ∧ conflicts (successorOf env draws row) database = false) ∧
      fates .touchDevice = .fine ∧ presented.ip.all env.isInet = true := by
  by_cases staged : fates .flush = .fine ∧ conflicts (successorOf env draws row) database = false
  · by_cases touched : fates .touchDevice = .fine ∧ presented.ip.all env.isInet = true
    · exact Or.inr ⟨staged, touched⟩
    · exact Or.inl (breaks_after (flush_staged staged.1 staged.2) rfl
        (breaks_bind (checked_breaks touched)))
  · exact Or.inl (breaks_bind (flush_breaks staged))

omit [DecidableEq Digest] in
theorem read_fine {step : Step} (fine : fates step = .fine)
    (session : Session (Database Digest) Redis) :
    perform (attempt fates step rows) session = (.ok session.working, session) := by
  rw [attempt_fine fine]
  rfl

variable (redis) in
/-- What is left of a call whose row can be exchanged. -/
theorem admit_cases (selected : fates .selectSession = .fine)
    (found : presentedRow env presented database = some row) (unspent : row.rotatedAt = none)
    (unrevoked : row.revokedAt = none) (current : draws.now < row.expiresAt) :
    Breaks (admitUser env fates draws presented row) ⟨database, database, redis⟩ ∨
      ∃ user, Prepared env fates draws presented database row user := by
  by_cases asked : fates .selectUser = .fine
  · have read := read_fine asked (⟨database, database, redis⟩ : Session (Database Digest) Redis)
    cases owner : database.users.find? fun user => user.id == row.userId with
    | none =>
        refine Or.inl (breaks_after read rfl ?_)
        simp only [owner]
        exact breaks_throw _ _
    | some user =>
        cases usable : user.isUsable with
        | false =>
            refine Or.inl (breaks_after read rfl ?_)
            simp only [owner, usable]
            exact breaks_throw _ _
        | true =>
            rcases exchange_cases env fates draws presented database redis row user with
              broken | ⟨flushed, touched⟩
            · refine Or.inl (breaks_after read rfl ?_)
              simp only [owner, usable]
              exact broken
            · exact Or.inr ⟨user, selected, found, unspent, unrevoked, current, asked, owner, usable,
                flushed.1, flushed.2, touched.1, touched.2⟩
  · exact Or.inl (breaks_bind (attempt_breaks asked fun _ => rfl))

/-- What the call does with the row that it has read. -/
theorem rotate_row (selected : fates .selectSession = .fine)
    (found : presentedRow env presented database = some row) :
    perform (rotateSession env fates draws presented) ⟨database, database, redis⟩ =
      perform (if row.rotatedAt.isSome then burnFamily env fates draws presented row
        else if row.revokedAt.isSome then throw (.rejected .revoked)
        else if row.expiresAt ≤ draws.now then throw (.rejected .expired)
        else admitUser env fates draws presented row) ⟨database, database, redis⟩ := by
  have listed : database.sessions.find? (fun row =>
    row.refreshHash == env.sha256 presented.refresh) = some row := found
  rw [rotateSession, perform_bind_ok _ (read_fine selected _)]
  simp only [listed]

theorem rotate_prepared (prepared : Prepared env fates draws presented database row user) :
    perform (rotateSession env fates draws presented) ⟨database, database, redis⟩ =
      perform (settle env fates draws row user)
        ⟨database, exchanged env draws presented database row, redis⟩ := by
  have unspent : ¬row.rotatedAt.isSome = true := by simp [prepared.unspent]
  have unrevoked : ¬row.revokedAt.isSome = true := by simp [prepared.unrevoked]
  have current : ¬row.expiresAt ≤ draws.now := Nat.not_le.mpr prepared.current
  rw [rotate_row prepared.selected prepared.found, if_neg unspent, if_neg unrevoked, if_neg current,
    admitUser, perform_bind_ok _ (read_fine prepared.asked _)]
  simp only [prepared.owner, prepared.usable, if_true]
  exact exchange_staged prepared.flushed prepared.unique prepared.touched prepared.addressed

/-- A row that is not spent is exchanged, or nothing is left of the call. -/
theorem unspent_cases (selected : fates .selectSession = .fine)
    (found : presentedRow env presented database = some row) (unspent : row.rotatedAt = none) :
    Breaks (rotateSession env fates draws presented) ⟨database, database, redis⟩ ∨
      ∃ user, Prepared env fates draws presented database row user := by
  rw [Breaks, rotate_row selected found, if_neg (by simp [unspent])]
  cases revoked : row.revokedAt with
  | some revokedAt => exact Or.inl (breaks_throw _ _)
  | none =>
      by_cases expired : row.expiresAt ≤ draws.now
      · refine Or.inl ?_
        rw [if_neg (by simp), if_pos expired]
        exact breaks_throw _ _
      · rw [if_neg (by simp), if_neg expired]
        exact admit_cases redis selected found unspent revoked (Nat.not_le.mp expired)

variable (env fates draws presented database redis) in
/-- All that a call can come to. -/
theorem rotate_outcome :
    Breaks (rotateSession env fates draws presented) ⟨database, database, redis⟩ ∨
    (∃ row, presentedRow env presented database = some row ∧ row.rotatedAt.isSome = true ∧
      ∃ failure after, perform (rotateSession env fates draws presented)
          ⟨database, database, redis⟩ = (.error failure, after) ∧
        (after.committed = database ∨ after.committed = burned draws presented row database)) ∨
    ∃ row user, Prepared env fates draws presented database row user := by
  by_cases selected : fates .selectSession = .fine
  · cases found : presentedRow env presented database with
    | none =>
        refine Or.inl (breaks_after (read_fine selected _) rfl ?_)
        unfold presentedRow at found
        simp only [found]
        exact breaks_throw _ _
    | some row =>
        cases spent : row.rotatedAt with
        | some rotated =>
            have reused : row.rotatedAt.isSome = true := by rw [spent]; rfl
            obtain ⟨failure, after, ended, durable⟩ :=
              burn_outcome env fates draws presented IssuedTokens row database redis
            refine Or.inr (Or.inl ⟨row, rfl, reused, failure, after, ?_, durable⟩)
            rw [rotate_row selected found, if_pos reused]
            exact ended
        | none =>
            rcases unspent_cases selected found spent with broken | ⟨user, prepared⟩
            · exact Or.inl broken
            · exact Or.inr (Or.inr ⟨row, user, prepared⟩)
  · exact Or.inl (breaks_bind (attempt_breaks selected fun _ => rfl))

variable (env draws presented database)

/-- After an exception the database is as it was, or a token that was already
exchanged has been presented and its family is burned. -/
def KeepsToken (result : Except Failure IssuedTokens × Database Digest × Redis) : Prop :=
  ∀ failure, result.1 = .error failure → result.2.1 = database ∨
    ∃ row, presentedRow env presented database = some row ∧ row.rotatedAt.isSome = true ∧
      result.2.1 = burned draws presented row database

variable (fates redis)

/-- An exception leaves the token as it was exactly when a prepared exchange is
either not committed, or committed with an answer and then marked. -/
theorem rotation_keeps_iff :
    KeepsToken env draws presented database
        (withSession (rotateSession env fates draws presented) database redis) ↔
      ∀ row user, Prepared env fates draws presented database row user →
        fates .commit = .failed ∨ fates .commit = .fine ∧ fates (.mark row.id) = .fine := by
  constructor
  · intro keeps row user prepared
    by_contra lost
    rw [not_or] at lost
    obtain ⟨failure, after, ended, durable⟩ := settle_loses env draws user
      ⟨database, exchanged env draws presented database row, redis⟩ lost.1 lost.2
    have ran := (rotate_prepared prepared).trans ended
    have kept := keeps failure (by rw [withSession, ran])
    rw [withSession, ran] at kept
    rcases kept with unchanged | ⟨other, found, spent, _⟩
    · have same : exchanged env draws presented database row = database := durable.symm.trans unchanged
      have lengths := congrArg (fun database => database.sessions.length) same
      simp [exchanged, touchRow, spendRow] at lengths
    · obtain rfl : row = other := Option.some.inj (prepared.found.symm.trans found)
      rw [prepared.unspent] at spent
      cases spent
  · intro settles failure raised
    rcases rotate_outcome env fates draws presented database redis with
      ⟨_, after, ended, kept⟩ | ⟨row, found, spent, _, after, ended, durable⟩ | ⟨row, user, prepared⟩
    · rw [withSession, ended]
      exact Or.inl kept
    · rw [withSession, ended]
      exact durable.imp id fun same => ⟨row, found, spent, same⟩
    · rcases settles row user prepared with failed | ⟨committed, marked⟩
      · obtain ⟨_, after, ended, kept⟩ := settle_breaks env draws row user
          ⟨database, exchanged env draws presented database row, redis⟩ failed
        rw [withSession, rotate_prepared prepared, ended]
        exact Or.inl kept
      · obtain ⟨after, answered⟩ := settle_answers env draws user
          ⟨database, exchanged env draws presented database row, redis⟩ committed marked
        rw [withSession, rotate_prepared prepared, answered] at raised
        cases raised

end Rotation

/-- Login gave this token; Redis is away when the session is marked. -/
def onlySession : UserSession String :=
  SessionStore.newSession 1 4 7 9 "first" 2000

def unmarked : Step → Fate
  | .mark _ => .failed
  | _ => .fine

theorem token_spent : ¬∀ (env : Environment String) (fates : Step → Fate) (draws : Draws)
    (presented : Presented) (database : Database String) (redis : Redis),
    KeepsToken env draws presented database
      (withSession (rotateSession env fates draws presented) database redis) := by
  intro claimed
  let env : Environment String :=
    { sha256 := id, jwt := ⟨fun _ => "", fun _ _ => none⟩, tokens := ⟨900, 2592000⟩
      isInet := fun _ => true }
  let draws : Draws := ⟨1000, 1000, 1000, 2, "second"⟩
  let presented : Presented := ⟨"first", some "10.0.0.1", none⟩
  let database : Database String :=
    { sessions := [onlySession], users := [⟨4, "", "0000", "IN", "A", .user, .active, none⟩]
      devices := [⟨7, none, none⟩], securityEvents := [] }
  rcases claimed env unmarked draws presented database {} .raised rfl with
    unchanged | ⟨row, found, spent, _⟩
  · have lengths : 2 = 1 := congrArg (fun database => database.sessions.length) unchanged
    cases lengths
  · obtain rfl : onlySession = row := Option.some.inj found
    cases spent

end RunnerupChat.RotationFaults
