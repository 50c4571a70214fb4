import RunnerupChat.AccessTokens
import RunnerupChat.OtpStore
import RunnerupChat.UnitOfWork

/-!
`POST /auth/otp/verify` over its database session: `verify_otp`, the
`verify_challenge` and `create_session` it calls, and the audit writers.
-/

namespace RunnerupChat.OtpLogin

open Accounts RateLimit OtpStore UnitOfWork

inductive Severity where
  | info | warning | critical
  deriving DecidableEq

inductive Detail where
  | null
  | text (value : String)
  | number (value : Nat)
  deriving DecidableEq

def Detail.ofNumber : Option Nat → Detail
  | none => .null
  | some value => .number value

structure SecurityEvent where
  event : String
  severity : Severity := .warning
  userId : Option Uuid := none
  sessionId : Option Uuid := none
  deviceId : Option Uuid := none
  ip : Option String := none
  detail : List (String × Detail) := []
  deriving DecidableEq

structure AuditLog where
  action : String
  actorId : Option Uuid := none
  actorRole : Option SystemRole := none
  targetType : Option String := none
  targetId : Option String := none
  ip : Option String := none
  metadata : List (String × Detail) := []
  deriving DecidableEq

structure DeviceRow extends SessionStore.UserDevice where
  platform : String
  displayLabel : String
  ipFirstSeen : Option String
  ipLastSeen : Option String
  deriving DecidableEq

/-- Each evidence row comes with the id of the request that wrote it. -/
structure Database (Digest : Type) where
  challenges : List (OtpChallenge Digest)
  users : List (User Digest)
  devices : List DeviceRow
  sessions : List (SessionStore.UserSession Digest)
  auditLogs : List (Option String × AuditLog)
  securityEvents : List (Option String × SecurityEvent)

/-- Redis: the rate-limit buckets and what was published, by channel. -/
structure Services where
  limiter : Store
  published : List (String × String)

inductive Failure where
  | app (error : AppError)
  /-- A statement the database rejects: a value out of range, a failed check. -/
  | database
  deriving DecidableEq

/-- The code a request runs in: its libraries and settings. `isInet` is the
input check of PostgreSQL's `INET`. -/
structure Environment (Digest : Type) where
  crypto : Crypto Digest
  jwt : AccessTokens.Jwt
  tokens : AccessTokens.Settings
  normalizePhone : String → Option String → Option String
  countryCode : String → String
  isInet : String → Bool
  cookieSecure : Bool

structure OtpVerifyIn where
  challengeId : String
  code : String
  phone : String
  region : Option String := none
  platform : String := "WEB"

/-- What a handler reads of the request besides its body. -/
structure RequestInfo where
  requestId : Option String
  clientIp : Option String
  userAgent : Option String

/-- The clock readings and random values of one call, in order. -/
structure Draws where
  phoneLimitMs : Nat
  ipLimitMs : Nat
  verifiedAt : Time
  userId : Uuid
  deviceId : Uuid
  refreshToken : String
  familyId : Uuid
  createdAt : Time
  sessionId : Uuid
  mintedAt : Time
  csrfToken : String

structure IssuedTokens where
  accessToken : String
  refreshToken : String
  sessionId : Uuid
  deviceId : Uuid
  expiresIn : Nat
  userId : Uuid
  displayName : String

structure Cookie where
  name : String
  value : String
  httpOnly : Bool
  secure : Bool
  sameSite : String
  path : String
  maxAge : Nat

structure SessionOut where
  accessToken : String
  expiresIn : Nat
  userId : String
  displayName : String
  isNewAccount : Bool
  cookies : List Cookie

section Handlers
variable {Digest : Type}

/-- Work of a handler. -/
abbrev Handler (Digest : Type) := Work (Database Digest) Services Failure

def platforms : List String := ["WEB", "IOS", "ANDROID", "DESKTOP", "UNKNOWN"]

/-- A statement with a condition the database checks. -/
def executeChecked (accepted : Bool) (statement : Database Digest → Database Digest) :
    Handler Digest Unit :=
  if accepted then execute statement else throw .database

def inetAccepted (environment : Environment Digest) (ip : Option String) : Bool :=
  ip.all environment.isInet

def recordAudit (environment : Environment Digest) (request : RequestInfo) (entry : AuditLog) :
    Handler Digest Unit :=
  executeChecked (inetAccepted environment entry.ip) fun database =>
    { database with auditLogs := database.auditLogs ++ [(request.requestId, entry)] }

def recordSecurity (environment : Environment Digest) (request : RequestInfo)
    (entry : SecurityEvent) : Handler Digest Unit :=
  executeChecked (inetAccepted environment entry.ip) fun database =>
    { database with securityEvents := database.securityEvents ++ [(request.requestId, entry)] }

def enforceLimit (name : LimitName) (identity : String) (nowMs : Nat) : Handler Digest Unit :=
  outside fun services =>
    match enforce services.limiter name identity nowMs with
    | (.ok (), limiter) => (.ok (), { services with limiter := limiter })
    | (.error refused, limiter) =>
        (.error (.app (.rateLimited refused.retryAfter)), { services with limiter := limiter })

/-- The changed row is written when its transaction commits. -/
def saveChallenge (row : OtpChallenge Digest) : Handler Digest Unit :=
  executeChecked (row.attempts ≤ smallintMax) fun database =>
    { database with
      challenges := database.challenges.map fun other => if other.id = row.id then row else other }

variable [DecidableEq Digest]

def findChallenge (crypto : Crypto Digest) (database : Database Digest)
    (challengeId phone : String) :
    Option (OtpChallenge Digest) :=
  (crypto.parseUuid challengeId).bind fun id =>
    database.challenges.find? fun row =>
      row.id == id && row.phoneHash == phoneFingerprint crypto phone

/-- `verify_challenge` from the row lock on. -/
def settleChallenge (environment : Environment Digest) (request : RequestInfo)
    (challengeId code : String) (now : Time) (row : OtpChallenge Digest) :
    Handler Digest (OtpResult × Bool) := do
  let burned := burn row
  let codeMatches := row.codeHash == hashOtp environment.crypto row.id code
  match judge burned now codeMatches with
  | .replay =>
      saveChallenge burned
      commit
      -- this row is in a new transaction, which nothing commits
      recordSecurity environment request
        { event := "otp_replay_attempt", ip := request.clientIp,
          detail := [("challenge_id", .text challengeId)] }
      return (.invalid, false)
  | .expired =>
      saveChallenge burned
      commit
      return (.expired, false)
  | .exhausted =>
      saveChallenge (consume now burned)
      commit
      recordSecurity environment request
        { event := "otp_attempts_exhausted", ip := request.clientIp,
          detail := [("challenge_id", .text challengeId)] }
      return (.exhausted, false)
  | .wrongCode =>
      saveChallenge burned
      commit
      recordSecurity environment request
        { event := "otp_invalid", severity := .info, ip := request.clientIp,
          detail := [("attempt", .number burned.attempts)] }
      return (.invalid, false)
  | .accepted =>
      saveChallenge (consume now burned)
      commit
      return (.ok, true)

/-- The two budgets of `verify_challenge`. -/
def enforceVerifyLimits (environment : Environment Digest) (request : RequestInfo) (draws : Draws)
    (phone : String) : Handler Digest Unit := do
  enforceLimit .otpVerifyPhone
    (environment.crypto.hex (phoneFingerprint environment.crypto phone)) draws.phoneLimitMs
  match request.clientIp.filter (· ≠ "") with
  | none => pure ()
  | some address => enforceLimit .otpVerifyIp address draws.ipLimitMs

def verifyChallenge (environment : Environment Digest) (request : RequestInfo) (draws : Draws)
    (challengeId code phone : String) : Handler Digest (OtpResult × Bool) := do
  enforceVerifyLimits environment request draws phone
  match findChallenge environment.crypto (← rows) challengeId phone with
  | none => return (.invalid, false)
  | some row => settleChallenge environment request challengeId code draws.verifiedAt row

def nameOf (names : List (String × String)) (found : String) : Option String :=
  (names.find? fun entry => entry.1 == found).map Prod.snd

def occursIn (text : String) (word : String) : Bool :=
  decide (word.toList <:+: text.toList)

def deviceLabel (userAgent : Option String) : String :=
  let agent := (userAgent.getD "").toLower
  let browser := ["firefox", "edg", "chrome", "safari"].find? (occursIn agent)
  let system :=
    ["windows", "android", "iphone", "ipad", "mac", "linux"].find? (occursIn agent)
  let names :=
    [("edg", "Edge"), ("chrome", "Chrome"), ("safari", "Safari"), ("firefox", "Firefox")]
  let systems :=
    [("windows", "Windows"), ("android", "Android"), ("iphone", "iPhone"), ("ipad", "iPad"),
      ("mac", "macOS"), ("linux", "Linux")]
  match browser.bind (nameOf names), system.bind (nameOf systems) with
  | some left, some right => left ++ " on " ++ right
  | _, some right => right
  | _, none => "Unknown device"

def userChannel (user : Uuid) : String := "user:" ++ toString user

def publish (channel payload : String) : Handler Digest Unit :=
  outside fun services =>
    (.ok (), { services with published := services.published ++ [(channel, payload)] })

def refreshUnused (environment : Environment Digest) (draws : Draws)
    (sessions : List (SessionStore.UserSession Digest)) : Bool :=
  sessions.all fun session =>
    session.refreshHash != environment.crypto.sha256 draws.refreshToken

def createSession (environment : Environment Digest) (request : RequestInfo) (draws : Draws)
    (user : User Digest) (platform label : String) (existing : Option Uuid) :
    Handler Digest IssuedTokens := do
  let known := (← rows).devices.map DeviceRow.toUserDevice
  let device ← match SessionStore.existingDevice known user.id existing with
    | some found => pure found.id
    | none => do
        executeChecked (platforms.contains platform && inetAccepted environment request.clientIp)
          fun database => { database with
            devices := database.devices ++
              [⟨⟨draws.deviceId, user.id, none⟩, platform, label, request.clientIp,
                request.clientIp⟩] }
        pure draws.deviceId
  let expiresAt := draws.createdAt + environment.tokens.refreshTokenTtlSeconds * second
  -- `refresh_hash` is a unique column
  executeChecked (refreshUnused environment draws (← rows).sessions) fun database => { database with
    sessions := database.sessions ++
      [SessionStore.newSession draws.sessionId user.id device draws.familyId
        (environment.crypto.sha256 draws.refreshToken) expiresAt] }
  let access := environment.jwt.encode (AccessTokens.mintAccessToken environment.tokens
    draws.mintedAt user.id draws.sessionId device user.systemRole)
  recordAudit environment request
    { action := "session.created", actorId := some user.id, actorRole := some user.systemRole,
      targetType := some "session", targetId := some (toString draws.sessionId),
      ip := request.clientIp, metadata := [("platform", .text platform)] }
  commit
  publish (userChannel user.id)
    ("\x7b\"type\":\"session.created\",\"device_id\":\"" ++ toString device ++ "\"\x7d")
  return ⟨access, draws.refreshToken, draws.sessionId, device,
    environment.tokens.accessTokenTtlSeconds, user.id, user.displayName⟩

def setAuthCookies (environment : Environment Digest) (refreshToken csrf : String) : List Cookie :=
  [⟨"refresh_token", refreshToken, true, environment.cookieSecure, "strict", "/api/v1/auth",
      environment.tokens.refreshTokenTtlSeconds⟩,
    ⟨"csrf_token", csrf, false, environment.cookieSecure, "strict", "/",
      environment.tokens.refreshTokenTtlSeconds⟩]

/-- The last `count` characters. -/
def lastChars (count : Nat) (text : String) : String :=
  String.ofList (text.toList.drop (text.length - count))

def AccountState.text : AccountState → String
  | .active => "ACTIVE"
  | .restricted => "RESTRICTED"
  | .suspended => "SUSPENDED"
  | .deleted => "DELETED"

/-- The row a first login inserts. -/
def newUser (environment : Environment Digest) (id : Uuid) (phone : String) : User Digest :=
  { id := id, phoneHash := phoneFingerprint environment.crypto phone,
    phoneLast4 := lastChars 4 phone, phoneCountry := environment.countryCode phone,
    displayName := "User " ++ lastChars 4 phone, systemRole := .user, accountState := .active,
    deletedAt := none }

/-- The checks of the columns a login fills. -/
def userFits (user : User Digest) : Bool :=
  decide (2 ≤ user.phoneLast4.length ∧ user.phoneLast4.length ≤ 4) &&
    user.phoneLast4.toList.all Char.isDigit &&
    decide (1 ≤ user.phoneCountry.length ∧ user.phoneCountry.length ≤ 4) &&
    decide (1 ≤ user.displayName.length ∧ user.displayName.length ≤ 64)

/-- The account of a verified number: a new one, or one that may log in. -/
def loginUser (environment : Environment Digest) (request : RequestInfo) (draws : Draws)
    (phone : String) : Handler Digest (User Digest × Bool) := do
  let fingerprint := phoneFingerprint environment.crypto phone
  match (← rows).users.find? fun user => user.phoneHash == fingerprint with
  | none =>
      let user := newUser environment draws.userId phone
      executeChecked (userFits user) fun database =>
        { database with users := database.users ++ [user] }
      recordAudit environment request
        { action := "user.registered", actorId := some user.id, targetType := some "user",
          targetId := some (toString user.id), ip := request.clientIp }
      return (user, true)
  | some user =>
      if user.isUsable then return (user, false)
      else
        -- here the route commits what it records before it refuses
        recordSecurity environment request
          { event := "login_blocked_account_state", userId := some user.id,
            ip := request.clientIp
            detail := [("state", .text (AccountState.text user.accountState))] }
        commit
        throw (.app (.notAuthenticated "verification_failed"))

def verifyOtp (environment : Environment Digest) (request : RequestInfo) (draws : Draws)
    (payload : OtpVerifyIn) : Handler Digest SessionOut := do
  match environment.normalizePhone payload.phone payload.region with
  | none => throw (.app (.validationFailed "invalid_phone"))
  | some phone =>
      let (_, consumed) ←
        verifyChallenge environment request draws payload.challengeId payload.code phone
      -- the result is dropped: every refusal is the same error
      if !consumed then throw (.app (.notAuthenticated "verification_failed"))
      let (user, isNew) ← loginUser environment request draws phone
      let tokens ← createSession environment request draws user payload.platform
        (deviceLabel request.userAgent) none
      return {
        accessToken := tokens.accessToken, expiresIn := tokens.expiresIn,
        userId := toString user.id, displayName := user.displayName, isNewAccount := isNew,
        cookies := setAuthCookies environment tokens.refreshToken draws.csrfToken }

/-- The whole request, with the session `get_db` gives it. -/
def postVerify (environment : Environment Digest) (request : RequestInfo) (draws : Draws)
    (payload : OtpVerifyIn) (database : Database Digest) (services : Services) :
    Except Failure SessionOut × Database Digest × Services :=
  withSession (verifyOtp environment request draws payload) database services

end Handlers

end RunnerupChat.OtpLogin
