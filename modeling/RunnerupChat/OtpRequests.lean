import RunnerupChat.OtpConsumption

/-!
The one-time codes from request to login: `POST /auth/otp/request` with the
`issue_challenge` and `send_sms` behind it, `POST /auth/otp/verify`, and the
worker's `purge_expired_otp`, as calls served one after the other.
-/

namespace RunnerupChat.OtpRequests

open Accounts RateLimit OtpStore OtpLogin OtpAudit OtpConsumption UnitOfWork

/-- `numeric_otp`, from what `secrets.randbelow(10 ** digits)` returned. -/
def numericOtp (digits draw : Nat) : String :=
  let text := toString draw
  String.ofList (List.replicate (digits - text.length) '0') ++ text

structure OtpRequestIn where
  phone : String
  region : Option String := none

structure OtpRequestOut where
  challengeId : String
  expiresIn : Nat
  deriving DecidableEq

structure SmsSettings where
  smsProvider : String
  isProduction : Bool

/-- How the provider's request ended. One that fails may have been taken. -/
inductive Dispatch where
  | answered
  | failed (taken : Bool)

/-- The clock readings and random values of one request, in order. -/
structure RequestDraws where
  phoneLimitMs : Nat
  ipLimitMs : Nat
  supersededAt : Time
  challengeId : Uuid
  code : Nat
  issuedAt : Time
  dispatch : Dispatch

inductive RequestFailure where
  | handler (failure : Failure)
  /-- A `RuntimeError` of `send_sms`. -/
  | runtime (text : String)
  deriving DecidableEq

/-- What the code runs in, and the texts handed to the network or the console. -/
structure System (Digest : Type) where
  database : Database Digest
  services : Services
  texts : List (String × String)

inductive Call where
  | request (request : RequestInfo) (draws : RequestDraws) (payload : OtpRequestIn)
  | verify (request : RequestInfo) (draws : Draws) (payload : OtpVerifyIn)
  | purge (now : Time)

inductive Reply where
  | requested (answer : Except RequestFailure OtpRequestOut)
  | verified (answer : Except Failure SessionOut)
  | purged

/-- The challenge id that a call draws. -/
def Call.drawn : Call → Option Uuid
  | .request _ draws _ => some draws.challengeId
  | .verify _ _ _ | .purge _ => none

def smsBody (code : String) : String := code ++ " is your verification code."

def sendSms (settings : SmsSettings) (dispatch : Dispatch) (phone code : String)
    (texts : List (String × String)) : Except RequestFailure Unit × List (String × String) :=
  if settings.smsProvider = "console" then
    if settings.isProduction then
      (.error (.runtime "console SMS provider must never run in production"), texts)
    else (.ok (), texts ++ [(phone, "[dev-sms] " ++ phone ++ " -> " ++ code)])
  else
    match dispatch with
    | .answered => (.ok (), texts ++ [(phone, smsBody code)])
    | .failed taken =>
        (.error (.runtime "sms_dispatch_failed"),
          if taken then texts ++ [(phone, smsBody code)] else texts)

section Handlers
variable {Digest : Type} [DecidableEq Digest]

/-- The `UPDATE` that supersedes the outstanding challenges of the number. -/
def supersede (crypto : Crypto Digest) (phone : String) (now : Time) (database : Database Digest) :
    Database Digest :=
  { database with
    challenges := database.challenges.map fun row =>
      if row.phoneHash == phoneFingerprint crypto phone && row.unconsumed then consume now row
      else row }

def challengeRow (environment : Environment Digest) (settings : Settings) (request : RequestInfo)
    (draws : RequestDraws) (phone : String) : OtpChallenge Digest :=
  newChallenge environment.crypto settings draws.challengeId phone (numericOtp 6 draws.code)
    request.clientIp request.userAgent draws.issuedAt

/-- The primary key, the `INET` column and the `SMALLINT` one. -/
def challengeFits (environment : Environment Digest) (row : OtpChallenge Digest)
    (database : Database Digest) : Bool :=
  database.challenges.all (fun other => other.id != row.id) &&
    inetAccepted environment row.requestIp && decide (row.maxAttempts ≤ smallintMax)

def insertChallenge (row : OtpChallenge Digest) (database : Database Digest) : Database Digest :=
  { database with challenges := database.challenges ++ [row] }

def enforceRequestLimits (environment : Environment Digest) (request : RequestInfo)
    (draws : RequestDraws) (phone : String) : Handler Digest Unit := do
  enforceLimit .otpRequestPhone
    (environment.crypto.hex (phoneFingerprint environment.crypto phone)) draws.phoneLimitMs
  match request.clientIp.filter (· ≠ "") with
  | none => pure ()
  | some address => enforceLimit .otpRequestIp address draws.ipLimitMs

/-- `issue_challenge` up to the commit; the text is sent after it. -/
def issueChallenge (environment : Environment Digest) (settings : Settings) (request : RequestInfo)
    (draws : RequestDraws) (phone : String) : Handler Digest Unit := do
  enforceRequestLimits environment request draws phone
  execute (supersede environment.crypto phone draws.supersededAt)
  let row := challengeRow environment settings request draws phone
  executeChecked (challengeFits environment row (← rows)) (insertChallenge row)
  commit

def requestOtp (environment : Environment Digest) (settings : Settings) (sms : SmsSettings)
    (request : RequestInfo) (draws : RequestDraws) (payload : OtpRequestIn)
    (system : System Digest) : Except RequestFailure OtpRequestOut × System Digest :=
  match environment.normalizePhone payload.phone payload.region with
  | none => (.error (.handler (.app (.validationFailed "invalid_phone"))), system)
  | some phone =>
      match withSession (issueChallenge environment settings request draws phone)
          system.database system.services with
      | (.error failure, database, services) =>
          (.error (.handler failure), ⟨database, services, system.texts⟩)
      | (.ok (), database, services) =>
          -- nothing that happens to the text takes the challenge back
          match sendSms sms draws.dispatch phone (numericOtp 6 draws.code) system.texts with
          | (.error failure, texts) => (.error failure, ⟨database, services, texts⟩)
          | (.ok (), texts) =>
              (.ok ⟨toString draws.challengeId, settings.otpTtlSeconds⟩,
                ⟨database, services, texts⟩)

def hour : Time := 3600 * second

/-- `purge_expired_otp()` of `0002_roles.sql`. -/
def purgeExpiredOtp (now : Time) (database : Database Digest) : Database Digest :=
  { database with
    challenges := database.challenges.filter fun row => decide (now ≤ row.expiresAt + hour) }

/-- One call, served to its end. -/
def serve (environment : Environment Digest) (settings : Settings) (sms : SmsSettings)
    (system : System Digest) : Call → Reply × System Digest
  | .request request draws payload =>
      let (answer, after) := requestOtp environment settings sms request draws payload system
      (.requested answer, after)
  | .verify request draws payload =>
      let (answer, database, services) :=
        postVerify environment request draws payload system.database system.services
      (.verified answer, ⟨database, services, system.texts⟩)
  | .purge now => (.purged, { system with database := purgeExpiredOtp now system.database })

def serveAll (environment : Environment Digest) (settings : Settings) (sms : SmsSettings) :
    System Digest → List Call → List Reply × System Digest
  | system, [] => ([], system)
  | system, call :: rest =>
      let (reply, after) := serve environment settings sms system call
      (reply :: (serveAll environment settings sms after rest).1,
        (serveAll environment settings sms after rest).2)

end Handlers

/-! The codes are the words of six digits, each drawn in one way. -/

section Codes

theorem numeric_otp_list (digits draw : Nat) :
    (numericOtp digits draw).toList =
      List.replicate (digits - (Nat.toDigits 10 draw).length) '0' ++ Nat.toDigits 10 draw := by
  simp only [numericOtp, String.toList_append, String.toList_ofList, Nat.toString_eq_repr,
    Nat.toList_repr]
  rw [← Nat.toList_repr, String.length_toList]

theorem numeric_otp_value (digits draw : Nat) :
    Nat.ofDigitChars 10 (numericOtp digits draw).toList 0 = draw := by
  rw [numeric_otp_list, Nat.ofDigitChars_append, Nat.ofDigitChars_replicate_zero, Nat.mul_zero,
    Nat.ofDigitChars_toDigits (by decide) (by decide)]

theorem numeric_otp_injective (digits : Nat) : Function.Injective (numericOtp digits) := by
  intro first second same
  rw [← numeric_otp_value digits first, same, numeric_otp_value]

end Codes

end RunnerupChat.OtpRequests
