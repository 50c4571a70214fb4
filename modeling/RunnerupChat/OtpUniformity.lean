import RunnerupChat.OtpOutcomes

/-!
What the replies give away of the accounts: nothing, until someone presents the
right code. Two systems with other accounts, devices and sessions behind the
same challenges reply alike to any calls, and send the same texts.
-/

namespace RunnerupChat.OtpUniformity

open Accounts OtpStore OtpLogin OtpAudit OtpConsumption OtpRequests OtpOutcomes UnitOfWork

variable {Digest : Type}

/-- Two systems that may differ in their accounts. -/
structure Uniform (left right : System Digest) : Prop where
  challenges : right.database.challenges = left.database.challenges
  services : right.services = left.services
  texts : right.texts = left.texts

section Serving
variable [DecidableEq Digest] (environment : Environment Digest) (settings : Settings)
  (sms : SmsSettings)

/-- The call presents the right code of a live challenge. -/
def accepts (system : System Digest) : Call → Bool
  | .request _ _ _ | .purge _ => false
  | .verify request draws payload =>
      match environment.normalizePhone payload.phone payload.region with
      | none => false
      | some phone =>
          match charges (verifyBudgets environment request draws phone) system.services with
          | (.error _, _) => false
          | (.ok (), _) =>
              match findChallenge environment.crypto system.database payload.challengeId phone with
              | none => false
              | some row =>
                  decide (row.attempts < smallintMax ∧
                    branchOf environment draws.verifiedAt payload.code row = .accepted)

def step (system : System Digest) (call : Call) : Option (System Digest) :=
  some (serve environment settings sms system call).2

variable {left right : System Digest}

/-- A database with the same challenges is the same to whoever looks for one. -/
theorem find_uniform (crypto : Crypto Digest) {first second : Database Digest}
    (same : second.challenges = first.challenges) (challengeId phone : String) :
    findChallenge crypto second challengeId phone = findChallenge crypto first challengeId phone := by
  unfold findChallenge
  rw [same]

theorem verify_uniform (uniform : Uniform left right) (request : RequestInfo) (draws : Draws)
    (payload : OtpVerifyIn)
    (refused : accepts environment left (.verify request draws payload) = false) :
    (serve environment settings sms left (.verify request draws payload)).1 =
        (serve environment settings sms right (.verify request draws payload)).1 ∧
      Uniform (serve environment settings sms left (.verify request draws payload)).2
        (serve environment settings sms right (.verify request draws payload)).2 := by
  unfold serve
  dsimp only
  rw [post_verify_eq, post_verify_eq]
  cases number : environment.normalizePhone payload.phone payload.region with
  | none => exact ⟨rfl, uniform⟩
  | some phone =>
      dsimp only
      rw [uniform.services, find_uniform environment.crypto uniform.challenges]
      rcases charged : charges (verifyBudgets environment request draws phone) left.services with
        ⟨answer, after⟩
      cases answer with
      | error failure => exact ⟨rfl, uniform.challenges, rfl, uniform.texts⟩
      | ok value =>
          dsimp only
          cases found : findChallenge environment.crypto left.database payload.challengeId phone with
          | none => exact ⟨rfl, uniform.challenges, rfl, uniform.texts⟩
          | some row =>
              unfold settled
              dsimp only
              split
              · rename_i fits
                have unaccepted : branchOf environment draws.verifiedAt payload.code row ≠
                    .accepted := by
                  simpa [accepts, number, charged, found, fits] using refused
                rw [if_neg unaccepted, if_neg unaccepted]
                refine ⟨rfl, ?_, rfl, uniform.texts⟩
                unfold written
                dsimp only
                rw [uniform.challenges]
              · exact ⟨rfl, uniform.challenges, rfl, uniform.texts⟩

theorem request_uniform (uniform : Uniform left right) (request : RequestInfo)
    (draws : RequestDraws) (payload : OtpRequestIn) :
    (requestOtp environment settings sms request draws payload left).1 =
        (requestOtp environment settings sms request draws payload right).1 ∧
      Uniform (requestOtp environment settings sms request draws payload left).2
        (requestOtp environment settings sms request draws payload right).2 := by
  rw [request_otp_eq, request_otp_eq]
  cases environment.normalizePhone payload.phone payload.region with
  | none => exact ⟨rfl, uniform⟩
  | some phone =>
      have superseded : (supersede environment.crypto phone draws.supersededAt
          right.database).challenges =
          (supersede environment.crypto phone draws.supersededAt left.database).challenges := by
        unfold supersede
        dsimp only
        rw [uniform.challenges]
      have fits : ∀ row, challengeFits environment row (supersede environment.crypto phone
          draws.supersededAt right.database) = challengeFits environment row (supersede
            environment.crypto phone draws.supersededAt left.database) := by
        intro row
        unfold challengeFits
        rw [superseded]
      dsimp only
      rw [uniform.services, fits]
      rcases charges (requestBudgets environment request draws phone) left.services with
        ⟨answer, after⟩
      cases answer with
      | error failure => exact ⟨rfl, uniform.challenges, rfl, uniform.texts⟩
      | ok value =>
          dsimp only
          split
          · unfold dispatched insertChallenge
            dsimp only
            rw [uniform.texts]
            refine ⟨rfl, ?_, rfl, rfl⟩
            dsimp only
            rw [superseded]
          · exact ⟨rfl, uniform.challenges, rfl, uniform.texts⟩

/-- A call without the right code is replied to alike. -/
theorem serve_uniform (uniform : Uniform left right) (call : Call)
    (refused : accepts environment left call = false) :
    (serve environment settings sms left call).1 = (serve environment settings sms right call).1 ∧
      Uniform (serve environment settings sms left call).2
        (serve environment settings sms right call).2 := by
  cases call with
  | request request draws payload =>
      obtain ⟨answers, further⟩ := request_uniform environment settings sms uniform
        request draws payload
      exact ⟨congrArg Reply.requested answers, further⟩
  | verify request draws payload =>
      exact verify_uniform environment settings sms uniform request draws payload refused
  | purge now =>
      refine ⟨rfl, ?_, uniform.services, uniform.texts⟩
      unfold serve purgeExpiredOtp
      dsimp only
      rw [uniform.challenges]

/-- Whatever accounts there are, calls without a right code get the same replies
and send the same texts. -/
theorem replies_uniform (environment : Environment Digest) (settings : Settings)
    (sms : SmsSettings) {left right : System Digest} (uniform : Uniform left right)
    (calls : List Call)
    (refused : Runs.Meets (step environment settings sms)
      (fun system call => accepts environment system call = false) left calls) :
    (serveAll environment settings sms left calls).1 =
        (serveAll environment settings sms right calls).1 ∧
      (serveAll environment settings sms left calls).2.texts =
        (serveAll environment settings sms right calls).2.texts := by
  induction calls generalizing left right with
  | nil => exact ⟨rfl, uniform.texts.symm⟩
  | cons call rest ih =>
      obtain ⟨replies, further⟩ := serve_uniform environment settings sms uniform call refused.1
      obtain ⟨later, texts⟩ := ih further (refused.2 _ rfl)
      unfold serveAll
      dsimp only
      exact ⟨by rw [replies, later], texts⟩

end Serving

def console : SmsSettings := ⟨"console", false⟩

/-- The outstanding challenge of a number without an account. -/
def unregistered : System String := ⟨outstanding, ⟨RateLimit.emptyStore, []⟩, []⟩

/-- The same challenge of a number with one. -/
def registered : System String :=
  { unregistered with database := { outstanding with users := [newUser host 9 "+911"] } }

def resend : RequestDraws := ⟨0, 0, 2000, 7, 555555, 2000, .answered⟩

/-- A wrong code, then another text. -/
def wrongThenResend : List Call :=
  [.verify fromAddress firstDraws wrongCode, .request fromAddress resend ⟨"+911", none⟩]

theorem wrong_then_resend_uniform :
    (serveAll host ⟨300, 5⟩ console unregistered wrongThenResend).1 =
        (serveAll host ⟨300, 5⟩ console registered wrongThenResend).1 ∧
      (serveAll host ⟨300, 5⟩ console unregistered wrongThenResend).2.texts =
        (serveAll host ⟨300, 5⟩ console registered wrongThenResend).2.texts := by
  refine replies_uniform host ⟨300, 5⟩ console ⟨rfl, rfl, rfl⟩ wrongThenResend ?_
  exact ⟨rfl, fun next _ => ⟨rfl, fun _ _ => trivial⟩⟩

end RunnerupChat.OtpUniformity
