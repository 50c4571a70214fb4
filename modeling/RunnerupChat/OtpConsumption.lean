import RunnerupChat.OtpAudit

/-!
What is left of a challenge whose correct code was presented. Its consumption
is durable before the account, the device, the session and their audit rows are
inserted; what breaks one of these inserts does not give the challenge back.
-/

namespace RunnerupChat.OtpConsumption

open Accounts RateLimit OtpStore OtpLogin OtpAudit UnitOfWork

variable {Digest : Type} [DecidableEq Digest]

/-- The account that a number belongs to. -/
def accountOf (environment : Environment Digest) (database : Database Digest) (phone : String) :
    Option (User Digest) :=
  database.users.find? fun user => user.phoneHash == phoneFingerprint environment.crypto phone

/-- The correct code of a live challenge of the number, whose account is absent
or usable. `column` is the `SMALLINT` of `max_attempts`. -/
structure Presented (environment : Environment Digest) (draws : Draws) (payload : OtpVerifyIn)
    (database : Database Digest) (phone : String) (row : OtpChallenge Digest) : Prop where
  number : environment.normalizePhone payload.phone payload.region = some phone
  found : findChallenge environment.crypto database payload.challengeId phone = some row
  live : row.consumedAt = none ∧ draws.verifiedAt < row.expiresAt ∧ row.attempts < row.maxAttempts
  correct : row.codeHash = hashOtp environment.crypto row.id payload.code
  column : row.maxAttempts ≤ smallintMax
  usable : ∀ user, accountOf environment database phone = some user → user.isUsable = true

/-- A session, or the challenge is still there to be used. -/
def SessionOrChallenge (environment : Environment Digest) (payload : OtpVerifyIn) (phone : String)
    (ended : Except Failure SessionOut × Database Digest × Services) : Prop :=
  (∃ session, ended.1 = .ok session) ∨
    ∃ row, findChallenge environment.crypto ended.2.1 payload.challengeId phone = some row ∧
      row.consumedAt = none

/-- The columns take every row that the login inserts. -/
structure Insertable (environment : Environment Digest) (request : RequestInfo) (draws : Draws)
    (payload : OtpVerifyIn) (database : Database Digest) (phone : String) : Prop where
  platform : platforms.contains payload.platform = true
  address : inetAccepted environment request.clientIp = true
  token : refreshUnused environment draws database.sessions = true
  account : accountOf environment database phone = none →
    userFits (newUser environment draws.userId phone) = true

section Statements
variable {environment : Environment Digest} {request : RequestInfo} {draws : Draws}
  {session : Session (Database Digest) Services}

omit [DecidableEq Digest] in
theorem checked_taken {accepted : Bool} (holds : accepted = true)
    (statement : Database Digest → Database Digest) :
    perform (executeChecked accepted statement) session =
      (.ok (), { session with working := statement session.working }) := by
  subst holds
  rfl

omit [DecidableEq Digest] in
theorem checked_refused {accepted : Bool} (fails : accepted = false)
    (statement : Database Digest → Database Digest) :
    perform (executeChecked accepted statement) session = (.error .database, session) := by
  subst fails
  rfl

theorem login_known {phone : String} {user : User Digest}
    (found : accountOf environment session.working phone = some user)
    (usable : user.isUsable = true) :
    perform (loginUser environment request draws phone) session = (.ok (user, false), session) := by
  unfold accountOf at found
  unfold loginUser
  rw [perform_bind_ok session (perform_rows session)]
  simp only [found, usable, if_true]
  rfl

theorem login_new {phone : String} (absent : accountOf environment session.working phone = none)
    (fits : userFits (newUser environment draws.userId phone) = true)
    (address : inetAccepted environment request.clientIp = true) :
    ∃ after, perform (loginUser environment request draws phone) session =
        (.ok (newUser environment draws.userId phone, true), after) ∧
      after.committed = session.committed ∧ after.working.sessions = session.working.sessions := by
  unfold accountOf at absent
  unfold loginUser recordAudit
  rw [perform_bind_ok session (perform_rows session)]
  simp only [absent]
  rw [perform_bind_ok _ (checked_taken fits _), perform_bind_ok _ (checked_taken address _)]
  exact ⟨_, rfl, rfl, rfl⟩

theorem login_broken {phone : String}
    (absent : accountOf environment session.working phone = none)
    (refused : userFits (newUser environment draws.userId phone) = false ∨
      inetAccepted environment request.clientIp = false) :
    ∃ failure after, perform (loginUser environment request draws phone) session =
      (.error failure, after) ∧ after.committed = session.committed := by
  unfold accountOf at absent
  unfold loginUser recordAudit
  rw [perform_bind_ok session (perform_rows session)]
  simp only [absent]
  cases fits : userFits (newUser environment draws.userId phone) with
  | false =>
      rw [perform_bind_error _ (checked_refused rfl _)]
      exact ⟨_, _, rfl, rfl⟩
  | true =>
      have address := refused.resolve_left (by rw [fits]; nofun)
      rw [perform_bind_ok _ (checked_taken rfl _), perform_bind_error _ (checked_refused address _)]
      exact ⟨_, _, rfl, rfl⟩

theorem no_device (known : List SessionStore.UserDevice) (user : Uuid) :
    SessionStore.existingDevice known user none = none := by
  apply List.find?_eq_none.mpr
  intro row _
  simp

section Sessions
variable {platform : String} (user : User Digest) (label : String)

theorem session_opens (listed : platforms.contains platform = true)
    (address : inetAccepted environment request.clientIp = true)
    (token : refreshUnused environment draws session.working.sessions = true) :
    ∃ tokens after, perform (createSession environment request draws user platform label none)
      session = (.ok tokens, after) := by
  have device : (platforms.contains platform && inetAccepted environment request.clientIp) = true :=
    Bool.and_eq_true_iff.mpr ⟨listed, address⟩
  unfold createSession recordAudit
  rw [perform_bind_ok session (perform_rows session)]
  simp only [no_device]
  rw [perform_bind_ok _ (checked_taken device _), perform_bind_ok _ (perform_pure _ _),
    perform_bind_ok _ (perform_rows _)]
  dsimp only
  rw [perform_bind_ok _ (checked_taken token _),
    perform_bind_ok _ (checked_taken address _), perform_bind_ok _ (perform_commit _)]
  exact ⟨_, _, rfl⟩

theorem session_broken (refused : ¬(platforms.contains platform = true ∧
      inetAccepted environment request.clientIp = true ∧
      refreshUnused environment draws session.working.sessions = true)) :
    ∃ failure after, perform (createSession environment request draws user platform label none)
      session = (.error failure, after) ∧ after.committed = session.committed := by
  unfold createSession recordAudit
  rw [perform_bind_ok session (perform_rows session)]
  simp only [no_device]
  cases device : platforms.contains platform && inetAccepted environment request.clientIp with
  | false =>
      rw [perform_bind_error _ (checked_refused rfl _)]
      exact ⟨_, _, rfl, rfl⟩
  | true =>
      obtain ⟨listed, address⟩ := Bool.and_eq_true_iff.mp device
      have used : refreshUnused environment draws session.working.sessions = false :=
        Bool.eq_false_iff.mpr fun token => refused ⟨listed, address, token⟩
      rw [perform_bind_ok _ (checked_taken rfl _), perform_bind_ok _ (perform_pure _ _),
        perform_bind_ok _ (perform_rows _)]
      dsimp only
      rw [perform_bind_error _ (checked_refused used _)]
      exact ⟨_, _, rfl, rfl⟩

end Sessions

end Statements

section Challenges
variable {environment : Environment Digest} {request : RequestInfo} {draws : Draws}
  {payload : OtpVerifyIn} {database : Database Digest} {services : Services} {phone : String}
  {row : OtpChallenge Digest}

/-- The row that is written is the one that is found afterwards. -/
theorem find_written {crypto : Crypto Digest} {challengeId : String}
    (found : findChallenge crypto database challengeId phone = some row)
    (saved : OtpChallenge Digest) (id : saved.id = row.id) (hash : saved.phoneHash = row.phoneHash) :
    findChallenge crypto (written saved database) challengeId phone = some saved := by
  obtain ⟨wanted, parsed, first⟩ := Option.bind_eq_some_iff.mp found
  have named := List.find?_some first
  simp only [Bool.and_eq_true, beq_iff_eq] at named
  unfold findChallenge
  rw [parsed, Option.bind_some, written, List.find?_map, Option.map_eq_some_iff]
  have present : ((database.challenges.find? ((fun row =>
      row.id == wanted && row.phoneHash == phoneFingerprint crypto phone) ∘
        fun other => if other.id = saved.id then saved else other)).isSome) = true := by
    refine List.find?_isSome.mpr ⟨row, List.mem_of_find?_eq_some first, ?_⟩
    simp [id, hash, named.1, named.2]
  obtain ⟨other, there⟩ := Option.isSome_iff_exists.mp present
  refine ⟨other, there, ?_⟩
  have matching := List.find?_some there
  by_cases same : other.id = saved.id
  · exact if_pos same
  · -- another row with the id that was asked for would have been written
    simp only [Function.comp_apply, if_neg same, Bool.and_eq_true, beq_iff_eq] at matching
    exact absurd (matching.1.trans (named.1.symm.trans id.symm)) same

theorem presented_accepted (presented : Presented environment draws payload database phone row) :
    judge (burn row) draws.verifiedAt
      (row.codeHash == hashOtp environment.crypto row.id payload.code) = .accepted := by
  obtain ⟨unconsumed, unexpired, left⟩ := presented.live
  have few : ¬row.maxAttempts < row.attempts + 1 := by omega
  simp [judge, burn, unconsumed, unexpired, few, presented.correct]

/-- The rows with the challenge consumed. -/
def consumed (draws : Draws) (row : OtpChallenge Digest) (database : Database Digest) :
    Database Digest := written (consume draws.verifiedAt (burn row)) database

/-- The consumption is durable when `verify_challenge` returns. -/
theorem challenge_consumed (presented : Presented environment draws payload database phone row) :
    perform (settleChallenge environment request payload.challengeId payload.code draws.verifiedAt
      row) ⟨database, database, services⟩ =
      (.ok (.ok, true), ⟨consumed draws row database, consumed draws row database, services⟩) := by
  have fits : (consume draws.verifiedAt (burn row)).attempts ≤ smallintMax :=
    Nat.le_trans presented.live.2.2 presented.column
  unfold settleChallenge
  simp only [presented_accepted presented]
  rw [save_challenge_fits fits, perform_bind_ok _ (perform_execute _ _),
    perform_bind_ok _ (perform_commit _)]
  rfl

/-- What `verify_otp` does once the code was accepted. -/
def openSession (environment : Environment Digest) (request : RequestInfo) (draws : Draws)
    (payload : OtpVerifyIn) (phone : String) : Handler Digest SessionOut := do
  let (user, isNew) ← loginUser environment request draws phone
  let tokens ← createSession environment request draws user payload.platform
    (deviceLabel request.userAgent) none
  return {
    accessToken := tokens.accessToken, expiresIn := tokens.expiresIn,
    userId := toString user.id, displayName := user.displayName, isNewAccount := isNew,
    cookies := setAuthCookies environment tokens.refreshToken draws.csrfToken }

theorem opens (session : Session (Database Digest) Services)
    (insertable : Insertable environment request draws payload session.working phone)
    (usable : ∀ user, accountOf environment session.working phone = some user →
      user.isUsable = true) :
    ∃ out after, perform (openSession environment request draws payload phone) session =
      (.ok out, after) := by
  have logged : ∃ account after, perform (loginUser environment request draws phone) session =
      (.ok account, after) ∧ after.working.sessions = session.working.sessions := by
    cases found : accountOf environment session.working phone with
    | some user => exact ⟨_, _, login_known found (usable user found), rfl⟩
    | none =>
        obtain ⟨after, answered, _, same⟩ :=
          login_new found (insertable.account found) insertable.address
        exact ⟨_, after, answered, same⟩
  obtain ⟨account, after, answered, same⟩ := logged
  have token := insertable.token
  rw [← same] at token
  obtain ⟨tokens, last, opened⟩ := session_opens account.1
    (deviceLabel request.userAgent) insertable.platform insertable.address token
  unfold openSession
  rw [perform_bind_ok _ answered, perform_bind_ok _ opened]
  exact ⟨_, _, rfl⟩

theorem breaks (session : Session (Database Digest) Services)
    (refused : ¬Insertable environment request draws payload session.working phone)
    (usable : ∀ user, accountOf environment session.working phone = some user →
      user.isUsable = true) :
    ∃ failure after, perform (openSession environment request draws payload phone) session =
      (.error failure, after) ∧ after.committed = session.committed := by
  have ends : (∃ failure after, perform (loginUser environment request draws phone) session =
        (.error failure, after) ∧ after.committed = session.committed) ∨
      ∃ account after, perform (loginUser environment request draws phone) session =
        (.ok account, after) ∧ after.committed = session.committed ∧
          after.working.sessions = session.working.sessions ∧
          (accountOf environment session.working phone = none →
            userFits (newUser environment draws.userId phone) = true) := by
    cases found : accountOf environment session.working phone with
    | some user =>
        exact .inr ⟨_, _, login_known found (usable user found), rfl, rfl, nofun⟩
    | none =>
        by_cases accepted : userFits (newUser environment draws.userId phone) = true ∧
            inetAccepted environment request.clientIp = true
        · obtain ⟨after, answered, kept, same⟩ := login_new found accepted.1 accepted.2
          exact .inr ⟨_, after, answered, kept, same, fun _ => accepted.1⟩
        · exact .inl (login_broken found (by
            rw [← Bool.not_eq_true, ← Bool.not_eq_true]
            exact Classical.not_and_iff_not_or_not.mp accepted))
  unfold openSession
  rcases ends with ⟨failure, after, broken, kept⟩ | ⟨account, after, answered, kept, same, account_fits⟩
  · rw [perform_bind_error _ broken]
    exact ⟨failure, after, rfl, kept⟩
  · have other : ¬(platforms.contains payload.platform = true ∧
        inetAccepted environment request.clientIp = true ∧
        refreshUnused environment draws after.working.sessions = true) := by
      rintro ⟨platform, address, token⟩
      rw [same] at token
      exact refused ⟨platform, address, token, account_fits⟩
    obtain ⟨failure, last, broken, still⟩ := session_broken account.1
      (deviceLabel request.userAgent) other
    rw [perform_bind_ok _ answered, perform_bind_error _ broken]
    exact ⟨failure, last, rfl, still.trans kept⟩

/-- An accepted code leads to the session with its challenge consumed. -/
theorem verify_reaches (presented : Presented environment draws payload database phone row)
    {services' : Services} (admitted : perform (enforceVerifyLimits environment request draws phone)
      ⟨database, database, services⟩ = (.ok (), ⟨database, database, services'⟩)) :
    perform (verifyOtp environment request draws payload) ⟨database, database, services⟩ =
      perform (openSession environment request draws payload phone)
        ⟨consumed draws row database, consumed draws row database, services'⟩ := by
  have verified : perform (verifyChallenge environment request draws payload.challengeId
      payload.code phone) ⟨database, database, services⟩ =
      perform (settleChallenge environment request payload.challengeId payload.code
        draws.verifiedAt row) ⟨database, database, services'⟩ := by
    unfold verifyChallenge
    rw [perform_bind_ok _ admitted, perform_bind_ok _ (perform_rows _)]
    simp only [presented.found]
  unfold verifyOtp
  simp only [presented.number]
  rw [perform_bind_ok _ (verified.trans (challenge_consumed presented))]
  rfl

/-- A request that the limits refuse leaves the challenge as it was. -/
theorem limited_untouched (presented : Presented environment draws payload database phone row)
    {services' : Services} {failure : Failure}
    (limited : perform (enforceVerifyLimits environment request draws phone)
      ⟨database, database, services⟩ = (.error failure, ⟨database, database, services'⟩)) :
    postVerify environment request draws payload database services =
      (.error failure, database, services') := by
  have refused : perform (verifyChallenge environment request draws payload.challengeId
      payload.code phone) ⟨database, database, services⟩ =
        (.error failure, ⟨database, database, services'⟩) := by
    unfold verifyChallenge
    rw [perform_bind_error _ limited]
  unfold postVerify withSession verifyOtp
  simp only [presented.number]
  rw [perform_bind_error _ refused]

theorem consumed_insertable_iff (row : OtpChallenge Digest) :
    Insertable environment request draws payload (consumed draws row database) phone ↔
      Insertable environment request draws payload database phone :=
  ⟨fun ⟨platform, address, token, account⟩ => ⟨platform, address, token, account⟩,
    fun ⟨platform, address, token, account⟩ => ⟨platform, address, token, account⟩⟩

/-- A request that breaks after the consumption leaves neither. -/
theorem consumed_lost (presented : Presented environment draws payload database phone row)
    (failure : Failure) (services : Services) :
    ¬SessionOrChallenge environment payload phone
      (.error failure, consumed draws row database, services) := by
  rintro (⟨session, answered⟩ | ⟨left, found, unconsumed⟩)
  · cases answered
  · have gone := find_written presented.found (consume draws.verifiedAt (burn row)) rfl rfl
    rw [← Option.some.inj (gone.symm.trans found)] at unconsumed
    cases unconsumed

/-- The request answers with a session or leaves the challenge exactly when the
limits refuse it, or every row of the login is one its table takes. -/
theorem session_or_challenge_iff (environment : Environment Digest) (request : RequestInfo)
    (draws : Draws) (payload : OtpVerifyIn) (database : Database Digest) (services : Services)
    (phone : String) (row : OtpChallenge Digest)
    (presented : Presented environment draws payload database phone row) :
    SessionOrChallenge environment payload phone
        (postVerify environment request draws payload database services) ↔
      (∃ failure, (perform (enforceVerifyLimits environment request draws phone)
        ⟨database, database, services⟩).1 = .error failure) ∨
      Insertable environment request draws payload database phone := by
  obtain ⟨services', same⟩ :=
    enforce_verify_limits_outward environment request draws phone ⟨database, database, services⟩
  rcases limits : perform (enforceVerifyLimits environment request draws phone)
    ⟨database, database, services⟩ with ⟨answer, after⟩
  obtain rfl : after = ⟨database, database, services'⟩ := by rwa [limits] at same
  cases answer with
  | error failure =>
      rw [limited_untouched presented limits]
      exact iff_of_true (.inr ⟨row, presented.found, presented.live.1⟩) (.inl ⟨failure, rfl⟩)
  | ok admitted =>
      have admits : ¬∃ failure, (Except.ok admitted : Except Failure Unit) = .error failure := nofun
      rw [or_iff_right admits, ← consumed_insertable_iff row]
      unfold postVerify withSession
      rw [verify_reaches presented limits]
      by_cases insertable :
          Insertable environment request draws payload (consumed draws row database) phone
      · obtain ⟨out, last, opened⟩ := opens
          ⟨consumed draws row database, consumed draws row database, services'⟩ insertable
          presented.usable
        rw [opened]
        exact iff_of_true (.inl ⟨out, rfl⟩) insertable
      · obtain ⟨failure, last, broken, kept⟩ := breaks
          ⟨consumed draws row database, consumed draws row database, services'⟩ insertable
          presented.usable
        have ended : last.committed = consumed draws row database := kept
        rw [broken]
        dsimp only
        rw [ended]
        exact iff_of_false (consumed_lost presented failure last.outside) insertable

end Challenges

omit [DecidableEq Digest] in
/-- The columns of a new account take a number in the E.164 format. -/
theorem number_fits (environment : Environment Digest) (id : Uuid) {phone : String}
    {digits : List Char} (format : phone.toList = '+' :: digits) (long : 4 ≤ digits.length)
    (plain : ∀ char ∈ digits, char.isDigit = true)
    (country : 1 ≤ (environment.countryCode phone).length ∧
      (environment.countryCode phone).length ≤ 4) :
    userFits (newUser environment id phone) = true := by
  have size : phone.length = digits.length + 1 := by
    rw [← String.length_toList, format, List.length_cons]
  have last : (lastChars 4 phone).toList = digits.drop (digits.length - 4) := by
    have skip : phone.length - 4 = digits.length - 4 + 1 := by omega
    rw [lastChars, String.toList_ofList, format, skip, List.drop_succ_cons]
  have four : (lastChars 4 phone).length = 4 := by
    rw [← String.length_toList, last, List.length_drop]
    omega
  have name : ("User " ++ lastChars 4 phone).length = 9 := by
    rw [String.length_append, four]
    rfl
  have shown : (lastChars 4 phone).toList.all Char.isDigit = true := by
    rw [last]
    exact List.all_eq_true.mpr fun char member => plain char (List.mem_of_mem_drop member)
  simp [userFits, newUser, four, name, shown, country.1, country.2]

def numberRow : OtpChallenge String := newChallenge plain ⟨300, 5⟩ 1 "+911234" "123456" none none 0

def numbered : Environment String :=
  { host with normalizePhone := fun _ _ => some "+911234" }

def correctCode (platform : String) : OtpVerifyIn :=
  { challengeId := "c1", code := "123456", phone := "+911234", platform := platform }

theorem number_presented (platform : String) :
    Presented numbered firstDraws (correctCode platform) { outstanding with challenges := [numberRow] }
      "+911234" numberRow := by
  refine ⟨rfl, rfl, ⟨rfl, by decide, by decide⟩, rfl, by decide, ?_⟩
  rintro user ⟨⟩

/-- A login from a platform that is listed. -/
theorem web_login_opens :
    SessionOrChallenge numbered (correctCode "WEB") "+911234"
        (postVerify numbered fromAddress firstDraws (correctCode "WEB")
          { outstanding with challenges := [numberRow] } ⟨emptyStore, []⟩) ↔
      (∃ failure, (perform (enforceVerifyLimits numbered fromAddress firstDraws "+911234")
        ⟨{ outstanding with challenges := [numberRow] }, { outstanding with challenges := [numberRow] },
          ⟨emptyStore, []⟩⟩).1 = .error failure) ∨
      Insertable numbered fromAddress firstDraws (correctCode "WEB")
        { outstanding with challenges := [numberRow] } "+911234" :=
  session_or_challenge_iff numbered fromAddress firstDraws (correctCode "WEB") _ ⟨emptyStore, []⟩
    "+911234" numberRow (number_presented "WEB")

/-- The platform `FRIDGE` is not one of the table's: no session, and the
challenge is gone. -/
theorem fridge_loses_challenge : ¬∀ (environment : Environment String) (request : RequestInfo)
    (draws : Draws) (payload : OtpVerifyIn) (database : Database String) (services : Services)
    (phone : String) (row : OtpChallenge String),
    Presented environment draws payload database phone row →
      SessionOrChallenge environment payload phone
        (postVerify environment request draws payload database services) := by
  intro claim
  rcases claim numbered fromAddress firstDraws (correctCode "FRIDGE")
      { outstanding with challenges := [numberRow] } ⟨emptyStore, []⟩ "+911234" numberRow
      (number_presented "FRIDGE") with ⟨session, answered⟩ | ⟨row, found, unconsumed⟩
  · cases answered
  · have consumedRow : findChallenge numbered.crypto (postVerify numbered fromAddress firstDraws
        (correctCode "FRIDGE") { outstanding with challenges := [numberRow] } ⟨emptyStore, []⟩).2.1
          "c1" "+911234" = some (consume 1000 (burn numberRow)) := rfl
    rw [← Option.some.inj (consumedRow.symm.trans found)] at unconsumed
    cases unconsumed

end RunnerupChat.OtpConsumption
