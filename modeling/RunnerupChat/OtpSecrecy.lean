import Mathlib.Algebra.Group.Nat.Defs
import Mathlib.Data.Fintype.Card
import RunnerupChat.Guessing
import RunnerupChat.OtpOutcomes

/-!
How far guessing goes. Whoever puts requests, verifications and purges as he
likes, each chosen from the replies so far, is let in on a challenge with no
more of the codes it may have been issued with than it has attempts.
-/

namespace RunnerupChat.OtpSecrecy

open Accounts OtpStore OtpLogin OtpAudit OtpConsumption OtpRequests OtpOutcomes UnitOfWork
  CoupledWork Guessing

variable {Digest : Type}

/-- A later version of a challenge. -/
structure Follows (row later : OtpChallenge Digest) : Prop where
  id : later.id = row.id
  phoneHash : later.phoneHash = row.phoneHash
  codeHash : later.codeHash = row.codeHash
  maxAttempts : later.maxAttempts = row.maxAttempts
  expiresAt : later.expiresAt = row.expiresAt
  attempts : row.attempts ≤ later.attempts
  consumed : row.consumedAt.isSome → later.consumedAt.isSome

theorem follows_self (row : OtpChallenge Digest) : Follows row row :=
  ⟨rfl, rfl, rfl, rfl, rfl, Nat.le_refl _, fun consumed => consumed⟩

theorem follows_consume (now : Time) (row : OtpChallenge Digest) : Follows row (consume now row) :=
  ⟨rfl, rfl, rfl, rfl, rfl, Nat.le_refl _, fun _ => rfl⟩

theorem follows_settled (branch : Branch) (now : Time) (row : OtpChallenge Digest) :
    Follows row (branch.settles now (burn row)) := by
  cases branch with
  | exhausted | accepted => exact ⟨rfl, rfl, rfl, rfl, rfl, Nat.le_succ _, fun _ => rfl⟩
  | replay | expired | wrongCode =>
      exact ⟨rfl, rfl, rfl, rfl, rfl, Nat.le_succ _, fun consumed => consumed⟩

/-- The codes that a challenge still takes. -/
def remaining (row : OtpChallenge Digest) : Nat :=
  if row.unconsumed then row.maxAttempts - row.attempts else 0

theorem remaining_follows {row later : OtpChallenge Digest} (follows : Follows row later) :
    remaining later ≤ remaining row := by
  have attempts := follows.attempts
  have same := follows.maxAttempts
  unfold remaining OtpChallenge.unconsumed
  cases gone : row.consumedAt with
  | none =>
      simp only [Option.isNone_none, if_true]
      split
      · omega
      · omega
  | some time =>
      obtain ⟨other, ended⟩ := Option.isSome_iff_exists.mp (follows.consumed (by rw [gone]; rfl))
      rw [ended]
      exact Nat.le_refl _

section Calls
variable [DecidableEq Digest] (environment : Environment Digest) (settings : Settings)
  (sms : SmsSettings)

theorem written_follows {row saved : OtpChallenge Digest} {database : Database Digest}
    {crypto : Crypto Digest} {challengeId phone : String}
    (found : findChallenge crypto database challengeId phone = some row)
    (follows : Follows row saved) (later : OtpChallenge Digest)
    (member : later ∈ (written saved database).challenges) :
    ∃ earlier ∈ database.challenges, Follows earlier later := by
  obtain ⟨earlier, present, rfl⟩ := List.mem_map.mp member
  split
  · obtain ⟨id, _, first⟩ := Option.bind_eq_some_iff.mp found
    exact ⟨row, List.mem_of_find?_eq_some first, follows⟩
  · exact ⟨earlier, present, follows_self earlier⟩

/-- A call leaves later versions of the challenges, and the one it draws. -/
theorem serve_follows (system : System Digest) (call : Call) (later : OtpChallenge Digest)
    (member : later ∈ (serve environment settings sms system call).2.database.challenges) :
    (∃ row ∈ system.database.challenges, Follows row later) ∨ call.drawn = some later.id := by
  cases call with
  | purge now =>
      exact Or.inl ⟨later, (List.mem_filter.mp member).1, follows_self later⟩
  | verify request draws payload =>
      left
      rcases verify_challenges environment request draws payload system.database system.services with
        same | ⟨phone, row, found, _, same⟩
      · have present : later ∈ system.database.challenges := by rw [← same]; exact member
        exact ⟨later, present, follows_self later⟩
      · have present : later ∈ (written ((branchOf environment draws.verifiedAt payload.code
            row).settles draws.verifiedAt (burn row)) system.database).challenges := by
          rw [← same]
          exact member
        exact written_follows found (follows_settled _ _ row) later present
  | request request draws payload =>
      have listed : later ∈
          (requestOtp environment settings sms request draws payload system).2.database.challenges :=
        member
      rw [request_otp_eq] at listed
      split at listed
      · exact Or.inl ⟨later, listed, follows_self later⟩
      · dsimp only at listed
        split at listed
        · exact Or.inl ⟨later, listed, follows_self later⟩
        · split at listed
          · rcases List.mem_append.mp listed with old | new
            · obtain ⟨row, present, rfl⟩ := List.mem_map.mp old
              refine Or.inl ⟨row, present, ?_⟩
              split
              · exact follows_consume _ row
              · exact follows_self row
            · rw [List.mem_singleton.mp new]
              exact Or.inr rfl
          · exact Or.inl ⟨later, listed, follows_self later⟩

end Calls

/-! The challenges with another code behind one of them. -/

section Plugging
variable (id : Uuid) (hash : Digest)

def plugRow (row : OtpChallenge Digest) : OtpChallenge Digest :=
  if row.id = id then { row with codeHash := hash } else row

def plug (database : Database Digest) : Database Digest :=
  { database with challenges := database.challenges.map (plugRow id hash) }

section Fields
variable (row : OtpChallenge Digest)

theorem plug_row_other (other : row.id ≠ id) : plugRow id hash row = row := if_neg other

theorem plug_row_same (same : row.id = id) : plugRow id hash row = { row with codeHash := hash } :=
  if_pos same

@[simp] theorem plug_row_id : (plugRow id hash row).id = row.id := by
  unfold plugRow; split <;> rfl

@[simp] theorem plug_row_phone : (plugRow id hash row).phoneHash = row.phoneHash := by
  unfold plugRow; split <;> rfl

@[simp] theorem plug_row_expires : (plugRow id hash row).expiresAt = row.expiresAt := by
  unfold plugRow; split <;> rfl

@[simp] theorem plug_row_attempts : (plugRow id hash row).attempts = row.attempts := by
  unfold plugRow; split <;> rfl

@[simp] theorem plug_row_unconsumed : (plugRow id hash row).unconsumed = row.unconsumed := by
  unfold plugRow; split <;> rfl

theorem plug_row_consume (now : Time) :
    plugRow id hash (consume now row) = consume now (plugRow id hash row) := by
  unfold plugRow consume; split <;> rfl

theorem plug_row_settles (branch : Branch) (now : Time) :
    plugRow id hash (branch.settles now (burn row)) =
      branch.settles now (burn (plugRow id hash row)) := by
  have burned : plugRow id hash (burn row) = burn (plugRow id hash row) := by
    unfold plugRow burn; split <;> rfl
  cases branch with
  | exhausted | accepted => exact (plug_row_consume id hash (burn row) now).trans (by rw [burned]; rfl)
  | replay | expired | wrongCode => exact burned

theorem plug_row_judge (now : Time) (matching : Bool) :
    judge (burn (plugRow id hash row)) now matching = judge (burn row) now matching := by
  unfold plugRow judge burn; split <;> rfl

end Fields

theorem find_plug [DecidableEq Digest] (crypto : Crypto Digest) (database : Database Digest)
    (challengeId phone : String) :
    findChallenge crypto (plug id hash database) challengeId phone =
      (findChallenge crypto database challengeId phone).map (plugRow id hash) := by
  unfold findChallenge plug
  cases crypto.parseUuid challengeId with
  | none => rfl
  | some wanted =>
      rw [Option.bind_some, Option.bind_some, List.find?_map]
      congr 2
      funext row
      simp

theorem written_plug (saved : OtpChallenge Digest) (database : Database Digest) :
    written (plugRow id hash saved) (plug id hash database) =
      plug id hash (written saved database) := by
  unfold written plug
  simp only [List.map_map, Database.mk.injEq, and_true]
  apply List.map_congr_left
  intro row _
  simp only [Function.comp_apply, plug_row_id]
  split
  · rfl
  · rfl

theorem supersede_plug [DecidableEq Digest] (crypto : Crypto Digest) (phone : String) (now : Time)
    (database : Database Digest) :
    supersede crypto phone now (plug id hash database) =
      plug id hash (supersede crypto phone now database) := by
  unfold supersede plug
  simp only [List.map_map, Database.mk.injEq, and_true]
  apply List.map_congr_left
  intro row _
  simp only [Function.comp_apply, plug_row_phone, plug_row_unconsumed]
  split
  · exact (plug_row_consume id hash row now).symm
  · rfl

theorem insert_plug {row : OtpChallenge Digest} (other : row.id ≠ id) (database : Database Digest) :
    insertChallenge row (plug id hash database) = plug id hash (insertChallenge row database) := by
  unfold insertChallenge plug
  simp only [List.map_append, List.map_cons, List.map_nil, plug_row_other id hash row other]

theorem fits_plug (environment : Environment Digest) (row : OtpChallenge Digest)
    (database : Database Digest) :
    challengeFits environment row (plug id hash database) =
      challengeFits environment row database := by
  unfold challengeFits plug
  simp only [List.all_map]
  congr 3
  funext other
  simp

theorem purge_plug (now : Time) (database : Database Digest) :
    purgeExpiredOtp now (plug id hash database) =
      plug id hash (purgeExpiredOtp now database) := by
  unfold purgeExpiredOtp plug
  simp only [List.filter_map, Database.mk.injEq, and_true]
  congr 2
  funext row
  simp

end Plugging

section Masking
variable [DecidableEq Digest] (environment : Environment Digest) (settings : Settings)
  (sms : SmsSettings) (id : Uuid)

/-- The code that a call has compared with that of the challenge, while it
could still be accepted. -/
def presentedCode (system : System Digest) : Call → Option String
  | .request _ _ _ | .purge _ => none
  | .verify request draws payload =>
      match environment.normalizePhone payload.phone payload.region with
      | none => none
      | some phone =>
          match charges (verifyBudgets environment request draws phone) system.services with
          | (.error _, _) => none
          | (.ok (), _) =>
              match findChallenge environment.crypto system.database payload.challengeId phone with
              | none => none
              | some row =>
                  if row.id = id ∧ row.attempts < smallintMax ∧
                      judge (burn row) draws.verifiedAt true = .accepted then some payload.code
                  else none

/-- Two systems that differ in the code of the challenge, and in the texts. -/
structure Masked (first second : String) (left right : System Digest) : Prop where
  services : right.services = left.services
  database : right.database = plug id (hashOtp environment.crypto id second) left.database
  held : ∀ row ∈ left.database.challenges, row.id = id →
    row.codeHash = hashOtp environment.crypto id first

omit [DecidableEq Digest] in
theorem judge_blind (burned : OtpChallenge Digest) (now : Time) (left right : Bool)
    (dead : judge burned now true ≠ .accepted) : judge burned now left = judge burned now right := by
  unfold judge at dead ⊢
  split at dead
  · simp [*]
  · split at dead
    · simp [*]
    · split at dead
      · simp [*]
      · simp at dead

variable {environment id} {first second : String} {database : Database Digest} {phone : String}
  (collisionFree : Function.Injective environment.crypto.hmacDigest)

include collisionFree in
/-- A code that is neither of the two is judged alike on both sides. -/
theorem branch_plug {row : OtpChallenge Digest} (now : Time) (code : String)
    (held : row.id = id → row.codeHash = hashOtp environment.crypto id first)
    (blind : row.id = id → judge (burn row) now true = .accepted → code ≠ first ∧ code ≠ second) :
    branchOf environment now code (plugRow id (hashOtp environment.crypto id second) row) =
      branchOf environment now code row := by
  unfold branchOf
  rw [plug_row_judge, plug_row_id]
  by_cases same : row.id = id
  · by_cases live : judge (burn row) now true = .accepted
    · obtain ⟨unlike, other⟩ := blind same live
      have missed : ∀ text, code ≠ text →
          (hashOtp environment.crypto id text == hashOtp environment.crypto id code) = false :=
        fun text differs => beq_eq_false_iff_ne.mpr fun equal =>
          differs (hash_otp_injective collisionFree equal).symm
      rw [plug_row_same _ _ _ same, held same, same]
      dsimp only
      rw [missed first unlike, missed second other]
    · exact judge_blind _ now _ _ live
  · rw [plug_row_other _ _ _ same]

theorem open_plug (hash : Digest) (request : RequestInfo) (draws : Draws) (payload : OtpVerifyIn)
    (services : Services) :
    let plain := withSession (openSession environment request draws payload phone) database services
    withSession (openSession environment request draws payload phone) (plug id hash database)
        services = (plain.1, plug id hash plain.2.1, plain.2.2) := by
  have beside : Beside (fun left right => right = left.map (plugRow id hash)) database
      (plug id hash database) := ⟨rfl, rfl⟩
  obtain ⟨answers, databases, others⟩ := open_beside payload phone beside services
  have plugged := databases.rest
  rw [databases.challenges] at plugged
  exact Prod.ext answers.symm (Prod.ext plugged others.symm)

include collisionFree in
theorem settled_plug {request : RequestInfo} {draws : Draws} {payload : OtpVerifyIn}
    {row : OtpChallenge Digest} {services : Services}
    (held : row.id = id → row.codeHash = hashOtp environment.crypto id first)
    (blind : row.attempts < smallintMax → row.id = id →
      judge (burn row) draws.verifiedAt true = .accepted →
      payload.code ≠ first ∧ payload.code ≠ second) :
    let plain := settled environment request draws payload phone row database services
    settled environment request draws payload phone
        (plugRow id (hashOtp environment.crypto id second) row)
        (plug id (hashOtp environment.crypto id second) database) services =
      (plain.1, plug id (hashOtp environment.crypto id second) plain.2.1, plain.2.2) := by
  unfold settled
  dsimp only
  rw [plug_row_attempts]
  split
  · rename_i fits
    rw [branch_plug collisionFree draws.verifiedAt payload.code held (blind fits),
      ← plug_row_settles, written_plug]
    split
    · exact open_plug _ request draws payload services
    · rfl
  · rfl

theorem presented_verify {system : System Digest} {request : RequestInfo} {draws : Draws}
    {payload : OtpVerifyIn} {after : Services} {row : OtpChallenge Digest}
    (number : environment.normalizePhone payload.phone payload.region = some phone)
    (charged : charges (verifyBudgets environment request draws phone) system.services =
      (.ok (), after))
    (found : findChallenge environment.crypto system.database payload.challengeId phone =
      some row) :
    presentedCode environment id system (.verify request draws payload) =
      if row.id = id ∧ row.attempts < smallintMax ∧
        judge (burn row) draws.verifiedAt true = .accepted then some payload.code else none := by
  unfold presentedCode
  simp only [number, charged, found]

include collisionFree in
/-- A verification that tests neither code answers alike. -/
theorem verify_plug {system : System Digest}
    (held : ∀ row ∈ system.database.challenges, row.id = id →
      row.codeHash = hashOtp environment.crypto id first)
    (request : RequestInfo) (draws : Draws) (payload : OtpVerifyIn)
    (missed : presentedCode environment id system (.verify request draws payload) ≠ some first)
    (other : presentedCode environment id system (.verify request draws payload) ≠ some second) :
    let plain := postVerify environment request draws payload system.database system.services
    postVerify environment request draws payload
        (plug id (hashOtp environment.crypto id second) system.database) system.services =
      (plain.1, plug id (hashOtp environment.crypto id second) plain.2.1, plain.2.2) := by
  dsimp only
  rw [post_verify_eq, post_verify_eq]
  cases number : environment.normalizePhone payload.phone payload.region with
  | none => rfl
  | some phone =>
      dsimp only
      rcases charged : charges (verifyBudgets environment request draws phone) system.services with
        ⟨answer, after⟩
      cases answer with
      | error failure => rfl
      | ok value =>
          dsimp only
          rw [find_plug]
          cases found : findChallenge environment.crypto system.database payload.challengeId
              phone with
          | none => rfl
          | some row =>
              obtain ⟨wanted, _, listed⟩ := Option.bind_eq_some_iff.mp found
              refine settled_plug collisionFree (held row (List.mem_of_find?_eq_some listed)) ?_
              intro fits same live
              rw [presented_verify number charged found, if_pos ⟨same, fits, live⟩] at missed other
              exact ⟨fun equal => missed (congrArg some equal),
                fun equal => other (congrArg some equal)⟩

omit [DecidableEq Digest] in
theorem send_sms_blind (dispatch : Dispatch) (phone other code text : String)
    (left right : List (String × String)) :
    (sendSms sms dispatch phone code left).1 = (sendSms sms dispatch other text right).1 := by
  unfold sendSms
  split
  · split <;> rfl
  · cases dispatch with
    | answered => rfl
    | failed taken => rfl

/-- A request that draws another challenge answers alike. -/
theorem request_plug (hash : Digest) (request : RequestInfo) (draws : RequestDraws)
    (payload : OtpRequestIn) (fresh : draws.challengeId ≠ id) (system : System Digest)
    (texts : List (String × String)) :
    let plain := requestOtp environment settings sms request draws payload system
    let plugged := requestOtp environment settings sms request draws payload
      ⟨plug id hash system.database, system.services, texts⟩
    plugged.1 = plain.1 ∧ plugged.2.services = plain.2.services ∧
      plugged.2.database = plug id hash plain.2.database := by
  dsimp only
  rw [request_otp_eq, request_otp_eq]
  cases environment.normalizePhone payload.phone payload.region with
  | none => exact ⟨rfl, rfl, rfl⟩
  | some phone =>
      dsimp only
      have unlike : (challengeRow environment settings request draws phone).id ≠ id := fresh
      rw [supersede_plug, fits_plug, insert_plug id hash unlike]
      rcases charges (requestBudgets environment request draws phone) system.services with
        ⟨answer, after⟩
      cases answer with
      | error failure => exact ⟨rfl, rfl, rfl⟩
      | ok value =>
          dsimp only
          split
          · refine ⟨?_, rfl, rfl⟩
            unfold dispatched
            dsimp only
            rw [send_sms_blind sms draws.dispatch phone phone _ _ texts system.texts]
          · exact ⟨rfl, rfl, rfl⟩

include collisionFree in
/-- A call that tests neither code answers alike, and leaves the systems so. -/
theorem serve_masked {left right : System Digest}
    (masked : Masked environment id first second left right) (call : Call)
    (fresh : call.drawn ≠ some id) (missed : presentedCode environment id left call ≠ some first)
    (other : presentedCode environment id left call ≠ some second) :
    (serve environment settings sms left call).1 = (serve environment settings sms right call).1 ∧
      Masked environment id first second (serve environment settings sms left call).2
        (serve environment settings sms right call).2 := by
  have held : ∀ later ∈ (serve environment settings sms left call).2.database.challenges,
      later.id = id → later.codeHash = hashOtp environment.crypto id first := by
    intro later member same
    rcases serve_follows environment settings sms left call later member with
      ⟨row, present, follows⟩ | drawn
    · exact follows.codeHash.trans (masked.held row present (follows.id.symm.trans same))
    · exact absurd (drawn.trans (congrArg some same)) fresh
  obtain ⟨database, services, texts⟩ := right
  obtain rfl := masked.services
  obtain rfl := masked.database
  cases call with
  | purge now => exact ⟨rfl, rfl, purge_plug _ _ now left.database, held⟩
  | verify request draws payload =>
      have plugged := verify_plug collisionFree masked.held request draws payload missed other
      dsimp only at plugged
      dsimp only [serve]
      rw [plugged]
      exact ⟨rfl, rfl, rfl, held⟩
  | request request draws payload =>
      obtain ⟨answers, services, databases⟩ := request_plug settings sms
        (hashOtp environment.crypto id second) request draws payload
        (fun same => fresh (congrArg some same)) left texts
      exact ⟨congrArg Reply.requested answers.symm, services, databases, held⟩

theorem presented_masked {left right : System Digest}
    (masked : Masked environment id first second left right) (call : Call) :
    presentedCode environment id left call = presentedCode environment id right call := by
  obtain ⟨database, services, texts⟩ := right
  obtain rfl := masked.services
  obtain rfl := masked.database
  cases call with
  | request _ _ _ | purge _ => rfl
  | verify request draws payload =>
      unfold presentedCode
      simp only [find_plug]
      cases environment.normalizePhone payload.phone payload.region with
      | none => rfl
      | some phone =>
          dsimp only
          rcases charges (verifyBudgets environment request draws phone) left.services with
            ⟨answer, after⟩
          cases answer with
          | error failure => rfl
          | ok value =>
              dsimp only
              cases findChallenge environment.crypto left.database payload.challengeId phone with
              | none => rfl
              | some row => simp [plug_row_judge]

end Masking

section Budget
variable [DecidableEq Digest] (environment : Environment Digest) (settings : Settings)
  (sms : SmsSettings) (id : Uuid)

def largest : List Nat → Nat
  | [] => 0
  | number :: rest => max number (largest rest)

theorem largest_le_iff (numbers : List Nat) (bound : Nat) :
    largest numbers ≤ bound ↔ ∀ number ∈ numbers, number ≤ bound := by
  induction numbers with
  | nil => simp [largest]
  | cons number rest ih => simp [largest, ih]

/-- The most that a row with this id still takes. -/
def attemptsLeft (system : System Digest) : Nat :=
  largest ((system.database.challenges.filter fun row => decide (row.id = id)).map remaining)

omit [DecidableEq Digest] in
theorem attempts_left_le_iff (system : System Digest) (bound : Nat) :
    attemptsLeft id system ≤ bound ↔
      ∀ row ∈ system.database.challenges, row.id = id → remaining row ≤ bound := by
  unfold attemptsLeft
  rw [largest_le_iff]
  constructor
  · intro each row present same
    exact each _ (List.mem_map_of_mem (List.mem_filter.mpr ⟨present, decide_eq_true same⟩))
  · rintro each number listed
    obtain ⟨row, member, rfl⟩ := List.mem_map.mp listed
    obtain ⟨present, same⟩ := List.mem_filter.mp member
    exact each row present (of_decide_eq_true same)

/-- No call gives a challenge new attempts. -/
theorem serve_keeps (system : System Digest) (call : Call) (fresh : call.drawn ≠ some id) :
    attemptsLeft id (serve environment settings sms system call).2 ≤ attemptsLeft id system := by
  rw [attempts_left_le_iff]
  intro later member same
  rcases serve_follows environment settings sms system call later member with
    ⟨row, present, follows⟩ | drawn
  · exact Nat.le_trans (remaining_follows follows)
      ((attempts_left_le_iff id system _).mp (Nat.le_refl _) row present
        (follows.id.symm.trans same))
  · exact absurd (drawn.trans (congrArg some same)) fresh

omit [DecidableEq Digest] in
theorem accepting_live {row : OtpChallenge Digest} {now : Time}
    (live : judge (burn row) now true = .accepted) :
    row.consumedAt = none ∧ row.attempts < row.maxAttempts := by
  unfold judge burn at live
  split at live
  · cases live
  · rename_i unconsumed
    split at live
    · cases live
    · split at live
      · cases live
      · rename_i within
        have few : ¬row.maxAttempts < row.attempts + 1 := within
        exact ⟨by simpa using unconsumed, by omega⟩

omit [DecidableEq Digest] in
/-- A challenge that could have accepted a code has paid for the attempt. -/
theorem remaining_settled {row : OtpChallenge Digest} {now : Time}
    (live : judge (burn row) now true = .accepted) (branch : Branch) :
    remaining (branch.settles now (burn row)) < remaining row := by
  obtain ⟨unconsumed, left⟩ := accepting_live live
  have full : remaining row = row.maxAttempts - row.attempts := by
    simp [remaining, OtpChallenge.unconsumed, unconsumed]
  have spent : remaining (branch.settles now (burn row)) ≤ row.maxAttempts - (row.attempts + 1) := by
    unfold remaining
    split
    · cases branch <;> exact Nat.le_refl _
    · exact Nat.zero_le _
  omega

/-- Every row with the id of the saved one is that one. -/
theorem written_left {system : System Digest} {request : RequestInfo} {draws : Draws}
    {payload : OtpVerifyIn} {saved : OtpChallenge Digest} (same : saved.id = id)
    (challenges : (postVerify environment request draws payload system.database
      system.services).2.1.challenges = (written saved system.database).challenges) :
    attemptsLeft id (serve environment settings sms system (.verify request draws payload)).2 ≤
      remaining saved := by
  rw [attempts_left_le_iff]
  intro later member equal
  have listed : later ∈ (written saved system.database).challenges := by
    rw [← challenges]
    exact member
  obtain ⟨earlier, _, rfl⟩ := List.mem_map.mp listed
  split at equal
  · rename_i overwritten
    rw [if_pos overwritten]
  · rename_i apart
    exact absurd (equal.trans same.symm) apart

/-- A test is paid for. -/
theorem serve_spends (system : System Digest) (call : Call)
    (tests : (presentedCode environment id system call).isSome) :
    attemptsLeft id (serve environment settings sms system call).2 < attemptsLeft id system := by
  cases call with
  | request request draws payload => cases tests
  | purge now => cases tests
  | verify request draws payload =>
      cases number : environment.normalizePhone payload.phone payload.region with
      | none => simp [presentedCode, number] at tests
      | some phone =>
          rcases charged : charges (verifyBudgets environment request draws phone) system.services
            with ⟨answer, after⟩
          cases answer with
          | error failure => simp [presentedCode, number, charged] at tests
          | ok value =>
              cases found : findChallenge environment.crypto system.database payload.challengeId
                  phone with
              | none => simp [presentedCode, number, charged, found] at tests
              | some row =>
                  rw [presented_verify number charged found] at tests
                  split at tests
                  · rename_i live
                    obtain ⟨same, fits, accepting⟩ := live
                    have reaches : postVerify environment request draws payload system.database
                        system.services = settled environment request draws payload phone row
                          system.database after := by
                      rw [post_verify_eq]
                      simp only [number, charged, found]
                    have saved := settled_challenges environment request draws payload phone fits
                      system.database after
                    rw [← reaches] at saved
                    have few := remaining_settled accepting
                      (branchOf environment draws.verifiedAt payload.code row)
                    refine Nat.lt_of_le_of_lt (written_left environment settings sms id
                      ((follows_settled _ _ row).id.trans same) saved) ?_
                    obtain ⟨wanted, _, listed⟩ := Option.bind_eq_some_iff.mp found
                    exact Nat.lt_of_lt_of_le few ((attempts_left_le_iff id system _).mp
                      (Nat.le_refl _) row (List.mem_of_find?_eq_some listed) same)
                  · cases tests

end Budget

section Guesses
variable [DecidableEq Digest] (environment : Environment Digest) (settings : Settings)
  (sms : SmsSettings) (id : Uuid)

/-- The calls as queries that test codes of one challenge. -/
def codeGame : Game String (System Digest) Call Reply where
  respond := serve environment settings sms
  tested := presentedCode environment id
  budget := attemptsLeft id

theorem code_game_hides (collisionFree : Function.Injective environment.crypto.hmacDigest) :
    Hides (codeGame environment settings sms id) (fun call => call.drawn ≠ some id)
      (Masked environment id) where
  tested := fun masked call _ => presented_masked masked call
  missed := fun masked call fresh missed other =>
    serve_masked settings sms collisionFree masked call fresh missed other
  kept := fun _ call fresh => serve_keeps environment settings sms id _ call fresh
  spent := fun _ call _ tests => serve_spends environment settings sms id _ call tests

/-- The reply logs its caller in on the challenge. -/
def lets (call : Call) (reply : Reply) : Bool :=
  match call, reply with
  | .verify _ _ payload, .verified (.ok _) =>
      environment.crypto.parseUuid payload.challengeId == some id
  | _, _ => false

/-- One of the next calls is let in on the challenge. -/
def letIn (strategy : List Reply → Call) : Nat → System Digest → List Reply → Bool
  | 0, _, _ => false
  | rounds + 1, system, replies =>
      let (reply, after) := serve environment settings sms system (strategy replies)
      lets environment id (strategy replies) reply ||
        letIn strategy rounds after (replies ++ [reply])

variable {environment id}

omit [DecidableEq Digest] in
theorem accepted_matches {burned : OtpChallenge Digest} {now : Time} {matching : Bool}
    (accepted : judge burned now matching = .accepted) : matching = true := by
  unfold judge at accepted
  cases matching with
  | true => rfl
  | false =>
      split at accepted
      · cases accepted
      · split at accepted
        · cases accepted
        · split at accepted <;> cases accepted

theorem settled_ok {request : RequestInfo} {draws : Draws} {payload : OtpVerifyIn}
    {phone : String} {row : OtpChallenge Digest} {database : Database Digest}
    {services : Services} {session : SessionOut}
    (done : (settled environment request draws payload phone row database services).1 =
      .ok session) :
    row.attempts < smallintMax ∧
      branchOf environment draws.verifiedAt payload.code row = .accepted := by
  unfold settled at done
  dsimp only at done
  split at done
  · rename_i fits
    split at done
    · rename_i accepted
      exact ⟨fits, accepted⟩
    · cases done
  · cases done

/-- Only the code of the challenge is let in on it. -/
theorem lets_tests (collisionFree : Function.Injective environment.crypto.hmacDigest)
    {system : System Digest} {code : String}
    (held : ∀ row ∈ system.database.challenges, row.id = id →
      row.codeHash = hashOtp environment.crypto id code) {call : Call}
    (let_in : lets environment id call (serve environment settings sms system call).1 = true) :
    presentedCode environment id system call = some code := by
  cases call with
  | request request draws payload => cases let_in
  | purge now => cases let_in
  | verify request draws payload =>
      dsimp only [serve, lets] at let_in
      rw [post_verify_eq] at let_in
      cases number : environment.normalizePhone payload.phone payload.region with
      | none => simp [number] at let_in
      | some phone =>
          rcases charged : charges (verifyBudgets environment request draws phone) system.services
            with ⟨answer, after⟩
          cases answer with
          | error failure => simp [number, charged] at let_in
          | ok value =>
              cases found : findChallenge environment.crypto system.database payload.challengeId
                  phone with
              | none => simp [number, charged, found] at let_in
              | some row =>
                  rw [presented_verify number charged found]
                  simp only [number, charged, found] at let_in
                  rcases done : settled environment request draws payload phone row
                    system.database after with ⟨answer, rest⟩
                  cases answer with
                  | error failure => simp [done] at let_in
                  | ok session =>
                      obtain ⟨fits, accepted⟩ := settled_ok (congrArg Prod.fst done)
                      obtain ⟨wanted, parsed, listed⟩ := Option.bind_eq_some_iff.mp found
                      have named := List.find?_some listed
                      simp only [Bool.and_eq_true, beq_iff_eq] at named
                      simp only [done, parsed, beq_iff_eq, Option.some.injEq] at let_in
                      have same : row.id = id := named.1.trans let_in
                      unfold branchOf at accepted
                      have matching := accepted_matches accepted
                      rw [matching] at accepted
                      rw [if_pos ⟨same, fits, accepted⟩]
                      have hashes := (held row (List.mem_of_find?_eq_some listed) same).symm.trans
                        (beq_iff_eq.mp matching)
                      rw [same] at hashes
                      rw [hash_otp_injective collisionFree hashes]

/-- Who is let in has tested the code. -/
theorem let_in_found (collisionFree : Function.Injective environment.crypto.hmacDigest)
    {strategy : List Reply → Call} (fresh : ∀ replies, (strategy replies).drawn ≠ some id)
    {code : String} (rounds : Nat) {system : System Digest} (replies : List Reply)
    (held : ∀ row ∈ system.database.challenges, row.id = id →
      row.codeHash = hashOtp environment.crypto id code)
    (let_in : letIn environment settings sms id strategy rounds system replies = true) :
    found (codeGame environment settings sms id) strategy code rounds system replies = true := by
  induction rounds generalizing system replies with
  | zero => cases let_in
  | succ rounds ih =>
      rw [found, Bool.or_eq_true]
      rcases Bool.or_eq_true_iff.mp let_in with now | later
      · exact Or.inl (beq_iff_eq.mpr (lets_tests settings sms collisionFree held now))
      · refine Or.inr (ih _ ?_ later)
        intro row member same
        rcases serve_follows environment settings sms system (strategy replies) row member with
          ⟨earlier, present, follows⟩ | drawn
        · exact follows.codeHash.trans (held earlier present (follows.id.symm.trans same))
        · exact absurd (drawn.trans (congrArg some same)) (fresh replies)

/-- A request that issues a challenge, with this code drawn for it. -/
def issuedWith (environment : Environment Digest) (request : RequestInfo) (draws : RequestDraws)
    (payload : OtpRequestIn) (system : System Digest) (code : Nat) : Reply × System Digest :=
  serve environment settings sms system (.request request { draws with code := code } payload)

section Issuing
variable {database : Database Digest} (unused : ∀ row ∈ database.challenges, row.id ≠ id)
include unused

omit [DecidableEq Digest] in
theorem unused_plug (hash : Digest) : plug id hash database = database := by
  unfold plug
  have same : database.challenges.map (plugRow id hash) = database.challenges :=
    (List.map_congr_left fun row member => plug_row_other _ _ row (unused row member)).trans
      (List.map_id _)
  rw [same]

theorem unused_supersede (crypto : Crypto Digest) (phone : String) (now : Time) :
    ∀ row ∈ (supersede crypto phone now database).challenges, row.id ≠ id := by
  intro row member
  obtain ⟨earlier, present, rfl⟩ := List.mem_map.mp member
  split
  · exact unused earlier present
  · exact unused earlier present

omit [DecidableEq Digest] in
theorem unused_masked (first second : String) (services : Services)
    (texts others : List (String × String)) (bound : Nat) :
    Masked environment id first second ⟨database, services, texts⟩ ⟨database, services, others⟩ ∧
      attemptsLeft id ⟨database, services, texts⟩ ≤ bound := by
  refine ⟨⟨rfl, (unused_plug unused _).symm, fun row member same => ?_⟩, ?_⟩
  · exact absurd same (unused row member)
  · rw [attempts_left_le_iff]
    intro row member same
    exact absurd same (unused row member)

omit [DecidableEq Digest] in
/-- The challenge with one code beside the challenge with another. -/
theorem inserted_masked {row other : OtpChallenge Digest} {first second : String}
    (same : row.id = id) (code : row.codeHash = hashOtp environment.crypto id first)
    (recoded : other = { row with codeHash := hashOtp environment.crypto id second })
    (services : Services) (texts others : List (String × String)) :
    Masked environment id first second ⟨insertChallenge row database, services, texts⟩
        ⟨insertChallenge other database, services, others⟩ ∧
      attemptsLeft id ⟨insertChallenge row database, services, texts⟩ ≤ remaining row := by
  refine ⟨⟨rfl, ?_, ?_⟩, ?_⟩
  · have rest := congrArg Database.challenges
      (unused_plug unused (hashOtp environment.crypto id second))
    unfold plug at rest ⊢
    simp only [insertChallenge, List.map_append, List.map_cons, List.map_nil] at rest ⊢
    rw [rest, plug_row_same _ _ _ same, recoded]
  · intro found member equal
    rcases List.mem_append.mp member with old | new
    · exact absurd equal (unused found old)
    · rw [List.mem_singleton.mp new, code]
  · rw [attempts_left_le_iff]
    intro found member equal
    rcases List.mem_append.mp member with old | new
    · exact absurd equal (unused found old)
    · rw [List.mem_singleton.mp new]

end Issuing

omit [DecidableEq Digest] in
theorem challenge_recoded (environment : Environment Digest) (request : RequestInfo)
    (draws : RequestDraws) (phone : String) (left right : Nat) :
    challengeRow environment settings request { draws with code := right } phone =
      { challengeRow environment settings request { draws with code := left } phone with
        codeHash := hashOtp environment.crypto draws.challengeId (numericOtp 6 right) } := by
  unfold challengeRow newChallenge
  rfl

omit [DecidableEq Digest] in
theorem fits_recoded (environment : Environment Digest) (request : RequestInfo)
    (draws : RequestDraws) (phone : String) (left right : Nat) (database : Database Digest) :
    challengeFits environment
        (challengeRow environment settings request { draws with code := right } phone) database =
      challengeFits environment
        (challengeRow environment settings request { draws with code := left } phone) database := by
  unfold challengeFits challengeRow newChallenge
  dsimp only

omit [DecidableEq Digest] in
theorem remaining_new (environment : Environment Digest) (request : RequestInfo)
    (draws : RequestDraws) (phone : String) :
    remaining (challengeRow environment settings request draws phone) ≤ settings.otpMaxAttempts := by
  unfold remaining
  split
  · exact Nat.sub_le _ _
  · exact Nat.zero_le _

/-- The codes that may be drawn leave systems that reply alike and are masked. -/
theorem issued_open {request : RequestInfo} {draws : RequestDraws} {payload : OtpRequestIn}
    {system : System Digest}
    (unused : ∀ row ∈ system.database.challenges, row.id ≠ draws.challengeId) (left right : Nat) :
    let issued := issuedWith settings sms environment request draws payload system
    (issued left).1 = (issued right).1 ∧
      Masked environment draws.challengeId (numericOtp 6 left) (numericOtp 6 right)
        (issued left).2 (issued right).2 ∧
      attemptsLeft draws.challengeId (issued left).2 ≤ settings.otpMaxAttempts := by
  unfold issuedWith serve
  dsimp only
  rw [request_otp_eq, request_otp_eq]
  cases environment.normalizePhone payload.phone payload.region with
  | none => exact ⟨rfl, unused_masked unused _ _ _ _ _ _⟩
  | some phone =>
      have budgets : requestBudgets environment request { draws with code := right } phone =
        requestBudgets environment request { draws with code := left } phone := rfl
      have recoded := challenge_recoded settings environment request draws phone left right
      dsimp only
      rw [budgets]
      rcases charges (requestBudgets environment request { draws with code := left } phone)
        system.services with ⟨answer, after⟩
      cases answer with
      | error failure => exact ⟨rfl, unused_masked unused _ _ _ _ _ _⟩
      | ok value =>
          dsimp only
          rw [fits_recoded settings environment request draws phone left right]
          split
          · unfold dispatched
            dsimp only
            obtain ⟨masked, left_over⟩ := inserted_masked
              (unused_supersede unused environment.crypto phone draws.supersededAt) rfl rfl recoded
              after (sendSms sms draws.dispatch phone (numericOtp 6 left) system.texts).2
              (sendSms sms draws.dispatch phone (numericOtp 6 right) system.texts).2
            refine ⟨?_, masked, Nat.le_trans left_over (remaining_new settings environment _ _ _)⟩
            rw [send_sms_blind sms draws.dispatch phone phone (numericOtp 6 left)
              (numericOtp 6 right) system.texts system.texts]
          · exact ⟨rfl, unused_masked unused _ _ _ _ _ _⟩

/-- Of the codes that a challenge may be issued with, no more than its attempts
let anyone in on it, whatever is asked before, between and afterwards. -/
theorem codes_bounded (environment : Environment Digest) (settings : Settings)
    (sms : SmsSettings) (collisionFree : Function.Injective environment.crypto.hmacDigest)
    (request : RequestInfo) (draws : RequestDraws) (payload : OtpRequestIn)
    (system : System Digest)
    (unused : ∀ row ∈ system.database.challenges, row.id ≠ draws.challengeId)
    (strategy : List Reply → Call)
    (fresh : ∀ replies, (strategy replies).drawn ≠ some draws.challengeId) (rounds : Nat) :
    (Finset.univ.filter fun code : Fin (10 ^ 6) =>
      let issued := issuedWith settings sms environment request draws payload system code
      letIn environment settings sms draws.challengeId strategy rounds issued.2 [issued.1]).card ≤
      settings.otpMaxAttempts := by
  let issued := issuedWith settings sms environment request draws payload system
  -- the secrets are the texts; each says which draw it comes from
  let drawOf : String → Nat := fun text => Nat.ofDigitChars 10 text.toList 0
  let texts : Finset String := Finset.univ.image fun code : Fin (10 ^ 6) => numericOtp 6 code
  have drawn : ∀ text ∈ texts, numericOtp 6 (drawOf text) = text := by
    intro text member
    obtain ⟨code, _, rfl⟩ := Finset.mem_image.mp member
    exact congrArg (numericOtp 6) (numeric_otp_value 6 code)
  have still : Open (codeGame environment settings sms draws.challengeId)
      (Masked environment draws.challengeId) texts (fun text => (issued (drawOf text)).2)
      settings.otpMaxAttempts := by
    constructor
    · intro first one second two
      have masked : Masked environment draws.challengeId _ _ (issued (drawOf first)).2
          (issued (drawOf second)).2 := (issued_open settings sms unused _ _).2.1
      rwa [drawn first one, drawn second two] at masked
    · intro text _
      exact (issued_open settings sms unused (drawOf text) 0).2.2
  have bounded := found_bounded (code_game_hides environment settings sms draws.challengeId
    collisionFree) fresh rounds [(issued 0).1] still
  refine Nat.le_trans (Finset.card_le_card_of_injOn (fun code : Fin (10 ^ 6) => numericOtp 6 code)
    ?_ ?_) bounded
  · intro code listed
    have entered := (Finset.mem_filter.mp listed).2
    obtain ⟨replies, masked, _⟩ := issued_open settings sms unused code 0
    refine Finset.mem_filter.mpr ⟨Finset.mem_image.mpr ⟨code, Finset.mem_univ code, rfl⟩, ?_⟩
    have back : drawOf (numericOtp 6 code) = code := numeric_otp_value 6 code
    rw [back]
    refine let_in_found settings sms collisionFree fresh rounds _ masked.held ?_
    rw [← replies]
    exact entered
  · intro left _ right _ same
    exact Fin.ext (numeric_otp_injective 6 same)

end Guesses

/-- The codes from the first one on, one a reply. -/
def guessInTurn (replies : List Reply) : Call :=
  .verify fromAddress firstDraws
    { challengeId := "c1", code := numericOtp 6 replies.length, phone := "+911" }

def nothingYet : System String :=
  ⟨{ outstanding with challenges := [] }, ⟨RateLimit.emptyStore, []⟩, []⟩

theorem guess_in_turn_bounded : (Finset.univ.filter fun code : Fin (10 ^ 6) =>
    let issued := issuedWith ⟨300, 5⟩ ⟨"console", false⟩ host fromAddress
      ⟨0, 0, 0, 1, 0, 0, .answered⟩ ⟨"+911", none⟩ nothingYet code
    letIn host ⟨300, 5⟩ ⟨"console", false⟩ 1 guessInTurn 10 issued.2 [issued.1]).card ≤ 5 :=
  codes_bounded host ⟨300, 5⟩ ⟨"console", false⟩ (fun _ _ same => same) fromAddress
    ⟨0, 0, 0, 1, 0, 0, .answered⟩ ⟨"+911", none⟩ nothingYet (fun _ member => by cases member)
    guessInTurn (fun _ same => by cases same) 10

end RunnerupChat.OtpSecrecy
