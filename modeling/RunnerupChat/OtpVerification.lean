import RunnerupChat.History
import RunnerupChat.OtpInvariant

/-!
When a verification succeeds. Apart from the rate limits, a code is accepted
exactly when it is the one the challenge was issued with for that number, in
time, before the challenge was superseded, accepted or exhausted, and within
its attempts.
-/

namespace RunnerupChat.OtpStore

open Accounts RateLimit SnapshotUpdate UniqueKeys

section Digests
variable {Digest : Type} {crypto : Crypto Digest}
  (collisionFree : Function.Injective crypto.hmacDigest)
include collisionFree

theorem phone_fingerprint_injective {left right : String}
    (same : phoneFingerprint crypto left = phoneFingerprint crypto right) : left = right := by
  have texts := congrArg String.toList (collisionFree same)
  exact String.toList_inj.mp (by simpa using texts)

theorem hash_otp_injective {challenge : Uuid} {left right : String}
    (same : hashOtp crypto challenge left = hashOtp crypto challenge right) : left = right := by
  have texts := congrArg String.toList (collisionFree same)
  exact String.toList_inj.mp (by simpa using texts)

end Digests

section Verification
variable {Digest : Type} (crypto : Crypto Digest) (settings : Settings)

/-- What the history has to say for `code` to be accepted at `now`. -/
def Eligible (before : List Entry) (challenge code phone : String) (now : Time) : Prop :=
  ∃ id expiresAt superseded, crypto.parseUuid challenge = some id ∧
    .issued id phone code expiresAt superseded ∈ before ∧ now < expiresAt ∧
    before.any (Entry.supersedes id) = false ∧ before.any (Entry.ends crypto id) = false ∧
    before.countP (Entry.reaches id) < settings.otpMaxAttempts

/-- Every verification that gets past the rate limits is accepted exactly when
its code is eligible. -/
def AcceptsEligible : List Entry → Prop :=
  History.Each fun before entry => ∀ challenge code phone now reached result,
    entry = .verified challenge code phone now reached (.result result) →
      (result = .ok ↔ Eligible crypto settings before challenge code phone now)

/-- The same of every verification, also of those the rate limits refuse. -/
def AlwaysAcceptsEligible : List Entry → Prop :=
  History.Each fun before entry => ∀ challenge code phone now reached answer,
    entry = .verified challenge code phone now reached answer →
      (answer = .result .ok ↔ Eligible crypto settings before challenge code phone now)

/-- A verification of a challenge that some code would have passed reaches it. -/
def ReachesEligible : List Entry → Prop :=
  History.Each fun before entry => ∀ challenge code phone now reached result right,
    entry = .verified challenge code phone now reached (.result result) →
      Eligible crypto settings before challenge right phone now →
      reached = crypto.parseUuid challenge

/-- The verification at this position of the journal would have been accepted
with the right code. -/
def EligibleGuess (journal : List Entry) (id : Uuid) (position : Nat) : Prop :=
  ∃ challenge code phone now reached result right,
    journal[position]? = some (.verified challenge code phone now reached (.result result)) ∧
      crypto.parseUuid challenge = some id ∧
      Eligible crypto settings (journal.take position) challenge right phone now

end Verification

section Runs
variable {Digest : Type} {crypto : Crypto Digest} {settings : Settings}

theorem judge_ok_iff (row : OtpChallenge Digest) (now : Time) (codeMatches : Bool) :
    (judge (burn row) now codeMatches).result = .ok ↔
      row.consumedAt = none ∧ now < row.expiresAt ∧ row.attempts < row.maxAttempts ∧
        codeMatches = true := by
  unfold judge
  split
  · rename_i consumed
    simp [Branch.result, burn] at consumed ⊢
    intro none
    simp [none] at consumed
  · rename_i unconsumed
    split
    · rename_i expired
      simp only [burn] at expired
      simp only [Branch.result, reduceCtorEq, false_iff]
      rintro ⟨_, current, _⟩
      exact Nat.not_lt.mpr expired current
    · rename_i current
      split
      · rename_i spent
        simp only [burn] at spent
        simp only [Branch.result, reduceCtorEq, false_iff]
        omega
      · rename_i remaining
        simp only [burn] at unconsumed current remaining
        cases codeMatches with
        | false => simp [Branch.result]
        | true =>
            simp only [Bool.not_true, Bool.false_eq_true, if_false, Branch.result, true_iff,
              and_true]
            exact ⟨by simpa using unconsumed, Nat.lt_of_not_le current, by omega⟩

variable [DecidableEq Digest] (collisionFree : Function.Injective crypto.hmacDigest)

include collisionFree in
/-- The row a verification has locked tells whether its code is eligible. -/
theorem accepted_iff {state : State Digest} (inv : Inv crypto settings state) {tx : TxId}
    {challenge code phone : String} {row : OtpChallenge Digest}
    (opened : state.txs tx = some (.selected challenge code phone row)) (now : Time) :
    (judge (burn row) now (row.codeHash == hashOtp crypto row.id code)).result = .ok ↔
      Eligible crypto settings state.journal challenge code phone now := by
  obtain ⟨member, _, number, named⟩ := inv.phases tx _ opened
  have agrees := inv.agrees
  have alive : row.consumedAt = none ↔ ¬Consumed crypto state.journal row.id := by
    rw [← agrees.consumed row member]
    simp
  rw [judge_ok_iff, alive, agrees.attempts row member, beq_iff_eq]
  constructor
  · rintro ⟨unconsumed, current, remaining, matching⟩
    obtain ⟨phone', code', superseded, origin⟩ := agrees.origin row member
    obtain ⟨found, present, same, issued⟩ := agrees.issued _ _ _ _ _ origin
    obtain rfl : found = row :=
      List.inj_on_of_nodup_map inv.unique.distinct present member same
    obtain rfl := phone_fingerprint_injective collisionFree (issued.phone.symm.trans number)
    obtain rfl := hash_otp_injective collisionFree (issued.code.symm.trans matching)
    rw [issued.budget] at remaining
    simp only [Consumed, not_or, Bool.not_eq_true] at unconsumed
    exact ⟨found.id, found.expiresAt, superseded, named, origin, current, unconsumed.1,
      unconsumed.2, remaining⟩
  · rintro ⟨id, expiresAt, superseded, parsed, origin, current, free, untaken, remaining⟩
    obtain rfl : row.id = id := Option.some.inj (named.symm.trans parsed)
    obtain ⟨found, present, same, issued⟩ := agrees.issued _ _ _ _ _ origin
    obtain rfl : found = row :=
      List.inj_on_of_nodup_map inv.unique.distinct present member same
    rw [issued.budget, issued.expires, issued.code]
    exact ⟨by simp [Consumed, free, untaken], current, remaining, rfl⟩

omit [DecidableEq Digest] in
/-- A verification that finds no challenge was for no eligible code. -/
theorem unknown_ineligible {state : State Digest} (inv : Inv crypto settings state)
    {challenge phone : String}
    (absent : ∀ row ∈ state.challenges, crypto.parseUuid challenge = some row.id →
      row.phoneHash ≠ phoneFingerprint crypto phone) (code : String) (now : Time) :
    ¬Eligible crypto settings state.journal challenge code phone now := by
  rintro ⟨id, expiresAt, superseded, parsed, origin, _⟩
  obtain ⟨row, member, rfl, issued⟩ := inv.agrees.issued _ _ _ _ _ origin
  exact absent row member parsed issued.phone

structure Laws (crypto : Crypto Digest) (settings : Settings) (journal : List Entry) : Prop where
  accepts : AcceptsEligible crypto settings journal
  reaches : ReachesEligible crypto settings journal

include collisionFree in
theorem step_laws {state next : State Digest} {action : Action} (inv : Inv crypto settings state)
    (laws : Laws crypto settings state.journal)
    (taken : step crypto settings state action = some next) :
    Laws crypto settings next.journal := by
  -- one more entry, right in view of the journal so far
  have extend : ∀ entry, next.journal = state.journal ++ [entry] →
      (∀ challenge code phone now reached result,
        entry = .verified challenge code phone now reached (.result result) →
        (result = .ok ↔ Eligible crypto settings state.journal challenge code phone now) ∧
        ∀ right, Eligible crypto settings state.journal challenge right phone now →
          reached = crypto.parseUuid challenge) → Laws crypto settings next.journal := by
    intro entry added right
    rw [added]
    exact ⟨(History.each_snoc_iff _ _).mpr ⟨laws.accepts, fun challenge code phone now reached
        result same => (right challenge code phone now reached result same).1⟩,
      (History.each_snoc_iff _ _).mpr ⟨laws.reaches, fun challenge code phone now reached
        result sent same => (right challenge code phone now reached result same).2 sent⟩⟩
  cases step_outcome taken with
  | silent rows added => rwa [added]
  | limited challenge code phone now retryAfter rows added =>
      apply extend _ added
      rintro _ _ _ _ _ _ ⟨⟩
  | unknown challenge code phone now rows added absent =>
      apply extend _ added
      rintro _ _ _ _ _ _ ⟨⟩
      have ineligible := unknown_ineligible inv absent
      exact ⟨by simp [ineligible], fun right eligible => absurd eligible (ineligible right now)⟩
  | settled tx challenge code phone row now branch opened decides rows added =>
      subst decides
      have named := (inv.phases tx _ opened).2.2.2
      apply extend _ added
      rintro _ _ _ _ _ _ ⟨⟩
      exact ⟨accepted_iff collisionFree inv opened now, fun _ _ => named.symm⟩
  | issued tx phone code row superseded progress commits opened rows added =>
      apply extend _ added
      rintro _ _ _ _ _ _ ⟨⟩

include collisionFree in
theorem run_laws {actions : List Action} {final : State Digest}
    (ran : Runs.run (step crypto settings) initial actions = some final) :
    Laws crypto settings final.journal := by
  have both := Runs.run_invariant
    (fun state => Inv crypto settings state ∧ Laws crypto settings state.journal)
    (fun state action next holds taken =>
      ⟨step_inv state action next holds.1 taken, step_laws collisionFree holds.1 holds.2 taken⟩)
    ran ⟨initial_inv, History.each_nil, History.each_nil⟩
  exact both.2

omit [DecidableEq Digest] in
/-- An accepted challenge is never accepted again. -/
theorem accepted_once {journal : List Entry} (accepts : AcceptsEligible crypto settings journal)
    (id : Uuid) : journal.countP (Entry.answers crypto id .ok) ≤ 1 := by
  apply History.each_first_count
  intro before entry after split accepted
  cases entry with
  | issued other phone code expiresAt superseded => cases accepted
  | verified challenge code phone now reached answer =>
      simp only [Entry.answers, Bool.and_eq_true, beq_iff_eq] at accepted
      obtain ⟨parsed, rfl⟩ := accepted
      obtain ⟨found, _, _, named, _, _, _, untaken, _⟩ :=
        (accepts before _ after split challenge code phone now reached .ok rfl).mp rfl
      obtain rfl : id = found := Option.some.inj (parsed.symm.trans named)
      simp only [List.any_eq_false] at untaken ⊢
      intro earlier inside answered
      exact untaken earlier inside (by simp [Entry.ends, answered])

omit [DecidableEq Digest] in
/-- Each eligible guess burns an attempt, and sees fewer than the budget burned. -/
theorem guesses_bounded {journal : List Entry} (reaches : ReachesEligible crypto settings journal)
    (id : Uuid) (positions : List Nat) (distinct : positions.Nodup)
    (guesses : ∀ position ∈ positions, EligibleGuess crypto settings journal id position) :
    positions.length ≤ settings.otpMaxAttempts := by
  apply History.positions_bounded (Entry.reaches id) positions distinct
  intro position member
  obtain ⟨challenge, code, phone, now, reached, result, right, found, parsed, eligible⟩ :=
    guesses position member
  have hit := History.each_at reaches found challenge code phone now reached result right rfl
    eligible
  refine ⟨_, found, ?_, ?_⟩
  · simp [Entry.reaches, hit, parsed]
  · obtain ⟨same, _, _, named, _, _, _, _, remaining⟩ := eligible
    obtain rfl : id = same := Option.some.inj (parsed.symm.trans named)
    exact remaining

/-- Verification in every run. -/
theorem verification_exact (crypto : Crypto Digest) (settings : Settings)
    (collisionFree : Function.Injective crypto.hmacDigest) (actions : List Action)
    (final : State Digest) (ran : Runs.run (step crypto settings) initial actions = some final) :
    AcceptsEligible crypto settings final.journal ∧
      (∀ id, final.journal.countP (Entry.answers crypto id .ok) ≤ 1) ∧
      ∀ id (positions : List Nat), positions.Nodup →
        (∀ position ∈ positions, EligibleGuess crypto settings final.journal id position) →
        positions.length ≤ settings.otpMaxAttempts := by
  have laws := run_laws collisionFree ran
  exact ⟨laws.accepts, accepted_once laws.accepts, guesses_bounded laws.reaches⟩

/-- Digests that keep their text, and one known challenge id. -/
def plain : Crypto String where
  hmacDigest := id
  sha256 := id
  hex := id
  parseUuid := fun text => if text = "c1" then some 1 else none

def issueFirst : List Action :=
  [.receive 0 (.issue "+911" none none), .enforceBudget 0 0, .startUpdate 0 0,
    .insertRow 0 1 "123456" 0, .commit 0]

/-- One verification by `tx`, at that many milliseconds. -/
def tryCode (tx : TxId) (challenge code : String) : List Action :=
  [.receive tx (.verify challenge code "+911" none), .enforceBudget tx tx]

def guessedOnce : List Action :=
  issueFirst ++ tryCode 1 "c1" "000000" ++ [.selectForUpdate 1 1000, .settle 1 1000] ++
    tryCode 2 "c1" "123456" ++ [.selectForUpdate 2 2000, .settle 2 2000]

theorem guessed_once_exact : ∃ final : State String,
    Runs.run (step plain ⟨300, 5⟩) initial guessedOnce = some final ∧
      final.journal = [.issued 1 "+911" "123456" 300000000 [],
        .verified "c1" "000000" "+911" 1000 (some 1) (.result .invalid),
        .verified "c1" "123456" "+911" 2000 (some 1) (.result .ok)] ∧
      AcceptsEligible plain ⟨300, 5⟩ final.journal := by
  refine ⟨_, rfl, rfl, ?_⟩
  exact (verification_exact plain ⟨300, 5⟩ Function.injective_id guessedOnce _ rfl).1

/-- Ten verifications under an id that is none use up the budget of the number. -/
def budgetSpent : List Action :=
  issueFirst ++ (List.range' 1 10).flatMap (fun tx =>
    tryCode tx "none" "000000" ++ [.selectForUpdate tx 0]) ++ tryCode 11 "c1" "123456"

set_option maxRecDepth 4000 in
theorem eligible_code_limited : ¬∀ (actions : List Action) (final : State String),
    Runs.run (step plain ⟨300, 5⟩) initial actions = some final →
      AlwaysAcceptsEligible plain ⟨300, 5⟩ final.journal := by
  intro claimed
  let before : List Entry := .issued 1 "+911" "123456" 300000000 [] ::
    List.replicate 10 (.verified "none" "000000" "+911" 0 none (.result .invalid))
  obtain ⟨final, ran, journal⟩ : ∃ final : State String,
      Runs.run (step plain ⟨300, 5⟩) initial budgetSpent = some final ∧
        final.journal = before ++
          [.verified "c1" "123456" "+911" 11000 none (.limited 899)] := ⟨_, rfl, rfl⟩
  have law := claimed budgetSpent final ran before _ [] journal
    "c1" "123456" "+911" 11000 none (.limited 899) rfl
  have eligible : Eligible plain ⟨300, 5⟩ before "c1" "123456" "+911" 11000 :=
    ⟨1, 300000000, [], by decide, by decide, by decide, by decide, by decide, by decide⟩
  cases law.mpr eligible

end Runs

end RunnerupChat.OtpStore
