import Mathlib.Data.Finset.Card
import RunnerupChat.EventOrder
import RunnerupChat.SendCalls

/-!
Calls of `send_message` that race for one idempotency key. A call that finds
the message is answered with it. One that looked before the message was
committed gets to its insert, and is not.
-/

namespace RunnerupChat.MessageStore

open Accounts

def Action.sends (key : SendKey) : Action → Bool
  | .receive _ request => request.key == some key
  | _ => false

/-- The number of calls with the key. -/
def sendsOf (key : SendKey) (actions : List Action) : Nat := actions.countP (Action.sends key)

/-- What the calls with the key are answered in a run. -/
def answersOf (searchMatches : String → String → Bool) (key : SendKey) (actions : List Action) :
    List Answer :=
  Runs.observed (step searchMatches) (answered key) initial actions

/-- No call with the key is cut off from outside. -/
def Uncut (key : SendKey) (state : State) (action : Action) : Prop :=
  ∀ tx, action = .rollback tx → callOf state tx ≠ some key

/-- Every call is answered: one made the message, and the others return it. -/
def AnsweredOnce (calls : Nat) (answers : List Answer) : Prop :=
  answers.length = calls ∧ ∃ message others, answers.Perm (.sent message true :: others) ∧
    ∀ answer ∈ others, ∃ same, answer = .sent same false ∧ same.id = message.id

def Answer.told : Answer → Option (Uuid × Bool)
  | .sent message created => some (message.id, created)
  | .revised _ | .refused _ | .failed => none

/-- What the calls with the key have been told stands for one creation. -/
def Agreed (key : SendKey) (state : State) (answers : List Answer) : Prop :=
  ∃ told, answers.map Answer.told = told.map some ∧ Idempotency.Told (slotOf key state) told

/-- Every call with the key is answered or open. -/
def Accounted (key : SendKey) (done : List Action) (state : State) (answers : List Answer) :
    Prop :=
  ∃ opened : Finset TxId, (∀ tx, tx ∈ opened ↔ callOf state tx = some key) ∧
    sendsOf key done = answers.length + opened.card

section Runs
variable {searchMatches : String → String → Bool} {key : SendKey} {state next : State}
  {action : Action} {done : List Action} {answers : List Answer}

theorem calls_unasked (unasked : Unasked key action) :
    sendsOf key (done ++ [action]) = sendsOf key done := by
  have silent : action.sends key = false := by
    cases action with
    | receive tx request => simpa [Action.sends] using unasked tx request rfl
    | _ => rfl
  simp [sendsOf, silent]

theorem calls_asked {tx : TxId} {request : Request} (named : request.key = some key) :
    sendsOf key (done ++ [.receive tx request]) = sendsOf key done + 1 := by
  simp [sendsOf, Action.sends, named]

theorem accounted_step (inv : Inv state) (keyed : Keyed state) (uncut : Uncut key state action)
    (taken : step searchMatches state action = some next)
    (accounted : Accounted key done state answers) :
    Accounted key (done ++ [action]) next (answers ++ answered key state action next) := by
  obtain ⟨opened, members, count⟩ := accounted
  have stepped := call_step key inv keyed taken
  generalize answered key state action next = added at stepped ⊢
  cases stepped with
  | silent unasked calls slot =>
      refine ⟨opened, fun tx => ?_, ?_⟩
      · rw [members, calls]
      · rw [calls_unasked unasked, List.append_nil, count]
  | asked tx request origin named idle calls slot =>
      refine ⟨insert tx opened, fun other => ?_, ?_⟩
      · rw [Finset.mem_insert, members, calls]
      · rw [origin, calls_asked named, count, List.append_nil,
          Finset.card_insert_of_notMem (mt (members tx).mp idle), Nat.add_assoc]
  | cut tx origin opened => exact absurd opened (uncut tx origin)
  | ended tx answer running unasked calls tells =>
      have fewer := Finset.card_erase_add_one ((members tx).mpr running)
      refine ⟨opened.erase tx, fun other => ?_, ?_⟩
      · rw [Finset.mem_erase, members, calls]
      · rw [calls_unasked unasked, count, List.length_append, List.length_singleton]
        omega

theorem agreed_step (inv : Inv state) (keyed : Keyed state) (unraced : Unraced key state action)
    (taken : step searchMatches state action = some next)
    (accepted : ∀ error, Answer.refused error ∉ answered key state action next)
    (agreed : Agreed key state answers) :
    Agreed key next (answers ++ answered key state action next) := by
  obtain ⟨told, same, kept⟩ := agreed
  have stepped := call_step key inv keyed taken
  generalize answered key state action next = added at stepped accepted ⊢
  cases stepped with
  | silent unasked calls slot | asked tx request origin named idle calls slot
  | cut tx origin opened slot =>
      rw [List.append_nil]
      exact ⟨told, same, slot ▸ kept⟩
  | ended tx answer running unasked calls tells =>
      cases tells with
      | returned message created named stored =>
          refine ⟨told ++ [(message.id, created)], ?_, Idempotency.told_step stored kept⟩
          rw [List.map_append, List.map_append, same]
          rfl
      | refused error slot => exact absurd (List.mem_singleton_self _) (accepted error)
      | failed slot raced => exact absurd unraced raced

theorem sends_accounted (ran : Runs.run (step searchMatches) initial done = some state)
    (uncut : Runs.Meets (step searchMatches) (Uncut key) initial done) :
    Accounted key done state (answersOf searchMatches key done) := by
  have whole := Runs.observed_invariant
    (fun done state answers => Inv state ∧ Keyed state ∧ Accounted key done state answers)
    (answered key)
    (fun done state answers action next holds uncut taken =>
      ⟨step_inv state action next holds.1 taken, step_keyed holds.1 holds.2.1 taken,
        accounted_step holds.1 holds.2.1 uncut taken holds.2.2⟩)
    ran uncut ⟨initial_inv, initial_keyed, ∅, by simp [callOf, initial], rfl⟩
  exact whole.2.2

theorem sends_agreed (ran : Runs.run (step searchMatches) initial done = some state)
    (accepted : ∀ error, Answer.refused error ∉ answersOf searchMatches key done)
    (unraced : Runs.Meets (step searchMatches) (Unraced key) initial done) :
    Agreed key state (answersOf searchMatches key done) := by
  -- a refusal among the answers so far is one among all answers
  have whole := Runs.observed_invariant
    (fun _ state answers => Inv state ∧ Keyed state ∧
      ((∀ error, Answer.refused error ∉ answers) → Agreed key state answers)) (answered key)
    (fun done state answers action next holds unraced taken =>
      ⟨step_inv state action next holds.1 taken, step_keyed holds.1 holds.2.1 taken,
        fun accepted => agreed_step holds.1 holds.2.1 unraced taken
          (fun error given => accepted error (List.mem_append_right _ given))
          (holds.2.2 fun error given => accepted error (List.mem_append_left _ given))⟩)
    ran unraced ⟨initial_inv, initial_keyed, fun _ => ⟨[], rfl, rfl⟩⟩
  exact whole.2.2 accepted

/-- All calls have ended exactly when each has an answer. -/
theorem accounted_ended_iff (accounted : Accounted key done state answers) :
    (∀ tx, callOf state tx ≠ some key) ↔ answers.length = sendsOf key done := by
  obtain ⟨opened, members, count⟩ := accounted
  have empty : (∀ tx, callOf state tx ≠ some key) ↔ opened.card = 0 := by
    rw [Finset.card_eq_zero, Finset.eq_empty_iff_forall_notMem]
    exact forall_congr' fun tx => not_congr (members tx).symm
  rw [empty, count]
  omega

/-- An answer that stands for one creation. -/
theorem told_created {answer : Answer} {id : Uuid} {created : Bool}
    (told : answer.told = some (id, created)) :
    ∃ message, answer = .sent message created ∧ message.id = id := by
  cases answer with
  | sent message was =>
      obtain ⟨rfl, rfl⟩ := Prod.mk.inj (Option.some.inj told)
      exact ⟨message, rfl, rfl⟩
  | revised | refused | failed => cases told

theorem agreed_once (agreed : Agreed key state answers) (some' : answers ≠ []) :
    ∃ message others, answers.Perm (.sent message true :: others) ∧
      ∀ answer ∈ others, ∃ same, answer = .sent same false ∧ same.id = message.id := by
  obtain ⟨told, same, kept⟩ := agreed
  cases answers with
  | nil => exact absurd rfl some'
  | cons first others =>
      cases stored : slotOf key state with
      | none =>
          rw [stored] at kept
          obtain rfl : told = [] := kept
          cases same
      | some id =>
          rw [stored] at kept
          obtain ⟨retries, rfl⟩ := kept
          rw [List.map_cons, List.map_cons, List.map_replicate] at same
          obtain ⟨made, later⟩ := List.cons.inj same
          obtain ⟨message, rfl, named⟩ := told_created made
          refine ⟨message, others, List.Perm.refl _, fun answer member => ?_⟩
          have among := List.mem_map_of_mem (f := Answer.told) member
          rw [later] at among
          obtain ⟨copy, rfl, again⟩ := told_created (List.eq_of_mem_replicate among)
          exact ⟨copy, rfl, again.trans named.symm⟩

theorem fail_told {tx : TxId} {startedAt : Time} {phase : Phase}
    (opened : state.txs tx = some ⟨startedAt, phase⟩) (mine : phase.key = some key)
    (journal : next.journal = state.journal ++ [.answered tx .failed]) :
    Answer.failed ∈ answered key state action next := by
  have call : callOf state tx = some key := (call_opened opened).trans mine
  simp [answered_added _ journal, Entry.tells, call]

/-- A call that comes to one of the two branches answers no message. -/
theorem raced_fails (state : State) (action : Action) (next : State)
    (taken : step searchMatches state action = some next) (raced : ¬Unraced key state action) :
    Answer.failed ∈ answered key state action next := by
  by_contra silent
  refine raced ⟨?_, ?_⟩
  case refine_1 =>
    rintro tx startedAt draft rfl opened rfl
    by_contra gone
    apply silent
    have failing : next = fail state tx := by
      simp only [step, allocateSeq, opened] at taken
      split at taken
      · exact (Option.some.inj taken).symm
      · rename_i row found
        split at taken
        · exact (Option.some.inj taken).symm
        · rename_i alive
          exact absurd ⟨row, found, by simpa using alive⟩ gone
    exact fail_told opened rfl (by rw [failing]; rfl)
  case refine_2 =>
    rintro tx id startedAt draft seq rfl opened rfl
    by_contra stored
    apply silent
    have collides := stored_collides draft seq
      (by_contra fun absent => stored (slot_empty_iff.mpr absent))
    have failing : next.journal = state.journal ++ [.answered tx .failed] := by
      simp only [step, flush, opened] at taken
      split at taken
      · cases taken
      · split at taken
        · rw [← Option.some.inj taken]
          rfl
        · rename_i free
          exact absurd ((collides_iff state draft seq).mpr collides) free
    exact fail_told opened rfl failing

/-- Once the calls with a key have ended and none was refused, they are answered
as one creation and its retries exactly when none came to its insert with the
message stored, or to its number with the conversation gone. -/
theorem sent_once_iff (searchMatches : String → String → Bool) (actions : List Action)
    (final : State) (ran : Runs.run (step searchMatches) initial actions = some final)
    (key : SendKey) (called : 0 < sendsOf key actions) (ended : ∀ tx, callOf final tx ≠ some key)
    (uncut : Runs.Meets (step searchMatches) (Uncut key) initial actions)
    (accepted : ∀ error, Answer.refused error ∉ answersOf searchMatches key actions) :
    AnsweredOnce (sendsOf key actions) (answersOf searchMatches key actions) ↔
      Runs.Meets (step searchMatches) (Unraced key) initial actions := by
  constructor
  · rintro ⟨_, message, others, answers, retries⟩
    apply Runs.meets_of_observed raced_fails ran
    intro failed
    rcases List.mem_cons.mp (answers.subset failed) with first | later
    · cases first
    · obtain ⟨same, other, _⟩ := retries _ later
      cases other
  · intro unraced
    have length := (accounted_ended_iff (sends_accounted ran uncut)).mp ended
    refine ⟨length, agreed_once (sends_agreed ran accepted unraced) ?_⟩
    intro silent
    rw [silent] at length
    exact called.ne length

theorem uncut_of_none (none : ∀ tx, Action.rollback tx ∉ done) :
    Runs.Meets (step searchMatches) (Uncut key) state done := by
  apply Runs.meets_of_visits
  rintro before action after rfl visited reached tx rfl
  exact absurd (List.mem_append_right before List.mem_cons_self) (none tx)

end Runs

/-- A send up to its look at the attachments. -/
def prepareText (tx : TxId) (conversation key : Uuid) (body : String) (nowMs : Nat) :
    List Action :=
  [.receive tx (.send (granted conversation) (some key) (some body) .text none []), .examine tx,
    .enforceBudget tx nowMs, .enforceBudget tx nowMs, .proceed tx, .selectAttachments tx]

def insertText (tx : TxId) (id : Uuid) : List Action :=
  [.allocateSeq tx, .flush tx id, .logEvent tx, .commit tx]

/-- A send, and its retry after the commit. -/
def sentAgain : List Action :=
  [.addConversation 1] ++ prepareText 1 1 30 "hello" 0 ++ insertText 1 10 ++
    [.receive 2 (.send (granted 1) (some 30) (some "hello") .text none []), .examine 2]

/-- Two calls that both look before either commits. -/
def sentTogether : List Action :=
  [.addConversation 1] ++ prepareText 1 1 30 "hello" 0 ++ prepareText 2 1 30 "hello" 1 ++
    insertText 1 10 ++ [.allocateSeq 2, .flush 2 11]

/-- User 7's key 30 in conversation 1. -/
def retriedKey : SendKey := ⟨1, 7, 30⟩

set_option maxRecDepth 4000 in
theorem sent_again_unraced : ∃ final,
    Runs.run (step sameText) initial sentAgain = some final ∧
      Runs.Meets (step sameText) (Unraced retriedKey) initial sentAgain := by
  obtain ⟨final, message, ran, count, answers⟩ : ∃ final message,
      Runs.run (step sameText) initial sentAgain = some final ∧
        sendsOf retriedKey sentAgain = 2 ∧
        answersOf sameText retriedKey sentAgain = [.sent message true, .sent message false] :=
    ⟨_, _, rfl, rfl, rfl⟩
  have uncut : Runs.Meets (step sameText) (Uncut retriedKey) initial sentAgain :=
    uncut_of_none (by simp [sentAgain, prepareText, insertText])
  have ended := (accounted_ended_iff (sends_accounted ran uncut)).mpr (by rw [answers, count]; rfl)
  refine ⟨final, ran, (sent_once_iff sameText sentAgain final ran retriedKey (by rw [count]; decide)
    ended uncut (by rw [answers]; simp)).mp ?_⟩
  rw [answers, count]
  exact ⟨rfl, message, _, List.Perm.refl _, by simp⟩

set_option maxRecDepth 4000 in
theorem late_send_fails : ¬∀ (actions : List Action) (final : State),
    Runs.run (step sameText) initial actions = some final →
      ∀ key, 0 < sendsOf key actions → (∀ tx, callOf final tx ≠ some key) →
        Runs.Meets (step sameText) (Uncut key) initial actions →
          (∀ error, Answer.refused error ∉ answersOf sameText key actions) →
            AnsweredOnce (sendsOf key actions) (answersOf sameText key actions) := by
  intro claimed
  obtain ⟨final, message, ran, count, answers⟩ : ∃ final message,
      Runs.run (step sameText) initial sentTogether = some final ∧
        sendsOf retriedKey sentTogether = 2 ∧
        answersOf sameText retriedKey sentTogether = [.sent message true, .failed] :=
    ⟨_, _, rfl, rfl, rfl⟩
  have uncut : Runs.Meets (step sameText) (Uncut retriedKey) initial sentTogether :=
    uncut_of_none (by simp [sentTogether, prepareText, insertText])
  have ended := (accounted_ended_iff (sends_accounted ran uncut)).mpr (by rw [answers, count]; rfl)
  obtain ⟨_, made, others, same, retries⟩ := claimed sentTogether final ran retriedKey
    (by rw [count]; decide) ended uncut (by rw [answers]; simp)
  rw [answers] at same
  have failed : Answer.failed ∈ Answer.sent made true :: others := same.subset (by simp)
  rcases List.mem_cons.mp failed with first | later
  · cases first
  · obtain ⟨copy, other, _⟩ := retries _ later
    cases other

end RunnerupChat.MessageStore
