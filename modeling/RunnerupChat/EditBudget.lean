import RunnerupChat.MessageContent
import RunnerupChat.MessageRevisions
import RunnerupChat.Pacing

/-!
How often one message can be edited. The window of 48 hours and the budget of
20 edits in a minute leave room for more edits than `edit_count` can number.
-/

namespace RunnerupChat.MessageStore

open Accounts RateLimit SlidingWindow SnapshotUpdate UniqueKeys

/-- A call of `edit_message` at a millisecond of the clock. -/
structure EditCall where
  body : String
  nowMs : Nat

/-- The text passes `_validate_body`. -/
def EditCall.isValid (call : EditCall) (kind : MessageKind) : Bool :=
  (validateBody (some call.body) kind 0).isOk

section Statements
variable (searchMatches : String → String → Bool)

/-- A statement that a request no longer makes is passed over. -/
def attempt (state : State) (action : Action) : State :=
  (step searchMatches state action).getD state

/-- The statements of a call, from its time on. -/
def editStatements (tx : TxId) (access : Access) (message : Uuid) (clock : Time)
    (call : EditCall) : List Action :=
  [.advance (call.nowMs * 1000 - clock), .receive tx (.edit access message call.body),
    .examine tx, .enforceBudget tx call.nowMs, .proceed tx, .allocateSeq tx, .logEvent tx,
    .commit tx, .publish tx]

def editMessage (tx : TxId) (access : Access) (message : Uuid) (state : State) (call : EditCall) :
    State :=
  (editStatements tx access message state.clock call).foldl (attempt searchMatches) state

def editAll (tx : TxId) (access : Access) (message : Uuid) (state : State)
    (calls : List EditCall) : State :=
  calls.foldl (editMessage searchMatches tx access message) state

end Statements

section Calls
variable {searchMatches : String → String → Bool} {state next : State} {tx : TxId}
  {access : Access} {loaded : Message} {call : EditCall}

/-- The user may edit what he sent. -/
def MayEdit (access : Access) : Prop :=
  access.can .readMessages = true ∧ access.can .editOwnMessage = true

/-- The message of the user is there to be edited, and nothing is in the way. -/
structure Editable (state : State) (tx : TxId) (access : Access) (loaded : Message) : Prop where
  row : rowOf state loaded.id = some loaded
  idle : state.txs tx = none
  live : loaded.deletedAt = none
  own : loaded.senderId = some access.user
  place : ∃ row, state.conversations.find? (fun row => row.id == loaded.conversationId) = some row ∧
    row.deletedAt = none
  unlocked : state.locks loaded.conversationId = none

/-- The call comes in time and within the budget. -/
structure Timely (state : State) (access : Access) (loaded : Message) (call : EditCall) : Prop where
  later : state.clock ≤ call.nowMs * 1000
  window : call.nowMs * 1000 ≤ loaded.createdAt + editWindowSeconds * second
  admitted : (check state.limiter .messageEditUser (toString access.user) call.nowMs 1).1.allowed =
    true

/-- What a call leaves whatever its answer. -/
structure Answered (state next : State) (tx : TxId) (access : Access) (loaded after : Message)
    (call : EditCall) : Prop where
  editable : Editable next tx access after
  same : after.id = loaded.id ∧ after.kind = loaded.kind ∧ after.createdAt = loaded.createdAt
  clock : next.clock = call.nowMs * 1000
  limiter : next.limiter =
    (check state.limiter .messageEditUser (toString access.user) call.nowMs 1).2

theorem attempt_some {action : Action} (taken : step searchMatches state action = some next) :
    attempt searchMatches state action = next := by
  rw [attempt, taken, Option.getD_some]

/-- The state in which a call has come in. -/
def receivedState (state : State) (tx : TxId) (access : Access) (message : Uuid)
    (call : EditCall) : State :=
  enter { state with clock := call.nowMs * 1000 } tx (call.nowMs * 1000)
    (.received (.edit access message call.body))

/-- The state in which a call is past its budget. -/
def limitedState (state : State) (tx : TxId) (access : Access) (loaded : Message)
    (call : EditCall) : State :=
  enter { state with
    clock := call.nowMs * 1000
    limiter := (check state.limiter .messageEditUser (toString access.user) call.nowMs 1).2 }
    tx (call.nowMs * 1000) (.limiting (.edit access loaded call.body) [])

theorem assign_again {Value : Type} (values : TxId → Option Value) (tx : TxId)
    (first second : Option Value) :
    assign (assign values tx first) tx second = assign values tx second := by
  funext key
  simp only [assign]
  split <;> rfl

theorem examine_edit {startedAt : Time} {body : String}
    (opened : state.txs tx = some ⟨startedAt, .received (.edit access loaded.id body)⟩)
    (may : MayEdit access) (row : rowOf state loaded.id = some loaded)
    (live : loaded.deletedAt = none) (own : loaded.senderId = some access.user)
    (window : state.clock ≤ loaded.createdAt + editWindowSeconds * second) :
    examine state tx = some (enter state tx startedAt (.limiting (.edit access loaded body)
      [(.messageEditUser, toString access.user)])) := by
  unfold rowOf at row
  simp only [examine, opened, examineMessage, row, may.1, if_true, canModifyMessage, live, own,
    may.2, Option.isNone_none, beq_self_eq_true, Bool.and_self, Bool.not_true, Bool.false_eq_true,
    if_false, if_neg (Nat.not_lt.mpr window)]

theorem enforce_admits {store : Store} {name : LimitName} {identity : String} {nowMs : Nat}
    (admitted : (check store name identity nowMs 1).1.allowed = true) :
    enforce store name identity nowMs = (.ok (), (check store name identity nowMs 1).2) := by
  simp only [enforce, admitted, if_true]

theorem edit_received (idle : state.txs tx = none) (later : state.clock ≤ call.nowMs * 1000)
    (message : Uuid) :
    attempt searchMatches (attempt searchMatches state
        (.advance (call.nowMs * 1000 - state.clock))) (.receive tx (.edit access message call.body)) =
      receivedState state tx access message call := by
  have moved : attempt searchMatches state (.advance (call.nowMs * 1000 - state.clock)) =
      { state with clock := call.nowMs * 1000 } := by
    simp only [attempt, step, Option.getD_some, Nat.add_sub_cancel' later]
  rw [moved]
  apply attempt_some
  simp only [step, receive, idle, Option.isSome_none, Bool.false_eq_true, if_false, receivedState]

/-- The statements of a call up to its budget. -/
theorem edit_admitted (may : MayEdit access) (editable : Editable state tx access loaded)
    (timely : Timely state access loaded call) :
    editMessage searchMatches tx access loaded.id state call =
      [.proceed tx, .allocateSeq tx, .logEvent tx, .commit tx, .publish tx].foldl
        (attempt searchMatches) (limitedState state tx access loaded call) := by
  have received : (receivedState state tx access loaded.id call).txs tx =
      some ⟨call.nowMs * 1000, .received (.edit access loaded.id call.body)⟩ := assign_same _ _ _
  have examined := examine_edit received may editable.row editable.live editable.own timely.window
  have charged : attempt searchMatches (attempt searchMatches
      (receivedState state tx access loaded.id call) (.examine tx))
        (.enforceBudget tx call.nowMs) = limitedState state tx access loaded call := by
    have passed : step searchMatches (receivedState state tx access loaded.id call)
      (.examine tx) = _ := examined
    rw [attempt_some passed]
    apply attempt_some
    simp only [step, enforceBudget, enter, receivedState, assign_same,
      enforce_admits timely.admitted]
    simp only [limitedState, enter, assign_again]
  simp only [editMessage, editStatements, List.foldl_cons, List.foldl_nil,
    edit_received editable.idle timely.later, charged]

/-- A request that has ended makes no more statements. -/
theorem ended_passes (idle : state.txs tx = none) (rest : List Action)
    (own : ∀ action ∈ rest, action ∈ [.allocateSeq tx, .logEvent tx, .commit tx, .publish tx]) :
    rest.foldl (attempt searchMatches) state = state := by
  induction rest with
  | nil => rfl
  | cons action rest ih =>
      have skipped : attempt searchMatches state action = state := by
        have listed := own action List.mem_cons_self
        simp only [List.mem_cons, List.not_mem_nil, or_false] at listed
        rcases listed with rfl | rfl | rfl | rfl <;>
          simp only [attempt, step, allocateSeq, logEvent, commit, publish, idle, Option.getD_none]
      rw [List.foldl_cons, skipped]
      exact ih fun other member => own other (List.mem_cons_of_mem action member)

theorem limited_editable (editable : Editable state tx access loaded) {base : State}
    (messages : base.messages = state.messages) (conversations : base.conversations =
      state.conversations) (locks : base.locks loaded.conversationId = none)
    (idle : base.txs tx = none) : Editable base tx access loaded where
  row := by
    rw [rowOf, messages]
    exact editable.row
  idle := idle
  live := editable.live
  own := editable.own
  place := conversations ▸ editable.place
  unlocked := locks

variable (searchMatches) in
/-- A call whose text is refused. -/
theorem invalid_edit (may : MayEdit access) (editable : Editable state tx access loaded)
    (timely : Timely state access loaded call) (invalid : call.isValid loaded.kind = false) :
    ∃ next, editMessage searchMatches tx access loaded.id state call = next ∧
      Answered state next tx access loaded loaded call ∧
      ∃ added, next.journal = state.journal ++ added ∧ .answered tx .failed ∉ added := by
  obtain ⟨error, refused⟩ : ∃ error, validateBody (some call.body) loaded.kind 0 = .error error := by
    unfold EditCall.isValid at invalid
    cases checked : validateBody (some call.body) loaded.kind 0 with
    | error error => exact ⟨error, rfl⟩
    | ok body =>
        rw [checked] at invalid
        cases invalid
  have ended : attempt searchMatches (limitedState state tx access loaded call) (.proceed tx) =
      refuse (limitedState state tx access loaded call) tx error := by
    apply attempt_some
    simp only [step, proceed, limitedState, enter, assign_same, refused]
  refine ⟨refuse (limitedState state tx access loaded call) tx error, ?_, ?_, _, rfl, by simp⟩
  · rw [edit_admitted may editable timely, List.foldl_cons, ended]
    exact ended_passes (assign_same _ _ _) _ (by simp)
  · refine ⟨limited_editable editable rfl rfl ?_ (assign_same _ _ _), ⟨rfl, rfl, rfl⟩, rfl, rfl⟩
    show release state.locks tx loaded.conversationId = none
    rw [release, editable.unlocked]
    rfl

/-- The state in which the row of a call is to be written. -/
def writingState (state : State) (tx : TxId) (access : Access) (loaded : Message)
    (call : EditCall) (body : Option String) (seq : Nat) : State :=
  enter { limitedState state tx access loaded call with
    locks := acquire state.locks loaded.conversationId tx }
    tx (call.nowMs * 1000)
    (.writing (.revise (editOf access loaded body (call.nowMs * 1000))) seq)

variable (searchMatches) in
theorem valid_edit (may : MayEdit access) (editable : Editable state tx access loaded)
    (timely : Timely state access loaded call) (valid : call.isValid loaded.kind = true) :
    ∃ body seq, editMessage searchMatches tx access loaded.id state call =
      [.logEvent tx, .commit tx, .publish tx].foldl (attempt searchMatches)
        (writingState state tx access loaded call (some body) seq) := by
  obtain ⟨body, checked⟩ : ∃ body,
      validateBody (some call.body) loaded.kind 0 = .ok (some body) := by
    cases checked : validateBody (some call.body) loaded.kind 0 with
    | error error =>
        rw [EditCall.isValid, checked] at valid
        cases valid
    | ok body =>
        obtain ⟨_, _, _, rfl⟩ := (MessageContent.validate_iff _ _ _ _).mp checked
        exact ⟨_, rfl⟩
  obtain ⟨row, found, live⟩ := editable.place
  have ready : attempt searchMatches (limitedState state tx access loaded call) (.proceed tx) =
      enter (limitedState state tx access loaded call) tx (call.nowMs * 1000)
        (.ready (.revise (editOf access loaded (some body) (call.nowMs * 1000)))) := by
    apply attempt_some
    simp only [step, proceed, limitedState, enter, assign_same, checked]
  have numbered : attempt searchMatches (enter (limitedState state tx access loaded call) tx
      (call.nowMs * 1000) (.ready (.revise (editOf access loaded (some body)
        (call.nowMs * 1000))))) (.allocateSeq tx) =
      writingState state tx access loaded call (some body) (row.lastSeq + 1) := by
    apply attempt_some
    have named : row.id = loaded.conversationId := by simpa using List.find?_some found
    have free : available state.locks loaded.conversationId tx = true := by
      simp [available, editable.unlocked]
    have place : (Job.revise (editOf access loaded (some body) (call.nowMs * 1000))).conversation =
        loaded.conversationId := rfl
    simp only [step, allocateSeq, limitedState, enter, assign_same, place, found, live,
      Option.isSome_none, Bool.false_eq_true, if_false, assign_again, writingState, named, free,
      if_true]
  refine ⟨body, row.lastSeq + 1, ?_⟩
  rw [edit_admitted may editable timely, List.foldl_cons, ready, List.foldl_cons, numbered]

variable (searchMatches) in
/-- A call that finds the counter at its end. -/
theorem overflowing_edit (may : MayEdit access) (editable : Editable state tx access loaded)
    (timely : Timely state access loaded call) (valid : call.isValid loaded.kind = true)
    (full : smallintMax ≤ loaded.editCount) :
    ∃ next, editMessage searchMatches tx access loaded.id state call = next ∧
      Answered state next tx access loaded loaded call ∧
      next.journal = state.journal ++ [.answered tx .failed] := by
  obtain ⟨body, seq, ran⟩ := valid_edit searchMatches may editable timely valid
  have refused : attempt searchMatches
      (writingState state tx access loaded call (some body) seq) (.logEvent tx) =
        fail (writingState state tx access loaded call (some body) seq) tx := by
    apply attempt_some
    have unfit : ¬loaded.editCount + 1 ≤ smallintMax := by omega
    simp only [step, logEvent, writingState, enter, assign_same, Write.fits, editOf,
      decide_eq_true_eq, if_neg unfit]
  refine ⟨fail (writingState state tx access loaded call (some body) seq) tx, ?_, ?_, rfl⟩
  · rw [ran, List.foldl_cons, refused]
    exact ended_passes (assign_same _ _ _) _ (by simp)
  · refine ⟨limited_editable editable rfl rfl ?_ (assign_same _ _ _), ⟨rfl, rfl, rfl⟩, rfl, rfl⟩
    show release (acquire state.locks loaded.conversationId tx) tx loaded.conversationId = none
    simp [release]

/-- The copy that was read is the row that is written. -/
theorem overlay_own (body : Option String) (now : Time) :
    overlay (editOf access loaded body now) loaded = (editOf access loaded body now).changed := by
  simp only [overlay, editOf, ite_self, Message.mk.injEq, true_and, and_true]
  exact ⟨ite_eq_right_iff.mpr Eq.symm, ite_eq_right_iff.mpr Eq.symm,
    ite_eq_right_iff.mpr Eq.symm⟩

/-- The state that an edit leaves. -/
def editedState (state : State) (tx : TxId) (access : Access) (loaded : Message)
    (call : EditCall) (body : Option String) (seq : Nat) : State :=
  let revision := editOf access loaded body (call.nowMs * 1000)
  let event := eventOf (.revise revision) seq (state.lastEventId + 1) (call.nowMs * 1000)
  { state with
    conversations := state.conversations.map fun row =>
      if row.id = loaded.conversationId then { row with lastSeq := seq } else row
    messages := state.messages.map fun row =>
      if row.id = loaded.id then overlay revision row else row
    edits := state.edits ++ [⟨loaded.id, loaded.body, access.user⟩]
    events := state.events ++ [event]
    lastEventId := state.lastEventId + 1
    locks := release (release (acquire state.locks loaded.conversationId tx) tx) tx
    txs := assign state.txs tx none
    limiter := (check state.limiter .messageEditUser (toString access.user) call.nowMs 1).2
    clock := call.nowMs * 1000
    journal := state.journal ++ [.logged event, .answered tx (.revised revision.changed)] ++
      [.published ⟨.edited, loaded.conversationId, (Write.revise revision).payload⟩] }

theorem edited_editable (editable : Editable state tx access loaded) (call : EditCall)
    (body : Option String) (seq : Nat) :
    Editable (editedState state tx access loaded call body seq) tx access
      (editOf access loaded body (call.nowMs * 1000)).changed where
  row := by
    refine (find_overlay (editOf access loaded body (call.nowMs * 1000)) state.messages
      loaded.id).trans ?_
    have found := editable.row
    unfold rowOf at found
    rw [found]
    exact congrArg some ((if_pos rfl).trans (overlay_own body _))
  idle := assign_same _ _ _
  live := editable.live
  own := editable.own
  place := by
    obtain ⟨row, found, live⟩ := editable.place
    have named : row.id = loaded.conversationId := by simpa using List.find?_some found
    refine ⟨{ row with lastSeq := seq }, ?_, live⟩
    show List.find? (fun row => row.id == loaded.conversationId) (state.conversations.map fun row =>
      if row.id = loaded.conversationId then { row with lastSeq := seq } else row) = _
    have ids : (fun row : Conversation => row.id == loaded.conversationId) ∘ (fun row =>
        if row.id = loaded.conversationId then { row with lastSeq := seq } else row) =
        fun row => row.id == loaded.conversationId := by
      funext row
      simp only [Function.comp]
      split <;> rfl
    rw [List.find?_map, ids, found, Option.map_some, if_pos named]
  unlocked := by
    show release (release (acquire state.locks loaded.conversationId tx) tx) tx
      loaded.conversationId = none
    simp [release]

variable (searchMatches) in
/-- A call that edits the message. -/
theorem counted_edit (may : MayEdit access) (editable : Editable state tx access loaded)
    (timely : Timely state access loaded call) (valid : call.isValid loaded.kind = true)
    (room : loaded.editCount < smallintMax) :
    ∃ next after, editMessage searchMatches tx access loaded.id state call = next ∧
      Answered state next tx access loaded after call ∧ after.editCount = loaded.editCount + 1 ∧
      ∃ added, next.journal = state.journal ++ added ∧ .answered tx .failed ∉ added := by
  obtain ⟨body, seq, ran⟩ := valid_edit searchMatches may editable timely valid
  have logged : attempt searchMatches
      (writingState state tx access loaded call (some body) seq) (.logEvent tx) =
        enter { writingState state tx access loaded call (some body) seq with
          lastEventId := state.lastEventId + 1 } tx (call.nowMs * 1000)
          (.logged (.revise (editOf access loaded (some body) (call.nowMs * 1000))) seq
            (state.lastEventId + 1)) := by
    apply attempt_some
    have fits : loaded.editCount + 1 ≤ smallintMax := room
    simp only [step, logEvent, writingState, limitedState, enter, assign_same, Write.fits, editOf,
      decide_eq_true_eq, if_pos fits]
  have closing : attempt searchMatches (attempt searchMatches (enter
      { writingState state tx access loaded call (some body) seq with
        lastEventId := state.lastEventId + 1 } tx (call.nowMs * 1000)
        (.logged (.revise (editOf access loaded (some body) (call.nowMs * 1000))) seq
          (state.lastEventId + 1))) (.commit tx)) (.publish tx) =
      editedState state tx access loaded call (some body) seq := by
    simp only [attempt, step, commit, publish, enter, assign_same, Option.getD_some, writingState,
      limitedState, applyWrite, finish, close, assign_again]
    rfl
  refine ⟨editedState state tx access loaded call (some body) seq, _, ?_,
    ⟨edited_editable editable call (some body) seq, ⟨rfl, rfl, rfl⟩, rfl, rfl⟩, rfl,
    _, List.append_assoc _ _ _, by simp⟩
  rw [ran, List.foldl_cons, logged]
  exact closing

end Calls

section Sequences
variable {searchMatches : String → String → Bool} {state : State} {tx : TxId} {access : Access}
  {loaded : Message} {calls : List EditCall}

/-- The budget admits every call. -/
def AllAdmitted (user : Uuid) : Store → List EditCall → Prop
  | _, [] => True
  | store, call :: rest =>
      (check store .messageEditUser (toString user) call.nowMs 1).1.allowed = true ∧
        AllAdmitted user (check store .messageEditUser (toString user) call.nowMs 1).2 rest

/-- Edits of a new message by its sender, each in a millisecond of its own by the
limiter's clock, within the edit window and admitted by the budget. -/
structure EditSequence (searchMatches : String → String → Bool) (state : State) (tx : TxId)
    (access : Access) (loaded : Message) (calls : List EditCall) : Prop where
  reached : ∃ actions, Runs.run (step searchMatches) initial actions = some state
  may : MayEdit access
  editable : Editable state tx access loaded
  unedited : loaded.editCount = 0
  increasing : (calls.map EditCall.nowMs).Pairwise (· < ·)
  later : ∀ call ∈ calls, state.clock ≤ call.nowMs * 1000
  window : ∀ call ∈ calls, call.nowMs * 1000 ≤ loaded.createdAt + editWindowSeconds * second
  history : ∃ log : List Call, (log.map Call.now ++ calls.map EditCall.nowMs).Pairwise (· ≤ ·) ∧
    state.limiter (bucketKey .messageEditUser (toString access.user)) =
      (served log).store (bucketKey .messageEditUser (toString access.user))
  admitted : AllAdmitted access.user state.limiter calls

/-- No call is answered with an exception. -/
def NoneFails (searchMatches : String → String → Bool) (state : State) (tx : TxId)
    (access : Access) (message : Uuid) (calls : List EditCall) : Prop :=
  .answered tx .failed ∉
    (editAll searchMatches tx access message state calls).journal.drop state.journal.length

variable (searchMatches) in
/-- Exactly the edits beyond the last number fail. -/
theorem edits_counted (may : MayEdit access) (editable : Editable state tx access loaded)
    (few : loaded.editCount ≤ smallintMax)
    (increasing : (calls.map EditCall.nowMs).Pairwise (· < ·))
    (later : ∀ call ∈ calls, state.clock ≤ call.nowMs * 1000)
    (window : ∀ call ∈ calls, call.nowMs * 1000 ≤ loaded.createdAt + editWindowSeconds * second)
    (admitted : AllAdmitted access.user state.limiter calls) :
    ∃ added, (editAll searchMatches tx access loaded.id state calls).journal =
      state.journal ++ added ∧ (.answered tx .failed ∈ added ↔
        smallintMax < loaded.editCount + (calls.filter (·.isValid loaded.kind)).length) := by
  induction calls generalizing state loaded with
  | nil => exact ⟨[], by simp [editAll], by simpa using few⟩
  | cons call rest ih =>
      obtain ⟨first, others⟩ := admitted
      have timely : Timely state access loaded call :=
        ⟨later call List.mem_cons_self, window call List.mem_cons_self, first⟩
      obtain ⟨next_, ordered⟩ := List.pairwise_cons.mp increasing
      -- the rest of the calls, from what the first one leaves
      have onward : ∀ next after, Answered state next tx access loaded after call →
          after.editCount ≤ smallintMax → ∃ added,
            (editAll searchMatches tx access loaded.id next rest).journal = next.journal ++ added ∧
            (.answered tx .failed ∈ added ↔ smallintMax <
              after.editCount + (rest.filter (·.isValid loaded.kind)).length) := by
        intro next after done fits
        obtain ⟨id, kind, created⟩ := done.same
        rw [← id, ← kind]
        refine ih done.editable fits ordered (fun other member => ?_) (fun other member => ?_) ?_
        · rw [done.clock]
          exact Nat.mul_le_mul_right _ (Nat.le_of_lt (next_ _ (List.mem_map_of_mem member)))
        · rw [created]
          exact window other (List.mem_cons_of_mem call member)
        · rw [done.limiter]
          exact others
      rw [editAll, List.foldl_cons, ← editAll.eq_1]
      cases valid : call.isValid loaded.kind with
      | false =>
          obtain ⟨next, ran, done, added, journal, fine⟩ :=
            invalid_edit searchMatches may editable timely valid
          obtain ⟨more, onwards, failing⟩ := onward next loaded done few
          refine ⟨added ++ more, by rw [ran, onwards, journal, List.append_assoc], ?_⟩
          rw [List.mem_append, or_iff_right fine, failing, List.filter_cons, valid]
          exact Iff.rfl
      | true =>
          rcases Nat.lt_or_ge loaded.editCount smallintMax with room | full
          · obtain ⟨next, after, ran, done, counted, added, journal, fine⟩ :=
              counted_edit searchMatches may editable timely valid room
            obtain ⟨more, onwards, failing⟩ := onward next after done (by omega)
            refine ⟨added ++ more, by rw [ran, onwards, journal, List.append_assoc], ?_⟩
            rw [List.mem_append, or_iff_right fine, failing, counted, List.filter_cons, valid,
              if_pos rfl, List.length_cons]
            omega
          · obtain ⟨next, ran, done, journal⟩ :=
              overflowing_edit searchMatches may editable timely valid full
            obtain ⟨more, onwards, _⟩ := onward next loaded done few
            refine ⟨.answered tx .failed :: more,
              by rw [ran, onwards, journal, List.append_assoc]; rfl, ?_⟩
            rw [List.filter_cons, valid, if_pos rfl, List.length_cons]
            exact iff_of_true List.mem_cons_self (by omega)

theorem none_fails_iff (sequence : EditSequence searchMatches state tx access loaded calls) :
    NoneFails searchMatches state tx access loaded.id calls ↔
      (calls.filter (·.isValid loaded.kind)).length ≤ smallintMax := by
  obtain ⟨added, journal, failing⟩ := edits_counted searchMatches sequence.may
    sequence.editable (by rw [sequence.unedited]; exact Nat.zero_le _) sequence.increasing
    sequence.later sequence.window sequence.admitted
  rw [NoneFails, journal, List.drop_left, failing, sequence.unedited, Nat.zero_add, Nat.not_lt]

/-- The budget admits a sequence exactly when each call finds room in the
window beside those admitted before. -/
theorem all_admitted_iff (user : Uuid) (log : List Call) {store : Store}
    (bucket : store (bucketKey .messageEditUser (toString user)) =
      (served log).store (bucketKey .messageEditUser (toString user)))
    (ordered : (log.map Call.now ++ calls.map EditCall.nowMs).Pairwise (· ≤ ·)) :
    AllAdmitted user store calls ↔ HasRoomAfter mergedWeight 20 60000
      (allowedBy mergedWeight 20 60000 (callTimes .messageEditUser (toString user) log))
      (calls.map EditCall.nowMs) := by
  induction calls generalizing store log with
  | nil => exact iff_of_true trivial fun before _ _ cut => by simp at cut
  | cons call rest ih =>
      let own : Call := ⟨.messageEditUser, toString user, call.nowMs⟩
      have logged : ((log ++ [own]).map Call.now ++ rest.map EditCall.nowMs).Pairwise (· ≤ ·) := by
        rw [List.map_append, List.append_assoc]
        exact ordered
      have decided : (check store .messageEditUser (toString user) call.nowMs 1).1.allowed =
          admits mergedWeight 20 60000 (allowedBy mergedWeight 20 60000
            (callTimes .messageEditUser (toString user) log)) call.nowMs := by
        rw [check_allowed, bucket, ← check_allowed]
        refine next_decision .messageEditUser (toString user) log [] own ?_
        rw [List.map_append] at logged
        rw [List.map_append]
        exact (List.pairwise_append.mp logged).1
      have times : callTimes .messageEditUser (toString user) (log ++ [own]) =
          callTimes .messageEditUser (toString user) log ++ [call.nowMs] := by
        rw [call_times_snoc, if_pos (by simp [own, Call.to])]
      rw [AllAdmitted, List.map_cons, has_room_cons, decided, admits, decide_eq_true_eq]
      apply and_congr_right
      intro room
      have kept : allowedBy mergedWeight 20 60000 (callTimes .messageEditUser (toString user) log) ++
          [call.nowMs] = allowedBy mergedWeight 20 60000
            (callTimes .messageEditUser (toString user) (log ++ [own])) := by
        rw [times, allowed_by_snoc, allow, admits, if_pos (decide_eq_true room)]
      rw [kept]
      refine ih (log ++ [own]) ?_ logged
      rw [served_snoc, check_store, if_pos rfl, bucket]
      exact ((check_store _ _ _ _ _).trans (if_pos rfl)).symm

end Sequences

section Spans

/-- All calls lie within that many milliseconds. -/
def Within (span : Nat) (calls : List EditCall) : Prop :=
  ∀ one ∈ calls, ∀ other ∈ calls, other.nowMs ≤ one.nowMs + span

theorem sequence_paced {searchMatches : String → String → Bool} {state : State} {tx : TxId}
    {access : Access} {loaded : Message} {calls : List EditCall}
    (sequence : EditSequence searchMatches state tx access loaded calls) (index : Nat)
    (inside : index < calls.length) :
    calls[0].nowMs + paced 20 60000 index ≤ calls[index].nowMs := by
  obtain ⟨log, ordered, bucket⟩ := sequence.history
  have room := has_room_of_after
    ((all_admitted_iff access.user log bucket ordered).mp sequence.admitted)
  have slow := paced_le (by decide) sequence.increasing room index (by simpa using inside)
  simpa using slow

/-- Edits at full pace. -/
def fastEdits (count : Nat) : List EditCall :=
  (List.range count).map fun index => ⟨"hi", paced 20 60000 index⟩

theorem fast_times (count : Nat) :
    (fastEdits count).map EditCall.nowMs = (List.range count).map (paced 20 60000) := by
  simp [fastEdits, Function.comp_def]

theorem fast_increasing (count : Nat) :
    ((fastEdits count).map EditCall.nowMs).Pairwise (· < ·) := by
  rw [fast_times, List.pairwise_map]
  exact List.pairwise_lt_range.imp fun before => paced_increasing (by decide) (by decide) before

theorem fast_within (count : Nat) :
    ∀ call ∈ fastEdits (count + 1), call.nowMs ≤ paced 20 60000 count := by
  intro call member
  obtain ⟨index, listed, rfl⟩ := List.mem_map.mp member
  have below := List.mem_range.mp listed
  rcases Nat.lt_or_ge index count with earlier | last
  · exact Nat.le_of_lt (paced_increasing (by decide) (by decide) earlier)
  · rw [show index = count by omega]

/-- A new message. -/
def announced : List Action :=
  [.addConversation 1] ++ sendText 1 1 30 10 "hello" 0 ++ [.commit 1, .publish 1]

set_option maxRecDepth 4000 in
/-- Within the window one more edit is admitted than the column can count. -/
theorem fast_sequence : ∃ state loaded, loaded.kind = .text ∧
    EditSequence sameText state 2 (granted 1) loaded (fastEdits 32768) := by
  obtain ⟨state, loaded, reached, row, named, idle, live, own, place, unlocked, unedited, created, clock,
      kind, bucket⟩ : ∃ state loaded, Runs.run (step sameText) initial announced = some state ∧
      rowOf state 10 = some loaded ∧ loaded.id = 10 ∧ state.txs 2 = none ∧ loaded.deletedAt = none ∧
      loaded.senderId = some (granted 1).user ∧
      (∃ row, state.conversations.find? (fun row => row.id == loaded.conversationId) = some row ∧
        row.deletedAt = none) ∧ state.locks loaded.conversationId = none ∧ loaded.editCount = 0 ∧
      loaded.createdAt = 0 ∧ state.clock = 0 ∧ loaded.kind = .text ∧
      state.limiter (bucketKey .messageEditUser (toString (granted 1).user)) =
        (served []).store (bucketKey .messageEditUser (toString (granted 1).user)) :=
    ⟨_, _, rfl, rfl, rfl, rfl, rfl, rfl, ⟨_, rfl, rfl⟩, rfl, rfl, rfl, rfl, rfl, rfl⟩
  have increasing := fast_increasing 32768
  have ordered : (([] : List Call).map Call.now ++
      (fastEdits 32768).map EditCall.nowMs).Pairwise (· ≤ ·) := by
    rw [List.map_nil, List.nil_append]
    exact increasing.imp Nat.le_of_lt
  refine ⟨state, loaded, kind, ⟨announced, reached⟩, ⟨rfl, rfl⟩,
    ⟨named ▸ row, idle, live, own, place, unlocked⟩, unedited, increasing, fun call _ => ?_,
    fun call member => ?_, ⟨[], ordered, bucket⟩, ?_⟩
  · rw [clock]
    exact Nat.zero_le _
  · have bound := fast_within 32767 call member
    rw [show paced 20 60000 32767 = 98280007 by rfl] at bound
    rw [created, editWindowSeconds, second]
    omega
  · rw [all_admitted_iff _ [] bucket ordered, fast_times]
    have room : HasRoom mergedWeight 20 60000 ((List.range 32768).map (paced 20 60000)) :=
      paced_room (by decide) (by decide) 32768
    exact fun before now after cut => room before now after cut

theorem fast_valid (count : Nat) :
    (fastEdits count).filter (·.isValid .text) = fastEdits count := by
  rw [List.filter_eq_self]
  intro call member
  obtain ⟨index, _, rfl⟩ := List.mem_map.mp member
  exact (by decide : (⟨"hi", 0⟩ : EditCall).isValid .text = true)

theorem fast_edits_fail {state : State} {loaded : Message} (kind : loaded.kind = .text)
    (sequence : EditSequence sameText state 2 (granted 1) loaded (fastEdits 32768)) :
    ¬NoneFails sameText state 2 (granted 1) loaded.id (fastEdits 32768) := by
  rw [none_fails_iff sequence, kind, fast_valid, fastEdits, List.length_map, List.length_range]
  decide

/-- No edit fails exactly if there are at most as many as the column counts.
Sequences are that short for sure if they last less than 98,280,007
milliseconds, which is well within the 48 hours. -/
theorem edits_fit_iff (searchMatches : String → String → Bool) (state : State) (tx : TxId)
    (access : Access) (loaded : Message) (calls : List EditCall)
    (sequence : EditSequence searchMatches state tx access loaded calls) :
    (NoneFails searchMatches state tx access loaded.id calls ↔
      (calls.filter (·.isValid loaded.kind)).length ≤ smallintMax) ∧
    ∀ span, (∀ searchMatches state tx access loaded calls,
      EditSequence searchMatches state tx access loaded calls → Within span calls →
        NoneFails searchMatches state tx access loaded.id calls) ↔ span < 98280007 := by
  refine ⟨none_fails_iff sequence, fun span => ⟨fun fit => ?_, ?_⟩⟩
  · by_contra long
    obtain ⟨state, loaded, kind, sequence⟩ := fast_sequence
    refine fast_edits_fail kind sequence (fit sameText state 2 (granted 1) loaded _ sequence ?_)
    intro one _ other member
    have bound := fast_within 32767 other member
    rw [show paced 20 60000 32767 = 98280007 by rfl] at bound
    omega
  · intro short searchMatches state tx access loaded calls sequence within
    rw [none_fails_iff sequence]
    by_contra many
    have fewer := List.length_filter_le (·.isValid loaded.kind) calls
    have inside : 32767 < calls.length := by
      have last : smallintMax = 32767 := rfl
      omega
    have slow := sequence_paced sequence 32767 inside
    have fast := within calls[0] (List.getElem_mem _) calls[32767] (List.getElem_mem _)
    rw [show paced 20 60000 32767 = 98280007 by rfl] at slow
    omega

theorem fast_edits_exceed : ∃ (state : State) (loaded : Message),
    ¬NoneFails sameText state 2 (granted 1) loaded.id (fastEdits 32768) := by
  obtain ⟨state, loaded, kind, sequence⟩ := fast_sequence
  refine ⟨state, loaded, fun fits => ?_⟩
  have few := (edits_fit_iff sameText state 2 (granted 1) loaded _ sequence).1.mp fits
  rw [kind, fast_valid, fastEdits, List.length_map, List.length_range] at few
  exact absurd few (by decide)

/-- 32,768 edits that the code admits, the last of which fails. -/
theorem admitted_edit_fails : ¬∀ searchMatches state tx access loaded calls,
    EditSequence searchMatches state tx access loaded calls →
      NoneFails searchMatches state tx access loaded.id calls := by
  intro claimed
  obtain ⟨state, loaded, kind, sequence⟩ := fast_sequence
  exact fast_edits_fail kind sequence (claimed sameText state 2 (granted 1) loaded _ sequence)

end Spans

end RunnerupChat.MessageStore
