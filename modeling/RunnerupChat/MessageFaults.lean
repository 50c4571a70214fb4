import RunnerupChat.EventOrder

/-!
`services/messages.py` with the mentions of a send, when any of its steps may
fail. A statement that raises, a connection that is lost and a process that
stops are one thing to the database: the open transaction is rolled back.
-/

namespace RunnerupChat.MessageFaults

open Accounts MessageStore UniqueKeys

structure MessageMention where
  messageId : Uuid
  userId : Uuid
  deriving DecidableEq

/-- The `username` of a row of `users`. -/
structure Username where
  userId : Uuid
  username : String
  deriving DecidableEq

/-- What `[a-z0-9_]` matches under `re.IGNORECASE`: also four letters whose
case mapping leads to `i`, `s` and `k`. -/
def isHandleChar (char : Char) : Bool :=
  char.isAlphanum || char == '_' || [0x130, 0x131, 0x17f, 0x212a].contains char.toNat

/-- `str.lower` of such a character. -/
def lowered (char : Char) : List Char :=
  if char.toNat = 0x130 then ['i', Char.ofNat 0x307]
  else if char.toNat = 0x212a then ['k']
  else [char.toLower]

/-- The groups of `@([a-z0-9_]{3,32})`. A match has no `@` after its first
character, so that nothing is found twice. -/
def handlesOf : List Char → List String
  | [] => []
  | char :: rest =>
      let handle := (rest.takeWhile isHandleChar).take 32
      if char = '@' ∧ 3 ≤ handle.length then
        String.ofList (handle.flatMap lowered) :: handlesOf rest
      else handlesOf rest

/-- Only members can be mentioned. -/
def resolveMentions (usernames : List Username) (members : List ConversationMember)
    (conversation : Uuid) (body : Option String) : List Uuid :=
  let handles := handlesOf (body.getD "").toList
  (usernames.filter fun row =>
    handles.contains (String.ofList (row.username.toList.map Char.toLower)) &&
      members.any fun member =>
        member.userId == row.userId && member.conversationId == conversation &&
          member.leftAt.isNone && member.state != .banned).map Username.userId

structure State where
  store : MessageStore.State
  usernames : List Username := []
  mentions : List MessageMention := []
  /-- The mentions that a transaction has added and not committed. -/
  mentioned : TxId → Option (List MessageMention) := fun _ => none

inductive Action where
  | setUsernames (usernames : List Username)
  | resolveMentions (tx : TxId)
  | serve (action : MessageStore.Action)

section Machine
variable (searchMatches : String → String → Bool)

def initial : State := { store := MessageStore.initial }

/-- The message that a transaction has inserted and not yet logged. -/
def inserted (store : MessageStore.State) (tx : TxId) : Option Message :=
  match store.txs tx with
  | some ⟨_, .writing (.create message _ _) _⟩ => some message
  | _ => none

/-- Whether a transaction has rows to commit. -/
def isWriting (store : MessageStore.State) (tx : TxId) : Bool :=
  match store.txs tx with
  | some ⟨_, .writing _ _⟩ | some ⟨_, .logged _ _ _⟩ => true
  | _ => false

/-- The event of a send is added after its mentions. -/
def isDue (state : State) : MessageStore.Action → Bool
  | .logEvent tx => (inserted state.store tx).isNone || (state.mentioned tx).isSome
  | _ => true

/-- The mentions that a step makes visible. -/
def committedMentions (state : State) : MessageStore.Action → List MessageMention
  | .commit tx => (state.mentioned tx).getD []
  | _ => []

def mention (state : State) (tx : TxId) : Option State :=
  (inserted state.store tx).bind fun message =>
    if (state.mentioned tx).isSome then none
    else some { state with
      mentioned := assign state.mentioned tx (some
        ((resolveMentions state.usernames state.store.members message.conversationId
          message.body).map fun user => ⟨message.id, user⟩)) }

def serve (state : State) (action : MessageStore.Action) : Option State :=
  if isDue state action then
    (MessageStore.step searchMatches state.store action).map fun store =>
      { state with
        store := store
        mentions := state.mentions ++ committedMentions state action
        -- what a transaction has not committed goes with it
        mentioned := fun tx => if isWriting store tx then state.mentioned tx else none }
  else none

def step (state : State) : Action → Option State
  | .setUsernames usernames => some { state with usernames := usernames }
  | .resolveMentions tx => mention state tx
  | .serve action => serve searchMatches state action

end Machine

/-- The request that a step belongs to. -/
def requestOf : Action → Option TxId
  | .setUsernames _ => none
  | .resolveMentions tx => some tx
  | .serve action => match action with
      | .receive tx _ | .examine tx | .enforceBudget tx _ | .searchRows tx _ | .proceed tx
      | .selectAttachments tx | .allocateSeq tx | .flush tx _ | .logEvent tx | .commit tx
      | .publish tx | .rollback tx => some tx
      | .advance _ | .addConversation _ | .deleteConversation _ | .setMembers _
      | .addAttachment _ => none

/-- The rows of the database that are committed; `last_seq` is in the
conversations. -/
structure Rows where
  messages : List Message
  edits : List MessageEdit
  mentions : List MessageMention
  attachments : List Attachment
  conversations : List Conversation
  events : List ConversationEvent
  deriving DecidableEq

def rowsOf (state : State) : Rows :=
  { messages := state.store.messages, edits := state.store.edits, mentions := state.mentions
    attachments := state.store.attachments, conversations := state.store.conversations
    events := state.store.events }

/-- The event row that a published event is about. -/
structure Records (event : ConversationEvent) (broadcast : Broadcast) : Prop where
  conversation : event.conversationId = broadcast.conversationId
  type : event.type = broadcast.type
  content : event.payload = broadcast.payload

section Statements
variable {state next base : MessageStore.State} {tx : TxId}

/-- The tables of a store are those of another. -/
structure SameTables (state next : MessageStore.State) : Prop where
  messages : next.messages = state.messages
  edits : next.edits = state.edits
  attachments : next.attachments = state.attachments
  conversations : next.conversations = state.conversations
  events : next.events = state.events

/-- What a step of a request other than its commit does: no row becomes
visible, and only what was to be published is. -/
structure Statement (state next : MessageStore.State) (tx : TxId) : Prop where
  tables : SameTables state next
  txs : ∃ transaction, next.txs = assign state.txs tx transaction ∧
    ∀ startedAt broadcast, transaction ≠ some ⟨startedAt, .publishing broadcast⟩
  journal : ∃ added, next.journal = state.journal ++ added ∧ ∀ broadcast,
    .published broadcast ∈ added →
      ∃ startedAt, state.txs tx = some ⟨startedAt, .publishing broadcast⟩

/-- A store that differs in what no reader of the tables sees. -/
structure Beside (state base : MessageStore.State) : Prop where
  tables : SameTables state base
  txs : base.txs = state.txs
  journal : base.journal = state.journal

theorem beside_refl (state : MessageStore.State) : Beside state state :=
  ⟨⟨rfl, rfl, rfl, rfl, rfl⟩, rfl, rfl⟩

/-- Limits, drawn ids, locks and the sequence of event ids are no table. -/
theorem beside_counters (state : MessageStore.State) (limiter : RateLimit.Store)
    (drawn : List Uuid) (locks : SnapshotUpdate.Locks Uuid TxId) (lastEventId : Nat) :
    Beside state { state with
      limiter := limiter, drawnIds := drawn, locks := locks, lastEventId := lastEventId } :=
  ⟨⟨rfl, rfl, rfl, rfl, rfl⟩, rfl, rfl⟩

theorem enter_statement (beside : Beside state base) (startedAt : Time) {phase : Phase}
    (before : ∀ broadcast, phase ≠ .publishing broadcast) :
    Statement state (enter base tx startedAt phase) tx where
  tables := ⟨beside.tables.messages, beside.tables.edits, beside.tables.attachments,
    beside.tables.conversations, beside.tables.events⟩
  txs := by
    refine ⟨some ⟨startedAt, phase⟩, ?_, fun _ broadcast same => ?_⟩
    · rw [← beside.txs]
      rfl
    · exact before broadcast (Transaction.mk.inj (Option.some.inj same)).2
  journal := ⟨[], by rw [List.append_nil, ← beside.journal]; rfl, by simp⟩

theorem finish_statement (beside : Beside state base) {entry : Entry}
    (published : ∀ broadcast, entry = .published broadcast →
      ∃ startedAt, state.txs tx = some ⟨startedAt, .publishing broadcast⟩) :
    Statement state (finish base tx entry) tx where
  tables := ⟨beside.tables.messages, beside.tables.edits, beside.tables.attachments,
    beside.tables.conversations, beside.tables.events⟩
  txs := by
    refine ⟨none, ?_, fun _ _ same => nomatch same⟩
    rw [← beside.txs]
    rfl
  journal := by
    refine ⟨[entry], ?_, fun broadcast member => ?_⟩
    · rw [← beside.journal]
      rfl
    · exact published broadcast (List.mem_singleton.mp member).symm

theorem refuse_statement (beside : Beside state base) (error : AppError) :
    Statement state (refuse base tx error) tx :=
  finish_statement beside fun _ same => nomatch same

theorem fail_statement (beside : Beside state base) : Statement state (fail base tx) tx :=
  finish_statement beside fun _ same => nomatch same

theorem examine_message_statement (access : Access) (message : Uuid)
    {onward : Message → MessageStore.State} (each : ∀ loaded, Statement state (onward loaded) tx) :
    Statement state (examineMessage state tx access message onward) tx := by
  unfold examineMessage
  split
  · exact refuse_statement (beside_refl state) _
  · rename_i loaded found
    split
    · exact each loaded
    · exact refuse_statement (beside_refl state) _

theorem examine_send_statement (startedAt : Time) (access : Access) (clientMsgId : Option Uuid)
    (body : Option String) (kind : MessageKind) (replyToId : Option Uuid)
    (attachmentIds : List Uuid) : Statement state
      (examineSend state tx startedAt access clientMsgId body kind replyToId attachmentIds) tx := by
  unfold examineSend
  split
  · exact refuse_statement (beside_refl state) _
  · split
    · exact refuse_statement (beside_refl state) _
    · split
      · exact refuse_statement (beside_refl state) _
      · split
        · exact finish_statement (beside_refl state) fun _ same => nomatch same
        · exact enter_statement (beside_refl state) startedAt (by simp)

theorem examine_statement (taken : examine state tx = some next) : Statement state next tx := by
  have refused : ∀ error, Statement state (refuse state tx error) tx :=
    refuse_statement (beside_refl state)
  have entered : ∀ startedAt phase, (∀ broadcast, phase ≠ .publishing broadcast) →
      Statement state (enter state tx startedAt phase) tx :=
    fun startedAt _ before => enter_statement (beside_refl state) startedAt before
  unfold examine at taken
  split at taken
  · cases taken
    exact examine_send_statement _ _ _ _ _ _ _
  · cases taken
    refine examine_message_statement _ _ fun loaded => ?_
    split
    · exact refused _
    · split
      · exact refused _
      · exact entered _ _ (by simp)
  · cases taken
    refine examine_message_statement _ _ fun loaded => ?_
    split
    · exact entered _ _ (by simp)
    · exact refused _
  · split at taken
    · cases taken
      exact finish_statement (beside_refl state) fun _ same => nomatch same
    · cases taken
      exact refused _
  · cases taken
    exact entered _ _ (by simp)
  · cases taken
    exact finish_statement (beside_refl state) fun _ same => nomatch same
  · cases taken

theorem enforce_budget_statement {nowMs : Nat}
    (taken : enforceBudget state tx nowMs = some next) : Statement state next tx := by
  unfold enforceBudget at taken
  split at taken
  · split at taken
    · rename_i limiter enforced
      cases taken
      exact enter_statement
        (beside_counters state limiter state.drawnIds state.locks state.lastEventId) _ (by simp)
    · rename_i limiter enforced
      cases taken
      exact refuse_statement
        (beside_counters state limiter state.drawnIds state.locks state.lastEventId) _
  · cases taken

theorem search_rows_statement {searchMatches : String → String → Bool} {scan : List Message}
    (taken : searchRows searchMatches state tx scan = some next) : Statement state next tx := by
  unfold searchRows at taken
  split at taken
  · split at taken
    · cases taken
      exact refuse_statement (beside_refl state) _
    · split at taken
      · cases taken
        exact finish_statement (beside_refl state) fun _ same => nomatch same
      · cases taken
  · cases taken

theorem proceed_statement (taken : proceed state tx = some next) : Statement state next tx := by
  unfold proceed at taken
  split at taken
  · dsimp only at taken
    split at taken
    · cases taken
      exact enter_statement (beside_refl state) _ (by simp)
    · cases taken
      exact refuse_statement (beside_refl state) _
  · split at taken
    · cases taken
      exact refuse_statement (beside_refl state) _
    · cases taken
      exact enter_statement (beside_refl state) _ (by simp)
  · cases taken

theorem select_attachments_statement (taken : selectAttachments state tx = some next) :
    Statement state next tx := by
  unfold selectAttachments at taken
  split at taken
  · dsimp only at taken
    split at taken
    · cases taken
      exact enter_statement (beside_refl state) _ (by simp)
    · cases taken
      exact refuse_statement (beside_refl state) _
  · cases taken

theorem allocate_seq_statement (taken : allocateSeq state tx = some next) :
    Statement state next tx := by
  unfold allocateSeq at taken
  split at taken
  · rename_i startedAt job opened
    split at taken
    · cases taken
      exact fail_statement (beside_refl state)
    · rename_i row found
      split at taken
      · cases taken
        exact fail_statement (beside_refl state)
      · split at taken
        · cases taken
          refine enter_statement (beside_counters state state.limiter state.drawnIds
            (SnapshotUpdate.acquire state.locks row.id tx) state.lastEventId) startedAt ?_
          cases job <;> simp
        · cases taken
  · cases taken

theorem flush_statement {id : Uuid} (taken : flush state tx id = some next) :
    Statement state next tx := by
  unfold flush at taken
  split at taken
  · split at taken
    · cases taken
    · dsimp only at taken
      have beside := beside_counters state state.limiter (id :: state.drawnIds) state.locks
        state.lastEventId
      split at taken
      · cases taken
        exact fail_statement beside
      · cases taken
        exact enter_statement beside _ (by simp)
  · cases taken

theorem log_event_statement (taken : logEvent state tx = some next) : Statement state next tx := by
  unfold logEvent at taken
  split at taken
  · split at taken
    · cases taken
      exact enter_statement (beside_counters state state.limiter state.drawnIds state.locks
        (state.lastEventId + 1)) _ (by simp)
    · cases taken
      exact fail_statement (beside_refl state)
  · cases taken

theorem publish_statement (taken : publish state tx = some next) : Statement state next tx := by
  unfold publish at taken
  split at taken
  · rename_i startedAt broadcast opened
    cases taken
    refine finish_statement (beside_refl state) fun other same => ⟨startedAt, ?_⟩
    cases same
    exact opened
  · cases taken

theorem request_statement {searchMatches : String → String → Bool} {action : MessageStore.Action}
    (taken : MessageStore.step searchMatches state action = some next)
    (own : requestOf (.serve action) = some tx) (early : action ≠ .commit tx) :
    Statement state next tx := by
  cases action with
  | advance | addConversation | deleteConversation | setMembers | addAttachment => cases own
  | receive other request =>
      cases own
      simp only [MessageStore.step, receive] at taken
      split at taken
      · cases taken
      · cases taken
        exact enter_statement (beside_refl state) _ (by simp)
  | examine other =>
      cases own
      exact examine_statement taken
  | enforceBudget other nowMs =>
      cases own
      exact enforce_budget_statement taken
  | searchRows other scan =>
      cases own
      exact search_rows_statement taken
  | proceed other =>
      cases own
      exact proceed_statement taken
  | selectAttachments other =>
      cases own
      exact select_attachments_statement taken
  | allocateSeq other =>
      cases own
      exact allocate_seq_statement taken
  | flush other id =>
      cases own
      exact flush_statement taken
  | logEvent other =>
      cases own
      exact log_event_statement taken
  | commit other =>
      cases own
      exact absurd rfl early
  | publish other =>
      cases own
      exact publish_statement taken
  | rollback other =>
      cases own
      simp only [MessageStore.step] at taken
      split at taken
      · cases taken
        exact ⟨⟨rfl, rfl, rfl, rfl, rfl⟩, ⟨none, rfl, fun _ _ same => by cases same⟩,
          [], by simp [close], by simp⟩
      · cases taken

/-- What the environment does leaves requests, events and the journal. -/
theorem outside_kept {searchMatches : String → String → Bool} {action : MessageStore.Action}
    (taken : MessageStore.step searchMatches state action = some next)
    (apart : requestOf (.serve action) = none) :
    next.txs = state.txs ∧ next.events = state.events ∧ next.journal = state.journal := by
  cases action with
  | advance | setMembers | addAttachment =>
      cases taken
      exact ⟨rfl, rfl, rfl⟩
  | addConversation id =>
      simp only [MessageStore.step, addConversation] at taken
      split at taken <;> cases taken
      exact ⟨rfl, rfl, rfl⟩
  | deleteConversation id =>
      simp only [MessageStore.step, deleteConversation] at taken
      split at taken <;> cases taken
      exact ⟨rfl, rfl, rfl⟩
  | receive | examine | enforceBudget | searchRows | proceed | selectAttachments | allocateSeq
  | flush | logEvent | commit | publish | rollback => cases apart

end Statements

section Runs
variable {searchMatches : String → String → Bool} {state next : State} {action : Action}

/-- What a request is about to publish is in the event log. -/
def Recorded (store : MessageStore.State) : Prop :=
  ∀ tx startedAt broadcast, store.txs tx = some ⟨startedAt, .publishing broadcast⟩ →
    ∃ event ∈ store.events, Records event broadcast

theorem commit_recorded {store after : MessageStore.State} {tx : TxId} (recorded : Recorded store)
    (taken : commit store tx = some after) : Recorded after := by
  have opened := taken
  unfold commit at opened
  split at opened
  · rename_i startedAt write seq eventId ready
    have fields := commit_fields ready taken
    intro other since broadcast publishing
    rw [fields.events]
    rw [fields.txs] at publishing
    rcases assign_cases publishing with ⟨_, now⟩ | ⟨_, before⟩
    · cases now
      exact ⟨_, List.mem_append_right _ (List.mem_singleton_self _), rfl, rfl, rfl⟩
    · obtain ⟨event, member, records⟩ := recorded other since broadcast before
      exact ⟨event, List.mem_append_left _ member, records⟩
  · cases opened

theorem statement_recorded {store after : MessageStore.State} {tx : TxId}
    (recorded : Recorded store) (statement : Statement store after tx) : Recorded after := by
  obtain ⟨transaction, txs, early⟩ := statement.txs
  intro other startedAt broadcast publishing
  rw [statement.tables.events]
  rw [txs] at publishing
  rcases assign_cases publishing with ⟨_, now⟩ | ⟨_, before⟩
  · exact absurd now (early startedAt broadcast)
  · exact recorded other startedAt broadcast before

/-- The steps of the store, sorted: of a request before its commit, a commit,
or of the environment. -/
theorem store_recorded {store after : MessageStore.State} {action : MessageStore.Action}
    (recorded : Recorded store)
    (taken : MessageStore.step searchMatches store action = some after) : Recorded after := by
  cases own : requestOf (.serve action) with
  | none =>
      obtain ⟨txs, events, _⟩ := outside_kept taken own
      intro tx startedAt broadcast publishing
      rw [events]
      exact recorded tx startedAt broadcast (txs ▸ publishing)
  | some tx =>
      by_cases last : action = .commit tx
      · subst last
        exact commit_recorded recorded taken
      · exact statement_recorded recorded (request_statement taken own last)

theorem step_recorded (recorded : Recorded state.store)
    (taken : step searchMatches state action = some next) : Recorded next.store := by
  cases action with
  | setUsernames usernames =>
      cases taken
      exact recorded
  | resolveMentions tx =>
      obtain ⟨message, found, added⟩ := Option.bind_eq_some_iff.mp taken
      split at added <;> cases added
      exact recorded
  | serve action =>
      simp only [step, serve] at taken
      split at taken
      · obtain ⟨store, stepped, rfl⟩ := Option.map_eq_some_iff.mp taken
        exact store_recorded recorded stepped
      · cases taken

/-- Only what was recorded is published. -/
theorem published_recorded {store after : MessageStore.State} {action : MessageStore.Action}
    (recorded : Recorded store)
    (taken : MessageStore.step searchMatches store action = some after) {broadcast : Broadcast}
    (published : .published broadcast ∈ after.journal.drop store.journal.length) :
    ∃ event ∈ store.events, Records event broadcast := by
  cases own : requestOf (.serve action) with
  | none =>
      obtain ⟨_, _, journal⟩ := outside_kept taken own
      rw [journal, List.drop_length] at published
      cases published
  | some tx =>
      by_cases last : action = .commit tx
      · subst last
        have opened : commit store tx = some after := taken
        unfold commit at opened
        split at opened
        · rename_i startedAt write seq eventId ready
          rw [(commit_fields ready taken).journal, List.drop_left] at published
          simp at published
        · cases opened
      · obtain ⟨added, journal, only⟩ := (request_statement taken own last).journal
        rw [journal, List.drop_left] at published
        obtain ⟨startedAt, publishing⟩ := only broadcast published
        exact recorded tx startedAt broadcast publishing

/-- Before its commit a request changes no row that anybody else can see. -/
theorem request_rows {tx : TxId} (taken : step searchMatches state action = some next)
    (own : requestOf action = some tx) (early : action ≠ .serve (.commit tx)) :
    rowsOf next = rowsOf state := by
  cases action with
  | setUsernames usernames => cases own
  | resolveMentions other =>
      obtain ⟨message, found, added⟩ := Option.bind_eq_some_iff.mp taken
      split at added <;> cases added
      rfl
  | serve action =>
      simp only [step, serve] at taken
      split at taken
      · obtain ⟨store, stepped, rfl⟩ := Option.map_eq_some_iff.mp taken
        have first : action ≠ .commit tx := fun same => early (same ▸ rfl)
        have tables := (request_statement stepped own first).tables
        have none_added : committedMentions state action = [] := by
          cases action with
          | commit other =>
              cases own
              exact absurd rfl first
          | _ => rfl
        simp only [rowsOf, tables.messages, tables.edits, tables.attachments,
          tables.conversations, tables.events, none_added, List.append_nil]
      · cases taken

/-- Requests that never get to their commits leave the rows as they are. -/
theorem requests_leave_rows {actions : List Action}
    (ran : Runs.run (step searchMatches) state actions = some next)
    (early : ∀ action ∈ actions, ∃ tx, requestOf action = some tx ∧
      action ≠ .serve (.commit tx)) : rowsOf next = rowsOf state :=
  Runs.guarded_invariant (fun later => rowsOf later = rowsOf state)
    (fun _ _ _ same first taken => by
      obtain ⟨tx, own, uncommitted⟩ := first
      exact (request_rows taken own uncommitted).trans same)
    ran (Runs.meets_of_all early) rfl

/-- A request may be cut off wherever it stands. -/
theorem may_fail {tx : TxId} (running : (state.store.txs tx).isSome = true) :
    ∃ next, step searchMatches state (.serve (.rollback tx)) = some next ∧
      next.store.txs tx = none := by
  have rolled : MessageStore.step searchMatches state.store (.rollback tx) =
      some (close state.store tx) := by
    simp [MessageStore.step, running]
  have taken : step searchMatches state (.serve (.rollback tx)) = some { state with
      store := close state.store tx
      mentions := state.mentions ++ []
      mentioned := fun other =>
        if isWriting (close state.store tx) other then state.mentioned other else none } := by
    simp only [step, serve, isDue, rolled, Option.map_some, committedMentions, if_true]
  exact ⟨_, taken, assign_same _ _ _⟩

/-- In every run every published event is that of a committed row, and no step
of a request but its commit changes a row that others see. Every request can
be cut off at any time. -/
theorem published_events_committed (searchMatches : String → String → Bool)
    (actions : List Action) (visited : State)
    (visits : Runs.Visits (step searchMatches) initial actions visited) :
    (∀ action next, step searchMatches visited action = some next → ∀ broadcast,
      .published broadcast ∈ next.store.journal.drop visited.store.journal.length →
      ∃ event ∈ visited.store.events, Records event broadcast) ∧
    (∀ later finish, Runs.run (step searchMatches) visited later = some finish →
      (∀ action ∈ later, ∃ tx, requestOf action = some tx ∧ action ≠ .serve (.commit tx)) →
      rowsOf finish = rowsOf visited) ∧
    ∀ tx, (visited.store.txs tx).isSome = true →
      ∃ next, step searchMatches visited (.serve (.rollback tx)) = some next ∧
        next.store.txs tx = none ∧ rowsOf next = rowsOf visited := by
  obtain ⟨before, after, rfl, reached⟩ := visits
  have recorded : Recorded visited.store :=
    Runs.run_invariant (fun state => Recorded state.store)
      (fun _ _ _ recorded taken => step_recorded recorded taken) reached
      fun _ _ _ publishing => nomatch publishing
  refine ⟨fun action next taken broadcast published => ?_,
    fun later finish ran early => requests_leave_rows ran early, fun tx running => ?_⟩
  · cases action with
    | setUsernames usernames =>
        cases taken
        rw [List.drop_length] at published
        cases published
    | resolveMentions tx =>
        obtain ⟨message, found, added⟩ := Option.bind_eq_some_iff.mp taken
        split at added <;> cases added
        rw [List.drop_length] at published
        cases published
    | serve action =>
        simp only [step, serve] at taken
        split at taken
        · obtain ⟨store, stepped, rfl⟩ := Option.map_eq_some_iff.mp taken
          exact published_recorded recorded stepped published
        · cases taken
  · obtain ⟨next, taken, closed⟩ := may_fail running
    exact ⟨next, taken, closed, request_rows taken rfl (by simp)⟩

/-- A send that mentions a member, up to its commit. -/
def greeted : List Action :=
  [.setUsernames [⟨7, "alice"⟩], .serve (.addConversation 1),
    .serve (.setMembers [⟨1, 7, .active, none⟩])] ++
  (sendText 1 1 30 10 "hi @Alice" 0).dropLast.map Action.serve ++
  [.resolveMentions 1, .serve (.logEvent 1), .serve (.commit 1)]

/-- One that fails after its message was inserted. -/
def failed : List Action :=
  (sendText 2 1 31 11 "bye @Alice" 0).dropLast.map Action.serve ++
  [.resolveMentions 2, .serve (.rollback 2)]

set_option maxRecDepth 4000 in
theorem greeted_committed : ∃ visited next finish broadcast,
    Runs.run (step sameText) initial greeted = some visited ∧
    step sameText visited (.serve (.publish 1)) = some next ∧
    next.store.journal.drop visited.store.journal.length = [.published broadcast] ∧
    (∃ event ∈ visited.store.events, Records event broadcast) ∧
    visited.mentions = [⟨10, 7⟩] ∧
    Runs.run (step sameText) visited failed = some finish ∧ rowsOf finish = rowsOf visited := by
  obtain ⟨visited, next, finish, broadcast, reached, taken, published, mentions, ran⟩ :
      ∃ visited next finish broadcast,
        Runs.run (step sameText) initial greeted = some visited ∧
        step sameText visited (.serve (.publish 1)) = some next ∧
        next.store.journal.drop visited.store.journal.length = [.published broadcast] ∧
        visited.mentions = [⟨10, 7⟩] ∧
        Runs.run (step sameText) visited failed = some finish :=
    ⟨_, _, _, _, rfl, rfl, rfl, rfl, rfl⟩
  obtain ⟨recorded, left, _⟩ :=
    published_events_committed sameText greeted visited ⟨greeted, [], by simp, reached⟩
  have early : ∀ action ∈ failed, requestOf action = some 2 ∧
      action ≠ .serve (.commit 2) := by
    simp [failed, sendText, requestOf]
  refine ⟨visited, next, finish, broadcast, reached, taken, published,
    recorded _ next taken broadcast ?_, mentions, ran,
    left failed finish ran fun action member => ⟨2, early action member⟩⟩
  rw [published]
  exact List.mem_singleton_self _

end Runs

end RunnerupChat.MessageFaults
