import RunnerupChat.MessageStore
import RunnerupChat.SequencedLog

/-!
What one step of the message store can do, said once: which rows it touches,
how the phase of its transaction goes on, and what it adds to the journal.
-/

namespace RunnerupChat.MessageStore

open Accounts SnapshotUpdate UniqueKeys

section Views

/-- The number a phase holds under the lock of its conversation. -/
def Phase.hold : Phase → Option (SequencedLog.Hold Uuid)
  | .numbered draft seq => some ⟨draft.access.conversation, seq, none⟩
  | .writing write seq => some ⟨write.conversation, seq, none⟩
  | .logged write seq eventId => some ⟨write.conversation, seq, some eventId⟩
  | _ => none

def Write.inserts : Write → Option Uuid
  | .create message _ _ => some message.id
  | .revise _ => none

/-- The message a phase has yet to commit. -/
def Phase.inserts : Phase → Option Uuid
  | .writing write _ => write.inserts
  | .logged write _ _ => write.inserts
  | _ => none

/-- An edit that puts a text, or a deletion, of the copy that was read. -/
def Revision.Ok (revision : Revision) : Prop :=
  (∃ access loaded text now, revision = editOf access loaded (some text) now) ∨
    ∃ access loaded now, revision = deletionOf access loaded now

def Write.Ok (write : Write) (seq : Nat) : Prop :=
  match write with
  | .create message _ _ => ∃ draft id now, message = newMessage draft seq id now
  | .revise revision => revision.Ok

def Phase.Ok : Phase → Prop
  | .ready (.revise revision) => revision.Ok
  | .writing write seq => write.Ok seq
  | .logged write seq _ => write.Ok seq
  | _ => True

/-- The copies of attachments that a phase is to bind. -/
def Write.selected : Write → List Attachment
  | .create _ attachments _ => attachments
  | .revise _ => []

def Phase.selected : Phase → List Attachment
  | .limiting (.send draft) _ | .attaching draft | .ready (.create draft) | .numbered draft _ =>
      draft.attachments
  | .writing write _ | .logged write _ _ => write.selected
  | _ => []

/-- The phase belongs to a send of these attachments. -/
def Phase.Names (ids : List Uuid) : Phase → Prop
  | .received (.send _ _ _ _ _ attachmentIds) => attachmentIds = ids
  | .limiting (.send draft) _ | .attaching draft =>
      draft.attachmentIds = ids ∧ draft.attachments = []
  | .ready (.create draft) | .numbered draft _ => draft.attachments = [] ↔ ids = []
  | .writing (.create _ attachments _) _ | .logged (.create _ attachments _) _ _ =>
      attachments = [] ↔ ids = []
  | _ => False

/-- The message objects of a response. -/
def Response.messages : Response → List MessageOut
  | .listed _ items | .found _ items => items
  | .synced _ => []

/-- What makes two sends the same send. -/
structure SendKey where
  conversation : Uuid
  sender : Uuid
  clientMsgId : Uuid
  deriving DecidableEq

def Draft.key (draft : Draft) : SendKey :=
  ⟨draft.access.conversation, draft.access.user, draft.clientMsgId⟩

def Message.key (message : Message) : Option SendKey :=
  message.senderId.map fun sender => ⟨message.conversationId, sender, message.clientMsgId⟩

def Request.key : Request → Option SendKey
  | .send access (some clientMsgId) _ _ _ _ => some ⟨access.conversation, access.user, clientMsgId⟩
  | _ => none

def Write.key : Write → Option SendKey
  | .create message _ _ => message.key
  | .revise _ => none

/-- The send that a phase is part of. -/
def Phase.key : Phase → Option SendKey
  | .received request => request.key
  | .limiting (.send draft) _ | .attaching draft | .ready (.create draft) | .numbered draft _ =>
      some draft.key
  | .writing write _ | .logged write _ _ => write.key
  | _ => none

def Write.body : Write → Option (Option String)
  | .create message _ _ => some message.body
  | .revise _ => none

/-- The body that the row of a send gets. -/
def Phase.body : Phase → Option (Option String)
  | .received (.send _ _ body kind _ attachmentIds) =>
      (validateBody body kind attachmentIds.length).toOption
  | .limiting (.send draft) _ | .attaching draft | .ready (.create draft) | .numbered draft _ =>
      some draft.body
  | .writing write _ | .logged write _ _ => write.body
  | _ => none

def Write.revision : Write → Option Revision
  | .create _ _ _ => none
  | .revise revision => some revision

/-- The change that a phase is to make. -/
def Phase.revision : Phase → Option Revision
  | .ready (.revise revision) => some revision
  | .writing write _ | .logged write _ _ => write.revision
  | _ => none

/-- The copy of a message that a phase works on. -/
def Phase.loaded : Phase → Option Message
  | .limiting (.edit _ loaded _) _ => some loaded
  | phase => phase.revision.map Revision.loaded

/-- The message that a phase is to delete. -/
def Phase.deletes : Phase → Option Uuid
  | .received (.delete _ message) => some message
  | phase => phase.revision.bind fun revision =>
      if revision.type = .deleted then some revision.loaded.id else none

def lastSeqOf (conversations : List Conversation) (id : Uuid) : Option Nat :=
  (conversations.find? fun row => row.id == id).map Conversation.lastSeq

end Views

section Counters

theorem last_seq_append {rows : List Conversation} {id : Uuid}
    (absent : (rows.any fun row => row.id == id) = false) :
    lastSeqOf rows id = none ∧
      lastSeqOf (rows ++ [⟨id, 0, none⟩]) = assign (lastSeqOf rows) id (some 0) := by
  have missing : rows.find? (fun row => row.id == id) = none := by
    rw [List.find?_eq_none]
    simpa using absent
  refine ⟨by simp [lastSeqOf, missing], ?_⟩
  funext other
  unfold lastSeqOf
  rw [List.find?_append]
  by_cases same : other = id
  · subst other
    simp [missing]
  · have apart : (id == other) = false := by simpa using Ne.symm same
    simp [assign_other _ _ same, apart]

/-- A rewrite of the rows that keeps their ids. -/
theorem last_seq_map (rows : List Conversation) (change : Conversation → Conversation)
    (ids : ∀ row, (change row).id = row.id) (id : Uuid) :
    lastSeqOf (rows.map change) id =
      (rows.find? fun row => row.id == id).map fun row => (change row).lastSeq := by
  unfold lastSeqOf
  rw [List.find?_map, Option.map_map]
  have same : ((fun row : Conversation => row.id == id) ∘ change) = fun row => row.id == id := by
    funext row
    simp [ids]
  rw [same]
  rfl

theorem last_seq_set {rows : List Conversation} {id : Uuid} {before : Nat} (seq : Nat)
    (known : lastSeqOf rows id = some before) :
    lastSeqOf (rows.map fun row => if row.id = id then { row with lastSeq := seq } else row) =
      assign (lastSeqOf rows) id (some seq) := by
  funext other
  rw [last_seq_map rows _ (by intro row; split <;> rfl)]
  by_cases same : other = id
  · subst other
    unfold lastSeqOf at known
    obtain ⟨row, found, _⟩ := Option.map_eq_some_iff.mp known
    have named : row.id = id := by simpa using List.find?_some found
    simp [found, named]
  · rw [assign_other _ _ same]
    unfold lastSeqOf
    cases found : rows.find? fun row => row.id == other with
    | none => rfl
    | some row =>
        have named : row.id = other := by simpa using List.find?_some found
        simp [named, same]

theorem row_ids {change : Conversation → Conversation} (rows : List Conversation)
    (ids : ∀ row, (change row).id = row.id) :
    (rows.map change).map Conversation.id = rows.map Conversation.id := by
  rw [List.map_map]
  exact List.map_congr_left fun row _ => ids row

theorem last_seq_delete (rows : List Conversation) (id : Uuid) (now : Time) :
    lastSeqOf (rows.map fun row =>
        if row.id = id then { row with deletedAt := some now } else row) =
      lastSeqOf rows := by
  funext other
  rw [last_seq_map rows _ (by intro row; split <;> rfl)]
  unfold lastSeqOf
  congr 1
  funext row
  split <;> rfl

end Counters

/-- The call answers what the events allow. -/
structure SyncCall.Right (events : List ConversationEvent) (call : SyncCall) : Prop where
  served : call.events = KeysetPage.page ConversationEvent.id call.afterId call.limit
    (events.filter (servable call.conversations call.now))
  cursor : call.cursor = KeysetPage.cursor ConversationEvent.id call.afterId call.events

/-- An entry of a step that logs no event. -/
def Entry.Plain (events : List ConversationEvent) : Entry → Prop
  | .logged _ => False
  | .served (.synced call) => call.Right events
  | .served (.listed _ _) | .served (.found _ _) | .answered _ _ | .published _ => True

/-- Nothing of the tables changes but the deletion marks of conversations. -/
structure Frame (state next : State) : Prop where
  counters : lastSeqOf next.conversations = lastSeqOf state.conversations
  conversations : next.conversations.map Conversation.id = state.conversations.map Conversation.id
  messages : next.messages = state.messages
  edits : next.edits = state.edits
  events : next.events = state.events
  lastEventId : next.lastEventId = state.lastEventId
  journal : ∃ added, next.journal = state.journal ++ added ∧
    ∀ entry ∈ added, entry.Plain state.events

/-- A phase before the number of the conversation is taken, or after the commit. -/
structure Phase.Free (phase : Phase) : Prop where
  hold : phase.hold = none
  inserts : phase.inserts = none
  ok : phase.Ok

/-- A request goes on as the request it was; the rows it works on are read now or
were read before. -/
structure Follows (state : State) (before after : Phase) : Prop where
  key : after.key = before.key
  deletes : after.deletes = before.deletes
  loaded : after.loaded = before.loaded ∨ ∃ row ∈ state.messages, after.loaded = some row
  selected : after.selected = before.selected ∨ ∀ row ∈ after.selected,
    row ∈ state.attachments ∧ row.messageId = none
  names : ∀ ids, before.Names ids → after.Names ids
  body : after.body = before.body

/-- The conversation can still be written to. -/
def Homed (state : State) (conversation : Uuid) : Prop :=
  ∃ row, (state.conversations.find? fun row => row.id == conversation) = some row ∧
    row.deletedAt = none

/-- A stored message has the number or the key of this insert. -/
def Collides (state : State) (draft : Draft) (seq : Nat) : Prop :=
  ∃ row ∈ state.messages, row.conversationId = draft.access.conversation ∧
    (row.seq = seq ∨
      row.senderId = some draft.access.user ∧ row.clientMsgId = draft.clientMsgId)

/-- How a request ends without a commit, and what it answers. -/
inductive Ends (state : State) (action : Action) (tx : TxId) : Phase → Entry → Prop
  | served (phase : Phase) (response : Response) (other : phase.key = none)
      (rows : ∀ object ∈ response.messages, ∃ row ∈ state.messages, object = serialize row []) :
      Ends state action tx phase (.served response)
  | published (broadcast : Broadcast) :
      Ends state action tx (.publishing broadcast) (.published broadcast)
  | refused (phase : Phase) (error : AppError) :
      Ends state action tx phase (.answered tx (.refused error))
  | reused (phase : Phase) (row : Message) (key : SendKey) (stored : row ∈ state.messages)
      (same : row.key = some key) (asked : phase.key = some key) :
      Ends state action tx phase (.answered tx (.sent row false))
  | homeless (job : Job) (origin : action = .allocateSeq tx) (gone : ¬Homed state job.conversation) :
      Ends state action tx (.ready job) (.answered tx .failed)
  | taken (draft : Draft) (seq : Nat) (id : Uuid) (origin : action = .flush tx id)
      (collides : Collides state draft seq) :
      Ends state action tx (.numbered draft seq) (.answered tx .failed)
  | overflow (write : Write) (seq : Nat) (wide : write.fits = false) :
      Ends state action tx (.writing write seq) (.answered tx .failed)

/-- What becomes of the transaction of a step that writes no row, and what the
step adds to the journal. -/
inductive Move (state : State) (action : Action) (tx : TxId) :
    Option Transaction → List Entry → Prop
  | received (request : Request) (asked : action = .receive tx request)
      (vacant : state.txs tx = none) :
      Move state action tx (some ⟨state.clock, .received request⟩) []
  | followed (startedAt : Time) (before after : Phase)
      (opened : state.txs tx = some ⟨startedAt, before⟩) (follows : Follows state before after) :
      Move state action tx (some ⟨startedAt, after⟩) []
  | ended (startedAt : Time) (phase : Phase) (entry : Entry)
      (opened : state.txs tx = some ⟨startedAt, phase⟩) (ends : Ends state action tx phase entry) :
      Move state action tx none [entry]
  | cut (startedAt : Time) (phase : Phase) (opened : state.txs tx = some ⟨startedAt, phase⟩)
      (origin : action = .rollback tx) :
      Move state action tx none []

/-- What one step can do. -/
inductive Effect (state next : State) (action : Action) : Prop where
  | idle (frame : Frame state next) (txs : next.txs = state.txs)
      (locks : next.locks = state.locks) (drawn : next.drawnIds = state.drawnIds)
      (quiet : next.journal = state.journal)
  | moved (tx : TxId) (transaction : Option Transaction) (frame : Frame state next)
      (txs : next.txs = assign state.txs tx transaction)
      (free : ∀ moved, transaction = some moved → moved.phase.Free)
      (locks : ∀ key holder, holder ≠ tx → state.locks key = some holder →
        next.locks key = some holder)
      (drawn : state.drawnIds ⊆ next.drawnIds)
      (move : ∃ added, next.journal = state.journal ++ added ∧
        Move state action tx transaction added)
  | opened (id : Uuid) (absent : (state.conversations.any fun row => row.id == id) = false)
      (result : next =
        { state with conversations := state.conversations ++ [⟨id, 0, none⟩] })
  | allocated (tx : TxId) (startedAt : Time) (job : Job) (seq : Nat) (phase : Phase)
      (ready : state.txs tx = some ⟨startedAt, .ready job⟩)
      (current : lastSeqOf state.conversations job.conversation = some seq)
      (free : available state.locks job.conversation tx = true)
      (held : phase.hold = some ⟨job.conversation, seq + 1, none⟩)
      (plain : phase.inserts = none ∧ phase.Ok)
      (result : next = enter
        { state with locks := acquire state.locks job.conversation tx } tx startedAt phase)
      (follows : Follows state (.ready job) phase)
  | flushed (tx : TxId) (startedAt : Time) (draft : Draft) (seq : Nat) (id : Uuid)
      (numbered : state.txs tx = some ⟨startedAt, .numbered draft seq⟩)
      (fresh : id ∉ state.drawnIds)
      (result : next = enter { state with drawnIds := id :: state.drawnIds } tx startedAt
        (.writing (.create (newMessage draft seq id state.clock) draft.attachments
          draft.access.user) seq))
      (untaken : ¬Collides state draft seq)
  | logged (tx : TxId) (startedAt : Time) (write : Write) (seq : Nat)
      (writing : state.txs tx = some ⟨startedAt, .writing write seq⟩)
      (result : next = enter { state with lastEventId := state.lastEventId + 1 } tx startedAt
        (.logged write seq (state.lastEventId + 1)))
  | committed (tx : TxId) (startedAt : Time) (write : Write) (seq eventId : Nat)
      (ready : state.txs tx = some ⟨startedAt, .logged write seq eventId⟩)
      (result : commit state tx = some next) (origin : action = .commit tx)

section Inversion
variable {searchMatches : String → String → Bool} {state next : State} {action : Action}

theorem listed_stored {conversation : Uuid} {beforeSeq afterSeq : Option Nat} {limit : Nat}
    {row : Message} (listed : row ∈ listRows state conversation beforeSeq afterSeq limit) :
    row ∈ state.messages := by
  unfold listRows at listed
  dsimp only at listed
  split at listed
  · have chosen := List.mem_of_mem_take listed
    rw [List.mem_insertionSort] at chosen
    exact List.mem_of_mem_filter (List.mem_of_mem_filter chosen)
  · have chosen := (KeysetPage.mem_above_iff row).mp (List.mem_of_mem_take listed)
    exact List.mem_of_mem_filter chosen.1
  · have chosen := List.mem_of_mem_take listed
    rw [List.mem_insertionSort] at chosen
    exact List.mem_of_mem_filter chosen

theorem found_scanned {user : Uuid} {query : String} {conversation : Option Uuid} {limit : Nat}
    {scan : List Message} {row : Message}
    (found : row ∈ foundRows searchMatches state user query conversation limit scan) :
    row ∈ scan := by
  have chosen := List.mem_of_mem_take found
  rw [List.mem_insertionSort] at chosen
  exact List.mem_of_mem_filter chosen

/-- Objects made of stored rows. -/
theorem serialized_stored {rows : List Message} (stored : ∀ row ∈ rows, row ∈ state.messages) :
    ∀ object ∈ rows.map (serialize · []), ∃ row ∈ state.messages, object = serialize row [] := by
  intro object listed
  obtain ⟨row, member, rfl⟩ := List.mem_map.mp listed
  exact ⟨row, stored row member, rfl⟩

theorem finish_effect (limiter : RateLimit.Store) (drawn : List Uuid)
    (wider : state.drawnIds ⊆ drawn) {tx : TxId} {startedAt : Time} {phase : Phase}
    {entry : Entry} (opened : state.txs tx = some ⟨startedAt, phase⟩)
    (plain : entry.Plain state.events) (ends : Ends state action tx phase entry) :
    Effect state (finish { state with limiter := limiter, drawnIds := drawn } tx entry) action :=
  .moved tx none ⟨rfl, rfl, rfl, rfl, rfl, rfl, [entry], rfl, by simpa using plain⟩ rfl (by simp)
    (fun key _ other => release_keeps state.locks key tx _ other) wider
    ⟨[entry], rfl, .ended startedAt phase entry opened ends⟩

theorem refuse_effect (limiter : RateLimit.Store) {tx : TxId} {startedAt : Time} {phase : Phase}
    (opened : state.txs tx = some ⟨startedAt, phase⟩) (error : AppError) :
    Effect state (refuse { state with limiter := limiter } tx error) action :=
  finish_effect limiter state.drawnIds (fun _ member => member) opened trivial
    (.refused phase error)

theorem fail_effect {tx : TxId} {startedAt : Time} {phase : Phase}
    (opened : state.txs tx = some ⟨startedAt, phase⟩)
    (ends : Ends state action tx phase (.answered tx .failed)) :
    Effect state (fail state tx) action :=
  finish_effect state.limiter state.drawnIds (fun _ member => member) opened trivial ends

theorem enter_effect (limiter : RateLimit.Store) {tx : TxId} {startedAt : Time}
    {before after : Phase} (opened : state.txs tx = some ⟨startedAt, before⟩)
    (free : after.Free) (follows : Follows state before after) :
    Effect state (enter { state with limiter := limiter } tx startedAt after) action :=
  .moved tx (some ⟨startedAt, after⟩) ⟨rfl, rfl, rfl, rfl, rfl, rfl, [], by simp [enter], by simp⟩
    rfl (by rintro moved ⟨⟩; exact free) (fun _ _ _ held => held) (fun _ member => member)
    ⟨[], by simp [enter], .followed startedAt before after opened follows⟩

theorem examine_message_effect {tx : TxId} {startedAt : Time} {phase : Phase}
    (opened : state.txs tx = some ⟨startedAt, phase⟩) (access : Access) (message : Uuid)
    {next : Message → State}
    (each : ∀ loaded ∈ state.messages, loaded.id = message → Effect state (next loaded) action) :
    Effect state (examineMessage state tx access message next) action := by
  unfold examineMessage
  split
  · exact refuse_effect state.limiter opened _
  · rename_i loaded found
    have named : loaded.id = message := by simpa using List.find?_some found
    split
    · exact each loaded (List.mem_of_find?_eq_some found) named
    · exact refuse_effect state.limiter opened _

/-- The row found for a retry was sent under the same key. -/
theorem duplicate_key {conversation sender clientMsgId : Uuid} {row : Message}
    (found : duplicateOf state conversation sender clientMsgId = some row) :
    row ∈ state.messages ∧ row.key = some ⟨conversation, sender, clientMsgId⟩ := by
  have same := List.find?_some found
  simp only [Bool.and_eq_true, beq_iff_eq] at same
  obtain ⟨⟨inside, sent⟩, keyed⟩ := same
  exact ⟨List.mem_of_find?_eq_some found, by simp [Message.key, inside, sent, keyed]⟩

theorem examine_send_effect {tx : TxId} {startedAt : Time} {access : Access}
    {clientMsgId : Option Uuid} {body : Option String} {kind : MessageKind}
    {replyToId : Option Uuid} {attachmentIds : List Uuid}
    (opened : state.txs tx = some
      ⟨startedAt, .received (.send access clientMsgId body kind replyToId attachmentIds)⟩) :
    Effect state
      (examineSend state tx startedAt access clientMsgId body kind replyToId attachmentIds)
      action := by
  unfold examineSend
  split
  · exact refuse_effect state.limiter opened _
  · split
    · exact refuse_effect state.limiter opened _
    · rename_i valid
      split
      · exact refuse_effect state.limiter opened _
      · split
        · rename_i existing found
          obtain ⟨stored, keyed⟩ := duplicate_key found
          exact finish_effect state.limiter state.drawnIds (fun _ member => member) opened trivial
            (.reused _ existing _ stored keyed rfl)
        · exact enter_effect state.limiter opened ⟨rfl, rfl, trivial⟩
            ⟨rfl, rfl, Or.inl rfl, Or.inl rfl, fun _ names => ⟨names, rfl⟩,
              by simp only [Phase.body, valid, Except.toOption]⟩

theorem examine_effect {tx : TxId} (taken : examine state tx = some next) :
    Effect state next action := by
  unfold examine at taken
  split at taken
  case h_1 opened =>
    cases taken
    exact examine_send_effect opened
  case h_2 startedAt access message body opened =>
    cases taken
    apply examine_message_effect opened
    intro loaded member named
    split
    · exact refuse_effect state.limiter opened _
    · split
      · exact refuse_effect state.limiter opened _
      · exact enter_effect state.limiter opened ⟨rfl, rfl, trivial⟩
          ⟨rfl, rfl, Or.inr ⟨loaded, member, rfl⟩, Or.inl rfl, fun _ names => names, rfl⟩
  case h_3 startedAt access message opened =>
    cases taken
    apply examine_message_effect opened
    intro loaded member named
    split
    · exact enter_effect state.limiter opened ⟨rfl, rfl, Or.inr ⟨access, loaded, _, rfl⟩⟩
        ⟨rfl, by simp [Phase.deletes, Phase.revision, deletionOf, named],
          Or.inr ⟨loaded, member, rfl⟩, Or.inl rfl, fun _ names => names, rfl⟩
    · exact refuse_effect state.limiter opened _
  case h_4 opened =>
    split at taken
    · cases taken
      exact finish_effect state.limiter state.drawnIds (fun _ member => member) opened trivial
        (.served _ _ rfl (serialized_stored fun _ listed => listed_stored listed))
    · cases taken
      exact refuse_effect state.limiter opened _
  case h_5 startedAt user query conversation limit opened =>
    cases taken
    exact enter_effect state.limiter opened ⟨rfl, rfl, trivial⟩
      ⟨rfl, rfl, Or.inl rfl, Or.inl rfl, fun _ names => names, rfl⟩
  case h_6 startedAt client user afterId limit opened =>
    cases taken
    exact finish_effect state.limiter state.drawnIds (fun _ member => member) opened ⟨rfl, rfl⟩
      (.served _ _ rfl (by rintro object ⟨⟩))
  case h_7 => cases taken

theorem enforce_budget_effect {tx : TxId} {nowMs : Nat}
    (taken : enforceBudget state tx nowMs = some next) : Effect state next action := by
  unfold enforceBudget at taken
  split at taken
  case h_2 => cases taken
  case h_1 startedAt work name identity rest opened =>
    split at taken
    · cases taken
      exact enter_effect _ opened ⟨rfl, rfl, trivial⟩
        ⟨by cases work <;> rfl, by cases work <;> rfl, Or.inl (by cases work <;> rfl),
          Or.inl (by cases work <;> rfl), by cases work <;> exact fun _ names => names,
          by cases work <;> rfl⟩
    · cases taken
      exact refuse_effect _ opened _

theorem search_rows_effect {tx : TxId} {scan : List Message}
    (taken : searchRows searchMatches state tx scan = some next) : Effect state next action := by
  unfold searchRows at taken
  split at taken
  case h_2 => cases taken
  case h_1 opened =>
    split at taken
    · cases taken
      exact refuse_effect state.limiter opened _
    · split at taken
      · rename_i scanned
        cases taken
        exact finish_effect state.limiter state.drawnIds (fun _ member => member) opened trivial
          (.served _ _ rfl (serialized_stored fun _ found =>
            (List.isPerm_iff.mp scanned).subset (found_scanned found)))
      · cases taken

/-- A text that is accepted is a text. -/
theorem validate_text {text : String} {kind : MessageKind} {attachments : Nat}
    {body : Option String} (valid : validateBody (some text) kind attachments = .ok body) :
    ∃ kept, body = some kept := by
  unfold validateBody at valid
  split at valid
  · cases valid
  · split at valid
    · cases valid
    · split at valid
      · cases valid
      · cases valid
        exact ⟨_, rfl⟩

theorem proceed_effect {tx : TxId} (taken : proceed state tx = some next) :
    Effect state next action := by
  unfold proceed at taken
  split at taken
  case h_1 startedAt draft opened =>
    dsimp only at taken
    split at taken
    · cases taken
      exact enter_effect state.limiter opened ⟨rfl, rfl, trivial⟩
        ⟨rfl, rfl, Or.inl rfl, Or.inl rfl, fun _ names => names, rfl⟩
    · cases taken
      exact refuse_effect state.limiter opened _
  case h_2 startedAt access loaded body opened =>
    split at taken
    · cases taken
      exact refuse_effect state.limiter opened _
    · rename_i valid
      obtain ⟨text, rfl⟩ := validate_text valid
      cases taken
      exact enter_effect state.limiter opened
        ⟨rfl, rfl, Or.inl ⟨access, loaded, text, _, rfl⟩⟩
        ⟨rfl, rfl, Or.inl rfl, Or.inl rfl, fun _ names => names, rfl⟩
  case h_3 => cases taken

theorem select_attachments_effect {tx : TxId} (taken : selectAttachments state tx = some next) :
    Effect state next action := by
  unfold selectAttachments at taken
  split at taken
  case h_2 => cases taken
  case h_1 startedAt draft opened =>
    dsimp only at taken
    split at taken
    · cases taken
      refine enter_effect state.limiter opened ⟨rfl, rfl, trivial⟩
        ⟨rfl, rfl, Or.inl rfl, Or.inr fun row member => ?_, fun ids names => ?_, rfl⟩
      · obtain ⟨stored, wanted⟩ := List.mem_filter.mp member
        simp only [Bool.and_eq_true, Option.isNone_iff_eq_none] at wanted
        exact ⟨stored, wanted.1.2⟩
      · rename_i counted
        rw [← names.1]
        constructor
        · intro none
          have short : (draft.attachmentIds.dedup).length = 0 := by
            rw [← counted]
            exact List.length_eq_zero_iff.mpr none
          exact (List.dedup_eq_nil _).mp (List.length_eq_zero_iff.mp short)
        · intro none
          apply List.length_eq_zero_iff.mp
          refine counted.trans ?_
          rw [none]
          rfl
    · cases taken
      exact refuse_effect state.limiter opened _

theorem allocate_seq_effect (phases : ∀ tx transaction, state.txs tx = some transaction →
    transaction.phase.Ok) {tx : TxId} (taken : allocateSeq state tx = some next) :
    Effect state next (.allocateSeq tx) := by
  unfold allocateSeq at taken
  split at taken
  case h_2 => cases taken
  case h_1 startedAt job opened =>
    split at taken
    · rename_i missing
      cases taken
      refine fail_effect opened (.homeless job rfl ?_)
      rintro ⟨row, found, _⟩
      rw [found] at missing
      cases missing
    · rename_i row found
      have named : row.id = job.conversation := by simpa using List.find?_some found
      split at taken
      · rename_i deleted
        cases taken
        refine fail_effect opened (.homeless job rfl ?_)
        rintro ⟨other, first, alive⟩
        rw [← Option.some.inj (found.symm.trans first)] at alive
        rw [alive] at deleted
        cases deleted
      · split at taken
        · rename_i free
          cases taken
          have current : lastSeqOf state.conversations job.conversation = some row.lastSeq := by
            simp [lastSeqOf, found]
          rw [named] at free ⊢
          cases job with
          | create draft =>
              exact .allocated tx startedAt _ row.lastSeq (.numbered draft (row.lastSeq + 1)) opened
                current free rfl ⟨rfl, trivial⟩ rfl
                ⟨rfl, rfl, Or.inl rfl, Or.inl rfl, fun _ names => names, rfl⟩
          | revise revision =>
              exact .allocated tx startedAt _ row.lastSeq
                (.writing (.revise revision) (row.lastSeq + 1)) opened current free rfl
                ⟨rfl, phases tx _ opened⟩ rfl
                ⟨rfl, rfl, Or.inl rfl, Or.inl rfl, fun _ names => names, rfl⟩
        · cases taken

theorem collides_iff (state : State) (draft : Draft) (seq : Nat) :
    (state.messages.any fun row => row.conversationId == draft.access.conversation &&
      (row.seq == seq ||
        (row.senderId == some draft.access.user && row.clientMsgId == draft.clientMsgId))) =
      true ↔ Collides state draft seq := by
  simp [Collides]

theorem flush_effect {tx : TxId} {id : Uuid} (taken : flush state tx id = some next) :
    Effect state next (.flush tx id) := by
  unfold flush at taken
  split at taken
  case h_2 => cases taken
  case h_1 startedAt draft seq opened =>
    split at taken
    · cases taken
    · rename_i fresh
      dsimp only at taken
      split at taken
      · rename_i conflict
        cases taken
        exact finish_effect state.limiter _ (fun _ member => List.mem_cons_of_mem _ member) opened
          trivial (.taken draft seq id rfl ((collides_iff state draft seq).mp conflict))
      · rename_i untaken
        cases taken
        exact .flushed tx startedAt draft seq id opened fresh rfl
          (mt (collides_iff state draft seq).mpr untaken)

theorem step_effect (phases : ∀ tx transaction, state.txs tx = some transaction →
    transaction.phase.Ok) (taken : step searchMatches state action = some next) :
    Effect state next action := by
  cases action with
  | advance pause | setMembers members | addAttachment row =>
      cases taken
      exact .idle ⟨rfl, rfl, rfl, rfl, rfl, rfl, [], by simp, by simp⟩ rfl rfl rfl rfl
  | addConversation id =>
      simp only [step, addConversation] at taken
      split at taken
      · cases taken
      · rename_i absent
        cases taken
        exact .opened id (by simpa using absent) rfl
  | deleteConversation id =>
      simp only [step, deleteConversation] at taken
      split at taken
      · cases taken
        exact .idle ⟨last_seq_delete _ _ _, row_ids _ (by intro row; split <;> rfl), rfl, rfl, rfl,
          rfl, [], by simp, by simp⟩ rfl rfl rfl rfl
      · cases taken
  | receive tx request =>
      simp only [step, receive] at taken
      split at taken
      · cases taken
      · rename_i idle
        cases taken
        exact .moved tx (some ⟨state.clock, .received request⟩)
          ⟨rfl, rfl, rfl, rfl, rfl, rfl, [], by simp [enter], by simp⟩ rfl
          (by rintro moved ⟨⟩; exact ⟨rfl, rfl, trivial⟩) (fun _ _ _ held => held)
          (fun _ member => member)
          ⟨[], by simp [enter], .received request rfl (by simpa using idle)⟩
  | examine tx => exact examine_effect taken
  | enforceBudget tx nowMs => exact enforce_budget_effect taken
  | searchRows tx scan => exact search_rows_effect taken
  | proceed tx => exact proceed_effect taken
  | selectAttachments tx => exact select_attachments_effect taken
  | allocateSeq tx => exact allocate_seq_effect phases taken
  | flush tx id => exact flush_effect taken
  | logEvent tx =>
      simp only [step, logEvent] at taken
      split at taken
      · rename_i startedAt write seq opened
        split at taken
        · cases taken
          exact .logged tx startedAt write seq opened rfl
        · rename_i wide
          cases taken
          exact fail_effect opened (.overflow write seq (by simpa using wide))
      · cases taken
  | commit tx =>
      have committed : commit state tx = some next := taken
      simp only [step, commit] at taken
      split at taken
      · rename_i startedAt write seq eventId opened
        exact .committed tx startedAt write seq eventId opened committed rfl
      · cases taken
  | publish tx =>
      simp only [step, publish] at taken
      split at taken
      · rename_i startedAt broadcast opened
        cases taken
        exact finish_effect state.limiter state.drawnIds (fun _ member => member) opened trivial
          (.published broadcast)
      · cases taken
  | rollback tx =>
      simp only [step] at taken
      split at taken
      · rename_i some
        obtain ⟨⟨startedAt, phase⟩, opened⟩ := Option.isSome_iff_exists.mp some
        cases taken
        exact .moved tx none ⟨rfl, rfl, rfl, rfl, rfl, rfl, [], by simp [close], by simp⟩ rfl
          (by simp) (fun key _ other => release_keeps state.locks key tx _ other)
          (fun _ member => member) ⟨[], by simp [close], .cut startedAt phase opened rfl⟩
      · cases taken

end Inversion

section Commits

/-- The fields a commit leaves. -/
structure Committed (state next : State) (tx : TxId) (startedAt : Time) (write : Write)
    (seq eventId : Nat) : Prop where
  conversations : next.conversations = state.conversations.map fun row =>
    if row.id = write.conversation then { row with lastSeq := seq } else row
  messages : next.messages = (applyWrite state write).messages
  edits : next.edits = (applyWrite state write).edits
  attachments : next.attachments = (applyWrite state write).attachments
  events : next.events = state.events ++ [eventOf write seq eventId startedAt]
  lastEventId : next.lastEventId = state.lastEventId
  locks : next.locks = release state.locks tx
  drawn : next.drawnIds = state.drawnIds
  txs : next.txs = assign state.txs tx
    (some ⟨startedAt, .publishing ⟨write.type, write.conversation, write.payload⟩⟩)
  journal : next.journal = state.journal ++
    [.logged (eventOf write seq eventId startedAt), .answered tx (answerOf write)]

theorem commit_fields {state next : State} {tx : TxId} {startedAt : Time} {write : Write}
    {seq eventId : Nat} (ready : state.txs tx = some ⟨startedAt, .logged write seq eventId⟩)
    (result : commit state tx = some next) :
    Committed state next tx startedAt write seq eventId := by
  unfold commit at result
  rw [ready] at result
  cases result
  cases write with
  | create message attachments actor =>
      exact ⟨rfl, rfl, rfl, rfl, rfl, rfl, rfl, rfl, assign_again _ _ _ _, rfl⟩
  | revise revision =>
      exact ⟨rfl, rfl, rfl, rfl, rfl, rfl, rfl, rfl, assign_again _ _ _ _, rfl⟩

/-- The messages, their edits and the events are as they were, or a write is
committed. -/
inductive Written (state next : State) (action : Action) : Prop where
  | kept (messages : next.messages = state.messages) (edits : next.edits = state.edits)
      (events : next.events = state.events)
  | committed (tx : TxId) (startedAt : Time) (write : Write) (seq eventId : Nat)
      (origin : action = .commit tx)
      (ready : state.txs tx = some ⟨startedAt, .logged write seq eventId⟩)
      (fields : Committed state next tx startedAt write seq eventId)

theorem effect_written {state next : State} {action : Action} (effect : Effect state next action) :
    Written state next action := by
  cases effect with
  | idle frame | moved tx transaction frame =>
      exact .kept frame.messages frame.edits frame.events
  | opened id absent result
  | allocated tx startedAt job seq phase ready current free held plain result
  | flushed tx startedAt draft seq id numbered fresh result
  | logged tx startedAt write seq writing result =>
      rw [result]
      exact .kept rfl rfl rfl
  | committed tx startedAt write seq eventId ready result origin =>
      exact .committed tx startedAt write seq eventId origin ready (commit_fields ready result)

end Commits

section Requests
variable {searchMatches : String → String → Bool} {state next : State} {action : Action}

/-- A part of a request that no statement changes. -/
structure Lasting {Part : Type} (view : Phase → Option Part) : Prop where
  follows : ∀ state before after, Follows state before after → view after = view before
  flushed : ∀ draft seq id now,
    view (.writing (.create (newMessage draft seq id now) draft.attachments draft.access.user)
      seq) = view (.numbered draft seq)
  logged : ∀ write seq eventId, view (.logged write seq eventId) = view (.writing write seq)
  published : ∀ broadcast, view (.publishing broadcast) = none

theorem key_lasting : Lasting Phase.key where
  follows := fun _ _ _ follows => follows.key
  flushed := fun _ _ _ _ => rfl
  logged := fun _ _ _ => rfl
  published := fun _ => rfl

theorem body_lasting : Lasting Phase.body where
  follows := fun _ _ _ follows => follows.body
  flushed := fun _ _ _ _ => rfl
  logged := fun _ _ _ => rfl
  published := fun _ => rfl

theorem deletes_lasting : Lasting Phase.deletes where
  follows := fun _ _ _ follows => follows.deletes
  flushed := fun _ _ _ _ => rfl
  logged := fun _ _ _ => rfl
  published := fun _ => rfl

/-- A request that is moved on without a change of what it is about. -/
theorem replaced_before {Part : Type} {view : Phase → Option Part} {tx other : TxId}
    {before current transaction : Transaction} {part : Part}
    (opened : state.txs other = some before) (same : view current.phase = view before.phase)
    (found : assign state.txs other (some current) tx = some transaction)
    (held : view transaction.phase = some part) :
    ∃ before, state.txs tx = some before ∧ view before.phase = some part := by
  rcases assign_cases found with ⟨rfl, here⟩ | ⟨_, kept⟩
  · obtain rfl := Option.some.inj here
    exact ⟨before, opened, same.symm.trans held⟩
  · exact ⟨transaction, kept, held⟩

/-- What an open request is about was so before, or was asked now. -/
theorem lasting_before {Part : Type} {view : Phase → Option Part} (lasting : Lasting view)
    (effect : Effect state next action) {tx : TxId} {transaction : Transaction}
    (found : next.txs tx = some transaction) {part : Part}
    (held : view transaction.phase = some part) :
    (∃ before, state.txs tx = some before ∧ view before.phase = some part) ∨
      ∃ request, action = .receive tx request ∧ state.txs tx = none ∧
        view (.received request) = some part := by
  have kept : state.txs tx = some transaction →
      (∃ before, state.txs tx = some before ∧ view before.phase = some part) ∨
        ∃ request, action = .receive tx request ∧ state.txs tx = none ∧
          view (.received request) = some part :=
    fun before => Or.inl ⟨transaction, before, held⟩
  cases effect with
  | idle frame txs => exact kept (txs ▸ found)
  | moved other moved frame txs free locks drawn move =>
      rw [txs] at found
      obtain ⟨added, _, move⟩ := move
      rcases assign_cases found with ⟨rfl, rfl⟩ | ⟨_, before⟩
      · cases move with
        | received request asked vacant => exact Or.inr ⟨request, asked, vacant, held⟩
        | followed startedAt before after opened follows =>
            exact Or.inl ⟨_, opened, (lasting.follows state before after follows).symm.trans held⟩
      · exact kept before
  | opened id absent result =>
      rw [result] at found
      exact kept found
  | allocated other startedAt job seq phase ready current free held' plain result follows =>
      rw [result] at found
      exact Or.inl (replaced_before ready (lasting.follows state _ _ follows) found held)
  | flushed other startedAt draft seq id numbered fresh result =>
      rw [result] at found
      exact Or.inl (replaced_before numbered (lasting.flushed draft seq id state.clock) found held)
  | logged other startedAt write seq writing result =>
      rw [result] at found
      exact Or.inl (replaced_before writing (lasting.logged write seq _) found held)
  | committed other startedAt write seq eventId ready result =>
      rw [(commit_fields ready result).txs] at found
      rcases assign_cases found with ⟨rfl, here⟩ | ⟨_, before⟩
      · obtain rfl := Option.some.inj here
        rw [lasting.published] at held
        cases held
      · exact kept before

end Requests

end RunnerupChat.MessageStore
