import RunnerupChat.Accounts
import RunnerupChat.KeysetPage
import RunnerupChat.RateLimit
import RunnerupChat.Runs
import RunnerupChat.SnapshotUpdate
import RunnerupChat.UniqueKeys

/-!
`services/messages.py` and `next_conversation_seq` under READ COMMITTED. An
action is one statement, one rate-limit script, one commit or one publication
of one request; requests interleave freely. The access a request was granted
and the text match of PostgreSQL are inputs.
-/

namespace RunnerupChat.MessageStore

open Accounts RateLimit SnapshotUpdate UniqueKeys

inductive MessageKind where
  | text | image | video | audio | voice | file | system
  deriving DecidableEq

inductive MemberState where
  | active | muted | restricted | banned | left
  deriving DecidableEq

inductive AttachmentState where
  | pending | scanning | ready | rejected
  deriving DecidableEq

/-- What `resolve_access` granted. -/
structure Access where
  user : Uuid
  conversation : Uuid
  permissions : List Permission

structure Conversation where
  id : Uuid
  lastSeq : Nat
  deletedAt : Option Time
  deriving DecidableEq

structure ConversationMember where
  conversationId : Uuid
  userId : Uuid
  state : MemberState
  leftAt : Option Time
  deriving DecidableEq

structure Message where
  id : Uuid
  conversationId : Uuid
  seq : Nat
  senderId : Option Uuid
  kind : MessageKind
  body : Option String
  clientMsgId : Uuid
  replyToId : Option Uuid
  editedAt : Option Time
  editCount : Nat
  deletedAt : Option Time
  deletedBy : Option Uuid
  createdAt : Time
  deriving DecidableEq

structure MessageEdit where
  messageId : Uuid
  previousBody : Option String
  editedBy : Uuid
  deriving DecidableEq

structure Attachment where
  id : Uuid
  ownerId : Uuid
  conversationId : Option Uuid
  messageId : Option Uuid
  displayName : String
  byteSize : Nat
  detectedMime : String
  width : Option Nat
  height : Option Nat
  durationMs : Option Nat
  state : AttachmentState
  deriving DecidableEq

structure AttachmentOut where
  id : Uuid
  name : String
  size : Nat
  mime : String
  width : Option Nat
  height : Option Nat
  durationMs : Option Nat
  deriving DecidableEq

/-- The object `_serialize` makes of a message. -/
structure MessageOut where
  id : Uuid
  seq : Nat
  conversationId : Uuid
  senderId : Option Uuid
  kind : MessageKind
  body : Option String
  clientMsgId : Uuid
  replyToId : Option Uuid
  editedAt : Option Time
  deleted : Bool
  createdAt : Time
  attachments : List AttachmentOut
  deriving DecidableEq

inductive EventType where
  | created | edited | deleted
  deriving DecidableEq

def EventType.text : EventType → String
  | .created => "message.created"
  | .edited => "message.edited"
  | .deleted => "message.deleted"

inductive Payload where
  | message (out : MessageOut)
  | deletion (id : Uuid) (byModerator : Bool)
  deriving DecidableEq

structure ConversationEvent where
  id : Nat
  conversationId : Uuid
  seq : Nat
  type : EventType
  payload : Payload
  actorId : Uuid
  createdAt : Time
  deriving DecidableEq

def serialize (message : Message) (attachments : List Attachment) : MessageOut :=
  { id := message.id, seq := message.seq, conversationId := message.conversationId,
    senderId := message.senderId, kind := message.kind, body := message.body,
    clientMsgId := message.clientMsgId, replyToId := message.replyToId,
    editedAt := message.editedAt, deleted := message.deletedAt.isSome,
    createdAt := message.createdAt,
    attachments := attachments.map fun row =>
      ⟨row.id, row.displayName, row.byteSize, row.detectedMime, row.width, row.height,
        row.durationMs⟩ }

section Checks

def maxBodyChars : Nat := 8192

def maxAttachments : Nat := 10

def editWindowSeconds : Nat := 48 * 3600

/-- What `str.strip` takes away. -/
def isSpace (char : Char) : Bool :=
  let code := char.toNat
  decide (9 ≤ code ∧ code ≤ 13 ∨ 28 ≤ code ∧ code ≤ 32 ∨ code = 0x85 ∨ code = 0xa0 ∨
    code = 0x1680 ∨ 0x2000 ≤ code ∧ code ≤ 0x200a ∨ code = 0x2028 ∨ code = 0x2029 ∨
    code = 0x202f ∨ code = 0x205f ∨ code = 0x3000)

def strip (text : String) : String :=
  String.ofList ((text.toList.dropWhile isSpace).reverse.dropWhile isSpace).reverse

/-- A character `_validate_body` keeps: no control character but tab and
newline, and no direction override. -/
def isKept (char : Char) : Bool :=
  (char == '\t' || char == '\n' || decide (32 ≤ char.toNat)) &&
    char.toNat != 0x202e && char.toNat != 0x202d

def validateBody (body : Option String) (kind : MessageKind) (attachments : Nat) :
    Except AppError (Option String) :=
  if kind = .text ∧ (body.all fun text => strip text == "") then
    .error (.validationFailed "empty_message")
  else if body.any fun text => decide (maxBodyChars < text.length) then
    .error (.validationFailed "message_too_long")
  else if maxAttachments < attachments then .error (.validationFailed "too_many_attachments")
  else .ok (body.map fun text => String.ofList (text.toList.filter isKept))

def Access.can (access : Access) (permission : Permission) : Bool :=
  access.permissions.contains permission

def canModifyMessage (access : Access) (message : Message) : Bool :=
  message.deletedAt.isNone && message.senderId == some access.user &&
    access.can .editOwnMessage

def canDeleteMessage (access : Access) (message : Message) : Bool :=
  (message.senderId == some access.user && access.can .deleteOwnMessage) ||
    access.can .deleteAnyMessage

end Checks

/-- A message to be sent, validated; its attachments once they are found. -/
structure Draft where
  access : Access
  clientMsgId : Uuid
  body : Option String
  kind : MessageKind
  replyToId : Option Uuid
  attachmentIds : List Uuid
  attachments : List Attachment

/-- A change to a message: the copy that was read and what it was changed to. -/
structure Revision where
  type : EventType
  loaded : Message
  changed : Message
  actor : Uuid

inductive Job where
  | create (draft : Draft)
  | revise (revision : Revision)

/-- Rows a transaction has yet to commit. -/
inductive Write where
  | create (message : Message) (attachments : List Attachment) (actor : Uuid)
  | revise (revision : Revision)

inductive Request where
  | send (access : Access) (clientMsgId : Option Uuid) (body : Option String)
      (kind : MessageKind) (replyToId : Option Uuid) (attachmentIds : List Uuid)
  | edit (access : Access) (message : Uuid) (body : String)
  | delete (access : Access) (message : Uuid)
  | list (access : Access) (beforeSeq afterSeq : Option Nat) (limit : Nat)
  | search (user : Uuid) (query : String) (conversation : Option Uuid) (limit : Nat)
  | sync (client user : Uuid) (afterId limit : Nat)

/-- What a request still has to do once its budgets are charged. -/
inductive Limited where
  | send (draft : Draft)
  | edit (access : Access) (loaded : Message) (body : String)
  | search (user : Uuid) (query : String) (conversation : Option Uuid) (limit : Nat)

structure Broadcast where
  type : EventType
  conversationId : Uuid
  payload : Payload

inductive Phase where
  | received (request : Request)
  | limiting (work : Limited) (budgets : List (LimitName × String))
  | attaching (draft : Draft)
  | ready (job : Job)
  | numbered (draft : Draft) (seq : Nat)
  | writing (write : Write) (seq : Nat)
  | logged (write : Write) (seq eventId : Nat)
  | publishing (broadcast : Broadcast)

structure Transaction where
  startedAt : Time
  phase : Phase

/-- A sync call: the conversations of its user, what it asked and got. -/
structure SyncCall where
  client : Uuid
  user : Uuid
  conversations : List Uuid
  now : Time
  afterId : Nat
  limit : Nat
  events : List ConversationEvent
  cursor : Nat

inductive Response where
  | listed (user : Uuid) (items : List MessageOut)
  | found (user : Uuid) (items : List MessageOut)
  | synced (call : SyncCall)

inductive Answer where
  | sent (message : Message) (created : Bool)
  | revised (message : Message)
  | refused (error : AppError)
  /-- An exception that is no `AppError`. -/
  | failed

/-- What became visible, oldest first. -/
inductive Entry where
  | logged (event : ConversationEvent)
  | served (response : Response)
  | answered (tx : TxId) (answer : Answer)
  | published (broadcast : Broadcast)

structure State where
  conversations : List Conversation
  messages : List Message
  edits : List MessageEdit
  attachments : List Attachment
  members : List ConversationMember
  events : List ConversationEvent
  lastEventId : Nat
  locks : Locks Uuid TxId
  drawnIds : List Uuid
  txs : TxId → Option Transaction
  limiter : Store
  clock : Time
  journal : List Entry

inductive Action where
  | advance (pause : Nat)
  | addConversation (id : Uuid)
  | deleteConversation (id : Uuid)
  | setMembers (members : List ConversationMember)
  | addAttachment (row : Attachment)
  | receive (tx : TxId) (request : Request)
  | examine (tx : TxId)
  | enforceBudget (tx : TxId) (nowMs : Nat)
  | searchRows (tx : TxId) (scan : List Message)
  | proceed (tx : TxId)
  | selectAttachments (tx : TxId)
  | allocateSeq (tx : TxId)
  | flush (tx : TxId) (id : Uuid)
  | logEvent (tx : TxId)
  | commit (tx : TxId)
  | publish (tx : TxId)
  | rollback (tx : TxId)

def Job.conversation : Job → Uuid
  | .create draft => draft.access.conversation
  | .revise revision => revision.loaded.conversationId

def Write.conversation : Write → Uuid
  | .create message _ _ => message.conversationId
  | .revise revision => revision.loaded.conversationId

def Write.type : Write → EventType
  | .create _ _ _ => .created
  | .revise revision => revision.type

def Write.actor : Write → Uuid
  | .create _ _ actor => actor
  | .revise revision => revision.actor

def Write.payload : Write → Payload
  | .create message attachments _ => .message (serialize message attachments)
  | .revise revision =>
      match revision.type with
      -- a deletion publishes no text; the payloads before it stay as they are
      | .deleted => .deletion revision.loaded.id (revision.loaded.senderId != some revision.actor)
      | .created | .edited => .message (serialize revision.changed [])

/-- The row an `UPDATE` of the changed columns leaves. -/
def overlay (revision : Revision) (row : Message) : Message :=
  let { loaded, changed, .. } := revision
  -- a column equal to the copy that was read is not written at all
  { row with
    body := if changed.body = loaded.body then row.body else changed.body
    editedAt := if changed.editedAt = loaded.editedAt then row.editedAt else changed.editedAt
    editCount := if changed.editCount = loaded.editCount then row.editCount else changed.editCount
    deletedAt := if changed.deletedAt = loaded.deletedAt then row.deletedAt else changed.deletedAt
    deletedBy := if changed.deletedBy = loaded.deletedBy then row.deletedBy else changed.deletedBy }

/-- An edit and a deletion of the copy that was read. -/
def editOf (access : Access) (loaded : Message) (body : Option String) (now : Time) : Revision :=
  { type := .edited, loaded := loaded, actor := access.user
    changed := { loaded with
      body := body, editedAt := some now, editCount := loaded.editCount + 1 } }

def deletionOf (access : Access) (loaded : Message) (now : Time) : Revision :=
  { type := .deleted, loaded := loaded, actor := access.user
    changed := { loaded with deletedAt := some now, deletedBy := some access.user, body := none } }

section Machine
variable (searchMatches : String → String → Bool)

def initial : State :=
  { conversations := [], messages := [], edits := [], attachments := [], members := [],
    events := [], lastEventId := 0, locks := fun _ => none, drawnIds := [],
    txs := fun _ => none, limiter := emptyStore, clock := 0, journal := [] }

/-- The transaction ends: its locks go and nothing of it stays open. -/
def close (state : State) (tx : TxId) : State :=
  { state with locks := release state.locks tx, txs := assign state.txs tx none }

def enter (state : State) (tx : TxId) (startedAt : Time) (phase : Phase) : State :=
  { state with txs := assign state.txs tx (some ⟨startedAt, phase⟩) }

/-- The transaction ends with this entry. -/
def finish (state : State) (tx : TxId) (entry : Entry) : State :=
  { close state tx with journal := state.journal ++ [entry] }

def refuse (state : State) (tx : TxId) (error : AppError) : State :=
  finish state tx (.answered tx (.refused error))

def fail (state : State) (tx : TxId) : State := finish state tx (.answered tx .failed)

def memberConversations (state : State) (user : Uuid) : List Uuid :=
  (state.members.filter fun row =>
    row.userId == user && row.leftAt.isNone && row.state != .banned).map
      ConversationMember.conversationId

/-- The original of a retried send. -/
def duplicateOf (state : State) (conversation sender clientMsgId : Uuid) : Option Message :=
  state.messages.find? fun row =>
    row.conversationId == conversation && row.senderId == some sender &&
      row.clientMsgId == clientMsgId

def sendBudgets (draft : Draft) : List (LimitName × String) :=
  [(.messageSendUser, toString draft.access.user),
    (.messageSendConv, toString draft.access.conversation)]

/-- `list_messages`: at most 100 rows, by `seq`. -/
def listRows (state : State) (conversation : Uuid) (beforeSeq afterSeq : Option Nat)
    (limit : Nat) : List Message :=
  let limit := max 1 (min limit 100)
  let rows := state.messages.filter fun row => row.conversationId == conversation
  let newest := fun rows : List Message =>
    (rows.insertionSort fun left right => right.seq ≤ left.seq).take limit
  -- `before_seq` wins when both are given
  match beforeSeq, afterSeq with
  | some before, _ => newest (rows.filter fun row => decide (row.seq < before))
  | none, some after => KeysetPage.page Message.seq after limit rows
  | none, none => newest rows

/-- `search_messages` on the rows in the order of one scan. -/
def foundRows (state : State) (user : Uuid) (query : String) (conversation : Option Uuid)
    (limit : Nat) (scan : List Message) : List Message :=
  let conversations := (memberConversations state user).filter fun id =>
    conversation.all fun wanted => id == wanted
  let rows := scan.filter fun row =>
    conversations.contains row.conversationId && row.deletedAt.isNone &&
      searchMatches (row.body.getD "") query
  (rows.insertionSort fun left right => right.seq ≤ left.seq).take (min limit 50)

/-- The events a sync call at `now` may serve. -/
def servable (conversations : List Uuid) (now : Time) (event : ConversationEvent) : Bool :=
  conversations.contains event.conversationId && decide (event.createdAt + second < now)

def syncEvents (state : State) (client user : Uuid) (now : Time) (afterId limit : Nat) :
    SyncCall :=
  let conversations := memberConversations state user
  let events := KeysetPage.page ConversationEvent.id afterId limit
    (state.events.filter (servable conversations now))
  { client := client, user := user, conversations := conversations, now := now,
    afterId := afterId, limit := limit, events := events,
    cursor := KeysetPage.cursor ConversationEvent.id afterId events }

def receive (state : State) (tx : TxId) (request : Request) : Option State :=
  if (state.txs tx).isSome then none
  else some (enter state tx state.clock (.received request))

/-- The first checks of `send_message`, and its look for an earlier copy. -/
def examineSend (state : State) (tx : TxId) (startedAt : Time) (access : Access)
    (clientMsgId : Option Uuid) (body : Option String) (kind : MessageKind)
    (replyToId : Option Uuid) (attachmentIds : List Uuid) : State :=
  if !access.can .sendMessage then refuse state tx (.permissionDenied "permission_denied")
  else match validateBody body kind attachmentIds.length with
    | .error error => refuse state tx error
    | .ok body =>
        match clientMsgId with
        | none => refuse state tx (.validationFailed "invalid_client_msg_id")
        | some key =>
            match duplicateOf state access.conversation access.user key with
            -- a retry gets the stored message and no second event
            | some existing => finish state tx (.answered tx (.sent existing false))
            | none =>
                let draft : Draft := ⟨access, key, body, kind, replyToId, attachmentIds, []⟩
                enter state tx startedAt (.limiting (.send draft) (sendBudgets draft))

/-- `resolve_message_access` and the first checks of an edit or a deletion. -/
def examineMessage (state : State) (tx : TxId) (access : Access) (message : Uuid)
    (next : Message → State) : State :=
  match state.messages.find? fun row => row.id == message with
  | none => refuse state tx (.notVisible "not_found")
  | some loaded =>
      if access.can .readMessages then next loaded
      else refuse state tx (.permissionDenied "permission_denied")

def examine (state : State) (tx : TxId) : Option State :=
  match state.txs tx with
  | some ⟨startedAt, .received (.send access key body kind replyToId attachmentIds)⟩ =>
      some (examineSend state tx startedAt access key body kind replyToId attachmentIds)
  | some ⟨startedAt, .received (.edit access message body)⟩ =>
      some (examineMessage state tx access message fun loaded =>
        -- the checks are on this copy, read before the row lock below
        if !canModifyMessage access loaded then
          refuse state tx (.permissionDenied "permission_denied")
        else if loaded.createdAt + editWindowSeconds * second < state.clock then
          refuse state tx (.permissionDenied "edit_window_expired")
        else enter state tx startedAt
          (.limiting (.edit access loaded body) [(.messageEditUser, toString access.user)]))
  | some ⟨startedAt, .received (.delete access message)⟩ =>
      some (examineMessage state tx access message fun loaded =>
        if canDeleteMessage access loaded then
          enter state tx startedAt (.ready (.revise (deletionOf access loaded state.clock)))
        else refuse state tx (.permissionDenied "permission_denied"))
  | some ⟨_, .received (.list access beforeSeq afterSeq limit)⟩ =>
      if access.can .readMessages then
        some (finish state tx (.served (.listed access.user
          ((listRows state access.conversation beforeSeq afterSeq limit).map (serialize · [])))))
      else some (refuse state tx (.permissionDenied "permission_denied"))
  | some ⟨startedAt, .received (.search user query conversation limit)⟩ =>
      some (enter state tx startedAt
        (.limiting (.search user query conversation limit) [(.searchUser, toString user)]))
  | some ⟨startedAt, .received (.sync client user afterId limit)⟩ =>
      some (finish state tx (.served (.synced
        (syncEvents state client user startedAt afterId limit))))
  | _ => none

def enforceBudget (state : State) (tx : TxId) (nowMs : Nat) : Option State :=
  match state.txs tx with
  | some ⟨startedAt, .limiting work ((name, identity) :: rest)⟩ =>
      match enforce state.limiter name identity nowMs with
      | (.ok _, limiter) =>
          some (enter { state with limiter := limiter } tx startedAt (.limiting work rest))
      | (.error refused, limiter) =>
          some (refuse { state with limiter := limiter } tx (.rateLimited refused.retryAfter))
  | _ => none

def searchRows (state : State) (tx : TxId) (scan : List Message) : Option State :=
  match state.txs tx with
  | some ⟨_, .limiting (.search user query conversation limit) []⟩ =>
      if (strip query).length < 2 then
        some (refuse state tx (.validationFailed "query_too_short"))
      else if scan.isPerm state.messages then
        some (finish state tx (.served (.found user
          ((foundRows searchMatches state user query conversation limit scan).map
            (serialize · [])))))
      else none
  | _ => none

/-- Past the rate limits: the reply target of a send, the body of an edit. -/
def proceed (state : State) (tx : TxId) : Option State :=
  match state.txs tx with
  | some ⟨startedAt, .limiting (.send draft) []⟩ =>
      let targeted := draft.replyToId.all fun parent => state.messages.any fun row =>
        row.id == parent && row.conversationId == draft.access.conversation &&
          row.deletedAt.isNone
      if targeted then some (enter state tx startedAt (.attaching draft))
      else some (refuse state tx (.validationFailed "invalid_reply_target"))
  | some ⟨startedAt, .limiting (.edit access loaded body) []⟩ =>
      match validateBody (some body) loaded.kind 0 with
      | .error error => some (refuse state tx error)
      | .ok body =>
          some (enter state tx startedAt (.ready (.revise (editOf access loaded body state.clock))))
  | _ => none

def selectAttachments (state : State) (tx : TxId) : Option State :=
  match state.txs tx with
  | some ⟨startedAt, .attaching draft⟩ =>
      let rows := state.attachments.filter fun row =>
        draft.attachmentIds.contains row.id && row.ownerId == draft.access.user &&
          row.messageId.isNone && row.state == .ready
      if rows.length = draft.attachmentIds.dedup.length then
        some (enter state tx startedAt (.ready (.create { draft with attachments := rows })))
      else some (refuse state tx (.validationFailed "invalid_attachments"))
  | _ => none

/-- `next_conversation_seq`: the row lock it takes is kept to the end of the
transaction. -/
def allocateSeq (state : State) (tx : TxId) : Option State :=
  match state.txs tx with
  | some ⟨startedAt, .ready job⟩ =>
      match state.conversations.find? fun row => row.id == job.conversation with
      -- the function raises for a missing and for a deleted conversation
      | none => some (fail state tx)
      | some row =>
          if row.deletedAt.isSome then some (fail state tx)
          else if available state.locks row.id tx then
            let seq := row.lastSeq + 1
            let phase := match job with
              | .create draft => .numbered draft seq
              | .revise revision => .writing (.revise revision) seq
            some (enter { state with locks := acquire state.locks row.id tx } tx startedAt phase)
          else none
  | _ => none

/-- The row `send_message` inserts. -/
def newMessage (draft : Draft) (seq : Nat) (id : Uuid) (now : Time) : Message :=
  { id := id, conversationId := draft.access.conversation, seq := seq,
    senderId := some draft.access.user, kind := draft.kind, body := draft.body,
    clientMsgId := draft.clientMsgId, replyToId := draft.replyToId, editedAt := none,
    editCount := 0, deletedAt := none, deletedBy := none, createdAt := now }

/-- A message id is new whenever it is drawn. On a unique violation the
rollback expires the loaded user and conversation, so the look for the winner
fails as well. -/
def flush (state : State) (tx : TxId) (id : Uuid) : Option State :=
  match state.txs tx with
  | some ⟨startedAt, .numbered draft seq⟩ =>
      if id ∈ state.drawnIds then none
      else
        let message := newMessage draft seq id state.clock
        -- `UNIQUE (conversation_id, seq)` and `(conversation_id, sender_id, client_msg_id)`
        let taken := state.messages.any fun row =>
          row.conversationId == message.conversationId &&
            (row.seq == seq ||
              (row.senderId == message.senderId && row.clientMsgId == message.clientMsgId))
        if taken then some (fail { state with drawnIds := id :: state.drawnIds } tx)
        else some (enter { state with drawnIds := id :: state.drawnIds } tx startedAt
          (.writing (.create message draft.attachments draft.access.user) seq))
  | _ => none

/-- `edit_count` is a `SMALLINT`. -/
def Write.fits : Write → Bool
  | .create _ _ _ => true
  | .revise revision => decide (revision.changed.editCount ≤ smallintMax)

/-- The event row takes its id from the sequence, which no rollback gives back. -/
def logEvent (state : State) (tx : TxId) : Option State :=
  match state.txs tx with
  | some ⟨startedAt, .writing write seq⟩ =>
      -- the changed message row is written first, and can be refused
      if write.fits then
        some (enter { state with lastEventId := state.lastEventId + 1 } tx startedAt
          (.logged write seq (state.lastEventId + 1)))
      else some (fail state tx)
  | _ => none

def eventOf (write : Write) (seq eventId : Nat) (startedAt : Time) : ConversationEvent :=
  { id := eventId, conversationId := write.conversation, seq := seq, type := write.type,
    payload := write.payload, actorId := write.actor, createdAt := startedAt }

/-- The row that binding the copy of an attachment leaves. -/
def bindTo (message : Message) (loaded row : Attachment) : Attachment :=
  -- as in `overlay`, a column equal to the copy that was read is not written
  { row with
    messageId := if loaded.messageId = some message.id then row.messageId else some message.id
    conversationId := if loaded.conversationId = some message.conversationId then
        row.conversationId
      else some message.conversationId }

/-- The rows of a committed write. -/
def applyWrite (state : State) : Write → State
  | .create message attachments _ => { state with
      messages := state.messages ++ [message]
      attachments := state.attachments.map fun row =>
        match attachments.find? fun loaded => loaded.id == row.id with
        | some loaded => bindTo message loaded row
        | none => row }
  | .revise revision => { state with
      messages := state.messages.map fun row =>
        if row.id = revision.loaded.id then overlay revision row else row
      edits := if revision.type = .edited then
          state.edits ++ [⟨revision.loaded.id, revision.loaded.body, revision.actor⟩]
        else state.edits }

def answerOf : Write → Answer
  | .create message _ _ => .sent message true
  | .revise revision => .revised revision.changed

def commit (state : State) (tx : TxId) : Option State :=
  match state.txs tx with
  | some ⟨startedAt, .logged write seq eventId⟩ =>
      let event := eventOf write seq eventId startedAt
      -- rows, counter and event become visible at once, and the row lock goes
      let written := applyWrite state write
      let broadcast : Broadcast := ⟨write.type, write.conversation, write.payload⟩
      some (enter { close written tx with
        conversations := state.conversations.map fun row =>
          if row.id = write.conversation then { row with lastSeq := seq } else row
        events := state.events ++ [event]
        journal := state.journal ++ [.logged event, .answered tx (answerOf write)] }
        tx startedAt (.publishing broadcast))
  | _ => none

def publish (state : State) (tx : TxId) : Option State :=
  match state.txs tx with
  | some ⟨_, .publishing broadcast⟩ => some (finish state tx (.published broadcast))
  | _ => none

def addConversation (state : State) (id : Uuid) : Option State :=
  if state.conversations.any fun row => row.id == id then none
  else some { state with conversations := state.conversations ++ [⟨id, 0, none⟩] }

/-- The row is written under its lock. -/
def deleteConversation (state : State) (id : Uuid) : Option State :=
  if state.locks id = none then
    some { state with
      conversations := state.conversations.map fun row =>
        if row.id = id then { row with deletedAt := some state.clock } else row }
  else none

def step (state : State) : Action → Option State
  | .advance pause => some { state with clock := state.clock + pause }
  | .addConversation id => addConversation state id
  | .deleteConversation id => deleteConversation state id
  | .setMembers members => some { state with members := members }
  | .addAttachment row => some { state with attachments := state.attachments ++ [row] }
  | .receive tx request => receive state tx request
  | .examine tx => examine state tx
  | .enforceBudget tx nowMs => enforceBudget state tx nowMs
  | .searchRows tx scan => searchRows searchMatches state tx scan
  | .proceed tx => proceed state tx
  | .selectAttachments tx => selectAttachments state tx
  | .allocateSeq tx => allocateSeq state tx
  | .flush tx id => flush state tx id
  | .logEvent tx => logEvent state tx
  | .commit tx => commit state tx
  | .publish tx => publish state tx
  | .rollback tx => if (state.txs tx).isSome then some (close state tx) else none

end Machine

end RunnerupChat.MessageStore
