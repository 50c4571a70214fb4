import RunnerupChat.AccessRules

/-!
The paths that release content: `list_messages`, `search_messages` and
`sync_events` on one database state, `download_url`, the subscription of a
WebSocket, and the decisions on edits and deletions.
-/

namespace RunnerupChat.Authz

open Accounts RateLimit UniqueKeys
open MessageStore (Message MessageOut ConversationEvent serialize strip)

section Reads
variable {Digest : Type}

/-- The rows `services/messages.py` reads. -/
def Tables.store (tables : Tables Digest) : MessageStore.State :=
  { MessageStore.initial with
    messages := tables.messages
    events := tables.events
    members := tables.members.map fun row =>
      ⟨row.conversationId, row.userId, row.state, row.leftAt⟩ }

def Access.granted (access : Access Digest) : MessageStore.Access :=
  ⟨access.user.id, access.conversation.id, access.permissions⟩

def canModifyMessage (access : Access Digest) (message : Message) : Bool :=
  MessageStore.canModifyMessage access.granted message

def canDeleteMessage (access : Access Digest) (message : Message) : Bool :=
  MessageStore.canDeleteMessage access.granted message

def listMessages (tables : Tables Digest) (access : Access Digest)
    (beforeSeq afterSeq : Option Nat) (limit : Nat) : Except AppError (List MessageOut) := do
  access.require .readMessages
  return (MessageStore.listRows tables.store access.conversation.id beforeSeq afterSeq limit).map
    (serialize · [])

/-- A budget and the error that a spent one is refused with. -/
def enforceLimit (limiter : Store) (name : LimitName) (identity : String) (nowMs : Nat) :
    Except AppError Unit × Store :=
  match enforce limiter name identity nowMs with
  | (.ok (), limiter) => (.ok (), limiter)
  | (.error refused, limiter) => (.error (.rateLimited refused.retryAfter), limiter)

/-- `search_messages`, its rows taken in the order of one scan. -/
def searchMessages (searchMatches : String → String → Bool) (tables : Tables Digest)
    (limiter : Store) (nowMs : Nat) (user : User Digest) (query : String)
    (conversation : Option Uuid) (limit : Nat) (scan : List Message) :
    Except AppError (List MessageOut) × Store :=
  match enforceLimit limiter .searchUser (toString user.id) nowMs with
  | (.error error, limiter) => (.error error, limiter)
  | (.ok (), limiter) =>
      if (strip query).length < 2 then (.error (.validationFailed "query_too_short"), limiter)
      else (.ok ((MessageStore.foundRows searchMatches tables.store user.id query conversation limit
        scan).map (serialize · [])), limiter)

def syncEvents (tables : Tables Digest) (user : User Digest) (now : Time) (afterId limit : Nat) :
    List ConversationEvent × Nat :=
  let call := MessageStore.syncEvents tables.store user.id user.id now afterId limit
  (call.events, call.cursor)

structure DownloadOut where
  url : String
  expiresIn : Nat
  name : String
  mime : String
  size : Nat
  deriving DecidableEq

/-- The answer of `download_url`; the object storage signs the URL. -/
def downloadOut (signedDownloadUrl : String → String → String) (row : Attachment) : DownloadOut :=
  ⟨signedDownloadUrl row.storageKey row.displayName, 300, row.displayName, row.detectedMime,
    row.byteSize⟩

def readyAttachment (tables : Tables Digest) (target : Uuid) : Option Attachment :=
  (tables.attachments.find? fun row => row.id == target).filter fun row => row.state == .ready

def downloadUrl (signedDownloadUrl : String → String → String) (tables : Tables Digest)
    (user : User Digest) (now : Time) (target : Option Uuid) : Except AppError DownloadOut :=
  match target with
  | none => .error (.validationFailed "invalid_attachment")
  | some target =>
      match readyAttachment tables target with
      | none => .error (.notVisible "not_found")
      | some row =>
          match row.conversationId with
          | none =>
              if row.ownerId = user.id then .ok (downloadOut signedDownloadUrl row)
              else .error (.notVisible "not_found")
          | some conversation => do
              let access ← resolveAccess tables user now conversation
              access.require .readMessages
              return downloadOut signedDownloadUrl row

inductive SubscribeReply where
  | error (code : String)
  | subscribed (conversation : Uuid)
  deriving DecidableEq

/-- `_handle_subscribe` on the connection of a user. -/
def handleSubscribe (tables : Tables Digest) (connectionUser : Uuid) (now : Time)
    (conversation : Option Uuid) : SubscribeReply :=
  match conversation with
  | none => .error "invalid_conversation"
  | some conversation =>
      match tables.users.find? fun row => row.id == connectionUser with
      | none => .error "unauthorized"
      | some user =>
          match resolveAccess tables user now conversation with
          -- the same answer for a stranger and for an unknown id
          | .error _ => .error "not_found"
          | .ok access =>
              if access.can .readMessages then .subscribed conversation else .error "not_found"

/-- An entry of the answer of `list_for_user`. -/
structure ConversationOut where
  id : Uuid
  kind : ConversationKind
  visibility : Visibility
  title : Option String
  slug : Option String
  lastSeq : Nat
  unread : Nat
  role : MemberRole
  muted : Bool
  deriving DecidableEq

def conversationOut (conversation : Conversation) (row : ConversationMember) : ConversationOut :=
  { id := conversation.id, kind := conversation.kind, visibility := conversation.visibility,
    title := conversation.title, slug := conversation.slug, lastSeq := conversation.lastSeq,
    unread := conversation.lastSeq - row.lastReadSeq, role := row.role,
    muted := row.notifyPolicy == .muted }

/-- The live conversations a user is a current, unbanned member of. -/
def joinedRows (tables : Tables Digest) (user : Uuid) : List (Conversation × ConversationMember) :=
  (tables.conversations.product tables.members).filter fun (conversation, row) =>
    row.conversationId == conversation.id && row.userId == user && row.leftAt.isNone &&
      row.state != .banned && conversation.deletedAt.isNone

/-- `list_for_user` on the joined rows in the order of one scan. -/
def listForUser (limit : Nat) (scan : List (Conversation × ConversationMember)) :
    List ConversationOut :=
  ((scan.insertionSort fun left right => right.1.updatedAt ≤ left.1.updatedAt).take limit).map
    fun (conversation, row) => conversationOut conversation row

end Reads

end RunnerupChat.Authz
