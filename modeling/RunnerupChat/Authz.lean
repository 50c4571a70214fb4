import RunnerupChat.MessageStore
import RunnerupChat.OtpLogin
import RunnerupChat.UniqueKeys

/-!
The schema of conversations and `services/authz.py`. A database state is its
tables together with the constraints that PostgreSQL enforces on them.
-/

namespace RunnerupChat.Authz

open Accounts UniqueKeys
open MessageStore (MemberState Message ConversationEvent)
open OtpLogin (AuditLog Failure)

inductive ConversationKind where
  | direct | group | channel
  deriving DecidableEq

inductive Visibility where
  | isPrivate | isPublic
  deriving DecidableEq

inductive MemberRole where
  | subscriber | member | moderator | admin | owner
  deriving DecidableEq

inductive PreviewPolicy where
  | showPreview | hidePreview | mentionsOnly | muted
  deriving DecidableEq

structure Conversation where
  id : Uuid
  kind : ConversationKind
  visibility : Visibility := .isPrivate
  slug : Option String := none
  title : Option String := none
  createdBy : Option Uuid
  lastSeq : Nat := 0
  sendPolicy : MemberRole := .member
  invitePolicy : MemberRole := .admin
  pinPolicy : MemberRole := .admin
  editInfoPolicy : MemberRole := .admin
  memberLimit : Nat := 512
  isArchived : Bool := false
  updatedAt : Time
  deletedAt : Option Time := none
  deriving DecidableEq

structure DirectConversationKey where
  conversationId : Uuid
  userLo : Uuid
  userHi : Uuid
  deriving DecidableEq

structure ConversationMember where
  conversationId : Uuid
  userId : Uuid
  role : MemberRole := .member
  state : MemberState := .active
  mutedUntil : Option Time := none
  restrictedUntil : Option Time := none
  lastReadSeq : Nat := 0
  notifyPolicy : PreviewPolicy := .showPreview
  invitedBy : Option Uuid := none
  leftAt : Option Time := none
  deriving DecidableEq

structure BlockedUser where
  blockerId : Uuid
  blockedId : Uuid
  deriving DecidableEq

structure Attachment extends MessageStore.Attachment where
  storageKey : String
  deriving DecidableEq

structure InviteLink (Digest : Type) where
  conversationId : Uuid
  tokenHash : Digest
  createdBy : Option Uuid
  maxUses : Option Nat
  useCount : Nat := 0
  requiresApproval : Bool
  expiresAt : Option Time
  revokedAt : Option Time := none
  deriving DecidableEq

inductive RequestState where
  | pending | approved | rejected
  deriving DecidableEq

structure JoinRequest where
  conversationId : Uuid
  userId : Uuid
  state : RequestState := .pending
  deriving DecidableEq

structure Tables (Digest : Type) where
  users : List (User Digest)
  conversations : List Conversation := []
  directKeys : List DirectConversationKey := []
  members : List ConversationMember := []
  blocks : List BlockedUser := []
  messages : List Message := []
  attachments : List Attachment := []
  events : List ConversationEvent := []
  invites : List (InviteLink Digest) := []
  joinRequests : List JoinRequest := []
  auditLogs : List AuditLog := []

section Constraints

/-- `^[a-z0-9][a-z0-9_-]{2,31}$` on a `CITEXT`. -/
def slugAllowed (slug : String) : Bool :=
  let alphanumeric := fun char : Char => char.isLower || char.isDigit
  match slug.toList.map Char.toLower with
  | [] => false
  | head :: rest =>
      alphanumeric head && decide (2 ≤ rest.length ∧ rest.length ≤ 31) &&
        rest.all fun char => alphanumeric char || char == '_' || char == '-'

def foldedSlug (row : Conversation) : Option String :=
  row.slug.map fun slug => String.ofList (slug.toList.map Char.toLower)

/-- The one character that no text column takes. -/
def nul : Char := Char.ofNat 0

/-- The checks on a row of `conversations`. -/
structure Conversation.Allowed (row : Conversation) : Prop where
  directChatsArePrivate : row.kind = .direct → row.visibility = .isPrivate ∧ row.slug = none
  publicNeedsSlug : row.visibility = .isPublic → row.slug.isSome = true
  memberLimit : 2 ≤ row.memberLimit ∧ row.memberLimit ≤ 200000
  slug : row.slug.all slugAllowed = true
  title : (row.title.all fun title => decide (1 ≤ title.length ∧ title.length ≤ 128)) = true
  titleStored : (row.title.all fun title => decide (nul ∉ title.toList)) = true

def ConversationMember.key (row : ConversationMember) : Uuid × Uuid :=
  (row.conversationId, row.userId)

def DirectConversationKey.pair (row : DirectConversationKey) : Uuid × Uuid :=
  (row.userLo, row.userHi)

def BlockedUser.pair (row : BlockedUser) : Uuid × Uuid := (row.blockerId, row.blockedId)

def JoinRequest.key (row : JoinRequest) : Uuid × Uuid := (row.conversationId, row.userId)

/-- The key of a send; a message whose sender is gone has none. -/
def sendKey (row : Message) : Option (Uuid × Uuid × Uuid) :=
  row.senderId.map fun sender => (row.conversationId, sender, row.clientMsgId)

def ConversationMember.isOwner (row : ConversationMember) : Bool :=
  row.role == .owner && row.leftAt.isNone

variable {Digest : Type}

def Tables.userIds (tables : Tables Digest) : List Uuid := tables.users.map User.id

def Tables.conversationIds (tables : Tables Digest) : List Uuid :=
  tables.conversations.map Conversation.id

structure ConversationSchema (tables : Tables Digest) : Prop where
  users : tables.userIds.Nodup
  conversations : tables.conversationIds.Nodup
  slugs : (tables.conversations.filterMap foldedSlug).Nodup
  conversationsAllowed : ∀ row ∈ tables.conversations, row.Allowed
  creators : ∀ row ∈ tables.conversations, ∀ id ∈ row.createdBy, id ∈ tables.userIds
  directKeys : (tables.directKeys.map DirectConversationKey.conversationId).Nodup
  pairs : (tables.directKeys.map DirectConversationKey.pair).Nodup
  orderedPair : ∀ row ∈ tables.directKeys, row.userLo < row.userHi
  directKeysRefer : ∀ row ∈ tables.directKeys, row.conversationId ∈ tables.conversationIds ∧
    row.userLo ∈ tables.userIds ∧ row.userHi ∈ tables.userIds

structure MemberSchema (tables : Tables Digest) : Prop where
  members : (tables.members.map ConversationMember.key).Nodup
  membersRefer : ∀ row ∈ tables.members, row.conversationId ∈ tables.conversationIds ∧
    row.userId ∈ tables.userIds ∧ ∀ id ∈ row.invitedBy, id ∈ tables.userIds
  oneOwner : ((tables.members.filter ConversationMember.isOwner).map
    ConversationMember.conversationId).Nodup
  blocks : (tables.blocks.map BlockedUser.pair).Nodup
  noSelfBlock : ∀ row ∈ tables.blocks, row.blockerId ≠ row.blockedId
  blocksRefer : ∀ row ∈ tables.blocks, row.blockerId ∈ tables.userIds ∧
    row.blockedId ∈ tables.userIds
  invites : (tables.invites.map InviteLink.tokenHash).Nodup
  invitesRefer : ∀ row ∈ tables.invites, row.conversationId ∈ tables.conversationIds ∧
    ∀ id ∈ row.createdBy, id ∈ tables.userIds
  usesWithinLimit : ∀ row ∈ tables.invites, ∀ limit ∈ row.maxUses,
    0 < limit ∧ row.useCount ≤ limit
  usesFit : ∀ row ∈ tables.invites, row.useCount ≤ integerMax ∧
    ∀ limit ∈ row.maxUses, limit ≤ integerMax
  requests : (tables.joinRequests.map JoinRequest.key).Nodup
  requestsRefer : ∀ row ∈ tables.joinRequests, row.conversationId ∈ tables.conversationIds ∧
    row.userId ∈ tables.userIds

structure MessageSchema (tables : Tables Digest) : Prop where
  messages : (tables.messages.map Message.id).Nodup
  numbers : (tables.messages.map fun row => (row.conversationId, row.seq)).Nodup
  sends : (tables.messages.filterMap sendKey).Nodup
  messagesRefer : ∀ row ∈ tables.messages, row.conversationId ∈ tables.conversationIds ∧
    ∀ id ∈ row.senderId, id ∈ tables.userIds
  attachments : (tables.attachments.map fun row => row.id).Nodup
  attachmentsRefer : ∀ row ∈ tables.attachments, row.ownerId ∈ tables.userIds ∧
    ∀ id ∈ row.conversationId, id ∈ tables.conversationIds
  events : (tables.events.map ConversationEvent.id).Nodup
  eventsRefer : ∀ row ∈ tables.events, row.conversationId ∈ tables.conversationIds

/-- The unique keys, the foreign keys and the checks. -/
structure Schema (tables : Tables Digest) : Prop extends
  ConversationSchema tables, MemberSchema tables, MessageSchema tables

instance (row : Conversation) : Decidable row.Allowed :=
  decidable_of_iff
    ((row.kind = .direct → row.visibility = .isPrivate ∧ row.slug = none) ∧
      (row.visibility = .isPublic → row.slug.isSome = true) ∧
      (2 ≤ row.memberLimit ∧ row.memberLimit ≤ 200000) ∧ row.slug.all slugAllowed = true ∧
      (row.title.all fun title => decide (1 ≤ title.length ∧ title.length ≤ 128)) = true ∧
      (row.title.all fun title => decide (nul ∉ title.toList)) = true)
    ⟨fun ⟨directs, publics, limit, slug, title, stored⟩ =>
        ⟨directs, publics, limit, slug, title, stored⟩,
      fun ⟨directs, publics, limit, slug, title, stored⟩ =>
        ⟨directs, publics, limit, slug, title, stored⟩⟩

section Decisions
variable [DecidableEq Digest] (tables : Tables Digest)

instance : Decidable (ConversationSchema tables) :=
  decidable_of_iff
    (tables.userIds.Nodup ∧ tables.conversationIds.Nodup ∧
      (tables.conversations.filterMap foldedSlug).Nodup ∧
      (∀ row ∈ tables.conversations, row.Allowed) ∧
      (∀ row ∈ tables.conversations, ∀ id ∈ row.createdBy, id ∈ tables.userIds) ∧
      (tables.directKeys.map DirectConversationKey.conversationId).Nodup ∧
      (tables.directKeys.map DirectConversationKey.pair).Nodup ∧
      (∀ row ∈ tables.directKeys, row.userLo < row.userHi) ∧
      ∀ row ∈ tables.directKeys, row.conversationId ∈ tables.conversationIds ∧
        row.userLo ∈ tables.userIds ∧ row.userHi ∈ tables.userIds)
    ⟨fun ⟨users, conversations, slugs, allowed, creators, keys, pairs, ordered, refer⟩ =>
        ⟨users, conversations, slugs, allowed, creators, keys, pairs, ordered, refer⟩,
      fun ⟨users, conversations, slugs, allowed, creators, keys, pairs, ordered, refer⟩ =>
        ⟨users, conversations, slugs, allowed, creators, keys, pairs, ordered, refer⟩⟩

instance : Decidable (MemberSchema tables) :=
  decidable_of_iff
    ((tables.members.map ConversationMember.key).Nodup ∧
      (∀ row ∈ tables.members, row.conversationId ∈ tables.conversationIds ∧
        row.userId ∈ tables.userIds ∧ ∀ id ∈ row.invitedBy, id ∈ tables.userIds) ∧
      ((tables.members.filter ConversationMember.isOwner).map
        ConversationMember.conversationId).Nodup ∧
      (tables.blocks.map BlockedUser.pair).Nodup ∧
      (∀ row ∈ tables.blocks, row.blockerId ≠ row.blockedId) ∧
      (∀ row ∈ tables.blocks, row.blockerId ∈ tables.userIds ∧ row.blockedId ∈ tables.userIds) ∧
      (tables.invites.map InviteLink.tokenHash).Nodup ∧
      (∀ row ∈ tables.invites, row.conversationId ∈ tables.conversationIds ∧
        ∀ id ∈ row.createdBy, id ∈ tables.userIds) ∧
      (∀ row ∈ tables.invites, ∀ limit ∈ row.maxUses, 0 < limit ∧ row.useCount ≤ limit) ∧
      (∀ row ∈ tables.invites, row.useCount ≤ integerMax ∧
        ∀ limit ∈ row.maxUses, limit ≤ integerMax) ∧
      (tables.joinRequests.map JoinRequest.key).Nodup ∧
      ∀ row ∈ tables.joinRequests, row.conversationId ∈ tables.conversationIds ∧
        row.userId ∈ tables.userIds)
    ⟨fun ⟨members, refer, oneOwner, blocks, noSelf, blockers, invites, invited, uses, fit, asked,
          askers⟩ =>
        ⟨members, refer, oneOwner, blocks, noSelf, blockers, invites, invited, uses, fit, asked,
          askers⟩,
      fun ⟨members, refer, oneOwner, blocks, noSelf, blockers, invites, invited, uses, fit, asked,
          askers⟩ =>
        ⟨members, refer, oneOwner, blocks, noSelf, blockers, invites, invited, uses, fit, asked,
          askers⟩⟩

instance : Decidable (MessageSchema tables) :=
  decidable_of_iff
    ((tables.messages.map Message.id).Nodup ∧
      (tables.messages.map fun row => (row.conversationId, row.seq)).Nodup ∧
      (tables.messages.filterMap sendKey).Nodup ∧
      (∀ row ∈ tables.messages, row.conversationId ∈ tables.conversationIds ∧
        ∀ id ∈ row.senderId, id ∈ tables.userIds) ∧
      (tables.attachments.map fun row => row.id).Nodup ∧
      (∀ row ∈ tables.attachments, row.ownerId ∈ tables.userIds ∧
        ∀ id ∈ row.conversationId, id ∈ tables.conversationIds) ∧
      (tables.events.map ConversationEvent.id).Nodup ∧
      ∀ row ∈ tables.events, row.conversationId ∈ tables.conversationIds)
    ⟨fun ⟨messages, numbers, sends, within, attachments, attached, events, logged⟩ =>
        ⟨messages, numbers, sends, within, attachments, attached, events, logged⟩,
      fun ⟨messages, numbers, sends, within, attachments, attached, events, logged⟩ =>
        ⟨messages, numbers, sends, within, attachments, attached, events, logged⟩⟩

instance : Decidable (Schema tables) :=
  decidable_of_iff (ConversationSchema tables ∧ MemberSchema tables ∧ MessageSchema tables)
    ⟨fun ⟨conversations, members, messages⟩ => ⟨conversations, members, messages⟩,
      fun schema =>
        ⟨schema.toConversationSchema, schema.toMemberSchema, schema.toMessageSchema⟩⟩

end Decisions

end Constraints

/-- A committed state of the database. -/
structure Database (Digest : Type) extends Tables Digest where
  schema : Schema toTables

section Grants

def MemberRole.rank : MemberRole → Nat
  | .subscriber => 0
  | .member => 1
  | .moderator => 2
  | .admin => 3
  | .owner => 4

def everyPermission : List Permission :=
  [.sendMessage, .readMessages, .editOwnMessage, .deleteOwnMessage, .deleteAnyMessage, .pinMessage,
    .addMember, .removeMember, .banMember, .manageConversation, .manageInvites, .manageRoles,
    .transferOwnership, .viewReports, .moderateContent, .manageUsers, .manageSystem]

/-- What is left of the granted permissions once some are taken away. -/
def without (granted removed : List Permission) : List Permission :=
  granted.filter fun permission => !removed.contains permission

def platformPermissions : List Permission :=
  [.viewReports, .moderateContent, .manageUsers, .manageSystem]

def roleGrants : MemberRole → List Permission
  | .subscriber => [.readMessages]
  | .member => [.readMessages, .sendMessage, .editOwnMessage, .deleteOwnMessage]
  | .moderator =>
      [.readMessages, .sendMessage, .editOwnMessage, .deleteOwnMessage, .deleteAnyMessage,
        .pinMessage]
  | .admin =>
      [.readMessages, .sendMessage, .editOwnMessage, .deleteOwnMessage, .deleteAnyMessage,
        .pinMessage, .addMember, .removeMember, .banMember, .manageConversation, .manageInvites]
  | .owner => without everyPermission platformPermissions

def systemGrants : SystemRole → List Permission
  | .user => []
  | .moderator => [.viewReports, .moderateContent]
  | .admin => [.viewReports, .moderateContent, .manageUsers]
  | .superAdmin => [.viewReports, .moderateContent, .manageUsers, .manageSystem]

def policyForPermission : List (Permission × (Conversation → MemberRole)) :=
  [(.sendMessage, Conversation.sendPolicy), (.pinMessage, Conversation.pinPolicy),
    (.addMember, Conversation.invitePolicy), (.manageInvites, Conversation.invitePolicy),
    (.manageConversation, Conversation.editInfoPolicy)]

/-- The policies of a conversation narrow what a role would otherwise allow. -/
def narrowed (conversation : Conversation) (role : MemberRole) (granted : List Permission) :
    List Permission :=
  policyForPermission.foldl (fun granted entry =>
    if role.rank < (entry.2 conversation).rank then without granted [entry.1] else granted) granted

end Grants

structure Access (Digest : Type) where
  user : User Digest
  conversation : Conversation
  membership : Option ConversationMember
  permissions : List Permission

section Resolution
variable {Digest : Type}

def Access.can (access : Access Digest) (permission : Permission) : Bool :=
  access.permissions.contains permission

def Access.require (access : Access Digest) (permission : Permission) : Except AppError Unit :=
  if access.can permission then .ok () else .error (.permissionDenied "permission_denied")

def Access.role (access : Access Digest) : Option MemberRole :=
  access.membership.map ConversationMember.role

def findConversation (tables : Tables Digest) (id : Uuid) : Option Conversation :=
  tables.conversations.find? fun row => row.id == id && row.deletedAt.isNone

def findMember (tables : Tables Digest) (conversation user : Uuid) : Option ConversationMember :=
  tables.members.find? fun row => row.key == (conversation, user)

/-- A restriction or a mute strips write capability without removing the
membership; either may be a state or a timer. -/
def ConversationMember.isSilenced (row : ConversationMember) (now : Time) : Bool :=
  row.state == .muted || row.state == .restricted ||
    row.mutedUntil.any (fun moment => decide (now < moment)) ||
    row.restrictedUntil.any fun moment => decide (now < moment)

/-- What the membership, or else the visibility of the conversation, grants. -/
def standing (conversation : Conversation) (membership : Option ConversationMember) (now : Time) :
    Except AppError (List Permission) :=
  match membership.filter fun row => row.leftAt.isNone with
  | some row =>
      -- a banned member must not learn that the conversation still exists
      if row.state = .banned then .error (.notVisible "not_found")
      else
        let granted := roleGrants row.role
        let granted := if row.isSilenced now then
            without granted [.sendMessage, .editOwnMessage, .pinMessage, .addMember]
          else granted
        .ok (narrowed conversation row.role granted)
  | none =>
      if conversation.visibility = .isPublic then .ok [.readMessages]
      else .error (.notVisible "not_found")

/-- The other participant of a direct chat, by its ordered pair. -/
def directCounterpart (tables : Tables Digest) (conversation user : Uuid) : Option Uuid :=
  (tables.directKeys.find? fun row => row.conversationId == conversation).map fun row =>
    if row.userLo = user then row.userHi else row.userLo

/-- Whether the first has blocked the second, and the second the first. -/
def blockingState (tables : Tables Digest) (first second : Uuid) : Bool × Bool :=
  (tables.blocks.any fun row => row.blockerId == first && row.blockedId == second,
    tables.blocks.any fun row => row.blockerId == second && row.blockedId == first)

def isBlocked (tables : Tables Digest) (first second : Uuid) : Bool :=
  let (blockedThem, blockedByThem) := blockingState tables first second
  blockedThem || blockedByThem

theorem blocked_symm (tables : Tables Digest) (first second : Uuid) :
    isBlocked tables first second = isBlocked tables second first :=
  Bool.or_comm _ _

/-- What archiving and, in a direct chat, a block leave of the permissions. -/
def restrained (tables : Tables Digest) (conversation : Conversation) (user : Uuid)
    (granted : List Permission) : List Permission :=
  let granted := if conversation.isArchived then without granted [.sendMessage, .editOwnMessage]
    else granted
  -- only who may still send is looked up among the blocks
  if conversation.kind = .direct ∧ granted.contains .sendMessage ∧
      (directCounterpart tables conversation.id user).any (isBlocked tables user) then
    without granted [.sendMessage, .editOwnMessage, .pinMessage]
  else granted

def resolveAccess (tables : Tables Digest) (user : User Digest) (now : Time)
    (conversationId : Uuid) : Except AppError (Access Digest) :=
  if !user.isUsable then .error (.accountUnavailable "account_unavailable")
  else match findConversation tables conversationId with
    | none => .error (.notVisible "not_found")
    | some conversation =>
        let membership := findMember tables conversation.id user.id
        match standing conversation membership now with
        | .error error => .error error
        | .ok granted =>
            .ok ⟨user, conversation, membership,
              restrained tables conversation user.id granted ++ systemGrants user.systemRole⟩

def resolveMessageAccess (tables : Tables Digest) (user : User Digest) (now : Time)
    (messageId : Uuid) : Except AppError (Message × Access Digest) :=
  match tables.messages.find? fun row => row.id == messageId with
  | none => .error (.notVisible "not_found")
  | some message => do
      let access ← resolveAccess tables user now message.conversationId
      access.require .readMessages
      return (message, access)

def assertCanDirectMessage (tables : Tables Digest) (sender : User Digest) (recipient : Uuid) :
    Except AppError Unit :=
  -- the same error whoever blocked: the sender learns nothing
  if isBlocked tables sender.id recipient then .error (.notVisible "not_found") else .ok ()

def requireSystemPermission (user : User Digest) (permission : Permission) :
    Except AppError Unit :=
  if (systemGrants user.systemRole).contains permission then .ok ()
  else .error (.permissionDenied "permission_denied")

/-- `current_principal` once the token is decoded: its `sub` names the user. -/
def currentPrincipal (tables : Tables Digest) (subject : Uuid) : Except AppError (User Digest) :=
  match tables.users.find? fun row => row.id == subject with
  | none => .error (.notAuthenticated "not_authenticated")
  | some user =>
      if user.deletedAt.isSome then .error (.notAuthenticated "not_authenticated")
      else if user.accountState = .suspended ∨ user.accountState = .deleted then
        .error (.accountUnavailable "account_unavailable")
      else .ok user

end Resolution

end RunnerupChat.Authz
