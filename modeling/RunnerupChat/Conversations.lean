import RunnerupChat.ContentReads

/-!
`services/conversations.py`: opening conversations, membership and invite
links. A call reads and writes one committed state of the database; when it
fails its transaction is rolled back and only the rate limiter has moved.
-/

namespace RunnerupChat.Conversations

open Accounts Authz RateLimit
open MessageStore (strip)
open OtpLogin (AuditLog Detail Failure)

/-- The database and the rate limiter, which no rollback reaches. -/
structure World (Digest : Type) where
  database : Database Digest
  limiter : Store

def kindText : ConversationKind → String
  | .direct => "DIRECT"
  | .group => "GROUP"
  | .channel => "CHANNEL"

def visibilityText : Visibility → String
  | .isPrivate => "PRIVATE"
  | .isPublic => "PUBLIC"

def roleText : MemberRole → String
  | .subscriber => "SUBSCRIBER"
  | .member => "MEMBER"
  | .moderator => "MODERATOR"
  | .admin => "ADMIN"
  | .owner => "OWNER"

section Rows
variable {Digest : Type}

/-- How many members a conversation has that did not leave. -/
def currentCount (tables : Tables Digest) (conversation : Uuid) : Nat :=
  tables.members.countP fun row => row.conversationId == conversation && row.leftAt.isNone

/-- The conversation of an ordered pair. -/
def findDirect (tables : Tables Digest) (lo hi : Uuid) : Option Conversation :=
  tables.conversations.find? fun conversation => tables.directKeys.any fun key =>
    key.conversationId == conversation.id && key.userLo == lo && key.userHi == hi

def updateMember (tables : Tables Digest) (key : Uuid × Uuid)
    (change : ConversationMember → ConversationMember) : Tables Digest :=
  { tables with members := tables.members.map fun row => if row.key = key then change row else row }

def addMemberRow (tables : Tables Digest) (row : ConversationMember) : Tables Digest :=
  { tables with members := tables.members ++ [row] }

def withOpened (tables : Tables Digest) (opened : Conversation) (rows : List ConversationMember) :
    Tables Digest :=
  { tables with
    conversations := tables.conversations ++ [opened]
    members := tables.members ++ rows }

def recordAudit (tables : Tables Digest) (entry : AuditLog) : Tables Digest :=
  { tables with auditLogs := tables.auditLogs ++ [entry] }

/-- A row of someone who joins again: the ban apart, nothing else is undone. -/
def rejoined (row : ConversationMember) : ConversationMember :=
  { row with leftAt := none, state := .active }

/-- The role a conversation gives to whoever is taken in without one. -/
def joiningRole (kind : ConversationKind) : MemberRole :=
  if kind = .channel then .subscriber else .member

/-- A link that was revoked, has expired or has no uses left. -/
def isSpent (invite : InviteLink Digest) (now : Time) : Bool :=
  invite.revokedAt.isSome || invite.expiresAt.any (fun moment => decide (moment ≤ now)) ||
    invite.maxUses.any fun most => decide (most ≤ invite.useCount)

end Rows

section Calls
variable {Digest : Type} [DecidableEq Digest]

abbrev Outcome (Digest Answer : Type) := Except Failure Answer × World Digest

def refuse {Answer : Type} (world : World Digest) (error : AppError) : Outcome Digest Answer :=
  (.error (.app error), world)

/-- `COMMIT`: rows that break a constraint are rejected as a whole. -/
def commit {Answer : Type} (world : World Digest) (tables : Tables Digest) (answer : Answer) :
    Outcome Digest Answer :=
  if schema : Schema tables then (.ok answer, { world with database := ⟨tables, schema⟩ })
  else (.error .database, world)

def newDirect (user id : Uuid) (now : Time) : Conversation :=
  { id := id, kind := .direct, createdBy := some user, memberLimit := 2, updatedAt := now }

/-- The rows of a new direct chat. -/
def withDirect (tables : Tables Digest) (user other id : Uuid) (now : Time) : Tables Digest :=
  { withOpened tables (newDirect user id now)
      [{ conversationId := id, userId := user, role := .member },
        { conversationId := id, userId := other, role := .member }] with
    directKeys := tables.directKeys ++ [⟨id, min user other, max user other⟩] }

def openDirect (world : World Digest) (user other id : Uuid) (now : Time) :
    Outcome Digest Conversation :=
  let tables := world.database.toTables
  -- the conversation row is flushed before the rest, where no error is caught
  if Schema { tables with conversations := tables.conversations ++ [newDirect user id now] } then
    match commit world (withDirect tables user other id now) (newDirect user id now) with
    | (.ok conversation, world) => (.ok conversation, world)
    | (.error failure, world) =>
        -- lost the race: the unique pair held, and the winner's row is taken
        match findDirect tables (min user other) (max user other) with
        | some winner => (.ok winner, world)
        | none => (.error failure, world)
  else (.error .database, world)

def getOrCreateDirect (world : World Digest) (user : User Digest) (otherId id : Uuid)
    (now : Time) : Outcome Digest Conversation :=
  let tables := world.database.toTables
  if otherId = user.id then refuse world (.validationFailed "cannot_message_self")
  else match (tables.users.find? fun row => row.id == otherId).filter User.isUsable with
    | none => refuse world (.notVisible "not_found")
    | some _ =>
        match assertCanDirectMessage tables user otherId with
        | .error error => refuse world error
        | .ok () =>
            match findDirect tables (min user.id otherId) (max user.id otherId) with
            | some existing => (.ok existing, world)
            | none => openDirect world user.id otherId id now

structure GroupRequest where
  title : String
  kind : ConversationKind := .group
  visibility : Visibility := .isPrivate
  slug : Option String := none
  memberIds : List Uuid := []

/-- The users a group starts with besides its creator: no one who blocked the
creator or was blocked. -/
def seeded (tables : Tables Digest) (user : User Digest) (memberIds : List Uuid) : List Uuid :=
  (memberIds.take 200).filter fun id => id != user.id && !isBlocked tables user.id id

def newGroup (user : User Digest) (request : GroupRequest) (id : Uuid) (now : Time) :
    Conversation :=
  { id := id, kind := request.kind, visibility := request.visibility, slug := request.slug
    title := some (strip request.title), createdBy := some user.id
    -- channels default to broadcast: only elevated roles may post
    sendPolicy := if request.kind = .channel then .admin else .member
    updatedAt := now }

def newGroupMembers (tables : Tables Digest) (user : User Digest) (request : GroupRequest)
    (id : Uuid) : List ConversationMember :=
  { conversationId := id, userId := user.id, role := .owner } ::
    (seeded tables user request.memberIds).map fun member =>
      { conversationId := id, userId := member, role := joiningRole request.kind,
        invitedBy := some user.id }

def createGroup (world : World Digest) (user : User Digest) (request : GroupRequest) (id : Uuid)
    (now : Time) (nowMs : Nat) : Outcome Digest Conversation :=
  match enforceLimit world.limiter .conversationCreateUser (toString user.id) nowMs with
  | (.error error, limiter) => refuse { world with limiter := limiter } error
  | (.ok (), limiter) =>
      let world := { world with limiter := limiter }
      let tables := world.database.toTables
      if strip request.title = "" ∨ 128 < request.title.length then
        refuse world (.validationFailed "invalid_title")
      else if request.visibility = .isPublic ∧ (request.slug.all fun slug => slug == "") then
        refuse world (.validationFailed "public_requires_slug")
      else
        let conversation := newGroup user request id now
        let written := withOpened tables conversation (newGroupMembers tables user request id)
        commit world (recordAudit written
          { action := "conversation.created", actorId := some user.id,
            actorRole := some user.systemRole, targetType := some "conversation",
            targetId := some (toString id),
            metadata := [("kind", .text (kindText request.kind)),
              ("visibility", .text (visibilityText request.visibility))] }) conversation

def addMember (world : World Digest) (access : Access Digest) (newMemberId : Uuid)
    (role : MemberRole) : Outcome Digest Unit :=
  let tables := world.database.toTables
  let conversation := access.conversation
  if !access.can .addMember then refuse world (.permissionDenied "permission_denied")
  else if role = .owner then refuse world (.permissionDenied "cannot_grant_owner")
  else if conversation.memberLimit ≤ currentCount tables conversation.id then
    refuse world (.validationFailed "member_limit_reached")
  else
    let entry : AuditLog :=
      { action := "conversation.member_added", actorId := some access.user.id,
        targetType := some "conversation", targetId := some (toString conversation.id),
        metadata := [("member", .text (toString newMemberId)), ("role", .text (roleText role))] }
    match findMember tables conversation.id newMemberId with
    | some existing =>
        -- taking a banned user in would silently undo a moderation decision
        if existing.state = .banned then refuse world (.permissionDenied "user_is_banned")
        else commit world (recordAudit (updateMember tables existing.key rejoined) entry) ()
    | none =>
        commit world (recordAudit (addMemberRow tables
          { conversationId := conversation.id, userId := newMemberId, role := role,
            invitedBy := some access.user.id }) entry) ()

def changeRole (world : World Digest) (access : Access Digest) (memberId : Uuid)
    (newRole : MemberRole) : Outcome Digest Unit :=
  let tables := world.database.toTables
  let conversation := access.conversation
  let actorRank := (access.role.map MemberRole.rank).getD 0
  if !access.can .manageRoles then refuse world (.permissionDenied "permission_denied")
  else if actorRank ≤ newRole.rank then
    refuse world (.permissionDenied "cannot_grant_equal_or_higher_role")
  else match findMember tables conversation.id memberId with
    | none => refuse world (.notVisible "not_found")
    | some membership =>
        if actorRank ≤ membership.role.rank then
          refuse world (.permissionDenied "cannot_modify_peer_or_superior")
        else commit world (recordAudit
          (updateMember tables membership.key fun row => { row with role := newRole })
          { action := "conversation.role_changed", actorId := some access.user.id,
            targetType := some "conversation", targetId := some (toString conversation.id),
            metadata := [("member", .text (toString memberId)),
              ("role", .text (roleText newRole))] }) ()

/-- The link of a new token; only the digest of the token is stored. -/
def newInvite (sha256 : String → Digest) (access : Access Digest)
    (maxUses expiresInSeconds : Option Nat) (requiresApproval : Bool) (token : String)
    (now : Time) : InviteLink Digest :=
  { conversationId := access.conversation.id, tokenHash := sha256 token,
    createdBy := some access.user.id, maxUses := maxUses, requiresApproval := requiresApproval
    expiresAt := (expiresInSeconds.filter fun seconds => seconds != 0).map fun seconds =>
      now + seconds * second }

def withInvite (tables : Tables Digest) (invite : InviteLink Digest) : Tables Digest :=
  { tables with invites := tables.invites ++ [invite] }

/-- The token is drawn by the call. -/
def createInvite (sha256 : String → Digest) (world : World Digest) (access : Access Digest)
    (maxUses expiresInSeconds : Option Nat) (requiresApproval : Bool) (token : String)
    (now : Time) (nowMs : Nat) : Outcome Digest String :=
  if !access.can .manageInvites then refuse world (.permissionDenied "permission_denied")
  else match enforceLimit world.limiter .inviteCreateUser (toString access.user.id) nowMs with
    | (.error error, limiter) => refuse { world with limiter := limiter } error
    | (.ok (), limiter) =>
        let world := { world with limiter := limiter }
        let invite := newInvite sha256 access maxUses expiresInSeconds requiresApproval token now
        commit world (recordAudit (withInvite world.database.toTables invite)
          { action := "invite.created", actorId := some access.user.id,
            targetType := some "conversation",
            targetId := some (toString access.conversation.id),
            -- a missing limit is stored as a null
            metadata := [("max_uses", .ofNumber maxUses)] }) token

/-- The link a token opens, and the live conversation behind it. -/
def findInvite (sha256 : String → Digest) (tables : Tables Digest) (user : Uuid) (token : String)
    (now : Time) : Option (InviteLink Digest × Conversation) := do
  let invite ← (tables.invites.find? fun row => row.tokenHash == sha256 token).filter fun invite =>
    !isSpent invite now
  if (findMember tables invite.conversationId user).any fun row => row.state == .banned then none
  let conversation ← findConversation tables invite.conversationId
  return (invite, conversation)

def redeemed (tables : Tables Digest) (invite : InviteLink Digest) : Tables Digest :=
  { tables with invites := tables.invites.map fun row =>
      if row.tokenHash = invite.tokenHash then { row with useCount := row.useCount + 1 } else row }

def redeemInvite (sha256 : String → Digest) (world : World Digest) (user : User Digest)
    (token : String) (now : Time) : Outcome Digest Conversation :=
  let tables := world.database.toTables
  -- one error for every failure: a guesser learns nothing from the difference
  match findInvite sha256 tables user.id token now with
  | none => refuse world (.notVisible "not_found")
  | some (invite, conversation) =>
      let joined := match findMember tables conversation.id user.id with
        | some membership => updateMember tables membership.key rejoined
        | none => addMemberRow tables
            { conversationId := conversation.id, userId := user.id,
              role := joiningRole conversation.kind }
      commit world (recordAudit (redeemed joined invite)
        { action := "invite.redeemed", actorId := some user.id,
          targetType := some "conversation", targetId := some (toString conversation.id) })
        conversation

end Calls

end RunnerupChat.Conversations
