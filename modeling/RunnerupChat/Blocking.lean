import RunnerupChat.Conversations

/-!
Blocks between the two parties of a direct chat. `resolve_access` looks at the
blocks only while sending is still granted, so a party whom a policy or the
archive already denied sending keeps whatever else the role granted.
-/

namespace RunnerupChat.Authz

open Accounts UniqueKeys
open MessageStore (MemberState)

section Grants
variable {conversation : Conversation} {now : Time}

theorem send_role_iff (role : MemberRole) :
    (.sendMessage ∈ roleGrants role ↔ 1 ≤ role.rank) ∧
      (.editOwnMessage ∈ roleGrants role ↔ 1 ≤ role.rank) ∧
      (.pinMessage ∈ roleGrants role ↔ 2 ≤ role.rank) := by
  cases role <;> decide

theorem member_sends_iff (row : ConversationMember) :
    .sendMessage ∈ memberGrants conversation row now ↔
      1 ≤ row.role.rank ∧ row.isSilenced now = false ∧
        conversation.sendPolicy.rank ≤ row.role.rank := by
  rw [mem_memberGrants, (send_role_iff row.role).1]
  simp [policyForPermission]

theorem member_edits_iff (row : ConversationMember) :
    .editOwnMessage ∈ memberGrants conversation row now ↔
      1 ≤ row.role.rank ∧ row.isSilenced now = false := by
  rw [mem_memberGrants, (send_role_iff row.role).2.1]
  simp [policyForPermission]

theorem member_pins_iff (row : ConversationMember) :
    .pinMessage ∈ memberGrants conversation row now ↔
      2 ≤ row.role.rank ∧ row.isSilenced now = false ∧
        conversation.pinPolicy.rank ≤ row.role.rank := by
  rw [mem_memberGrants, (send_role_iff row.role).2.2]
  simp [policyForPermission]

end Grants

section Restraint
variable {Digest : Type} {tables : Tables Digest} {conversation : Conversation} {person : Uuid}

def writePermissions : List Permission := [.sendMessage, .editOwnMessage, .pinMessage]

theorem writes_no_platform : ∀ permission ∈ writePermissions,
    permission ∉ platformPermissions := by decide

/-- What archiving leaves. -/
def archiveLeaves (conversation : Conversation) (granted : List Permission) : List Permission :=
  if conversation.isArchived then without granted [.sendMessage, .editOwnMessage] else granted

/-- The user and the other party of a direct chat are blocked. -/
def BlockedHere (tables : Tables Digest) (conversation : Conversation) (person : Uuid) : Prop :=
  conversation.kind = .direct ∧
    (directCounterpart tables conversation.id person).any (isBlocked tables person) = true

theorem restrained_unblocked (granted : List Permission)
    (clear : ¬BlockedHere tables conversation person) :
    restrained tables conversation person granted = archiveLeaves conversation granted := by
  unfold restrained archiveLeaves
  apply if_neg
  rintro ⟨direct, _, blocked⟩
  exact clear ⟨direct, blocked⟩

/-- Under a block a write survives exactly when sending was gone before. -/
theorem restrained_blocked (granted : List Permission)
    (blocked : BlockedHere tables conversation person) {permission : Permission}
    (write : permission ∈ writePermissions) :
    permission ∈ restrained tables conversation person granted ↔
      permission ∈ archiveLeaves conversation granted ∧
        .sendMessage ∉ archiveLeaves conversation granted := by
  have whole : restrained tables conversation person granted =
      if (archiveLeaves conversation granted).contains .sendMessage then
        without (archiveLeaves conversation granted) [.sendMessage, .editOwnMessage, .pinMessage]
      else archiveLeaves conversation granted := by
    unfold restrained archiveLeaves
    simp only [blocked.1, blocked.2, true_and, and_true]
  rw [whole]
  by_cases sends : .sendMessage ∈ archiveLeaves conversation granted
  · simp only [List.contains_iff_mem, sends, if_true, mem_without, not_true, and_false, iff_false,
      not_and, not_not]
    exact fun _ => write
  · simp [sends]

theorem mem_archiveLeaves (granted : List Permission) (permission : Permission) :
    permission ∈ archiveLeaves conversation granted ↔ permission ∈ granted ∧
      (conversation.isArchived = true → permission ∉ [Permission.sendMessage, .editOwnMessage]) := by
  unfold archiveLeaves
  cases archived : conversation.isArchived <;> simp

end Restraint

section Parties
variable {Digest : Type}

/-- A write of the user in the conversation that `resolve_access` grants. -/
def Writes (tables : Tables Digest) (user : User Digest) (now : Time) (id : Uuid) : Prop :=
  ∃ access, resolveAccess tables user now id = .ok access ∧
    ∃ permission ∈ writePermissions, access.can permission = true

/-- A current, unsilenced party that cannot send for another reason than a
block: the archive or the policy on sending denies it, and the role still
grants edits or pins. -/
def Overlooked (tables : Tables Digest) (conversation : Conversation) (user : User Digest)
    (now : Time) : Prop :=
  user.isUsable = true ∧ conversation.deletedAt = none ∧ ∃ row ∈ tables.members,
    row.key = (conversation.id, user.id) ∧ row.leftAt = none ∧ row.state ≠ .banned ∧
    row.isSilenced now = false ∧
    (1 ≤ row.role.rank ∧ conversation.isArchived = false ∧
        row.role.rank < conversation.sendPolicy.rank ∨
      2 ≤ row.role.rank ∧ conversation.pinPolicy.rank ≤ row.role.rank ∧
        (conversation.isArchived = true ∨ row.role.rank < conversation.sendPolicy.rank))

/-- The writes of a member that a block leaves, when the role is what grants them. -/
theorem left_writes_iff (conversation : Conversation) (row : ConversationMember) (now : Time) :
    (∃ permission ∈ writePermissions,
        permission ∈ archiveLeaves conversation (memberGrants conversation row now) ∧
          .sendMessage ∉ archiveLeaves conversation (memberGrants conversation row now)) ↔
      row.isSilenced now = false ∧
        (1 ≤ row.role.rank ∧ conversation.isArchived = false ∧
            row.role.rank < conversation.sendPolicy.rank ∨
          2 ≤ row.role.rank ∧ conversation.pinPolicy.rank ≤ row.role.rank ∧
            (conversation.isArchived = true ∨ row.role.rank < conversation.sendPolicy.rank)) := by
  simp only [writePermissions, List.mem_cons, List.not_mem_nil, or_false, exists_eq_or_imp,
    exists_eq_left, mem_archiveLeaves, member_sends_iff, member_edits_iff, member_pins_iff]
  cases row.isSilenced now with
  | true => simp
  | false =>
      cases conversation.isArchived with
      | true => simp
      | false =>
          simp
          omega

variable {database : Database Digest} {conversation : Conversation} {user : User Digest}
  {now : Time}

theorem direct_is_private (listed : conversation ∈ database.conversations)
    (direct : conversation.kind = .direct) : conversation.visibility ≠ .isPublic := by
  rw [((database.schema.conversationsAllowed conversation listed).directChatsArePrivate direct).1]
  decide

/-- The answers of a direct chat are for its current, unbanned members. -/
theorem direct_standing_iff (listed : conversation ∈ database.conversations)
    (direct : conversation.kind = .direct) (now : Time) (granted : List Permission) :
    standing conversation (findMember database.toTables conversation.id user.id) now = .ok granted ↔
      ∃ row ∈ database.members, row.key = (conversation.id, user.id) ∧ row.leftAt = none ∧
        row.state ≠ .banned ∧ granted = memberGrants conversation row now := by
  constructor
  · intro answered
    rcases standing_granted answered with ⟨row, current, unbanned, rfl⟩ | ⟨isPublic, _⟩
    · obtain ⟨member, named⟩ := find_member_some current.1
      exact ⟨row, member, named, current.2, unbanned, rfl⟩
    · exact absurd isPublic (direct_is_private listed direct)
  · rintro ⟨row, member, named, here, unbanned, rfl⟩
    have found := find_member_of_mem database.schema.members member
    obtain ⟨place, person⟩ := Prod.mk.inj named
    rw [place, person] at found
    rw [standing_member ⟨found, here⟩, if_neg unbanned]

theorem blocked_writes_iff (listed : conversation ∈ database.conversations)
    (blocked : BlockedHere database.toTables conversation user.id) :
    Writes database.toTables user now conversation.id ↔
      Overlooked database.toTables conversation user now := by
  have apart : ∀ permission ∈ writePermissions, permission ∉ systemGrants user.systemRole :=
    fun permission write found =>
      writes_no_platform permission write (system_grants_platform _ found)
  have granted_iff : ∀ granted permission, permission ∈ writePermissions →
      (permission ∈ restrained database.toTables conversation user.id granted ++
          systemGrants user.systemRole ↔
        permission ∈ archiveLeaves conversation granted ∧
          .sendMessage ∉ archiveLeaves conversation granted) := by
    intro granted permission write
    rw [List.mem_append, restrained_blocked granted blocked write]
    exact or_iff_left (apart permission write)
  constructor
  · rintro ⟨access, resolved, permission, write, can⟩
    obtain ⟨usable, there, granted, found, answered, rfl⟩ := (resolve_ok_iff access).mp resolved
    obtain ⟨member, same, live⟩ := find_conversation_some found
    obtain rfl : there = conversation :=
      same_row Conversation.id database.schema.conversations member listed same
    obtain ⟨row, member, named, here, unbanned, rfl⟩ :=
      (direct_standing_iff listed blocked.1 now granted).mp answered
    simp only [Access.can, List.contains_iff_mem] at can
    have left := (left_writes_iff there row now).mp
      ⟨permission, write, (granted_iff _ permission write).mp can⟩
    exact ⟨usable, live, row, member, named, here, unbanned, left⟩
  · rintro ⟨usable, live, row, member, named, here, unbanned, left⟩
    obtain ⟨permission, write, kept⟩ := (left_writes_iff conversation row now).mpr left
    have answered := (direct_standing_iff listed blocked.1 now _).mpr
      ⟨row, member, named, here, unbanned, rfl⟩
    refine ⟨_, (resolve_ok_iff _).mpr ⟨usable, conversation, _,
      find_conversation_of_mem database.schema.conversations listed live, answered, rfl⟩,
      permission, write, ?_⟩
    simp only [Access.can, List.contains_iff_mem]
    exact (granted_iff _ permission write).mpr kept

end Parties

section Blocks
variable {Digest : Type} {tables : Tables Digest} {user : User Digest} {now : Time}

def Tables.withBlocks (tables : Tables Digest) (blocks : List BlockedUser) : Tables Digest :=
  { tables with blocks := blocks }

/-- Every block row between two users is removed. -/
def Tables.unblocked (tables : Tables Digest) (first second : Uuid) : Tables Digest :=
  tables.withBlocks (tables.blocks.filter fun row =>
    row.pair != (first, second) && row.pair != (second, first))

theorem unblocked_clear (tables : Tables Digest) (first second : Uuid) :
    isBlocked (tables.unblocked first second) first second = false := by
  have kept : ∀ row ∈ (tables.unblocked first second).blocks,
      row.pair ≠ (first, second) ∧ row.pair ≠ (second, first) := by
    intro row member
    simpa [Tables.unblocked, Tables.withBlocks] using (List.mem_filter.mp member).2
  simp only [isBlocked, blockingState, Bool.or_eq_false_iff, List.any_eq_false, Bool.and_eq_true,
    beq_iff_eq]
  constructor
  · intro row member same
    exact (kept row member).1 (Prod.ext same.1 same.2)
  · intro row member same
    exact (kept row member).2 (Prod.ext same.1 same.2)

/-- Blocks reach an access only through what they restrain. -/
theorem resolve_same_restraint {blocks : List BlockedUser} {id : Uuid}
    (same : ∀ conversation granted, findConversation tables id = some conversation →
      restrained tables conversation user.id granted =
        restrained (tables.withBlocks blocks) conversation user.id granted) :
    resolveAccess tables user now id = resolveAccess (tables.withBlocks blocks) user now id := by
  have lookup : findConversation (tables.withBlocks blocks) id = findConversation tables id := rfl
  have membership : ∀ place, findMember (tables.withBlocks blocks) place user.id =
    findMember tables place user.id := fun _ => rfl
  unfold resolveAccess
  simp only [lookup, membership]
  cases found : findConversation tables id with
  | none => rfl
  | some conversation =>
      simp only
      cases standing conversation (findMember tables conversation.id user.id) now with
      | error error => rfl
      | ok granted => simp only [same conversation granted found]

/-- Outside direct chats no block is looked at. -/
theorem resolve_not_direct (blocks : List BlockedUser) {id : Uuid}
    (other : ∀ conversation, findConversation tables id = some conversation →
      conversation.kind ≠ .direct) :
    resolveAccess tables user now id = resolveAccess (tables.withBlocks blocks) user now id := by
  apply resolve_same_restraint
  intro conversation granted found
  rw [restrained_unblocked granted fun blocked => other conversation found blocked.1,
    restrained_unblocked granted fun blocked => other conversation found blocked.1]

theorem readable_whatever_blocks (blocks : List BlockedUser) (id : Uuid) :
    Readable tables user now id ↔ Readable (tables.withBlocks blocks) user now id := by
  rw [readable_iff, readable_iff]
  exact Iff.rfl

end Blocks

section Pair
variable {Digest : Type} {database : Database Digest} {key : DirectConversationKey}
  {conversation : Conversation} {one other : User Digest} {now : Time}

/-- Two users are the pair of a direct conversation. -/
structure Pair (database : Database Digest) (key : DirectConversationKey)
    (conversation : Conversation) (one other : User Digest) : Prop where
  keyed : key ∈ database.directKeys
  listed : conversation ∈ database.conversations
  named : conversation.id = key.conversationId
  direct : conversation.kind = .direct
  one : one.id = key.userLo
  other : other.id = key.userHi

theorem counterpart_of_pair (pair : Pair database key conversation one other) :
    directCounterpart database.toTables conversation.id one.id = some other.id ∧
      directCounterpart database.toTables conversation.id other.id = some one.id := by
  have found : database.directKeys.find? (fun row => row.conversationId == conversation.id) =
      some key := by
    rw [pair.named]
    exact find_member DirectConversationKey.conversationId database.schema.directKeys pair.keyed
  have ordered := database.schema.orderedPair key pair.keyed
  have apart : key.userLo ≠ key.userHi := Nat.ne_of_lt ordered
  simp only [directCounterpart, found, Option.map_some, pair.one, pair.other, if_true, apart,
    if_false, and_self]

/-- What a block between the pair of a direct chat has to mean. -/
structure BlockHolds [DecidableEq Digest] (database : Database Digest) (conversation : Conversation)
    (one other : User Digest) (now : Time) : Prop where
  silent : ¬Writes database.toTables one now conversation.id ∧
    ¬Writes database.toTables other now conversation.id
  reads : ∀ user, user = one ∨ user = other →
    (Readable database.toTables user now conversation.id ↔
      Readable (database.toTables.unblocked one.id other.id) user now conversation.id)
  refused : ∀ limiter id now,
    Conversations.getOrCreateDirect ⟨database, limiter⟩ one other.id id now =
        Conversations.refuse ⟨database, limiter⟩ (.notVisible "not_found") ∧
      Conversations.getOrCreateDirect ⟨database, limiter⟩ other one.id id now =
        Conversations.refuse ⟨database, limiter⟩ (.notVisible "not_found")
  restored : ∀ user, user = one ∨ user = other → ∀ blocks,
    isBlocked (database.toTables.withBlocks blocks) one.id other.id = false →
    resolveAccess (database.toTables.unblocked one.id other.id) user now conversation.id =
      resolveAccess (database.toTables.withBlocks blocks) user now conversation.id
  elsewhere : ∀ user id blocks, (∀ place, findConversation database.toTables id = some place →
      place.kind ≠ .direct) →
    resolveAccess database.toTables user now id =
      resolveAccess (database.toTables.withBlocks blocks) user now id

theorem blocked_here (pair : Pair database key conversation one other)
    (blocked : isBlocked database.toTables one.id other.id = true) :
    BlockedHere database.toTables conversation one.id ∧
      BlockedHere database.toTables conversation other.id := by
  obtain ⟨ofOne, ofOther⟩ := counterpart_of_pair pair
  refine ⟨⟨pair.direct, ?_⟩, ⟨pair.direct, ?_⟩⟩
  · rw [ofOne]
    exact blocked
  · rw [ofOther, Option.any_some, blocked_symm]
    exact blocked

theorem not_blocked_here (pair : Pair database key conversation one other)
    {blocks : List BlockedUser}
    (clear : isBlocked (database.toTables.withBlocks blocks) one.id other.id = false) :
    ¬BlockedHere (database.toTables.withBlocks blocks) conversation one.id ∧
      ¬BlockedHere (database.toTables.withBlocks blocks) conversation other.id := by
  obtain ⟨ofOne, ofOther⟩ := counterpart_of_pair pair
  have same : ∀ person, directCounterpart (database.toTables.withBlocks blocks) conversation.id
      person = directCounterpart database.toTables conversation.id person := fun _ => rfl
  constructor
  · rintro ⟨_, blocked⟩
    rw [same, ofOne, Option.any_some, clear] at blocked
    cases blocked
  · rintro ⟨_, blocked⟩
    rw [same, ofOther, Option.any_some, blocked_symm, clear] at blocked
    cases blocked

/-- With no block between the pair, whatever other blocks there are, a party
has the permissions of an unblocked chat. -/
theorem unblocked_restores (pair : Pair database key conversation one other)
    {left right : List BlockedUser}
    (noLeft : isBlocked (database.toTables.withBlocks left) one.id other.id = false)
    (noRight : isBlocked (database.toTables.withBlocks right) one.id other.id = false)
    {user : User Digest} (party : user = one ∨ user = other) :
    resolveAccess (database.toTables.withBlocks left) user now conversation.id =
      resolveAccess (database.toTables.withBlocks right) user now conversation.id := by
  have clear : ∀ {blocks}, isBlocked (database.toTables.withBlocks blocks) one.id other.id = false →
      ¬BlockedHere (database.toTables.withBlocks blocks) conversation user.id := by
    intro blocks none
    rcases party with rfl | rfl
    · exact (not_blocked_here pair none).1
    · exact (not_blocked_here pair none).2
  change _ = resolveAccess ((database.toTables.withBlocks left).withBlocks right) user now
    conversation.id
  apply resolve_same_restraint
  intro place granted found
  obtain ⟨member, same, _⟩ := find_conversation_some found
  obtain rfl : place = conversation :=
    same_row Conversation.id database.schema.conversations member pair.listed same
  rw [restrained_unblocked granted (clear noLeft)]
  exact (restrained_unblocked granted (clear noRight)).symm

theorem direct_refused [DecidableEq Digest] {limiter : RateLimit.Store} {id : Uuid}
    (apart : other.id ≠ one.id)
    (blocked : isBlocked database.toTables one.id other.id = true) :
    Conversations.getOrCreateDirect ⟨database, limiter⟩ one other.id id now =
      Conversations.refuse ⟨database, limiter⟩ (.notVisible "not_found") := by
  simp only [Conversations.getOrCreateDirect, assertCanDirectMessage, blocked, if_neg apart,
    if_true]
  split <;> rfl

theorem block_holds_iff [DecidableEq Digest] (database : Database Digest)
    {key : DirectConversationKey} {conversation : Conversation} {one other : User Digest}
    (now : Time) (pair : Pair database key conversation one other)
    (blocked : isBlocked database.toTables one.id other.id = true) :
    BlockHolds database conversation one other now ↔
      ¬Overlooked database.toTables conversation one now ∧
        ¬Overlooked database.toTables conversation other now := by
  obtain ⟨here, there⟩ := blocked_here pair blocked
  rw [← blocked_writes_iff pair.listed here, ← blocked_writes_iff pair.listed there]
  have apart : one.id ≠ other.id := by
    rw [pair.one, pair.other]
    exact Nat.ne_of_lt (database.schema.orderedPair key pair.keyed)
  constructor
  · exact fun holds => holds.silent
  · intro silent
    exact {
      silent := silent
      reads := fun user _ => readable_whatever_blocks _ _
      refused := fun limiter id now =>
        ⟨direct_refused apart.symm blocked, direct_refused apart (blocked_symm _ _ _ ▸ blocked)⟩
      restored := fun user party blocks clear =>
        unblocked_restores pair (unblocked_clear _ _ _) clear party
      elsewhere := fun user id blocks other => resolve_not_direct blocks other }

end Pair

def parties : List (User Nat) :=
  [{ id := 1, phoneHash := 1, phoneLast4 := "0001", phoneCountry := "IN", displayName := "Ann",
     systemRole := .user, accountState := .active, deletedAt := none },
    { id := 2, phoneHash := 2, phoneLast4 := "0002", phoneCountry := "IN", displayName := "Bob",
      systemRole := .user, accountState := .active, deletedAt := none }]

/-- A direct chat in which only admins may send; one party blocked the other. -/
def quietChat : Conversation :=
  { id := 5, kind := .direct, createdBy := some 1, sendPolicy := .admin, memberLimit := 2,
    updatedAt := 10 }

def quietPair : Database Nat where
  users := parties
  conversations := [quietChat]
  directKeys := [⟨5, 1, 2⟩]
  members := [{ conversationId := 5, userId := 1 }, { conversationId := 5, userId := 2 }]
  blocks := [⟨1, 2⟩]
  schema := by decide

theorem quiet_pair : Pair quietPair ⟨5, 1, 2⟩ quietChat parties[0] parties[1] :=
  ⟨by decide, by decide, rfl, rfl, rfl, rfl⟩

theorem quiet_block :
    BlockHolds quietPair quietChat parties[0] parties[1] 0 ↔
      ¬Overlooked quietPair.toTables quietChat parties[0] 0 ∧
        ¬Overlooked quietPair.toTables quietChat parties[1] 0 :=
  block_holds_iff quietPair 0 quiet_pair (by decide)

/-- The blocked party may still edit what was sent. -/
theorem edits_survive_block :
    ¬∀ (database : Database Nat) (key : DirectConversationKey) (conversation : Conversation)
      (one other : User Nat) (now : Time), one ∈ database.users → other ∈ database.users →
      Pair database key conversation one other →
      isBlocked database.toTables one.id other.id = true →
      BlockHolds database conversation one other now := by
  intro always
  have holds := always quietPair ⟨5, 1, 2⟩ quietChat parties[0] parties[1] 0 (by decide) (by decide)
    quiet_pair (by decide)
  have edits : Writes quietPair.toTables parties[0] 0 quietChat.id :=
    ⟨_, rfl, .editOwnMessage, by decide, by decide⟩
  exact holds.silent.1 edits

end RunnerupChat.Authz
