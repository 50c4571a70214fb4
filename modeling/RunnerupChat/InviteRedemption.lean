import RunnerupChat.Promotion
import RunnerupChat.ReadScope

/-!
Redeeming a link. `redeem_invite` tests the link, the ban and the
conversation; it never reads `requires_approval`, and an old row comes back
with the role it had.
-/

namespace RunnerupChat.Conversations

open Accounts Authz RateLimit UniqueKeys

section Links
variable {Digest : Type} {sha256 : String → Digest} {tables after : Tables Digest}
  {person : Uuid} {token : String} {now : Time} {invite : InviteLink Digest}
  {conversation : Conversation}

/-- The token is that of a usable link to a live conversation, from which the
user is not banned. -/
structure LinkOpens (sha256 : String → Digest) (tables : Tables Digest) (person : Uuid)
    (token : String) (now : Time) (invite : InviteLink Digest) (conversation : Conversation) :
    Prop where
  listed : invite ∈ tables.invites
  hash : invite.tokenHash = sha256 token
  unrevoked : invite.revokedAt = none
  unexpired : ∀ moment ∈ invite.expiresAt, now < moment
  usesLeft : ∀ limit ∈ invite.maxUses, invite.useCount < limit
  place : conversation ∈ tables.conversations
  named : conversation.id = invite.conversationId
  live : conversation.deletedAt = none
  unbanned : ∀ row ∈ tables.members, row.key = (conversation.id, person) → row.state ≠ .banned

/-- A link with approval opens to those whose request was approved. -/
def Approved (tables : Tables Digest) (person : Uuid) (invite : InviteLink Digest)
    (conversation : Conversation) : Prop :=
  invite.requiresApproval = true → ∃ request ∈ tables.joinRequests,
    request.key = (conversation.id, person) ∧ request.state = .approved

/-- The rows of the members once the user is taken in. -/
def takenIn (tables : Tables Digest) (conversation : Conversation) (person : Uuid) :
    Tables Digest :=
  match findMember tables conversation.id person with
  | some membership => updateMember tables membership.key rejoined
  | none => addMemberRow tables
      { conversationId := conversation.id, userId := person,
        role := joiningRole conversation.kind }

theorem spent_iff (invite : InviteLink Digest) (now : Time) :
    isSpent invite now = false ↔ invite.revokedAt = none ∧
      (∀ moment ∈ invite.expiresAt, now < moment) ∧
      ∀ limit ∈ invite.maxUses, invite.useCount < limit := by
  unfold isSpent
  cases invite.revokedAt <;> cases invite.expiresAt <;> cases invite.maxUses <;> simp

theorem rejoined_keys (key : Uuid × Uuid) :
    (updateMember tables key rejoined).members.map ConversationMember.key =
      tables.members.map ConversationMember.key := by
  simp only [updateMember, List.map_map]
  apply List.map_congr_left
  intro other _
  simp only [Function.comp]
  split <;> rfl

/-- Who comes back and was no owner before is none now. -/
theorem rejoined_owners (schema : Schema tables) {row : ConversationMember}
    (listed : row ∈ tables.members) (ranked : row.role ≠ .owner ∨ row.leftAt = none) :
    ((updateMember tables row.key rejoined).members.filter
      ConversationMember.isOwner).map ConversationMember.conversationId =
        (tables.members.filter ConversationMember.isOwner).map
          ConversationMember.conversationId := by
  simp only [updateMember, List.filter_map, List.map_map]
  have kept : tables.members.filter (ConversationMember.isOwner ∘ fun other =>
      if other.key = row.key then rejoined other else other) =
        tables.members.filter ConversationMember.isOwner := by
    apply List.filter_congr
    intro other member
    simp only [Function.comp]
    split
    · next same =>
      obtain rfl := same_row ConversationMember.key schema.members member listed same
      rcases ranked with lower | current
      · simp [ConversationMember.isOwner, rejoined, lower]
      · simp [ConversationMember.isOwner, rejoined, current]
    · rfl
  rw [kept]
  apply List.map_congr_left
  intro other _
  simp only [Function.comp]
  split <;> rfl

theorem rejoined_schema (schema : Schema tables) {row : ConversationMember}
    (listed : row ∈ tables.members) (ranked : row.role ≠ .owner ∨ row.leftAt = none) :
    Schema (updateMember tables row.key rejoined) := by
  have owners := rejoined_owners schema listed ranked
  exact {
    schema with
    members := by
      rw [rejoined_keys row.key]
      exact schema.members
    membersRefer := by
      intro changed member
      obtain ⟨other, before, rfl⟩ := List.mem_map.mp member
      have refers := schema.membersRefer other before
      split <;> exact refers
    oneOwner := owners ▸ schema.oneOwner }

/-- Whoever is taken in breaks no constraint, unless he comes back as a second
owner. -/
theorem taken_in_schema (schema : Schema tables) (place : conversation ∈ tables.conversations)
    (known : person ∈ tables.userIds)
    (ranked : ∀ row, findMember tables conversation.id person = some row →
      row.role ≠ .owner ∨ row.leftAt = none) : Schema (takenIn tables conversation person) := by
  unfold takenIn
  cases found : findMember tables conversation.id person with
  | none =>
      exact member_row_schema schema (find_member_none found)
        ⟨List.mem_map_of_mem place, known, by simp⟩ (joining_role_lower _)
  | some row => exact rejoined_schema schema (find_member_some found).1 (ranked row found)

variable (tables person conversation) in
/-- The row of whoever was taken in: an old one keeps its role. -/
theorem taken_in_row (schema : Schema after)
    (members : after.members = (takenIn tables conversation person).members) :
    ∃ row, findMember after conversation.id person = some row ∧ row.leftAt = none ∧
      row.state = .active ∧ row.role =
        ((findMember tables conversation.id person).map ConversationMember.role).getD
          (joiningRole conversation.kind) := by
  unfold takenIn at members
  cases found : findMember tables conversation.id person with
  | none =>
      simp only [found] at members
      exact ⟨_, find_appended schema members, rfl, rfl, rfl⟩
  | some row =>
      simp only [found] at members
      exact ⟨_, find_updated schema found rejoined rfl members, rfl, rfl, rfl⟩

theorem links_equal (schema : Schema tables) {one other : InviteLink Digest}
    {left right : Conversation} (first : LinkOpens sha256 tables person token now one left)
    (second : LinkOpens sha256 tables person token now other right) :
    one = other ∧ left = right := by
  obtain rfl := same_row InviteLink.tokenHash schema.invites first.listed second.listed
    (first.hash.trans second.hash.symm)
  exact ⟨rfl, same_row Conversation.id schema.conversations first.place second.place
    (first.named.trans second.named.symm)⟩

variable [DecidableEq Digest]

theorem find_invite_iff (schema : Schema tables) :
    findInvite sha256 tables person token now = some (invite, conversation) ↔
      LinkOpens sha256 tables person token now invite conversation := by
  constructor
  · intro opened
    obtain ⟨listed, hash, unspent, live, unbanned⟩ := invite_opened opened
    obtain ⟨unrevoked, unexpired, usesLeft⟩ := (spent_iff invite now).mp unspent
    obtain ⟨place, named, present⟩ := find_conversation_some live
    refine ⟨listed, hash, unrevoked, unexpired, usesLeft, place, named, present, ?_⟩
    intro row member key
    have found := find_member_of_mem schema.members member
    obtain ⟨here, own⟩ := Prod.mk.inj key
    rw [here, own] at found
    exact unbanned row found
  · intro opens
    have link : tables.invites.find? (fun row => row.tokenHash == sha256 token) = some invite := by
      rw [← opens.hash]
      exact find_member InviteLink.tokenHash schema.invites opens.listed
    have unspent := (spent_iff invite now).mpr
      ⟨opens.unrevoked, opens.unexpired, opens.usesLeft⟩
    have live := find_conversation_of_mem schema.conversations opens.place opens.live
    rw [opens.named] at live
    have unbanned : ((findMember tables invite.conversationId person).any
        fun row => row.state == .banned) = false := by
      cases found : findMember tables invite.conversationId person with
      | none => rfl
      | some row =>
          obtain ⟨member, key⟩ := find_member_some found
          rw [← opens.named] at key
          simpa using opens.unbanned row member key
    unfold findInvite
    simp only [link, Option.filter_some, unspent, Bool.not_false, if_true, unbanned,
      Bool.false_eq_true, if_false, live, Option.bind_eq_bind, Option.bind_some]
    rfl

end Links

section Calls
variable {Digest : Type} [DecidableEq Digest] {sha256 : String → Digest}
  {world next : World Digest} {user : User Digest} {token : String} {now : Time}
  {invite : InviteLink Digest} {conversation : Conversation}

theorem redeem_refused
    (closed : ∀ invite conversation,
      ¬LinkOpens sha256 world.database.toTables user.id token now invite conversation) :
    redeemInvite sha256 world user token now = (.error (.app (.notVisible "not_found")), world) := by
  have missed : findInvite sha256 world.database.toTables user.id token now = none := by
    rw [Option.eq_none_iff_forall_ne_some]
    rintro ⟨invite, conversation⟩ found
    exact closed invite conversation ((find_invite_iff world.database.schema).mp found)
  simp only [redeemInvite, missed]
  rfl

theorem redeem_opened
    (opens : LinkOpens sha256 world.database.toTables user.id token now invite conversation) :
    ∃ entry, redeemInvite sha256 world user token now = commit world (recordAudit
      (redeemed (takenIn world.database.toTables conversation user.id) invite) entry)
        conversation := by
  simp only [redeemInvite, (find_invite_iff world.database.schema).mpr opens]
  exact ⟨_, rfl⟩

/-- What a call that succeeds has passed and done. -/
theorem redeem_ok
    (answered : redeemInvite sha256 world user token now = (.ok conversation, next)) :
    ∃ invite entry,
      LinkOpens sha256 world.database.toTables user.id token now invite conversation ∧
      invite.useCount < integerMax ∧ next.database.toTables = recordAudit
        (redeemed (takenIn world.database.toTables conversation user.id) invite) entry := by
  by_cases opened : ∃ invite conversation,
      LinkOpens sha256 world.database.toTables user.id token now invite conversation
  · obtain ⟨invite, place, opens⟩ := opened
    obtain ⟨entry, ran⟩ := redeem_opened opens
    rw [ran] at answered
    have same : place = conversation := by
      unfold commit at answered
      split at answered
      · cases answered
        rfl
      · cases answered
    subst same
    have written := commit_ok answered
    refine ⟨invite, entry, opens, ?_, written⟩
    refine use_counted next.database.schema ?_ opens.listed
    rw [written]
    unfold takenIn
    split <;> rfl
  · rw [redeem_refused fun invite place opens => opened ⟨invite, place, opens⟩] at answered
    cases answered

theorem redeem_commits (known : user ∈ world.database.users)
    (opens : LinkOpens sha256 world.database.toTables user.id token now invite conversation)
    (countable : invite.useCount < integerMax)
    (ranked : ∀ row, findMember world.database.toTables conversation.id user.id = some row →
      row.role ≠ .owner ∨ row.leftAt = none) :
    ∃ next, redeemInvite sha256 world user token now = (.ok conversation, next) := by
  obtain ⟨entry, ran⟩ := redeem_opened opens
  have joined := taken_in_schema world.database.schema opens.place (List.mem_map_of_mem known)
    ranked
  have listed : invite ∈
      (takenIn world.database.toTables conversation user.id).invites := by
    unfold takenIn
    split <;> exact opens.listed
  have unspent := (spent_iff invite now).mpr ⟨opens.unrevoked, opens.unexpired, opens.usesLeft⟩
  have schema := audited_schema (redeemed_schema joined listed unspent countable) entry
  rw [ran]
  unfold commit
  rw [dif_pos schema]
  exact ⟨_, rfl⟩

/-- The link takes the user in if it is usable and he is approved, with the role of
a newcomer unless he is a member already, and otherwise gives nothing away. -/
structure RedeemsRightly (sha256 : String → Digest) (world : World Digest) (user : User Digest)
    (token : String) (now : Time) : Prop where
  admits : ∀ invite conversation,
    LinkOpens sha256 world.database.toTables user.id token now invite conversation →
    Approved world.database.toTables user.id invite conversation →
    ∃ next row, redeemInvite sha256 world user token now = (.ok conversation, next) ∧
      findMember next.database.toTables conversation.id user.id = some row ∧
      row.leftAt = none ∧ row.state ≠ .banned ∧
      (¬Joined world.database.toTables user.id conversation.id →
        row.role = if conversation.kind = .channel then .subscriber else .member)
  refuses : (∀ invite conversation,
      ¬(LinkOpens sha256 world.database.toTables user.id token now invite conversation ∧
        Approved world.database.toTables user.id invite conversation)) →
    redeemInvite sha256 world user token now = (.error (.app (.notVisible "not_found")), world)

/-- Where the link opens, no approval is missing, the row of a former member has the
role of a newcomer, and the link can be counted once more. -/
def PlainNewcomer (sha256 : String → Digest) (tables : Tables Digest) (person : Uuid)
    (token : String) (now : Time) : Prop :=
  ∀ invite conversation, LinkOpens sha256 tables person token now invite conversation →
    Approved tables person invite conversation ∧ invite.useCount < integerMax ∧
      (¬Joined tables person conversation.id →
        ∀ row ∈ tables.members, row.key = (conversation.id, person) →
          row.role = if conversation.kind = .channel then .subscriber else .member)

/-- Without an approval the call does not answer as it should. -/
theorem unapproved_let_in
    (opens : LinkOpens sha256 world.database.toTables user.id token now invite conversation)
    (unapproved : ¬Approved world.database.toTables user.id invite conversation) :
    ¬RedeemsRightly sha256 world user token now := by
  intro right
  have refused := right.refuses fun other place both => by
    obtain ⟨rfl, rfl⟩ := links_equal world.database.schema opens both.1
    exact unapproved both.2
  obtain ⟨entry, ran⟩ := redeem_opened opens
  rw [ran] at refused
  unfold commit at refused
  split at refused <;> cases refused

/-- Links are redeemed rightly exactly where what the call never looks at makes
no difference. -/
theorem redeem_rightly_iff (sha256 : String → Digest) (world : World Digest) (user : User Digest)
    (token : String) (now : Time) (known : user ∈ world.database.users) :
    RedeemsRightly sha256 world user token now ↔
      PlainNewcomer sha256 world.database.toTables user.id token now := by
  have schema := world.database.schema
  constructor
  · intro right invite conversation opens
    have approved : Approved world.database.toTables user.id invite conversation := by
      by_contra unapproved
      exact unapproved_let_in opens unapproved right
    obtain ⟨next, row, answered, found, _, _, role⟩ := right.admits invite conversation opens approved
    obtain ⟨link, entry, same, countable, written⟩ := redeem_ok answered
    obtain ⟨rfl, _⟩ := links_equal schema opens same
    refine ⟨approved, countable, fun apart old member key => ?_⟩
    obtain ⟨taken, here, _, _, kept⟩ := taken_in_row world.database.toTables user.id
      conversation next.database.schema (by rw [written]; rfl)
    obtain rfl := Option.some.inj (found.symm.trans here)
    have before := find_member_of_mem schema.members member
    obtain ⟨place, own⟩ := Prod.mk.inj key
    rw [place, own] at before
    rw [before] at kept
    exact kept.symm.trans (role apart)
  · intro plain
    constructor
    · intro invite conversation opens _
      obtain ⟨_, countable, roles⟩ := plain invite conversation opens
      have ranked : ¬Joined world.database.toTables user.id conversation.id → ∀ row,
          findMember world.database.toTables conversation.id user.id = some row →
            row.role = joiningRole conversation.kind := by
        intro apart row found
        obtain ⟨member, key⟩ := find_member_some found
        exact roles apart row member key
      obtain ⟨next, answered⟩ := redeem_commits known opens countable fun row found => by
        by_cases joined : Joined world.database.toTables user.id conversation.id
        · obtain ⟨other, member, place, own, current, _⟩ := joined
          have same := find_member_of_mem schema.members member
          rw [place, own, found] at same
          exact Or.inr (Option.some.inj same ▸ current)
        · exact Or.inl (ranked joined row found ▸ joining_role_lower _)
      obtain ⟨link, entry, _, _, written⟩ := redeem_ok answered
      obtain ⟨row, found, current, active, role⟩ := taken_in_row world.database.toTables
        user.id conversation next.database.schema (by rw [written]; rfl)
      refine ⟨next, row, answered, found, current, by simp [active], fun apart => ?_⟩
      rw [role]
      cases before : findMember world.database.toTables conversation.id user.id with
      | none => rfl
      | some old => exact ranked apart old before
    · intro unmet
      apply redeem_refused
      intro invite conversation opens
      exact unmet invite conversation ⟨opens, (plain invite conversation opens).1⟩

end Calls

section Board

def boardLink (requiresApproval : Bool) : InviteLink Nat :=
  { conversationId := 5, tokenHash := 1, createdBy := some 1, maxUses := none,
    requiresApproval := requiresApproval, expiresAt := none }

/-- The board has a link. -/
def linkedBoard (requiresApproval : Bool) : World Nat :=
  ⟨⟨{ board with invites := [boardLink requiresApproval] }, by cases requiresApproval <;> decide⟩,
    emptyStore⟩

theorem board_link_opens (requiresApproval : Bool) :
    LinkOpens String.length (linkedBoard requiresApproval).database.toTables stranger.id "t" 0
      (boardLink requiresApproval) board.conversations[0] where
  listed := List.mem_singleton_self _
  hash := rfl
  unrevoked := rfl
  unexpired := by simp [boardLink]
  usesLeft := by simp [boardLink]
  place := List.mem_singleton_self _
  named := rfl
  live := rfl
  unbanned := by cases requiresApproval <;> decide

theorem plain_link_redeemed :
    RedeemsRightly String.length (linkedBoard false) stranger "t" 0 ↔
      PlainNewcomer String.length (linkedBoard false).database.toTables stranger.id "t" 0 :=
  redeem_rightly_iff String.length (linkedBoard false) stranger "t" 0 (by decide)

/-- A link with approval lets in a stranger who never asked. -/
theorem unasked_let_in :
    ¬∀ (world : World Nat) (user : User Nat) (token : String) (now : Time),
      user ∈ world.database.users →
      (∀ invite ∈ world.database.invites, invite.tokenHash = token.length →
        ¬Joined world.database.toTables user.id invite.conversationId) →
      RedeemsRightly String.length world user token now := by
  intro always
  refine unapproved_let_in (board_link_opens true) ?_ (always (linkedBoard true) stranger "t" 0
    (by decide) ?_)
  · intro approved
    obtain ⟨request, asked, _⟩ := approved rfl
    cases asked
  · rintro invite _ _ ⟨row, member, _, own, _⟩
    have known : ∀ row ∈ board.members, row.userId ≠ stranger.id := by decide
    exact known row member own

end Board

end RunnerupChat.Conversations
