import RunnerupChat.Conversations

/-!
Rows that break no constraint: what has to hold of a new conversation, of a
new member and of a link that is used once more for the commit to succeed.
-/

namespace RunnerupChat.Conversations

open Accounts Authz UniqueKeys

section Rows
variable {Digest : Type} {tables : Tables Digest}

theorem users_only_schema (users : List (User Digest)) (distinct : (users.map User.id).Nodup) :
    Schema ({ users := users } : Tables Digest) where
  users := distinct
  conversations := List.nodup_nil
  slugs := List.nodup_nil
  conversationsAllowed := by simp
  creators := by simp
  directKeys := List.nodup_nil
  pairs := List.nodup_nil
  orderedPair := by simp
  directKeysRefer := by simp
  members := List.nodup_nil
  membersRefer := by simp
  oneOwner := List.nodup_nil
  blocks := List.nodup_nil
  noSelfBlock := by simp
  blocksRefer := by simp
  invites := List.nodup_nil
  invitesRefer := by simp
  usesWithinLimit := by simp
  usesFit := by simp
  requests := List.nodup_nil
  requestsRefer := by simp
  messages := List.nodup_nil
  numbers := List.nodup_nil
  sends := List.nodup_nil
  messagesRefer := by simp
  attachments := List.nodup_nil
  attachmentsRefer := by simp
  events := List.nodup_nil
  eventsRefer := by simp

theorem joining_role_lower (kind : ConversationKind) : joiningRole kind ≠ .owner := by
  cases kind <;> decide

/-- A new member row that is no owner's breaks no constraint. -/
theorem member_row_schema {row : ConversationMember} (schema : Schema tables)
    (fresh : row.key ∉ tables.members.map ConversationMember.key)
    (refers : row.conversationId ∈ tables.conversationIds ∧ row.userId ∈ tables.userIds ∧
      ∀ id ∈ row.invitedBy, id ∈ tables.userIds)
    (lower : row.role ≠ .owner) : Schema (addMemberRow tables row) := by
  have unowned : row.isOwner = false := by simp [ConversationMember.isOwner, lower]
  exact {
    schema with
    members := by
      simp only [addMemberRow, List.map_append, List.map_cons, List.map_nil]
      exact List.nodup_append.mpr ⟨schema.members, List.nodup_singleton _, fun key member other
        alone same => fresh (List.mem_singleton.mp alone ▸ same ▸ member)⟩
    membersRefer := by
      intro found member
      rcases List.mem_append.mp member with before | added
      · exact schema.membersRefer found before
      · rw [List.mem_singleton.mp added]
        exact refers
    oneOwner := by
      simp only [addMemberRow, List.filter_append, List.filter_cons, unowned, List.filter_nil,
        Bool.false_eq_true, if_false, List.append_nil]
      exact schema.oneOwner }

theorem audited_schema (schema : Schema tables) (entry : OtpLogin.AuditLog) :
    Schema (recordAudit tables entry) :=
  { schema with }

/-- A new conversation with its first members. -/
structure Opens (tables : Tables Digest) (opened : Conversation) (rows : List ConversationMember) :
    Prop where
  fresh : opened.id ∉ tables.conversationIds
  slug : ∀ slug, foldedSlug opened = some slug → slug ∉ tables.conversations.filterMap foldedSlug
  allowed : opened.Allowed
  creator : ∀ id ∈ opened.createdBy, id ∈ tables.userIds
  theirs : ∀ row ∈ rows, row.conversationId = opened.id
  known : ∀ row ∈ rows, row.userId ∈ tables.userIds ∧ ∀ id ∈ row.invitedBy, id ∈ tables.userIds
  distinct : (rows.map ConversationMember.userId).Nodup
  oneOwner : (rows.filter ConversationMember.isOwner).length ≤ 1

/-- An id that a constraint let in was not there before. -/
theorem opened_fresh {before after : Tables Digest} {opened : Conversation} (schema : Schema after)
    (conversations : after.conversations = before.conversations ++ [opened]) :
    opened.id ∉ before.conversationIds := by
  have distinct := schema.conversations
  unfold Tables.conversationIds at distinct
  rw [conversations, List.map_append, List.nodup_append] at distinct
  exact fun member => distinct.2.2 opened.id member opened.id (by simp) rfl

theorem nodup_appended {Key : Type} {old new : List Key} (first : old.Nodup) (second : new.Nodup)
    (apart : ∀ key ∈ new, key ∉ old) : (old ++ new).Nodup :=
  List.nodup_append.mpr ⟨first, second, fun _ one _ other same => apart _ other (same ▸ one)⟩

theorem nodup_short {Key : Type} {keys : List Key} (short : keys.length ≤ 1) : keys.Nodup := by
  match keys, short with
  | [], _ => exact List.nodup_nil
  | [key], _ => exact List.nodup_singleton key

section Opening
variable {opened : Conversation} {rows : List ConversationMember}

theorem opened_ids : (withOpened tables opened rows).conversationIds =
    tables.conversationIds ++ [opened.id] := by
  simp [Tables.conversationIds, withOpened]

theorem opened_wider {id : Uuid} (member : id ∈ tables.conversationIds) :
    id ∈ (withOpened tables opened rows).conversationIds := by
  rw [opened_ids]
  exact List.mem_append_left _ member

theorem opened_conversations_schema (schema : Schema tables) (opens : Opens tables opened rows) :
    ConversationSchema (withOpened tables opened rows) where
  users := schema.users
  conversations := by
    rw [opened_ids]
    exact nodup_appended schema.conversations (List.nodup_singleton _)
      fun id alone => List.mem_singleton.mp alone ▸ opens.fresh
  slugs := by
    simp only [withOpened, List.filterMap_append]
    apply nodup_appended schema.slugs
    · cases slug : foldedSlug opened <;> simp [slug]
    · intro slug alone
      obtain ⟨_, rfl, named⟩ : ∃ row, row = opened ∧ foldedSlug row = some slug := by
        simpa using alone
      exact opens.slug slug named
  conversationsAllowed := by
    intro row member
    rcases List.mem_append.mp member with old | new
    · exact schema.conversationsAllowed row old
    · exact List.mem_singleton.mp new ▸ opens.allowed
  creators := by
    intro row member
    rcases List.mem_append.mp member with old | new
    · exact schema.creators row old
    · exact List.mem_singleton.mp new ▸ opens.creator
  directKeys := schema.directKeys
  pairs := schema.pairs
  orderedPair := schema.orderedPair
  directKeysRefer := fun row member =>
    ⟨opened_wider (schema.directKeysRefer row member).1, (schema.directKeysRefer row member).2⟩

theorem old_elsewhere (schema : Schema tables) (opens : Opens tables opened rows)
    {row : ConversationMember} (listed : row ∈ tables.members) : row.conversationId ≠ opened.id :=
  fun here => opens.fresh (here ▸ (schema.membersRefer row listed).1)

theorem opened_keys_distinct (opens : Opens tables opened rows) :
    (rows.map ConversationMember.key).Nodup := by
  have keys : rows.map ConversationMember.key =
      (rows.map ConversationMember.userId).map fun person => (opened.id, person) := by
    rw [List.map_map]
    apply List.map_congr_left
    intro row member
    simp only [ConversationMember.key, Function.comp, opens.theirs row member]
  rw [keys]
  exact opens.distinct.map fun one other same => (Prod.mk.inj same).2

theorem opened_members_schema (schema : Schema tables) (opens : Opens tables opened rows) :
    MemberSchema (withOpened tables opened rows) where
  members := by
    simp only [withOpened, List.map_append]
    apply nodup_appended schema.members (opened_keys_distinct opens)
    intro key member old
    obtain ⟨row, new, rfl⟩ := List.mem_map.mp member
    obtain ⟨before, listed, same⟩ := List.mem_map.mp old
    exact old_elsewhere schema opens listed ((Prod.mk.inj same).1.trans (opens.theirs row new))
  membersRefer := by
    intro row member
    rcases List.mem_append.mp member with old | new
    · exact ⟨opened_wider (schema.membersRefer row old).1, (schema.membersRefer row old).2⟩
    · refine ⟨?_, opens.known row new⟩
      rw [opened_ids, opens.theirs row new]
      exact List.mem_append_right _ (List.mem_singleton_self _)
  oneOwner := by
    simp only [withOpened, List.filter_append, List.map_append]
    apply nodup_appended schema.oneOwner
    · exact nodup_short (by rw [List.length_map]; exact opens.oneOwner)
    · intro place member old
      obtain ⟨row, new, rfl⟩ := List.mem_map.mp member
      obtain ⟨before, listed, same⟩ := List.mem_map.mp old
      exact old_elsewhere schema opens (List.mem_filter.mp listed).1
        (same.trans (opens.theirs row (List.mem_filter.mp new).1))
  blocks := schema.blocks
  noSelfBlock := schema.noSelfBlock
  blocksRefer := schema.blocksRefer
  invites := schema.invites
  invitesRefer := fun row member =>
    ⟨opened_wider (schema.invitesRefer row member).1, (schema.invitesRefer row member).2⟩
  usesWithinLimit := schema.usesWithinLimit
  usesFit := schema.usesFit
  requests := schema.requests
  requestsRefer := fun row member =>
    ⟨opened_wider (schema.requestsRefer row member).1, (schema.requestsRefer row member).2⟩

theorem opened_schema (schema : Schema tables) (opens : Opens tables opened rows) :
    Schema (withOpened tables opened rows) where
  toConversationSchema := opened_conversations_schema schema opens
  toMemberSchema := opened_members_schema schema opens
  toMessageSchema :=
    { schema.toMessageSchema with
      messagesRefer := fun row member =>
        ⟨opened_wider (schema.messagesRefer row member).1, (schema.messagesRefer row member).2⟩
      attachmentsRefer := fun row member =>
        ⟨(schema.attachmentsRefer row member).1, fun id place =>
          opened_wider ((schema.attachmentsRefer row member).2 id place)⟩
      eventsRefer := fun row member => opened_wider (schema.eventsRefer row member) }

end Opening

end Rows

section Links
variable {Digest : Type} [DecidableEq Digest] {sha256 : String → Digest} {tables : Tables Digest}
  {person : Uuid} {token : String} {now : Time} {invite : InviteLink Digest}
  {conversation : Conversation}

/-- What a token that opens a link has passed. -/
theorem invite_opened
    (opened : findInvite sha256 tables person token now = some (invite, conversation)) :
    invite ∈ tables.invites ∧ invite.tokenHash = sha256 token ∧ isSpent invite now = false ∧
      findConversation tables invite.conversationId = some conversation ∧
      ∀ row, findMember tables conversation.id person = some row → row.state ≠ .banned := by
  unfold findInvite at opened
  obtain ⟨link, found, onward⟩ := Option.bind_eq_some_iff.mp opened
  obtain ⟨listed, unspent⟩ := Option.filter_eq_some_iff.mp found
  split at onward
  · cases onward
  · rename_i unbanned
    obtain ⟨place, live, same⟩ := Option.bind_eq_some_iff.mp onward
    cases same
    obtain ⟨_, named, _⟩ := find_conversation_some live
    refine ⟨List.mem_of_find?_eq_some listed, by simpa using List.find?_some listed,
      by simpa using unspent, live, ?_⟩
    intro row held banned
    rw [named] at held
    simp [held, banned] at unbanned

/-- A link that is not spent has room for one more use, and so has its counter
unless it is at the end of its column. -/
theorem redeemed_schema (schema : Schema tables) (listed : invite ∈ tables.invites)
    (unspent : isSpent invite now = false) (countable : invite.useCount < integerMax) :
    Schema (redeemed tables invite) := by
  have hashes : (redeemed tables invite).invites.map InviteLink.tokenHash =
      tables.invites.map InviteLink.tokenHash := by
    simp only [redeemed, List.map_map]
    apply List.map_congr_left
    intro row _
    simp only [Function.comp]
    split <;> rfl
  exact {
    schema with
    invites := hashes ▸ schema.invites
    invitesRefer := by
      intro row member
      obtain ⟨old, before, rfl⟩ := List.mem_map.mp member
      have refers := schema.invitesRefer old before
      split <;> exact refers
    usesWithinLimit := by
      intro row member limit bounded
      obtain ⟨old, before, rfl⟩ := List.mem_map.mp member
      by_cases same : old.tokenHash = invite.tokenHash
      · obtain rfl := same_row InviteLink.tokenHash schema.invites before listed same
        simp only [if_pos] at bounded ⊢
        have within := schema.usesWithinLimit old before limit bounded
        simp only [isSpent, Bool.or_eq_false_iff] at unspent
        have below := unspent.2
        rw [Option.mem_def.mp bounded] at below
        simp only [Option.any_some, decide_eq_false_iff_not] at below
        omega
      · simp only [if_neg same] at bounded ⊢
        exact schema.usesWithinLimit old before limit bounded
    usesFit := by
      intro row member
      obtain ⟨old, before, rfl⟩ := List.mem_map.mp member
      have fits := schema.usesFit old before
      by_cases same : old.tokenHash = invite.tokenHash
      · obtain rfl := same_row InviteLink.tokenHash schema.invites before listed same
        simp only [if_pos]
        exact ⟨countable, fits.2⟩
      · simp only [if_neg same]
        exact fits }

/-- Whatever else a use wrote, it counted one more. -/
theorem use_counted {after : Tables Digest} (schema : Schema after)
    (counted : after.invites = (redeemed tables invite).invites)
    (listed : invite ∈ tables.invites) : invite.useCount < integerMax := by
  have used : { invite with useCount := invite.useCount + 1 } ∈ after.invites := by
    rw [counted]
    exact List.mem_map.mpr ⟨invite, listed, if_pos rfl⟩
  exact (schema.usesFit _ used).1

omit [DecidableEq Digest] in
/-- A new link to a conversation. -/
theorem invited_schema (schema : Schema tables)
    (fresh : invite.tokenHash ∉ tables.invites.map InviteLink.tokenHash)
    (place : invite.conversationId ∈ tables.conversationIds)
    (creator : ∀ id ∈ invite.createdBy, id ∈ tables.userIds)
    (uses : ∀ limit ∈ invite.maxUses, 0 < limit ∧ invite.useCount ≤ limit)
    (fits : invite.useCount ≤ integerMax ∧ ∀ limit ∈ invite.maxUses, limit ≤ integerMax) :
    Schema (withInvite tables invite) :=
  { schema with
    invites := by
      rw [withInvite, List.map_append]
      exact nodup_appended schema.invites (List.nodup_singleton _)
        fun hash alone => List.mem_singleton.mp alone ▸ fresh
    invitesRefer := by
      intro row member
      rcases List.mem_append.mp member with old | new
      · exact schema.invitesRefer row old
      · rw [List.mem_singleton.mp new]
        exact ⟨place, creator⟩
    usesWithinLimit := by
      intro row member
      rcases List.mem_append.mp member with old | new
      · exact schema.usesWithinLimit row old
      · exact List.mem_singleton.mp new ▸ uses
    usesFit := by
      intro row member
      rcases List.mem_append.mp member with old | new
      · exact schema.usesFit row old
      · exact List.mem_singleton.mp new ▸ fits }

end Links

end RunnerupChat.Conversations
