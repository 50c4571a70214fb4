import RunnerupChat.Membership

/-!
`member_limit`. Opening a conversation and `add_member` keep to it; only a
redeemed link takes someone in without asking for room.
-/

namespace RunnerupChat.Conversations

open Accounts Authz RateLimit Runs UniqueKeys

section Counting
variable {Digest : Type} {before after : Tables Digest} {conversation : Uuid}

def WithinLimit (tables : Tables Digest) : Prop :=
  ∀ conversation ∈ tables.conversations,
    currentCount tables conversation.id ≤ conversation.memberLimit

/-- No membership was left; no call of these runs ever leaves one. -/
def AllCurrent (tables : Tables Digest) : Prop := ∀ row ∈ tables.members, row.leftAt = none

theorem count_added {rows : List ConversationMember}
    (same : after.members = before.members ++ rows) :
    currentCount after conversation = currentCount before conversation +
      rows.countP fun row => row.conversationId == conversation && row.leftAt.isNone := by
  unfold currentCount
  rw [same, List.countP_append]

theorem count_new (schema : Schema before) (fresh : conversation ∉ before.conversationIds) :
    currentCount before conversation = 0 := by
  unfold currentCount
  rw [List.countP_eq_zero]
  intro row member here
  simp only [Bool.and_eq_true, beq_iff_eq] at here
  exact fresh (here.1 ▸ (schema.membersRefer row member).1)

/-- A change of rows that moves no one and lets no one leave. -/
theorem count_updated (current : AllCurrent before) (key : Uuid × Uuid)
    (change : ConversationMember → ConversationMember)
    (place : ∀ row, (change row).conversationId = row.conversationId)
    (same : after.members = (updateMember before key change).members) :
    currentCount after conversation ≤ currentCount before conversation := by
  unfold currentCount
  rw [same]
  simp only [updateMember, List.countP_map]
  apply List.countP_mono_left
  intro row member here
  have stays := current row member
  simp only [Function.comp, Bool.and_eq_true, beq_iff_eq] at here
  simp only [stays, Option.isNone_none, Bool.and_true, beq_iff_eq]
  rw [← here.1]
  split
  · exact (place row).symm
  · rfl

/-- A conversation that is opened with few enough members. -/
theorem within_opened (schemaBefore : Schema before) (schemaAfter : Schema after)
    {opened : Conversation} {rows : List ConversationMember}
    (conversations : after.conversations = before.conversations ++ [opened])
    (members : after.members = before.members ++ rows)
    (theirs : ∀ row ∈ rows, row.conversationId = opened.id)
    (few : rows.length ≤ opened.memberLimit) (within : WithinLimit before) : WithinLimit after := by
  have fresh := opened_fresh schemaAfter conversations
  intro place member
  rw [conversations] at member
  rw [count_added members]
  rcases List.mem_append.mp member with old | new
  · have elsewhere : rows.countP (fun row => row.conversationId == place.id && row.leftAt.isNone) =
        0 := by
      rw [List.countP_eq_zero]
      intro row listed here
      simp only [Bool.and_eq_true, beq_iff_eq] at here
      rw [theirs row listed] at here
      exact fresh (here.1 ▸ List.mem_map_of_mem old)
    rw [elsewhere]
    exact within place old
  · rw [List.mem_singleton.mp new, count_new schemaBefore fresh, Nat.zero_add]
    exact le_trans List.countP_le_length few

/-- One more member where there was room. -/
theorem within_admitted (schema : Schema before) {opened : Conversation} {row : ConversationMember}
    (listed : opened ∈ before.conversations)
    (conversations : after.conversations = before.conversations)
    (members : after.members = before.members ++ [row]) (place : row.conversationId = opened.id)
    (room : currentCount before opened.id < opened.memberLimit) (within : WithinLimit before) :
    WithinLimit after := by
  intro other member
  rw [conversations] at member
  rw [count_added members, List.countP_singleton]
  split
  · rename_i here
    simp only [Bool.and_eq_true, beq_iff_eq] at here
    obtain rfl : opened = other :=
      same_row Conversation.id schema.conversations listed member (place.symm.trans here.1)
    omega
  · exact within other member

theorem within_fewer (conversations : after.conversations = before.conversations)
    (fewer : ∀ conversation, currentCount after conversation ≤ currentCount before conversation)
    (within : WithinLimit before) : WithinLimit after := by
  intro other member
  rw [conversations] at member
  exact le_trans (fewer other.id) (within other member)

theorem current_updated (current : AllCurrent before) (key : Uuid × Uuid)
    (change : ConversationMember → ConversationMember)
    (stays : ∀ row, row.leftAt = none → (change row).leftAt = none)
    (same : after.members = (updateMember before key change).members) : AllCurrent after := by
  intro row member
  rw [same] at member
  obtain ⟨old, listed, rfl⟩ := List.mem_map.mp member
  split
  · exact stays old (current old listed)
  · exact current old listed

theorem current_appended (current : AllCurrent before) {rows : List ConversationMember}
    (joined : ∀ row ∈ rows, row.leftAt = none) (same : after.members = before.members ++ rows) :
    AllCurrent after := by
  intro row member
  rw [same] at member
  exact (List.mem_append.mp member).elim (current row) (joined row)

theorem group_members_new {tables : Tables Digest} {user : User Digest} {request : GroupRequest}
    {id : Uuid} : ∀ row ∈ newGroupMembers tables user request id,
      row.conversationId = id ∧ row.leftAt = none := by
  intro row member
  rcases List.mem_cons.mp member with rfl | seed
  · exact ⟨rfl, rfl⟩
  · obtain ⟨_, _, rfl⟩ := List.mem_map.mp seed
    exact ⟨rfl, rfl⟩

theorem group_members_few (tables : Tables Digest) (user : User Digest) (request : GroupRequest)
    (id : Uuid) : (newGroupMembers tables user request id).length ≤ 201 := by
  have seeds : (seeded tables user request.memberIds).length ≤ 200 :=
    le_trans (List.length_filter_le _ _) (List.length_take_le _ _)
  simp only [newGroupMembers, List.length_cons, List.length_map]
  omega

end Counting

section Steps
variable {Digest : Type} [DecidableEq Digest] {sha256 : String → Digest}
  {before after : Tables Digest} {call : Call}

/-- A redeemed link takes someone new in only while there is room. -/
def RoomFor (sha256 : String → Digest) (tables : Tables Digest) : Call → Prop
  | .redeemInvite person token now => ∀ invite conversation, person ∈ tables.userIds →
      findInvite sha256 tables person token now = some (invite, conversation) →
      findMember tables conversation.id person = none → invite.useCount < integerMax →
      currentCount tables conversation.id < conversation.memberLimit
  | _ => True

theorem effect_current (effect : Effect sha256 before after call) (current : AllCurrent before) :
    AllCurrent after := by
  cases effect with
  | unchanged same => exact same ▸ current
  | direct apart same =>
      refine current_appended current (fun row member => ?_) (congrArg Tables.members same)
      rcases List.mem_cons.mp member with rfl | last
      · rfl
      · rw [List.mem_singleton.mp last]
  | group same =>
      exact current_appended current (fun row member => (group_members_new row member).2)
        (congrArg Tables.members same)
  | added live room absent lower same | joined opened absent same =>
      refine current_appended current (fun row member => ?_) (congrArg Tables.members same)
      rw [List.mem_singleton.mp member]
  | @addedBack user conversation newMember role now entry existing live room found unbanned same =>
      exact current_updated current existing.key rejoined (fun _ _ => rfl) (by rw [same]; rfl)
  | @ranked user conversation member newRole now entry existing found same =>
      exact current_updated current existing.key (fun row => { row with role := newRole })
        (fun _ here => here) (by rw [same]; rfl)
  | invited same =>
      rw [same]
      exact current
  | @joinedBack user token now invite conversation entry existing opened found same =>
      exact current_updated current existing.key rejoined (fun _ _ => rfl) (by rw [same]; rfl)

theorem effect_within (schemaBefore : Schema before) (schemaAfter : Schema after)
    (effect : Effect sha256 before after call) (current : AllCurrent before)
    (known : call.user ∈ before.userIds) (roomy : RoomFor sha256 before call)
    (within : WithinLimit before) : WithinLimit after := by
  cases effect with
  | unchanged same => exact same ▸ within
  | direct apart same =>
      subst same
      refine within_opened schemaBefore schemaAfter rfl rfl ?_ (le_refl 2) within
      simp [newDirect]
  | @group user request id now nowMs entry same =>
      subst same
      refine within_opened schemaBefore schemaAfter rfl rfl
        (fun row member => (group_members_new row member).1) ?_ within
      have limit : (newGroup user request id now).memberLimit = 512 := rfl
      have few := group_members_few before user request id
      omega
  | added live room absent lower same =>
      subst same
      exact within_admitted schemaBefore (find_conversation_some live).1 rfl rfl rfl room within
  | @addedBack user conversation newMember role now entry existing live room found unbanned same =>
      refine within_fewer (by rw [same]; rfl) (fun _ => ?_) within
      exact count_updated current existing.key rejoined (fun _ => rfl) (by rw [same]; rfl)
  | @ranked user conversation member newRole now entry existing found same =>
      refine within_fewer (by rw [same]; rfl) (fun _ => ?_) within
      exact count_updated current existing.key (fun row => { row with role := newRole })
        (fun _ => rfl) (by rw [same]; rfl)
  | invited same =>
      subst same
      exact within
  | @joined user token now invite conversation entry opened absent same =>
      subst same
      obtain ⟨listed, _, _, live, _⟩ := invite_opened opened
      have countable : invite.useCount < integerMax := use_counted schemaAfter rfl listed
      exact within_admitted schemaBefore (find_conversation_some live).1 rfl rfl rfl
        (roomy invite conversation known opened absent countable) within
  | @joinedBack user token now invite conversation entry existing opened found same =>
      refine within_fewer (by rw [same]; rfl) (fun _ => ?_) within
      exact count_updated current existing.key rejoined (fun _ => rfl) (by rw [same]; rfl)

/-- A link redeemed without room breaks the limit at once. -/
theorem redeem_needs_room {world : World Digest} (call : Call)
    (good : ∀ next, step sha256 world call = some next → WithinLimit next.database.toTables) :
    RoomFor sha256 world.database.toTables call := by
  cases call with
  | redeemInvite person token now =>
      intro invite conversation known opened absent countable
      by_contra full
      obtain ⟨user, listed, named⟩ := List.mem_map.mp known
      have found : (world.database.users.find? fun row => row.id == person).isSome := by
        rw [List.find?_isSome]
        exact ⟨user, listed, by simpa using named⟩
      obtain ⟨first, held⟩ := Option.isSome_iff_exists.mp found
      have taken : step sha256 world (.redeemInvite person token now) =
          some (perform sha256 world first (.redeemInvite person token now)) := by
        simp only [step, Call.user, held, Option.map_some]
      obtain ⟨entry, joined⟩ := redeem_joins taken opened absent countable
      obtain ⟨place, _⟩ := find_conversation_some (invite_opened opened).2.2.2.1
      have within := good _ taken conversation (by rw [joined]; exact place)
      rw [count_added (congrArg Tables.members joined)] at within
      simp only [List.countP_singleton, beq_self_eq_true, Option.isNone_none, Bool.and_self,
        if_true] at within
      omega
  | _ => trivial

end Steps

section Crowding

def townsman (id : Uuid) : User Nat :=
  { id := id, phoneHash := id, phoneLast4 := "0000", phoneCountry := "IN",
    displayName := "Resident", systemRole := .user, accountState := .active, deletedAt := none }

def residents (count : Nat) : List (User Nat) := (List.range count).map townsman

theorem residents_distinct (count : Nat) : ((residents count).map User.id).Nodup := by
  have ids : (residents count).map User.id = List.range count := by
    simp [residents, townsman, Function.comp_def]
  rw [ids]
  exact List.nodup_range

theorem find_resident {count id : Nat} (known : id < count) :
    (residents count).find? (fun row => row.id == id) = some (townsman id) :=
  find_member User.id (residents_distinct count)
    (List.mem_map_of_mem (List.mem_range.mpr known))

def town : Conversation := newGroup (townsman 0) { title := "Town" } 0 0

def townLink (uses : Nat) : InviteLink Nat :=
  { conversationId := 0, tokenHash := 1, createdBy := some 0, maxUses := none, useCount := uses,
    requiresApproval := false, expiresAt := none }

def settler (id : Uuid) : ConversationMember := { conversationId := 0, userId := id }

def mayor : ConversationMember := { settler 0 with role := .owner }

/-- The owner opens a group and a link without a limit. -/
def founding : List Call :=
  [.createGroup 0 { title := "Town" } 0 0 0, .createInvite 0 0 none none false "t" 0 0]

/-- Then the others redeem the link, one after the other. -/
def settling (count : Nat) : List Call :=
  (List.range count).map fun index => .redeemInvite (index + 1) "t" 0

/-- The town once so many have settled. -/
structure Settled (world : World Nat) (count joined : Nat) : Prop where
  users : world.database.users = residents count
  conversations : world.database.conversations = [town]
  members : world.database.members =
    mayor :: (List.range joined).map fun index => settler (index + 1)
  invites : world.database.invites = [townLink joined]

theorem settler_absent {world : World Nat} {count joined : Nat}
    (settled : Settled world count joined) :
    findMember world.database.toTables town.id (joined + 1) = none := by
  unfold findMember
  rw [settled.members, List.find?_eq_none]
  intro row member
  rcases List.mem_cons.mp member with rfl | later
  · simp [ConversationMember.key, mayor, settler]
  · obtain ⟨index, below, rfl⟩ := List.mem_map.mp later
    intro same
    have here : index + 1 = joined + 1 := (Prod.mk.inj (beq_iff_eq.mp same)).2
    exact Nat.ne_of_lt (List.mem_range.mp below) (Nat.succ.inj here)

/-- The link is open to whoever has no row yet. -/
theorem town_link_opens {tables : Tables Nat} {uses : Nat} {person : Uuid}
    (conversations : tables.conversations = [town]) (invites : tables.invites = [townLink uses])
    (absent : findMember tables town.id person = none) :
    findInvite String.length tables person "t" 0 = some (townLink uses, town) := by
  have live : findConversation tables 0 = some town := by
    unfold findConversation
    rw [conversations]
    rfl
  have link : tables.invites.find? (fun row => row.tokenHash == "t".length) =
      some (townLink uses) := by
    rw [invites]
    rfl
  have unspent : (some (townLink uses)).filter (fun invite => !isSpent invite 0) =
    some (townLink uses) := rfl
  have stranger : findMember tables (townLink uses).conversationId person = none := absent
  have place : findConversation tables (townLink uses).conversationId = some town := live
  unfold findInvite
  rw [link, unspent]
  simp only [Option.bind_eq_bind, Option.bind_some, stranger, place, Option.any_none,
    Bool.false_eq_true, if_false]
  rfl

theorem settled_next {world : World Nat} {count joined : Nat} (settled : Settled world count joined)
    (known : joined + 1 < count) (countable : joined < integerMax) : ∃ next,
      step String.length world (.redeemInvite (joined + 1) "t" 0) = some next ∧
        Settled next count (joined + 1) := by
  have absent := settler_absent settled
  obtain ⟨users, conversations, members, invites⟩ := settled
  have opened := town_link_opens conversations invites absent
  have taken : step String.length world (.redeemInvite (joined + 1) "t" 0) =
      some (perform String.length world (townsman (joined + 1))
        (.redeemInvite (joined + 1) "t" 0)) := by
    simp only [step, Call.user, users, find_resident known, Option.map_some]
  obtain ⟨entry, same⟩ := redeem_joins taken opened absent countable
  refine ⟨_, taken, ?_, ?_, ?_, ?_⟩
  · rw [same]
    exact users
  · rw [same]
    exact conversations
  · rw [same, List.range_succ, List.map_append]
    change world.database.members ++ _ = _
    rw [members]
    rfl
  · rw [same]
    change world.database.invites.map _ = _
    rw [invites]
    rfl

theorem settled_run {world : World Nat} {count : Nat} (settled : Settled world count 0)
    (joined : Nat) (known : joined < count) (countable : joined ≤ integerMax) : ∃ next,
      run (step String.length) world (settling joined) = some next ∧
        Settled next count joined := by
  induction joined with
  | zero => exact ⟨world, rfl, settled⟩
  | succ joined ih =>
      obtain ⟨middle, reached, here⟩ := ih (by omega) (by omega)
      obtain ⟨next, taken, later⟩ := settled_next here known (by omega)
      refine ⟨next, ?_, later⟩
      rw [settling, List.range_succ, List.map_append]
      exact (run_append_iff _ _ _ _).mpr
        ⟨middle, reached, (run_single _ _ _).mpr taken⟩

theorem town_opens (count : Nat) (known : 0 < count) :
    Opens ({ users := residents count } : Tables Nat) town [mayor] where
  fresh := by simp [Tables.conversationIds]
  slug := by simp
  allowed := by decide
  creator := by
    intro id made
    obtain rfl : (0 : Nat) = id := Option.some.inj made
    exact List.mem_map_of_mem (List.mem_map_of_mem (List.mem_range.mpr known))
  theirs := by simp [mayor, settler, town, newGroup]
  known := by
    intro row member
    rw [List.mem_singleton.mp member]
    refine ⟨List.mem_map_of_mem (List.mem_map_of_mem (List.mem_range.mpr known)), ?_⟩
    simp [mayor, settler]
  distinct := List.nodup_singleton _
  oneOwner := by decide

theorem town_budgets : ∃ first second,
    enforceLimit emptyStore .conversationCreateUser (toString 0) 0 = (.ok (), first) ∧
      enforceLimit first .inviteCreateUser (toString 0) 0 = (.ok (), second) :=
  ⟨_, _, Prod.ext (by decide) rfl, Prod.ext (by decide) rfl⟩

/-- The group after its creation. -/
theorem town_created (count : Nat) (known : 0 < count) {first : Store}
    (charged : enforceLimit emptyStore .conversationCreateUser (toString 0) 0 = (.ok (), first)) :
    ∃ world entry,
      step String.length (signedUp (residents count) (residents_distinct count))
        (.createGroup 0 { title := "Town" } 0 0 0) = some world ∧
      world.limiter = first ∧ world.database.toTables = recordAudit (withOpened
        { users := residents count } town [mayor]) entry := by
  obtain ⟨entry, grouped, limited⟩ := group_commits
    (signedUp (residents count) (residents_distinct count)) (townsman 0) { title := "Town" } 0 0
    charged (by decide) (by decide)
    (opened_schema (users_only_schema _ (residents_distinct count)) (town_opens count known))
  have found : (residents count).find? (fun row => row.id == 0) = some (townsman 0) :=
    find_resident known
  refine ⟨_, entry, ?_, limited, grouped⟩
  simp only [step, Call.user, signedUp, found, Option.map_some, perform]

theorem town_access (users : List (User Nat)) (entry : OtpLogin.AuditLog) : ∃ access,
    resolveAccess (recordAudit (withOpened { users := users } town
      [mayor]) entry) (townsman 0) 0 0 = .ok access ∧
      access.can .manageInvites = true ∧ access.conversation = town ∧
      access.user = townsman 0 :=
  ⟨_, rfl, rfl, rfl, rfl⟩

theorem town_link_schema {tables : Tables Nat} {access : Access Nat} (schema : Schema tables)
    (conversations : tables.conversations = [town]) (invites : tables.invites = [])
    (place : access.conversation = town) (creator : access.user.id ∈ tables.userIds) :
    Schema (withInvite tables (newInvite String.length access none none false "t" 0)) := by
  apply invited_schema schema
  · simp [invites]
  · simp only [newInvite, place, Tables.conversationIds, conversations]
    exact List.mem_singleton_self _
  · intro id made
    obtain rfl : access.user.id = id := Option.some.inj made
    exact creator
  · simp [newInvite]
  · simp [newInvite]

theorem town_founded (count : Nat) (known : 0 < count) : ∃ world,
    run (step String.length) (signedUp (residents count) (residents_distinct count)) founding =
      some world ∧ Settled world count 0 := by
  obtain ⟨first, second, charged, again⟩ := town_budgets
  obtain ⟨world, entry, opened, rfl, same⟩ := town_created count known charged
  obtain ⟨access, resolved, permitted, place, person⟩ := town_access (residents count) entry
  have users : world.database.users = residents count := congrArg Tables.users same
  have conversations : world.database.conversations = [town] :=
    congrArg Tables.conversations same
  have invites : world.database.invites = [] := congrArg Tables.invites same
  have creator : access.user.id ∈ world.database.userIds := by
    rw [person]
    exact List.mem_map_of_mem (users ▸ List.mem_map_of_mem (List.mem_range.mpr known))
  have schema := town_link_schema world.database.schema conversations invites place creator
  obtain ⟨log, linked⟩ := invite_commits world access permitted (by rw [person]; exact again) schema
  have granted : resolveAccess world.database.toTables (townsman 0) 0 0 = .ok access := by
    rw [same]
    exact resolved
  have found : world.database.users.find? (fun row => row.id == 0) = some (townsman 0) := by
    rw [users]
    exact find_resident known
  have taken : step String.length world (.createInvite 0 0 none none false "t" 0 0) =
      some (createInvite String.length world access none none false "t" 0 0).2 := by
    simp only [step, Call.user, found, Option.map_some, perform, withAccess, granted]
  refine ⟨_, (run_cons_iff _ _ _ _).mpr ⟨world, opened, (run_single _ _ _).mpr taken⟩, ?_⟩
  refine ⟨?_, ?_, ?_, ?_⟩
  · rw [linked]
    exact users
  · rw [linked]
    exact conversations
  · rw [linked]
    exact congrArg Tables.members same
  · rw [linked]
    change world.database.invites ++ _ = _
    rw [invites, newInvite, place, person]
    rfl

/-- The limit holds throughout a run exactly when no link is redeemed by
someone new while its conversation is full. -/
theorem member_limit_iff {Digest : Type} [DecidableEq Digest] (sha256 : String → Digest)
    (users : List (User Digest)) (distinct : (users.map User.id).Nodup) (calls : List Call) :
    (∀ visited, Visits (step sha256) (signedUp users distinct) calls visited →
        WithinLimit visited.database.toTables) ↔
      Meets (step sha256) (fun world call => RoomFor sha256 world.database.toTables call)
        (signedUp users distinct) calls := by
  apply always_iff_meets (fun world => True)
    (fun world => AllCurrent world.database.toTables ∧ WithinLimit world.database.toTables)
  · exact fun _ _ _ _ _ => trivial
  · exact fun world call _ good => redeem_needs_room call good
  · rintro world call next ⟨current, within⟩ roomy taken
    have effect := step_effect taken
    obtain ⟨user, found, _⟩ := Option.map_eq_some_iff.mp taken
    have named : user.id = call.user := by simpa using List.find?_some found
    have known : call.user ∈ world.database.userIds :=
      named ▸ List.mem_map_of_mem (List.mem_of_find?_eq_some found)
    exact ⟨effect_current effect current, effect_within world.database.schema next.database.schema
      effect current known roomy within⟩
  · exact fun world strong => strong.2
  · trivial
  · constructor
    · intro row member
      cases member
    · intro conversation member
      cases member

theorem town_within_limit :
    (∀ visited, Visits (step String.length) (signedUp (residents 2) (residents_distinct 2))
        (founding ++ settling 1) visited → WithinLimit visited.database.toTables) ↔
      Meets (step String.length) (fun world call => RoomFor String.length world.database.toTables call)
        (signedUp (residents 2) (residents_distinct 2)) (founding ++ settling 1) :=
  member_limit_iff String.length (residents 2) (residents_distinct 2) (founding ++ settling 1)

/-- Anyone with the link gets in, however full the group is. -/
theorem town_overfull :
    ¬∀ (users : List (User Nat)) (distinct : (users.map User.id).Nodup) (calls : List Call)
      (visited : World Nat),
      Visits (step String.length) (signedUp users distinct) calls visited →
      WithinLimit visited.database.toTables := by
  intro always
  obtain ⟨world, founded, settled⟩ := town_founded 513 (by decide)
  obtain ⟨next, ran, full⟩ := settled_run settled 512 (by decide) (by decide)
  have within := always _ _ (founding ++ settling 512) next
    ⟨founding ++ settling 512, [], by simp, (run_append_iff _ _ _ _).mpr ⟨world, founded, ran⟩⟩
    town (by rw [full.conversations]; exact List.mem_singleton_self _)
  have count : currentCount next.database.toTables town.id = 513 := by
    unfold currentCount
    rw [full.members, List.countP_cons, List.countP_map, List.countP_eq_length.mpr]
    · simp [mayor, settler, town, newGroup]
    · intro index _
      rfl
  have limit : town.memberLimit = 512 := rfl
  omega

end Crowding

end RunnerupChat.Conversations
