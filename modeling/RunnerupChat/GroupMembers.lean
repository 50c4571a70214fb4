import RunnerupChat.Promotion
import RunnerupChat.RetryAfter
import RunnerupChat.Scanning
import RunnerupChat.SendPermission

/-!
The members a conversation starts with. The loop of `create_group` passes over
the creator and over blocked users; a user who is listed twice it adds twice.
-/

namespace RunnerupChat.Conversations

open Accounts Authz RateLimit Scanning SortedSet
open MessageStore (isSpace strip)

section Rows
variable {Digest : Type} {tables : Tables Digest} {user : User Digest} {request : GroupRequest}
  {id : Uuid} {now : Time}

/-- A request the routes let through, whose slug is free and whose members are
registered. -/
structure ValidRequest (tables : Tables Digest) (request : GroupRequest) : Prop where
  kind : request.kind ≠ .direct
  title : strip request.title ≠ "" ∧ request.title.length ≤ 128
  titleStored : nul ∉ request.title.toList
  publicSlug : request.visibility = .isPublic → request.slug ≠ none
  slugPattern : ∀ slug ∈ request.slug, slugAllowed slug = true
  slugUnused : ∀ slug ∈ request.slug,
    String.ofList (slug.toList.map Char.toLower) ∉ tables.conversations.filterMap foldedSlug
  short : request.memberIds.length ≤ 200
  known : ∀ member ∈ request.memberIds, member ∈ tables.userIds

/-- Someone other than the creator, with no block between the two. -/
def Eligible (tables : Tables Digest) (user : User Digest) (member : Uuid) : Prop :=
  member ≠ user.id ∧ Unblocked tables.blocks user.id member

/-- The user is a member of the conversation in this role. -/
def HasRole (tables : Tables Digest) (conversation person : Uuid) (role : MemberRole) : Prop :=
  ∃ row ∈ tables.members, row.key = (conversation, person) ∧ row.role = role ∧
    row.leftAt = none ∧ row.state = .active

/-- The users with a row in the conversation, once for each row. -/
def memberIdsOf (tables : Tables Digest) (conversation : Uuid) : List Uuid :=
  (tables.members.filter fun row => row.conversationId == conversation).map
    ConversationMember.userId

theorem strip_sublist (text : String) : (strip text).toList.Sublist text.toList := by
  rw [strip, String.toList_ofList]
  exact trim_sublist _

theorem mem_seeded_iff {memberIds : List Uuid} (short : memberIds.length ≤ 200) (member : Uuid) :
    member ∈ seeded tables user memberIds ↔ member ∈ memberIds ∧ Eligible tables user member := by
  unfold seeded Eligible
  rw [List.take_of_length_le short, List.mem_filter, Bool.and_eq_true, bne_iff_ne,
    Bool.not_eq_true', unblocked_iff]

/-- Nobody is added twice whom the list does not name twice. -/
theorem seeded_distinct_iff {memberIds : List Uuid} (short : memberIds.length ≤ 200) :
    (seeded tables user memberIds).Nodup ↔
      ∀ member, Eligible tables user member → memberIds.count member ≤ 1 := by
  rw [List.nodup_iff_count_le_one]
  apply forall_congr'
  intro member
  by_cases eligible : Eligible tables user member
  · have kept : (member != user.id && !isBlocked tables user.id member) = true := by
      rw [Bool.and_eq_true, bne_iff_ne, Bool.not_eq_true', unblocked_iff]
      exact eligible
    unfold seeded
    rw [List.take_of_length_le short, List.count_filter (by exact kept)]
    exact ⟨fun few _ => few, fun few => few eligible⟩
  · have missing : member ∉ seeded tables user memberIds := fun listed =>
      eligible ((mem_seeded_iff short member).mp listed).2
    rw [List.count_eq_zero.mpr missing]
    exact iff_of_true (Nat.zero_le 1) fun is => absurd is eligible

theorem group_allowed (valid : ValidRequest tables request) :
    (newGroup user request id now).Allowed where
  directChatsArePrivate := fun direct => absurd direct valid.kind
  publicNeedsSlug := fun shown => Option.ne_none_iff_isSome.mp (valid.publicSlug shown)
  memberLimit := by simp [newGroup]
  slug := (Option.all_eq_true _ _).mpr valid.slugPattern
  title := by
    have short := (strip_sublist request.title).length_le
    have present : (strip request.title).length ≠ 0 := by
      rw [ne_eq, String.length_eq_zero_iff]
      exact valid.title.1
    have bound := valid.title.2
    simp only [newGroup, Option.all_some, decide_eq_true_eq]
    rw [String.length_toList, String.length_toList] at short
    omega
  titleStored := by
    simp only [newGroup, Option.all_some, decide_eq_true_eq]
    exact fun listed => valid.titleStored ((strip_sublist request.title).subset listed)

theorem new_member_ids : (newGroupMembers tables user request id).map ConversationMember.userId =
    user.id :: seeded tables user request.memberIds := by
  simp [newGroupMembers, Function.comp_def]

variable (now) in
/-- The rows that were there belong to other conversations. -/
theorem opened_member_ids (schema : Schema tables) (fresh : id ∉ tables.conversationIds) :
    memberIdsOf (withOpened tables (newGroup user request id now)
      (newGroupMembers tables user request id)) id =
        user.id :: seeded tables user request.memberIds := by
  have before : tables.members.filter (fun row => row.conversationId == id) = [] := by
    rw [List.filter_eq_nil_iff]
    intro row member here
    exact fresh (beq_iff_eq.mp here ▸ (schema.membersRefer row member).1)
  have after : (newGroupMembers tables user request id).filter
      (fun row => row.conversationId == id) = newGroupMembers tables user request id := by
    rw [List.filter_eq_self]
    intro row member
    rcases List.mem_cons.mp member with rfl | seeded
    · exact beq_self_eq_true id
    · obtain ⟨_, _, rfl⟩ := List.mem_map.mp seeded
      exact beq_self_eq_true id
  rw [memberIdsOf, withOpened, List.filter_append, before, after, List.nil_append, new_member_ids]

variable (now) in
theorem group_opens (valid : ValidRequest tables request)
    (creator : user ∈ tables.users) (fresh : id ∉ tables.conversationIds)
    (once : ∀ member, Eligible tables user member → request.memberIds.count member ≤ 1) :
    Opens tables (newGroup user request id now) (newGroupMembers tables user request id) where
  fresh := fresh
  slug := by
    intro slug folded
    obtain ⟨given, asked, rfl⟩ := Option.map_eq_some_iff.mp folded
    exact valid.slugUnused given asked
  allowed := group_allowed valid
  creator := by
    intro person made
    rw [← Option.some.inj made]
    exact List.mem_map_of_mem creator
  theirs := by
    intro row member
    rcases List.mem_cons.mp member with rfl | seeded
    · rfl
    · obtain ⟨_, _, rfl⟩ := List.mem_map.mp seeded
      rfl
  known := by
    intro row member
    rcases List.mem_cons.mp member with rfl | seeded
    · exact ⟨List.mem_map_of_mem creator, by simp⟩
    · obtain ⟨person, listed, rfl⟩ := List.mem_map.mp seeded
      refine ⟨valid.known person ((mem_seeded_iff valid.short person).mp listed).1, ?_⟩
      intro other inviter
      rw [← Option.some.inj inviter]
      exact List.mem_map_of_mem creator
  distinct := by
    rw [new_member_ids, List.nodup_cons]
    exact ⟨fun listed => ((mem_seeded_iff valid.short user.id).mp listed).2.1 rfl,
      (seeded_distinct_iff valid.short).mpr once⟩
  oneOwner := by
    have lower : ((seeded tables user request.memberIds).map fun member =>
        ({ conversationId := id, userId := member, role := joiningRole request.kind,
           invitedBy := some user.id } : ConversationMember)).filter
          ConversationMember.isOwner = [] := by
      rw [List.filter_eq_nil_iff]
      intro row member
      obtain ⟨_, _, rfl⟩ := List.mem_map.mp member
      simp [ConversationMember.isOwner, joining_role_lower]
    rw [newGroupMembers, List.filter_cons, lower]
    split <;> simp

variable (now) in
/-- Who has a row in the new conversation, and in which role. -/
theorem opened_role_iff (schema : Schema tables) (fresh : id ∉ tables.conversationIds)
    (short : request.memberIds.length ≤ 200) (person : Uuid) (role : MemberRole) :
    HasRole (withOpened tables (newGroup user request id now)
        (newGroupMembers tables user request id)) id person role ↔
      (person = user.id ∧ role = .owner) ∨
        (person ∈ request.memberIds ∧ Eligible tables user person ∧
          role = joiningRole request.kind) := by
  have elsewhere : ∀ row ∈ tables.members, row.conversationId ≠ id := fun row member here =>
    fresh (here ▸ (schema.membersRefer row member).1)
  constructor
  · rintro ⟨row, member, key, rfl, _, _⟩
    obtain ⟨place, rfl⟩ := Prod.mk.inj key
    rcases List.mem_append.mp member with old | new
    · exact absurd place (elsewhere row old)
    · rcases List.mem_cons.mp new with rfl | seeded
      · exact Or.inl ⟨rfl, rfl⟩
      · obtain ⟨other, listed, rfl⟩ := List.mem_map.mp seeded
        obtain ⟨named, eligible⟩ := (mem_seeded_iff short other).mp listed
        exact Or.inr ⟨named, eligible, rfl⟩
  · rintro (⟨rfl, rfl⟩ | ⟨named, eligible, rfl⟩)
    · exact ⟨_, List.mem_append_right _ List.mem_cons_self, rfl, rfl, rfl, rfl⟩
    · have listed := (mem_seeded_iff short person).mpr ⟨named, eligible⟩
      exact ⟨_, List.mem_append_right _ (List.mem_cons_of_mem _ (List.mem_map_of_mem listed)),
        rfl, rfl, rfl, rfl⟩

/-- No user has two rows in one conversation. -/
theorem member_ids_distinct (schema : Schema tables) (conversation : Uuid) :
    (memberIdsOf tables conversation).Nodup := by
  have keys : ((tables.members.filter fun row => row.conversationId == conversation).map
      ConversationMember.key) = (memberIdsOf tables conversation).map
        fun person => (conversation, person) := by
    rw [memberIdsOf, List.map_map]
    apply List.map_congr_left
    intro row member
    have here : row.conversationId = conversation := by
      simpa using (List.mem_filter.mp member).2
    simp only [ConversationMember.key, Function.comp, here]
  have distinct := schema.members.sublist (List.filter_sublist (p := fun row =>
    row.conversationId == conversation)|>.map ConversationMember.key)
  rw [keys] at distinct
  exact List.Nodup.of_map _ distinct

end Rows

section Calls
variable {Digest : Type} [DecidableEq Digest] {world next : World Digest} {user : User Digest}
  {request : GroupRequest} {id : Uuid} {now : Time} {nowMs : Nat} {conversation : Conversation}

/-- The user has opened fewer conversations within the window than the budget
allows. -/
def BudgetLeft (limiter : Store) (user : User Digest) (nowMs : Nat) : Prop :=
  zcard (evicted nowMs (windowMs .conversationCreateUser)
      (limiter (bucketKey .conversationCreateUser (toString user.id)))) <
    (limits .conversationCreateUser).limit

theorem budget_admits_iff (limiter : Store) (name : LimitName) (identity : String)
    (nowMs : Nat) : (enforceLimit limiter name identity nowMs).1 = .ok () ↔
      zcard (evicted nowMs (windowMs name) (limiter (bucketKey name identity))) <
        (limits name).limit := by
  rw [← check_allowed_iff]
  unfold enforceLimit enforce
  cases allowed : (check limiter name identity nowMs 1).1.allowed <;> simp [allowed]

/-- What a call that succeeds has passed and done. -/
theorem group_ok
    (answered : createGroup world user request id now nowMs = (.ok conversation, next)) :
    BudgetLeft world.limiter user nowMs ∧ conversation = newGroup user request id now ∧
      ∃ entry, next.database.toTables = recordAudit (withOpened world.database.toTables
        (newGroup user request id now)
        (newGroupMembers world.database.toTables user request id)) entry := by
  rcases charged : enforceLimit world.limiter .conversationCreateUser (toString user.id) nowMs with
    ⟨verdict, limiter⟩
  simp only [createGroup, charged] at answered
  cases verdict with
  | error refused => cases answered
  | ok _ =>
      refine ⟨(budget_admits_iff _ _ _ _).mp (by rw [charged]), ?_⟩
      simp only at answered
      split at answered
      · cases answered
      · split at answered
        · cases answered
        · refine ⟨?_, _, commit_ok answered⟩
          unfold commit at answered
          split at answered
          · cases answered
            rfl
          · cases answered

theorem group_member_ids
    (answered : createGroup world user request id now nowMs = (.ok conversation, next))
    (fresh : id ∉ world.database.conversationIds) :
    memberIdsOf next.database.toTables id =
      user.id :: seeded world.database.toTables user request.memberIds := by
  obtain ⟨_, _, entry, written⟩ := group_ok answered
  rw [written]
  exact opened_member_ids now world.database.schema fresh

variable (now) in
theorem group_answers (creator : user ∈ world.database.users)
    (valid : ValidRequest world.database.toTables request)
    (fresh : id ∉ world.database.conversationIds) (left : BudgetLeft world.limiter user nowMs)
    (once : ∀ member, Eligible world.database.toTables user member →
      request.memberIds.count member ≤ 1) :
    ∃ next, createGroup world user request id now nowMs =
      (.ok (newGroup user request id now), next) := by
  have admitted := (budget_admits_iff world.limiter .conversationCreateUser (toString user.id)
    nowMs).mpr left
  rcases charged : enforceLimit world.limiter .conversationCreateUser (toString user.id) nowMs with
    ⟨verdict, limiter⟩
  rw [charged] at admitted
  subst admitted
  have title : ¬(strip request.title = "" ∨ 128 < request.title.length) := by
    rintro (blank | long)
    · exact valid.title.1 blank
    · exact absurd valid.title.2 (by omega)
  have slug : ¬(request.visibility = .isPublic ∧
      (request.slug.all fun slug => slug == "") = true) := by
    rintro ⟨shown, empty⟩
    obtain ⟨slug, given⟩ := Option.ne_none_iff_exists'.mp (valid.publicSlug shown)
    rw [given, Option.all_some, beq_iff_eq] at empty
    have allowed := valid.slugPattern slug given
    rw [empty] at allowed
    cases allowed
  have schema := audited_schema (opened_schema world.database.schema
    (group_opens now valid creator fresh once))
  simp only [createGroup, charged, if_neg title, if_neg slug, commit, dif_pos (schema _)]
  exact ⟨_, rfl⟩

/-- The conversation starts with its creator as the owner and with everyone
eligible on the list, once each. -/
structure OpensWith (world : World Digest) (user : User Digest) (request : GroupRequest)
    (id : Uuid) (now : Time) (nowMs : Nat) (next : World Digest) : Prop where
  answered : createGroup world user request id now nowMs =
    (.ok (newGroup user request id now), next)
  roles : ∀ person role, HasRole next.database.toTables id person role ↔
    (person = user.id ∧ role = .owner) ∨
      (person ∈ request.memberIds ∧ Eligible world.database.toTables user person ∧
        role = if request.kind = .channel then .subscriber else .member)
  members : ∀ person, person ∈ memberIdsOf next.database.toTables id ↔
    person = user.id ∨
      (person ∈ request.memberIds ∧ Eligible world.database.toTables user person)
  once : (memberIdsOf next.database.toTables id).Nodup

/-- A valid request creates the conversation it describes exactly when the
budget admits it and no one is on the list twice who would be added. -/
theorem create_group_iff (world : World Digest) (user : User Digest) (request : GroupRequest)
    (id : Uuid) (now : Time) (nowMs : Nat) (creator : user ∈ world.database.users)
    (valid : ValidRequest world.database.toTables request)
    (fresh : id ∉ world.database.conversationIds) :
    (∃ next, OpensWith world user request id now nowMs next) ↔
      BudgetLeft world.limiter user nowMs ∧
        ∀ member, Eligible world.database.toTables user member →
          request.memberIds.count member ≤ 1 := by
  constructor
  · rintro ⟨next, opens⟩
    obtain ⟨left, _⟩ := group_ok opens.answered
    refine ⟨left, (seeded_distinct_iff valid.short).mp ?_⟩
    have rows := member_ids_distinct next.database.schema id
    rw [group_member_ids opens.answered fresh] at rows
    exact (List.nodup_cons.mp rows).2
  · rintro ⟨left, once⟩
    obtain ⟨next, answered⟩ := group_answers now creator valid fresh left once
    obtain ⟨_, _, entry, written⟩ := group_ok answered
    refine ⟨next, answered, fun person role => ?_, fun person => ?_,
      member_ids_distinct next.database.schema id⟩
    · rw [written]
      exact opened_role_iff now world.database.schema fresh valid.short person role
    · rw [group_member_ids answered fresh, List.mem_cons, mem_seeded_iff valid.short]

end Calls

section Board

def boardRequest (memberIds : List Uuid) : GroupRequest :=
  { title := "Town", memberIds := memberIds }

theorem board_request_valid {memberIds : List Uuid} (short : memberIds.length ≤ 200)
    (known : ∀ member ∈ memberIds, member ∈ board.userIds) :
    ValidRequest boardWorld.database.toTables (boardRequest memberIds) where
  kind := by simp [boardRequest]
  title := (by decide : strip "Town" ≠ "" ∧ "Town".length ≤ 128)
  titleStored := (by decide : nul ∉ "Town".toList)
  publicSlug := by simp [boardRequest]
  slugPattern := by simp [boardRequest]
  slugUnused := by simp [boardRequest]
  short := short
  known := known

theorem board_group_created :
    (∃ next, OpensWith boardWorld stranger (boardRequest [1, 3, 2]) 9 0 0 next) ↔
      BudgetLeft boardWorld.limiter stranger 0 ∧
        ∀ member, Eligible boardWorld.database.toTables stranger member →
          (boardRequest [1, 3, 2]).memberIds.count member ≤ 1 :=
  create_group_iff boardWorld stranger (boardRequest [1, 3, 2]) 9 0 0 (by decide)
    (board_request_valid (by decide) (by decide)) (by decide)

/-- One user listed twice, and no conversation is created. -/
theorem twice_listed_refused :
    ¬∀ (world : World Nat) (user : User Nat) (request : GroupRequest) (id : Uuid) (now : Time)
      (nowMs : Nat), user ∈ world.database.users → ValidRequest world.database.toTables request →
      id ∉ world.database.conversationIds → BudgetLeft world.limiter user nowMs →
      ∃ next, OpensWith world user request id now nowMs next := by
  intro claimed
  obtain ⟨next, opens⟩ := claimed boardWorld stranger (boardRequest [1, 1]) 9 0 0 (by decide)
    (board_request_valid (by decide) (by decide)) (by decide) (by unfold BudgetLeft; decide)
  have refused : (createGroup boardWorld stranger (boardRequest [1, 1]) 9 0 0).1 =
      .error .database := by rfl
  rw [opens.answered] at refused
  cases refused

end Board

end RunnerupChat.Conversations
