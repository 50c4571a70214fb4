import RunnerupChat.MemberLimit

/-!
The owner of a conversation. Whoever creates a group or a channel owns it for
good: no call gives the role of an owner, takes it away or lets its holder go,
and roles change only at the owner's word.
-/

namespace RunnerupChat.Conversations

open Accounts Authz RateLimit Runs UniqueKeys

section Owners
variable {Digest : Type} {before after : Tables Digest}

def ownerRows (tables : Tables Digest) (place : Uuid) : List ConversationMember :=
  tables.members.filter fun row => row.conversationId == place && row.role == .owner

/-- A group or a channel has one owner, its creator, who has not left; a direct
chat has none. -/
structure Owned (tables : Tables Digest) (conversation : Conversation) : Prop where
  group : conversation.kind ≠ .direct → ∃ owner, ownerRows tables conversation.id = [owner] ∧
    conversation.createdBy = some owner.userId ∧ owner.leftAt = none
  direct : conversation.kind = .direct → ownerRows tables conversation.id = []

def AllOwned (tables : Tables Digest) : Prop :=
  ∀ conversation ∈ tables.conversations, Owned tables conversation

theorem owned_same {conversation : Conversation}
    (same : ownerRows after conversation.id = ownerRows before conversation.id)
    (owned : Owned before conversation) : Owned after conversation where
  group := fun group => same ▸ owned.group group
  direct := fun direct => same ▸ owned.direct direct

theorem owners_appended {rows : List ConversationMember}
    (same : after.members = before.members ++ rows) (place : Uuid) :
    ownerRows after place = ownerRows before place ++
      rows.filter fun row => row.conversationId == place && row.role == .owner := by
  unfold ownerRows
  rw [same, List.filter_append]

theorem owned_appended (owned : AllOwned before) {rows : List ConversationMember}
    (conversations : after.conversations = before.conversations)
    (members : after.members = before.members ++ rows) (lower : ∀ row ∈ rows, row.role ≠ .owner) :
    AllOwned after := by
  intro conversation member
  rw [conversations] at member
  apply owned_same _ (owned conversation member)
  have absent : (rows.filter fun row =>
      row.conversationId == conversation.id && row.role == .owner) = [] := by
    rw [List.filter_eq_nil_iff]
    intro row inside here
    simp only [Bool.and_eq_true, beq_iff_eq] at here
    exact lower row inside here.2
  rw [owners_appended members, absent, List.append_nil]

/-- A conversation that is opened under an owner, or without one. -/
theorem owned_opened (owned : AllOwned before) (schema : Schema before) {opened : Conversation}
    {rows : List ConversationMember} (fresh : opened.id ∉ before.conversationIds)
    (conversations : after.conversations = before.conversations ++ [opened])
    (members : after.members = before.members ++ rows)
    (theirs : ∀ row ∈ rows, row.conversationId = opened.id)
    (first : Owned ({ before with members := rows } : Tables Digest) opened) : AllOwned after := by
  intro conversation member
  rw [conversations] at member
  rcases List.mem_append.mp member with old | new
  · apply owned_same _ (owned conversation old)
    have absent : (rows.filter fun row =>
        row.conversationId == conversation.id && row.role == .owner) = [] := by
      rw [List.filter_eq_nil_iff]
      intro row inside here
      simp only [Bool.and_eq_true, beq_iff_eq] at here
      rw [theirs row inside] at here
      exact fresh (here.1 ▸ List.mem_map_of_mem old)
    rw [owners_appended members, absent, List.append_nil]
  · rw [List.mem_singleton.mp new]
    apply owned_same _ first
    have absent : ownerRows before opened.id = [] := by
      unfold ownerRows
      rw [List.filter_eq_nil_iff]
      intro row inside here
      simp only [Bool.and_eq_true, beq_iff_eq] at here
      exact fresh (here.1 ▸ (schema.membersRefer row inside).1)
    rw [owners_appended members, absent, List.nil_append]
    rfl

/-- A change of rows by which no one becomes an owner, stops being one or leaves. -/
theorem owned_updated (owned : AllOwned before) (key : Uuid × Uuid) (change : ConversationMember → ConversationMember)
    (conversations : after.conversations = before.conversations)
    (members : after.members = (updateMember before key change).members)
    (keys : ∀ row, (change row).key = row.key)
    (stays : ∀ row, row.leftAt = none → (change row).leftAt = none)
    (role : ∀ row ∈ before.members, row.key = key →
      ((change row).role = .owner ↔ row.role = .owner)) : AllOwned after := by
  have rows : ∀ place, ownerRows after place =
      (ownerRows before place).map fun row => if row.key = key then change row else row := by
    intro place
    unfold ownerRows
    rw [members]
    simp only [updateMember, List.filter_map]
    congr 1
    apply List.filter_congr
    intro row inside
    by_cases here : row.key = key
    · have place : (change row).conversationId = row.conversationId :=
        congrArg Prod.fst (keys row)
      have owner := role row inside here
      simp only [Function.comp, here, if_true, place, beq_eq_beq.mpr owner]
    · simp only [Function.comp, here, if_false]
  intro conversation member
  rw [conversations] at member
  constructor
  · intro group
    obtain ⟨owner, alone, creator, current⟩ := (owned conversation member).group group
    refine ⟨if owner.key = key then change owner else owner, ?_, ?_, ?_⟩
    · rw [rows, alone, List.map_singleton]
    · split
      · have same : (change owner).userId = owner.userId := congrArg Prod.snd (keys owner)
        rw [creator, same]
      · exact creator
    · split
      · exact stays owner current
      · exact current
  · intro direct
    rw [rows, (owned conversation member).direct direct, List.map_nil]

end Owners

section Steps
variable {Digest : Type} [DecidableEq Digest] {sha256 : String → Digest}
  {before after : Tables Digest} {call : Call}

/-- `CreateGroupIn` admits no other kinds. -/
def Call.Routed : Call → Prop
  | .createGroup _ request _ _ _ => request.kind ≠ .direct
  | _ => True

omit [DecidableEq Digest] in
/-- A row taken back in is the same owner or none. -/
theorem owned_rejoined (owned : AllOwned before) (key : Uuid × Uuid)
    (conversations : after.conversations = before.conversations)
    (members : after.members = (updateMember before key rejoined).members) : AllOwned after :=
  owned_updated owned key rejoined conversations members (fun _ => rfl) (fun _ _ => rfl)
    (fun _ _ _ => Iff.rfl)

omit [DecidableEq Digest] in
theorem new_group_owned (tables : Tables Digest) (user : User Digest) (request : GroupRequest)
    (id : Uuid) (now : Time) (routed : request.kind ≠ .direct) :
    Owned ({ tables with members := newGroupMembers tables user request id } : Tables Digest)
      (newGroup user request id now) where
  group := by
    intro _
    refine ⟨{ conversationId := id, userId := user.id, role := .owner }, ?_, rfl, rfl⟩
    have lower : (((seeded tables user request.memberIds).map fun member =>
        ({ conversationId := id, userId := member, role := joiningRole request.kind,
           invitedBy := some user.id } : ConversationMember)).filter
        fun row => row.conversationId == id && row.role == .owner) = [] := by
      rw [List.filter_eq_nil_iff]
      intro row member here
      obtain ⟨person, _, rfl⟩ := List.mem_map.mp member
      simp only [Bool.and_eq_true, beq_iff_eq] at here
      exact joining_role_lower request.kind here.2
    have place : (newGroup user request id now).id = id := rfl
    unfold ownerRows newGroupMembers
    rw [place, List.filter_cons, lower]
    simp
  direct := fun direct => absurd direct routed

theorem manages_roles {role : MemberRole} (manages : .manageRoles ∈ roleGrants role) :
    role = .owner := by
  revert manages
  cases role <;> decide

/-- Only the owner changes a role, and neither to nor from the owner's. -/
theorem role_changed {world next : World Digest} {user conversation member : Uuid}
    {newRole : MemberRole} {now : Time}
    (taken : step sha256 world (.changeRole user conversation member newRole now) = some next) :
    next.database.toTables = world.database.toTables ∨
      ∃ owner existing entry, findMember world.database.toTables conversation user = some owner ∧
        owner.role = .owner ∧ newRole ≠ .owner ∧
        findMember world.database.toTables conversation member = some existing ∧
        existing.role ≠ .owner ∧ next.database.toTables =
          recordAudit (updateMember world.database.toTables existing.key
            fun row => { row with role := newRole }) entry := by
  obtain ⟨person, found, rfl⟩ := Option.map_eq_some_iff.mp taken
  obtain rfl : person.id = user := by simpa [Call.user] using List.find?_some found
  simp only [perform, withAccess]
  cases resolved : resolveAccess world.database.toTables person now conversation with
  | error error => exact Or.inl rfl
  | ok access =>
      simp only
      rcases change_role_cases access member newRole with
        same | ⟨manages, below, existing, entry, target, lower, same⟩
      · exact Or.inl (by rw [same])
      · right
        obtain ⟨owner, current, _, granted⟩ :=
          granted_by_role resolved manages (by decide) (by decide)
        have role := manages_roles ((mem_memberGrants owner _).mp granted).1
        obtain ⟨_, place, _, membership⟩ := resolve_rows resolved
        have rank : access.role.map MemberRole.rank = some 4 := by
          simp only [Access.role, current.1, Option.map_some, role, MemberRole.rank]
        rw [rank] at below lower
        rw [place] at target
        refine ⟨owner, existing, entry, membership ▸ current.1, role, ?_, target, ?_, same⟩
        · rintro rfl
          exact absurd below (by decide)
        · intro owns
          rw [owns] at lower
          exact absurd lower (by decide)

theorem step_owned {world next : World Digest} {call : Call} (routed : call.Routed)
    (taken : step sha256 world call = some next) (owned : AllOwned world.database.toTables) :
    AllOwned next.database.toTables := by
  have schemaBefore := world.database.schema
  have schemaAfter := next.database.schema
  cases step_effect taken with
  | unchanged same => exact same ▸ owned
  | @direct user other id now apart same =>
      have opens := opened_fresh schemaAfter (congrArg Tables.conversations same)
      refine owned_opened owned schemaBefore opens (congrArg Tables.conversations same)
        (congrArg Tables.members same) ?_ ?_
      · intro row member
        rcases List.mem_cons.mp member with rfl | last
        · rfl
        · rw [List.mem_singleton.mp last]
          rfl
      · exact ⟨fun group => absurd rfl group, fun _ => by simp [ownerRows]⟩
  | @group user request id now nowMs entry same =>
      have opens := opened_fresh schemaAfter (congrArg Tables.conversations same)
      exact owned_opened owned schemaBefore opens (congrArg Tables.conversations same)
        (congrArg Tables.members same) (fun row member => (group_members_new row member).1)
        (new_group_owned _ user request id now routed)
  | added live room absent lower same =>
      refine owned_appended owned (by rw [same]; rfl)
        (by rw [same]; rfl) (fun row member => ?_)
      rw [List.mem_singleton.mp member]
      exact lower
  | @addedBack user conversation newMember role now entry existing live room found unbanned same =>
      exact owned_rejoined owned existing.key (by rw [same]; rfl) (by rw [same]; rfl)
  | @ranked user conversation member newRole now entry existing found same =>
      rcases role_changed taken with
        kept | ⟨owner, target, entry, _, _, lower, named, apart, changed⟩
      · exact kept ▸ owned
      · refine owned_updated owned target.key (fun row => { row with role := newRole })
          (by rw [changed]; rfl) (by rw [changed]; rfl) (fun _ => rfl) (fun _ here => here) ?_
        intro row member here
        obtain rfl : row = target := same_row ConversationMember.key schemaBefore.members member
          (find_member_some named).1 here
        exact ⟨fun gained => absurd gained lower, fun held => absurd held apart⟩
  | invited same =>
      have members : next.database.members = world.database.members := by
        rw [same]
        rfl
      refine owned_appended owned (by rw [same]; rfl)
        (members.trans (List.append_nil _).symm) (by simp)
  | @joined user token now invite conversation entry opened absent same =>
      refine owned_appended owned (by rw [same]; rfl)
        (by rw [same]; rfl) (fun row member => ?_)
      rw [List.mem_singleton.mp member]
      exact joining_role_lower conversation.kind
  | @joinedBack user token now invite conversation entry existing opened found same =>
      exact owned_rejoined owned existing.key (by rw [same]; rfl) (by rw [same]; rfl)

/-- Every member keeps the role it has, unless the owner changes it by name. -/
def RolesKept (before after : Tables Digest) (call : Call) : Prop :=
  ∀ row ∈ before.members, ∃ now ∈ after.members, now.key = row.key ∧
    (now.role = row.role ∨ ∃ owner newRole moment,
      call = .changeRole call.user row.conversationId row.userId newRole moment ∧
        now.role = newRole ∧ findMember before row.conversationId call.user = some owner ∧
        owner.role = .owner)

omit [DecidableEq Digest] in
theorem roles_appended {rows : List ConversationMember}
    (members : after.members = before.members ++ rows) : RolesKept before after call :=
  fun row member => ⟨row, members ▸ List.mem_append_left rows member, rfl, Or.inl rfl⟩

omit [DecidableEq Digest] in
theorem roles_rejoined (key : Uuid × Uuid)
    (members : after.members = (updateMember before key rejoined).members) :
    RolesKept before after call := by
  intro row member
  refine ⟨if row.key = key then rejoined row else row, ?_, ?_, Or.inl ?_⟩
  · rw [members]
    exact List.mem_map_of_mem member
  · split <;> rfl
  · split <;> rfl

theorem step_roles {world next : World Digest} {call : Call}
    (taken : step sha256 world call = some next) :
    RolesKept world.database.toTables next.database.toTables call := by
  have kept : ∀ {call : Call} {after : Tables Digest},
      after.members = world.database.members → RolesKept world.database.toTables after call :=
    fun same => roles_appended (same.trans (List.append_nil _).symm)
  cases step_effect taken with
  | unchanged same => exact kept (congrArg Tables.members same)
  | invited same => exact kept (by rw [same]; rfl)
  | direct apart same | group same | added live room absent lower same | joined opened absent same =>
      exact roles_appended (congrArg Tables.members same)
  | @addedBack user conversation newMember role now entry existing live room found unbanned same =>
      exact roles_rejoined existing.key (by rw [same]; rfl)
  | @joinedBack user token now invite conversation entry existing opened found same =>
      exact roles_rejoined existing.key (by rw [same]; rfl)
  | @ranked user conversation person newRole now entry existing found same =>
      rcases role_changed taken with
        same | ⟨owner, target, entry, held, owns, _, named, _, changed⟩
      · exact kept (congrArg Tables.members same)
      · intro row member
        refine ⟨if row.key = target.key then { row with role := newRole } else row, ?_, ?_, ?_⟩
        · rw [changed]
          exact List.mem_map_of_mem member
        · split <;> rfl
        · by_cases here : row.key = target.key
          · obtain ⟨place, person⟩ := Prod.mk.inj (here.trans (find_member_some named).2)
            rw [if_pos here, place, person]
            exact Or.inr ⟨owner, newRole, now, rfl, rfl, held, owns⟩
          · rw [if_neg here]
            exact Or.inl rfl

/-- In every state of a run each conversation has the owner it was opened with,
and in every step the roles are kept but for a change by an owner. -/
theorem one_owner_always (sha256 : String → Digest) (users : List (User Digest))
    (distinct : (users.map User.id).Nodup) (calls : List Call)
    (routed : ∀ call ∈ calls, call.Routed) :
    (∀ visited, Visits (step sha256) (signedUp users distinct) calls visited →
        AllOwned visited.database.toTables) ∧
      ∀ visited call next, Visits (step sha256) (signedUp users distinct) calls visited →
        step sha256 visited call = some next →
          RolesKept visited.database.toTables next.database.toTables call := by
  refine ⟨?_, fun _ _ _ _ taken => step_roles taken⟩
  rintro visited ⟨before, after, rfl, reached⟩
  have admitted : Meets (step sha256) (fun _ call => call.Routed) (signedUp users distinct) before :=
    meets_of_all fun call member => routed call (List.mem_append_left after member)
  refine guarded_invariant (fun world => AllOwned world.database.toTables) ?_ reached admitted ?_
  · exact fun _ _ _ owned routed taken => step_owned routed taken owned
  · intro conversation member
    cases member

/-- A resident opens a group and is taken in by its own link. -/
theorem mayor_stays_owner :
    (∀ visited, Visits (step String.length) (signedUp (residents 2) (residents_distinct 2))
        (founding ++ [.redeemInvite 0 "t" 0]) visited → AllOwned visited.database.toTables) ∧
      ∀ visited call next,
        Visits (step String.length) (signedUp (residents 2) (residents_distinct 2))
          (founding ++ [.redeemInvite 0 "t" 0]) visited →
        step String.length visited call = some next →
          RolesKept visited.database.toTables next.database.toTables call :=
  one_owner_always String.length (residents 2) (residents_distinct 2)
    (founding ++ [.redeemInvite 0 "t" 0]) (by
      intro call member
      simp only [founding, List.cons_append, List.nil_append, List.mem_cons, List.not_mem_nil,
        or_false] at member
      rcases member with rfl | rfl | rfl
      · exact fun same => by cases same
      · trivial
      · trivial)

end Steps

end RunnerupChat.Conversations
