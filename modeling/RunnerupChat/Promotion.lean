import RunnerupChat.Blocking
import RunnerupChat.Membership

/-!
Escalation. `change_role` never grants a role at or above the caller's own;
`add_member` tests only for the role of an owner, keeps the role of an old row
and takes every mute and restriction off it.
-/

namespace RunnerupChat.Conversations

open Accounts Authz RateLimit UniqueKeys
open MessageStore (MemberState)

section Grants
variable {Digest : Type} [DecidableEq Digest]

/-- The two calls by which someone else gets a role. -/
inductive Grant where
  | addMember (target : Uuid) (role : MemberRole)
  | changeRole (target : Uuid) (newRole : MemberRole)

def Grant.target : Grant → Uuid
  | .addMember target _ | .changeRole target _ => target

def Grant.perform (world : World Digest) (access : Access Digest) : Grant → Outcome Digest Unit
  | .addMember target role => Conversations.addMember world access target role
  | .changeRole target newRole => Conversations.changeRole world access target newRole

omit [DecidableEq Digest] in
/-- `resolve_access` succeeds with the permission. -/
def Granted (tables : Tables Digest) (user : User Digest) (now : Time) (place : Uuid)
    (permission : Permission) : Prop :=
  ∃ access, resolveAccess tables user now place = .ok access ∧ access.can permission = true

/-- No escalation: the target ends below the caller, and `add_member` gives a
current member no permission it lacked. -/
structure Contained (before after : Tables Digest) (access : Access Digest) (grant : Grant) :
    Prop where
  below : ∃ row role, findMember after access.conversation.id grant.target = some row ∧
    access.role = some role ∧ row.role.rank < role.rank
  kept : ∀ role, grant = .addMember grant.target role →
    ∀ row, Current (findMember before access.conversation.id grant.target) row →
    ∀ person ∈ before.users, person.id = grant.target → ∀ now permission,
      Granted after person now access.conversation.id permission →
      Granted before person now access.conversation.id permission

/-- What a mute or a restriction takes from a member. -/
def silencedPermissions : List Permission := [.sendMessage, .editOwnMessage, .pinMessage, .addMember]

/-- The member has a permission to regain: its role, the policies, the archive
flag and the blocks leave it one of those that a mute takes away. -/
def Regains (tables : Tables Digest) (conversation : Conversation) (row : ConversationMember) :
    Prop :=
  ∃ permission ∈ silencedPermissions, permission ∈
    restrained tables conversation row.userId (narrowed conversation row.role (roleGrants row.role))

/-- The role the target has afterwards is a lower one, and it is no current
member whose mute or restriction is lifted for good. -/
def Grant.Sound (tables : Tables Digest) (access : Access Digest) : Grant → Prop
  | .changeRole _ _ => True
  | .addMember target role =>
      let existing := findMember tables access.conversation.id target
      (∃ own, access.role = some own ∧
        ((existing.map ConversationMember.role).getD role).rank < own.rank) ∧
      ∀ row, Current existing row → row.state = .muted ∨ row.state = .restricted →
        (∃ person ∈ tables.users, person.id = target ∧ person.isUsable = true) →
        ¬Regains tables access.conversation row

end Grants

section Outcomes
variable {Digest : Type} [DecidableEq Digest] {world next : World Digest} {access : Access Digest}
  {target : Uuid} {role : MemberRole}

theorem commit_ok {Answer : Type} {tables : Tables Digest} {answer given : Answer}
    (answered : commit world tables answer = (.ok given, next)) : next.database.toTables = tables := by
  unfold commit at answered
  split at answered
  · cases answered
    rfl
  · cases answered

/-- A call of `add_member` that succeeds takes back an old row or adds one. -/
theorem add_member_ok (answered : addMember world access target role = (.ok (), next)) :
    (∃ existing entry, findMember world.database.toTables access.conversation.id target =
        some existing ∧ existing.state ≠ .banned ∧ next.database.toTables =
          recordAudit (updateMember world.database.toTables existing.key rejoined) entry) ∨
      findMember world.database.toTables access.conversation.id target = none ∧
        ∃ entry, next.database.toTables = recordAudit (addMemberRow world.database.toTables
          { conversationId := access.conversation.id, userId := target, role := role,
            invitedBy := some access.user.id }) entry := by
  simp only [addMember] at answered
  split at answered
  · cases answered
  · split at answered
    · cases answered
    · split at answered
      · cases answered
      · split at answered
        · rename_i existing found
          split at answered
          · cases answered
          · rename_i unbanned
            exact Or.inl ⟨existing, _, found, unbanned, commit_ok answered⟩
        · rename_i absent
          exact Or.inr ⟨absent, _, commit_ok answered⟩

theorem change_role_ok (answered : changeRole world access target role = (.ok (), next)) :
    role.rank < (access.role.map MemberRole.rank).getD 0 ∧ ∃ existing entry,
      findMember world.database.toTables access.conversation.id target = some existing ∧
        next.database.toTables = recordAudit (updateMember world.database.toTables existing.key
          fun row => { row with role := role }) entry := by
  simp only [changeRole] at answered
  split at answered
  · cases answered
  · split at answered
    · cases answered
    · rename_i below
      split at answered
      · cases answered
      · rename_i existing found
        split at answered
        · cases answered
        · exact ⟨by omega, existing, _, found, commit_ok answered⟩

omit [DecidableEq Digest] in
/-- The row under a key after it was updated. -/
theorem find_updated {tables after : Tables Digest} (schema : Schema after) {place person : Uuid}
    {existing : ConversationMember} (found : findMember tables place person = some existing)
    (change : ConversationMember → ConversationMember) (key : (change existing).key = existing.key)
    (members : after.members = (updateMember tables existing.key change).members) :
    findMember after place person = some (change existing) := by
  obtain ⟨listed, named⟩ := find_member_some found
  have inside : change existing ∈ after.members := by
    rw [members]
    exact List.mem_map.mpr ⟨existing, listed, if_pos rfl⟩
  obtain ⟨rfl, rfl⟩ := Prod.mk.inj (key.trans named)
  exact find_member_of_mem schema.members inside

omit [DecidableEq Digest] in
theorem find_appended {tables after : Tables Digest} (schema : Schema after)
    {row : ConversationMember} (members : after.members = tables.members ++ [row]) :
    findMember after row.conversationId row.userId = some row :=
  find_member_of_mem schema.members (members ▸ List.mem_append_right _ (List.mem_singleton_self row))

end Outcomes

section Permissions
variable {Digest : Type} {tables before after : Tables Digest} {conversation : Conversation}
  {row : ConversationMember} {person : User Digest} {now : Time} {permission : Permission}

/-- What a current, unbanned member may do. -/
theorem granted_member_iff (live : findConversation tables conversation.id = some conversation)
    (current : Current (findMember tables conversation.id person.id) row)
    (unbanned : row.state ≠ .banned) :
    Granted tables person now conversation.id permission ↔ person.isUsable = true ∧
      (permission ∈ restrained tables conversation person.id (memberGrants conversation row now) ∨
        permission ∈ systemGrants person.systemRole) := by
  have answered : standing conversation (findMember tables conversation.id person.id) now =
      .ok (memberGrants conversation row now) := by
    rw [standing_member current, if_neg unbanned]
  constructor
  · rintro ⟨access, resolved, can⟩
    obtain ⟨usable, other, granted, found, stands, rfl⟩ := (resolve_ok_iff access).mp resolved
    obtain rfl := Option.some.inj (live.symm.trans found)
    rw [answered] at stands
    cases stands
    exact ⟨usable, by simpa [Access.can] using can⟩
  · rintro ⟨usable, inside⟩
    refine ⟨_, (resolve_ok_iff _).mpr ⟨usable, conversation, _, live, answered, rfl⟩, ?_⟩
    simpa [Access.can] using inside

/-- Members and audit rows apart, the tables are the same. -/
structure SameElsewhere (before after : Tables Digest) : Prop where
  users : after.users = before.users
  conversations : after.conversations = before.conversations
  directKeys : after.directKeys = before.directKeys
  blocks : after.blocks = before.blocks

theorem restrained_elsewhere (same : SameElsewhere before after) (person : Uuid)
    (granted : List Permission) :
    restrained after conversation person granted = restrained before conversation person granted := by
  have blocked : isBlocked after person = isBlocked before person := by
    funext other
    simp only [isBlocked, blockingState, same.blocks]
  have counterpart : directCounterpart after = directCounterpart before := by
    funext place other
    simp only [directCounterpart, same.directKeys]
  unfold restrained
  rw [blocked, counterpart]

theorem find_conversation_elsewhere (same : SameElsewhere before after) (id : Uuid) :
    findConversation after id = findConversation before id := by
  simp only [findConversation, same.conversations]

/-- Once its timers have run out no state but a mute or a restriction silences a row. -/
theorem silenced_iff (row : ConversationMember) (now : Time) :
    row.isSilenced now = true ↔
      (row.state = .muted ∨ row.state = .restricted) ∨ (rejoined row).isSilenced now = true := by
  simp only [ConversationMember.isSilenced, rejoined, Bool.or_eq_true, beq_iff_eq]
  simp [or_assoc]

theorem timers_run_out (row : ConversationMember) :
    ∃ now, (rejoined row).isSilenced now = false := by
  refine ⟨max (row.mutedUntil.getD 0) (row.restrictedUntil.getD 0), ?_⟩
  cases muted : row.mutedUntil <;> cases restricted : row.restrictedUntil <;>
    simp [ConversationMember.isSilenced, rejoined, muted, restricted]

theorem silenced_no_platform : ∀ permission ∈ silencedPermissions,
    permission ∉ platformPermissions := by decide

theorem writes_silenced : ∀ permission ∈ [Permission.sendMessage, .editOwnMessage, .pinMessage],
    permission ∈ silencedPermissions := by decide

theorem member_grants_silenced (silenced : row.isSilenced now = true) :
    permission ∈ memberGrants conversation row now ↔ permission ∉ silencedPermissions ∧
      permission ∈ narrowed conversation row.role (roleGrants row.role) := by
  simp only [mem_memberGrants, mem_narrowed, silenced, silencedPermissions, forall_const]
  tauto

theorem member_grants_free (free : row.isSilenced now = false) :
    memberGrants conversation row now = narrowed conversation row.role (roleGrants row.role) := by
  simp [memberGrants, free]

/-- Where taking a row in again matters for its silence, its state had silenced it. -/
theorem silence_differs {now : Time} (differs : row.isSilenced now ≠ (rejoined row).isSilenced now) :
    (rejoined row).isSilenced now = false ∧ row.isSilenced now = true ∧
      (row.state = .muted ∨ row.state = .restricted) := by
  have free : (rejoined row).isSilenced now = false := by
    by_contra timers
    rw [Bool.not_eq_false] at timers
    exact differs (((silenced_iff row now).mpr (Or.inr timers)).trans timers.symm)
  have silenced : row.isSilenced now = true := by
    rw [free] at differs
    simpa using differs
  exact ⟨free, silenced, ((silenced_iff row now).mp silenced).resolve_right (by simp [free])⟩

/-- Taking a member in again gives it nothing new exactly when its mute or
restriction left it nothing to regain. -/
theorem nothing_regained_iff (same : SameElsewhere before after)
    (live : findConversation before conversation.id = some conversation)
    (current : Current (findMember before conversation.id row.userId) row)
    (again : findMember after conversation.id row.userId = some (rejoined row))
    (unbanned : row.state ≠ .banned) (own : person.id = row.userId) :
    (∀ now permission, Granted after person now conversation.id permission →
        Granted before person now conversation.id permission) ↔
      (row.state = .muted ∨ row.state = .restricted → person.isUsable = true →
        ¬Regains before conversation row) := by
  have liveAfter := (find_conversation_elsewhere same conversation.id).trans live
  rw [← own] at current again
  have before_iff : ∀ now permission, Granted before person now conversation.id permission ↔
      person.isUsable = true ∧
        (permission ∈ restrained before conversation person.id (memberGrants conversation row now) ∨
          permission ∈ systemGrants person.systemRole) :=
    fun _ _ => granted_member_iff live current unbanned
  have after_iff : ∀ now permission, Granted after person now conversation.id permission ↔
      person.isUsable = true ∧
        (permission ∈ restrained after conversation person.id
            (memberGrants conversation (rejoined row) now) ∨
          permission ∈ systemGrants person.systemRole) :=
    fun _ _ => granted_member_iff liveAfter ⟨again, rfl⟩
      (show MemberState.active ≠ .banned by decide)
  have role : (rejoined row).role = row.role := rfl
  constructor
  · rintro kept held usable ⟨permission, taken, inside⟩
    obtain ⟨now, free⟩ := timers_run_out row
    have more := (after_iff now permission).mpr ⟨usable, Or.inl (by
      rwa [member_grants_free free, role, restrained_elsewhere same, own])⟩
    rcases ((before_iff now permission).mp (kept now permission more)).2 with mine | system
    · have silenced := (silenced_iff row now).mpr (Or.inl held)
      exact ((member_grants_silenced silenced).mp (restrained_subset _ _ _ mine)).1 taken
    · exact silenced_no_platform permission taken (system_grants_platform _ system)
  · intro nothing now permission more
    obtain ⟨usable, mine | system⟩ := (after_iff now permission).mp more
    · refine (before_iff now permission).mpr ⟨usable, Or.inl ?_⟩
      rw [restrained_elsewhere same] at mine
      by_cases still : row.isSilenced now = (rejoined row).isSilenced now
      · -- the row's own state does not matter at this moment
        have grants : memberGrants conversation (rejoined row) now =
            memberGrants conversation row now := by
          unfold memberGrants
          rw [← still, role]
        rwa [grants] at mine
      · obtain ⟨free, silenced, held⟩ := silence_differs still
        rw [member_grants_free free, role, own] at mine
        have spared : permission ∉ silencedPermissions :=
          fun taken => nothing held usable ⟨permission, taken, mine⟩
        have apart : permission ∉ [Permission.sendMessage, .editOwnMessage, .pinMessage] :=
          fun listed => spared (writes_silenced permission listed)
        rw [mem_restrained _ _ _ apart, member_grants_silenced silenced]
        exact ⟨spared, restrained_subset _ _ _ mine⟩
    · exact (before_iff now permission).mpr ⟨usable, Or.inr system⟩

end Permissions

section Escalation
variable {Digest : Type} [DecidableEq Digest]

omit [DecidableEq Digest] in
theorem updated_elsewhere (tables : Tables Digest) (key : Uuid × Uuid)
    (change : ConversationMember → ConversationMember) (entry : OtpLogin.AuditLog) :
    SameElsewhere tables (recordAudit (updateMember tables key change) entry) :=
  ⟨rfl, rfl, rfl, rfl⟩

omit [DecidableEq Digest] in
theorem below_iff {after : Tables Digest} {access : Access Digest} {place target : Uuid}
    {row : ConversationMember} (found : findMember after place target = some row) :
    (∃ other role, findMember after place target = some other ∧ access.role = some role ∧
        other.role.rank < role.rank) ↔
      ∃ own, access.role = some own ∧ row.role.rank < own.rank := by
  simp only [found, Option.some.injEq, exists_and_left, exists_eq_left']

variable {world next : World Digest} {access : Access Digest} {target : Uuid}

/-- A member that `change_role` succeeds on ends below the caller. -/
theorem changed_contained {newRole : MemberRole}
    (answered : changeRole world access target newRole = (.ok (), next)) :
    Contained world.database.toTables next.database.toTables access
      (.changeRole target newRole) where
  below := by
    obtain ⟨lower, existing, entry, found, same⟩ := change_role_ok answered
    have after := find_updated next.database.schema found (fun row => { row with role := newRole })
      rfl (by rw [same]; rfl)
    apply (below_iff after).mpr
    cases own : access.role with
    | none =>
        rw [own] at lower
        exact absurd lower (Nat.not_lt_zero _)
    | some role =>
        rw [own] at lower
        exact ⟨role, rfl, lower⟩
  kept := by rintro role ⟨⟩

omit [DecidableEq Digest] in
/-- The old row of the target is all that matters when it is taken back in. -/
theorem readded_contained_iff
    (live : findConversation world.database.toTables access.conversation.id = some access.conversation)
    {role : MemberRole} {existing : ConversationMember} {entry : OtpLogin.AuditLog}
    (found : findMember world.database.toTables access.conversation.id target = some existing)
    (unbanned : existing.state ≠ .banned) (same : next.database.toTables =
      recordAudit (updateMember world.database.toTables existing.key rejoined) entry) :
    Contained world.database.toTables next.database.toTables access (.addMember target role) ↔
      (Grant.addMember target role).Sound world.database.toTables access := by
  have after := find_updated next.database.schema found rejoined rfl (by rw [same]; rfl)
  have elsewhere : SameElsewhere world.database.toTables next.database.toTables :=
    same ▸ updated_elsewhere _ _ _ _
  obtain ⟨_, named⟩ := find_member_some found
  obtain rfl : existing.userId = target := congrArg Prod.snd named
  have old : ∀ row, Current (findMember world.database.toTables access.conversation.id
      existing.userId) row → row = existing := by
    rintro row ⟨held, _⟩
    exact Option.some.inj (held.symm.trans found)
  have soundness : (Grant.addMember existing.userId role).Sound world.database.toTables access ↔
      (∃ own, access.role = some own ∧ existing.role.rank < own.rank) ∧
      ∀ row, Current (findMember world.database.toTables access.conversation.id
          existing.userId) row → row.state = .muted ∨ row.state = .restricted →
        (∃ person ∈ world.database.users, person.id = existing.userId ∧ person.isUsable = true) →
        ¬Regains world.database.toTables access.conversation row := by
    simp only [Grant.Sound, found, Option.map_some, Option.getD_some]
  rw [soundness]
  constructor
  · intro contained
    refine ⟨(below_iff after).mp contained.below, ?_⟩
    rintro row current held ⟨person, listed, own, usable⟩
    have kept := contained.kept role rfl row current person listed own
    obtain rfl := old row current
    exact (nothing_regained_iff elsewhere live current after unbanned own).mp kept held usable
  · rintro ⟨lower, nothing⟩
    refine ⟨(below_iff after).mpr lower, ?_⟩
    rintro _ _ row current person listed own
    have sound := nothing row current
    obtain rfl := old row current
    exact (nothing_regained_iff elsewhere live current after unbanned own).mpr
      fun held usable => sound held ⟨person, listed, own, usable⟩

omit [DecidableEq Digest] in
/-- Someone without a row gets the role the caller names. -/
theorem added_contained_iff {role : MemberRole} {entry : OtpLogin.AuditLog}
    (absent : findMember world.database.toTables access.conversation.id target = none)
    (same : next.database.toTables = recordAudit (addMemberRow world.database.toTables
      { conversationId := access.conversation.id, userId := target, role := role,
        invitedBy := some access.user.id }) entry) :
    Contained world.database.toTables next.database.toTables access (.addMember target role) ↔
      (Grant.addMember target role).Sound world.database.toTables access := by
  have after : findMember next.database.toTables access.conversation.id target = some _ :=
    find_appended next.database.schema (by rw [same]; rfl)
  have missing : ∀ row, ¬Current (findMember world.database.toTables access.conversation.id
      target) row := by
    rintro row ⟨held, _⟩
    rw [absent] at held
    cases held
  have soundness : (Grant.addMember target role).Sound world.database.toTables access ↔
      ∃ own, access.role = some own ∧ role.rank < own.rank := by
    simp only [Grant.Sound, absent, Option.map_none, Option.getD_none]
    exact and_iff_left fun row current => absurd current (by rintro ⟨⟨⟩, _⟩)
  rw [soundness]
  constructor
  · exact fun contained => (below_iff after).mp contained.below
  · intro lower
    exact ⟨(below_iff after).mpr lower, fun _ _ row current => absurd current (missing row)⟩

/-- A successful call escalates nothing exactly when it is sound. -/
theorem contained_iff (world next : World Digest) (actor : User Digest) (place : Uuid) (now : Time)
    (access : Access Digest) (grant : Grant)
    (resolved : resolveAccess world.database.toTables actor now place = .ok access)
    (answered : grant.perform world access = (.ok (), next)) :
    Contained world.database.toTables next.database.toTables access grant ↔
      grant.Sound world.database.toTables access := by
  obtain ⟨_, named, live, _⟩ := resolve_rows resolved
  rw [← named] at live
  cases grant with
  | changeRole target newRole => exact iff_of_true (changed_contained answered) trivial
  | addMember target role =>
      rcases add_member_ok answered with
        ⟨existing, entry, found, unbanned, same⟩ | ⟨absent, entry, same⟩
      · exact readded_contained_iff live found unbanned same
      · exact added_contained_iff absent same

end Escalation

section Board

def stranger : User Nat :=
  { id := 3, phoneHash := 3, phoneLast4 := "0003", phoneCountry := "IN", displayName := "Cem",
    systemRole := .user, accountState := .active, deletedAt := none }

/-- A group of an owner and an admin. -/
def board : Tables Nat :=
  { users := stranger :: parties
    conversations := [{ id := 5, kind := .group, title := some "Board", createdBy := some 1,
                        updatedAt := 10 }]
    members := [{ conversationId := 5, userId := 1, role := .owner },
      { conversationId := 5, userId := 2, role := .admin }] }

def boardWorld : World Nat := ⟨⟨board, by decide⟩, emptyStore⟩

def adminAccess : Access Nat :=
  { user := parties[1], conversation := board.conversations[0]
    membership := some { conversationId := 5, userId := 2, role := .admin }
    permissions := roleGrants .admin }

theorem admin_resolved : resolveAccess boardWorld.database.toTables parties[1] 0 5 =
    .ok adminAccess := rfl

/-- The admin takes the stranger in. -/
theorem stranger_added : ∀ role ∈ [MemberRole.member, .admin], ∃ next,
    (Grant.addMember 3 role).perform boardWorld adminAccess = (.ok (), next) := by
  intro role member
  have done : ((Grant.addMember 3 role).perform boardWorld adminAccess).1 = .ok () := by
    rcases List.mem_cons.mp member with rfl | peer
    · rfl
    · rw [List.mem_singleton.mp peer]
      rfl
  exact ⟨_, Prod.ext done rfl⟩

theorem newcomer_contained : ∃ next,
    (Grant.addMember 3 .member).perform boardWorld adminAccess = (.ok (), next) ∧
      (Contained boardWorld.database.toTables next.database.toTables adminAccess
          (.addMember 3 .member) ↔
        (Grant.addMember 3 .member).Sound boardWorld.database.toTables adminAccess) := by
  obtain ⟨next, answered⟩ := stranger_added .member (by decide)
  exact ⟨next, answered, contained_iff boardWorld next parties[1] 5 0 adminAccess
    (.addMember 3 .member) admin_resolved answered⟩

/-- An admin makes a stranger its peer. -/
theorem peer_added :
    ¬∀ (world next : World Nat) (actor : User Nat) (place : Uuid) (now : Time) (access : Access Nat)
      (grant : Grant), actor ∈ world.database.users →
      resolveAccess world.database.toTables actor now place = .ok access →
      grant.perform world access = (.ok (), next) →
      Contained world.database.toTables next.database.toTables access grant := by
  intro always
  obtain ⟨next, answered⟩ := stranger_added .admin (by decide)
  obtain ⟨row, role, found, own, lower⟩ := (always boardWorld next parties[1] 5 0 adminAccess
    (.addMember 3 .admin) (by decide) admin_resolved answered).below
  have added : addMember boardWorld adminAccess 3 .admin = (.ok (), next) := answered
  obtain ⟨existing, _, old, _⟩ | ⟨_, entry, same⟩ := add_member_ok added
  · cases old
  · rw [same] at found
    obtain rfl : role = .admin := (Option.some.inj own).symm
    have peer : row.role = .admin := by
      cases found
      rfl
    rw [peer] at lower
    exact absurd lower (Nat.lt_irrefl _)

end Board

end RunnerupChat.Conversations
