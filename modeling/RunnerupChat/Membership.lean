import RunnerupChat.RowSchemas
import RunnerupChat.Runs

/-!
Runs of membership calls, each with the access that `resolve_access` gives at
that moment, and what a single call can do to the tables.
-/

namespace RunnerupChat.Conversations

open Accounts Authz RateLimit UniqueKeys
open MessageStore (strip)
open OtpLogin (AuditLog Failure)

inductive Call where
  | getOrCreateDirect (user other id : Uuid) (now : Time)
  | createGroup (user : Uuid) (request : GroupRequest) (id : Uuid) (now : Time) (nowMs : Nat)
  | addMember (user conversation newMember : Uuid) (role : MemberRole) (now : Time)
  | changeRole (user conversation member : Uuid) (newRole : MemberRole) (now : Time)
  | createInvite (user conversation : Uuid) (maxUses expiresInSeconds : Option Nat)
      (requiresApproval : Bool) (token : String) (now : Time) (nowMs : Nat)
  | redeemInvite (user : Uuid) (token : String) (now : Time)

def Call.user : Call → Uuid
  | .getOrCreateDirect user _ _ _ | .createGroup user _ _ _ _ | .addMember user _ _ _ _
  | .changeRole user _ _ _ _ | .createInvite user _ _ _ _ _ _ _ | .redeemInvite user _ _ => user

section Machine
variable {Digest : Type} [DecidableEq Digest] (sha256 : String → Digest)

/-- A call with the access of its user; without one it changes nothing. -/
def withAccess (world : World Digest) (user : User Digest) (conversation : Uuid) (now : Time)
    (call : Access Digest → World Digest) : World Digest :=
  match resolveAccess world.database.toTables user now conversation with
  | .error _ => world
  | .ok access => call access

def perform (world : World Digest) (user : User Digest) : Call → World Digest
  | .getOrCreateDirect _ other id now => (getOrCreateDirect world user other id now).2
  | .createGroup _ request id now nowMs => (createGroup world user request id now nowMs).2
  | .addMember _ conversation newMember role now =>
      withAccess world user conversation now fun access => (addMember world access newMember role).2
  | .changeRole _ conversation member newRole now =>
      withAccess world user conversation now fun access =>
        (changeRole world access member newRole).2
  | .createInvite _ conversation maxUses expiresIn requiresApproval token now nowMs =>
      withAccess world user conversation now fun access =>
        (createInvite sha256 world access maxUses expiresIn requiresApproval token now nowMs).2
  | .redeemInvite _ token now => (redeemInvite sha256 world user token now).2

/-- Calls are made by users the database knows. -/
def step (world : World Digest) (call : Call) : Option (World Digest) :=
  (world.database.users.find? fun row => row.id == call.user).map fun user =>
    perform sha256 world user call

omit [DecidableEq Digest] in
/-- The database before the first call: users who signed up, and nothing else. -/
def signedUp (users : List (User Digest)) (distinct : (users.map User.id).Nodup) : World Digest :=
  ⟨⟨{ users := users }, users_only_schema users distinct⟩, emptyStore⟩

/-- What a call leaves in the tables. -/
inductive Effect (before after : Tables Digest) : Call → Prop where
  | unchanged {call : Call} (same : after = before) : Effect before after call
  | direct {user other id : Uuid} {now : Time} (apart : other ≠ user)
      (same : after = withDirect before user other id now) :
      Effect before after (.getOrCreateDirect user other id now)
  | group {user : User Digest} {request : GroupRequest} {id : Uuid} {now : Time} {nowMs : Nat}
      {entry : AuditLog}
      (same : after = recordAudit (withOpened before (newGroup user request id now)
        (newGroupMembers before user request id)) entry) :
      Effect before after (.createGroup user.id request id now nowMs)
  | added {user : User Digest} {conversation : Conversation} {newMember : Uuid} {role : MemberRole}
      {now : Time} {entry : AuditLog}
      (live : findConversation before conversation.id = some conversation)
      (room : currentCount before conversation.id < conversation.memberLimit)
      (absent : findMember before conversation.id newMember = none) (lower : role ≠ .owner)
      (same : after = recordAudit (addMemberRow before
        { conversationId := conversation.id, userId := newMember, role := role,
          invitedBy := some user.id }) entry) :
      Effect before after (.addMember user.id conversation.id newMember role now)
  | addedBack {user : User Digest} {conversation : Conversation} {newMember : Uuid}
      {role : MemberRole} {now : Time} {entry : AuditLog} {existing : ConversationMember}
      (live : findConversation before conversation.id = some conversation)
      (room : currentCount before conversation.id < conversation.memberLimit)
      (found : findMember before conversation.id newMember = some existing)
      (unbanned : existing.state ≠ .banned)
      (same : after = recordAudit (updateMember before existing.key rejoined) entry) :
      Effect before after (.addMember user.id conversation.id newMember role now)
  | ranked {user : User Digest} {conversation : Conversation} {member : Uuid}
      {newRole : MemberRole} {now : Time} {entry : AuditLog} {existing : ConversationMember}
      (found : findMember before conversation.id member = some existing)
      (same : after = recordAudit
        (updateMember before existing.key fun row => { row with role := newRole }) entry) :
      Effect before after (.changeRole user.id conversation.id member newRole now)
  | invited {user conversation : Uuid} {maxUses expiresIn : Option Nat} {requiresApproval : Bool}
      {token : String} {now : Time} {nowMs : Nat} {invite : InviteLink Digest} {entry : AuditLog}
      (same : after = recordAudit (withInvite before invite) entry) :
      Effect before after
        (.createInvite user conversation maxUses expiresIn requiresApproval token now nowMs)
  | joined {user : User Digest} {token : String} {now : Time} {invite : InviteLink Digest}
      {conversation : Conversation} {entry : AuditLog}
      (opened : findInvite sha256 before user.id token now = some (invite, conversation))
      (absent : findMember before conversation.id user.id = none)
      (same : after = recordAudit (redeemed (addMemberRow before
        { conversationId := conversation.id, userId := user.id,
          role := joiningRole conversation.kind }) invite) entry) :
      Effect before after (.redeemInvite user.id token now)
  | joinedBack {user : User Digest} {token : String} {now : Time} {invite : InviteLink Digest}
      {conversation : Conversation} {entry : AuditLog} {existing : ConversationMember}
      (opened : findInvite sha256 before user.id token now = some (invite, conversation))
      (found : findMember before conversation.id user.id = some existing)
      (same : after = recordAudit (redeemed (updateMember before existing.key rejoined) invite)
        entry) :
      Effect before after (.redeemInvite user.id token now)

end Machine

section Inversion
variable {Digest : Type} [DecidableEq Digest] {sha256 : String → Digest} {world : World Digest}
  {user : User Digest}

theorem commit_cases {Answer : Type} (world : World Digest) (tables : Tables Digest)
    (answer : Answer) :
    (commit world tables answer).2 = world ∨
      (commit world tables answer).2.database.toTables = tables := by
  unfold commit
  split
  · exact Or.inr rfl
  · exact Or.inl rfl

/-- A commit has the effect of its rows, or none. -/
theorem commit_effect {Answer : Type} {call : Call} {limiter : Store} {tables : Tables Digest}
    {answer : Answer} (effect : Effect sha256 world.database.toTables tables call) :
    Effect sha256 world.database.toTables
      (commit { world with limiter := limiter } tables answer).2.database.toTables call := by
  rcases commit_cases { world with limiter := limiter } tables answer with same | same
  · rw [same]
    exact .unchanged rfl
  · rw [same]
    exact effect

theorem open_direct_cases (world : World Digest) (person other id : Uuid) (now : Time) :
    (openDirect world person other id now).2 = world ∨
      (openDirect world person other id now).2.database.toTables =
        withDirect world.database.toTables person other id now := by
  simp only [openDirect]
  split
  · have outcome := commit_cases world (withDirect world.database.toTables person other id now)
      (newDirect person id now)
    rcases result : commit world (withDirect world.database.toTables person other id now)
      (newDirect person id now) with ⟨answer, next⟩
    rw [result] at outcome
    cases answer with
    | ok conversation => exact outcome
    | error failure =>
        cases findDirect world.database.toTables (min person other) (max person other) with
        | some winner => exact outcome
        | none => exact outcome
  · exact Or.inl rfl

theorem direct_effect (other id : Uuid) (now : Time) :
    Effect sha256 world.database.toTables
      (getOrCreateDirect world user other id now).2.database.toTables
      (.getOrCreateDirect user.id other id now) := by
  simp only [getOrCreateDirect]
  by_cases own : other = user.id
  · rw [if_pos own]
    exact .unchanged rfl
  · rw [if_neg own]
    split
    · exact .unchanged rfl
    · split
      · exact .unchanged rfl
      · split
        · exact .unchanged rfl
        · rcases open_direct_cases world user.id other id now with same | same
          · rw [same]
            exact .unchanged rfl
          · exact .direct own same

theorem group_effect (request : GroupRequest) (id : Uuid) (now : Time) (nowMs : Nat) :
    Effect sha256 world.database.toTables
      (createGroup world user request id now nowMs).2.database.toTables
      (.createGroup user.id request id now nowMs) := by
  simp only [createGroup]
  split
  · exact .unchanged rfl
  · split
    · exact .unchanged rfl
    · split
      · exact .unchanged rfl
      · exact commit_effect (.group rfl)

variable {access : Access Digest}

/-- A call whose access is refused does nothing; any other has the access of
its user to a live conversation. -/
theorem with_access_effect {conversation : Uuid} {now : Time} {call : Call}
    {thereafter : Access Digest → World Digest}
    (granted : ∀ access : Access Digest, access.user = user →
      access.conversation.id = conversation →
      findConversation world.database.toTables conversation = some access.conversation →
      Effect sha256 world.database.toTables (thereafter access).database.toTables call) :
    Effect sha256 world.database.toTables
      (withAccess world user conversation now thereafter).database.toTables call := by
  unfold withAccess
  cases resolved : resolveAccess world.database.toTables user now conversation with
  | error error => exact .unchanged rfl
  | ok access =>
      obtain ⟨person, place, live, _⟩ := resolve_rows resolved
      exact granted access person place live

theorem add_effect {now : Time} (newMember : Uuid) (role : MemberRole)
    (live : findConversation world.database.toTables access.conversation.id =
      some access.conversation) :
    Effect sha256 world.database.toTables (addMember world access newMember role).2.database.toTables
      (.addMember access.user.id access.conversation.id newMember role now) := by
  simp only [addMember]
  split
  · exact .unchanged rfl
  · split
    · exact .unchanged rfl
    · split
      · exact .unchanged rfl
      · rename_i lower room
        cases found : findMember world.database.toTables access.conversation.id newMember with
        | none => exact commit_effect (.added live (by omega) found lower rfl)
        | some existing =>
            by_cases banned : existing.state = .banned
            · simp only [banned, if_true]
              exact .unchanged rfl
            · simp only [banned, if_false]
              exact commit_effect (.addedBack live (by omega) found banned rfl)

/-- `change_role` changes nothing, or one role, by someone who outranks both
the old role and the new one. -/
theorem change_role_cases (access : Access Digest) (member : Uuid) (newRole : MemberRole) :
    (changeRole world access member newRole).2 = world ∨
      access.can .manageRoles = true ∧
        newRole.rank < (access.role.map MemberRole.rank).getD 0 ∧
        ∃ existing entry,
          findMember world.database.toTables access.conversation.id member = some existing ∧
          existing.role.rank < (access.role.map MemberRole.rank).getD 0 ∧
          (changeRole world access member newRole).2.database.toTables =
            recordAudit (updateMember world.database.toTables existing.key
              fun row => { row with role := newRole }) entry := by
  simp only [changeRole]
  split
  · exact Or.inl rfl
  · rename_i permitted
    split
    · exact Or.inl rfl
    · rename_i below
      cases found : findMember world.database.toTables access.conversation.id member with
      | none => exact Or.inl rfl
      | some existing =>
          simp only
          split
          · exact Or.inl rfl
          · rename_i lower
            refine (commit_cases world _ _).imp_right fun same => ?_
            exact ⟨by simpa using permitted, by omega, existing, _, rfl, by omega, same⟩

theorem role_effect {now : Time} (member : Uuid) (newRole : MemberRole) :
    Effect sha256 world.database.toTables (changeRole world access member newRole).2.database.toTables
      (.changeRole access.user.id access.conversation.id member newRole now) := by
  rcases change_role_cases access member newRole with
    same | ⟨_, _, existing, entry, found, _, same⟩
  · rw [same]
    exact .unchanged rfl
  · exact .ranked found same

theorem invite_effect (conversation : Uuid) (maxUses expiresIn : Option Nat)
    (requiresApproval : Bool) (token : String) (now : Time) (nowMs : Nat) :
    Effect sha256 world.database.toTables (createInvite sha256 world access maxUses expiresIn
        requiresApproval token now nowMs).2.database.toTables
      (.createInvite access.user.id conversation maxUses expiresIn requiresApproval token now
        nowMs) := by
  simp only [createInvite]
  split
  · exact .unchanged rfl
  · split
    · exact .unchanged rfl
    · exact commit_effect (.invited rfl)

theorem redeem_effect (token : String) (now : Time) :
    Effect sha256 world.database.toTables
      (redeemInvite sha256 world user token now).2.database.toTables
      (.redeemInvite user.id token now) := by
  simp only [redeemInvite]
  cases opened : findInvite sha256 world.database.toTables user.id token now with
  | none => exact .unchanged rfl
  | some pair =>
      obtain ⟨invite, conversation⟩ := pair
      cases found : findMember world.database.toTables conversation.id user.id with
      | none =>
          simp only [found]
          exact commit_effect (.joined opened found rfl)
      | some existing =>
          simp only [found]
          exact commit_effect (.joinedBack opened found rfl)

theorem step_effect {next : World Digest} {call : Call} (taken : step sha256 world call = some next) :
    Effect sha256 world.database.toTables next.database.toTables call := by
  obtain ⟨user, found, rfl⟩ := Option.map_eq_some_iff.mp taken
  have named : user.id = call.user := by simpa using List.find?_some found
  cases call with
  | getOrCreateDirect person other id now =>
      obtain rfl : user.id = person := named
      exact direct_effect other id now
  | createGroup person request id now nowMs =>
      obtain rfl : user.id = person := named
      exact group_effect request id now nowMs
  | addMember person conversation newMember role now =>
      obtain rfl : user.id = person := named
      apply with_access_effect
      rintro access rfl rfl live
      exact add_effect newMember role live
  | changeRole person conversation member newRole now =>
      obtain rfl : user.id = person := named
      apply with_access_effect
      rintro access rfl rfl _
      exact role_effect member newRole
  | createInvite person conversation maxUses expiresIn requiresApproval token now nowMs =>
      obtain rfl : user.id = person := named
      apply with_access_effect
      rintro access rfl _ _
      exact invite_effect conversation maxUses expiresIn requiresApproval token now nowMs
  | redeemInvite person token now =>
      obtain rfl : user.id = person := named
      exact redeem_effect token now

end Inversion

section Redemption
variable {Digest : Type} [DecidableEq Digest] {sha256 : String → Digest} {tables : Tables Digest}
  {person : Uuid} {token : String} {now : Time} {invite : InviteLink Digest}
  {conversation : Conversation}

/-- Whoever has no row yet and a token that opens a link is taken in, unless
the counter of the link is at its end. -/
theorem redeem_joins {world next : World Digest}
    (taken : step sha256 world (.redeemInvite person token now) = some next)
    (opened : findInvite sha256 world.database.toTables person token now =
      some (invite, conversation))
    (absent : findMember world.database.toTables conversation.id person = none)
    (countable : invite.useCount < integerMax) :
    ∃ entry, next.database.toTables = recordAudit (redeemed (addMemberRow world.database.toTables
      { conversationId := conversation.id, userId := person,
        role := joiningRole conversation.kind }) invite) entry := by
  obtain ⟨user, found, rfl⟩ := Option.map_eq_some_iff.mp taken
  obtain rfl : user.id = person := by simpa [Call.user] using List.find?_some found
  obtain ⟨listed, _, unspent, live, _⟩ := invite_opened opened
  have place := (find_conversation_some live).1
  have known : user.id ∈ world.database.userIds :=
    List.mem_map_of_mem (List.mem_of_find?_eq_some found)
  have schema : Schema (addMemberRow world.database.toTables
      { conversationId := conversation.id, userId := user.id,
        role := joiningRole conversation.kind }) :=
    member_row_schema world.database.schema (find_member_none absent)
      ⟨List.mem_map_of_mem place, known, by simp⟩ (joining_role_lower _)
  simp only [perform, redeemInvite, opened, absent, commit,
    dif_pos (audited_schema (redeemed_schema schema listed unspent countable) _)]
  exact ⟨_, rfl⟩

end Redemption

section Successes
variable {Digest : Type} [DecidableEq Digest] {sha256 : String → Digest} (world : World Digest)
  {limiter : Store} {nowMs : Nat}

/-- A committed call that stores these rows. -/
theorem commit_stores {Answer : Type} {tables : Tables Digest} (schema : Schema tables) (answer : Answer) :
    (commit world tables answer).2 = { world with database := ⟨tables, schema⟩ } := by
  unfold commit
  rw [dif_pos schema]

/-- A group whose rows break no constraint is created. -/
theorem group_commits (user : User Digest) (request : GroupRequest) (id : Uuid) (now : Time)
    (charged : enforceLimit world.limiter .conversationCreateUser (toString user.id) nowMs =
      (.ok (), limiter))
    (title : strip request.title ≠ "" ∧ request.title.length ≤ 128)
    (slug : ¬(request.visibility = .isPublic ∧ (request.slug.all fun slug => slug == "") = true))
    (schema : Schema (withOpened world.database.toTables (newGroup user request id now)
      (newGroupMembers world.database.toTables user request id))) :
    ∃ entry, (createGroup world user request id now nowMs).2.database.toTables =
        recordAudit (withOpened world.database.toTables (newGroup user request id now)
          (newGroupMembers world.database.toTables user request id)) entry ∧
      (createGroup world user request id now nowMs).2.limiter = limiter := by
  have fits : ¬(strip request.title = "" ∨ 128 < request.title.length) := by
    rintro (blank | long)
    · exact title.1 blank
    · omega
  simp only [createGroup, charged, if_neg fits, if_neg slug]
  rw [commit_stores _ (audited_schema schema _)]
  exact ⟨_, rfl, rfl⟩

/-- A link whose row breaks no constraint is created. -/
theorem invite_commits (access : Access Digest) {maxUses expiresIn : Option Nat}
    {requiresApproval : Bool} {token : String} {now : Time} (permitted : access.can .manageInvites = true)
    (charged : enforceLimit world.limiter .inviteCreateUser (toString access.user.id) nowMs =
      (.ok (), limiter))
    (schema : Schema (withInvite world.database.toTables
      (newInvite sha256 access maxUses expiresIn requiresApproval token now))) :
    ∃ entry, (createInvite sha256 world access maxUses expiresIn requiresApproval token now
        nowMs).2.database.toTables = recordAudit (withInvite world.database.toTables
          (newInvite sha256 access maxUses expiresIn requiresApproval token now)) entry := by
  simp only [createInvite, permitted, charged, Bool.not_true, Bool.false_eq_true, if_false]
  rw [commit_stores _ (audited_schema schema _)]
  exact ⟨_, rfl⟩

end Successes

end RunnerupChat.Conversations
