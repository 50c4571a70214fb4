import RunnerupChat.Authz

/-!
What `resolve_access` grants, rule by rule: when it answers, with which error
it refuses, and where a single permission comes from.
-/

namespace RunnerupChat.Authz

open Accounts UniqueKeys
open MessageStore (MemberState Message)

section Lists

@[simp] theorem mem_without (granted removed : List Permission) (permission : Permission) :
    permission ∈ without granted removed ↔ permission ∈ granted ∧ permission ∉ removed := by
  simp [without]

theorem mem_discarded (entries : List (Permission × (Conversation → MemberRole)))
    (conversation : Conversation) (role : MemberRole) (granted : List Permission)
    (permission : Permission) :
    permission ∈ entries.foldl (fun granted entry =>
        if role.rank < (entry.2 conversation).rank then without granted [entry.1] else granted)
        granted ↔
      permission ∈ granted ∧ ∀ entry ∈ entries, entry.1 = permission →
        (entry.2 conversation).rank ≤ role.rank := by
  induction entries generalizing granted with
  | nil => simp
  | cons entry rest ih =>
      rw [List.foldl_cons, ih, List.forall_mem_cons, ← and_assoc]
      apply and_congr_left
      intro _
      by_cases low : role.rank < (entry.2 conversation).rank
      · rw [if_pos low, mem_without, List.mem_singleton]
        exact and_congr_right fun _ =>
          ⟨fun other same => absurd same.symm other, fun enough same =>
            absurd (enough same.symm) (by omega)⟩
      · rw [if_neg low]
        exact ⟨fun member => ⟨member, fun _ => by omega⟩, fun both => both.1⟩

/-- A policy only takes away the permission it is for. -/
theorem mem_narrowed (conversation : Conversation) (role : MemberRole)
    (granted : List Permission) (permission : Permission) :
    permission ∈ narrowed conversation role granted ↔
      permission ∈ granted ∧ ∀ entry ∈ policyForPermission, entry.1 = permission →
        (entry.2 conversation).rank ≤ role.rank :=
  mem_discarded policyForPermission conversation role granted permission

theorem every_role_reads (role : MemberRole) : .readMessages ∈ roleGrants role := by
  cases role <;> decide

/-- No conversation role reaches a power over the platform. -/
theorem role_grants_no_platform (role : MemberRole) {permission : Permission}
    (platform : permission ∈ platformPermissions) : permission ∉ roleGrants role := by
  revert permission
  cases role <;> decide

theorem system_grants_platform (role : SystemRole) {permission : Permission}
    (granted : permission ∈ systemGrants role) : permission ∈ platformPermissions := by
  revert permission
  cases role <;> decide

end Lists

section Standing
variable {conversation : Conversation} {membership : Option ConversationMember} {now : Time}

/-- The membership that counts: one that was not left. -/
def Current (membership : Option ConversationMember) (row : ConversationMember) : Prop :=
  membership = some row ∧ row.leftAt = none

theorem current_iff (row : ConversationMember) :
    membership.filter (fun row => row.leftAt.isNone) = some row ↔ Current membership row := by
  simp [Current, Option.filter_eq_some_iff]

theorem standing_error {error : AppError} (refused : standing conversation membership now = .error error) :
    error = .notVisible "not_found" := by
  unfold standing at refused
  split at refused
  · split at refused
    · cases refused
      rfl
    · cases refused
  · split at refused
    · cases refused
    · cases refused
      rfl

/-- The permissions of a current member. -/
def memberGrants (conversation : Conversation) (row : ConversationMember) (now : Time) :
    List Permission :=
  narrowed conversation row.role
    (if row.isSilenced now then
      without (roleGrants row.role) [.sendMessage, .editOwnMessage, .pinMessage, .addMember]
    else roleGrants row.role)

theorem standing_member {row : ConversationMember} (current : Current membership row) :
    standing conversation membership now =
      if row.state = .banned then .error (.notVisible "not_found")
      else .ok (memberGrants conversation row now) := by
  unfold standing memberGrants
  rw [(current_iff row).mpr current]

theorem standing_outsider (outside : ∀ row, ¬Current membership row) :
    standing conversation membership now =
      if conversation.visibility = .isPublic then .ok [.readMessages]
      else .error (.notVisible "not_found") := by
  unfold standing
  have missing : membership.filter (fun row => row.leftAt.isNone) = none := by
    rw [Option.eq_none_iff_forall_ne_some]
    intro row found
    exact outside row ((current_iff row).mp found)
  rw [missing]

theorem standing_cases (membership : Option ConversationMember) :
    (∃ row, Current membership row) ∨ ∀ row, ¬Current membership row := by
  by_cases current : ∃ row, Current membership row
  · exact Or.inl current
  · exact Or.inr fun row here => current ⟨row, here⟩

theorem mem_memberGrants (row : ConversationMember) (permission : Permission) :
    permission ∈ memberGrants conversation row now ↔
      permission ∈ roleGrants row.role ∧
        (row.isSilenced now = true →
          permission ∉ [Permission.sendMessage, .editOwnMessage, .pinMessage, .addMember]) ∧
        ∀ entry ∈ policyForPermission, entry.1 = permission →
          (entry.2 conversation).rank ≤ row.role.rank := by
  unfold memberGrants
  rw [mem_narrowed, ← and_assoc]
  apply and_congr_left
  intro _
  by_cases silenced : row.isSilenced now = true
  · simp [silenced]
  · simp [silenced]

/-- All that a standing can be: what a current, unbanned member is granted, or
reading in public. -/
theorem standing_granted {granted : List Permission}
    (answered : standing conversation membership now = .ok granted) :
    (∃ row, Current membership row ∧ row.state ≠ .banned ∧
        granted = memberGrants conversation row now) ∨
      conversation.visibility = .isPublic ∧ granted = [.readMessages] := by
  rcases standing_cases membership with ⟨row, current⟩ | outside
  · rw [standing_member current] at answered
    split at answered
    · cases answered
    · next unbanned => exact Or.inl ⟨row, current, unbanned, (Except.ok.inj answered).symm⟩
  · rw [standing_outsider outside] at answered
    split at answered
    · next isPublic => exact Or.inr ⟨isPublic, (Except.ok.inj answered).symm⟩
    · cases answered

/-- Whoever has a standing may read. -/
theorem standing_reads {granted : List Permission}
    (answered : standing conversation membership now = .ok granted) : .readMessages ∈ granted := by
  rcases standing_granted answered with ⟨row, _, _, rfl⟩ | ⟨_, rfl⟩
  · rw [mem_memberGrants]
    refine ⟨every_role_reads row.role, fun _ => by decide, ?_⟩
    simp [policyForPermission]
  · exact List.mem_singleton_self _

theorem standing_no_platform {granted : List Permission} {permission : Permission}
    (answered : standing conversation membership now = .ok granted)
    (platform : permission ∈ platformPermissions) : permission ∉ granted := by
  rcases standing_granted answered with ⟨row, _, _, rfl⟩ | ⟨_, rfl⟩
  · rw [mem_memberGrants]
    exact fun found => role_grants_no_platform row.role platform found.1
  · revert permission
    decide

end Standing

section Resolution
variable {Digest : Type} {tables : Tables Digest} {user : User Digest} {now : Time} {id : Uuid}

theorem find_conversation_some {conversation : Conversation}
    (found : findConversation tables id = some conversation) :
    conversation ∈ tables.conversations ∧ conversation.id = id ∧ conversation.deletedAt = none := by
  have holds := List.find?_some found
  simp only [Bool.and_eq_true, beq_iff_eq, Option.isNone_iff_eq_none] at holds
  exact ⟨List.mem_of_find?_eq_some found, holds⟩

/-- Under the unique key the live conversation is the only row of its id. -/
theorem find_conversation_of_mem (distinct : tables.conversationIds.Nodup)
    {conversation : Conversation} (member : conversation ∈ tables.conversations)
    (live : conversation.deletedAt = none) :
    findConversation tables conversation.id = some conversation := by
  cases found : findConversation tables conversation.id with
  | none =>
      have missed := List.find?_eq_none.mp found conversation member
      simp [live] at missed
  | some other =>
      obtain ⟨there, same, _⟩ := find_conversation_some found
      rw [same_row Conversation.id distinct there member same]

theorem find_member_some {conversation person : Uuid} {row : ConversationMember}
    (found : findMember tables conversation person = some row) :
    row ∈ tables.members ∧ row.key = (conversation, person) :=
  ⟨List.mem_of_find?_eq_some found, by simpa using List.find?_some found⟩

theorem find_member_none {place person : Uuid} (absent : findMember tables place person = none) :
    (place, person) ∉ tables.members.map ConversationMember.key := by
  intro member
  obtain ⟨row, listed, named⟩ := List.mem_map.mp member
  have missed := List.find?_eq_none.mp absent row listed
  simp [named] at missed

theorem find_member_of_mem (distinct : (tables.members.map ConversationMember.key).Nodup)
    {row : ConversationMember} (member : row ∈ tables.members) :
    findMember tables row.conversationId row.userId = some row :=
  find_member ConversationMember.key distinct member

theorem mem_restrained (conversation : Conversation) (person : Uuid) (granted : List Permission)
    {permission : Permission}
    (apart : permission ∉ [Permission.sendMessage, .editOwnMessage, .pinMessage]) :
    permission ∈ restrained tables conversation person granted ↔ permission ∈ granted := by
  simp only [List.mem_cons, List.not_mem_nil, or_false, not_or] at apart
  simp only [restrained]
  split <;> split <;> simp [apart]

theorem restrained_subset (conversation : Conversation) (person : Uuid)
    (granted : List Permission) : restrained tables conversation person granted ⊆ granted := by
  intro permission
  simp only [restrained]
  split <;> split <;> simp +contextual

/-- Everything an answer of `resolve_access` depends on. -/
theorem resolve_ok_iff (access : Access Digest) :
    resolveAccess tables user now id = .ok access ↔
      user.isUsable = true ∧ ∃ conversation granted,
        findConversation tables id = some conversation ∧
        standing conversation (findMember tables conversation.id user.id) now = .ok granted ∧
        access = ⟨user, conversation, findMember tables conversation.id user.id,
          restrained tables conversation user.id granted ++ systemGrants user.systemRole⟩ := by
  unfold resolveAccess
  cases usable : user.isUsable with
  | false => simp
  | true =>
      cases found : findConversation tables id with
      | none => simp
      | some conversation =>
          cases answered : standing conversation (findMember tables conversation.id user.id) now with
          | error error => simp [answered]
          | ok granted => simp [answered, eq_comm]

/-- The rows an access was resolved from. -/
theorem resolve_rows {access : Access Digest}
    (resolved : resolveAccess tables user now id = .ok access) :
    access.user = user ∧ access.conversation.id = id ∧
      findConversation tables id = some access.conversation ∧
      access.membership = findMember tables id user.id := by
  obtain ⟨_, conversation, _, found, _, rfl⟩ := (resolve_ok_iff access).mp resolved
  have named := (find_conversation_some found).2.1
  exact ⟨rfl, named, found, by rw [named]⟩

theorem resolve_unusable (unusable : user.isUsable = false) :
    resolveAccess tables user now id = .error (.accountUnavailable "account_unavailable") := by
  simp [resolveAccess, unusable]

/-- A usable account is refused with one error, whatever the reason. -/
theorem resolve_refused (usable : user.isUsable = true) {error : AppError}
    (refused : resolveAccess tables user now id = .error error) :
    error = .notVisible "not_found" := by
  simp only [resolveAccess, usable, Bool.not_true, Bool.false_eq_true, if_false] at refused
  split at refused
  · cases refused
    rfl
  · split at refused
    · cases refused
      exact standing_error ‹_›
    · cases refused

theorem resolve_reads {access : Access Digest}
    (resolved : resolveAccess tables user now id = .ok access) :
    access.can .readMessages = true := by
  obtain ⟨_, conversation, granted, _, answered, rfl⟩ := (resolve_ok_iff access).mp resolved
  simp only [Access.can, List.contains_iff_mem, List.mem_append]
  left
  rw [mem_restrained conversation user.id granted (by decide)]
  exact standing_reads answered

/-- Whatever is more than reading, the powers over the platform apart, comes
from the role of a current, unbanned member. -/
theorem granted_by_role {access : Access Digest}
    (resolved : resolveAccess tables user now id = .ok access) {permission : Permission}
    (can : access.can permission = true) (apart : permission ∉ platformPermissions)
    (more : permission ≠ .readMessages) :
    ∃ row, Current access.membership row ∧ row.state ≠ .banned ∧
      permission ∈ memberGrants access.conversation row now := by
  obtain ⟨_, conversation, granted, _, answered, rfl⟩ := (resolve_ok_iff access).mp resolved
  simp only [Access.can, List.contains_iff_mem, List.mem_append] at can
  have inside : permission ∈ granted := by
    rcases can with kept | system
    · exact restrained_subset conversation user.id granted kept
    · exact absurd (system_grants_platform _ system) apart
  rcases standing_granted answered with ⟨row, current, unbanned, rfl⟩ | ⟨_, rfl⟩
  · exact ⟨row, current, unbanned, inside⟩
  · exact absurd (List.mem_singleton.mp inside) more

/-- `resolve_access` succeeds and grants READ_MESSAGES. -/
def Readable (tables : Tables Digest) (user : User Digest) (now : Time) (id : Uuid) : Prop :=
  ∃ access, resolveAccess tables user now id = .ok access ∧ access.can .readMessages = true

theorem readable_iff :
    Readable tables user now id ↔ user.isUsable = true ∧ ∃ conversation,
      findConversation tables id = some conversation ∧
      ∃ granted, standing conversation (findMember tables conversation.id user.id) now =
        .ok granted := by
  constructor
  · rintro ⟨access, resolved, _⟩
    obtain ⟨usable, conversation, granted, found, answered, _⟩ :=
      (resolve_ok_iff access).mp resolved
    exact ⟨usable, conversation, found, granted, answered⟩
  · rintro ⟨usable, conversation, found, granted, answered⟩
    have resolved := (resolve_ok_iff _).mpr ⟨usable, conversation, granted, found, answered, rfl⟩
    exact ⟨_, resolved, resolve_reads resolved⟩

end Resolution

end RunnerupChat.Authz
