import RunnerupChat.ContentReads

/-!
A system role is no key to content. Two database states that differ in the
system role of one user answer that user alike on every path that releases or
changes content; only the four powers over the platform follow the role.
-/

namespace RunnerupChat.Authz

open Accounts RateLimit
open MessageStore (Message MessageOut serialize)

section Agreement
variable {Answer Result : Type}

/-- Two calls end in the same error, or in answers that are alike. -/
inductive Agree (alike : Answer → Answer → Prop) :
    Except AppError Answer → Except AppError Answer → Prop where
  | refused (error : AppError) : Agree alike (.error error) (.error error)
  | answered {one other : Answer} (same : alike one other) : Agree alike (.ok one) (.ok other)

theorem agree_bind {alike : Answer → Answer → Prop} {related : Result → Result → Prop}
    {left right : Except AppError Answer} (agree : Agree alike left right)
    {next thereafter : Answer → Except AppError Result}
    (onward : ∀ one other, alike one other → Agree related (next one) (thereafter other)) :
    Agree related (left >>= next) (right >>= thereafter) := by
  cases agree with
  | refused error => exact .refused error
  | answered same => exact onward _ _ same

theorem agree_eq {left right : Except AppError Answer} (agree : Agree (· = ·) left right) :
    left = right := by
  cases agree with
  | refused error => rfl
  | answered same => rw [same]

theorem agree_refl (answer : Except AppError Answer) : Agree (· = ·) answer answer := by
  cases answer with
  | error error => exact .refused error
  | ok value => exact .answered rfl

end Agreement

section Accesses
variable {Digest : Type}

/-- Two accesses of one user that differ in powers over the platform at most. -/
structure Alike (one other : Access Digest) : Prop where
  person : one.user.id = other.user.id
  conversation : one.conversation = other.conversation
  membership : one.membership = other.membership
  apart : ∀ permission, permission ∉ platformPermissions →
    one.can permission = other.can permission

def Tables.withSystemRole (tables : Tables Digest) (person : Uuid) (role : SystemRole) :
    Tables Digest :=
  { tables with users := tables.users.map fun row =>
      if row.id = person then { row with systemRole := role } else row }

theorem with_role_ids (tables : Tables Digest) (person : Uuid) (role : SystemRole) :
    (tables.withSystemRole person role).userIds = tables.userIds := by
  unfold Tables.userIds Tables.withSystemRole
  rw [List.map_map]
  apply List.map_congr_left
  intro row _
  simp only [Function.comp]
  split <;> rfl

/-- The same rows but for the system role of one user. -/
def Database.withSystemRole (database : Database Digest) (person : Uuid) (role : SystemRole) :
    Database Digest where
  toTables := database.toTables.withSystemRole person role
  schema := by
    have ids := with_role_ids database.toTables person role
    have schema := database.schema
    exact {
      schema with
      users := ids ▸ schema.users
      creators := ids ▸ schema.creators
      directKeysRefer := ids ▸ schema.directKeysRefer
      membersRefer := ids ▸ schema.membersRefer
      blocksRefer := ids ▸ schema.blocksRefer
      invitesRefer := ids ▸ schema.invitesRefer
      requestsRefer := ids ▸ schema.requestsRefer
      messagesRefer := ids ▸ schema.messagesRefer
      attachmentsRefer := ids ▸ schema.attachmentsRefer }

variable (tables : Tables Digest) (user : User Digest) (now : Time)

theorem resolve_agrees (role : SystemRole) (id : Uuid) :
    Agree Alike (resolveAccess tables user now id)
      (resolveAccess tables { user with systemRole := role } now id) := by
  unfold resolveAccess
  have usable : User.isUsable { user with systemRole := role } = user.isUsable := rfl
  rw [usable]
  cases user.isUsable with
  | false => exact .refused _
  | true =>
      cases findConversation tables id with
      | none => exact .refused _
      | some conversation =>
          simp only [Bool.not_true, Bool.false_eq_true, if_false]
          cases standing conversation (findMember tables conversation.id user.id) now with
          | error error => exact .refused error
          | ok granted =>
              refine .answered ⟨rfl, rfl, rfl, fun permission apart => ?_⟩
              have absent : ∀ role : SystemRole, permission ∉ systemGrants role :=
                fun role found => apart (system_grants_platform role found)
              simp [Access.can, absent]

/-- The powers over the platform come from the table of system roles alone. -/
theorem platform_from_table {id : Uuid} {access : Access Digest}
    (resolved : resolveAccess tables user now id = .ok access) {permission : Permission}
    (platform : permission ∈ platformPermissions) :
    access.can permission = (systemGrants user.systemRole).contains permission := by
  obtain ⟨_, conversation, granted, _, answered, rfl⟩ := (resolve_ok_iff access).mp resolved
  have absent : permission ∉ restrained tables conversation user.id granted :=
    fun found => standing_no_platform answered platform (restrained_subset _ _ _ found)
  simp [Access.can, absent]

/-- The gate of the moderation routes and the access of a conversation grant the
same powers over the platform. -/
theorem system_permission_iff {id : Uuid} {access : Access Digest}
    (resolved : resolveAccess tables user now id = .ok access) {permission : Permission}
    (platform : permission ∈ platformPermissions) :
    requireSystemPermission user permission = .ok () ↔ access.can permission = true := by
  rw [platform_from_table tables user now resolved platform]
  unfold requireSystemPermission
  split <;> simp_all

theorem require_agrees {one other : Access Digest} (alike : Alike one other)
    {permission : Permission} (apart : permission ∉ platformPermissions) :
    Agree (· = ·) (one.require permission) (other.require permission) := by
  unfold Access.require
  rw [alike.apart permission apart]
  exact agree_refl _

theorem modify_alike {one other : Access Digest} (alike : Alike one other) (message : Message) :
    canModifyMessage one message = canModifyMessage other message := by
  have edits := alike.apart .editOwnMessage (by decide)
  unfold Access.can at edits
  simp only [canModifyMessage, MessageStore.canModifyMessage, Access.granted,
    MessageStore.Access.can, alike.person, edits]

theorem delete_alike {one other : Access Digest} (alike : Alike one other) (message : Message) :
    canDeleteMessage one message = canDeleteMessage other message := by
  have own := alike.apart .deleteOwnMessage (by decide)
  have any := alike.apart .deleteAnyMessage (by decide)
  unfold Access.can at own any
  simp only [canDeleteMessage, MessageStore.canDeleteMessage, Access.granted,
    MessageStore.Access.can, alike.person, own, any]

end Accesses

section Answers
variable {Digest : Type} (searchMatches : String → String → Bool)
  (signedDownloadUrl : String → String → String)

/-- One user's answers in two states: `one` in the left, `other` in the right. -/
structure SameAnswers (left right : Tables Digest) (one other : User Digest) : Prop where
  access : ∀ now id, Agree Alike (resolveAccess left one now id) (resolveAccess right other now id)
  platform : ∀ now id (access : Access Digest), (resolveAccess left one now id = .ok access →
      ∀ permission ∈ platformPermissions,
        access.can permission = (systemGrants one.systemRole).contains permission) ∧
    (resolveAccess right other now id = .ok access → ∀ permission ∈ platformPermissions,
        access.can permission = (systemGrants other.systemRole).contains permission)
  list : ∀ now id beforeSeq afterSeq limit,
    (resolveAccess left one now id >>= fun access =>
        listMessages left access beforeSeq afterSeq limit) =
      resolveAccess right other now id >>= fun access =>
        listMessages right access beforeSeq afterSeq limit
  search : ∀ limiter nowMs query filter limit scan,
    searchMessages searchMatches left limiter nowMs one query filter limit scan =
      searchMessages searchMatches right limiter nowMs other query filter limit scan
  sync : ∀ now afterId limit,
    syncEvents left one now afterId limit = syncEvents right other now afterId limit
  download : ∀ now target, downloadUrl signedDownloadUrl left one now target =
    downloadUrl signedDownloadUrl right other now target
  subscribe : ∀ now id, handleSubscribe left one.id now id = handleSubscribe right other.id now id
  edits : ∀ now id,
    (resolveMessageAccess left one now id).map (fun (message, access) =>
        (message, canModifyMessage access message, canDeleteMessage access message)) =
      (resolveMessageAccess right other now id).map fun (message, access) =>
        (message, canModifyMessage access message, canDeleteMessage access message)

variable {searchMatches} {signedDownloadUrl} (tables : Tables Digest) (user : User Digest)
  (role : SystemRole)

theorem list_agrees (now : Time) (id : Uuid) (beforeSeq afterSeq : Option Nat) (limit : Nat) :
    (resolveAccess tables user now id >>= fun access =>
        listMessages tables access beforeSeq afterSeq limit) =
      resolveAccess tables { user with systemRole := role } now id >>= fun access =>
        listMessages tables access beforeSeq afterSeq limit := by
  apply agree_eq
  apply agree_bind (resolve_agrees tables user now role id)
  intro one other alike
  unfold listMessages
  apply agree_bind (require_agrees alike (by decide))
  intro _ _ _
  rw [alike.conversation]
  exact agree_refl _

theorem download_agrees (now : Time) (target : Option Uuid) :
    downloadUrl signedDownloadUrl tables user now target =
      downloadUrl signedDownloadUrl tables { user with systemRole := role } now target := by
  cases target with
  | none => rfl
  | some target =>
      simp only [downloadUrl]
      cases readyAttachment tables target with
      | none => rfl
      | some row =>
          cases place : row.conversationId with
          | none => simp only [place]
          | some conversation =>
              simp only [place]
              apply agree_eq
              apply agree_bind (resolve_agrees tables user now role conversation)
              intro one other alike
              exact agree_bind (require_agrees alike (by decide)) fun _ _ _ => agree_refl _

/-- The lookup of a user by id finds the same row, its role apart. -/
theorem find_with_role (person : Uuid) :
    ((tables.withSystemRole person role).users.find? fun row => row.id == person) =
      (tables.users.find? fun row => row.id == person).map fun row =>
        { row with systemRole := role } := by
  unfold Tables.withSystemRole
  induction tables.users with
  | nil => rfl
  | cons head rest ih =>
      by_cases here : head.id = person
      · simp [here]
      · simpa [here] using ih

theorem subscribe_agrees (now : Time) (target : Option Uuid) :
    handleSubscribe tables user.id now target =
      handleSubscribe (tables.withSystemRole user.id role) user.id now target := by
  cases target with
  | none => rfl
  | some conversation =>
      simp only [handleSubscribe, find_with_role]
      cases tables.users.find? fun row => row.id == user.id with
      | none => rfl
      | some found =>
          have agree := resolve_agrees tables found now role conversation
          have unaffected : resolveAccess (tables.withSystemRole user.id role)
              { found with systemRole := role } now conversation =
            resolveAccess tables { found with systemRole := role } now conversation := rfl
          simp only [Option.map_some, unaffected]
          generalize resolveAccess tables found now conversation = left at agree ⊢
          generalize resolveAccess tables { found with systemRole := role } now conversation =
            right at agree ⊢
          cases agree with
          | refused error => rfl
          | answered alike => simp only [alike.apart .readMessages (by decide)]

theorem decisions_agree (now : Time) (id : Uuid) :
    (resolveMessageAccess tables user now id).map (fun (message, access) =>
        (message, canModifyMessage access message, canDeleteMessage access message)) =
      (resolveMessageAccess tables { user with systemRole := role } now id).map
        fun (message, access) =>
          (message, canModifyMessage access message, canDeleteMessage access message) := by
  have agree : Agree (fun left right => left.1 = right.1 ∧ Alike left.2 right.2)
      (resolveMessageAccess tables user now id)
      (resolveMessageAccess tables { user with systemRole := role } now id) := by
    unfold resolveMessageAccess
    cases tables.messages.find? fun row => row.id == id with
    | none => exact .refused _
    | some message =>
        apply agree_bind (resolve_agrees tables user now role message.conversationId)
        intro one other alike
        exact agree_bind (require_agrees alike (by decide)) fun _ _ _ => .answered ⟨rfl, alike⟩
  generalize resolveMessageAccess tables user now id = left at agree ⊢
  generalize resolveMessageAccess tables { user with systemRole := role } now id =
    right at agree ⊢
  cases agree with
  | refused error => rfl
  | answered same =>
      obtain ⟨message, alike⟩ := same
      simp only [Except.map, message, modify_alike alike, delete_alike alike]

/-- Changing the system role of a user changes no answer of content. -/
theorem system_role_blind (searchMatches : String → String → Bool)
    (signedDownloadUrl : String → String → String) (database : Database Digest)
    (user : User Digest) (role : SystemRole) :
    SameAnswers searchMatches signedDownloadUrl database.toTables
      (database.withSystemRole user.id role).toTables user { user with systemRole := role } where
  access := fun now => resolve_agrees database.toTables user now role
  platform := fun now _ _ =>
    ⟨fun resolved _ => platform_from_table database.toTables user now resolved,
      fun resolved _ => platform_from_table database.toTables _ now resolved⟩
  list := list_agrees database.toTables user role
  search := fun _ _ _ _ _ _ => rfl
  sync := fun _ _ _ => rfl
  download := download_agrees database.toTables user role
  subscribe := subscribe_agrees database.toTables user role
  edits := decisions_agree database.toTables user role

end Answers

end RunnerupChat.Authz
