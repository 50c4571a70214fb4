import RunnerupChat.MemberLimit

/-!
Roles against the audit log. A `conversation.role_changed` entry is the only
one that says what became of a role: a `conversation.member_added` entry names
the role that was asked for, and an old row keeps the one it has.
-/

namespace RunnerupChat.Conversations

open Accounts Authz RateLimit
open OtpLogin (AuditLog)

section Entries

/-- What `change_role` writes down. -/
def roleChanged (actor : Option Uuid) (conversation member : Uuid) (role : MemberRole) : AuditLog :=
  { action := "conversation.role_changed", actorId := actor,
    targetType := some "conversation", targetId := some (toString conversation),
    metadata := [("member", .text (toString member)), ("role", .text (roleText role))] }

def allRoles : List MemberRole := [.subscriber, .member, .moderator, .admin, .owner]

/-- The role that an entry gives to the member. -/
def roleGiven (conversation member : Uuid) (entry : AuditLog) : Option MemberRole :=
  allRoles.find? fun role => decide (entry = roleChanged entry.actorId conversation member role)

/-- The role of a member after these entries. -/
def lastGiven (conversation member : Uuid) (entries : List AuditLog) (role : MemberRole) :
    MemberRole :=
  entries.foldl (fun role entry => (roleGiven conversation member entry).getD role) role

theorem decimal_injective {left right : Nat} (same : toString left = toString right) :
    left = right := by
  have digits : Nat.toDigits 10 left = Nat.toDigits 10 right := by
    simpa [Nat.toString_eq_ofList_toDigits] using congrArg String.toList same
  rw [← Nat.ofDigitChars_ten_toDigits (n := left), digits, Nat.ofDigitChars_ten_toDigits]

theorem role_text_injective {role other : MemberRole} (same : roleText role = roleText other) :
    role = other := by
  cases role <;> cases other <;> first | rfl | exact absurd same (by decide)

theorem role_given_other {conversation member : Uuid} {entry : AuditLog}
    (other : entry.action ≠ "conversation.role_changed") :
    roleGiven conversation member entry = none := by
  refine List.find?_eq_none.mpr fun role _ => ?_
  rw [decide_eq_true_iff]
  intro same
  exact other (congrArg AuditLog.action same)

theorem role_given_changed (actor : Option Uuid) (conversation member place person : Uuid)
    (role : MemberRole) : roleGiven place person (roleChanged actor conversation member role) =
      if (conversation, member) = (place, person) then some role else none := by
  have equal : ∀ other, decide (roleChanged actor conversation member role =
      roleChanged actor place person other) = true ↔
        (conversation, member) = (place, person) ∧ role = other := by
    intro other
    simp only [roleChanged, decide_eq_true_iff, AuditLog.mk.injEq, Option.some.injEq,
      List.cons.injEq, Prod.mk.injEq, OtpLogin.Detail.text.injEq, true_and, and_true]
    constructor
    · rintro ⟨first, second, third⟩
      exact ⟨⟨decimal_injective first, decimal_injective second⟩, role_text_injective third⟩
    · rintro ⟨⟨rfl, rfl⟩, rfl⟩
      exact ⟨rfl, rfl, rfl⟩
  unfold roleGiven
  split
  · rename_i named
    cases found : allRoles.find? _ with
    | none =>
        have missed := List.find?_eq_none.mp found role (by cases role <;> simp [allRoles])
        exact absurd ((equal role).mpr ⟨named, rfl⟩) missed
    | some other =>
        have hit := List.find?_some found
        rw [((equal other).mp hit).2]
  · rename_i foreign
    refine List.find?_eq_none.mpr fun other _ same => foreign ((equal other).mp same).1

end Entries

section Roles
variable {Digest : Type}

def roleOf (tables : Tables Digest) (conversation member : Uuid) : Option MemberRole :=
  (findMember tables conversation member).map ConversationMember.role

/-- The log has grown, and of every row that was there it says the role. -/
def Told (before after : Tables Digest) : Prop :=
  ∃ newer, after.auditLogs = before.auditLogs ++ newer ∧
    ∀ conversation member role, roleOf before conversation member = some role →
      roleOf after conversation member = some (lastGiven conversation member newer role)

variable {before middle after : Tables Digest}

theorem told_refl (tables : Tables Digest) : Told tables tables :=
  ⟨[], (List.append_nil _).symm, fun _ _ _ held => held⟩

theorem told_trans (first : Told before middle) (second : Told middle after) :
    Told before after := by
  obtain ⟨newer, log, roles⟩ := first
  obtain ⟨newest, later, changed⟩ := second
  refine ⟨newer ++ newest, by rw [later, log, List.append_assoc], fun place person role held => ?_⟩
  rw [changed place person _ (roles place person role held), lastGiven, lastGiven, lastGiven,
    List.foldl_append]

theorem role_appended {rows : List ConversationMember}
    (members : after.members = before.members ++ rows) {place person : Uuid} {role : MemberRole}
    (held : roleOf before place person = some role) : roleOf after place person = some role := by
  obtain ⟨row, found, same⟩ := Option.map_eq_some_iff.mp held
  have kept : findMember after place person = some row := by
    rw [findMember, members, List.find?_append]
    exact Option.or_eq_some_iff.mpr (Or.inl found)
  rw [roleOf, kept, Option.map_some, same]

theorem role_updated {key : Uuid × Uuid} {change : ConversationMember → ConversationMember}
    (members : after.members = (updateMember before key change).members)
    (keys : ∀ row, (change row).key = row.key) {place person : Uuid} {row : ConversationMember}
    (found : findMember before place person = some row) :
    roleOf after place person =
      some (if (place, person) = key then (change row).role else row.role) := by
  have same : ∀ other, (if other.key = key then change other else other).key = other.key := by
    intro other
    split
    · exact keys other
    · rfl
  have moved : findMember after place person =
      (findMember before place person).map fun other =>
        if other.key = key then change other else other := by
    simp only [findMember, members, updateMember, List.find?_map, Function.comp_def, same]
  rw [roleOf, moved, found, Option.map_some, Option.map_some, (find_member_some found).2]
  split <;> rfl

/-- The roles stay, and an entry that gives none is added. -/
theorem told_kept {entry : AuditLog} (log : after.auditLogs = before.auditLogs ++ [entry])
    (other : entry.action ≠ "conversation.role_changed")
    (roles : ∀ place person role, roleOf before place person = some role →
      roleOf after place person = some role) : Told before after := by
  refine ⟨[entry], log, fun place person role held => ?_⟩
  simp only [lastGiven, List.foldl_cons, List.foldl_nil, role_given_other other, Option.getD_none]
  exact roles place person role held

theorem rejoined_roles {key : Uuid × Uuid}
    (members : after.members = (updateMember before key rejoined).members) {place person : Uuid}
    {role : MemberRole} (held : roleOf before place person = some role) :
    roleOf after place person = some role := by
  obtain ⟨row, found, same⟩ := Option.map_eq_some_iff.mp held
  rw [role_updated members (fun _ => rfl) found, ← same]
  split <;> rfl

end Roles

section Calls
variable {Digest : Type} [DecidableEq Digest] {sha256 : String → Digest} {world next : World Digest}
  {user : User Digest} {access : Access Digest}

theorem commit_told {Answer : Type} {limiter : Store} {tables : Tables Digest} {answer : Answer}
    (told : Told world.database.toTables tables) : Told world.database.toTables
      (commit { world with limiter := limiter } tables answer).2.database.toTables := by
  rcases commit_cases { world with limiter := limiter } tables answer with same | same
  · rw [same]
    exact told_refl _
  · rw [same]
    exact told

theorem direct_told (other id : Uuid) (now : Time) : Told world.database.toTables
    (getOrCreateDirect world user other id now).2.database.toTables := by
  have opened : Told world.database.toTables
      (openDirect world user.id other id now).2.database.toTables := by
    rcases open_direct_cases world user.id other id now with same | same
    · rw [same]
      exact told_refl _
    · rw [same]
      exact ⟨[], (List.append_nil _).symm, fun _ _ _ held => role_appended rfl held⟩
  simp only [getOrCreateDirect]
  repeat' split
  all_goals first | exact told_refl _ | exact opened

theorem group_told (request : GroupRequest) (id : Uuid) (now : Time) (nowMs : Nat) :
    Told world.database.toTables (createGroup world user request id now nowMs).2.database.toTables := by
  simp only [createGroup]
  split
  · exact told_refl _
  · split
    · exact told_refl _
    · split
      · exact told_refl _
      · exact commit_told (told_kept rfl (by simp) fun _ _ _ held => role_appended rfl held)

theorem add_told (newMember : Uuid) (role : MemberRole) : Told world.database.toTables
    (addMember world access newMember role).2.database.toTables := by
  simp only [addMember]
  split
  · exact told_refl _
  · split
    · exact told_refl _
    · split
      · exact told_refl _
      · split
        · rename_i existing found
          split
          · exact told_refl _
          · exact commit_told (told_kept rfl (by simp) fun _ _ _ held => rejoined_roles rfl held)
        · exact commit_told (told_kept rfl (by simp) fun _ _ _ held => role_appended rfl held)

/-- The entry names the conversation, the member and the role of the row that
was written. -/
theorem change_told (member : Uuid) (newRole : MemberRole) : Told world.database.toTables
    (changeRole world access member newRole).2.database.toTables := by
  simp only [changeRole]
  split
  · exact told_refl _
  · split
    · exact told_refl _
    · split
      · exact told_refl _
      · rename_i membership found
        split
        · exact told_refl _
        · refine commit_told ⟨[_], rfl, fun place person role held => ?_⟩
          have key : membership.key = (access.conversation.id, member) := (find_member_some found).2
          obtain ⟨row, listed, same⟩ := Option.map_eq_some_iff.mp held
          have given := role_given_changed (some access.user.id) access.conversation.id member
            place person newRole
          have updated := role_updated (Eq.refl (updateMember world.database.toTables
            membership.key fun row => { row with role := newRole }).members) (fun _ => rfl) listed
          simp only [lastGiven, List.foldl_cons, List.foldl_nil]
          refine updated.trans ?_
          rw [key, ← same]
          refine congrArg some ?_
          by_cases named : (access.conversation.id, member) = (place, person)
          · rw [if_pos named.symm]
            exact (congrArg (Option.getD · row.role) (given.trans (if_pos named))).symm
          · rw [if_neg fun same => named same.symm]
            exact (congrArg (Option.getD · row.role) (given.trans (if_neg named))).symm

theorem invite_told (maxUses expiresIn : Option Nat) (requiresApproval : Bool) (token : String)
    (now : Time) (nowMs : Nat) : Told world.database.toTables
      (createInvite sha256 world access maxUses expiresIn requiresApproval token now
        nowMs).2.database.toTables := by
  simp only [createInvite]
  split
  · exact told_refl _
  · split
    · exact told_refl _
    · exact commit_told (told_kept rfl (by simp) fun _ _ _ held => held)

theorem redeem_told (token : String) (now : Time) : Told world.database.toTables
    (redeemInvite sha256 world user token now).2.database.toTables := by
  simp only [redeemInvite]
  split
  · exact told_refl _
  · rename_i invite conversation opened
    split
    · exact commit_told (told_kept rfl (by simp) fun _ _ _ held => rejoined_roles rfl held)
    · exact commit_told (told_kept rfl (by simp) fun _ _ _ held => role_appended rfl held)

omit [DecidableEq Digest] in
theorem with_access_told {conversation : Uuid} {now : Time}
    {call : Access Digest → World Digest}
    (granted : ∀ access, Told world.database.toTables (call access).database.toTables) :
    Told world.database.toTables
      (withAccess world user conversation now call).database.toTables := by
  unfold withAccess
  split
  · exact told_refl _
  · exact granted _

theorem step_told {call : Call} (taken : step sha256 world call = some next) :
    Told world.database.toTables next.database.toTables := by
  obtain ⟨user, -, rfl⟩ := Option.map_eq_some_iff.mp taken
  cases call with
  | getOrCreateDirect person other id now => exact direct_told other id now
  | createGroup person request id now nowMs => exact group_told request id now nowMs
  | addMember person conversation newMember role now =>
      exact with_access_told fun _ => add_told newMember role
  | changeRole person conversation member newRole now =>
      exact with_access_told fun _ => change_told member newRole
  | createInvite person conversation maxUses expiresIn requiresApproval token now nowMs =>
      exact with_access_told fun _ =>
        invite_told maxUses expiresIn requiresApproval token now nowMs
  | redeemInvite person token now => exact redeem_told token now

/-- Between any two moments the role of a member becomes the one that the last
`conversation.role_changed` entry written in between names for it, and without
such an entry it stays. -/
theorem roles_told (sha256 : String → Digest) (earlier later : World Digest) (calls : List Call)
    (ran : Runs.run (step sha256) earlier calls = some later) :
    ∃ newer, later.database.auditLogs = earlier.database.auditLogs ++ newer ∧
      ∀ conversation member role,
        roleOf earlier.database.toTables conversation member = some role →
        roleOf later.database.toTables conversation member =
          some (lastGiven conversation member newer role) := by
  have told : Told earlier.database.toTables later.database.toTables :=
    Runs.run_invariant (fun world => Told earlier.database.toTables world.database.toTables)
      (fun _ _ _ told taken => told_trans told (step_told taken)) ran (told_refl _)
  exact told

/-- A member is added once more, as a moderator, and then made an admin. -/
def promoting : List Call := [.addMember 0 5 1 .moderator 0, .changeRole 0 5 1 .admin 0]

theorem promotion_told : ∃ earlier later newer,
    Runs.run (step String.length) (signedUp (residents 2) (residents_distinct 2))
        [.createGroup 0 { title := "Town", memberIds := [1] } 5 0 0] = some earlier ∧
      Runs.run (step String.length) earlier promoting = some later ∧
      later.database.auditLogs = earlier.database.auditLogs ++ newer ∧
      lastGiven 5 1 newer .member = .admin := by
  have result : ((Runs.run (step String.length) (signedUp (residents 2) (residents_distinct 2))
      [.createGroup 0 { title := "Town", memberIds := [1] } 5 0 0]).bind fun earlier =>
        (Runs.run (step String.length) earlier promoting).map fun later =>
          (roleOf earlier.database.toTables 5 1, roleOf later.database.toTables 5 1)) =
      some (some .member, some .admin) := by
    decide +kernel
  obtain ⟨earlier, opened, rest⟩ := Option.bind_eq_some_iff.mp result
  obtain ⟨later, ran, roles⟩ := Option.map_eq_some_iff.mp rest
  obtain ⟨before, after⟩ := Prod.mk.inj roles
  obtain ⟨newer, log, told⟩ := roles_told String.length earlier later promoting ran
  have given := told 5 1 .member before
  rw [after] at given
  exact ⟨earlier, later, newer, opened, ran, log, (Option.some.inj given).symm⟩

end Calls

end RunnerupChat.Conversations
