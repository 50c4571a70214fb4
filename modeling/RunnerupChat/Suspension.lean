import RunnerupChat.Authz

/-!
`suspend_user` of `api/v1/moderation.py`, any number of calls at once beside
logins that open accounts and other calls that are audited. A call works on the
copies it loaded of its caller and of its target; the route gives no role and
lifts no suspension.
-/

namespace RunnerupChat.Suspension

open Accounts Authz UniqueKeys
open OtpLogin (AuditLog)
open UnitOfWork (Answers answers_bind answers_pure answers_throw)

structure SuspendIn where
  userId : String
  reason : String
  days : Option Nat

/-- The table `rank` of the route. -/
def rank : SystemRole → Nat
  | .user => 0
  | .moderator => 1
  | .admin => 2
  | .superAdmin => 3

/-- A call that has passed its checks, with the copies that it loaded. -/
structure Suspending (parseUuid : String → Option Uuid) (Digest : Type) where
  actor : User Digest
  target : User Digest
  payload : SuspendIn
  permitted : .manageUsers ∈ systemGrants actor.systemRole
  named : parseUuid payload.userId = some target.id
  outranked : rank target.systemRole < rank actor.systemRole

section Calls
variable {Digest : Type} (parseUuid : String → Option Uuid)

/-- `suspend_user` up to its first write. -/
def suspendUser (users : List (User Digest)) (actor : User Digest) (payload : SuspendIn) :
    Except AppError (Suspending parseUuid Digest) :=
  if permitted : .manageUsers ∈ systemGrants actor.systemRole then
    match parsed : parseUuid payload.userId with
    | none => .error (.validationFailed "invalid_user")
    | some targetId =>
        match found : users.find? fun row => row.id == targetId with
        | none => .error (.notVisible "not_found")
        | some target =>
            -- a moderator cannot act on a peer or a superior
            if outranked : rank target.systemRole < rank actor.systemRole then
              have same : target.id = targetId := by simpa using List.find?_some found
              .ok ⟨actor, target, payload, permitted, same ▸ parsed, outranked⟩
            else .error (.permissionDenied "cannot_action_peer_or_superior")
  else .error (.permissionDenied "permission_denied")

variable {parseUuid}

/-- The column is written unless the copy was suspended already. -/
def Suspending.apply (call : Suspending parseUuid Digest) (row : User Digest) : User Digest :=
  if call.target.accountState = .suspended then row else { row with accountState := .suspended }

def Suspending.entry (call : Suspending parseUuid Digest) : AuditLog :=
  { action := "user.suspended", actorId := some call.actor.id
    actorRole := some call.actor.systemRole, targetType := some "user"
    targetId := some call.payload.userId
    metadata := [("reason", .text call.payload.reason), ("days", .ofNumber call.payload.days)] }

/-- What a first login records. -/
def firstLogin (row : User Digest) (session : Uuid) (ip : Option String) (platform : String) :
    List AuditLog :=
  [{ action := "user.registered", actorId := some row.id, targetType := some "user"
     targetId := some (toString row.id), ip := ip },
    { action := "session.created", actorId := some row.id, actorRole := some row.systemRole
      targetType := some "session", targetId := some (toString session), ip := ip
      metadata := [("platform", .text platform)] }]

end Calls

inductive Phase (parseUuid : String → Option Uuid) (Digest : Type) where
  | authenticated (actor : User Digest)
  | checked (call : Suspending parseUuid Digest)
  /-- Suspended, and the sessions are still to be revoked. -/
  | revoking (target : Uuid)

structure State (parseUuid : String → Option Uuid) (Digest Tx : Type) where
  users : List (User Digest)
  auditLogs : List AuditLog
  phases : Tx → Option (Phase parseUuid Digest)

inductive Action (Digest Tx : Type) where
  | signUp (row : User Digest) (session : Uuid) (ip : Option String) (platform : String)
  /-- Another call writes an audit row, and no account. -/
  | recordAudit (entry : AuditLog)
  | authenticate (tx : Tx) (subject : Uuid)
  | check (tx : Tx) (payload : SuspendIn)
  | commit (tx : Tx)
  | revokeAll (tx : Tx)
  | abort (tx : Tx)

section Machine
variable {parseUuid : String → Option Uuid} {Digest Tx : Type} [DecidableEq Tx]
  (state : State parseUuid Digest Tx)

/-- A first login opens an account of no rank. -/
def signUp (row : User Digest) (session : Uuid) (ip : Option String) (platform : String) :
    Option (State parseUuid Digest Tx) :=
  if row.id ∉ state.users.map User.id ∧ row.systemRole = .user ∧ row.accountState = .active then
    some { state with
      users := state.users ++ [row]
      auditLogs := state.auditLogs ++ firstLogin row session ip platform }
  else none

/-- No other route records a suspension. -/
def recordAudit (entry : AuditLog) : Option (State parseUuid Digest Tx) :=
  if entry.action = "user.suspended" then none
  else some { state with auditLogs := state.auditLogs ++ [entry] }

def authenticate (tx : Tx) (subject : Uuid) : Option (State parseUuid Digest Tx) :=
  if (state.phases tx).isSome then none
  else match currentPrincipal { users := state.users } subject with
    | .error _ => none
    | .ok actor => some { state with phases := assign state.phases tx (some (.authenticated actor)) }

def check (tx : Tx) (payload : SuspendIn) : Option (State parseUuid Digest Tx) :=
  match state.phases tx with
  | some (.authenticated actor) =>
      match suspendUser parseUuid state.users actor payload with
      | .error _ => some { state with phases := assign state.phases tx none }
      | .ok call => some { state with phases := assign state.phases tx (some (.checked call)) }
  | _ => none

/-- The update of the account and its commit are one step: other writers of
the row wait for the commit. -/
def commit (tx : Tx) : Option (State parseUuid Digest Tx) :=
  match state.phases tx with
  | some (.checked call) =>
      some { state with
        users := state.users.map fun row => if row.id = call.target.id then call.apply row else row
        auditLogs := state.auditLogs ++ [call.entry]
        phases := assign state.phases tx (some (.revoking call.target.id)) }
  | _ => none

/-- The sessions of the target are revoked. -/
def revokeAll (tx : Tx) : Option (State parseUuid Digest Tx) :=
  match state.phases tx with
  | some (.revoking _) => some { state with phases := assign state.phases tx none }
  | _ => none

def abort (tx : Tx) : Option (State parseUuid Digest Tx) :=
  if (state.phases tx).isSome then some { state with phases := assign state.phases tx none }
  else none

def step : Action Digest Tx → Option (State parseUuid Digest Tx)
  | .signUp row session ip platform => signUp state row session ip platform
  | .recordAudit entry => recordAudit state entry
  | .authenticate tx subject => authenticate state tx subject
  | .check tx payload => check state tx payload
  | .commit tx => commit state tx
  | .revokeAll tx => revokeAll state tx
  | .abort tx => abort state tx

end Machine

/-- Every account stays, with its role, and suspended if it was. -/
def Grows {Digest : Type} (before after : List (User Digest)) : Prop :=
  ∀ row ∈ before, ∃ heir ∈ after, heir.id = row.id ∧ heir.systemRole = row.systemRole ∧
    (row.accountState = .suspended → heir.accountState = .suspended)

/-- The account that a copy was loaded from. -/
def Reflects {Digest : Type} (users : List (User Digest)) (copy : User Digest) : Prop :=
  ∃ row ∈ users, row.id = copy.id ∧ row.systemRole = copy.systemRole ∧
    (copy.accountState = .suspended → row.accountState = .suspended)

section Invariant
variable {parseUuid : String → Option Uuid} {Digest Tx : Type}

def Phase.Reflects (users : List (User Digest)) : Phase parseUuid Digest → Prop
  | .authenticated actor => Suspension.Reflects users actor
  | .checked call => Suspension.Reflects users call.actor ∧ Suspension.Reflects users call.target
  | .revoking _ => True

/-- The entries tell of a suspension of the account. -/
def Named (parseUuid : String → Option Uuid) (entries : List AuditLog) (id : Uuid) : Prop :=
  ∃ entry ∈ entries, entry.action = "user.suspended" ∧ entry.targetId.bind parseUuid = some id

def WasSuspended (users : List (User Digest)) (id : Uuid) : Prop :=
  ∃ row ∈ users, row.id = id ∧ row.accountState = .suspended

/-- The entry names an account that may suspend and one below it. -/
def Ranked (parseUuid : String → Option Uuid) (users : List (User Digest)) (entry : AuditLog) :
    Prop :=
  ∃ actor ∈ users, ∃ target ∈ users, entry.actorId = some actor.id ∧
    entry.actorRole = some actor.systemRole ∧ entry.targetId.bind parseUuid = some target.id ∧
    .manageUsers ∈ systemGrants actor.systemRole ∧ rank target.systemRole < rank actor.systemRole

/-- The log has grown by entries that account for every suspension. -/
structure Accounted (start state : State parseUuid Digest Tx) (newer : List AuditLog) : Prop where
  log : state.auditLogs = start.auditLogs ++ newer
  suspended : ∀ row ∈ state.users, row.accountState = .suspended ↔
    WasSuspended start.users row.id ∨ Named parseUuid newer row.id
  ranked : ∀ entry ∈ newer, entry.action = "user.suspended" →
    Ranked parseUuid state.users entry

structure Inv (start state : State parseUuid Digest Tx) : Prop where
  distinct : (state.users.map User.id).Nodup
  grown : Grows start.users state.users
  copies : ∀ tx phase, state.phases tx = some phase → phase.Reflects state.users
  accounted : ∃ newer, Accounted start state newer

end Invariant

section Growth
variable {parseUuid : String → Option Uuid} {Digest : Type} {before middle after : List (User Digest)}

theorem grows_refl (users : List (User Digest)) : Grows users users :=
  fun row member => ⟨row, member, rfl, rfl, fun held => held⟩

theorem grows_trans (first : Grows before middle) (second : Grows middle after) :
    Grows before after := by
  intro row member
  obtain ⟨heir, found, id, role, suspended⟩ := first row member
  obtain ⟨last, listed, sameId, sameRole, kept⟩ := second heir found
  exact ⟨last, listed, sameId.trans id, sameRole.trans role, fun held => kept (suspended held)⟩

theorem grows_appended (row : User Digest) : Grows before (before ++ [row]) :=
  fun old member => ⟨old, List.mem_append_left _ member, rfl, rfl, fun held => held⟩

@[simp] theorem apply_id (call : Suspending parseUuid Digest) (row : User Digest) :
    (call.apply row).id = row.id := by
  unfold Suspending.apply
  split <;> rfl

theorem apply_role (call : Suspending parseUuid Digest) (row : User Digest) :
    (call.apply row).systemRole = row.systemRole := by
  unfold Suspending.apply
  split <;> rfl

theorem grows_applied (call : Suspending parseUuid Digest) :
    Grows before (before.map fun row => if row.id = call.target.id then call.apply row else row) := by
  intro row member
  refine ⟨_, List.mem_map_of_mem member, ?_⟩
  by_cases here : row.id = call.target.id
  · rw [if_pos here]
    refine ⟨apply_id call row, apply_role call row, fun held => ?_⟩
    unfold Suspending.apply
    split
    · exact held
    · rfl
  · rw [if_neg here]
    exact ⟨rfl, rfl, fun held => held⟩

theorem reflects_grown (grows : Grows before after) {copy : User Digest}
    (reflects : Reflects before copy) : Reflects after copy := by
  obtain ⟨row, member, id, role, suspended⟩ := reflects
  obtain ⟨heir, found, sameId, sameRole, kept⟩ := grows row member
  exact ⟨heir, found, sameId.trans id, sameRole.trans role, fun held => kept (suspended held)⟩

theorem phase_grown (grows : Grows before after) {phase : Phase parseUuid Digest}
    (reflects : phase.Reflects before) : phase.Reflects after := by
  cases phase with
  | authenticated actor => exact reflects_grown grows reflects
  | checked call => exact ⟨reflects_grown grows reflects.1, reflects_grown grows reflects.2⟩
  | revoking target => trivial

theorem ranked_grown (grows : Grows before after) {entry : AuditLog}
    (ranked : Ranked parseUuid before entry) : Ranked parseUuid after entry := by
  obtain ⟨actor, member, target, other, actorId, actorRole, named, permitted, below⟩ := ranked
  obtain ⟨chief, found, id, role, -⟩ := grows actor member
  obtain ⟨subject, listed, sameId, sameRole, -⟩ := grows target other
  exact ⟨chief, found, subject, listed, by rw [id, actorId], by rw [role, actorRole],
    by rw [sameId, named], by rw [role]; exact permitted, by rw [role, sameRole]; exact below⟩

end Growth

section Steps
variable {parseUuid : String → Option Uuid} {Digest Tx : Type} [DecidableEq Tx]
  {start state next : State parseUuid Digest Tx}

/-- A call that passes its checks has both copies. -/
theorem suspend_user_ok {users : List (User Digest)} {actor : User Digest} {payload : SuspendIn}
    {call : Suspending parseUuid Digest}
    (passed : suspendUser parseUuid users actor payload = .ok call) :
    call.actor = actor ∧ call.target ∈ users := by
  unfold suspendUser at passed
  split at passed
  · split at passed
    · cases passed
    · split at passed
      · cases passed
      · rename_i target found
        split at passed
        · cases passed
          exact ⟨rfl, List.mem_of_find?_eq_some found⟩
        · cases passed
  · cases passed

theorem principal_known {users : List (User Digest)} {subject : Uuid} {actor : User Digest}
    (found : currentPrincipal { users := users } subject = .ok actor) : actor ∈ users := by
  unfold currentPrincipal at found
  split at found
  · cases found
  · rename_i user listed
    split at found
    · cases found
    · split at found
      · cases found
      · cases found
        exact List.mem_of_find?_eq_some listed

theorem member_reflects {users : List (User Digest)} {row : User Digest} (member : row ∈ users) :
    Reflects users row :=
  ⟨row, member, rfl, rfl, fun held => held⟩

theorem assigned_copies {tx : Tx} {moved : Option (Phase parseUuid Digest)}
    {users : List (User Digest)} (grows : Grows state.users users)
    (copies : ∀ other phase, state.phases other = some phase → phase.Reflects state.users)
    (reflects : ∀ phase, moved = some phase → phase.Reflects users) :
    ∀ other phase, assign state.phases tx moved other = some phase → phase.Reflects users := by
  intro other phase opened
  by_cases same : other = tx
  · subst other
    rw [assign_same] at opened
    exact reflects phase opened
  · rw [assign_other _ _ same] at opened
    exact phase_grown grows (copies other phase opened)

/-- A step that writes no row moves one call. -/
theorem moved_inv (inv : Inv start state) {tx : Tx} {moved : Option (Phase parseUuid Digest)}
    (reflects : ∀ phase, moved = some phase → phase.Reflects state.users) :
    Inv start { state with phases := assign state.phases tx moved } where
  distinct := inv.distinct
  grown := inv.grown
  copies := assigned_copies (grows_refl _) inv.copies reflects
  accounted := by
    obtain ⟨newer, log, suspended, ranked⟩ := inv.accounted
    exact ⟨newer, log, suspended, ranked⟩

omit [DecidableEq Tx] in
theorem named_others {newer others : List AuditLog}
    (apart : ∀ entry ∈ others, entry.action ≠ "user.suspended") (id : Uuid) :
    Named parseUuid (newer ++ others) id ↔ Named parseUuid newer id := by
  constructor
  · rintro ⟨entry, listed, suspends, names⟩
    rcases List.mem_append.mp listed with old | new
    · exact ⟨entry, old, suspends, names⟩
    · exact absurd suspends (apart entry new)
  · rintro ⟨entry, listed, suspends, names⟩
    exact ⟨entry, List.mem_append_left _ listed, suspends, names⟩

omit [DecidableEq Tx] in
/-- What other calls record accounts for no suspension. -/
theorem accounted_others {newer others : List AuditLog} (accounted : Accounted start state newer)
    (apart : ∀ entry ∈ others, entry.action ≠ "user.suspended") :
    Accounted start { state with auditLogs := state.auditLogs ++ others } (newer ++ others) where
  log := by rw [accounted.log, List.append_assoc]
  suspended := by
    intro row member
    rw [named_others apart]
    exact accounted.suspended row member
  ranked := by
    intro entry listed suspends
    rcases List.mem_append.mp listed with old | new
    · exact accounted.ranked entry old suspends
    · exact absurd suspends (apart entry new)

theorem first_login_apart (row : User Digest) (session : Uuid) (ip : Option String)
    (platform : String) :
    ∀ entry ∈ firstLogin row session ip platform, entry.action ≠ "user.suspended" := by
  simp [firstLogin]

omit [DecidableEq Tx] in
theorem sign_up_inv (inv : Inv start state) {row : User Digest} {session : Uuid}
    {ip : Option String} {platform : String}
    (taken : signUp state row session ip platform = some next) : Inv start next := by
  unfold signUp at taken
  split at taken
  · rename_i fresh
    cases taken
    obtain ⟨newer, accounted⟩ := inv.accounted
    obtain ⟨log, suspended, ranked⟩ :=
      accounted_others accounted (first_login_apart row session ip platform)
    have grows : Grows state.users _ := grows_appended row
    refine ⟨?_, grows_trans inv.grown grows, fun tx phase opened =>
      phase_grown grows (inv.copies tx phase opened), _, log, fun other member => ?_,
      fun entry listed suspends => ranked_grown grows (ranked entry listed suspends)⟩
    · rw [List.map_append, List.map_singleton]
      exact List.nodup_append.mpr ⟨inv.distinct, List.nodup_singleton _, fun id old other new => by
        rw [List.mem_singleton.mp new]
        exact fun same => fresh.1 (same ▸ old)⟩
    · rcases List.mem_append.mp member with old | new
      · exact suspended other old
      · -- nobody was suspended under an id that is new
        obtain rfl := List.mem_singleton.mp new
        have unknown : ∀ account ∈ state.users, account.id ≠ other.id := fun account listed same =>
          fresh.1 (same ▸ List.mem_map_of_mem listed)
        refine iff_of_false (by simp [fresh.2.2]) ?_
        rintro (⟨old, listed, same, -⟩ | ⟨entry, listed, suspends, named⟩)
        · obtain ⟨heir, found, id, -, -⟩ := inv.grown old listed
          exact unknown heir found (id.trans same)
        · obtain ⟨-, -, target, found, -, -, target_named, -, -⟩ := ranked entry listed suspends
          exact unknown target found (Option.some.inj (target_named.symm.trans named))
  · cases taken

theorem commit_inv (inv : Inv start state) {tx : Tx} (taken : commit state tx = some next) :
    Inv start next := by
  unfold commit at taken
  split at taken
  · rename_i call opened
    cases taken
    obtain ⟨newer, log, suspended, ranked⟩ := inv.accounted
    obtain ⟨acting, aimed⟩ : Reflects state.users call.actor ∧ Reflects state.users call.target :=
      inv.copies tx _ opened
    have grows : Grows state.users _ := grows_applied call
    have named : ∀ id, Named parseUuid (newer ++ [call.entry]) id ↔
        Named parseUuid newer id ∨ call.target.id = id := by
      intro id
      simp [Named, or_and_right, exists_or, Suspending.entry, call.named]
    refine ⟨?_, grows_trans inv.grown grows, assigned_copies grows inv.copies
      (fun phase same => by cases same; trivial), newer ++ [call.entry], ?_, ?_, ?_⟩
    · have ids : (state.users.map fun row =>
          if row.id = call.target.id then call.apply row else row).map User.id =
          state.users.map User.id := by
        rw [List.map_map]
        refine List.map_congr_left fun row _ => ?_
        simp only [Function.comp]
        split
        · exact apply_id call row
        · rfl
      rw [ids]
      exact inv.distinct
    · simp only [log, List.append_assoc]
    · intro row member
      obtain ⟨before, old, rfl⟩ := List.mem_map.mp member
      by_cases here : before.id = call.target.id
      · rw [if_pos here, apply_id, named]
        refine iff_of_true ?_ (Or.inr (Or.inr here.symm))
        unfold Suspending.apply
        split
        · -- the copy was of this row, and a suspension is not taken back
          rename_i already
          obtain ⟨current, listed, id, -, kept⟩ := aimed
          rw [List.inj_on_of_nodup_map inv.distinct old listed (here.trans id.symm)]
          exact kept already
        · rfl
      · rw [if_neg here, named, suspended before old, or_assoc.symm]
        exact ⟨Or.inl, fun other => other.resolve_right fun same => here same.symm⟩
    · intro entry listed suspends
      rcases List.mem_append.mp listed with old | new
      · exact ranked_grown grows (ranked entry old suspends)
      · rw [List.mem_singleton.mp new]
        refine ranked_grown grows ?_
        obtain ⟨actor, known, actorId, actorRole, -⟩ := acting
        obtain ⟨target, found, targetId, targetRole, -⟩ := aimed
        exact ⟨actor, known, target, found, by rw [actorId]; rfl, by rw [actorRole]; rfl,
          by rw [targetId]; exact call.named, by rw [actorRole]; exact call.permitted,
          by rw [actorRole, targetRole]; exact call.outranked⟩
  · cases taken

theorem step_inv {action : Action Digest Tx} (inv : Inv start state)
    (taken : step state action = some next) : Inv start next := by
  cases action with
  | signUp row session ip platform => exact sign_up_inv inv taken
  | recordAudit entry =>
      simp only [step, recordAudit] at taken
      split at taken
      · cases taken
      · rename_i other
        cases taken
        obtain ⟨newer, accounted⟩ := inv.accounted
        refine ⟨inv.distinct, inv.grown, inv.copies, _, accounted_others accounted ?_⟩
        intro recorded listed
        rw [List.mem_singleton.mp listed]
        exact other
  | authenticate tx subject =>
      simp only [step, authenticate] at taken
      split at taken
      · cases taken
      · split at taken
        · cases taken
        · rename_i actor found
          cases taken
          refine moved_inv inv fun phase same => ?_
          cases same
          exact member_reflects (principal_known found)
  | check tx payload =>
      simp only [step, check] at taken
      split at taken
      · rename_i actor opened
        split at taken
        · cases taken
          exact moved_inv inv fun phase same => by cases same
        · rename_i call passed
          cases taken
          obtain ⟨own, aimed⟩ := suspend_user_ok passed
          refine moved_inv inv fun phase same => ?_
          cases same
          exact ⟨own ▸ inv.copies tx _ opened, member_reflects aimed⟩
      · cases taken
  | commit tx => exact commit_inv inv taken
  | revokeAll tx =>
      simp only [step, revokeAll] at taken
      split at taken
      · cases taken
        exact moved_inv inv fun phase same => by cases same
      · cases taken
  | abort tx =>
      simp only [step, abort] at taken
      split at taken
      · cases taken
        exact moved_inv inv fun phase same => by cases same
      · cases taken

omit [DecidableEq Tx] in
theorem started_inv (distinct : (start.users.map User.id).Nodup)
    (idle : ∀ tx, start.phases tx = none) : Inv start start := by
  refine ⟨distinct, grows_refl _, fun tx phase opened => ?_, [], (List.append_nil _).symm,
    fun row member => ?_, fun entry listed => by cases listed⟩
  · rw [idle tx] at opened
    cases opened
  · constructor
    · exact fun held => Or.inl ⟨row, member, rfl, held⟩
    · rintro (⟨old, listed, same, held⟩ | ⟨entry, listed, -⟩)
      · rw [← List.inj_on_of_nodup_map distinct listed member same]
        exact held
      · cases listed

theorem run_inv {final : State parseUuid Digest Tx} {actions : List (Action Digest Tx)}
    (distinct : (start.users.map User.id).Nodup) (idle : ∀ tx, start.phases tx = none)
    (ran : Runs.run step start actions = some final) : Inv start final :=
  Runs.run_invariant (Inv start) (fun _ _ _ inv taken => step_inv inv taken) ran
    (started_inv distinct idle)

/-- However the calls interleave and break off: an account is suspended exactly
if it was before or a `user.suspended` entry names it, and every such entry names
a caller who may suspend and outranks the account. -/
theorem suspensions_accounted (start final : State parseUuid Digest Tx)
    (actions : List (Action Digest Tx)) (distinct : (start.users.map User.id).Nodup)
    (idle : ∀ tx, start.phases tx = none) (ran : Runs.run step start actions = some final) :
    ∃ newer, final.auditLogs = start.auditLogs ++ newer ∧
      (∀ row ∈ final.users, row.accountState = .suspended ↔
        WasSuspended start.users row.id ∨ Named parseUuid newer row.id) ∧
      ∀ entry ∈ newer, entry.action = "user.suspended" →
        Ranked parseUuid final.users entry := by
  obtain ⟨newer, log, suspended, ranked⟩ := (run_inv distinct idle ran).accounted
  exact ⟨newer, log, suspended, ranked⟩

theorem step_grows {action : Action Digest Tx} (taken : step state action = some next) :
    Grows state.users next.users := by
  cases action with
  | signUp row session ip platform =>
      simp only [step, signUp] at taken
      split at taken
      · cases taken
        exact grows_appended row
      · cases taken
  | commit tx =>
      simp only [step, commit] at taken
      split at taken
      · rename_i call opened
        cases taken
        exact grows_applied call
      · cases taken
  | recordAudit entry | authenticate tx subject | check tx payload | revokeAll tx | abort tx =>
      simp only [step, recordAudit, authenticate, check, revokeAll, abort] at taken
      repeat' split at taken
      all_goals cases taken
      all_goals exact grows_refl _

end Steps

section Doors
variable {Digest : Type}

/-- A request that reads these accounts does not get in for the one: not with an
access token, not with a refresh token and not with a code sent to its number. -/
structure ShutOut (users : List (User Digest)) (id : Uuid) : Prop where
  principal : ∀ jwt (world : AccessTokens.World Digest) authorization principal,
    world.users = users → AccessTokens.currentPrincipal jwt world authorization = .ok principal →
      principal.user.id ≠ id
  rotation : ∀ {Token : Type} [DecidableEq Digest] (sha256 : Token → Digest) settings pauses
    (world : AccessTokens.World Digest) presented nextId nextToken claims, world.users = users →
      (AccessTokens.rotateSession sha256 settings pauses world presented nextId nextToken).1 =
        .ok claims → claims.sub ≠ id
  login : ∀ [DecidableEq Digest] (environment : OtpLogin.Environment Digest) request draws phone
    (session : UnitOfWork.Session (OtpLogin.Database Digest) OtpLogin.Services) user after,
    session.working.users = users →
      UnitOfWork.perform (OtpLogin.loginUser environment request draws phone) session =
        (.ok (user, false), after) → user.id ≠ id

section Closing
variable {users : List (User Digest)} {row user : User Digest}

theorem other_account (distinct : (users.map User.id).Nodup) (member : row ∈ users)
    (held : row.accountState = .suspended) (listed : user ∈ users)
    (active : user.accountState ≠ .suspended) : user.id ≠ row.id := by
  intro same
  rw [List.inj_on_of_nodup_map distinct listed member same] at active
  exact active held

theorem usable_active (usable : user.isUsable = true) : user.accountState ≠ .suspended := by
  intro held
  simp [User.isUsable, held] at usable

theorem principal_active {jwt : AccessTokens.Jwt} {world : AccessTokens.World Digest}
    {authorization : Option String} {principal : AccessTokens.Principal Digest}
    (found : AccessTokens.currentPrincipal jwt world authorization = .ok principal) :
    principal.user ∈ world.users ∧ principal.user.accountState ≠ .suspended := by
  unfold AccessTokens.currentPrincipal at found
  split at found
  · cases found
  · split at found
    · cases found
    · split at found
      · cases found
      · split at found
        · cases found
        · rename_i account listed
          split at found
          · cases found
          · split at found
            · cases found
            · rename_i apart
              cases found
              refine ⟨List.mem_of_find?_eq_some listed, fun held => apart ?_⟩
              have suspended : account.accountState = .suspended := held
              simp [suspended]

theorem exchange_usable {session : SessionStore.UserSession Digest} {now : Time} {usable : Bool}
    (verdict : SessionStore.judge session now usable = .exchange) : usable = true := by
  unfold SessionStore.judge at verdict
  split at verdict
  · cases verdict
  · split at verdict
    · cases verdict
    · split at verdict
      · cases verdict
      · split at verdict
        · assumption
        · cases verdict

theorem rotation_active {Token : Type} [DecidableEq Digest] {sha256 : Token → Digest}
    {settings : AccessTokens.Settings} {pauses : AccessTokens.Pauses}
    {world : AccessTokens.World Digest} {presented nextToken : Token} {nextId : Uuid}
    {claims : AccessTokens.Claims}
    (exchanged : (AccessTokens.rotateSession sha256 settings pauses world presented nextId
      nextToken).1 = .ok claims) :
    ∃ account ∈ world.users, account.accountState ≠ .suspended ∧ claims.sub = account.id := by
  unfold AccessTokens.rotateSession at exchanged
  simp only at exchanged
  split at exchanged
  · cases exchanged
  · split at exchanged
    · cases exchanged
    · cases exchanged
    · cases exchanged
    · rename_i account verdict listed
      cases exchanged
      have usable := exchange_usable verdict
      rw [listed, Option.any_some] at usable
      exact ⟨account, List.mem_of_find?_eq_some listed, usable_active usable, rfl⟩

theorem login_active [DecidableEq Digest] {environment : OtpLogin.Environment Digest}
    {request : OtpLogin.RequestInfo} {draws : OtpLogin.Draws} {phone : String}
    {session after : UnitOfWork.Session (OtpLogin.Database Digest) OtpLogin.Services}
    (entered : UnitOfWork.perform (OtpLogin.loginUser environment request draws phone) session =
      (.ok (user, false), after)) :
    user ∈ session.working.users ∧ user.accountState ≠ .suspended := by
  unfold OtpLogin.loginUser at entered
  rw [UnitOfWork.perform_bind_ok session (UnitOfWork.perform_rows session)] at entered
  split at entered
  · -- a number without an account: the one that is opened is answered as new
    have opened := (answers_bind fun _ => answers_bind fun _ => answers_pure (by rfl) :
      Answers (fun answer : User Digest × Bool => answer.2 = true) _) _ _ _ entered
    cases opened
  · rename_i account listed
    split at entered
    · rename_i usable
      cases entered
      exact ⟨List.mem_of_find?_eq_some listed, usable_active usable⟩
    · exact ((answers_bind fun _ => answers_bind fun _ => answers_throw _ :
        Answers (fun _ : User Digest × Bool => False) _) _ _ _ entered).elim

/-- After the commit of a suspension no request that reads the account from then on
gets in for it, whatever suspensions and logins follow, even if its sessions were
never revoked. -/
theorem suspended_shut_out {parseUuid : String → Option Uuid} {Tx : Type} [DecidableEq Tx]
    (start earlier later : State parseUuid Digest Tx) (before actions : List (Action Digest Tx))
    (distinct : (start.users.map User.id).Nodup) (idle : ∀ tx, start.phases tx = none)
    (reached : Runs.run step start before = some earlier) (member : row ∈ earlier.users)
    (held : row.accountState = .suspended) (ran : Runs.run step earlier actions = some later) :
    ShutOut later.users row.id := by
  have grown : Grows earlier.users later.users :=
    Runs.run_invariant (fun state => Grows earlier.users state.users)
      (fun _ _ _ grows taken => grows_trans grows (step_grows taken)) ran (grows_refl _)
  obtain ⟨heir, found, same, -, kept⟩ := grown row member
  have unique := (run_inv distinct idle
    ((Runs.run_append_iff _ _ _ _).mpr ⟨earlier, reached, ran⟩)).distinct
  refine ⟨?_, ?_, ?_⟩
  · intro jwt world authorization principal rows answered
    obtain ⟨listed, active⟩ := principal_active answered
    rw [← same]
    exact other_account unique found (kept held) (rows ▸ listed) active
  · intro Token _ sha256 settings pauses world presented nextId nextToken claims rows exchanged
    obtain ⟨account, listed, active, own⟩ := rotation_active exchanged
    rw [← same, own]
    exact other_account unique found (kept held) (rows ▸ listed) active
  · intro _ environment request draws phone session user after rows entered
    obtain ⟨listed, active⟩ := login_active entered
    rw [← same]
    exact other_account unique found (kept held) (rows ▸ listed) active

end Closing

end Doors

section Examples

def account (id : Uuid) (role : SystemRole) : User Nat :=
  ⟨id, id, "1234", "91", "User 1234", role, .active, none⟩

def idOf (text : String) : Option Uuid :=
  if text = "1" then some 1 else if text = "3" then some 3 else none

def staffed : State idOf Nat Nat :=
  { users := [account 1 .admin, account 2 .superAdmin, account 3 .user]
    auditLogs := [], phases := fun _ => none }

/-- An admin suspends a user while a super admin suspends the admin, and somebody
signs up. -/
def purge : List (Action Nat Nat) :=
  [.authenticate 0 1, .authenticate 1 2, .check 1 ⟨"1", "spam", none⟩, .commit 1,
    .check 0 ⟨"3", "spam", some 30⟩, .commit 0, .signUp (account 4 .user) 7 none "web"]

theorem staff_distinct : (staffed.users.map User.id).Nodup := by decide

theorem purge_accounted : ∃ final newer, Runs.run step staffed purge = some final ∧
    final.users.map User.accountState = [.suspended, .active, .suspended, .active] ∧
    final.auditLogs = staffed.auditLogs ++ newer ∧
    ∀ entry ∈ newer, entry.action = "user.suspended" → Ranked idOf final.users entry := by
  obtain ⟨final, ran, states⟩ : ∃ final, Runs.run step staffed purge = some final ∧
      final.users.map User.accountState = [.suspended, .active, .suspended, .active] := ⟨_, rfl, rfl⟩
  obtain ⟨newer, log, -, ranked⟩ :=
    suspensions_accounted staffed final purge staff_distinct (fun _ => rfl) ran
  exact ⟨final, newer, ran, states, log, ranked⟩

theorem admin_shut_out : ∃ earlier later,
    Runs.run step staffed (purge.take 4) = some earlier ∧
      Runs.run step earlier (purge.drop 4) = some later ∧ ShutOut later.users 1 := by
  obtain ⟨earlier, later, reached, ran, admin, member, held, named⟩ : ∃ earlier later,
      Runs.run step staffed (purge.take 4) = some earlier ∧
        Runs.run step earlier (purge.drop 4) = some later ∧
        ∃ admin ∈ earlier.users, admin.accountState = .suspended ∧ admin.id = 1 :=
    ⟨_, _, rfl, rfl, _, List.mem_cons_self, rfl, rfl⟩
  refine ⟨earlier, later, reached, ran, ?_⟩
  rw [← named]
  exact suspended_shut_out staffed earlier later (purge.take 4) (purge.drop 4) staff_distinct
    (fun _ => rfl) reached member held ran

end Examples

end RunnerupChat.Suspension
