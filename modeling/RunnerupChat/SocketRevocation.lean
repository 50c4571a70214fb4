import RunnerupChat.Replicas

/-!
`ws/router.py` and `services/sessions.py`: handshakes of sockets on any number
of replicas, and revocations of sessions. A mark in the cache outlives every
ticket of its session, so no mark is taken off here.
-/

namespace RunnerupChat.SocketRevocation

open ConnectionManager Replicas

/-- The user of each session row; ids are texts of UUIDs and never empty. -/
structure Owners where
  userOf : String → String
  named : ∀ session, userOf session ≠ ""

/-- What `issue_ticket` stores under a ticket. -/
structure Claims where
  userId : String
  sessionId : String
  deviceId : String
  deriving DecidableEq

/-- A `session.revoked` message. -/
structure Announcement where
  userId : String
  sessionIds : List String
  deriving DecidableEq

inductive Progress where
  | redeemed
  | checked
  | accepted
  /-- `register` was called and is this task of the registry. -/
  | registering (task : Nat)
  | serving
  | left
  | rejected
  deriving DecidableEq

structure Handshake (Place : Type) where
  place : Place
  claims : Claims
  progress : Progress

/-- The connection of a handshake; its id is fresh. -/
def connectionOf (index : Nat) (claims : Claims) : Connection :=
  ⟨index, claims.userId, claims.sessionId, claims.deviceId⟩

/-- `revoke_family` publishes before its caller commits; `revoke_all_for_user`
commits first. -/
inductive Scope where
  | family
  | account
  deriving DecidableEq

structure Revocation where
  scope : Scope
  announcement : Announcement
  unmarked : List String
  published : Bool := false
  committed : Bool := false

/-- `closing` are the connections that the relay of a replica has still to
close before it takes its next message. -/
structure State (Place : Type) where
  replicas : Place → Replica Announcement := fun _ => {}
  closing : Place → Finset Connection := fun _ => ∅
  closed : List Connection := []
  marked : List String := []
  tickets : String → Option Claims := fun _ => none
  handshakes : List (Handshake Place) := []
  revocations : List Revocation := []

inductive Action (Place : Type) where
  | issue (ticket : String) (claims : Claims)
  | expire (ticket : String)
  | redeem (ticket : String) (place : Place)
  /-- The handshake takes its next step. -/
  | proceed (index : Nat)
  /-- An exception ends the handshake before it has registered. -/
  | abort (index : Nat)
  | subscribe (index : Nat) (conversationId : String)
  | unsubscribe (index : Nat) (conversationId : String)
  | leave (index : Nat) (order : List String)
  /-- A call on a registry goes on. -/
  | resume (place : Place) (index : Nat) (order : List String)
  | takeEffect (place : Place)
  /-- `refresh` marks the session that it replaces. -/
  | rotate (session : String)
  | revoke (scope : Scope) (userId : String) (sessions : List String)
  | mark (index : Nat)
  | publish (index : Nat)
  | commit (index : Nat)
  | relay (place : Place)
  | close (place : Place) (connection : Connection)

section Steps
variable {Place : Type} [DecidableEq Place]

def advance (state : State Place) (index : Nat) (handshake : Handshake Place)
    (progress : Progress) : State Place :=
  { state with handshakes := state.handshakes.set index { handshake with progress := progress } }

/-- A handshake makes a call on the registry of its replica. -/
def callOn (state : State Place) (index : Nat) (handshake : Handshake Place)
    (progress : Progress) (call : Call) (order : List String) : Option (State Place) :=
  (begin (state.replicas handshake.place).registry call order).map fun registry =>
    { advance state index handshake progress with
      replicas := withRegistry state.replicas handshake.place registry }

def proceed (state : State Place) (index : Nat) (handshake : Handshake Place) :
    Option (State Place) :=
  let registry := (state.replicas handshake.place).registry
  match handshake.progress with
  | .redeemed =>
      if handshake.claims.sessionId ∈ state.marked then
        some (advance state index handshake .rejected)
      else some (advance state index handshake .checked)
  | .checked => some (advance state index handshake .accepted)
  | .accepted => callOn state index handshake (.registering registry.tasks.length)
      (.register (connectionOf index handshake.claims)) []
  | .registering task => match (registry.tasks[task]?).map Task.progress with
      | some (.returned true) => some (advance state index handshake .serving)
      | some (.returned false) => some (advance state index handshake .rejected)
      | _ => none
  | .serving | .left | .rejected => none

def abort (state : State Place) (index : Nat) (handshake : Handshake Place) :
    Option (State Place) :=
  match handshake.progress with
  | .redeemed | .checked | .accepted => some (advance state index handshake .rejected)
  | .registering _ | .serving | .left | .rejected => none

/-- The calls of a connection that is being served. -/
def serve (state : State Place) (index : Nat) (handshake : Handshake Place)
    (progress : Progress) (call : Call) (order : List String) : Option (State Place) :=
  match handshake.progress with
  | .serving => callOn state index handshake progress call order
  | _ => none

/-- A call goes on, or an issued command takes effect. -/
def work (state : State Place) (place : Place) (action : ConnectionManager.Action) :
    Option (State Place) :=
  (ConnectionManager.step (state.replicas place).registry action).map fun registry =>
    { state with replicas := withRegistry state.replicas place registry }

def revise (state : State Place) (index : Nat) (revocation : Revocation) : State Place :=
  { state with revocations := state.revocations.set index revocation }

def mark (state : State Place) (index : Nat) (revocation : Revocation) : Option (State Place) :=
  match revocation.unmarked with
  | [] => none
  | session :: rest =>
      some { revise state index { revocation with unmarked := rest } with
        marked := session :: state.marked }

def announce (state : State Place) (index : Nat) (revocation : Revocation) :
    Option (State Place) :=
  let announcement := revocation.announcement
  if revocation.unmarked = [] ∧ revocation.published = false ∧
      (revocation.scope = .account → revocation.committed = true) then
    some { revise state index { revocation with published := true } with
      replicas := publish state.replicas (userChannel announcement.userId) announcement }
  else none

def commit (state : State Place) (index : Nat) (revocation : Revocation) :
    Option (State Place) :=
  if revocation.unmarked = [] ∧ revocation.committed = false ∧
      (revocation.scope = .family → revocation.published = true) then
    some (revise state index { revocation with committed := true })
  else none

/-- The connections that `_close_revoked` closes. -/
def closeRevoked (manager : Manager) (announcement : Announcement) : Finset Connection :=
  if announcement.sessionIds = [] ∨ announcement.userId = "" then ∅
  else (manager.users announcement.userId).filter fun connection =>
    connection.sessionId ∈ announcement.sessionIds

def relay (state : State Place) (place : Place) : Option (State Place) :=
  let replica := state.replicas place
  match replica.inbox with
  | [] => none
  | announcement :: later =>
      if state.closing place = ∅ then
        some { state with
          replicas := withInbox state.replicas place later
          closing := Function.update state.closing place
            (closeRevoked replica.registry.manager announcement) }
      else none

def step (owners : Owners) (state : State Place) : Action Place → Option (State Place)
  | .issue ticket claims =>
      if state.tickets ticket = none ∧ claims.userId = owners.userOf claims.sessionId then
        some { state with tickets := Function.update state.tickets ticket (some claims) }
      else none
  | .expire ticket => some { state with tickets := Function.update state.tickets ticket none }
  | .redeem ticket place => (state.tickets ticket).map fun claims =>
      { state with
        tickets := Function.update state.tickets ticket none
        handshakes := state.handshakes ++ [⟨place, claims, .redeemed⟩] }
  | .proceed index => (state.handshakes[index]?).bind fun handshake =>
      proceed state index handshake
  | .abort index => (state.handshakes[index]?).bind fun handshake => abort state index handshake
  | .subscribe index conversationId => (state.handshakes[index]?).bind fun handshake =>
      serve state index handshake .serving (.subscribe (connectionOf index handshake.claims)
        (conversationChannel conversationId)) []
  | .unsubscribe index conversationId => (state.handshakes[index]?).bind fun handshake =>
      serve state index handshake .serving (.unsubscribe (connectionOf index handshake.claims)
        (conversationChannel conversationId)) []
  | .leave index order => (state.handshakes[index]?).bind fun handshake =>
      serve state index handshake .left (.unregister (connectionOf index handshake.claims)) order
  | .resume place index order => work state place (.resume index order)
  | .takeEffect place => work state place .takeEffect
  | .rotate session => some { state with marked := session :: state.marked }
  | .revoke scope userId sessions =>
      -- the rows that the update returns: they are of one user, and nobody revoked them before
      if sessions ≠ [] ∧ (∀ session ∈ sessions, owners.userOf session = userId) ∧
          ∀ session ∈ sessions, ∀ earlier ∈ state.revocations,
            session ∉ earlier.announcement.sessionIds then
        some { state with
          revocations := state.revocations ++ [⟨scope, ⟨userId, sessions⟩, sessions, false, false⟩] }
      else none
  | .mark index => (state.revocations[index]?).bind fun revocation => mark state index revocation
  | .publish index => (state.revocations[index]?).bind fun revocation =>
      announce state index revocation
  | .commit index => (state.revocations[index]?).bind fun revocation =>
      commit state index revocation
  | .relay place => relay state place
  | .close place connection =>
      if connection ∈ state.closing place then
        some { state with
          closing := Function.update state.closing place ((state.closing place).erase connection)
          closed := connection :: state.closed }
      else none

end Steps

section Conditions
variable {Place : Type} {state : State Place}

/-- The connection has passed the cache check and is not in the registry. -/
def Coming (state : State Place) (place : Place) (connection : Connection) : Prop :=
  (∃ (index : Nat) (handshake : Handshake Place), state.handshakes[index]? = some handshake ∧
    handshake.place = place ∧ connection = connectionOf index handshake.claims ∧
    (handshake.progress = .checked ∨ handshake.progress = .accepted)) ∨
  ∃ task : Nat, (state.replicas place).registry.tasks[task]? =
    some ⟨.register connection, .waiting⟩

/-- The connection is in the registry, and the command to subscribe to the
channel of its user has not taken effect. -/
def Joining (state : State Place) (place : Place) (connection : Connection) : Prop :=
  (∃ user, connection ∈ (state.replicas place).registry.manager.users user) ∧
    .subscribe (userChannel connection.userId) ∈ (state.replicas place).registry.manager.pending

/-- An announcement is published only when every connection of its sessions
that is on its way into a registry is on a replica that is subscribed to the
channel of its user, and relayed only when none is between its cache check and
the registry. -/
def Timely (state : State Place) : Action Place → Prop
  | .publish index => ∀ revocation, state.revocations[index]? = some revocation →
      ∀ place connection, connection.sessionId ∈ revocation.announcement.sessionIds →
        Coming state place connection ∨ Joining state place connection →
        isSubscribed (state.replicas place) (userChannel connection.userId) = true
  | .relay place => ∀ announcement later, (state.replicas place).inbox = announcement :: later →
      ∀ connection, Coming state place connection →
        connection.sessionId ∉ announcement.sessionIds
  | _ => True

def Announced (state : State Place) (session : String) : Prop :=
  ∃ revocation ∈ state.revocations, session ∈ revocation.announcement.sessionIds ∧
    revocation.published = true

/-- The revocation of the session is over. -/
def Revoked (state : State Place) (session : String) : Prop :=
  ∃ revocation ∈ state.revocations, session ∈ revocation.announcement.sessionIds ∧
    revocation.published = true ∧ revocation.committed = true

/-- All published messages have been processed and no handshake is in progress. -/
structure Quiet (state : State Place) : Prop where
  processed : ∀ place, (state.replicas place).inbox = [] ∧ state.closing place = ∅
  settled : ∀ handshake ∈ state.handshakes, handshake.progress = .serving ∨
    handshake.progress = .left ∨ handshake.progress = .rejected

/-- No registered connection that is open has a revoked session. -/
def Dropped (state : State Place) : Prop :=
  ∀ place connection user, connection ∈ (state.replicas place).registry.manager.users user →
    Revoked state connection.sessionId → connection ∈ state.closed

end Conditions

section Invariant
variable {Place : Type} [DecidableEq Place] {owners : Owners} {state next : State Place}
  {action : Action Place}

/-- What a step can do. -/
inductive Stepped (owners : Owners) (state : State Place) : Action Place → State Place → Prop where
  | ticketed {action : Action Place} (tickets : String → Option Claims)
      (owned : ∀ ticket claims, tickets ticket = some claims →
        state.tickets ticket = some claims ∨ claims.userId = owners.userOf claims.sessionId) :
      Stepped owners state action { state with tickets := tickets }
  | redeemed {action : Action Place} (ticket : String) (place : Place) (claims : Claims)
      (found : state.tickets ticket = some claims) :
      Stepped owners state action { state with
        tickets := Function.update state.tickets ticket none
        handshakes := state.handshakes ++ [⟨place, claims, .redeemed⟩] }
  | advanced {action : Action Place} (index : Nat) (handshake : Handshake Place)
      (progress : Progress) (found : state.handshakes[index]? = some handshake)
      (stays : handshake.progress ≠ .left)
      (passes : progress = .checked ∨ progress = .accepted →
        handshake.progress = .checked ∨ handshake.claims.sessionId ∉ state.marked) :
      Stepped owners state action (advance state index handshake progress)
  | called {action : Action Place} (index : Nat) (handshake : Handshake Place)
      (progress : Progress) (call : Call) (order : List String)
      (registry : ConnectionManager.State)
      (found : state.handshakes[index]? = some handshake) (stays : handshake.progress ≠ .left)
      (begun : begin (state.replicas handshake.place).registry call order = some registry)
      (own : call.connection = connectionOf index handshake.claims)
      (later : progress ≠ .checked ∧ progress ≠ .accepted)
      (ends : call.Ends → progress = .left)
      (registers : ∀ connection, call = .register connection → handshake.progress = .accepted)
      (spares : SparesUsers (.call call order)) :
      Stepped owners state action { advance state index handshake progress with
        replicas := withRegistry state.replicas handshake.place registry }
  | worked {action : Action Place} (place : Place) (work : ConnectionManager.Action)
      (registry : ConnectionManager.State) (onward : ∀ call order, work ≠ .call call order)
      (moved : ConnectionManager.step (state.replicas place).registry work = some registry) :
      Stepped owners state action { state with
        replicas := withRegistry state.replicas place registry }
  | rotated {action : Action Place} (session : String) :
      Stepped owners state action { state with marked := session :: state.marked }
  | revoking {action : Action Place} (scope : Scope) (userId : String) (sessions : List String)
      (owned : ∀ session ∈ sessions, owners.userOf session = userId) :
      Stepped owners state action { state with
        revocations := state.revocations ++ [⟨scope, ⟨userId, sessions⟩, sessions, false, false⟩] }
  | marked {action : Action Place} (index : Nat) (revocation : Revocation) (session : String)
      (rest : List String) (found : state.revocations[index]? = some revocation)
      (unmarked : revocation.unmarked = session :: rest) :
      Stepped owners state action { revise state index { revocation with unmarked := rest } with
        marked := session :: state.marked }
  | published (index : Nat) (revocation : Revocation)
      (found : state.revocations[index]? = some revocation) (ready : revocation.unmarked = []) :
      Stepped owners state (.publish index)
        { revise state index { revocation with published := true } with
          replicas := publish state.replicas (userChannel revocation.announcement.userId)
            revocation.announcement }
  | committed {action : Action Place} (index : Nat) (revocation : Revocation)
      (found : state.revocations[index]? = some revocation) (ready : revocation.unmarked = []) :
      Stepped owners state action (revise state index { revocation with committed := true })
  | relayed (place : Place) (announcement : Announcement) (later : List Announcement)
      (waits : (state.replicas place).inbox = announcement :: later)
      (idle : state.closing place = ∅) :
      Stepped owners state (.relay place) { state with
        replicas := withInbox state.replicas place later
        closing := Function.update state.closing place
          (closeRevoked (state.replicas place).registry.manager announcement) }
  | closed {action : Action Place} (place : Place) (connection : Connection) :
      Stepped owners state action { state with
        closing := Function.update state.closing place ((state.closing place).erase connection)
        closed := connection :: state.closed }

theorem proceed_stepped {index : Nat} {handshake : Handshake Place}
    (found : state.handshakes[index]? = some handshake)
    (taken : proceed state index handshake = some next) : Stepped owners state action next := by
  simp only [proceed] at taken
  split at taken
  · rename_i redeemed
    have stays : handshake.progress ≠ .left := by simp [redeemed]
    split at taken
    · cases taken
      exact .advanced index handshake .rejected found stays (by simp)
    · rename_i unmarked
      cases taken
      exact .advanced index handshake .checked found stays fun _ => Or.inr unmarked
  · rename_i checked
    cases taken
    exact .advanced index handshake .accepted found (by simp [checked]) fun _ => Or.inl checked
  · rename_i accepted
    obtain ⟨registry, begun, rfl⟩ := Option.map_eq_some_iff.mp taken
    exact .called index handshake _ _ [] registry found (by simp [accepted]) begun rfl (by simp)
      (fun ⟨_, same⟩ => nomatch same) (fun _ _ => accepted) trivial
  · rename_i task registering
    have stays : handshake.progress ≠ .left := by simp [registering]
    split at taken
    · cases taken
      exact .advanced index handshake .serving found stays (by simp)
    · cases taken
      exact .advanced index handshake .rejected found stays (by simp)
    · cases taken
  · cases taken
  · cases taken
  · cases taken

theorem abort_stepped {index : Nat} {handshake : Handshake Place}
    (found : state.handshakes[index]? = some handshake)
    (taken : abort state index handshake = some next) : Stepped owners state action next := by
  unfold abort at taken
  split at taken <;> rename_i progress <;> cases taken <;>
    exact .advanced index handshake .rejected found (by simp [progress]) (by simp)

theorem serve_stepped {index : Nat} {handshake : Handshake Place} {progress : Progress}
    {call : Call} {order : List String} (found : state.handshakes[index]? = some handshake)
    (taken : serve state index handshake progress call order = some next)
    (own : call.connection = connectionOf index handshake.claims)
    (later : progress ≠ .checked ∧ progress ≠ .accepted) (ends : call.Ends → progress = .left)
    (registers : ∀ connection, call ≠ .register connection)
    (spares : SparesUsers (.call call order)) : Stepped owners state action next := by
  unfold serve at taken
  split at taken
  · rename_i serving
    obtain ⟨registry, begun, rfl⟩ := Option.map_eq_some_iff.mp taken
    exact .called index handshake progress call order registry found (by simp [serving]) begun own
      later ends (fun connection same => absurd same (registers connection)) spares
  · cases taken

theorem work_stepped {place : Place} {call : ConnectionManager.Action}
    (onward : ∀ made order, call ≠ .call made order) (taken : work state place call = some next) :
    Stepped owners state action next := by
  obtain ⟨registry, moved, rfl⟩ := Option.map_eq_some_iff.mp taken
  exact .worked place call registry onward moved

theorem spent_kept {tickets : String → Option Claims} {ticket other : String} {claims : Claims}
    (held : Function.update tickets ticket none other = some claims) :
    tickets other = some claims := by
  by_cases same : other = ticket
  · subst same
    rw [Function.update_self] at held
    cases held
  · exact (Function.update_of_ne same _ _).symm.trans held

theorem step_stepped (taken : step owners state action = some next) :
    Stepped owners state action next := by
  cases action with
  | issue ticket claims =>
      simp only [step] at taken
      split at taken
      · rename_i fresh
        cases taken
        refine .ticketed _ fun other found held => ?_
        by_cases same : other = ticket
        · subst same
          rw [Function.update_self] at held
          exact Or.inr (Option.some.inj held ▸ fresh.2)
        · exact Or.inl ((Function.update_of_ne same _ _).symm.trans held)
      · cases taken
  | expire ticket =>
      cases taken
      exact .ticketed _ fun other found held => Or.inl (spent_kept held)
  | redeem ticket place =>
      obtain ⟨claims, found, rfl⟩ := Option.map_eq_some_iff.mp taken
      exact .redeemed ticket place claims found
  | proceed index =>
      obtain ⟨handshake, found, moved⟩ := Option.bind_eq_some_iff.mp taken
      exact proceed_stepped found moved
  | abort index =>
      obtain ⟨handshake, found, moved⟩ := Option.bind_eq_some_iff.mp taken
      exact abort_stepped found moved
  | subscribe index conversationId =>
      obtain ⟨handshake, found, moved⟩ := Option.bind_eq_some_iff.mp taken
      exact serve_stepped found moved rfl (by simp) (fun ⟨_, same⟩ => nomatch same)
        (fun _ same => nomatch same) trivial
  | unsubscribe index conversationId =>
      obtain ⟨handshake, found, moved⟩ := Option.bind_eq_some_iff.mp taken
      exact serve_stepped found moved rfl (by simp) (fun ⟨_, same⟩ => nomatch same)
        (fun _ same => nomatch same) (channels_apart conversationId _)
  | leave index order =>
      obtain ⟨handshake, found, moved⟩ := Option.bind_eq_some_iff.mp taken
      exact serve_stepped found moved rfl (by simp) (fun _ => rfl) (fun _ same => nomatch same)
        trivial
  | resume place index order => exact work_stepped (by simp) taken
  | takeEffect place => exact work_stepped (by simp) taken
  | rotate session =>
      cases taken
      exact .rotated session
  | revoke scope userId sessions =>
      simp only [step] at taken
      split at taken
      · rename_i rows
        cases taken
        exact .revoking scope userId sessions rows.2.1
      · cases taken
  | mark index =>
      obtain ⟨revocation, found, moved⟩ := Option.bind_eq_some_iff.mp taken
      unfold mark at moved
      split at moved
      · cases moved
      · rename_i session rest unmarked
        cases moved
        exact .marked index revocation session rest found unmarked
  | publish index =>
      obtain ⟨revocation, found, moved⟩ := Option.bind_eq_some_iff.mp taken
      simp only [announce] at moved
      split at moved
      · rename_i ready
        cases moved
        exact .published index revocation found ready.1
      · cases moved
  | commit index =>
      obtain ⟨revocation, found, moved⟩ := Option.bind_eq_some_iff.mp taken
      simp only [commit] at moved
      split at moved
      · rename_i ready
        cases moved
        exact .committed index revocation found ready.1
      · cases moved
  | relay place =>
      simp only [step, relay] at taken
      split at taken
      · cases taken
      · rename_i announcement later waits
        split at taken
        · rename_i idle
          cases taken
          exact .relayed place announcement later waits idle
        · cases taken
  | close place connection =>
      simp only [step] at taken
      split at taken
      · cases taken
        exact .closed place connection
      · cases taken

def Owned (owners : Owners) (connection : Connection) : Prop :=
  connection.userId = owners.userOf connection.sessionId

/-- What holds of a revocation at each of its steps. -/
structure Rightful (owners : Owners) (marked : List String) (revocation : Revocation) : Prop where
  owned : ∀ session ∈ revocation.announcement.sessionIds,
    owners.userOf session = revocation.announcement.userId
  marks : ∀ session ∈ revocation.announcement.sessionIds,
    session ∈ revocation.unmarked ∨ session ∈ marked
  ready : revocation.published = true → revocation.unmarked = []

structure Inv (owners : Owners) (state : State Place) : Prop where
  registry : ∀ place, ConnectionManager.Inv (state.replicas place).registry
  housed : ∀ place connection, Housed (state.replicas place).registry.manager connection
  ended : ∀ place connection, .unregister connection ∈ calls (state.replicas place).registry →
    ∃ handshake, state.handshakes[connection.connectionId]? = some handshake ∧
      handshake.progress = .left
  tickets : ∀ ticket claims, state.tickets ticket = some claims →
    claims.userId = owners.userOf claims.sessionId
  handshakes : ∀ (index : Nat) handshake, state.handshakes[index]? = some handshake →
    handshake.claims.userId = owners.userOf handshake.claims.sessionId
  waiting : ∀ place (task : Nat) connection, (state.replicas place).registry.tasks[task]? =
    some ⟨.register connection, .waiting⟩ → Owned owners connection
  users : ∀ place connection user,
    connection ∈ (state.replicas place).registry.manager.users user → Owned owners connection
  inbox : ∀ place, ∀ announcement ∈ (state.replicas place).inbox,
    ∀ session ∈ announcement.sessionIds, owners.userOf session = announcement.userId
  revocations : ∀ revocation ∈ state.revocations, Rightful owners state.marked revocation

omit [DecidableEq Place] in
theorem coming_owned (inv : Inv owners state) {place : Place} {connection : Connection}
    (coming : Coming state place connection) : Owned owners connection := by
  rcases coming with ⟨index, handshake, found, _, rfl, _⟩ | ⟨task, waits⟩
  · exact inv.handshakes index handshake found
  · exact inv.waiting place task connection waits

/-- A call is made for a connection that has not left. -/
structure Called (state next : State Place) (place : Place) (call : Call) (index : Nat)
    (handshake : Handshake Place) : Prop where
  found : state.handshakes[index]? = some handshake
  here : handshake.place = place
  own : call.connection = connectionOf index handshake.claims
  stays : handshake.progress ≠ .left
  registers : ∀ connection, call = .register connection → handshake.progress = .accepted
  ends : call.Ends → next.handshakes[index]? = some { handshake with progress := .left }

/-- The step that a registry takes, if any. -/
theorem registry_cases (stepped : Stepped owners state action next) (place : Place) :
    (next.replicas place).registry = (state.replicas place).registry ∨
      ∃ work, ConnectionManager.step (state.replicas place).registry work =
          some (next.replicas place).registry ∧ SparesUsers work ∧
        ∀ call order, work = .call call order →
          ∃ index handshake, Called state next place call index handshake := by
  cases stepped with
  | ticketed | redeemed | advanced | rotated | revoking | marked | committed | closed =>
      exact Or.inl rfl
  | called index handshake progress call order registry found stays begun own later ends
      registers spares =>
      by_cases here : place = handshake.place
      · subst here
        refine Or.inr ⟨.call call order, ?_, spares, ?_⟩
        · rw [registry_self]
          exact begun
        · rintro other also same
          cases same
          refine ⟨index, handshake, found, rfl, own, stays, registers, fun ending => ?_⟩
          obtain rfl := ends ending
          exact List.getElem?_set_self (List.getElem?_eq_some_iff.mp found).1
      · exact Or.inl (registry_other registry here)
  | worked other work registry onward moved =>
      by_cases here : place = other
      · subst here
        refine Or.inr ⟨work, ?_, ?_, fun call order same => absurd same (onward call order)⟩
        · rw [registry_self]
          exact moved
        · cases work with
          | call call order => exact absurd rfl (onward call order)
          | resume _ _ | takeEffect => trivial
      · exact Or.inl (registry_other registry here)
  | published => exact Or.inl publish_registry
  | relayed => exact Or.inl (inbox_registry _)

theorem handshake_cases (stepped : Stepped owners state action next) {index : Nat}
    {handshake : Handshake Place} (found : next.handshakes[index]? = some handshake) :
    state.handshakes[index]? = some handshake ∨
      (∃ earlier, state.handshakes[index]? = some earlier ∧ handshake.claims = earlier.claims ∧
        handshake.place = earlier.place ∧
        (handshake.progress = .checked ∨ handshake.progress = .accepted →
          earlier.progress = .checked ∨ earlier.claims.sessionId ∉ state.marked)) ∨
      handshake.progress = .redeemed ∧ ∃ ticket, state.tickets ticket = some handshake.claims := by
  cases stepped with
  | ticketed | worked | rotated | revoking | marked | published | committed | relayed | closed =>
      exact Or.inl found
  | redeemed ticket place claims held =>
      rcases Runs.added_cases found with old | ⟨_, rfl⟩
      · exact Or.inl old
      · exact Or.inr (Or.inr ⟨rfl, ticket, held⟩)
  | advanced place earlier progress listed stays passes =>
      rcases Runs.moved_cases found with ⟨rfl, rfl⟩ | ⟨_, old⟩
      · exact Or.inr (Or.inl ⟨earlier, listed, rfl, rfl, passes⟩)
      · exact Or.inl old
  | called place earlier progress call order registry listed stays begun own later ends
      registers spares =>
      rcases Runs.moved_cases found with ⟨rfl, rfl⟩ | ⟨_, old⟩
      · refine Or.inr (Or.inl ⟨earlier, listed, rfl, rfl, fun early => ?_⟩)
        exact absurd early (not_or.mpr later)
      · exact Or.inl old

/-- A connection that has left does not come back. -/
theorem left_kept (stepped : Stepped owners state action next) {index : Nat}
    {handshake : Handshake Place} (found : state.handshakes[index]? = some handshake)
    (gone : handshake.progress = .left) : next.handshakes[index]? = some handshake := by
  have moves : ∀ (place : Nat) earlier changed, state.handshakes[place]? = some earlier →
      earlier.progress ≠ .left →
      (state.handshakes.set place changed)[index]? = some handshake := by
    intro place earlier changed listed stays
    have distinct : place ≠ index := by
      rintro rfl
      exact stays (Option.some.inj (listed.symm.trans found) ▸ gone)
    exact (List.getElem?_set_ne distinct).trans found
  cases stepped with
  | ticketed | worked | rotated | revoking | marked | published | committed | relayed | closed =>
      exact found
  | redeemed =>
      exact (List.getElem?_append_left (List.getElem?_eq_some_iff.mp found).1).trans found
  | advanced place earlier progress listed stays => exact moves place earlier _ listed stays
  | called place earlier progress call order registry listed stays =>
      exact moves place earlier _ listed stays

omit [DecidableEq Place] in
theorem registers_coming {place : Place} {work : ConnectionManager.Action}
    {connection : Connection}
    (permitted : ∀ call order, work = .call call order →
      ∃ index handshake, Called state next place call index handshake)
    (registers : Registers (state.replicas place).registry work connection) :
    Coming state place connection := by
  rcases registers with ⟨order, rfl⟩ | waits
  · obtain ⟨index, handshake, called⟩ := permitted _ order rfl
    exact Or.inl ⟨index, handshake, called.found, called.here, called.own,
      Or.inr (called.registers connection rfl)⟩
  · exact Or.inr waits

theorem users_cases (stepped : Stepped owners state action next) {place : Place}
    {connection : Connection} {user : String}
    (member : connection ∈ (next.replicas place).registry.manager.users user) :
    connection ∈ (state.replicas place).registry.manager.users user ∨
      Coming state place connection := by
  rcases registry_cases stepped place with same | ⟨work, moved, _, permitted⟩
  · exact Or.inl (same ▸ member)
  · exact ((step_added moved).users connection user member).imp_right
      (registers_coming permitted)

theorem waiting_coming (stepped : Stepped owners state action next) {place : Place} {task : Nat}
    {connection : Connection} (waits : (next.replicas place).registry.tasks[task]? =
      some ⟨.register connection, .waiting⟩) : Coming state place connection := by
  rcases registry_cases stepped place with same | ⟨work, moved, _, permitted⟩
  · exact Or.inr ⟨task, same ▸ waits⟩
  · exact registers_coming permitted ((step_added moved).waiting task connection waits)

/-- Who is on the way to a registry was so before, or its session was not
marked. -/
theorem coming_cases (stepped : Stepped owners state action next) {place : Place}
    {connection : Connection} (coming : Coming next place connection) :
    Coming state place connection ∨ connection.sessionId ∉ state.marked := by
  rcases coming with ⟨index, handshake, found, here, rfl, early⟩ | ⟨task, waits⟩
  · rcases handshake_cases stepped found with old | ⟨earlier, listed, claims, same, passes⟩ |
      ⟨redeemed, _⟩
    · exact Or.inl (Or.inl ⟨index, handshake, old, here, rfl, early⟩)
    · rcases passes early with checked | unmarked
      · exact Or.inl (Or.inl ⟨index, earlier, listed, same ▸ here, by rw [claims], Or.inl checked⟩)
      · refine Or.inr ?_
        rw [claims]
        exact unmarked
    · rcases early with other | other <;> rw [redeemed] at other <;> cases other
  · exact Or.inl (waiting_coming stepped waits)

omit [DecidableEq Place] in
theorem called_last (inv : Inv owners state) {place : Place} {work : ConnectionManager.Action}
    (permitted : ∀ call order, work = .call call order →
      ∃ index handshake, Called state next place call index handshake) :
    Last (state.replicas place).registry work := by
  cases work with
  | call call order =>
      intro task member ended
      obtain ⟨index, handshake, called⟩ := permitted call order rfl
      obtain ⟨gone, found, left⟩ :=
        inv.ended place call.connection (ended ▸ List.mem_map_of_mem member)
      rw [called.own] at found
      exact called.stays (Option.some.inj (called.found.symm.trans found) ▸ left)
  | resume index order | takeEffect => trivial

theorem ended_step (inv : Inv owners state) (stepped : Stepped owners state action next)
    {place : Place} {connection : Connection}
    (ended : .unregister connection ∈ calls (next.replicas place).registry) :
    ∃ handshake, next.handshakes[connection.connectionId]? = some handshake ∧
      handshake.progress = .left := by
  have before : .unregister connection ∈ calls (state.replicas place).registry →
      ∃ handshake, next.handshakes[connection.connectionId]? = some handshake ∧
        handshake.progress = .left := by
    intro old
    obtain ⟨handshake, found, gone⟩ := inv.ended place connection old
    exact ⟨handshake, left_kept stepped found gone, gone⟩
  rcases registry_cases stepped place with same | ⟨work, moved, _, permitted⟩
  · exact before (same ▸ ended)
  · rcases step_calls moved with same | ⟨call, order, rfl, more⟩
    · exact before (same ▸ ended)
    · rw [more, List.mem_append, List.mem_singleton] at ended
      rcases ended with old | rfl
      · exact before old
      · obtain ⟨index, handshake, called⟩ := permitted _ order rfl
        refine ⟨{ handshake with progress := .left }, ?_, rfl⟩
        rw [show connection = connectionOf index handshake.claims from called.own]
        exact called.ends ⟨connection, rfl⟩

/-- What a step does with the revocations and the marks. -/
theorem revocations_step (inv : Inv owners state) (stepped : Stepped owners state action next) :
    ∀ revocation ∈ next.revocations, Rightful owners next.marked revocation := by
  have grown : ∀ session revocation, Rightful owners state.marked revocation →
      Rightful owners (session :: state.marked) revocation := fun session revocation rightful =>
    ⟨rightful.owned, fun other named =>
      (rightful.marks other named).imp_right (List.mem_cons_of_mem session), rightful.ready⟩
  have revised : ∀ (index : Nat) changed, Rightful owners state.marked changed →
      ∀ revocation ∈ state.revocations.set index changed,
        Rightful owners state.marked revocation := by
    intro index changed rightful revocation member
    rcases List.mem_or_eq_of_mem_set member with old | rfl
    · exact inv.revocations revocation old
    · exact rightful
  cases stepped with
  | ticketed | redeemed | advanced | called | worked | relayed | closed => exact inv.revocations
  | rotated session =>
      exact fun revocation member => grown session revocation (inv.revocations revocation member)
  | revoking scope userId sessions owned =>
      intro revocation member
      rcases List.mem_append.mp member with old | new
      · exact inv.revocations revocation old
      · rw [List.mem_singleton.mp new]
        exact ⟨owned, fun session named => Or.inl named, fun false => nomatch false⟩
  | marked index revocation session rest found unmarked =>
      have before := inv.revocations revocation (List.mem_of_getElem? found)
      intro other member
      rcases List.mem_or_eq_of_mem_set member with old | rfl
      · exact grown session other (inv.revocations other old)
      · refine ⟨before.owned, fun named listed => ?_, fun shown => ?_⟩
        · rcases before.marks named listed with waits | done
          · rw [unmarked] at waits
            rcases List.mem_cons.mp waits with rfl | later
            · exact Or.inr List.mem_cons_self
            · exact Or.inl later
          · exact Or.inr (List.mem_cons_of_mem session done)
        · rw [before.ready shown] at unmarked
          cases unmarked
  | published index revocation found ready =>
      have before := inv.revocations revocation (List.mem_of_getElem? found)
      exact revised index _ ⟨before.owned, before.marks, fun _ => ready⟩
  | committed index revocation found ready =>
      have before := inv.revocations revocation (List.mem_of_getElem? found)
      exact revised index _ ⟨before.owned, before.marks, before.ready⟩

theorem inbox_step (inv : Inv owners state) (stepped : Stepped owners state action next)
    (place : Place) : ∀ announcement ∈ (next.replicas place).inbox,
    ∀ session ∈ announcement.sessionIds, owners.userOf session = announcement.userId := by
  have before := inv.inbox place
  cases stepped with
  | ticketed | redeemed | advanced | rotated | revoking | marked | committed | closed =>
      exact before
  | called | worked =>
      intro announcement member
      rw [registry_inbox] at member
      exact before announcement member
  | published index revocation found ready =>
      intro announcement member
      rcases mem_publish.mp member with old | ⟨rfl, _⟩
      · exact before announcement old
      · exact (inv.revocations revocation (List.mem_of_getElem? found)).owned
  | relayed relayed announcement later waits idle =>
      intro other member
      by_cases same : place = relayed
      · subst same
        rw [inbox_self] at member
        exact before other (waits ▸ List.mem_cons_of_mem announcement member)
      · rw [inbox_other later same] at member
        exact before other member

theorem tickets_step (inv : Inv owners state) (stepped : Stepped owners state action next) :
    ∀ ticket claims, next.tickets ticket = some claims →
      claims.userId = owners.userOf claims.sessionId := by
  cases stepped with
  | advanced | called | worked | rotated | revoking | marked | published | committed | relayed
  | closed => exact inv.tickets
  | ticketed tickets owned =>
      intro ticket claims held
      exact (owned ticket claims held).elim (inv.tickets ticket claims) id
  | redeemed spent place claims found =>
      exact fun ticket other held => inv.tickets ticket other (spent_kept held)

theorem inv_step (inv : Inv owners state) (stepped : Stepped owners state action next) :
    Inv owners next where
  registry := by
    intro place
    rcases registry_cases stepped place with same | ⟨work, moved, _, permitted⟩
    · exact same ▸ inv.registry place
    · exact step_inv (inv.registry place) (called_last inv permitted) moved
  housed := by
    intro place
    rcases registry_cases stepped place with same | ⟨work, moved, spares, permitted⟩
    · exact same ▸ inv.housed place
    · exact step_housed (inv.registry place) (called_last inv permitted) spares moved
        (inv.housed place)
  ended := fun _ _ => ended_step inv stepped
  tickets := tickets_step inv stepped
  handshakes := by
    intro index handshake found
    rcases handshake_cases stepped found with old | ⟨earlier, listed, claims, _⟩ |
      ⟨_, ticket, held⟩
    · exact inv.handshakes index handshake old
    · rw [claims]
      exact inv.handshakes index earlier listed
    · exact inv.tickets ticket handshake.claims held
  waiting := fun _ _ _ waits => coming_owned inv (waiting_coming stepped waits)
  users := by
    intro place connection user member
    rcases users_cases stepped member with old | coming
    · exact inv.users place connection user old
    · exact coming_owned inv coming
  inbox := inbox_step inv stepped
  revocations := revocations_step inv stepped

def Heard (state : State Place) (place : Place) (session : String) : Prop :=
  ∃ announcement ∈ (state.replicas place).inbox, session ∈ announcement.sessionIds

/-- An announcement of a session waits for every connection of it that is on
its way or registered, unless the connection has been picked to be closed. -/
structure Notified (state : State Place) : Prop where
  coming : ∀ place connection, Coming state place connection →
    Announced state connection.sessionId → Heard state place connection.sessionId
  users : ∀ place connection user,
    connection ∈ (state.replicas place).registry.manager.users user →
    Announced state connection.sessionId → Heard state place connection.sessionId ∨
      connection ∈ state.closing place ∨ connection ∈ state.closed

omit [DecidableEq Place] in
theorem announced_marked (inv : Inv owners state) {session : String}
    (announced : Announced state session) : session ∈ state.marked := by
  obtain ⟨revocation, member, named, shown⟩ := announced
  have rightful := inv.revocations revocation member
  rcases rightful.marks session named with waits | done
  · rw [rightful.ready shown] at waits
    cases waits
  · exact done

/-- An announcement is made by its publication alone. -/
theorem announced_cases (stepped : Stepped owners state action next) {session : String}
    (announced : Announced next session) : Announced state session ∨
      ∃ index revocation, action = .publish index ∧
        state.revocations[index]? = some revocation ∧ revocation.unmarked = [] ∧
        session ∈ revocation.announcement.sessionIds ∧
        next.replicas = publish state.replicas (userChannel revocation.announcement.userId)
          revocation.announcement := by
  obtain ⟨revocation, member, named, shown⟩ := announced
  have old : revocation ∈ state.revocations → Announced state session :=
    fun member => ⟨revocation, member, named, shown⟩
  cases stepped with
  | ticketed | redeemed | advanced | called | worked | rotated | relayed | closed =>
      exact Or.inl (old member)
  | revoking =>
      rcases List.mem_append.mp member with listed | new
      · exact Or.inl (old listed)
      · rw [List.mem_singleton.mp new] at shown
        cases shown
  | marked index earlier session rest found unmarked =>
      rcases List.mem_or_eq_of_mem_set member with listed | rfl
      · exact Or.inl (old listed)
      · exact Or.inl ⟨earlier, List.mem_of_getElem? found, named, shown⟩
  | published index earlier found ready =>
      rcases List.mem_or_eq_of_mem_set member with listed | rfl
      · exact Or.inl (old listed)
      · exact Or.inr ⟨index, earlier, rfl, found, ready, named, rfl⟩
  | committed index earlier found ready =>
      rcases List.mem_or_eq_of_mem_set member with listed | rfl
      · exact Or.inl (old listed)
      · exact Or.inl ⟨earlier, List.mem_of_getElem? found, named, shown⟩

/-- An announcement waits until it is relayed. -/
theorem heard_cases (stepped : Stepped owners state action next) {place : Place}
    {session : String} (heard : Heard state place session) : Heard next place session ∨
      ∃ announcement later, action = .relay place ∧
        (state.replicas place).inbox = announcement :: later ∧
        session ∈ announcement.sessionIds ∧
        (next.replicas place).registry = (state.replicas place).registry ∧
        next.closing place = closeRevoked (state.replicas place).registry.manager announcement := by
  obtain ⟨announcement, member, named⟩ := heard
  cases stepped with
  | ticketed | redeemed | advanced | rotated | revoking | marked | committed | closed =>
      exact Or.inl ⟨announcement, member, named⟩
  | called | worked => exact Or.inl ⟨announcement, by rwa [registry_inbox], named⟩
  | published => exact Or.inl ⟨announcement, mem_publish.mpr (Or.inl member), named⟩
  | relayed relayed first later waits idle =>
      by_cases same : place = relayed
      · subst same
        rw [waits] at member
        rcases List.mem_cons.mp member with rfl | rest
        · exact Or.inr ⟨announcement, later, rfl, waits, named, inbox_registry later,
            Function.update_self _ _ _⟩
        · exact Or.inl ⟨announcement, by rwa [inbox_self], named⟩
      · exact Or.inl ⟨announcement, by rwa [inbox_other later same], named⟩

theorem closing_cases (stepped : Stepped owners state action next) {place : Place}
    {connection : Connection}
    (picked : connection ∈ state.closing place ∨ connection ∈ state.closed) :
    connection ∈ next.closing place ∨ connection ∈ next.closed := by
  cases stepped with
  | ticketed | redeemed | advanced | called | worked | rotated | revoking | marked | published
  | committed => exact picked
  | relayed relayed announcement later waits idle =>
      rcases picked with waiting | done
      · by_cases same : place = relayed
        · subst same
          rw [idle] at waiting
          exact absurd waiting (Finset.notMem_empty connection)
        · refine Or.inl ?_
          change connection ∈ Function.update state.closing relayed _ place
          rwa [Function.update_of_ne same]
      · exact Or.inr done
  | closed other closed =>
      rcases picked with waiting | done
      · by_cases own : connection = closed
        · exact Or.inr (own ▸ List.mem_cons_self)
        · refine Or.inl ?_
          change connection ∈ Function.update state.closing other _ place
          by_cases same : place = other
          · subst same
            rw [Function.update_self]
            exact Finset.mem_erase.mpr ⟨own, waiting⟩
          · rwa [Function.update_of_ne same]
      · exact Or.inr (List.mem_cons_of_mem _ done)

omit [DecidableEq Place] in
/-- A published announcement reaches every connection of its session. -/
theorem published_heard (inv : Inv owners state) {index : Nat} {revocation : Revocation}
    (timely : Timely state (.publish index))
    (found : state.revocations[index]? = some revocation)
    (published : next.replicas = publish state.replicas
      (userChannel revocation.announcement.userId) revocation.announcement)
    {place : Place} {connection : Connection} (owned : Owned owners connection)
    (named : connection.sessionId ∈ revocation.announcement.sessionIds)
    (present : Coming state place connection ∨ userChannel connection.userId ∈
      (state.replicas place).registry.manager.subscribed ∨ Joining state place connection) :
    Heard next place connection.sessionId := by
  have rightful := inv.revocations revocation (List.mem_of_getElem? found)
  have user : connection.userId = revocation.announcement.userId :=
    Eq.trans owned (rightful.owned connection.sessionId named)
  have subscribed : isSubscribed (state.replicas place) (userChannel connection.userId) = true := by
    rcases present with coming | subscribed | joining
    · exact timely revocation found place connection named (Or.inl coming)
    · exact decide_eq_true subscribed
    · exact timely revocation found place connection named (Or.inr joining)
  refine ⟨revocation.announcement, ?_, named⟩
  rw [published]
  exact mem_publish.mpr (Or.inr ⟨rfl, user ▸ subscribed⟩)

/-- A connection on its way keeps the announcement it has to hear of. -/
theorem coming_heard (inv : Inv owners state) (notified : Notified state)
    (timely : Timely state action) (stepped : Stepped owners state action next) {place : Place}
    {connection : Connection} (coming : Coming state place connection)
    (announced : Announced next connection.sessionId) :
    Heard next place connection.sessionId := by
  rcases announced_cases stepped announced with old | ⟨index, revocation, rfl, found, _, named,
    published⟩
  · rcases heard_cases stepped (notified.coming place connection coming old) with heard |
      ⟨announcement, later, rfl, waits, named, _⟩
    · exact heard
    · exact absurd named (timely announcement later waits connection coming)
  · exact published_heard inv timely found published (coming_owned inv coming) named
      (Or.inl coming)

omit [DecidableEq Place] in
/-- A connection of the session that is announced is picked. -/
theorem relayed_picked (inv : Inv owners state) {place : Place} {connection : Connection}
    {user : String} {announcement : Announcement}
    (member : connection ∈ (state.replicas place).registry.manager.users user)
    (waits : announcement ∈ (state.replicas place).inbox)
    (named : connection.sessionId ∈ announcement.sessionIds) :
    connection ∈ closeRevoked (state.replicas place).registry.manager announcement := by
  have owned := inv.users place connection user member
  have sent := inv.inbox place announcement waits connection.sessionId named
  have keyed := (inv.registry place).tables.keyed connection user member
  have same : announcement.userId = user := by
    rw [keyed, owned, sent]
  have listed : announcement.sessionIds ≠ [] := List.ne_nil_of_mem named
  have filled : announcement.userId ≠ "" := sent ▸ owners.named connection.sessionId
  simp only [closeRevoked, listed, filled, or_self, if_false, Finset.mem_filter]
  exact ⟨same ▸ member, named⟩

theorem notified_step (inv : Inv owners state) (notified : Notified state)
    (timely : Timely state action) (stepped : Stepped owners state action next) :
    Notified next where
  coming := by
    intro place connection coming announced
    rcases coming_cases stepped coming with before | unmarked
    · exact coming_heard inv notified timely stepped before announced
    · -- its session was not marked, so that nothing was announced of it
      rcases announced_cases stepped announced with old | ⟨index, revocation, _, found, ready,
        named, _⟩
      · exact absurd (announced_marked inv old) unmarked
      · have rightful := inv.revocations revocation (List.mem_of_getElem? found)
        rcases rightful.marks connection.sessionId named with waits | done
        · rw [ready] at waits
          cases waits
        · exact absurd done unmarked
  users := by
    intro place connection user member announced
    rcases users_cases stepped member with before | coming
    · rcases announced_cases stepped announced with old | ⟨index, revocation, rfl, found, _,
        named, published⟩
      · rcases notified.users place connection user before old with heard | picked
        · rcases heard_cases stepped heard with still | ⟨announcement, later, _, waits, named, _,
            closing⟩
          · exact Or.inl still
          · refine Or.inr (Or.inl ?_)
            rw [closing]
            exact relayed_picked inv before (waits ▸ List.mem_cons_self) named
        · exact Or.inr (closing_cases stepped picked)
      · have joined := registered_subscribed (inv.registry place)
          (inv.housed place connection) before
        exact Or.inl (published_heard inv timely found published
          (inv.users place connection user before) named
          (Or.inr (joined.imp_right fun pending => ⟨⟨user, before⟩, pending⟩)))
    · exact Or.inl (coming_heard inv notified timely stepped coming announced)

end Invariant

section Runs
variable {Place : Type} [DecidableEq Place]

omit [DecidableEq Place] in
theorem initial_inv (owners : Owners) : Inv owners ({} : State Place) where
  registry := fun _ => started_inv
  housed := fun _ connection user member => absurd member (Finset.notMem_empty connection)
  ended := fun _ _ ended => absurd ended List.not_mem_nil
  tickets := fun _ _ held => nomatch held
  handshakes := fun _ _ found => by simp at found
  waiting := fun _ _ _ waits => by simp at waits
  users := fun _ connection _ member => absurd member (Finset.notMem_empty connection)
  inbox := fun _ _ member => absurd member List.not_mem_nil
  revocations := fun _ member => absurd member List.not_mem_nil

omit [DecidableEq Place] in
theorem initial_notified : Notified ({} : State Place) where
  coming := fun _ _ _ ⟨_, member, _⟩ => absurd member List.not_mem_nil
  users := fun _ _ _ _ ⟨_, member, _⟩ => absurd member List.not_mem_nil

/-- In every run whose steps are all timely, a quiet state has no open
connection of a revoked session. -/
theorem timely_drops (owners : Owners) (actions : List (Action Place))
    (timely : Runs.Meets (step owners) Timely {} actions) (visited : State Place)
    (visits : Runs.Visits (step owners) {} actions visited) (quiet : Quiet visited) :
    Dropped visited := by
  obtain ⟨before, after, rfl, reached⟩ := visits
  have kept : Inv owners visited ∧ Notified visited := Runs.guarded_invariant
    (fun state => Inv owners state ∧ Notified state)
    (fun _ _ _ both timely taken => ⟨inv_step both.1 (step_stepped taken),
      notified_step both.1 both.2 timely (step_stepped taken)⟩)
    reached ((Runs.meets_append_iff reached).mp timely).1 ⟨initial_inv owners, initial_notified⟩
  rintro place connection user member ⟨revocation, listed, named, published, _⟩
  rcases kept.2.users place connection user member ⟨revocation, listed, named, published⟩ with
    ⟨announcement, waits, _⟩ | closing | closed
  · rw [(quiet.processed place).1] at waits
    cases waits
  · rw [(quiet.processed place).2] at closing
    exact absurd closing (Finset.notMem_empty connection)
  · exact closed

def alone : Owners := ⟨fun _ => "u", fun _ => by decide⟩

/-- The whole revocation falls between the cache check and `accept`. -/
def overtaken : List (Action Unit) :=
  [.issue "t" ⟨"u", "s", "d"⟩, .redeem "t" (), .proceed 0, .revoke .family "u" ["s"], .mark 0,
    .publish 0, .commit 0, .proceed 0, .proceed 0, .takeEffect (), .resume () 0 [], .proceed 0]

def device : Connection := ⟨0, "u", "s", "d"⟩

theorem overtaken_stays : ∃ final, Runs.run (step alone) {} overtaken = some final ∧
    Quiet final ∧ ¬Dropped final := by
  have result : (Runs.run (step alone) {} overtaken).map (fun final =>
      decide (((final.replicas ()).inbox = [] ∧ final.closing () = ∅) ∧
        final.handshakes.map Handshake.progress = [.serving] ∧
        device ∈ (final.replicas ()).registry.manager.users "u" ∧
        final.revocations.map (fun revocation =>
          (revocation.announcement.sessionIds, revocation.published, revocation.committed)) =
            [(["s"], true, true)] ∧ final.closed = [])) = some true := by
    decide +kernel
  obtain ⟨final, ran, outcome⟩ := Option.map_eq_some_iff.mp result
  obtain ⟨⟨inbox, closing⟩, progress, registered, revocations, closed⟩ := of_decide_eq_true outcome
  refine ⟨final, ran, ⟨fun _ => ⟨inbox, closing⟩, fun handshake member => Or.inl ?_⟩,
    fun dropped => ?_⟩
  · have listed := List.mem_map_of_mem (f := Handshake.progress) member
    rw [progress] at listed
    exact List.mem_singleton.mp listed
  · obtain ⟨revocation, member, shown⟩ : ∃ revocation ∈ final.revocations,
        (revocation.announcement.sessionIds, revocation.published, revocation.committed) =
          (["s"], true, true) := by
      apply List.mem_map.mp
      rw [revocations]
      exact List.mem_singleton_self _
    simp only [Prod.mk.injEq] at shown
    have still := dropped () device "u" registered
      ⟨revocation, member, by rw [shown.1]; exact List.mem_singleton_self _, shown.2⟩
    rw [closed] at still
    exact absurd still List.not_mem_nil

/-- Nothing is on its way. -/
def isSettled (state : State Unit) : Bool :=
  state.handshakes.all (fun handshake => decide (handshake.progress = .serving)) &&
    (state.replicas ()).registry.tasks.all (fun task => decide (task.progress ≠ .waiting)) &&
    (state.replicas ()).registry.manager.pending.isEmpty

theorem settled_timely {state : State Unit} (settled : isSettled state = true)
    (action : Action Unit) : Timely state action := by
  simp only [isSettled, Bool.and_eq_true, List.all_eq_true, decide_eq_true_eq,
    List.isEmpty_iff] at settled
  obtain ⟨⟨serving, begun⟩, effective⟩ := settled
  have arrived : ∀ place connection, ¬Coming state place connection := by
    rintro place connection (⟨index, handshake, found, _, _, early⟩ | ⟨task, waits⟩)
    · rw [serving handshake (List.mem_of_getElem? found)] at early
      rcases early with other | other <;> cases other
    · exact begun _ (List.mem_of_getElem? waits) rfl
  have joined : ∀ place connection, ¬Joining state place connection := by
    rintro place connection ⟨_, pending⟩
    rw [effective] at pending
    cases pending
  cases action with
  | publish index =>
      intro revocation _ place connection _ present
      rcases present with coming | joining
      · exact absurd coming (arrived place connection)
      · exact absurd joining (joined place connection)
  | relay place => exact fun _ _ _ connection coming => absurd coming (arrived place connection)
  | _ => trivial

def served : List (Action Unit) :=
  [.issue "t" ⟨"u", "s", "d"⟩, .redeem "t" (), .proceed 0, .proceed 0, .proceed 0, .takeEffect (),
    .resume () 0 [], .proceed 0]

def logout : List (Action Unit) := [.revoke .account "u" ["s"], .mark 0, .commit 0]

theorem calm_meets {state : State Unit} {actions : List (Action Unit)}
    (calm : ∀ action ∈ actions, (∀ index, action ≠ .publish index) ∧ ∀ place, action ≠ .relay place) :
    Runs.Meets (step alone) Timely state actions := by
  refine Runs.meets_of_actions (fun _ action quiet => ?_) calm
  obtain ⟨unpublished, unrelayed⟩ := quiet
  cases action with
  | publish index => exact absurd rfl (unpublished index)
  | relay place => exact absurd rfl (unrelayed place)
  | _ => trivial

/-- The revocation meets a connection that is being served, and closes it. -/
theorem served_dropped : ∃ final,
    Runs.run (step alone) {} (served ++ logout ++ [.publish 0] ++ [.relay ()] ++
      [.close () device]) = some final ∧
    device ∈ (final.replicas ()).registry.manager.users "u" ∧ Dropped final := by
  have first : (Runs.run (step alone) {} (served ++ logout)).map isSettled = some true := by
    decide +kernel
  have second : (Runs.run (step alone) {} (served ++ logout ++ [.publish 0])).map isSettled =
      some true := by
    decide +kernel
  have third : (Runs.run (step alone) {} (served ++ logout ++ [.publish 0] ++ [.relay ()] ++
      [.close () device])).map (fun final =>
        decide (((final.replicas ()).inbox = [] ∧ final.closing () = ∅) ∧
          final.handshakes.map Handshake.progress = [.serving] ∧
          device ∈ (final.replicas ()).registry.manager.users "u")) = some true := by
    decide +kernel
  obtain ⟨marked, toMarked, settled⟩ := Option.map_eq_some_iff.mp first
  obtain ⟨announced, toAnnounced, still⟩ := Option.map_eq_some_iff.mp second
  obtain ⟨final, ran, outcome⟩ := Option.map_eq_some_iff.mp third
  obtain ⟨⟨inbox, closing⟩, progress, registered⟩ := of_decide_eq_true outcome
  have serving : ∀ handshake ∈ final.handshakes, handshake.progress = .serving := by
    intro handshake member
    have listed := List.mem_map_of_mem (f := Handshake.progress) member
    rw [progress] at listed
    exact List.mem_singleton.mp listed
  obtain ⟨relayed, toRelayed, _⟩ := (Runs.run_append_iff _ _ _ _).mp ran
  have timely : Runs.Meets (step alone) Timely {} (served ++ logout ++ [.publish 0] ++
      [.relay ()] ++ [.close () device]) := by
    rw [Runs.meets_append_iff toRelayed, Runs.meets_append_iff toAnnounced,
      Runs.meets_append_iff toMarked]
    exact ⟨⟨⟨calm_meets (by simp [served, logout]), settled_timely settled _, fun _ _ => trivial⟩,
      settled_timely still _, fun _ _ => trivial⟩, calm_meets (by simp)⟩
  refine ⟨final, ran, registered, timely_drops alone _ timely final ⟨_, [], by simp, ran⟩ ?_⟩
  exact ⟨fun _ => ⟨inbox, closing⟩, fun handshake member => Or.inl (serving handshake member)⟩

end Runs

end RunnerupChat.SocketRevocation
