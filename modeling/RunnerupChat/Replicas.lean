import RunnerupChat.ManagerInvariant

/-!
Replicas of the API, each with its registry, and Redis between them: a message
is put into the inbox of every replica that is subscribed to its channel when
it is published. What a step of a registry can add to its sets is said here
once.
-/

namespace RunnerupChat.Replicas

open ConnectionManager

/-- The messages that Redis delivered are relayed in their order. -/
structure Replica (Message : Type) where
  registry : ConnectionManager.State := { manager := started }
  inbox : List Message := []

section Publishing
variable {Place Message : Type} {replicas : Place → Replica Message} {channel : String}
  {message other : Message} {place elsewhere : Place}

def isSubscribed (replica : Replica Message) (channel : String) : Bool :=
  decide (channel ∈ replica.registry.manager.subscribed)

def publish (replicas : Place → Replica Message) (channel : String) (message : Message) :
    Place → Replica Message :=
  fun place =>
    let replica := replicas place
    if isSubscribed replica channel then { replica with inbox := replica.inbox ++ [message] }
    else replica

@[simp] theorem publish_registry :
    (publish replicas channel message place).registry = (replicas place).registry := by
  simp only [publish]
  split <;> rfl

theorem mem_publish : other ∈ (publish replicas channel message place).inbox ↔
    other ∈ (replicas place).inbox ∨
      other = message ∧ isSubscribed (replicas place) channel = true := by
  simp only [publish]
  split
  · rename_i subscribed
    simp [subscribed]
  · rename_i unsubscribed
    simp [unsubscribed]

variable [DecidableEq Place]

def withRegistry (replicas : Place → Replica Message) (place : Place)
    (registry : ConnectionManager.State) : Place → Replica Message :=
  Function.update replicas place { replicas place with registry := registry }

def withInbox (replicas : Place → Replica Message) (place : Place) (inbox : List Message) :
    Place → Replica Message :=
  Function.update replicas place { replicas place with inbox := inbox }

@[simp] theorem registry_inbox (registry : ConnectionManager.State) :
    (withRegistry replicas place registry elsewhere).inbox = (replicas elsewhere).inbox := by
  by_cases same : elsewhere = place
  · subst same
    simp [withRegistry]
  · simp [withRegistry, same]

@[simp] theorem registry_self (registry : ConnectionManager.State) :
    (withRegistry replicas place registry place).registry = registry := by
  simp [withRegistry]

theorem registry_other (registry : ConnectionManager.State) (distinct : elsewhere ≠ place) :
    (withRegistry replicas place registry elsewhere).registry = (replicas elsewhere).registry := by
  simp [withRegistry, distinct]

@[simp] theorem inbox_registry (inbox : List Message) :
    (withInbox replicas place inbox elsewhere).registry = (replicas elsewhere).registry := by
  by_cases same : elsewhere = place
  · subst same
    simp [withInbox]
  · simp [withInbox, same]

@[simp] theorem inbox_self (inbox : List Message) :
    (withInbox replicas place inbox place).inbox = inbox := by
  simp [withInbox]

theorem inbox_other (inbox : List Message) (distinct : elsewhere ≠ place) :
    (withInbox replicas place inbox elsewhere).inbox = (replicas elsewhere).inbox := by
  simp [withInbox, distinct]

end Publishing

section Registries
variable {state next : ConnectionManager.State} {connection other : Connection} {index : Nat}
  {order : List String} {call : Call}

/-- A call to register the connection is made or waits for the lock. -/
def Registers (state : ConnectionManager.State) (action : ConnectionManager.Action)
    (connection : Connection) : Prop :=
  (∃ order, action = .call (.register connection) order) ∨
    ∃ index : Nat, state.tasks[index]? = some ⟨.register connection, .waiting⟩

theorem drain_users (channels : List String) {manager : Manager} (user : String) :
    (manager.drain connection channels).1.users user = manager.users user := by
  induction channels generalizing manager with
  | nil => rfl
  | cons channel rest ih =>
      simp only [Manager.drain]
      split
      · exact Manager.leave_users user
      · rw [ih, Manager.leave_users]

theorem drain_members (channels : List String) {manager : Manager} {channel : String}
    (member : other ∈ (manager.drain connection channels).1.members channel) :
    other ∈ manager.members channel := by
  induction channels generalizing manager with
  | nil => exact member
  | cons first rest ih =>
      simp only [Manager.drain] at member
      split at member
      · exact ((Manager.mem_removal Manager.leave_channels).mp member).1
      · exact ((Manager.mem_removal Manager.leave_channels).mp (ih member)).1

/-- What a part of a call adds to a registry; no task begins to wait. -/
structure Grows (call : Call) (before after : ConnectionManager.State) : Prop where
  users : ∀ other user, other ∈ after.manager.users user →
    other ∈ before.manager.users user ∨ call = .register other
  members : ∀ other channel, other ∈ after.manager.members channel →
    other ∈ before.manager.members channel ∨ call = .subscribe other channel ∨
      call = .register other ∧ channel = userChannel other.userId
  waiting : ∀ (place : Nat) other, after.tasks[place]? = some ⟨other, .waiting⟩ →
    before.tasks[place]? = some ⟨other, .waiting⟩

theorem moved_waiting {tasks : List Task} {task : Task} (past : task.progress ≠ .waiting)
    (place : Nat) (other : Call) (listed : (tasks.set index task)[place]? = some ⟨other, .waiting⟩) :
    tasks[place]? = some ⟨other, .waiting⟩ := by
  rcases Runs.moved_cases listed with ⟨_, rfl⟩ | ⟨_, old⟩
  · exact absurd rfl past
  · exact old

/-- The tables stay, and a task is answered. -/
theorem grows_answered (state : ConnectionManager.State) (index : Nat) (call : Call)
    (accepted : Bool) :
    Grows call state (moved state index call (.returned accepted) state.manager) where
  users := fun _ _ member => Or.inl member
  members := fun _ _ member => Or.inl member
  waiting := moved_waiting (by simp)

theorem continue_grows (state : ConnectionManager.State) (index : Nat) (manager : Manager)
    (channels : List String)
    (users : ∀ other user, other ∈ manager.users user → other ∈ state.manager.users user)
    (members : ∀ other channel, other ∈ manager.members channel →
      other ∈ state.manager.members channel) :
    Grows (.unregister connection) state
      (continueLoop state index connection manager channels) := by
  have fewer : ∀ other user, other ∈ (manager.drain connection channels).1.users user →
      other ∈ manager.users user := fun other user member => drain_users channels user ▸ member
  have left : ∀ other channel, other ∈ (manager.drain connection channels).1.members channel →
      other ∈ manager.members channel := fun other channel member => drain_members channels member
  unfold continueLoop
  split
  · rename_i result
    rw [result] at fewer left
    exact ⟨fun other user member => Or.inl (users other user (fewer other user member)),
      fun other channel member => Or.inl (members other channel (left other channel member)),
      moved_waiting (by simp)⟩
  · rename_i result
    rw [result] at fewer left
    exact ⟨fun other user member => Or.inl (users other user (fewer other user member)),
      fun other channel member => Or.inl (members other channel (left other channel member)),
      moved_waiting (by simp)⟩

theorem enter_grows (state : ConnectionManager.State)
    (entered : Entered state index call next) : Grows call state next := by
  cases entered with
  | refused connection => exact grows_answered state index (.register connection) false
  | registered connection =>
      refine ⟨fun other user member => ?_, fun other channel member => ?_,
        moved_waiting (by simp)⟩
      · have added : other ∈ (state.manager.addUser connection).users user := by
          rwa [← Manager.subscribe_users]
        rcases Manager.mem_add_user.mp added with old | ⟨rfl, _⟩
        · exact Or.inl old
        · exact Or.inr rfl
      · rcases Manager.mem_subscribe.mp member with old | ⟨rfl, rfl⟩
        · exact Or.inl old
        · exact Or.inr (Or.inr ⟨rfl, rfl⟩)
  | leaving connection order =>
      exact continue_grows state index (state.manager.removeUser connection) order
        (fun other user member => (Manager.mem_remove_user.mp member).1)
        fun _ _ member => member

theorem begin_grows (begun : begin state call order = some next) :
    Grows call (made state call) next := by
  cases begin_cases begun with
  | entered _ _ free entered => exact enter_grows (made state _) entered
  | queued =>
      exact ⟨fun _ _ member => Or.inl member, fun _ _ member => Or.inl member,
        fun _ _ listed => listed⟩
  | subscribed connection channel =>
      refine ⟨fun other user member => Or.inl (Manager.subscribe_users user ▸ member),
        fun other place member => ?_, moved_waiting (by simp)⟩
      rcases Manager.mem_subscribe.mp member with old | ⟨rfl, rfl⟩
      · exact Or.inl old
      · exact Or.inr (Or.inl rfl)
  | unsubscribed connection channel =>
      exact ⟨fun other user member => Or.inl (Manager.unsubscribe_users user ▸ member),
        fun other place member =>
          Or.inl ((Manager.mem_removal Manager.unsubscribe_channels).mp member).1,
        moved_waiting (by simp)⟩

theorem resume_grows {call : Call} {progress : Progress}
    (resumed : resume state index order ⟨call, progress⟩ = some next) :
    Grows call state next ∧ (progress = .waiting ∨ next.manager = state.manager ∨
      ∃ connection, call = .unregister connection) := by
  cases resume_cases resumed with
  | entered _ _ turn entered =>
      have grows := enter_grows { state with queue := state.queue.tail } entered
      exact ⟨⟨grows.users, grows.members, grows.waiting⟩, Or.inl rfl⟩
  | continued connection rest =>
      exact ⟨continue_grows state index state.manager rest (fun _ _ member => member)
        fun _ _ member => member, Or.inr (Or.inr ⟨connection, rfl⟩)⟩
  | finished => exact ⟨grows_answered state index call true, Or.inr (Or.inl rfl)⟩

/-- What a step adds to a registry. -/
structure Added (state : ConnectionManager.State) (action : ConnectionManager.Action)
    (next : ConnectionManager.State) : Prop where
  users : ∀ other user, other ∈ next.manager.users user →
    other ∈ state.manager.users user ∨ Registers state action other
  members : ∀ other channel, other ∈ next.manager.members channel →
    other ∈ state.manager.members channel ∨
      (∃ order, action = .call (.subscribe other channel) order) ∨
      Registers state action other ∧ channel = userChannel other.userId
  waiting : ∀ (place : Nat) other, next.tasks[place]? = some ⟨.register other, .waiting⟩ →
    Registers state action other

theorem step_added {action : ConnectionManager.Action}
    (taken : ConnectionManager.step state action = some next) : Added state action next := by
  cases action with
  | call call order =>
      have grows := begin_grows taken
      refine ⟨fun other user member => ?_, fun other channel member => ?_,
        fun place other listed => ?_⟩
      · rcases grows.users other user member with old | rfl
        · exact Or.inl old
        · exact Or.inr (Or.inl ⟨order, rfl⟩)
      · rcases grows.members other channel member with old | rfl | ⟨rfl, own⟩
        · exact Or.inl old
        · exact Or.inr (Or.inl ⟨order, rfl⟩)
        · exact Or.inr (Or.inr ⟨Or.inl ⟨order, rfl⟩, own⟩)
      · rcases Runs.added_cases (grows.waiting place _ listed) with old | ⟨_, same⟩
        · exact Or.inr ⟨place, old⟩
        · exact Or.inl ⟨order, by rw [(Task.mk.inj same).1]⟩
  | resume index order =>
      obtain ⟨⟨call, progress⟩, found, resumed⟩ := Option.bind_eq_some_iff.mp taken
      obtain ⟨grows, moved⟩ := resume_grows resumed
      refine ⟨fun other user member => ?_, fun other channel member => ?_, fun place other listed =>
        Or.inr ⟨place, grows.waiting place _ listed⟩⟩
      · rcases grows.users other user member with old | rfl
        · exact Or.inl old
        · rcases moved with rfl | same | ⟨_, ends⟩
          · exact Or.inr (Or.inr ⟨index, found⟩)
          · exact Or.inl (same ▸ member)
          · cases ends
      · rcases grows.members other channel member with old | rfl | ⟨rfl, own⟩
        · exact Or.inl old
        · rcases moved with rfl | same | ⟨_, ends⟩
          · cases resume_cases resumed with
            | entered _ _ turn entered => cases entered
          · exact Or.inl (same ▸ member)
          · cases ends
        · rcases moved with rfl | same | ⟨_, ends⟩
          · exact Or.inr (Or.inr ⟨Or.inr ⟨index, found⟩, own⟩)
          · exact Or.inl (same ▸ member)
          · cases ends
  | takeEffect =>
      cases taken
      have same : state.manager.takeEffect.users = state.manager.users ∧
          state.manager.takeEffect.members = state.manager.members := by
        unfold Manager.takeEffect
        split <;> exact ⟨rfl, rfl⟩
      refine ⟨fun other user member => Or.inl ?_, fun other channel member => Or.inl ?_,
        fun place other listed => Or.inr ⟨place, listed⟩⟩
      · rw [← same.1]
        exact member
      · rw [← same.2]
        exact member

/-- A registered connection is in the set of its own user channel. -/
def Housed (manager : Manager) (connection : Connection) : Prop :=
  ∀ user, connection ∈ manager.users user →
    connection ∈ manager.members (userChannel connection.userId)

theorem frame_housed {before after : Manager} (frame : Frame connection before after)
    (own : Housed after connection) (housed : ∀ other, Housed before other) (other : Connection) :
    Housed after other := by
  by_cases same : other = connection
  · exact same ▸ own
  · intro user member
    rw [frame.members other same]
    exact housed other user ((frame.users other same user).mp member)

/-- Who is in the loop of `unregister` is not registered. -/
theorem continue_housed {manager : Manager} {channels : List String}
    (bound : index < state.tasks.length)
    (inv : Inv (continueLoop state index connection manager channels)) :
    Housed (continueLoop state index connection manager channels).manager connection := by
  have gone : Unlisted (continueLoop state index connection manager channels).manager
      connection := by
    unfold continueLoop at inv ⊢
    split at inv
    · exact (inv.tables.fits index connection _ (List.getElem?_set_self bound)).2.1
    · exact (inv.tables.fits index connection _ (List.getElem?_set_self bound)).2.1
  exact fun user member => absurd member (gone user)

theorem enter_housed (state : ConnectionManager.State) (bound : index < state.tasks.length)
    (entered : Entered state index call next) (inv : Inv next)
    (housed : ∀ other, Housed state.manager other) : Housed next.manager call.connection := by
  cases entered with
  | refused connection => exact housed connection
  | registered connection => exact fun _ _ => Manager.mem_subscribe.mpr (Or.inr ⟨rfl, rfl⟩)
  | leaving connection => exact continue_housed bound inv

/-- No connection is taken off the channel of its user. -/
def SparesUsers : ConnectionManager.Action → Prop
  | .call (.unsubscribe connection channel) _ => channel ≠ userChannel connection.userId
  | _ => True

theorem begin_housed (begun : begin state call order = some next) (inv : Inv next)
    (spares : SparesUsers (.call call order)) (housed : ∀ other, Housed state.manager other) :
    Housed next.manager call.connection := by
  cases begin_cases begun with
  | entered _ _ free entered =>
      exact enter_housed (made state _) (by simp [made]) entered inv housed
  | queued => exact housed call.connection
  | subscribed connection channel =>
      intro user member
      have old : connection ∈ state.manager.users user := Manager.subscribe_users user ▸ member
      exact Manager.mem_subscribe.mpr (Or.inl (housed connection user old))
  | unsubscribed connection channel =>
      intro user member
      have old : connection ∈ state.manager.users user := Manager.unsubscribe_users user ▸ member
      exact (Manager.mem_removal Manager.unsubscribe_channels).mpr
        ⟨housed connection user old, fun same => spares same.2.symm⟩

theorem resume_housed {task : Task} (found : state.tasks[index]? = some task)
    (resumed : resume state index order task = some next) (inv : Inv next)
    (housed : ∀ other, Housed state.manager other) :
    Housed next.manager task.call.connection := by
  have bound : index < state.tasks.length := (List.getElem?_eq_some_iff.mp found).1
  cases resume_cases resumed with
  | entered call _ turn entered =>
      exact enter_housed { state with queue := state.queue.tail } bound entered inv housed
  | continued connection rest => exact continue_housed bound inv
  | finished call => exact housed call.connection

theorem step_housed {action : ConnectionManager.Action} (inv : Inv state)
    (last : Last state action) (spares : SparesUsers action)
    (taken : ConnectionManager.step state action = some next)
    (housed : ∀ other, Housed state.manager other) : ∀ other, Housed next.manager other := by
  have later := step_inv inv last taken
  cases action with
  | call call order =>
      exact frame_housed (begin_frame taken) (begin_housed taken later spares housed) housed
  | resume index order =>
      obtain ⟨task, found, resumed⟩ := Option.bind_eq_some_iff.mp taken
      exact frame_housed (resume_frame resumed) (resume_housed found resumed later housed) housed
  | takeEffect =>
      cases taken
      intro other user member
      unfold Manager.takeEffect at member ⊢
      split at member <;> exact housed other user member

/-- A channel that the replica will have left or joined is one that it has
joined, or will. -/
theorem settled_subscribed (commands : List Command) (subscribed : Finset String)
    {channel : String} (settled : channel ∈ commands.foldl Command.apply subscribed) :
    channel ∈ subscribed ∨ .subscribe channel ∈ commands := by
  induction commands generalizing subscribed with
  | nil => exact Or.inl settled
  | cons command later ih =>
      rcases ih (command.apply subscribed) settled with now | waits
      · cases command with
        | subscribe other =>
            rcases Finset.mem_insert.mp now with rfl | old
            · exact Or.inr List.mem_cons_self
            · exact Or.inl old
        | unsubscribe other => exact Or.inl (Finset.mem_of_mem_erase now)
      · exact Or.inr (List.mem_cons_of_mem _ waits)

theorem user_channel_joins (user : String) : userChannel user ≠ keepAlive := by
  intro same
  have texts := congrArg String.toList same
  simp [userChannel, keepAlive, String.toList_append] at texts

/-- The replica of a registered connection is subscribed to its user channel,
or the command to subscribe is on its way. -/
theorem registered_subscribed {user : String} (inv : Inv state)
    (housed : Housed state.manager connection) (member : connection ∈ state.manager.users user) :
    userChannel connection.userId ∈ state.manager.subscribed ∨
      .subscribe (userChannel connection.userId) ∈ state.manager.pending := by
  have joined := housed user member
  apply settled_subscribed state.manager.pending
  apply (inv.tables.tidy.redis _ (user_channel_joins _)).mp
  cases found : state.manager.byChannel (userChannel connection.userId) with
  | none => simp [Manager.members, found] at joined
  | some _ => rfl

/-- The calls of a registry after a step. -/
theorem step_calls {action : ConnectionManager.Action}
    (taken : ConnectionManager.step state action = some next) :
    calls next = calls state ∨ ∃ call order, action = .call call order ∧
      calls next = calls state ++ [call] := by
  cases action with
  | call call order => exact Or.inr ⟨call, order, rfl, begin_calls taken⟩
  | resume index order =>
      obtain ⟨task, found, resumed⟩ := Option.bind_eq_some_iff.mp taken
      exact Or.inl (resume_calls found resumed)
  | takeEffect =>
      cases taken
      exact Or.inl rfl

end Registries

end RunnerupChat.Replicas
