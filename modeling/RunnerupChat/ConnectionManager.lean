import Mathlib.Data.Finset.Card
import RunnerupChat.Runs

/-!
`ws/manager.py`: the registry of one replica's connections and the channels
that the replica is subscribed to. A call runs without interruption until it
waits for the lock or has issued a command to Redis; other calls run then.
-/

namespace RunnerupChat.ConnectionManager

def maxConnectionsPerUser : Nat := 10

/-- Connections are compared by identity; `connectionId` tells them apart. -/
structure Connection where
  connectionId : Nat
  userId : String
  sessionId : String
  deviceId : String
  deriving DecidableEq

def userChannel (userId : String) : String := "user:" ++ userId

def conversationChannel (conversationId : String) : String := "conv:" ++ conversationId

/-- The subscription that `start` makes to keep the pubsub object alive. -/
def keepAlive : String := "__keepalive__"

theorem channels_apart (conversation user : String) :
    conversationChannel conversation ≠ userChannel user := by
  intro same
  have texts := congrArg String.toList same
  simp [conversationChannel, userChannel, String.toList_append] at texts

inductive Command where
  | subscribe (channel : String)
  | unsubscribe (channel : String)
  deriving DecidableEq

def Command.apply (channels : Finset String) : Command → Finset String
  | .subscribe channel => insert channel channels
  | .unsubscribe channel => channels.erase channel

/-- The tables of a manager. `subscribed` are the channels at Redis, and
`pending` the commands that were issued and have not taken effect. -/
structure Manager where
  byUser : String → Option (Finset Connection)
  byChannel : String → Option (Finset Connection)
  subscriptions : Connection → Finset String
  subscribed : Finset String
  pending : List Command

/-- A started manager. -/
def started : Manager :=
  { byUser := fun _ => none, byChannel := fun _ => none, subscriptions := fun _ => ∅
    subscribed := {keepAlive}, pending := [] }

/-- An empty set is deleted from its table. -/
def unlessEmpty (connections : Finset Connection) : Option (Finset Connection) :=
  if connections = ∅ then none else some connections

namespace Manager

def users (manager : Manager) (userId : String) : Finset Connection :=
  (manager.byUser userId).getD ∅

def members (manager : Manager) (channel : String) : Finset Connection :=
  (manager.byChannel channel).getD ∅

/-- The channels at Redis once all issued commands have taken effect, in order. -/
def settled (manager : Manager) : Finset String :=
  manager.pending.foldl Command.apply manager.subscribed

def issue (manager : Manager) (command : Command) : Manager :=
  { manager with pending := manager.pending ++ [command] }

def link (manager : Manager) (connection : Connection) (channel : String) : Manager :=
  { manager with
    byChannel := Function.update manager.byChannel channel
      (some (insert connection (manager.members channel)))
    subscriptions := Function.update manager.subscriptions connection
      (insert channel (manager.subscriptions connection)) }

def subscribe (manager : Manager) (connection : Connection) (channel : String) : Manager :=
  let firstLocalSubscriber := (manager.byChannel channel).isNone
  let linked := manager.link connection channel
  if firstLocalSubscriber then linked.issue (.subscribe channel) else linked

def unsubscribe (manager : Manager) (connection : Connection) (channel : String) : Manager :=
  let remaining := (manager.members channel).erase connection
  let unlinked := { manager with
    byChannel := Function.update manager.byChannel channel (unlessEmpty remaining)
    subscriptions := Function.update manager.subscriptions connection
      ((manager.subscriptions connection).erase channel) }
  if remaining = ∅ then unlinked.issue (.unsubscribe channel) else unlinked

/-- Whether the account has as many connections as it may have. -/
def isFull (manager : Manager) (connection : Connection) : Bool :=
  decide (maxConnectionsPerUser ≤ (manager.users connection.userId).card)

def addUser (manager : Manager) (connection : Connection) : Manager :=
  { manager with
    byUser := Function.update manager.byUser connection.userId
      (some (insert connection (manager.users connection.userId))) }

def removeUser (manager : Manager) (connection : Connection) : Manager :=
  { manager with
    byUser := Function.update manager.byUser connection.userId
      (unlessEmpty ((manager.users connection.userId).erase connection)) }

/-- One round of the loop in `unregister`. -/
def leave (manager : Manager) (connection : Connection) (channel : String) : Manager :=
  let remaining := (manager.members channel).erase connection
  let left := { manager with
    byChannel := Function.update manager.byChannel channel (unlessEmpty remaining) }
  if remaining = ∅ then left.issue (.unsubscribe channel) else left

/-- The loop in `unregister` runs until it has issued a command; the rest of
the channels is for later. It is `none` when the loop is over. -/
def drain (manager : Manager) (connection : Connection) :
    List String → Manager × Option (List String)
  | [] => (manager, none)
  | channel :: rest =>
      let left := manager.leave connection channel
      if (manager.members channel).erase connection = ∅ then (left, some rest)
      else left.drain connection rest

def clear (manager : Manager) (connection : Connection) : Manager :=
  { manager with subscriptions := Function.update manager.subscriptions connection ∅ }

/-- The oldest issued command takes effect. -/
def takeEffect (manager : Manager) : Manager :=
  match manager.pending with
  | [] => manager
  | command :: later =>
      { manager with subscribed := command.apply manager.subscribed, pending := later }

end Manager

inductive Call where
  | register (connection : Connection)
  | unregister (connection : Connection)
  | subscribe (connection : Connection) (channel : String)
  | unsubscribe (connection : Connection) (channel : String)
  deriving DecidableEq

def Call.connection : Call → Connection
  | .register connection | .unregister connection | .subscribe connection _
  | .unsubscribe connection _ => connection

inductive Progress where
  /-- In the queue of the lock. -/
  | waiting
  /-- In the loop of `unregister`, with the lock held. -/
  | closing (rest : List String)
  /-- Nothing is left but the answer. -/
  | finishing
  | returned (accepted : Bool)
  deriving DecidableEq

structure Task where
  call : Call
  progress : Progress
  deriving DecidableEq

structure State where
  manager : Manager
  tasks : List Task := []
  holder : Option Nat := none
  queue : List Nat := []

def moved (state : State) (index : Nat) (call : Call) (progress : Progress) (manager : Manager) :
    State :=
  { state with manager := manager, tasks := state.tasks.set index ⟨call, progress⟩ }

/-- `unregister` goes on with its loop; at the end it releases the lock. -/
def continueLoop (state : State) (index : Nat) (connection : Connection) (manager : Manager)
    (channels : List String) : State :=
  match manager.drain connection channels with
  | (manager, some rest) =>
      { moved state index (.unregister connection) (.closing rest) manager with
        holder := some index }
  | (manager, none) =>
      { moved state index (.unregister connection) (.returned true) (manager.clear connection) with
        holder := none }

/-- The channels in the order in which `unregister` goes through them. -/
def Listed (channels : Finset String) (order : List String) : Prop :=
  order.Nodup ∧ ∀ channel, channel ∈ order ↔ channel ∈ channels

instance (channels : Finset String) (order : List String) : Decidable (Listed channels order) :=
  decidable_of_iff (order.Nodup ∧ order.toFinset = channels) (by
    simp only [Listed, Finset.ext_iff, List.mem_toFinset])

/-- A call that needs the lock has it. -/
def enter (state : State) (index : Nat) (order : List String) : Call → Option State
  | .register connection =>
      let call : Call := .register connection
      if state.manager.isFull connection then
        some (moved state index call (.returned false) state.manager)
      else some (moved state index call .finishing
        ((state.manager.addUser connection).subscribe connection (userChannel connection.userId)))
  | .unregister connection =>
      if Listed (state.manager.subscriptions connection) order then
        some (continueLoop state index connection (state.manager.removeUser connection) order)
      else none
  | .subscribe _ _ | .unsubscribe _ _ => none

inductive Action where
  | call (call : Call) (order : List String)
  | resume (index : Nat) (order : List String)
  | takeEffect

def made (state : State) (call : Call) : State :=
  { state with tasks := state.tasks ++ [⟨call, .waiting⟩] }

/-- The call is made and runs until it is interrupted. -/
def begin (state : State) (call : Call) (order : List String) : Option State :=
  let index := state.tasks.length
  match call with
  | .subscribe connection channel =>
      some (moved (made state call) index call .finishing
        (state.manager.subscribe connection channel))
  | .unsubscribe connection channel =>
      some (moved (made state call) index call .finishing
        (state.manager.unsubscribe connection channel))
  | .register _ | .unregister _ =>
      if state.holder = none ∧ state.queue = [] then enter (made state call) index order call
      else some { made state call with queue := state.queue ++ [index] }

def resume (state : State) (index : Nat) (order : List String) (task : Task) : Option State :=
  match task.progress, task.call with
  | .waiting, call =>
      if state.holder = none ∧ state.queue.head? = some index then
        enter { state with queue := state.queue.tail } index order call
      else none
  | .closing rest, .unregister connection =>
      some (continueLoop state index connection state.manager rest)
  | .finishing, call => some (moved state index call (.returned true) state.manager)
  | _, _ => none

def step (state : State) : Action → Option State
  | .call call order => begin state call order
  | .resume index order => (state.tasks[index]?).bind fun task => resume state index order task
  | .takeEffect => some { state with manager := state.manager.takeEffect }

namespace Manager

section Tables
variable {manager : Manager} {connection other : Connection} {channel place : String}

@[simp] theorem unless_empty_get (connections : Finset Connection) :
    (unlessEmpty connections).getD ∅ = connections := by
  unfold unlessEmpty
  split
  · rename_i empty
    exact empty.symm
  · rfl

theorem unless_empty_some (connections : Finset Connection) :
    unlessEmpty connections ≠ some ∅ := by
  unfold unlessEmpty
  split
  · exact fun same => nomatch same
  · rename_i filled
    exact fun same => filled (Option.some.inj same)

@[simp] theorem issue_members (command : Command) (place : String) :
    (manager.issue command).members place = manager.members place := rfl

@[simp] theorem issue_users (command : Command) (user : String) :
    (manager.issue command).users user = manager.users user := rfl

@[simp] theorem issue_subscriptions (command : Command) :
    (manager.issue command).subscriptions = manager.subscriptions := rfl

@[simp] theorem issue_channels (command : Command) :
    (manager.issue command).byChannel = manager.byChannel := rfl

@[simp] theorem issue_settled (command : Command) :
    (manager.issue command).settled = command.apply manager.settled := by
  simp [settled, issue, List.foldl_append]

@[simp] theorem take_effect_settled : manager.takeEffect.settled = manager.settled := by
  unfold takeEffect
  split
  · rfl
  · rename_i command later queued
    simp [settled, queued]

theorem subscribe_channels : (manager.subscribe connection channel).byChannel =
    Function.update manager.byChannel channel
      (some (insert connection (manager.members channel))) := by
  simp only [subscribe]
  split <;> rfl

theorem subscribe_settled : (manager.subscribe connection channel).settled =
    if (manager.byChannel channel).isNone then insert channel manager.settled
    else manager.settled := by
  simp only [subscribe]
  split
  · rw [issue_settled]
    rfl
  · rfl

theorem mem_subscribe : other ∈ (manager.subscribe connection channel).members place ↔
    other ∈ manager.members place ∨ other = connection ∧ place = channel := by
  unfold members
  rw [subscribe_channels]
  by_cases same : place = channel
  · subst same
    simp [members, or_comm]
  · simp [same]

theorem subscribe_subscriptions : (manager.subscribe connection channel).subscriptions =
    Function.update manager.subscriptions connection
      (insert channel (manager.subscriptions connection)) := by
  simp only [subscribe]
  split <;> rfl

@[simp] theorem subscribe_users (user : String) :
    (manager.subscribe connection channel).users user = manager.users user := by
  simp only [subscribe]
  split <;> rfl

theorem unsubscribe_channels : (manager.unsubscribe connection channel).byChannel =
    Function.update manager.byChannel channel
      (unlessEmpty ((manager.members channel).erase connection)) := by
  simp only [unsubscribe]
  split <;> rfl

theorem unsubscribe_settled : (manager.unsubscribe connection channel).settled =
    if (manager.members channel).erase connection = ∅ then manager.settled.erase channel
    else manager.settled := by
  simp only [unsubscribe]
  split
  · rw [issue_settled]
    rfl
  · rfl

theorem unsubscribe_subscriptions : (manager.unsubscribe connection channel).subscriptions =
    Function.update manager.subscriptions connection
      ((manager.subscriptions connection).erase channel) := by
  simp only [unsubscribe]
  split <;> rfl

@[simp] theorem unsubscribe_users (user : String) :
    (manager.unsubscribe connection channel).users user = manager.users user := by
  simp only [unsubscribe]
  split <;> rfl

theorem leave_channels : (manager.leave connection channel).byChannel =
    Function.update manager.byChannel channel
      (unlessEmpty ((manager.members channel).erase connection)) := by
  simp only [leave]
  split <;> rfl

theorem leave_settled : (manager.leave connection channel).settled =
    if (manager.members channel).erase connection = ∅ then manager.settled.erase channel
    else manager.settled := by
  simp only [leave]
  split
  · rw [issue_settled]
    rfl
  · rfl

@[simp] theorem leave_subscriptions :
    (manager.leave connection channel).subscriptions = manager.subscriptions := by
  simp only [leave]
  split <;> rfl

@[simp] theorem leave_users (user : String) :
    (manager.leave connection channel).users user = manager.users user := by
  simp only [leave]
  split <;> rfl

/-- Taking a connection out of the set of a channel. -/
theorem mem_removal {after : Manager} (channels : after.byChannel =
      Function.update manager.byChannel channel
        (unlessEmpty ((manager.members channel).erase connection))) :
    other ∈ after.members place ↔
      other ∈ manager.members place ∧ ¬(other = connection ∧ place = channel) := by
  unfold members
  rw [channels]
  by_cases same : place = channel
  · subst same
    simp [members, and_comm]
  · simp [same]

theorem mem_add_user {user : String} : other ∈ (manager.addUser connection).users user ↔
    other ∈ manager.users user ∨ other = connection ∧ user = connection.userId := by
  unfold addUser users
  by_cases same : user = connection.userId
  · subst same
    simp [or_comm]
  · simp [same]

theorem mem_remove_user {user : String} : other ∈ (manager.removeUser connection).users user ↔
    other ∈ manager.users user ∧ ¬(other = connection ∧ user = connection.userId) := by
  unfold removeUser users
  by_cases same : user = connection.userId
  · subst same
    simp [and_comm]
  · simp [same]

/-- No channel has an empty set, and the channels with a set are those that
the replica is subscribed to once all issued commands have taken effect. -/
structure Tidy (manager : Manager) : Prop where
  filled : ∀ channel, manager.byChannel channel ≠ some ∅
  redis : ∀ channel, channel ≠ keepAlive →
    ((manager.byChannel channel).isSome ↔ channel ∈ manager.settled)

theorem started_tidy : Tidy started where
  filled := fun _ same => nomatch same
  redis := by
    intro channel other
    simp [started, settled, other]

theorem subscribe_tidy (tidy : Tidy manager) : Tidy (manager.subscribe connection channel) where
  filled := by
    intro place
    rw [subscribe_channels]
    by_cases same : place = channel
    · subst same
      simp
    · simpa [same] using tidy.filled place
  redis := by
    intro place other
    have before := tidy.redis place other
    rw [subscribe_channels, subscribe_settled]
    by_cases same : place = channel
    · subst same
      cases known : manager.byChannel place with
      | none => simp
      | some connections => simpa [known] using before
    · by_cases absent : (manager.byChannel channel).isNone = true
      · simpa [absent, same] using before
      · simpa [absent, same] using before

/-- Taking a connection out of a channel; the replica leaves with the last one. -/
theorem removal_tidy (connection : Connection) (channel : String) (tidy : Tidy manager)
    {after : Manager} (channels : after.byChannel = Function.update manager.byChannel channel
      (unlessEmpty ((manager.members channel).erase connection)))
    (settles : after.settled = if (manager.members channel).erase connection = ∅
      then manager.settled.erase channel else manager.settled) : Tidy after where
  filled := by
    intro place
    rw [channels]
    by_cases same : place = channel
    · subst same
      simpa using unless_empty_some _
    · simpa [Function.update_of_ne same] using tidy.filled place
  redis := by
    intro place other
    have before := tidy.redis place other
    rw [channels, settles]
    by_cases same : place = channel
    · subst same
      by_cases empty : (manager.members place).erase connection = ∅
      · simp [empty, unlessEmpty]
      · have present : (manager.byChannel place).isSome = true := by
          cases found : manager.byChannel place with
          | none => simp [members, found] at empty
          | some _ => rfl
        simpa [empty, unlessEmpty] using before.mp present
    · by_cases empty : (manager.members channel).erase connection = ∅
      · simpa [Function.update_of_ne same, empty, same] using before
      · simpa [Function.update_of_ne same, empty] using before

theorem unsubscribe_tidy (tidy : Tidy manager) : Tidy (manager.unsubscribe connection channel) :=
  removal_tidy connection channel tidy unsubscribe_channels unsubscribe_settled

theorem leave_tidy (tidy : Tidy manager) : Tidy (manager.leave connection channel) :=
  removal_tidy connection channel tidy leave_channels leave_settled

end Tables

end Manager

section Cases
variable {state next : State} {call : Call} {index : Nat} {order : List String}

/-- What a call does that has the lock. -/
inductive Entered (state : State) (index : Nat) : Call → State → Prop where
  | refused (connection : Connection) : Entered state index (.register connection)
      (moved state index (.register connection) (.returned false) state.manager)
  | registered (connection : Connection) : Entered state index (.register connection)
      (moved state index (.register connection) .finishing
        ((state.manager.addUser connection).subscribe connection (userChannel connection.userId)))
  | leaving (connection : Connection) (order : List String)
      (listed : Listed (state.manager.subscriptions connection) order) :
      Entered state index (.unregister connection)
        (continueLoop state index connection (state.manager.removeUser connection) order)

theorem enter_cases (entered : enter state index order call = some next) :
    Entered state index call next := by
  cases call with
  | register connection =>
      simp only [enter] at entered
      split at entered
      · cases entered
        exact .refused connection
      · cases entered
        exact .registered connection
  | unregister connection =>
      simp only [enter] at entered
      split at entered
      · rename_i listed
        cases entered
        exact .leaving connection order listed
      · cases entered
  | subscribe connection channel | unsubscribe connection channel => cases entered

/-- What a call does until it is interrupted. -/
inductive Begun (state : State) : Call → State → Prop where
  | entered (call : Call) (next : State) (free : state.holder = none ∧ state.queue = [])
      (entered : Entered (made state call) state.tasks.length call next) : Begun state call next
  | queued (call : Call) :
      Begun state call { made state call with queue := state.queue ++ [state.tasks.length] }
  | subscribed (connection : Connection) (channel : String) :
      Begun state (.subscribe connection channel)
        (moved (made state (.subscribe connection channel)) state.tasks.length
          (.subscribe connection channel) .finishing (state.manager.subscribe connection channel))
  | unsubscribed (connection : Connection) (channel : String) :
      Begun state (.unsubscribe connection channel)
        (moved (made state (.unsubscribe connection channel)) state.tasks.length
          (.unsubscribe connection channel) .finishing
          (state.manager.unsubscribe connection channel))

theorem begin_cases (begun : begin state call order = some next) : Begun state call next := by
  cases call with
  | register connection | unregister connection =>
      simp only [begin] at begun
      split at begun
      · rename_i free
        exact .entered _ next free (enter_cases begun)
      · cases begun
        exact .queued _
  | subscribe connection channel =>
      cases begun
      exact .subscribed connection channel
  | unsubscribe connection channel =>
      cases begun
      exact .unsubscribed connection channel

/-- What a call does that goes on. -/
inductive Resumed (state : State) (index : Nat) : Task → State → Prop where
  | entered (call : Call) (next : State)
      (turn : state.holder = none ∧ state.queue.head? = some index)
      (entered : Entered { state with queue := state.queue.tail } index call next) :
      Resumed state index ⟨call, .waiting⟩ next
  | continued (connection : Connection) (rest : List String) :
      Resumed state index ⟨.unregister connection, .closing rest⟩
        (continueLoop state index connection state.manager rest)
  | finished (call : Call) : Resumed state index ⟨call, .finishing⟩
      (moved state index call (.returned true) state.manager)

theorem resume_cases {task : Task} (resumed : resume state index order task = some next) :
    Resumed state index task next := by
  obtain ⟨call, progress⟩ := task
  cases progress with
  | waiting =>
      simp only [resume] at resumed
      split at resumed
      · rename_i turn
        exact .entered call next turn (enter_cases resumed)
      · cases resumed
  | closing rest => cases call with
    | unregister connection =>
        cases resumed
        exact .continued connection rest
    | _ => cases resumed
  | finishing =>
      cases resumed
      exact .finished call
  | returned accepted => cases resumed

end Cases

end RunnerupChat.ConnectionManager
