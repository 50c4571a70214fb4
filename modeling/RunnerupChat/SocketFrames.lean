import RunnerupChat.Authz
import RunnerupChat.ManagerInvariant

/-!
`ws/router.py`: what the frames of one connection do. A frame is a JSON
object; `str`, `uuid.UUID` and the conversion of a parameter of a query are
whatever they are on the texts a client can choose.
-/

namespace RunnerupChat.SocketFrames

open Accounts Authz ConnectionManager

inductive Json where
  | null
  | bool (value : Bool)
  | number (text : String)
  | string (text : String)
  | array (items : List Json)
  | object (fields : List (String × Json))

/-- `event.get(key)` -/
def get (event : List (String × Json)) (key : String) : Option Json :=
  (event.find? fun field => field.1 == key).map Prod.snd

/-- The conversions of Python and of the database driver. -/
structure Conversions where
  /-- `str` of a value that is no string. -/
  render : Json → String
  isUuid : String → Bool
  /-- The id that a query is given for a text; `none` raises. -/
  bind : String → Option Uuid

def Conversions.str (conversions : Conversions) : Json → String
  | .string text => text
  | other => conversions.render other

/-- `str(event.get("conversation_id", ""))` -/
def conversationId (conversions : Conversions) (event : List (String × Json)) : String :=
  match get event "conversation_id" with
  | none => ""
  | some value => conversions.str value

inductive Effect where
  | error (code : String)
  | subscribed (conversationId : String)
  | setTyping (key : String)
  | deleteTyping (key : String)
  /-- A typing event on its way to the channel of its conversation. -/
  | typing (conversationId userId : String) (active : Bool) (origin : Nat)
  deriving DecidableEq

def typingKey (conversationId userId : String) : String :=
  "typing:" ++ conversationId ++ ":" ++ userId

/-- What a handler does: the call on the manager that it makes, what it sends
and publishes after that, or an exception that ends the connection. -/
inductive Response where
  | done (call : Option Call) (effects : List Effect)
  | raised

section Handlers
variable {Digest : Type} (conversions : Conversions) (tables : Tables Digest) (now : Time)
  (connection : Connection)

/-- `resolve_access` of a text; an exception of the conversion is one answer
with all others. -/
def accessTo (user : User Digest) (text : String) : Option (Access Digest) :=
  (conversions.bind text).bind fun id => (resolveAccess tables user now id).toOption

def handleSubscribe (event : List (String × Json)) : Response :=
  let text := conversationId conversions event
  if !conversions.isUuid text then .done none [.error "invalid_conversation"]
  else match conversions.bind connection.userId with
    | none => .raised
    | some userId => match tables.users.find? fun row => row.id == userId with
        | none => .done none [.error "unauthorized"]
        | some user => match accessTo conversions tables now user text with
            -- the same answer for "not a member" and "does not exist"
            | none => .done none [.error "not_found"]
            | some access =>
                if !access.can .readMessages then .done none [.error "not_found"]
                else .done (some (.subscribe connection (conversationChannel text)))
                  [.subscribed text]

/-- No database round trip: the subscription was checked when it was made. -/
def handleTyping (subscriptions : Finset String) (event : List (String × Json)) (started : Bool) :
    Response :=
  let text := conversationId conversions event
  if conversationChannel text ∉ subscriptions then .done none []
  else
    let key := typingKey text connection.userId
    .done none [if started then .setTyping key else .deleteTyping key,
      .typing text connection.userId started connection.connectionId]

def handleEvent (subscriptions : Finset String) (event : List (String × Json)) : Response :=
  match get event "type" with
  | some (.string "pong") => .done none []
  | some (.string "subscribe") => handleSubscribe conversions tables now connection event
  | some (.string "unsubscribe") =>
      .done (some (.unsubscribe connection
        (conversationChannel (conversationId conversions event)))) []
  | some (.string "typing.start") => handleTyping conversions connection subscriptions event true
  | some (.string "typing.stop") => handleTyping conversions connection subscriptions event false
  -- the membership test in a set hashes the value, and these have no hash
  | some (.array _) | some (.object _) => .raised
  | _ => .done none [.error "unknown_event"]

end Handlers

/-- What a frame was handled with. -/
structure Frame (Digest : Type) where
  tables : Tables Digest
  now : Time
  event : List (String × Json)

/-- The registry, the frames that were handled, and what the last of them has
still to send and publish. -/
structure State (Digest : Type) where
  registry : ConnectionManager.State
  frames : List (Frame Digest) := []
  pending : List Effect := []
  ended : Bool := false

inductive Action (Digest : Type) where
  | frame (frame : Frame Digest)
  /-- The handler goes on after it has waited. -/
  | perform
  /-- Calls for other connections run, and answers come. -/
  | others (action : ConnectionManager.Action)

section Steps
variable {Digest : Type} (conversions : Conversions) (connection : Connection)

/-- Whether an action of the registry is one for another connection, or the
answer to a call. -/
def isElsewhere (registry : ConnectionManager.State) : ConnectionManager.Action → Bool
  | .call call _ => decide (call.connection ≠ connection)
  | .resume index _ => (registry.tasks[index]?).any fun task =>
      decide (task.call.connection ≠ connection ∨ task.progress = .finishing)
  | .takeEffect => true

def respond (state : State Digest) : Response → Option (State Digest)
  | .raised => some { state with ended := true }
  | .done none effects => some { state with pending := effects }
  | .done (some call) effects =>
      (begin state.registry call []).map fun registry =>
        { state with registry := registry, pending := effects }

def step (state : State Digest) : Action Digest → Option (State Digest)
  | .frame frame =>
      -- frames are handled one after the other
      if state.ended = true ∨ state.pending ≠ [] then none
      else respond { state with frames := state.frames ++ [frame] }
        (handleEvent conversions frame.tables frame.now connection
          (state.registry.manager.subscriptions connection) frame.event)
  | .perform => match state.pending with
      | [] => none
      | _ :: later => some { state with pending := later }
  | .others action =>
      if isElsewhere connection state.registry action then
        (ConnectionManager.step state.registry action).map fun registry =>
          { state with registry := registry }
      else none

end Steps

section Granting
variable {Digest : Type} {conversions : Conversions} {tables : Tables Digest} {now : Time}
  {connection : Connection} {subscriptions : Finset String} {event : List (String × Json)}
  {call : Option Call} {effects : List Effect}

/-- `resolve_access` grants the user of the connection to read the conversation. -/
def Granted (conversions : Conversions) (connection : Connection) (frame : Frame Digest)
    (text : String) : Prop :=
  ∃ user ∈ frame.tables.users, ∃ id access, conversions.bind connection.userId = some user.id ∧
    conversions.bind text = some id ∧
    resolveAccess frame.tables user frame.now id = .ok access ∧ access.can .readMessages = true

theorem access_resolved {user : User Digest} {text : String} {access : Access Digest}
    (found : accessTo conversions tables now user text = some access) :
    ∃ id, conversions.bind text = some id ∧ resolveAccess tables user now id = .ok access := by
  obtain ⟨id, bound, resolved⟩ := Option.bind_eq_some_iff.mp found
  refine ⟨id, bound, ?_⟩
  cases outcome : resolveAccess tables user now id with
  | error error =>
      rw [outcome] at resolved
      cases resolved
  | ok granted =>
      rw [outcome] at resolved
      cases resolved
      rfl

/-- A subscription is one to a conversation that may be read. -/
theorem subscribe_granted
    (handled : handleSubscribe conversions tables now connection event = .done call effects) :
    (call = none ∨ ∃ text, call = some (.subscribe connection (conversationChannel text)) ∧
      Granted conversions connection ⟨tables, now, event⟩ text) ∧
    ∀ text userId active origin, .typing text userId active origin ∉ effects := by
  simp only [handleSubscribe] at handled
  split at handled
  · cases handled
    exact ⟨Or.inl rfl, by simp⟩
  · split at handled
    · cases handled
    · rename_i userId bound
      split at handled
      · cases handled
        exact ⟨Or.inl rfl, by simp⟩
      · rename_i user found
        split at handled
        · cases handled
          exact ⟨Or.inl rfl, by simp⟩
        · rename_i access resolved
          split at handled
          · cases handled
            exact ⟨Or.inl rfl, by simp⟩
          · rename_i reads
            cases handled
            obtain ⟨id, converted, granted⟩ := access_resolved resolved
            have same : user.id = userId := by simpa using List.find?_some found
            refine ⟨Or.inr ⟨_, rfl, user, List.mem_of_find?_eq_some found, id, access, ?_, converted,
              granted, by simpa using reads⟩, by simp⟩
            rw [bound, same]

theorem typing_subscribed {started : Bool}
    (handled : handleTyping conversions connection subscriptions event started =
      .done call effects) :
    call = none ∧ ∀ text userId active origin, .typing text userId active origin ∈ effects →
      conversationChannel text ∈ subscriptions := by
  simp only [handleTyping] at handled
  split at handled
  · cases handled
    exact ⟨rfl, by simp⟩
  · rename_i subscribed
    cases handled
    refine ⟨rfl, fun text userId active origin member => ?_⟩
    rcases List.mem_cons.mp member with key | later
    · cases started <;> cases key
    · cases List.mem_singleton.mp later
      simpa using subscribed

/-- What a frame can call and publish. -/
structure Contained (conversions : Conversions) (connection : Connection) (frame : Frame Digest)
    (subscriptions : Finset String) (call : Option Call) (effects : List Effect) : Prop where
  calls : call = none ∨ (∃ text, call = some (.unsubscribe connection (conversationChannel text))) ∨
    ∃ text, call = some (.subscribe connection (conversationChannel text)) ∧
      Granted conversions connection frame text
  typing : ∀ text userId active origin, .typing text userId active origin ∈ effects →
    call = none ∧ conversationChannel text ∈ subscriptions

theorem handled_contained (handled : handleEvent conversions tables now connection subscriptions
      event = .done call effects) :
    Contained conversions connection ⟨tables, now, event⟩ subscriptions call effects := by
  have typed : ∀ started, handleTyping conversions connection subscriptions event started =
      .done call effects →
      Contained conversions connection ⟨tables, now, event⟩ subscriptions call effects := by
    intro started outcome
    obtain ⟨silent, published⟩ := typing_subscribed outcome
    exact ⟨Or.inl silent, fun text userId active origin member =>
      ⟨silent, published text userId active origin member⟩⟩
  unfold handleEvent at handled
  split at handled
  · cases handled
    exact ⟨Or.inl rfl, by simp⟩
  · obtain ⟨calls, untyped⟩ := subscribe_granted handled
    exact ⟨calls.imp id Or.inr, fun text userId active origin member =>
      absurd member (untyped text userId active origin)⟩
  · cases handled
    exact ⟨Or.inr (Or.inl ⟨_, rfl⟩), by simp⟩
  · exact typed true handled
  · exact typed false handled
  · cases handled
  · cases handled
  · cases handled
    exact ⟨Or.inl rfl, by simp⟩

end Granting

section Runs
variable {Digest : Type} {conversions : Conversions} {connection : Connection}
  {state next : State Digest}

def subscriptionsOf (connection : Connection) (state : State Digest) : Finset String :=
  state.registry.manager.subscriptions connection

structure Inv (conversions : Conversions) (connection : Connection) (state : State Digest) :
    Prop where
  own : userChannel connection.userId ∈ subscriptionsOf connection state
  granted : ∀ channel ∈ subscriptionsOf connection state,
    channel = userChannel connection.userId ∨ ∃ frame ∈ state.frames, ∃ text,
      channel = conversationChannel text ∧ Granted conversions connection frame text
  typing : ∀ text userId active origin, .typing text userId active origin ∈ state.pending →
    conversationChannel text ∈ subscriptionsOf connection state

/-- The registry after a frame: the call that the frame made has begun. -/
def Begun (before after : ConnectionManager.State) : Option Call → Prop
  | none => after = before
  | some call => begin before call [] = some after

theorem frame_begun {frame : Frame Digest}
    (taken : step conversions connection state (.frame frame) = some next) :
    next.frames = state.frames ++ [frame] ∧ ∃ call,
      Contained conversions connection frame (subscriptionsOf connection state) call next.pending ∧
      Begun state.registry next.registry call := by
  simp only [step] at taken
  split at taken
  · cases taken
  · rename_i idle
    have settled : state.pending = [] := by
      by_contra busy
      exact idle (Or.inr busy)
    cases handled : handleEvent conversions frame.tables frame.now connection
        (state.registry.manager.subscriptions connection) frame.event with
    | raised =>
        rw [handled] at taken
        cases taken
        exact ⟨rfl, none, ⟨Or.inl rfl, by simp [settled]⟩, rfl⟩
    | done call effects =>
        have contained := handled_contained handled
        rw [handled] at taken
        cases call with
        | none =>
            cases taken
            exact ⟨rfl, none, contained, rfl⟩
        | some call =>
            obtain ⟨registry, begun, rfl⟩ := Option.map_eq_some_iff.mp taken
            exact ⟨rfl, some call, contained, begun⟩

theorem subscribe_begun {before after : ConnectionManager.State} {channel : String}
    (begun : Begun before after (some (.subscribe connection channel))) :
    after.manager = before.manager.subscribe connection channel := by
  cases begun
  rfl

theorem unsubscribe_begun {before after : ConnectionManager.State} {channel : String}
    (begun : Begun before after (some (.unsubscribe connection channel))) :
    after.manager = before.manager.unsubscribe connection channel := by
  cases begun
  rfl

theorem frame_inv {frame : Frame Digest} (inv : Inv conversions connection state)
    (taken : step conversions connection state (.frame frame) = some next) :
    Inv conversions connection next := by
  obtain ⟨frames, call, contained, begun⟩ := frame_begun taken
  have earlier : ∀ channel ∈ subscriptionsOf connection state,
      channel = userChannel connection.userId ∨ ∃ frame ∈ next.frames, ∃ text,
        channel = conversationChannel text ∧ Granted conversions connection frame text := by
    intro channel member
    rcases inv.granted channel member with own | ⟨before, listed, reason⟩
    · exact Or.inl own
    · exact Or.inr ⟨before, frames ▸ List.mem_append_left _ listed, reason⟩
  have published : ∀ text userId active origin, .typing text userId active origin ∈ next.pending →
      Begun state.registry next.registry none ∧
        conversationChannel text ∈ subscriptionsOf connection state := by
    intro text userId active origin member
    obtain ⟨rfl, subscribed⟩ := contained.typing text userId active origin member
    exact ⟨begun, subscribed⟩
  have typing : ∀ text userId active origin, .typing text userId active origin ∈ next.pending →
      conversationChannel text ∈ subscriptionsOf connection next := by
    intro text userId active origin member
    obtain ⟨same, subscribed⟩ := published text userId active origin member
    unfold subscriptionsOf
    rw [show next.registry = state.registry from same]
    exact subscribed
  rcases contained.calls with rfl | ⟨text, rfl⟩ | ⟨text, rfl, granted⟩
  · have same : subscriptionsOf connection next = subscriptionsOf connection state := by
      unfold subscriptionsOf
      rw [show next.registry = state.registry from begun]
    exact ⟨same ▸ inv.own, same ▸ earlier, typing⟩
  · have fewer : subscriptionsOf connection next =
        (subscriptionsOf connection state).erase (conversationChannel text) := by
      unfold subscriptionsOf
      rw [unsubscribe_begun begun, Manager.unsubscribe_subscriptions, Function.update_self]
    refine ⟨?_, fun channel member => earlier channel ?_, typing⟩
    · rw [fewer]
      exact Finset.mem_erase.mpr ⟨(channels_apart text _).symm, inv.own⟩
    · rw [fewer] at member
      exact Finset.mem_of_mem_erase member
  · have more : subscriptionsOf connection next =
        insert (conversationChannel text) (subscriptionsOf connection state) := by
      unfold subscriptionsOf
      rw [subscribe_begun begun, Manager.subscribe_subscriptions, Function.update_self]
    refine ⟨?_, fun channel member => ?_, typing⟩
    · rw [more]
      exact Finset.mem_insert_of_mem inv.own
    · rw [more] at member
      rcases Finset.mem_insert.mp member with rfl | old
      · refine Or.inr ⟨frame, ?_, text, rfl, granted⟩
        rw [frames]
        exact List.mem_append_right _ (List.mem_singleton_self frame)
      · exact earlier channel old

/-- Calls for other connections leave the subscriptions. -/
theorem others_kept {action : ConnectionManager.Action} {registry after : ConnectionManager.State}
    (elsewhere : isElsewhere connection registry action = true)
    (taken : ConnectionManager.step registry action = some after) :
    after.manager.subscriptions connection = registry.manager.subscriptions connection := by
  cases action with
  | call call order =>
      have distinct : call.connection ≠ connection := of_decide_eq_true elsewhere
      exact (begin_frame taken).subscriptions connection distinct.symm
  | resume index order =>
      obtain ⟨task, found, resumed⟩ := Option.bind_eq_some_iff.mp taken
      simp only [isElsewhere, found, Option.any_some, decide_eq_true_eq] at elsewhere
      rcases elsewhere with distinct | finishing
      · exact (resume_frame resumed).subscriptions connection (Ne.symm distinct)
      · obtain ⟨call, progress⟩ := task
        cases finishing
        cases resumed
        rfl
  | takeEffect =>
      cases taken
      unfold Manager.takeEffect
      split <;> rfl

theorem step_inv {action : Action Digest} (inv : Inv conversions connection state)
    (taken : step conversions connection state action = some next) :
    Inv conversions connection next := by
  cases action with
  | frame frame => exact frame_inv inv taken
  | perform =>
      simp only [step] at taken
      split at taken
      · cases taken
      · rename_i effect later waiting
        cases taken
        refine ⟨inv.own, inv.granted, fun text userId active origin member => ?_⟩
        exact inv.typing text userId active origin (waiting ▸ List.mem_cons_of_mem effect member)
  | others action =>
      simp only [step] at taken
      split at taken
      · rename_i elsewhere
        obtain ⟨registry, moved, rfl⟩ := Option.map_eq_some_iff.mp taken
        have same := others_kept elsewhere moved
        have kept : subscriptionsOf connection { state with registry := registry } =
            subscriptionsOf connection state := same
        exact ⟨kept ▸ inv.own, kept ▸ inv.granted, kept ▸ inv.typing⟩
      · cases taken

/-- No frame adds a connection to a user channel or takes one from it. -/
theorem frame_user_channels {frame : Frame Digest}
    (taken : step conversions connection state (.frame frame) = some next) (user : String) :
    (userChannel user ∈ subscriptionsOf connection next ↔
        userChannel user ∈ subscriptionsOf connection state) ∧
      ∀ other, other ∈ next.registry.manager.members (userChannel user) ↔
        other ∈ state.registry.manager.members (userChannel user) := by
  obtain ⟨_, call, contained, begun⟩ := frame_begun taken
  unfold subscriptionsOf
  rcases contained.calls with rfl | ⟨text, rfl⟩ | ⟨text, rfl, _⟩
  · rw [show next.registry = state.registry from begun]
    exact ⟨Iff.rfl, fun _ => Iff.rfl⟩
  · have apart := (channels_apart text user).symm
    rw [unsubscribe_begun begun, Manager.unsubscribe_subscriptions, Function.update_self]
    refine ⟨?_, fun other => ?_⟩
    · simp [apart]
    · rw [Manager.mem_removal Manager.unsubscribe_channels]
      simp [apart]
  · have apart := (channels_apart text user).symm
    rw [subscribe_begun begun, Manager.subscribe_subscriptions, Function.update_self]
    refine ⟨?_, fun other => ?_⟩
    · simp [apart]
    · rw [Manager.mem_subscribe]
      simp [apart]

/-- A connection as the handshake leaves it. -/
def Registered (connection : Connection) (registry : ConnectionManager.State) : Prop :=
  registry.manager.subscriptions connection = {userChannel connection.userId}

/-- The handshake of a new connection registers it so. -/
theorem register_registers {index : Nat} {order : List String}
    {registry after : ConnectionManager.State}
    (fresh : registry.manager.subscriptions connection = ∅)
    (accepted : registry.manager.isFull connection = false)
    (entered : enter registry index order (.register connection) = some after) :
    Registered connection after := by
  simp only [enter, accepted, Bool.false_eq_true, if_false] at entered
  cases entered
  have joined : ((registry.manager.addUser connection).subscribe connection
      (userChannel connection.userId)).subscriptions connection =
      insert (userChannel connection.userId) (registry.manager.subscriptions connection) := by
    rw [Manager.subscribe_subscriptions, Function.update_self]
    rfl
  unfold Registered
  rw [fresh] at joined
  exact joined

/-- Whatever frames a client sends, over any tables: its connection is
subscribed to its own user channel and to conversations it was granted to
read, no user channel changes hands, and typing events go to subscribed
channels alone. -/
theorem frames_contained (conversions : Conversions) (connection : Connection)
    (registry : ConnectionManager.State) (registered : Registered connection registry)
    (actions : List (Action Digest)) (final : State Digest)
    (ran : Runs.run (step conversions connection) { registry := registry } actions = some final) :
    userChannel connection.userId ∈ subscriptionsOf connection final ∧
    (∀ channel ∈ subscriptionsOf connection final, channel = userChannel connection.userId ∨
      ∃ frame ∈ final.frames, ∃ text, channel = conversationChannel text ∧
        Granted conversions connection frame text) ∧
    ∀ visited action next,
      Runs.Visits (step conversions connection) { registry := registry } actions visited →
      step conversions connection visited action = some next →
      (∀ frame, action = .frame frame → ∀ user,
        (userChannel user ∈ subscriptionsOf connection next ↔
          userChannel user ∈ subscriptionsOf connection visited) ∧
        ∀ other, other ∈ next.registry.manager.members (userChannel user) ↔
          other ∈ visited.registry.manager.members (userChannel user)) ∧
      ∀ text userId active origin later, action = .perform →
        visited.pending = .typing text userId active origin :: later →
        conversationChannel text ∈ subscriptionsOf connection visited := by
  have begins : Inv conversions connection ({ registry := registry } : State Digest) := by
    have only : subscriptionsOf connection ({ registry := registry } : State Digest) =
        {userChannel connection.userId} := registered
    refine ⟨?_, fun channel member => ?_, by simp⟩
    · rw [only]
      exact Finset.mem_singleton_self _
    · rw [only] at member
      exact Or.inl (Finset.mem_singleton.mp member)
  have keeps : ∀ (state : State Digest) action next, Inv conversions connection state →
      step conversions connection state action = some next → Inv conversions connection next :=
    fun _ _ _ inv taken => step_inv inv taken
  have ends := Runs.run_invariant (Inv conversions connection) keeps ran begins
  refine ⟨ends.own, ends.granted, ?_⟩
  rintro visited action next ⟨before, after, rfl, reached⟩ taken
  have inv := Runs.run_invariant (Inv conversions connection) keeps reached begins
  refine ⟨?_, fun text userId active origin later _ waiting => ?_⟩
  · rintro frame rfl user
    exact frame_user_channels taken user
  · exact inv.typing text userId active origin (waiting ▸ List.mem_cons_self)

def browser : Connection := ⟨1, "4", "s", "d"⟩

def greeted : ConnectionManager.State :=
  { manager := (started.addUser browser).subscribe browser (userChannel "4") }

def reading : Tables Nat :=
  { users := [{ id := 4, phoneHash := 4, phoneLast4 := "1234", phoneCountry := "91"
                displayName := "", systemRole := .user, accountState := .active
                deletedAt := none }]
    conversations := [{ id := 5, kind := .group, createdBy := none, updatedAt := 0 }]
    members := [{ conversationId := 5, userId := 4 }] }

def digits : Conversions :=
  { render := fun _ => "", isUuid := fun text => text == "5"
    bind := fun text => if text = "4" then some 4 else if text = "5" then some 5 else none }

def spoken (kind : String) : Frame Nat :=
  ⟨reading, 0, [("type", .string kind), ("conversation_id", .string "5")]⟩

def chatting : List (Action Nat) :=
  [.frame (spoken "typing.start"), .frame (spoken "subscribe"), .perform, .frame (spoken "typing.start"),
    .perform, .perform]

/-- Typing before the subscription is dropped, and published after it. -/
theorem chatting_contained : ∃ final,
    Runs.run (step digits browser) { registry := greeted } chatting = some final ∧
      conversationChannel "5" ∈ subscriptionsOf browser final ∧
      userChannel "4" ∈ subscriptionsOf browser final := by
  have result : (Runs.run (step digits browser) { registry := greeted } chatting).map
      (fun final => decide (conversationChannel "5" ∈ subscriptionsOf browser final)) =
        some true := by
    decide +kernel
  obtain ⟨final, ran, subscribed⟩ := Option.map_eq_some_iff.mp result
  refine ⟨final, ran, of_decide_eq_true subscribed, ?_⟩
  exact (frames_contained digits browser greeted (by unfold Registered; decide +kernel) chatting
    final ran).1

end Runs

end RunnerupChat.SocketFrames
