import RunnerupChat.RateLimit
import RunnerupChat.SocketFrames

/-!
A reconnect: what `ChatSocket` of `lib/ws.ts` sends over a new socket, and the
receive loop of `websocket_endpoint` in `ws/router.py`. The loop charges every
frame to the budget of the connection before it reads it; the client does not
look at a refusal.
-/

namespace RunnerupChat.Reconnect

open Accounts Authz ConnectionManager
open RateLimit (Store LimitName bucketKey limits windowMs)
open SlidingWindow (HasRoom allowedBy mergedWeight)
open SocketFrames (Conversions Json Registered browser greeted)

def escape (char : Char) : List Char :=
  if char = '\x22' then ['\\', '\x22']
  else if char = '\\' then ['\\', '\\']
  else if char.toNat = 8 then ['\\', 'b']
  else if char.toNat = 9 then ['\\', 't']
  else if char.toNat = 10 then ['\\', 'n']
  else if char.toNat = 12 then ['\\', 'f']
  else if char.toNat = 13 then ['\\', 'r']
  else if char.toNat < 32 then
    ['\\', 'u', '0', '0', Nat.digitChar (char.toNat / 16), Nat.digitChar (char.toNat % 16)]
  else [char]

def quote (text : String) : List Char :=
  '\x22' :: (text.toList.flatMap escape ++ ['\x22'])

/-- `JSON.stringify` of an object whose fields are strings. -/
def stringify (payload : List (String × String)) : String :=
  let fields := payload.map fun field => quote field.1 ++ ':' :: quote field.2
  String.ofList ('\x7b' :: ((fields.intersperse [',']).flatten ++ ['\x7d']))

/-- A text message, and what `json.loads` makes of it; `none` raises. -/
structure Raw where
  text : String
  loads : Option Json

def sendRaw (payload : List (String × String)) : Raw :=
  ⟨stringify payload, some (.object (payload.map fun field => (field.1, .string field.2)))⟩

/-- The id of a conversation in the text that the API answers with. -/
structure ConversationId where
  text : String
  written : text.length = 36
  deriving DecidableEq

/-- A set remembers the order of its insertions. -/
structure ChatSocket where
  subscribed : List ConversationId
  distinct : subscribed.Nodup

def subscription (id : ConversationId) : List (String × String) :=
  [("type", "subscribe"), ("conversation_id", id.text)]

def ChatSocket.onopen (socket : ChatSocket) : List Raw :=
  socket.subscribed.map fun id => sendRaw (subscription id)

def maxPayloadBytes : Nat := 64 * 1024

/-- A message that arrives, with the millisecond at which the limiter sees it
and the tables its handler reads. -/
structure Delivery (Digest : Type) where
  raw : Raw
  arrival : Nat
  tables : Tables Digest
  now : Time

/-- One connection and the Redis it shares. `clock` is when the limiter was
last asked for this connection. -/
structure State (Digest : Type) where
  socket : SocketFrames.State Digest
  store : Store
  clock : Nat := 0
  received : List (Delivery Digest) := []

def State.answer {Digest : Type} (state : State Digest) (code : String) : State Digest :=
  { state with socket := { state.socket with pending := [.error code] } }

inductive Action (Digest : Type) where
  | receive (delivery : Delivery Digest)
  /-- The handler goes on after it has waited. -/
  | perform
  /-- Calls for other connections run, and answers come. -/
  | others (action : ConnectionManager.Action)
  /-- The limiter is asked for anything else. -/
  | limited (name : LimitName) (identity : String) (now : Nat)

def identity (connection : Connection) : String := toString connection.connectionId

section Steps
variable {Digest : Type} (conversions : Conversions) (connection : Connection)

/-- A message whose budget was charged. -/
def dispatch (state : State Digest) (delivery : Delivery Digest) : Option (State Digest) :=
  match delivery.raw.loads with
  | some (.object event) =>
      (SocketFrames.step conversions connection state.socket
        (.frame ⟨delivery.tables, delivery.now, event⟩)).map fun socket =>
          { state with socket := socket }
  | _ => some (state.answer "malformed")

def receive (state : State Digest) (delivery : Delivery Digest) : Option (State Digest) :=
  let state := { state with received := state.received ++ [delivery] }
  if maxPayloadBytes < delivery.raw.text.length then
    let closed := state.answer "payload_too_large"
    some { closed with socket := { closed.socket with ended := true } }
  else
    let (decision, store) :=
      RateLimit.check state.store .wsEventConnection (identity connection) delivery.arrival 1
    let state := { state with store := store, clock := delivery.arrival }
    if !decision.allowed then some (state.answer "rate_limited")
    else dispatch conversions connection state delivery

def step (state : State Digest) : Action Digest → Option (State Digest)
  | .receive delivery =>
      -- messages are handled one after the other
      if state.socket.ended = true ∨ state.socket.pending ≠ [] ∨ delivery.arrival < state.clock then
        none
      else receive conversions connection state delivery
  | .perform =>
      (SocketFrames.step conversions connection state.socket .perform).map fun socket =>
        { state with socket := socket }
  | .others action =>
      (SocketFrames.step conversions connection state.socket (.others action)).map fun socket =>
        { state with socket := socket }
  | .limited name other now =>
      if bucketKey .wsEventConnection (identity connection) = bucketKey name other then none
      else some { state with store := (RateLimit.check state.store name other now 1).2 }

/-- The user may read the conversation at the time the message is handled. -/
def Readable (delivery : Delivery Digest) (id : ConversationId) : Prop :=
  conversions.isUuid id.text = true ∧ ∃ userId user access,
    conversions.bind connection.userId = some userId ∧
    delivery.tables.users.find? (fun row => row.id == userId) = some user ∧
    SocketFrames.accessTo conversions delivery.tables delivery.now user id.text = some access ∧
    access.can .readMessages = true

end Steps

/-- The connection is on the channel, in both tables of its registry. -/
def Subscribed (manager : Manager) (connection : Connection) (channel : String) : Prop :=
  channel ∈ manager.subscriptions connection ∧ connection ∈ manager.members channel

/-- A connection as the handshake leaves it. -/
structure Opened (connection : Connection) (registry : ConnectionManager.State) (store : Store) :
    Prop where
  registered : Registered connection registry
  linked : Linked registry.manager connection
  -- the id of a connection is fresh, so its budget was never charged
  unused : store (bucketKey .wsEventConnection (identity connection)) = SortedSet.missing

section Messages

theorem escape_short (char : Char) : (escape char).length ≤ 6 := by
  unfold escape
  repeat' split
  all_goals simp

theorem quote_short (text : String) : (quote text).length ≤ 6 * text.length + 2 := by
  have escaped : ∀ chars : List Char, (chars.flatMap escape).length ≤ 6 * chars.length := by
    intro chars
    induction chars with
    | nil => simp
    | cons char rest ih =>
        have head := escape_short char
        rw [List.flatMap_cons, List.length_append, List.length_cons]
        omega
  have inner := escaped text.toList
  rw [String.length_toList] at inner
  simp only [quote, List.length_cons, List.length_append, List.length_nil]
  omega

theorem subscription_fits (id : ConversationId) :
    (sendRaw (subscription id)).text.length ≤ maxPayloadBytes := by
  have kind := quote_short "type"
  have named := quote_short "subscribe"
  have key := quote_short "conversation_id"
  have value := quote_short id.text
  rw [id.written] at value
  have counts : "type".length = 4 ∧ "subscribe".length = 9 ∧ "conversation_id".length = 15 := by
    decide
  simp only [sendRaw, stringify, subscription, List.map_cons, List.map_nil, List.intersperse,
    List.flatten_cons, List.flatten_nil, String.length_ofList, List.length_cons,
    List.length_append, List.length_nil, maxPayloadBytes]
  omega

theorem send_raw_injective {one other : ConversationId}
    (same : sendRaw (subscription one) = sendRaw (subscription other)) : one = other := by
  have loads := congrArg Raw.loads same
  simp only [sendRaw, subscription, List.map_cons, List.map_nil, Option.some.injEq,
    Json.object.injEq, List.cons.injEq, Prod.mk.injEq, Json.string.injEq, true_and, and_true]
    at loads
  cases one
  cases other
  cases loads
  rfl

theorem channel_injective {one other : ConversationId}
    (same : conversationChannel one.text = conversationChannel other.text) : one = other := by
  have chars := congrArg String.toList same
  simp only [conversationChannel, String.toList_append, List.append_cancel_left_eq] at chars
  cases one
  cases other
  cases String.toList_inj.mp chars
  rfl

end Messages

section Charges
variable {Digest : Type} {conversions : Conversions} {connection : Connection}
  {state next : State Digest} {delivery : Delivery Digest} {id : ConversationId}

/-- A readable conversation is subscribed to. -/
theorem readable_handled (readable : Readable conversions connection delivery id)
    (subscriptions : Finset String) :
    SocketFrames.handleEvent conversions delivery.tables delivery.now connection subscriptions
      [("type", .string "subscribe"), ("conversation_id", .string id.text)] =
      .done (some (.subscribe connection (conversationChannel id.text)))
        [.subscribed id.text] := by
  obtain ⟨valid, userId, user, access, bound, found, resolved, reads⟩ := readable
  have text : SocketFrames.conversationId conversions
      [("type", .string "subscribe"), ("conversation_id", .string id.text)] = id.text := rfl
  show SocketFrames.handleSubscribe conversions delivery.tables delivery.now connection
    [("type", .string "subscribe"), ("conversation_id", .string id.text)] = _
  simp only [SocketFrames.handleSubscribe, text, valid, bound, found, resolved, reads,
    Bool.not_true, Bool.false_eq_true, if_false]

theorem subscription_taken {socket : SocketFrames.State Digest} (open_ : socket.ended = false)
    (idle : socket.pending = []) (readable : Readable conversions connection delivery id) :
    ∃ after, SocketFrames.step conversions connection socket (.frame ⟨delivery.tables,
        delivery.now, [("type", .string "subscribe"), ("conversation_id", .string id.text)]⟩) =
        some after ∧
      after.registry.manager =
        socket.registry.manager.subscribe connection (conversationChannel id.text) ∧
      after.pending = [.subscribed id.text] ∧ after.ended = socket.ended := by
  rw [SocketFrames.step, if_neg (by simp [open_, idle]), readable_handled readable]
  exact ⟨_, rfl, rfl, rfl, rfl⟩

/-- How a message of the replay is answered. -/
inductive Charged (connection : Connection) (state : State Digest) (delivery : Delivery Digest)
    (id : ConversationId) (next : State Digest) : Prop where
  | refused
      (refusal : (RateLimit.check state.store .wsEventConnection (identity connection)
        delivery.arrival 1).1.allowed = false)
      (registry : next.socket.registry = state.socket.registry)
      (pending : next.socket.pending = [.error "rate_limited"])
  | handled
      (charged : (RateLimit.check state.store .wsEventConnection (identity connection)
        delivery.arrival 1).1.allowed = true)
      (manager : next.socket.registry.manager =
        state.socket.registry.manager.subscribe connection (conversationChannel id.text))
      (pending : next.socket.pending = [.subscribed id.text])

structure Processed (connection : Connection) (state : State Digest) (delivery : Delivery Digest)
    (id : ConversationId) (next : State Digest) : Prop where
  charged : Charged connection state delivery id next
  store : next.store = (RateLimit.check state.store .wsEventConnection (identity connection)
    delivery.arrival 1).2
  clock : next.clock = delivery.arrival
  received : next.received = state.received ++ [delivery]
  ended : next.socket.ended = state.socket.ended

theorem replay_processed (open_ : state.socket.ended = false) (idle : state.socket.pending = [])
    (sent : delivery.raw = sendRaw (subscription id))
    (readable : Readable conversions connection delivery id) :
    ∃ next, receive conversions connection state delivery = some next ∧
      Processed connection state delivery id next := by
  have fits : ¬maxPayloadBytes < delivery.raw.text.length := by
    rw [sent]
    exact Nat.not_lt.mpr (subscription_fits id)
  have loads : delivery.raw.loads =
      some (.object [("type", .string "subscribe"), ("conversation_id", .string id.text)]) := by
    rw [sent]
    rfl
  rw [receive, if_neg fits]
  cases decided : (RateLimit.check state.store .wsEventConnection (identity connection)
      delivery.arrival 1).1.allowed with
  | false =>
      refine ⟨_, by simp only [decided, Bool.not_false, if_true]; rfl, ?_⟩
      exact ⟨.refused decided rfl rfl, rfl, rfl, rfl, rfl⟩
  | true =>
      obtain ⟨after, taken, manager, pending, ended⟩ := subscription_taken open_ idle readable
      refine ⟨_, by
        simp only [decided, Bool.not_true, Bool.false_eq_true, if_false, dispatch, loads, taken]
        rfl, ?_⟩
      exact ⟨.handled decided manager pending, rfl, rfl, rfl, ended⟩

end Charges

/-- What the budget of a connection lets through. -/
def passed (times : List Nat) : List Nat :=
  allowedBy mergedWeight (limits .wsEventConnection).limit (windowMs .wsEventConnection) times

def arrivals {Digest : Type} (state : State Digest) : List Nat :=
  state.received.map Delivery.arrival

section Replay
variable {Digest : Type} {conversions : Conversions} {connection : Connection}
  {state next : State Digest} {ids : List ConversationId}

/-- `ids` are the conversations whose messages were let through: as many as the
budget allowed, in the order of the replay, and the channels of the connection. -/
structure Served (connection : Connection) (ids : List ConversationId) (state : State Digest) :
    Prop where
  bucket : RateLimit.Represents (windowMs .wsEventConnection) state.clock (passed (arrivals state))
    (state.store (bucketKey .wsEventConnection (identity connection)))
  linked : Linked state.socket.registry.manager connection
  counted : ids.length = (passed (arrivals state)).length
  sent : (ids.map fun id => sendRaw (subscription id)).Sublist (state.received.map Delivery.raw)
  channels : ∀ channel, channel ∈ state.socket.registry.manager.subscriptions connection ↔
    channel = userChannel connection.userId ∨ ∃ id ∈ ids, channel = conversationChannel id.text

/-- A message of the replay, to a conversation that is readable when it is handled. -/
def Replayed (conversions : Conversions) (connection : Connection) (action : Action Digest) :
    Prop :=
  ∀ delivery, action = .receive delivery → ∃ id, delivery.raw = sendRaw (subscription id) ∧
    Readable conversions connection delivery id

theorem others_linked {action : ConnectionManager.Action}
    {registry after : ConnectionManager.State} (linked : Linked registry.manager connection)
    (elsewhere : SocketFrames.isElsewhere connection registry action = true)
    (taken : ConnectionManager.step registry action = some after) :
    Linked after.manager connection := by
  cases action with
  | call call order =>
      have distinct : call.connection ≠ connection := of_decide_eq_true elsewhere
      exact linked_frame (begin_frame taken) distinct.symm linked
  | resume index order =>
      obtain ⟨task, found, resumed⟩ := Option.bind_eq_some_iff.mp taken
      simp only [SocketFrames.isElsewhere, found, Option.any_some, decide_eq_true_eq] at elsewhere
      rcases elsewhere with distinct | finishing
      · exact linked_frame (resume_frame resumed) (Ne.symm distinct) linked
      · obtain ⟨call, progress⟩ := task
        cases finishing
        cases resumed
        exact linked
  | takeEffect =>
      cases taken
      intro channel
      show connection ∈ (registry.manager.takeEffect).members channel ↔
        channel ∈ (registry.manager.takeEffect).subscriptions connection
      unfold Manager.takeEffect
      split <;> exact linked channel

/-- What leaves the tables of the connection and its budget leaves the rest. -/
theorem served_kept (served : Served connection ids state)
    (received : next.received = state.received) (clock : next.clock = state.clock)
    (bucket : next.store (bucketKey .wsEventConnection (identity connection)) =
      state.store (bucketKey .wsEventConnection (identity connection)))
    (linked : Linked next.socket.registry.manager connection)
    (subscriptions : next.socket.registry.manager.subscriptions connection =
      state.socket.registry.manager.subscriptions connection) : Served connection ids next where
  bucket := by
    rw [clock, bucket, arrivals, received]
    exact served.bucket
  linked := linked
  counted := by
    rw [arrivals, received]
    exact served.counted
  sent := by
    rw [received]
    exact served.sent
  channels := by
    rw [subscriptions]
    exact served.channels

/-- The budget of the connection after one more message, and what it let through. -/
theorem processed_budget {delivery : Delivery Digest} {id : ConversationId}
    (served : Served connection ids state) (later : state.clock ≤ delivery.arrival)
    (processed : Processed connection state delivery id next) :
    RateLimit.Represents (windowMs .wsEventConnection) next.clock (passed (arrivals next))
        (next.store (bucketKey .wsEventConnection (identity connection))) ∧
      (passed (arrivals next)).length = (passed (arrivals state)).length +
        if (RateLimit.check state.store .wsEventConnection (identity connection)
          delivery.arrival 1).1.allowed = true then 1 else 0 := by
  have times : arrivals next = arrivals state ++ [delivery.arrival] := by
    rw [arrivals, processed.received, List.map_append]
    rfl
  obtain ⟨decided, represents⟩ := RateLimit.script_refines (windowMs .wsEventConnection)
    (limits .wsEventConnection).limit state.clock delivery.arrival _ _ served.bucket later
  rw [← RateLimit.check_allowed] at decided
  constructor
  · rw [processed.clock, processed.store, RateLimit.check_store, if_pos rfl, times, passed,
      SlidingWindow.allowed_by_snoc]
    exact represents
  · rw [times, passed, SlidingWindow.allowed_by_snoc, SlidingWindow.allow, ← passed, ← decided]
    split
    · rw [List.length_append]
      rfl
    · rfl

/-- A subscription adds the channel of its conversation. -/
theorem subscribed_channels (served : Served connection ids state) (id : ConversationId)
    (channel : String) :
    channel ∈ (state.socket.registry.manager.subscribe connection
        (conversationChannel id.text)).subscriptions connection ↔
      channel = userChannel connection.userId ∨
        ∃ other ∈ ids ++ [id], channel = conversationChannel other.text := by
  rw [Manager.subscribe_subscriptions, Function.update_self, Finset.mem_insert, served.channels]
  constructor
  · rintro (fresh | own | ⟨other, member, named⟩)
    · exact Or.inr ⟨id, List.mem_append_right _ (List.mem_singleton_self id), fresh⟩
    · exact Or.inl own
    · exact Or.inr ⟨other, List.mem_append_left _ member, named⟩
  · rintro (own | ⟨other, member, named⟩)
    · exact Or.inr (Or.inl own)
    · rcases List.mem_append.mp member with old | fresh
      · exact Or.inr (Or.inr ⟨other, old, named⟩)
      · exact Or.inl (List.mem_singleton.mp fresh ▸ named)

theorem processed_served {delivery : Delivery Digest} {id : ConversationId}
    (served : Served connection ids state) (later : state.clock ≤ delivery.arrival)
    (sent : delivery.raw = sendRaw (subscription id))
    (processed : Processed connection state delivery id next) :
    ∃ more, Served connection more next := by
  obtain ⟨bucket, counted⟩ := processed_budget served later processed
  cases processed.charged with
  | refused refusal registry pending =>
      refine ⟨ids, bucket, ?_, ?_, ?_, ?_⟩
      · rw [registry]
        exact served.linked
      · rw [refusal] at counted
        exact served.counted.trans counted.symm
      · rw [processed.received, List.map_append]
        exact served.sent.trans (List.sublist_append_left _ _)
      · rw [registry]
        exact served.channels
  | handled charged manager pending =>
      refine ⟨ids ++ [id], bucket, ?_, ?_, ?_, ?_⟩
      · rw [manager]
        exact subscribe_linked served.linked _
      · rw [charged, if_pos rfl, ← served.counted] at counted
        rw [counted, List.length_append]
        rfl
      · rw [processed.received, List.map_append, List.map_append]
        apply served.sent.append
        rw [List.map_singleton, List.map_singleton, sent]
      · intro channel
        rw [manager]
        exact subscribed_channels served id channel

theorem served_step {action : Action Digest} (served : ∃ ids, Served connection ids state)
    (replayed : Replayed conversions connection action)
    (taken : step conversions connection state action = some next) :
    ∃ ids, Served connection ids next := by
  obtain ⟨ids, served⟩ := served
  cases action with
  | receive delivery =>
      obtain ⟨id, sent, readable⟩ := replayed delivery rfl
      rw [step] at taken
      split at taken
      · cases taken
      · rename_i ready
        simp only [not_or, Bool.not_eq_true, not_not, not_lt] at ready
        obtain ⟨after, received, processed⟩ := replay_processed ready.1 ready.2.1 sent readable
        cases taken.symm.trans received
        exact processed_served served ready.2.2 sent processed
  | perform =>
      obtain ⟨socket, performed, rfl⟩ := Option.map_eq_some_iff.mp taken
      rw [SocketFrames.step] at performed
      split at performed
      · cases performed
      · cases performed
        exact ⟨ids, served_kept served rfl rfl rfl served.linked rfl⟩
  | others action =>
      obtain ⟨socket, moved, rfl⟩ := Option.map_eq_some_iff.mp taken
      rw [SocketFrames.step] at moved
      split at moved
      · rename_i elsewhere
        obtain ⟨registry, stepped, rfl⟩ := Option.map_eq_some_iff.mp moved
        exact ⟨ids, served_kept served rfl rfl rfl
          (others_linked served.linked elsewhere stepped)
          (SocketFrames.others_kept elsewhere stepped)⟩
      · cases moved
  | limited name other now =>
      rw [step] at taken
      split at taken
      · cases taken
      · rename_i apart
        cases taken
        have bucket := (RateLimit.check_store state.store name other now
          (bucketKey .wsEventConnection (identity connection))).trans (if_neg apart)
        exact ⟨ids, served_kept served rfl rfl bucket served.linked rfl⟩

theorem opened_served {registry : ConnectionManager.State} {store : Store}
    (opened : Opened connection registry store) :
    Served connection []
      ({ socket := { registry := registry }, store := store } : State Digest) where
  bucket := by
    show RateLimit.Represents _ _ _ (store _)
    rw [opened.unused]
    exact RateLimit.missing_represents _ _
  linked := opened.linked
  counted := rfl
  sent := List.Sublist.refl _
  channels := by
    intro channel
    show channel ∈ registry.manager.subscriptions connection ↔ _
    rw [opened.registered, Finset.mem_singleton]
    simp

theorem subscribed_iff (served : Served connection ids state) (id : ConversationId) :
    Subscribed state.socket.registry.manager connection (conversationChannel id.text) ↔
      id ∈ ids := by
  rw [Subscribed, served.linked, and_self, served.channels]
  constructor
  · rintro (own | ⟨other, member, named⟩)
    · exact absurd own (channels_apart _ _)
    · exact channel_injective named ▸ member
  · exact fun member => Or.inr ⟨id, member, rfl⟩

/-- The budget let the whole replay through exactly when every one of its
conversations was let through. -/
theorem served_all_iff (served : Served connection ids state) {client : ChatSocket}
    (replayed : state.received.map Delivery.raw = client.onopen) :
    (∀ id ∈ client.subscribed, id ∈ ids) ↔ passed (arrivals state) = arrivals state := by
  have sublist : ids.Sublist client.subscribed := by
    have sent := served.sent
    rw [replayed, ChatSocket.onopen] at sent
    obtain ⟨kept, within, same⟩ := List.sublist_map_iff.mp sent
    rw [List.map_injective_iff.mpr (fun _ _ => send_raw_injective) same]
    exact within
  have lengths : (arrivals state).length = client.subscribed.length := by
    have counts := congrArg List.length replayed
    rwa [List.length_map, ChatSocket.onopen, List.length_map, ← List.length_map] at counts
  have fewer : (passed (arrivals state)).Sublist (arrivals state) :=
    SlidingWindow.allowed_by_sublist _ _ _ _
  constructor
  · intro all
    have many := (client.distinct.subperm all).length_le
    apply fewer.eq_of_length_le
    rw [lengths, ← served.counted]
    exact many
  · intro whole id member
    have same : ids = client.subscribed := by
      apply sublist.eq_of_length
      rw [served.counted, whole, lengths]
    exact same ▸ member

end Replay

/-- The client has sent its replay over a new connection, all of it was
processed, and every conversation was readable then. -/
structure Reconnected {Digest : Type} (conversions : Conversions) (connection : Connection)
    (registry : ConnectionManager.State) (store : Store) (client : ChatSocket)
    (actions : List (Action Digest)) (final : State Digest) : Prop where
  opened : Opened connection registry store
  ran : Runs.run (step conversions connection)
    { socket := { registry := registry }, store := store } actions = some final
  readable : ∀ action ∈ actions, Replayed conversions connection action
  replayed : final.received.map Delivery.raw = client.onopen

section Reconnects
variable {Digest : Type} {conversions : Conversions} {connection : Connection}
  {registry : ConnectionManager.State} {store : Store} {client : ChatSocket}
  {actions : List (Action Digest)} {final : State Digest}

theorem reconnected_served
    (reconnected : Reconnected conversions connection registry store client actions final) :
    ∃ ids, Served connection ids final :=
  Runs.guarded_invariant (fun state => ∃ ids, Served connection ids state)
    (fun _ _ _ served replayed taken => served_step served replayed taken)
    reconnected.ran (Runs.meets_of_all reconnected.readable) ⟨[], opened_served reconnected.opened⟩

theorem subscribed_all_iff
    (reconnected : Reconnected conversions connection registry store client actions final) :
    (∀ id ∈ client.subscribed, Subscribed final.socket.registry.manager connection
      (conversationChannel id.text)) ↔ passed (arrivals final) = arrivals final := by
  obtain ⟨ids, served⟩ := reconnected_served reconnected
  rw [← served_all_iff served reconnected.replayed]
  exact forall₂_congr fun id _ => subscribed_iff served id

/-- A reconnect restores every subscription exactly when each message of the
replay finds fewer than 60 milliseconds in use among the earlier ones of its
last ten seconds. -/
theorem replay_subscribes_iff
    (reconnected : Reconnected conversions connection registry store client actions final) :
    (∀ id ∈ client.subscribed, Subscribed final.socket.registry.manager connection
      (conversationChannel id.text)) ↔ HasRoom mergedWeight 60 10000 (arrivals final) :=
  (subscribed_all_iff reconnected).trans (SlidingWindow.allowed_all_iff mergedWeight 60 10000 _)

/-- Every replay can be processed, at any times in order. -/
theorem replay_runs (deliveries : List (Delivery Digest)) (state : State Digest)
    (open_ : state.socket.ended = false) (idle : state.socket.pending = [])
    (ordered : (state.clock :: deliveries.map Delivery.arrival).Pairwise (· ≤ ·))
    (readable : ∀ delivery ∈ deliveries, ∃ id, delivery.raw = sendRaw (subscription id) ∧
      Readable conversions connection delivery id) :
    ∃ actions final, Runs.run (step conversions connection) state actions = some final ∧
      (∀ action ∈ actions, Replayed conversions connection action) ∧
      final.received = state.received ++ deliveries := by
  induction deliveries generalizing state with
  | nil => exact ⟨[], state, rfl, by simp, by simp⟩
  | cons delivery rest ih =>
      obtain ⟨id, sent, granted⟩ := readable delivery List.mem_cons_self
      obtain ⟨next, received, processed⟩ := replay_processed open_ idle sent granted
      rw [List.map_cons, List.pairwise_cons, List.pairwise_cons] at ordered
      have later := ordered.1 delivery.arrival List.mem_cons_self
      have taken : step conversions connection state (.receive delivery) = some next := by
        rw [step, if_neg (by simp [open_, idle, later]), received]
      obtain ⟨effect, waiting⟩ : ∃ effect, next.socket.pending = [effect] := by
        cases processed.charged with
        | refused _ _ pending => exact ⟨_, pending⟩
        | handled _ _ pending => exact ⟨_, pending⟩
      have performed : step conversions connection next .perform =
          some { next with socket := { next.socket with pending := [] } } := by
        simp only [step, SocketFrames.step, waiting, Option.map_some]
      obtain ⟨actions, final, ran, replayed, history⟩ :=
        ih { next with socket := { next.socket with pending := [] } }
          (processed.ended.trans open_) rfl
          (by
            rw [List.pairwise_cons, processed.clock]
            exact ordered.2)
          fun other member => readable other (List.mem_cons_of_mem delivery member)
      refine ⟨.receive delivery :: .perform :: actions, final, ?_, ?_, ?_⟩
      · exact (Runs.run_cons_iff _ _ _ _).mpr
          ⟨next, taken, (Runs.run_cons_iff _ _ _ _).mpr ⟨_, performed, ran⟩⟩
      · intro action member other same
        rcases List.mem_cons.mp member with rfl | late
        · cases same
          exact ⟨id, sent, granted⟩
        · rcases List.mem_cons.mp late with rfl | later
          · cases same
          · exact replayed action later other same
      · rw [history]
        show next.received ++ rest = _
        rw [processed.received]
        simp

end Reconnects

def stem : List Char := "00000000-0000-4000-8000-0000000000".toList

/-- The conversation with this number below a hundred. -/
def sampleId (number : Nat) : ConversationId where
  text := String.ofList (stem ++ [Nat.digitChar (number / 10), Nat.digitChar (number % 10)])
  written := by
    have short : stem.length = 34 := by decide
    rw [String.length_ofList, List.length_append, short]
    rfl

/-- The number at the end of an id, or the id of the only user. -/
def lastDigits : Conversions where
  render := fun _ => ""
  isUuid := fun text => text.length == 36
  bind := fun text =>
    if text = "4" then some 4
    else match text.toList.drop 34 with
      | [tens, units] => some ((tens.toNat - 48) * 10 + (units.toNat - 48))
      | _ => none

/-- A member of 61 groups. -/
def busy : Tables Nat :=
  { users := [{ id := 4, phoneHash := 4, phoneLast4 := "1234", phoneCountry := "91"
                displayName := "", systemRole := .user, accountState := .active
                deletedAt := none }]
    conversations := (List.range 61).map fun number =>
      { id := number, kind := .group, createdBy := none, updatedAt := 0 }
    members := (List.range 61).map fun number => { conversationId := number, userId := 4 } }

def subscribing (arrival number : Nat) : Delivery Nat :=
  ⟨sendRaw (subscription (sampleId number)), arrival, busy, 0⟩

theorem sample_bound (number : Nat) (small : number < 61) :
    lastDigits.bind (sampleId number).text = some number := by
  have long : (sampleId number).text ≠ "4" := by
    intro same
    have lengths := congrArg String.length same
    rw [(sampleId number).written] at lengths
    exact absurd lengths (by decide)
  have ending : (sampleId number).text.toList.drop 34 =
      [Nat.digitChar (number / 10), Nat.digitChar (number % 10)] := by
    have short : stem.length = 34 := by decide
    rw [sampleId, String.toList_ofList, ← short, List.drop_left]
  have value : ∀ number < 61, ((Nat.digitChar (number / 10)).toNat - 48) * 10 +
      ((Nat.digitChar (number % 10)).toNat - 48) = number := by decide
  simp only [lastDigits, if_neg long, ending, value number small]

theorem subscribing_readable (number : Nat) (small : number < 61) (arrival : Nat) :
    Readable lastDigits browser (subscribing arrival number) (sampleId number) := by
  have granted : ∀ number < 61, ((resolveAccess busy (busy.users.head (by decide)) 0
      number).toOption.any (Access.can · .readMessages)) = true := by decide +kernel
  obtain ⟨access, resolved, reads⟩ := (Option.any_eq_true _ _).mp (granted number small)
  have valid : lastDigits.isUuid (sampleId number).text = true := by
    show ((sampleId number).text.length == 36) = true
    rw [(sampleId number).written]
    rfl
  refine ⟨valid, 4, _, access, rfl, rfl, ?_, reads⟩
  rw [SocketFrames.accessTo, sample_bound number small]
  exact resolved

/-- The first of the groups. -/
def subscriber (count : Nat) (few : count ≤ 61) : ChatSocket where
  subscribed := (List.range count).map sampleId
  distinct := by
    apply List.Nodup.map_on _ List.nodup_range
    intro one first other second same
    have left := sample_bound one ((List.mem_range.mp first).trans_le few)
    have right := sample_bound other ((List.mem_range.mp second).trans_le few)
    rw [same, right] at left
    exact (Option.some.inj left).symm

/-- A replay whose messages are a millisecond apart. -/
theorem subscriber_reconnects (count : Nat) (few : count ≤ 61) :
    ∃ (actions : List (Action Nat)) (final : State Nat),
    Reconnected lastDigits browser greeted RateLimit.emptyStore (subscriber count few)
      actions final ∧ arrivals final = List.range count := by
  have registered : Registered browser greeted := by
    unfold Registered
    decide
  have linked : Linked greeted.manager browser := by
    have before : Linked (started.addUser browser) browser := by
      intro channel
      exact Iff.intro (fun member => nomatch member) (fun member => nomatch member)
    exact subscribe_linked before _
  obtain ⟨actions, final, ran, readable, history⟩ := replay_runs
    ((List.range count).map fun number => subscribing number number)
    { socket := { registry := greeted }, store := RateLimit.emptyStore } rfl rfl
    (by
      have times : (List.range count).Pairwise (· ≤ ·) := List.pairwise_le_range
      simpa [subscribing, Function.comp_def] using times)
    (by
      intro delivery member
      obtain ⟨number, listed, rfl⟩ := List.mem_map.mp member
      exact ⟨sampleId number, rfl,
        subscribing_readable number ((List.mem_range.mp listed).trans_le few) number⟩)
  rw [List.nil_append] at history
  refine ⟨actions, final, ⟨⟨registered, linked, rfl⟩, ran, readable, ?_⟩, ?_⟩
  · rw [history, List.map_map, ChatSocket.onopen, subscriber, List.map_map]
    rfl
  · rw [arrivals, history, List.map_map]
    exact List.map_id _

/-- Two subscriptions come back. -/
theorem two_restored : ∃ (actions : List (Action Nat)) (final : State Nat),
    Reconnected lastDigits browser greeted RateLimit.emptyStore (subscriber 2 (by decide))
      actions final ∧
    ∀ id ∈ (subscriber 2 (by decide)).subscribed,
      Subscribed final.socket.registry.manager browser (conversationChannel id.text) := by
  obtain ⟨actions, final, reconnected, times⟩ := subscriber_reconnects 2 (by decide)
  refine ⟨actions, final, reconnected, (replay_subscribes_iff reconnected).mpr ?_⟩
  rw [times]
  exact SlidingWindow.has_room_short 60 10000 _ (by decide)

/-- The 61st of 61 subscriptions within 61 milliseconds is lost. -/
theorem subscription_lost :
    ¬∀ (conversions : Conversions) (connection : Connection)
      (registry : ConnectionManager.State) (store : Store) (client : ChatSocket)
      (actions : List (Action Nat)) (final : State Nat),
      Reconnected conversions connection registry store client actions final →
      ∀ id ∈ client.subscribed, Subscribed final.socket.registry.manager connection
        (conversationChannel id.text) := by
  intro claim
  obtain ⟨actions, final, reconnected, times⟩ := subscriber_reconnects 61 le_rfl
  have whole := (subscribed_all_iff reconnected).mp (claim _ _ _ _ _ actions final reconnected)
  rw [times] at whole
  have room := (SlidingWindow.allowed_all_iff mergedWeight 60 10000 _).mp whole
    (List.range 60) 60 [] List.range_succ
  exact absurd room (by decide +kernel)

end RunnerupChat.Reconnect
