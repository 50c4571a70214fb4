import RunnerupChat.Replicas
import RunnerupChat.SocketFrames

/-!
`ws/manager.py`: which connections `_relay` delivers an event to, while the
database changes. A subscription is authorized when it is made; nothing looks
at it again.
-/

namespace RunnerupChat.EventDelivery

open Accounts Authz ConnectionManager Replicas SocketFrames

/-- An event on the channel of a conversation, with the database as it was when
the event was published. -/
structure Event (Digest : Type) where
  text : String
  kind : String
  origin : Option Nat
  tables : Tables Digest
  now : Time

/-- The call that a handler has still to make, after it was authorized. -/
structure Authorized (Place : Type) where
  place : Place
  call : Call
  deriving DecidableEq

structure Delivery (Digest : Type) where
  event : Event Digest
  recipients : Finset Connection

structure State (Place Digest : Type) where
  tables : Tables Digest
  now : Time
  replicas : Place → Replica (Event Digest) := fun _ => {}
  authorized : List (Authorized Place) := []
  deliveries : List (Delivery Digest) := []

inductive Action (Place Digest : Type) where
  /-- Any change that the schema allows; time passes. -/
  | change (tables : Tables Digest) (now : Time)
  | subscribe (place : Place) (connection : Connection) (event : List (String × Json))
  /-- The handler goes on and calls the manager. -/
  | proceed (index : Nat)
  /-- Every other call on a registry, and what the calls do later. -/
  | work (place : Place) (action : ConnectionManager.Action)
  | publish (text kind : String) (origin : Option Nat)
  | relay (place : Place)

/-- Only `_handle_subscribe` subscribes a connection to a conversation. -/
def subscribes : ConnectionManager.Action → Bool
  | .call (.subscribe _ _) _ => true
  | _ => false

section Steps
variable {Place Digest : Type} [DecidableEq Place] [DecidableEq Digest]
  (conversions : Conversions)

/-- Whom an event is sent to: not to where it came from. -/
def recipients (manager : Manager) (event : Event Digest) : Finset Connection :=
  if event.kind = "session.revoked" then ∅
  else (manager.members (conversationChannel event.text)).filter fun connection =>
    event.origin ≠ some connection.connectionId

def authorize (state : State Place Digest) (place : Place) : Response → State Place Digest
  | .done (some call) _ => { state with authorized := state.authorized ++ [⟨place, call⟩] }
  | .done none _ | .raised => state

def step (state : State Place Digest) : Action Place Digest → Option (State Place Digest)
  | .change tables now =>
      if Schema tables then some { state with tables := tables, now := now } else none
  | .subscribe place connection event =>
      some (authorize state place
        (handleSubscribe conversions state.tables state.now connection event))
  | .proceed index => (state.authorized[index]?).bind fun waiting =>
      (begin (state.replicas waiting.place).registry waiting.call []).map fun registry =>
        { state with
          authorized := state.authorized.eraseIdx index
          replicas := withRegistry state.replicas waiting.place registry }
  | .work place action =>
      if subscribes action then none
      else (ConnectionManager.step (state.replicas place).registry action).map fun registry =>
        { state with replicas := withRegistry state.replicas place registry }
  | .publish text kind origin =>
      let event : Event Digest := ⟨text, kind, origin, state.tables, state.now⟩
      some { state with replicas := publish state.replicas (conversationChannel text) event }
  | .relay place =>
      let replica := state.replicas place
      match replica.inbox with
      | [] => none
      | event :: later =>
          some { state with
            replicas := withInbox state.replicas place later
            deliveries := state.deliveries ++ [⟨event, recipients replica.registry.manager event⟩] }

end Steps

section Conditions
variable {Place Digest : Type} (conversions : Conversions)

/-- Whether `resolve_access` would grant the user of the connection to read. -/
def mayRead (tables : Tables Digest) (now : Time) (connection : Connection) (text : String) :
    Bool :=
  ((conversions.bind connection.userId).bind fun userId =>
    tables.users.find? fun row => row.id == userId).any fun user =>
      (accessTo conversions tables now user text).any fun access => access.can .readMessages

/-- The connection is subscribed to the conversation, or authorized to be. -/
def Follows (state : State Place Digest) (place : Place) (connection : Connection)
    (text : String) : Prop :=
  connection ∈ (state.replicas place).registry.manager.members (conversationChannel text) ∨
    ⟨place, .subscribe connection (conversationChannel text)⟩ ∈ state.authorized

/-- No change takes the right to read a conversation from the user of a
connection that follows it, and no connection is authorized while an event
waits at its replica that its user could not read when it was published. -/
def Steady (state : State Place Digest) : Action Place Digest → Prop
  | .change tables now => ∀ place connection text, Follows state place connection text →
      mayRead conversions state.tables state.now connection text = true →
      mayRead conversions tables now connection text = true
  | .subscribe place connection frame => ∀ event ∈ (state.replicas place).inbox,
      event.text = conversationId conversions frame →
      mayRead conversions state.tables state.now connection event.text = true →
      mayRead conversions event.tables event.now connection event.text = true
  | _ => True

/-- Every event went to readers alone. -/
def Confined (state : State Place Digest) : Prop :=
  ∀ delivery ∈ state.deliveries, ∀ connection ∈ delivery.recipients,
    mayRead conversions delivery.event.tables delivery.event.now connection
      delivery.event.text = true

end Conditions

section Invariant
variable {Place Digest : Type} [DecidableEq Place] [DecidableEq Digest]
  {conversions : Conversions} {state next : State Place Digest}

theorem conversation_channel_injective {first second : String}
    (same : conversationChannel first = conversationChannel second) : first = second := by
  have texts := congrArg String.toList same
  simp only [conversationChannel, String.toList_append] at texts
  exact String.toList_inj.mp (List.append_cancel_left texts)

omit [DecidableEq Digest] in
/-- What is authorized may be read. -/
theorem subscribe_reads {tables : Tables Digest} {now : Time} {connection : Connection}
    {frame : List (String × Json)} {call : Call} {effects : List Effect}
    (handled : handleSubscribe conversions tables now connection frame =
      .done (some call) effects) :
    call = .subscribe connection (conversationChannel (conversationId conversions frame)) ∧
      mayRead conversions tables now connection (conversationId conversions frame) = true := by
  simp only [SocketFrames.handleSubscribe] at handled
  split at handled
  · cases handled
  · split at handled
    · cases handled
    · rename_i userId bound
      split at handled
      · cases handled
      · rename_i user found
        split at handled
        · cases handled
        · rename_i access resolved
          split at handled
          · cases handled
          · rename_i reads
            cases handled
            refine ⟨rfl, ?_⟩
            simp only [mayRead, bound, Option.bind_some, found, Option.any_some, resolved]
            simpa using reads

/-- Who follows a conversation may read it and may read what waits; what was
delivered went to readers. -/
structure Inv (conversions : Conversions) (state : State Place Digest) : Prop where
  reads : ∀ place connection text, Follows state place connection text →
    mayRead conversions state.tables state.now connection text = true
  waits : ∀ place, ∀ event ∈ (state.replicas place).inbox, ∀ connection,
    Follows state place connection event.text →
    mayRead conversions event.tables event.now connection event.text = true
  confined : Confined conversions state

omit [DecidableEq Digest] in
/-- A step of a registry makes nobody follow a conversation who was not
authorized to. -/
theorem registry_follows {place elsewhere : Place} {work : ConnectionManager.Action}
    {registry : ConnectionManager.State} {connection : Connection} {text : String}
    (moved : ConnectionManager.step (state.replicas place).registry work = some registry)
    (asked : ∀ other channel order, work = .call (.subscribe other channel) order →
      ⟨place, .subscribe other channel⟩ ∈ state.authorized)
    (member : connection ∈ (withRegistry state.replicas place registry
      elsewhere).registry.manager.members (conversationChannel text)) :
    Follows state elsewhere connection text := by
  by_cases here : elsewhere = place
  · subst here
    rw [registry_self] at member
    rcases (step_added moved).members connection _ member with old | ⟨order, called⟩ | ⟨_, own⟩
    · exact Or.inl old
    · exact Or.inr (asked connection _ order called)
    · exact absurd own (channels_apart text connection.userId)
  · rw [registry_other registry here] at member
    exact Or.inl member

omit [DecidableEq Place] [DecidableEq Digest] in
theorem authorize_inv (inv : Inv conversions state) (place : Place) (connection : Connection)
    (frame : List (String × Json))
    (steady : Steady conversions state (.subscribe place connection frame)) :
    Inv conversions (authorize state place
      (handleSubscribe conversions state.tables state.now connection frame)) := by
  cases handled : handleSubscribe conversions state.tables state.now connection frame with
  | raised => exact inv
  | done call effects => cases call with
    | none => exact inv
    | some call =>
        obtain ⟨rfl, granted⟩ := subscribe_reads handled
        have known : ∀ elsewhere other text, Follows (authorize state place
            (.done (some (.subscribe connection
              (conversationChannel (conversationId conversions frame)))) effects))
              elsewhere other text →
            Follows state elsewhere other text ∨ elsewhere = place ∧ other = connection ∧
              text = conversationId conversions frame := by
          rintro elsewhere other text (member | waiting)
          · exact Or.inl (Or.inl member)
          · rcases List.mem_append.mp waiting with old | new
            · exact Or.inl (Or.inr old)
            · have same := List.mem_singleton.mp new
              simp only [Authorized.mk.injEq, Call.subscribe.injEq] at same
              exact Or.inr ⟨same.1, same.2.1, conversation_channel_injective same.2.2⟩
        refine ⟨fun elsewhere other text follows => ?_,
          fun elsewhere event member other follows => ?_, inv.confined⟩
        · rcases known elsewhere other text follows with old | ⟨rfl, rfl, rfl⟩
          · exact inv.reads elsewhere other text old
          · exact granted
        · rcases known elsewhere other event.text follows with old | ⟨rfl, rfl, same⟩
          · exact inv.waits elsewhere event member other old
          · exact steady event member same (same ▸ granted)

omit [DecidableEq Digest] in
/-- A step of a registry keeps the rest. -/
theorem registry_inv (inv : Inv conversions state) {place : Place}
    (work : ConnectionManager.Action) {registry : ConnectionManager.State}
    {authorized : List (Authorized Place)}
    (moved : ConnectionManager.step (state.replicas place).registry work = some registry)
    (asked : ∀ other channel order, work = .call (.subscribe other channel) order →
      ⟨place, .subscribe other channel⟩ ∈ state.authorized)
    (fewer : ∀ waiting ∈ authorized, waiting ∈ state.authorized) :
    Inv conversions { state with
      authorized := authorized
      replicas := withRegistry state.replicas place registry } := by
  have known : ∀ elsewhere connection text, Follows { state with
      authorized := authorized
      replicas := withRegistry state.replicas place registry } elsewhere connection text →
      Follows state elsewhere connection text := by
    rintro elsewhere connection text (member | waiting)
    · exact registry_follows moved asked member
    · exact Or.inr (fewer _ waiting)
  refine ⟨fun elsewhere connection text follows => ?_,
    fun elsewhere event member connection follows => ?_, inv.confined⟩
  · exact inv.reads elsewhere connection text (known elsewhere connection text follows)
  · rw [registry_inbox] at member
    exact inv.waits elsewhere event member connection
      (known elsewhere connection event.text follows)

omit [DecidableEq Place] [DecidableEq Digest] in
theorem publish_inv (inv : Inv conversions state) (text kind : String) (origin : Option Nat) :
    Inv conversions { state with
      replicas := publish state.replicas (conversationChannel text)
        ⟨text, kind, origin, state.tables, state.now⟩ } := by
  have known : ∀ elsewhere connection other, Follows { state with
      replicas := publish state.replicas (conversationChannel text)
        (⟨text, kind, origin, state.tables, state.now⟩ : Event Digest) }
        elsewhere connection other → Follows state elsewhere connection other := by
    rintro elsewhere connection other (member | waiting)
    · rw [publish_registry] at member
      exact Or.inl member
    · exact Or.inr waiting
  refine ⟨fun elsewhere connection other follows => ?_,
    fun elsewhere event member connection follows => ?_, inv.confined⟩
  · exact inv.reads elsewhere connection other (known elsewhere connection other follows)
  · rcases mem_publish.mp member with old | ⟨rfl, _⟩
    · exact inv.waits elsewhere event old connection
        (known elsewhere connection event.text follows)
    · exact inv.reads elsewhere connection text (known elsewhere connection text follows)

theorem relay_inv (inv : Inv conversions state) {place : Place}
    (taken : step conversions state (.relay place) = some next) : Inv conversions next := by
  simp only [step] at taken
  split at taken
  · cases taken
  · rename_i event later queued
    cases taken
    have known : ∀ elsewhere connection text,
        (connection ∈ (withInbox state.replicas place later elsewhere).registry.manager.members
          (conversationChannel text) ∨
          ⟨elsewhere, .subscribe connection (conversationChannel text)⟩ ∈ state.authorized) →
        Follows state elsewhere connection text := by
      rintro elsewhere connection text (member | waiting)
      · rw [inbox_registry] at member
        exact Or.inl member
      · exact Or.inr waiting
    have first : event ∈ (state.replicas place).inbox := queued ▸ List.mem_cons_self
    refine ⟨fun elsewhere connection text follows => ?_,
      fun elsewhere other member connection follows => ?_, fun delivery listed => ?_⟩
    · exact inv.reads elsewhere connection text (known elsewhere connection text follows)
    · have waiting : other ∈ (state.replicas elsewhere).inbox := by
        by_cases here : elsewhere = place
        · subst here
          rw [inbox_self] at member
          exact queued ▸ List.mem_cons_of_mem event member
        · rwa [inbox_other later here] at member
      exact inv.waits elsewhere other waiting connection
        (known elsewhere connection other.text follows)
    · rcases List.mem_append.mp listed with old | new
      · exact inv.confined delivery old
      · obtain rfl := List.mem_singleton.mp new
        intro connection received
        simp only [recipients] at received
        split at received
        · exact absurd received (Finset.notMem_empty connection)
        · exact inv.waits place event first connection (Or.inl (Finset.mem_filter.mp received).1)

theorem step_inv {action : Action Place Digest} (inv : Inv conversions state)
    (steady : Steady conversions state action)
    (taken : step conversions state action = some next) : Inv conversions next := by
  cases action with
  | change tables now =>
      simp only [step] at taken
      split at taken
      · cases taken
        exact ⟨fun place connection text follows => steady place connection text follows
          (inv.reads place connection text follows), inv.waits, inv.confined⟩
      · cases taken
  | subscribe place connection frame =>
      cases taken
      exact authorize_inv inv place connection frame steady
  | proceed index =>
      obtain ⟨waiting, found, moved⟩ := Option.bind_eq_some_iff.mp taken
      obtain ⟨registry, begun, rfl⟩ := Option.map_eq_some_iff.mp moved
      refine registry_inv inv (.call waiting.call []) begun ?_ fun _ member =>
        List.mem_of_mem_eraseIdx member
      rintro other channel order same
      have listed := List.mem_of_getElem? found
      cases waiting
      cases same
      exact listed
  | work place action =>
      simp only [step] at taken
      split at taken
      · cases taken
      · rename_i spared
        obtain ⟨registry, moved, rfl⟩ := Option.map_eq_some_iff.mp taken
        refine registry_inv inv action moved ?_ fun _ member => member
        rintro other channel order rfl
        exact absurd rfl spared
  | publish text kind origin =>
      cases taken
      exact publish_inv inv text kind origin
  | relay place => exact relay_inv inv taken

/-- In every run whose steps are all steady, events are delivered to those
alone who could read them when they were published. -/
theorem steady_confines (conversions : Conversions) (tables : Tables Digest) (now : Time)
    (actions : List (Action Place Digest)) (final : State Place Digest)
    (ran : Runs.run (step conversions) { tables := tables, now := now } actions = some final)
    (steady : Runs.Meets (step conversions) (Steady conversions) { tables := tables, now := now }
      actions) : Confined conversions final := by
  have begins : Inv conversions ({ tables := tables, now := now } : State Place Digest) := by
    refine ⟨fun place connection text follows => ?_, fun place event member => ?_,
      fun delivery listed => ?_⟩
    · rcases follows with member | waiting
      · exact absurd member (Finset.notMem_empty connection)
      · cases waiting
    · cases member
    · cases listed
  exact (Runs.guarded_invariant (Inv conversions)
    (fun _ _ _ inv steady taken => step_inv inv steady taken) ran steady begins).confined

end Invariant

section Examples

instance {Place Digest : Type} (conversions : Conversions) (state : State Place Digest) :
    Decidable (Confined conversions state) :=
  inferInstanceAs (Decidable (∀ delivery ∈ state.deliveries,
    ∀ connection ∈ delivery.recipients, mayRead conversions delivery.event.tables
      delivery.event.now connection delivery.event.text = true))

/-- The member of the group has left it. -/
def departed : Tables Nat :=
  { reading with members := [{ conversationId := 5, userId := 4, leftAt := some 1 }] }

def joined : List (Action Unit Nat) :=
  [.work () (.call (.register browser) []), .work () .takeEffect, .work () (.resume 0 [])]

def asked : Action Unit Nat := .subscribe () browser [("conversation_id", .string "5")]

def subscribed : List (Action Unit Nat) := [.proceed 0, .work () .takeEffect]

def sent : List (Action Unit Nat) := [.publish "5" "message.created" none, .relay ()]

/-- The member leaves after the subscription, and is still sent what is
written then. -/
theorem departed_receives : ∃ final, Runs.run (step digits) { tables := reading, now := 0 }
    (joined ++ [asked] ++ subscribed ++ [.change departed 1] ++ sent) = some final ∧
    ¬Confined digits final := by
  have result : (Runs.run (step digits) ({ tables := reading, now := 0 } : State Unit Nat)
      (joined ++ [asked] ++ subscribed ++ [.change departed 1] ++ sent)).map
        (fun final => decide (Confined digits final)) = some false := by
    decide +kernel
  obtain ⟨final, ran, outcome⟩ := Option.map_eq_some_iff.mp result
  exact ⟨final, ran, of_decide_eq_false outcome⟩

/-- Without the change the event goes to a reader. -/
theorem member_receives : ∃ final, Runs.run (step digits) { tables := reading, now := 0 }
    (joined ++ [asked] ++ (subscribed ++ sent)) = some final ∧
    final.deliveries.map Delivery.recipients = [{browser}] ∧ Confined digits final := by
  have opening : (Runs.run (step digits) ({ tables := reading, now := 0 } : State Unit Nat)
      joined).map (fun state => (state.replicas ()).inbox.isEmpty) = some true := by
    decide +kernel
  have result : (Runs.run (step digits) ({ tables := reading, now := 0 } : State Unit Nat)
      (joined ++ [asked] ++ (subscribed ++ sent))).map
        (fun final => final.deliveries.map Delivery.recipients) = some [{browser}] := by
    decide +kernel
  obtain ⟨state, ready, empty⟩ := Option.map_eq_some_iff.mp opening
  obtain ⟨final, ran, delivered⟩ := Option.map_eq_some_iff.mp result
  obtain ⟨authorized, granted, _⟩ := (Runs.run_append_iff _ _ _ _).mp ran
  have calm : ∀ (start : State Unit Nat) actions, (∀ action ∈ actions,
      (∀ tables now, action ≠ .change tables now) ∧
      ∀ place connection frame, action ≠ .subscribe place connection frame) →
      Runs.Meets (step digits) (Steady digits) start actions := by
    intro start actions each
    refine Runs.meets_of_actions (fun _ action quiet => ?_) each
    obtain ⟨unchanged, unasked⟩ := quiet
    cases action with
    | change tables now => exact absurd rfl (unchanged tables now)
    | subscribe place connection frame => exact absurd rfl (unasked place connection frame)
    | _ => trivial
  have nothing : Steady digits state asked := by
    intro event member
    rw [List.isEmpty_iff.mp empty] at member
    cases member
  refine ⟨final, ran, delivered, steady_confines digits reading 0 _ final ran ?_⟩
  rw [Runs.meets_append_iff granted, Runs.meets_append_iff ready]
  exact ⟨⟨calm _ joined (by simp [joined]), nothing, fun _ _ => trivial⟩,
    calm _ _ (by simp [subscribed, sent])⟩

end Examples

end RunnerupChat.EventDelivery
