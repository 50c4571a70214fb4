import RunnerupChat.ManagerInvariant
import RunnerupChat.Reconnect

/-!
`websocket_endpoint` of `ws/router.py` for one connection, from its ticket to
the end of the coroutine. Each step that it waits for may raise or be
cancelled, and between two of them the tasks of other connections run.
-/

namespace RunnerupChat.SocketCleanup

open Runs
open Accounts (Time)
open Authz (Tables)
open ConnectionManager hiding Action State step continueLoop
open Reconnect (Raw maxPayloadBytes)
open SocketFrames (Conversions Json Effect Response handleEvent isElsewhere)

/-- What the endpoint waits for after it has seen a message. -/
inductive Await where
  /-- SUBSCRIBE or UNSUBSCRIBE of the manager. -/
  | command
  | effect (effect : Effect)
  | close (code : Nat)

inductive Phase where
  | redeeming
  | checking
  | rejecting
  | accepting
  /-- `register` waits for the lock. -/
  | entering
  | refusing
  | turningAway
  /-- `register` waits for SUBSCRIBE. -/
  | joining
  | announcing
  | receiving
  | limiting (raw : Raw)
  | reading (event : List (String × Json))
  | performing (await : Await) (rest : List Await) (leaves : Bool)
  /-- `unregister` waits for the lock. -/
  | parting
  /-- The loop of `unregister` waits for UNSUBSCRIBE. -/
  | unsubscribing (rest : List String)
  | forgetting
  | ended

/-- How the step ends that the endpoint waits for. -/
inductive Outcome (Digest : Type) where
  | redeemed (found : Bool)
  | checked (revoked : Bool)
  | received (raw : Raw)
  | timedOut
  | decided (allowed : Bool)
  | read (tables : Tables Digest) (now : Time)
  /-- `resolve_access` has raised. -/
  | unresolved
  | done
  | raised
  | cancelled

/-- What the tasks of another connection do to the tables. -/
inductive Operation where
  | addUser (other : Connection)
  | removeUser (other : Connection)
  | leave (other : Connection) (channel : String)
  | clear (other : Connection)
  | subscribe (other : Connection) (channel : String)
  | unsubscribe (other : Connection) (channel : String)
  | takeEffect

def Operation.apply (manager : Manager) : Operation → Manager
  | .addUser other => manager.addUser other
  | .removeUser other => manager.removeUser other
  | .leave other channel => manager.leave other channel
  | .clear other => manager.clear other
  | .subscribe other channel => manager.subscribe other channel
  | .unsubscribe other channel => manager.unsubscribe other channel
  | .takeEffect => manager.takeEffect

def Operation.spares (connection : Connection) : Operation → Bool
  | .addUser other | .removeUser other | .leave other _ | .clear other | .subscribe other _
  | .unsubscribe other _ => decide (other ≠ connection)
  | .takeEffect => true

def Operation.needsLock : Operation → Bool
  | .addUser _ | .removeUser _ | .leave _ _ | .clear _ => true
  | .subscribe _ _ | .unsubscribe _ _ | .takeEffect => false

/-- The order is that in which `unregister` goes through the channels. -/
inductive Action (Digest : Type) where
  | own (outcome : Outcome Digest) (order : List String)
  | others (operation : Operation)
  | contend (contended : Bool)

/-- `contended` is whether another task holds the lock or waits for it. -/
structure State where
  manager : Manager
  contended : Bool
  phase : Phase

/-- The request has arrived; `_redeem` is not asked for an empty ticket. -/
def arrived (ticket : String) : State :=
  { manager := started, contended := false
    phase := if ticket = "" then .rejecting else .redeeming }

def State.turn (state : State) (phase : Phase) : State := { state with phase := phase }

def State.tend (state : State) (manager : Manager) (phase : Phase) : State :=
  { state with manager := manager, phase := phase }

section Endpoint
variable {Digest : Type} (conversions : Conversions) (connection : Connection) (state : State)
  (order : List String)

def register : State :=
  let channel := userChannel connection.userId
  let added := state.manager.addUser connection
  if state.manager.isFull connection then state.turn .refusing
  else state.tend (added.subscribe connection channel)
    (if (added.byChannel channel).isNone then .joining else .announcing)

/-- `unregister` goes on with its loop. -/
def continueLoop (manager : Manager) (channels : List String) : State :=
  match manager.drain connection channels with
  | (manager, some rest) => state.tend manager (.unsubscribing rest)
  | (manager, none) => state.tend (manager.clear connection) .forgetting

def unregister : Option State :=
  if Listed (state.manager.subscriptions connection) order then
    some (continueLoop connection state (state.manager.removeUser connection) order)
  else none

/-- The `finally` of the receive loop. -/
def leave : Option State :=
  if state.contended then some (state.turn .parting) else unregister connection state order

def perform (leaves : Bool) : List Await → Option State
  | [] => if leaves then leave connection state order else some (state.turn .receiving)
  | await :: rest => some (state.turn (.performing await rest leaves))

def respond : Response → Option State
  | .raised => leave connection state order
  | .done none effects => perform connection state order false (effects.map .effect)
  | .done (some (.subscribe _ channel)) effects =>
      let firstLocalSubscriber := (state.manager.byChannel channel).isNone
      perform connection
        { state with manager := state.manager.subscribe connection channel } order false
        ((if firstLocalSubscriber then [.command] else []) ++ effects.map .effect)
  | .done (some (.unsubscribe _ channel)) effects =>
      let last := decide ((state.manager.members channel).erase connection = ∅)
      perform connection
        { state with manager := state.manager.unsubscribe connection channel } order false
        ((if last then [.command] else []) ++ effects.map .effect)
  -- no handler makes one of these calls
  | .done (some (.register _)) _ | .done (some (.unregister _)) _ => none

def receive (raw : Raw) : Option State :=
  if maxPayloadBytes < raw.text.length then
    perform connection state order true [.effect (.error "payload_too_large"), .close 4413]
  else some (state.turn (.limiting raw))

def dispatch (raw : Raw) : Option State :=
  match raw.loads with
  | some (.object event) => some (state.turn (.reading event))
  | _ => perform connection state order false [.effect (.error "malformed")]

/-- The step has raised, or the coroutine was cancelled in it. -/
def fail (cancelled : Bool) : Option State :=
  match state.phase with
  -- waiting for the lock does not raise
  | .entering | .parting => if cancelled then some (state.turn .ended) else none
  -- `Connection.send` swallows what the socket raises
  | .performing (.effect (.error _)) rest leaves
  | .performing (.effect (.subscribed _)) rest leaves =>
      if cancelled then leave connection state order
      else perform connection state order leaves rest
  | .receiving | .limiting _ | .reading _ | .performing _ _ _ => leave connection state order
  | .redeeming | .checking | .rejecting | .accepting | .refusing | .turningAway | .joining
  | .announcing | .unsubscribing _ | .forgetting => some (state.turn .ended)
  | .ended => none

def proceed (outcome : Outcome Digest) : Option State :=
  match state.phase, outcome with
  | .redeeming, .redeemed found => some (state.turn (if found then .checking else .rejecting))
  | .checking, .checked revoked => some (state.turn (if revoked then .rejecting else .accepting))
  | .accepting, .done =>
      some (if state.contended then state.turn .entering else register connection state)
  | .entering, .done => if state.contended then none else some (register connection state)
  | .refusing, .done => some (state.turn .turningAway)
  | .joining, .done => some (state.turn .announcing)
  | .announcing, .done => some (state.turn .receiving)
  | .receiving, .received raw => receive connection state order raw
  | .receiving, .timedOut => perform connection state order true [.close 4408]
  | .limiting _, .decided false =>
      perform connection state order false [.effect (.error "rate_limited")]
  | .limiting raw, .decided true => dispatch connection state order raw
  -- only a subscription reads the database
  | .reading event, .read tables now =>
      respond connection state order (handleEvent conversions tables now connection
        (state.manager.subscriptions connection) event)
  | .reading _, .unresolved =>
      perform connection state order false [.effect (.error "not_found")]
  | .performing _ rest leaves, .done => perform connection state order leaves rest
  | .parting, .done => if state.contended then none else unregister connection state order
  | .unsubscribing rest, .done => some (continueLoop connection state state.manager rest)
  | .rejecting, .done | .turningAway, .done | .forgetting, .done => some (state.turn .ended)
  | _, _ => none

def own : Outcome Digest → Option State
  | .raised => fail connection state order false
  | .cancelled => fail connection state order true
  | outcome => proceed conversions connection state order outcome

/-- Whether `unregister` is in its loop, with the lock held. -/
def State.holdsLock (state : State) : Bool :=
  match state.phase with
  | .unsubscribing _ => true
  | _ => false

def step (state : State) : Action Digest → Option State
  | .own outcome order => own conversions connection state order outcome
  | .others operation =>
      if operation.spares connection && !(operation.needsLock && state.holdsLock) then
        some { state with manager := operation.apply state.manager }
      else none
  | .contend contended => some { state with contended := contended }

end Endpoint

def Outcome.fails {Digest : Type} : Outcome Digest → Bool
  | .raised | .cancelled => true
  | _ => false

/-- The connection is in no set. -/
def Absent (manager : Manager) (connection : Connection) : Prop :=
  Unlisted manager connection ∧ ∀ channel, connection ∉ manager.members channel

def CleanedUp (connection : Connection) (state : State) : Prop :=
  state.phase = .ended → Absent state.manager connection

/-- No step fails that nothing cleans up after: neither SUBSCRIBE for the user's
channel nor the presence key, and in `unregister` neither the wait for the lock
nor UNSUBSCRIBE with channels to come. -/
def Finishes {Digest : Type} (state : State) : Action Digest → Prop
  | .own outcome _ => match state.phase with
      | .joining | .announcing => outcome.fails = false
      | .parting => outcome ≠ .cancelled
      | .unsubscribing rest => outcome.fails = true → rest = []
      | _ => True
  | .others _ | .contend _ => True

section Tables
variable {manager after : Manager} {connection other : Connection} {operation : Operation}

/-- What another task leaves of a connection. -/
structure Spared (connection : Connection) (manager after : Manager) : Prop where
  tidy : manager.Tidy → after.Tidy
  members : ∀ channel, connection ∈ after.members channel ↔ connection ∈ manager.members channel
  subscriptions : after.subscriptions connection = manager.subscriptions connection
  users : ∀ user, connection ∈ after.users user ↔ connection ∈ manager.users user

theorem spared_frame (frame : Frame other manager after) (distinct : other ≠ connection)
    (tidy : manager.Tidy → after.Tidy) : Spared connection manager after where
  tidy := tidy
  members := frame.members connection distinct.symm
  subscriptions := frame.subscriptions connection distinct.symm
  users := frame.users connection distinct.symm

theorem take_effect_tidy (tidy : manager.Tidy) : manager.takeEffect.Tidy where
  filled := by
    rw [show manager.takeEffect.byChannel = manager.byChannel by
      unfold Manager.takeEffect; split <;> rfl]
    exact tidy.filled
  redis := by
    rw [Manager.take_effect_settled, show manager.takeEffect.byChannel = manager.byChannel by
      unfold Manager.takeEffect; split <;> rfl]
    exact tidy.redis

variable (manager) in
theorem operation_spared (spares : operation.spares connection = true) :
    Spared connection manager (operation.apply manager) := by
  cases operation with
  | addUser other => exact spared_frame add_user_frame (of_decide_eq_true spares) add_user_tidy
  | removeUser other =>
      exact spared_frame remove_user_frame (of_decide_eq_true spares) remove_user_tidy
  | leave other channel =>
      exact spared_frame (leave_frame channel) (of_decide_eq_true spares) Manager.leave_tidy
  | clear other => exact spared_frame clear_frame (of_decide_eq_true spares) clear_tidy
  | subscribe other channel =>
      exact spared_frame (subscribe_frame channel) (of_decide_eq_true spares)
        Manager.subscribe_tidy
  | unsubscribe other channel =>
      exact spared_frame (unsubscribe_frame channel) (of_decide_eq_true spares)
        Manager.unsubscribe_tidy
  | takeEffect =>
      have tables : manager.takeEffect.byChannel = manager.byChannel ∧
          manager.takeEffect.byUser = manager.byUser ∧
          manager.takeEffect.subscriptions = manager.subscriptions := by
        unfold Manager.takeEffect
        split <;> exact ⟨rfl, rfl, rfl⟩
      obtain ⟨channels, users, subscriptions⟩ := tables
      refine ⟨take_effect_tidy, fun channel => ?_, congrFun subscriptions connection, fun user => ?_⟩
      · show connection ∈ (manager.takeEffect.byChannel channel).getD ∅ ↔ _
        rw [channels]
        rfl
      · show connection ∈ (manager.takeEffect.byUser user).getD ∅ ↔ _
        rw [users]
        rfl

/-- Not registered. -/
structure Fresh (manager : Manager) (connection : Connection) : Prop where
  absent : Absent manager connection
  unsubscribed : manager.subscriptions connection = ∅

/-- Registered, and listed where its subscriptions say. -/
structure Present (manager : Manager) (connection : Connection) : Prop where
  linked : Linked manager connection
  listed : ∀ user, connection ∈ manager.users user ↔ user = connection.userId

/-- What the tables say of the connection in a phase. -/
def Standing (manager : Manager) (connection : Connection) : Phase → Prop
  | .redeeming | .checking | .rejecting | .accepting | .entering | .refusing | .turningAway
  | .forgetting => Fresh manager connection
  | .joining | .announcing | .receiving | .limiting _ | .reading _ | .performing _ _ _
  | .parting => Present manager connection
  | .unsubscribing rest => Fits manager connection (.closing rest)
  | .ended => True

theorem absent_spared (spared : Spared connection manager after)
    (absent : Absent manager connection) : Absent after connection :=
  ⟨fun user member => absent.1 user ((spared.users user).mp member),
    fun channel member => absent.2 channel ((spared.members channel).mp member)⟩

theorem fresh_spared (spared : Spared connection manager after) (fresh : Fresh manager connection) :
    Fresh after connection := by
  refine ⟨absent_spared spared fresh.absent, ?_⟩
  rw [spared.subscriptions]
  exact fresh.unsubscribed

theorem present_spared (spared : Spared connection manager after)
    (present : Present manager connection) : Present after connection := by
  refine ⟨fun channel => ?_, fun user => (spared.users user).trans (present.listed user)⟩
  rw [spared.members, spared.subscriptions]
  exact present.linked channel

theorem standing_spared {phase : Phase} (spared : Spared connection manager after)
    (standing : Standing manager connection phase) : Standing after connection phase := by
  cases phase with
  | redeeming | checking | rejecting | accepting | entering | refusing | turningAway
  | forgetting => exact fresh_spared spared standing
  | joining | announcing | receiving | limiting _ | reading _ | performing _ _ _ | parting =>
      exact present_spared spared standing
  | unsubscribing rest =>
      refine ⟨standing.1, fun user member => standing.2.1 user ((spared.users user).mp member),
        fun channel => ?_⟩
      rw [spared.members]
      exact standing.2.2 channel
  | ended => trivial

end Tables

section Steps
variable {Digest : Type} {conversions : Conversions} {connection : Connection}
  {state next : State} {order : List String}

structure Inv (connection : Connection) (state : State) : Prop where
  tidy : state.manager.Tidy
  standing : Standing state.manager connection state.phase

/-- The endpoint goes on. -/
def Continues (connection : Connection) (next : State) : Prop :=
  Inv connection next ∧ next.phase ≠ .ended

theorem present_subscribe (present : Present state.manager connection) (channel : String) :
    Present (state.manager.subscribe connection channel) connection where
  linked := subscribe_linked present.linked channel
  listed := by
    intro user
    rw [Manager.subscribe_users]
    exact present.listed user

theorem present_unsubscribe (present : Present state.manager connection) (channel : String) :
    Present (state.manager.unsubscribe connection channel) connection where
  linked := unsubscribe_linked present.linked channel
  listed := by
    intro user
    rw [Manager.unsubscribe_users]
    exact present.listed user

theorem register_continues (tidy : state.manager.Tidy) (fresh : Fresh state.manager connection) :
    Continues connection (register connection state) := by
  simp only [register]
  split
  · exact ⟨⟨tidy, fresh⟩, fun same => nomatch same⟩
  · have present : Present ((state.manager.addUser connection).subscribe connection
        (userChannel connection.userId)) connection := by
      refine ⟨subscribe_linked (fun channel => ?_) _, fun user => ?_⟩
      · show connection ∈ state.manager.members channel ↔ channel ∈ state.manager.subscriptions connection
        rw [fresh.unsubscribed]
        exact iff_of_false (fresh.absent.2 channel) (Finset.notMem_empty channel)
      · rw [Manager.subscribe_users, Manager.mem_add_user]
        have absent := fresh.absent.1 user
        simp [absent]
    have kept : ((state.manager.addUser connection).subscribe connection
        (userChannel connection.userId)).Tidy := Manager.subscribe_tidy (add_user_tidy tidy)
    split
    · exact ⟨⟨kept, present⟩, fun same => nomatch same⟩
    · exact ⟨⟨kept, present⟩, fun same => nomatch same⟩

theorem loop_continues {manager : Manager} {channels : List String} (tidy : manager.Tidy)
    (distinct : channels.Nodup) (unlisted : Unlisted manager connection)
    (listed : ∀ channel, connection ∈ manager.members channel ↔ channel ∈ channels) :
    Continues connection (continueLoop connection state manager channels) := by
  have drained := drain_drained tidy channels distinct listed
  obtain ⟨⟨after, left⟩, result⟩ : ∃ result, manager.drain connection channels = result := ⟨_, rfl⟩
  rw [result] at drained
  have gone : Unlisted after connection := by
    intro user
    rw [drained.users user]
    exact unlisted user
  cases left with
  | some rest =>
      rw [continueLoop, result]
      exact ⟨⟨drained.tidy, drained.rest, gone, drained.left⟩, fun same => nomatch same⟩
  | none =>
      rw [continueLoop, result]
      refine ⟨⟨clear_tidy drained.tidy, ⟨⟨gone, fun channel member => ?_⟩, ?_⟩⟩,
        fun same => nomatch same⟩
      · exact List.not_mem_nil ((drained.left channel).mp member)
      · exact Function.update_self _ _ _

theorem unregister_continues (tidy : state.manager.Tidy) (present : Present state.manager connection)
    (taken : unregister connection state order = some next) : Continues connection next := by
  unfold unregister at taken
  split at taken
  · rename_i listed
    cases taken
    apply loop_continues (remove_user_tidy tidy) listed.1
    · intro user member
      rw [Manager.mem_remove_user, present.listed] at member
      exact member.2 ⟨rfl, member.1⟩
    · intro channel
      show connection ∈ state.manager.members channel ↔ _
      rw [present.linked, listed.2]
  · cases taken

theorem leave_continues (tidy : state.manager.Tidy) (present : Present state.manager connection)
    (taken : leave connection state order = some next) : Continues connection next := by
  unfold leave at taken
  split at taken
  · cases taken
    exact ⟨⟨tidy, present⟩, fun same => nomatch same⟩
  · exact unregister_continues tidy present taken

theorem perform_continues {leaves : Bool} {awaits : List Await} (tidy : state.manager.Tidy)
    (present : Present state.manager connection)
    (taken : perform connection state order leaves awaits = some next) :
    Continues connection next := by
  cases awaits with
  | nil =>
      rw [perform] at taken
      split at taken
      · exact leave_continues tidy present taken
      · cases taken
        exact ⟨⟨tidy, present⟩, fun same => nomatch same⟩
  | cons await rest =>
      cases taken
      exact ⟨⟨tidy, present⟩, fun same => nomatch same⟩

theorem respond_continues {response : Response} (tidy : state.manager.Tidy)
    (present : Present state.manager connection)
    (taken : respond connection state order response = some next) : Continues connection next := by
  unfold respond at taken
  split at taken
  · exact leave_continues tidy present taken
  · exact perform_continues tidy present taken
  · exact perform_continues (Manager.subscribe_tidy tidy) (present_subscribe present _) taken
  · exact perform_continues (Manager.unsubscribe_tidy tidy) (present_unsubscribe present _) taken
  · cases taken
  · cases taken

/-- The endpoint ends, and the connection is in no set exactly when the step was
one that finishes. -/
def Ends (connection : Connection) (state next : State) (action : Action Digest) : Prop :=
  next = state.turn .ended ∧ (Finishes state action ↔ Absent state.manager connection)

theorem fresh_ends {action : Action Digest} (fresh : Fresh state.manager connection)
    (finishes : Finishes state action) : Ends connection state (state.turn .ended) action :=
  ⟨rfl, iff_of_true finishes fresh.absent⟩

theorem present_ends {action : Action Digest} (present : Present state.manager connection)
    (leaks : ¬Finishes state action) : Ends connection state (state.turn .ended) action :=
  ⟨rfl, iff_of_false leaks fun absent => absent.1 connection.userId ((present.listed _).mpr rfl)⟩

theorem send_effect {cancelled leaves : Bool} {rest : List Await} (tidy : state.manager.Tidy)
    (present : Present state.manager connection)
    (taken : (if cancelled then leave connection state order
      else perform connection state order leaves rest) = some next) :
    Continues connection next := by
  split at taken
  · exact leave_continues tidy present taken
  · exact perform_continues tidy present taken

theorem fail_effect {cancelled : Bool} {outcome : Outcome Digest} (inv : Inv connection state)
    (failed : outcome = if cancelled then .cancelled else .raised)
    (taken : fail connection state order cancelled = some next) :
    Continues connection next ∨ Ends connection state next (.own outcome order) := by
  have fails : outcome.fails = true := by
    rw [failed]
    split <;> rfl
  obtain ⟨manager, contended, phase⟩ := state
  obtain ⟨tidy, standing⟩ := inv
  cases phase with
  | redeeming | checking | rejecting | accepting | refusing | turningAway | forgetting =>
      cases taken
      exact Or.inr (fresh_ends standing trivial)
  | entering =>
      simp only [fail] at taken
      split at taken
      · cases taken
        exact Or.inr (fresh_ends standing trivial)
      · cases taken
  | joining | announcing =>
      cases taken
      refine Or.inr (present_ends standing fun finishes => ?_)
      exact Bool.noConfusion (fails.symm.trans finishes)
  | parting =>
      simp only [fail] at taken
      split at taken
      · rename_i cancels
        cases taken
        rw [if_pos cancels] at failed
        exact Or.inr (present_ends standing fun finishes => finishes failed)
      · cases taken
  | receiving | limiting _ | reading _ => exact Or.inl (leave_continues tidy standing taken)
  | performing await rest leaves => cases await with
    | command | close _ => exact Or.inl (leave_continues tidy standing taken)
    | effect effect => cases effect with
      | error _ | subscribed _ => exact Or.inl (send_effect tidy standing taken)
      | setTyping _ | deleteTyping _ | typing _ _ _ _ =>
          exact Or.inl (leave_continues tidy standing taken)
  | unsubscribing rest =>
      cases taken
      refine Or.inr ⟨rfl, ?_⟩
      constructor
      · intro finishes
        refine ⟨standing.2.1, fun channel member => ?_⟩
        have listed := (standing.2.2 channel).mp member
        rw [finishes fails] at listed
        exact List.not_mem_nil listed
      · intro absent _
        exact List.eq_nil_iff_forall_not_mem.mpr fun channel listed =>
          absent.2 channel ((standing.2.2 channel).mpr listed)
  | ended => cases taken

theorem receive_continues {raw : Raw} (tidy : state.manager.Tidy)
    (present : Present state.manager connection)
    (taken : receive connection state order raw = some next) : Continues connection next := by
  unfold receive at taken
  split at taken
  · exact perform_continues tidy present taken
  · cases taken
    exact ⟨⟨tidy, present⟩, fun same => nomatch same⟩

theorem dispatch_continues {raw : Raw} (tidy : state.manager.Tidy)
    (present : Present state.manager connection)
    (taken : dispatch connection state order raw = some next) : Continues connection next := by
  unfold dispatch at taken
  split at taken
  · cases taken
    exact ⟨⟨tidy, present⟩, fun same => nomatch same⟩
  · exact perform_continues tidy present taken

theorem fresh_turns {phase : Phase} (tidy : state.manager.Tidy)
    (fresh : Fresh state.manager connection)
    (stays : phase = .checking ∨ phase = .rejecting ∨ phase = .accepting ∨ phase = .entering ∨
      phase = .turningAway) : Continues connection (state.turn phase) := by
  obtain rfl | rfl | rfl | rfl | rfl := stays <;>
    exact ⟨⟨tidy, fresh⟩, fun same => nomatch same⟩

theorem proceed_effect {outcome : Outcome Digest} (inv : Inv connection state)
    (taken : proceed conversions connection state order outcome = some next) :
    Continues connection next ∨ Ends connection state next (.own outcome order) := by
  obtain ⟨manager, contended, phase⟩ := state
  obtain ⟨tidy, standing⟩ := inv
  cases phase with
  | redeeming => cases outcome with
    | redeemed found =>
        cases taken
        cases found
        · exact Or.inl (fresh_turns tidy standing (by simp))
        · exact Or.inl (fresh_turns tidy standing (by simp))
    | _ => cases taken
  | checking => cases outcome with
    | checked revoked =>
        cases taken
        cases revoked
        · exact Or.inl (fresh_turns tidy standing (by simp))
        · exact Or.inl (fresh_turns tidy standing (by simp))
    | _ => cases taken
  | accepting => cases outcome with
    | done =>
        cases taken
        cases contended
        · exact Or.inl (register_continues tidy standing)
        · exact Or.inl (fresh_turns tidy standing (by simp))
    | _ => cases taken
  | entering => cases outcome with
    | done => cases contended with
      | false =>
          cases taken
          exact Or.inl (register_continues tidy standing)
      | true => cases taken
    | _ => cases taken
  | refusing => cases outcome with
    | done =>
        cases taken
        exact Or.inl (fresh_turns tidy standing (by simp))
    | _ => cases taken
  | rejecting | turningAway | forgetting => cases outcome with
    | done =>
        cases taken
        exact Or.inr (fresh_ends standing trivial)
    | _ => cases taken
  | joining | announcing => cases outcome with
    | done =>
        cases taken
        exact Or.inl ⟨⟨tidy, standing⟩, fun same => nomatch same⟩
    | _ => cases taken
  | receiving => cases outcome with
    | received raw => exact Or.inl (receive_continues tidy standing taken)
    | timedOut =>
        have performed : perform connection _ order true [.close 4408] = some next := taken
        exact Or.inl (perform_continues tidy standing performed)
    | _ => cases taken
  | limiting raw => cases outcome with
    | decided allowed => cases allowed with
      | false =>
          have performed : perform connection _ order false [.effect (.error "rate_limited")] =
            some next := taken
          exact Or.inl (perform_continues tidy standing performed)
      | true => exact Or.inl (dispatch_continues tidy standing taken)
    | _ => cases taken
  | reading event => cases outcome with
    | read tables now => exact Or.inl (respond_continues tidy standing taken)
    | unresolved =>
        have performed : perform connection _ order false [.effect (.error "not_found")] =
          some next := taken
        exact Or.inl (perform_continues tidy standing performed)
    | _ => cases taken
  | performing await rest leaves => cases outcome with
    | done => exact Or.inl (perform_continues tidy standing taken)
    | _ => cases taken
  | parting => cases outcome with
    | done => cases contended with
      | false => exact Or.inl (unregister_continues tidy standing taken)
      | true => cases taken
    | _ => cases taken
  | unsubscribing rest => cases outcome with
    | done =>
        cases taken
        exact Or.inl (loop_continues tidy standing.1 standing.2.1 standing.2.2)
    | _ => cases taken
  | ended => cases outcome <;> cases taken

/-- All that a step of the endpoint does: it goes on, or it ends and leaves the
tables as they are. -/
theorem own_effect {outcome : Outcome Digest} (inv : Inv connection state)
    (taken : own conversions connection state order outcome = some next) :
    Continues connection next ∨ Ends connection state next (.own outcome order) := by
  cases outcome with
  | raised => exact fail_effect inv rfl taken
  | cancelled => exact fail_effect inv rfl taken
  | _ => exact proceed_effect inv taken

/-- The tasks of other connections leave the endpoint where it is. -/
theorem others_spared {operation : Operation}
    (taken : step conversions connection state (.others operation : Action Digest) = some next) :
    Spared connection state.manager next.manager ∧ next.phase = state.phase := by
  simp only [step] at taken
  split at taken
  · rename_i spares
    cases taken
    exact ⟨operation_spared state.manager (Bool.and_eq_true_iff.mp spares).1, rfl⟩
  · cases taken

theorem step_inv {action : Action Digest} (inv : Inv connection state)
    (taken : step conversions connection state action = some next) : Inv connection next := by
  cases action with
  | own outcome order =>
      rcases own_effect inv taken with continues | ⟨rfl, _⟩
      · exact continues.1
      · exact ⟨inv.tidy, trivial⟩
  | others operation =>
      obtain ⟨spared, same⟩ := others_spared taken
      refine ⟨spared.tidy inv.tidy, ?_⟩
      rw [same]
      exact standing_spared spared inv.standing
  | contend contended =>
      cases taken
      exact ⟨inv.tidy, inv.standing⟩

/-- A step that does not finish ends the endpoint. -/
theorem unfinished_ends {action : Action Digest} (leaks : ¬Finishes state action) :
    step conversions connection state action = some (state.turn .ended) := by
  cases action with
  | own outcome order =>
      obtain ⟨manager, contended, phase⟩ := state
      cases phase with
      | joining | announcing => cases outcome with
        | raised | cancelled => rfl
        | _ => exact absurd rfl leaks
      | parting => cases outcome with
        | cancelled => rfl
        | _ => exact absurd (fun same => nomatch same) leaks
      | unsubscribing rest => cases outcome with
        | raised | cancelled => rfl
        | _ => exact absurd (fun same => nomatch same) leaks
      | _ => exact absurd trivial leaks
  | others operation => exact absurd trivial leaks
  | contend contended => exact absurd trivial leaks

theorem step_cleaned {action : Action Digest} (inv : Inv connection state)
    (cleaned : CleanedUp connection state) (finishes : Finishes state action)
    (taken : step conversions connection state action = some next) : CleanedUp connection next := by
  intro finished
  cases action with
  | own outcome order =>
      rcases own_effect inv taken with continues | ⟨rfl, leaves⟩
      · exact absurd finished continues.2
      · exact leaves.mp finishes
  | others operation =>
      obtain ⟨spared, same⟩ := others_spared taken
      exact absent_spared spared (cleaned (same.symm.trans finished))
  | contend contended =>
      cases taken
      exact cleaned finished

theorem arrived_inv (ticket : String) : Inv connection (arrived ticket) where
  tidy := Manager.started_tidy
  standing := by
    have fresh : Fresh started connection :=
      ⟨⟨fun _ => Finset.notMem_empty connection, fun _ => Finset.notMem_empty connection⟩, rfl⟩
    unfold arrived
    split
    · exact fresh
    · exact fresh

end Steps

section Registry
variable {Digest : Type} {conversions : Conversions} {registry next : ConnectionManager.State}
  {manager middle after : Manager} {connection other : Connection} {index : Nat} {call : Call}

/-- Operations that leave a connection alone lead from one manager to another. -/
def Operated (connection : Connection) (manager after : Manager) : Prop :=
  ∃ operations : List Operation, after = operations.foldl Operation.apply manager ∧
    ∀ operation ∈ operations, operation.spares connection = true

theorem operated_refl : Operated connection manager manager :=
  ⟨[], rfl, fun _ member => absurd member List.not_mem_nil⟩

theorem operated_single (operation : Operation) (spares : operation.spares connection = true) :
    Operated connection manager (operation.apply manager) :=
  ⟨[operation], rfl, fun _ member => List.mem_singleton.mp member ▸ spares⟩

theorem operated_trans (first : Operated connection manager middle)
    (second : Operated connection middle after) : Operated connection manager after := by
  obtain ⟨early, rfl, some⟩ := first
  obtain ⟨late, rfl, rest⟩ := second
  refine ⟨early ++ late, (List.foldl_append ..).symm, fun operation member => ?_⟩
  exact (List.mem_append.mp member).elim (some operation) (rest operation)

theorem drain_operated (distinct : other ≠ connection) (channels : List String) :
    Operated connection manager (manager.drain other channels).1 := by
  induction channels generalizing manager with
  | nil => exact operated_refl
  | cons channel rest ih =>
      have left : Operated connection manager (manager.leave other channel) :=
        operated_single (.leave other channel) (decide_eq_true distinct)
      simp only [Manager.drain]
      split
      · exact left
      · exact operated_trans left ih

theorem loop_operated (distinct : other ≠ connection) (channels : List String) :
    Operated connection manager
      (ConnectionManager.continueLoop registry index other manager channels).manager := by
  have drained : Operated connection manager (manager.drain other channels).1 :=
    drain_operated distinct channels
  unfold ConnectionManager.continueLoop
  split
  · rename_i after rest result
    rw [result] at drained
    exact drained
  · rename_i after result
    rw [result] at drained
    exact operated_trans drained (operated_single (.clear other) (decide_eq_true distinct))

theorem entered_operated (distinct : call.connection ≠ connection)
    (entered : Entered registry index call next) :
    Operated connection registry.manager next.manager := by
  cases entered with
  | refused other => exact operated_refl
  | registered other =>
      exact operated_trans (operated_single (.addUser other) (decide_eq_true distinct))
        (operated_single (.subscribe other (userChannel other.userId)) (decide_eq_true distinct))
  | leaving other order listed =>
      exact operated_trans (operated_single (.removeUser other) (decide_eq_true distinct))
        (loop_operated distinct order)

/-- The calls of other connections, as the registry runs them, are made up of
these operations. -/
theorem elsewhere_operated {action : ConnectionManager.Action}
    (elsewhere : isElsewhere connection registry action = true)
    (taken : ConnectionManager.step registry action = some next) :
    Operated connection registry.manager next.manager := by
  cases action with
  | call call order =>
      have distinct : call.connection ≠ connection := of_decide_eq_true elsewhere
      cases begin_cases taken with
      | entered _ _ free entered =>
          have operated := entered_operated distinct entered
          exact operated
      | queued _ => exact operated_refl
      | subscribed other channel =>
          exact operated_single (.subscribe other channel) (decide_eq_true distinct)
      | unsubscribed other channel =>
          exact operated_single (.unsubscribe other channel) (decide_eq_true distinct)
  | resume index order =>
      obtain ⟨task, found, resumed⟩ := Option.bind_eq_some_iff.mp taken
      have apart : task.call.connection ≠ connection ∨ task.progress = .finishing := by
        simpa [isElsewhere, found] using elsewhere
      cases resume_cases resumed with
      | entered call _ turn entered =>
          have distinct : call.connection ≠ connection := by
            rcases apart with distinct | finishing
            · exact distinct
            · cases finishing
          have operated := entered_operated distinct entered
          exact operated
      | continued other rest =>
          have distinct : other ≠ connection := by
            rcases apart with distinct | finishing
            · exact distinct
            · cases finishing
          exact loop_operated distinct rest
      | finished call => exact operated_refl
  | takeEffect =>
      cases taken
      exact operated_single .takeEffect rfl

theorem operations_run (operations : List Operation) {state : State}
    (spares : ∀ operation ∈ operations, operation.spares connection = true)
    (free : state.holdsLock = false) :
    run (step conversions connection) state
        (operations.map (Action.others : Operation → Action Digest)) =
      some { state with manager := operations.foldl Operation.apply state.manager } := by
  induction operations generalizing state with
  | nil => rfl
  | cons operation rest ih =>
      have first : step conversions connection state (.others operation : Action Digest) =
          some { state with manager := operation.apply state.manager } := by
        simp only [step, spares operation List.mem_cons_self, free, Bool.and_false, Bool.not_false,
          Bool.and_self, if_true]
      rw [List.map_cons, run, first, Option.bind_some]
      exact ih (fun later member => spares later (List.mem_cons_of_mem operation member)) free

/-- While the endpoint does not hold the lock, it can see all that the registry
does for other connections. -/
theorem elsewhere_runs {action : ConnectionManager.Action} {state : State}
    (elsewhere : isElsewhere connection registry action = true)
    (taken : ConnectionManager.step registry action = some next)
    (same : state.manager = registry.manager) (free : state.holdsLock = false) :
    ∃ actions : List (Action Digest), run (step conversions connection) state actions =
      some { state with manager := next.manager } := by
  obtain ⟨operations, leads, spares⟩ := elsewhere_operated elsewhere taken
  refine ⟨operations.map .others, ?_⟩
  rw [leads, ← same]
  exact operations_run operations spares free

end Registry

/-- A connection is in no set once its endpoint has ended, exactly in the runs
whose steps all finish. -/
theorem cleaned_up_iff {Digest : Type} (conversions : Conversions) (connection : Connection)
    (ticket : String) (actions : List (Action Digest)) :
    (∀ visited, Visits (step conversions connection) (arrived ticket) actions visited →
        CleanedUp connection visited) ↔
      Meets (step conversions connection) Finishes (arrived ticket) actions := by
  apply always_iff_meets (Inv connection)
    (fun state => Inv connection state ∧ CleanedUp connection state) (CleanedUp connection)
  · exact fun state action next => step_inv
  · intro state action inv cleaned
    by_contra leaks
    have ends : step conversions connection state action = some (state.turn .ended) :=
      unfinished_ends leaks
    have absent : Absent state.manager connection := cleaned (state.turn .ended) ends rfl
    cases action with
    | own outcome order =>
        rcases own_effect inv ends with continues | ⟨_, leaves⟩
        · exact continues.2 rfl
        · exact leaks (leaves.mpr absent)
    | others operation => exact leaks trivial
    | contend contended => exact leaks trivial
  · exact fun state action next strong finishes taken =>
      ⟨step_inv strong.1 taken, step_cleaned strong.1 strong.2 finishes taken⟩
  · exact fun state strong => strong.2
  · exact arrived_inv ticket
  · refine ⟨arrived_inv ticket, fun finished => ?_⟩
    unfold arrived at finished
    split at finished <;> cases finished

/-- The presence key of a registered connection cannot be written. -/
def unannounced : List (Action Unit) :=
  [.own (.redeemed true) [], .own (.checked false) [], .own .done [], .own .done [],
    .own .raised []]

theorem unannounced_listed : ¬∀ (conversions : Conversions) (connection : Connection)
    (ticket : String) (actions : List (Action Unit)) (visited : State),
    Visits (step conversions connection) (arrived ticket) actions visited →
      CleanedUp connection visited := by
  intro claimed
  let conversions : Conversions := ⟨fun _ => "", fun _ => false, fun _ => none⟩
  let connection : Connection := ⟨1, "4", "s", "d"⟩
  have absent := claimed conversions connection "t" unannounced _ ⟨unannounced, [], rfl, rfl⟩ rfl
  exact absent.1 "4" (by decide)

end RunnerupChat.SocketCleanup
