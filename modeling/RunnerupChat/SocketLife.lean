import RunnerupChat.Runs

/-!
`ChatSocket` of `lib/ws.ts`: `connect`, `scheduleReconnect` and `close` with the
callbacks of its sockets and timers, in any order. `connect` waits for its
ticket, and sockets of earlier calls may still have their callbacks to run.
-/

namespace RunnerupChat.SocketLife

inductive ReadyState where
  | connecting | opened | closing | closed
  deriving DecidableEq

/-- A WebSocket that was opened; `endedByUs` once `close` has closed it. -/
structure Socket where
  readyState : ReadyState
  endedByUs : Bool

def Socket.isLive (socket : Socket) : Bool :=
  socket.readyState = .connecting || socket.readyState = .opened

def Socket.close (socket : Socket) : Socket :=
  if socket.isLive then { socket with readyState := .closing } else socket

/-- The fields of the object, the calls of `connect` that wait for a ticket, all
sockets it has opened, and its pending timers by their handles. `closed` is
whether the user's last call was `close`. -/
structure State where
  socket : Option Nat
  closedByUs : Bool
  reconnectTimer : Option Nat
  awaiting : Nat
  sockets : List Socket
  timers : List Nat
  handles : Nat
  closed : Bool

def initial : State :=
  { socket := none, closedByUs := false, reconnectTimer := none, awaiting := 0
    sockets := [], timers := [], handles := 1, closed := false }

inductive Action where
  | connect
  | ticketed
  | ticketFailed
  | onopen (index : Nat)
  | onerror (index : Nat)
  | onclose (index : Nat)
  | expire (handle : Nat)
  | close
  deriving DecidableEq

def clearTimeout (handle : Nat) (timers : List Nat) : List Nat := timers.filter (· ≠ handle)

def clearReconnect : Option Nat → List Nat → List Nat
  | some handle, timers => clearTimeout handle timers
  | none, timers => timers

def closeSocket : Option Nat → List Socket → List Socket
  | some index, sockets =>
      sockets.modify index fun socket => { socket.close with endedByUs := true }
  | none, sockets => sockets

namespace State

def connect (state : State) : State :=
  { state with closedByUs := false, awaiting := state.awaiting + 1 }

def scheduleReconnect (state : State) : State :=
  match state.reconnectTimer with
  | some _ => state
  | none =>
      { state with
        timers := state.timers ++ [state.handles]
        reconnectTimer := some state.handles
        handles := state.handles + 1 }

-- `reconnectTimer` keeps the handle of the timer that is cleared
def close (state : State) : State :=
  { state with
    closedByUs := true
    timers := clearReconnect state.reconnectTimer state.timers
    sockets := closeSocket state.socket state.sockets
    closed := true }

def put (state : State) (index : Nat) (socket : Socket) : State :=
  { state with sockets := state.sockets.set index socket }

end State

def step (state : State) : Action → Option State
  | .connect => some { state.connect with closed := false }
  | .ticketed =>
      if state.awaiting = 0 then none
      else some { state with
        awaiting := state.awaiting - 1
        socket := some state.sockets.length
        sockets := state.sockets ++ [⟨.connecting, false⟩] }
  | .ticketFailed =>
      if state.awaiting = 0 then none
      else some ({ state with awaiting := state.awaiting - 1 } : State).scheduleReconnect
  | .onopen index =>
      (state.sockets[index]?.filter fun socket => socket.readyState = .connecting).map fun socket =>
        state.put index { socket with readyState := .opened }
  | .onerror index =>
      (state.sockets[index]?.filter fun socket => socket.readyState ≠ .closed).map fun socket =>
        state.put index socket.close
  | .onclose index =>
      (state.sockets[index]?.filter fun socket => socket.readyState ≠ .closed).map fun socket =>
        let lost := { state.put index { socket with readyState := .closed } with socket := none }
        if state.closedByUs then lost else lost.scheduleReconnect
  | .expire handle =>
      if handle ∈ state.timers then
        some ({ state with
          timers := clearTimeout handle state.timers
          reconnectTimer := none } : State).connect
      else none
  | .close => some state.close

/-- `close` is kept until the user connects again, and a connection that is lost
otherwise is followed by a timer. -/
structure Honoured (state : State) (action : Action) (next : State) : Prop where
  unopened : state.closed = true → next.sockets.length = state.sockets.length
  timerless : next.closed = true → next.timers = []
  ended : next.closed = true → ∀ socket ∈ next.sockets, socket.isLive = false
  again : state.closed = false → ∀ index socket, action = .onclose index →
    state.sockets[index]? = some socket → socket.endedByUs = false → next.timers ≠ []

/-- The order of events in which nothing goes wrong. -/
def InTurn (state : State) : Action → Prop
  | .close => ∀ (index : Nat) (socket : Socket), state.sockets[index]? = some socket →
      socket.isLive = true → state.socket = some index
  | .ticketed => state.closed = false
  | .ticketFailed => state.closed = true → state.reconnectTimer ≠ none
  | .onclose index => state.closed = false → ∀ socket, state.sockets[index]? = some socket →
      socket.endedByUs = false → state.reconnectTimer ≠ none → state.timers ≠ []
  | _ => True

/-- Only the timer in the field can be pending. -/
structure Inv (state : State) : Prop where
  named : ∀ handle ∈ state.timers, state.reconnectTimer = some handle
  wanted : state.closed = false → state.closedByUs = false

theorem named_empty {state : State} (inv : Inv state) (none : state.reconnectTimer = none) :
    state.timers = [] := by
  apply List.eq_nil_iff_forall_not_mem.mpr
  intro handle pending
  have named := inv.named handle pending
  rw [none] at named
  cases named

theorem cleared_empty {state : State} (inv : Inv state) {handle : Nat}
    (held : state.reconnectTimer = some handle) : clearTimeout handle state.timers = [] := by
  apply List.filter_eq_nil_iff.mpr
  intro other pending
  have named := inv.named other pending
  rw [held] at named
  simpa using (Option.some.inj named).symm

section Fields
variable (state : State)

theorem schedule_inv (inv : Inv state) : Inv state.scheduleReconnect := by
  unfold State.scheduleReconnect
  split
  · exact inv
  · next none =>
      refine ⟨fun handle pending => ?_, inv.wanted⟩
      rw [named_empty inv none] at pending
      rw [List.mem_singleton.mp pending]

theorem schedule_sockets : state.scheduleReconnect.sockets = state.sockets := by
  unfold State.scheduleReconnect
  split <;> rfl

theorem schedule_closed : state.scheduleReconnect.closed = state.closed := by
  unfold State.scheduleReconnect
  split <;> rfl

theorem schedule_kept (kept : state.reconnectTimer ≠ none) : state.scheduleReconnect = state := by
  obtain ⟨handle, held⟩ := Option.ne_none_iff_exists'.mp kept
  simp only [State.scheduleReconnect, held]

theorem schedule_pending (due : state.reconnectTimer ≠ none → state.timers ≠ []) :
    state.scheduleReconnect.timers ≠ [] := by
  unfold State.scheduleReconnect
  split
  · next held =>
      apply due
      rw [held]
      nofun
  · exact List.append_ne_nil_of_right_ne_nil _ nofun

end Fields

section Steps
variable {state next : State} {action : Action}

theorem turned {found : Option Socket} {admits : Socket → Bool} {turn : Socket → State}
    (taken : (found.filter admits).map turn = some next) :
    ∃ socket, found = some socket ∧ admits socket = true ∧ turn socket = next := by
  obtain ⟨socket, kept, turns⟩ := Option.map_eq_some_iff.mp taken
  obtain ⟨present, admitted⟩ := Option.filter_eq_some_iff.mp kept
  exact ⟨socket, present, admitted, turns⟩

theorem connect_inv (inv : Inv state) : Inv state.connect := ⟨inv.named, fun _ => rfl⟩

theorem close_timerless (inv : Inv state) : state.close.timers = [] := by
  show clearReconnect state.reconnectTimer state.timers = []
  cases held : state.reconnectTimer with
  | some handle => exact cleared_empty inv held
  | none => exact named_empty inv held

theorem step_inv (inv : Inv state) (taken : step state action = some next) : Inv next := by
  cases action with
  | connect =>
      cases taken
      exact ⟨inv.named, fun _ => rfl⟩
  | ticketed =>
      simp only [step] at taken
      split at taken
      · cases taken
      · cases taken
        exact ⟨inv.named, inv.wanted⟩
  | ticketFailed =>
      simp only [step] at taken
      split at taken
      · cases taken
      · cases taken
        exact schedule_inv _ ⟨inv.named, inv.wanted⟩
  | onopen index =>
      obtain ⟨_, _, _, rfl⟩ := turned taken
      exact ⟨inv.named, inv.wanted⟩
  | onerror index =>
      obtain ⟨_, _, _, rfl⟩ := turned taken
      exact ⟨inv.named, inv.wanted⟩
  | onclose index =>
      obtain ⟨_, _, _, rfl⟩ := turned taken
      dsimp only
      split
      · exact ⟨inv.named, inv.wanted⟩
      · exact schedule_inv _ ⟨inv.named, inv.wanted⟩
  | expire handle =>
      simp only [step] at taken
      split at taken
      · next pending =>
          cases taken
          refine connect_inv ⟨fun other there => ?_, inv.wanted⟩
          rw [cleared_empty inv (inv.named handle pending)] at there
          cases there
      · cases taken
  | close =>
      cases taken
      refine ⟨fun handle pending => ?_, nofun⟩
      rw [close_timerless inv] at pending
      cases pending

/-- After `close`: the flag is set, nothing is pending and every socket is closing. -/
structure Silent (state : State) : Prop where
  byUs : state.closedByUs = true
  timers : state.timers = []
  sockets : ∀ socket ∈ state.sockets, socket.isLive = false

structure Strong (state : State) : Prop where
  inv : Inv state
  silent : state.closed = true → Silent state

theorem dead_close (socket : Socket) : socket.close.isLive = false := by
  cases live : socket.isLive <;> simp [Socket.close, live]
  rfl

theorem put_dead {index : Nat} {socket : Socket}
    (all : ∀ socket ∈ state.sockets, socket.isLive = false) (dead : socket.isLive = false) :
    ∀ other ∈ (state.put index socket).sockets, other.isLive = false := by
  intro other member
  rcases List.mem_or_eq_of_mem_set member with before | same
  · exact all other before
  · exact same ▸ dead

theorem close_dead (ready : InTurn state .close) :
    ∀ socket ∈ state.close.sockets, socket.isLive = false := by
  intro socket member
  have member : socket ∈ closeSocket state.socket state.sockets := member
  cases field : state.socket with
  | none =>
      rw [field] at member
      obtain ⟨index, listed⟩ := List.mem_iff_getElem?.mp member
      by_contra live
      have held := ready index socket listed (eq_true_of_ne_false live)
      rw [field] at held
      cases held
  | some own =>
      rw [field] at member
      obtain ⟨index, listed⟩ := List.mem_iff_getElem?.mp member
      rw [closeSocket, List.getElem?_modify] at listed
      obtain ⟨before, there, rfl⟩ := Option.map_eq_some_iff.mp listed
      split
      · exact dead_close before
      · next other =>
          by_contra live
          have held := ready index before there (eq_true_of_ne_false live)
          exact other (Option.some.inj (field.symm.trans held))

theorem step_silent (strong : Strong state) (inTurn : InTurn state action)
    (taken : step state action = some next) (closed : next.closed = true) : Silent next := by
  cases action with
  | connect =>
      cases taken
      cases closed
  | ticketed =>
      simp only [step] at taken
      split at taken
      · cases taken
      · cases taken
        have running : state.closed = false := inTurn
        exact absurd (running.symm.trans closed) nofun
  | ticketFailed =>
      simp only [step] at taken
      split at taken
      · cases taken
      · cases taken
        rw [schedule_closed] at closed
        obtain ⟨byUs, timers, sockets⟩ := strong.silent closed
        rw [schedule_kept]
        · exact ⟨byUs, timers, sockets⟩
        · exact inTurn closed
  | onopen index =>
      obtain ⟨socket, listed, connecting, rfl⟩ := turned taken
      have dead := (strong.silent closed).sockets socket (List.mem_of_getElem? listed)
      simp [Socket.isLive, of_decide_eq_true connecting] at dead
  | onerror index =>
      obtain ⟨socket, _, _, rfl⟩ := turned taken
      obtain ⟨byUs, timers, sockets⟩ := strong.silent closed
      exact ⟨byUs, timers, put_dead sockets (dead_close socket)⟩
  | onclose index =>
      obtain ⟨socket, _, _, rfl⟩ := turned taken
      dsimp only at closed ⊢
      cases flag : state.closedByUs with
      | false =>
          rw [flag, if_neg Bool.false_ne_true, schedule_closed] at closed
          exact absurd (flag.symm.trans (strong.silent closed).byUs) nofun
      | true =>
          rw [flag, if_pos rfl] at closed
          obtain ⟨byUs, timers, sockets⟩ := strong.silent closed
          exact ⟨byUs, timers, put_dead sockets rfl⟩
  | expire handle =>
      simp only [step] at taken
      split at taken
      · next pending =>
          cases taken
          rw [(strong.silent closed).timers] at pending
          cases pending
      · cases taken
  | close =>
      cases taken
      exact ⟨rfl, close_timerless strong.inv, close_dead inTurn⟩

theorem step_unopened (inTurn : InTurn state action) (taken : step state action = some next)
    (closed : state.closed = true) : next.sockets.length = state.sockets.length := by
  cases action with
  | connect =>
      cases taken
      rfl
  | ticketed =>
      have running : state.closed = false := inTurn
      exact absurd (running.symm.trans closed) nofun
  | ticketFailed =>
      simp only [step] at taken
      split at taken
      · cases taken
      · cases taken
        rw [schedule_sockets]
  | onopen index =>
      obtain ⟨_, _, _, rfl⟩ := turned taken
      exact List.length_set
  | onerror index =>
      obtain ⟨_, _, _, rfl⟩ := turned taken
      exact List.length_set
  | onclose index =>
      obtain ⟨_, _, _, rfl⟩ := turned taken
      dsimp only
      split
      · exact List.length_set
      · rw [schedule_sockets]
        exact List.length_set
  | expire handle =>
      simp only [step] at taken
      split at taken
      · cases taken
        rfl
      · cases taken
  | close =>
      cases taken
      show (closeSocket state.socket state.sockets).length = state.sockets.length
      cases state.socket with
      | none => rfl
      | some own => exact List.length_modify ..

theorem lost_scheduled (inv : Inv state) {index : Nat} {socket : Socket}
    (inTurn : InTurn state (.onclose index)) (taken : step state (.onclose index) = some next)
    (running : state.closed = false) (listed : state.sockets[index]? = some socket)
    (own : socket.endedByUs = false) : next.timers ≠ [] := by
  obtain ⟨_, _, _, rfl⟩ := turned taken
  dsimp only
  rw [inv.wanted running, if_neg Bool.false_ne_true]
  exact schedule_pending _ (inTurn running socket listed own)

theorem step_honoured (strong : Strong state) (inTurn : InTurn state action)
    (taken : step state action = some next) : Honoured state action next where
  unopened closed := step_unopened inTurn taken closed
  timerless closed := (step_silent strong inTurn taken closed).timers
  ended closed := (step_silent strong inTurn taken closed).sockets
  again running index socket lost listed own := by
    subst lost
    exact lost_scheduled strong.inv inTurn taken running listed own

theorem honoured_in_turn (inv : Inv state) (taken : step state action = some next)
    (honoured : Honoured state action next) : InTurn state action := by
  cases action with
  | close =>
      cases taken
      intro index socket listed live
      by_contra other
      -- the socket that is not in the field stays as it is
      have stays : (closeSocket state.socket state.sockets)[index]? = some socket := by
        cases field : state.socket with
        | none => exact listed
        | some own =>
            have apart : own ≠ index := fun same => other (field.trans (congrArg some same))
            simp [closeSocket, listed, apart]
      have dead := honoured.ended rfl socket (List.mem_of_getElem? stays)
      rw [live] at dead
      cases dead
  | ticketed =>
      simp only [step] at taken
      split at taken
      · cases taken
      · cases taken
        apply Bool.eq_false_iff.mpr
        intro closed
        have same := honoured.unopened closed
        simp at same
  | ticketFailed =>
      simp only [step] at taken
      split at taken
      · cases taken
      · cases taken
        intro closed none
        have timers := honoured.timerless (by rw [schedule_closed]; exact closed)
        simp [State.scheduleReconnect, none] at timers
  | onclose index =>
      intro running socket listed own kept none
      have pending := honoured.again running index socket rfl listed own
      obtain ⟨_, _, _, rfl⟩ := turned taken
      apply pending
      dsimp only
      rw [inv.wanted running, if_neg Bool.false_ne_true, schedule_kept]
      · exact none
      · exact kept
  | connect => trivial
  | onopen index => trivial
  | onerror index => trivial
  | expire handle => trivial

end Steps

theorem initial_inv : Inv initial := ⟨nofun, fun _ => rfl⟩

/-- Every step of a run honours the user's last call exactly when the events of
the run come in turn. -/
theorem honoured_iff (actions : List Action) (final : State)
    (ran : Runs.run step initial actions = some final) :
    (∀ state action next, Runs.Takes step initial actions state action next →
      Honoured state action next) ↔ Runs.Meets step InTurn initial actions := by
  apply Runs.takes_iff_meets Inv Strong Honoured (fun _ => True) ran (fun _ _ => trivial)
  · exact fun _ _ _ inv _ taken => step_inv inv taken
  · exact fun _ _ _ inv _ taken honoured => honoured_in_turn inv taken honoured
  · intro state action next strong _ inTurn taken
    exact ⟨⟨step_inv strong.inv taken, step_silent strong inTurn taken⟩,
      step_honoured strong inTurn taken⟩
  · exact initial_inv
  · exact ⟨initial_inv, nofun⟩

/-- A connection that is lost, retried, closed by the user and opened again. -/
theorem reopened_honoured :
    let actions := [Action.connect, .ticketed, .onopen 0, .close, .onclose 0, .connect, .ticketed,
      .onopen 1, .onclose 1, .expire 1, .ticketed]
    (∃ final, Runs.run step initial actions = some final) ∧
    ((∀ state action next, Runs.Takes step initial actions state action next →
      Honoured state action next) ↔ Runs.Meets step InTurn initial actions) :=
  ⟨⟨_, rfl⟩, honoured_iff _ _ rfl⟩

/-- The ticket comes after `close`: a socket is opened all the same. -/
theorem closed_socket_opens : ¬∀ (actions : List Action) (final : State),
    Runs.run step initial actions = some final →
      ∀ state action next, Runs.Takes step initial actions state action next →
        Honoured state action next := by
  intro claim
  have honoured := claim [.connect, .close, .ticketed] _ rfl _ .ticketed _
    ⟨[.connect, .close], [], rfl, rfl, rfl⟩
  exact absurd (honoured.unopened rfl) nofun

-- a timer that `close` has cleared keeps a later loss from being followed by one
example : (Runs.run step initial [.connect, .ticketed, .onclose 0, .close, .connect, .ticketed,
    .onclose 1]).map (·.timers) = some [] := rfl

end RunnerupChat.SocketLife
