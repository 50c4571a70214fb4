import RunnerupChat.ConnectionManager

/-!
The presence key of one user: `websocket_endpoint` and `_heartbeat` of
`ws/router.py` for all of the user's connections, on all replicas. The key is
one for all of them; each connection writes it when its handshake is complete
and at its beats, and deletes it when it has ended. Times are in milliseconds.
-/

namespace RunnerupChat.Presence

open ConnectionManager (maxConnectionsPerUser)

def heartbeatInterval : Nat := 25 * 1000

def presenceTtl : Nat := 45 * 1000

variable {Place : Type} [DecidableEq Place]

/-- A registered connection; `beatAt` is when the sleep of its heartbeat ends,
once the handshake is complete. -/
structure Connection (Place : Type) where
  id : Nat
  place : Place
  beatAt : Option Nat
  deriving DecidableEq

/-- `leaving` are the handlers that have unregistered and not yet deleted the
key, and `endedAt` is when a connection last ended. -/
structure State (Place : Type) where
  now : Nat
  expiry : Option Nat
  connections : List (Connection Place)
  leaving : List (Nat × Place)
  endedAt : Nat

def initial : State Place :=
  { now := 0, expiry := none, connections := [], leaving := [], endedAt := 0 }

inductive Action (Place : Type) where
  | register (id : Nat) (place : Place)
  | complete (id : Nat)
  | beat (id : Nat)
  | disconnect (id : Nat)
  | deleteKey (id : Nat) (place : Place)
  | die (place : Place)
  | advance (duration : Nat)

def Connection.complete (connection : Connection Place) : Bool := connection.beatAt.isSome

def State.isFull (state : State Place) (place : Place) : Bool :=
  decide (maxConnectionsPerUser ≤
    (state.connections.filter fun connection => connection.place = place).length)

/-- The key is written, and the heartbeat of the connection goes to sleep. -/
def State.refresh (state : State Place) (id : Nat) : State Place :=
  { state with
    expiry := some (state.now + presenceTtl)
    connections := state.connections.map fun connection =>
      if connection.id = id then { connection with beatAt := some (state.now + heartbeatInterval) }
      else connection }

def State.remove (state : State Place) (ends : Connection Place → Bool) : State Place :=
  { state with
    connections := state.connections.filter fun connection => !ends connection
    endedAt := state.now }

def step (state : State Place) : Action Place → Option (State Place)
  | .register id place =>
      if (state.connections.any fun other => other.id = id) ||
          (state.leaving.any fun other => other.1 = id) then none
      else if state.isFull place then some state
      else some { state with connections := state.connections ++ [⟨id, place, none⟩] }
  | .complete id =>
      if state.connections.any fun connection => connection.id = id && !connection.complete then
        some (state.refresh id)
      else none
  | .beat id =>
      if state.connections.any fun connection =>
          connection.id = id && connection.beatAt = some state.now then
        some (state.refresh id)
      else none
  -- `heartbeat.cancel()` and `manager.unregister`
  | .disconnect id =>
      match state.connections.find? fun connection => connection.id = id && connection.complete with
      | none => none
      | some connection =>
          some { state.remove (fun other => other.id = id) with
            leaving := state.leaving ++ [(id, connection.place)] }
  | .deleteKey id place =>
      if (id, place) ∈ state.leaving then
        some { state with expiry := none, leaving := state.leaving.erase (id, place) }
      else none
  -- a replica that dies deletes nothing
  | .die place =>
      if state.connections.any fun connection => connection.place = place then
        some { state.remove (fun connection => connection.place = place) with
          leaving := state.leaving.filter fun handler => handler.2 ≠ place }
      else none
  -- no beat is late
  | .advance duration =>
      if state.connections.all fun connection =>
          connection.beatAt.all fun due => decide (state.now + duration ≤ due) then
        some { state with now := state.now + duration }
      else none

def Present (state : State Place) : Prop := ∃ expiry ∈ state.expiry, state.now < expiry

structure Shown (state : State Place) : Prop where
  present : (∃ connection ∈ state.connections, connection.complete = true) → Present state
  gone : state.connections = [] → state.endedAt + presenceTtl ≤ state.now → ¬Present state

/-- The key is deleted for a connection that was the last one whose handshake
is complete. -/
def LastLeaves (state : State Place) (action : Action Place) : Prop :=
  ∀ id place, action = .deleteKey id place → (id, place) ∈ state.leaving →
    ∀ connection ∈ state.connections, connection.complete = false

/-- All that a step can do to the key and the connections. -/
inductive Effect (state : State Place) (action : Action Place) : State Place → Prop
  | refused : Effect state action state
  | registered (id : Nat) (place : Place) :
      Effect state action { state with connections := state.connections ++ [⟨id, place, none⟩] }
  | refreshed (id : Nat) (known : ∃ connection ∈ state.connections, connection.id = id) :
      Effect state action (state.refresh id)
  | removed (ends : Connection Place → Bool) (leaving : List (Nat × Place)) :
      Effect state action { state.remove ends with leaving := leaving }
  | deleted (id : Nat) (place : Place) (asked : action = .deleteKey id place)
      (pending : (id, place) ∈ state.leaving) :
      Effect state action
        { state with expiry := none, leaving := state.leaving.erase (id, place) }
  | advanced (duration : Nat)
      (timely : ∀ connection ∈ state.connections, ∀ due ∈ connection.beatAt,
        state.now + duration ≤ due) :
      Effect state action { state with now := state.now + duration }

omit [DecidableEq Place] in
theorem known_of_any {connections : List (Connection Place)} {id : Nat}
    {test : Connection Place → Bool}
    (found : (connections.any fun connection => connection.id = id && test connection) = true) :
    ∃ connection ∈ connections, connection.id = id := by
  obtain ⟨connection, member, matching⟩ := List.any_eq_true.mp found
  exact ⟨connection, member, of_decide_eq_true (Bool.and_eq_true_iff.mp matching).1⟩

theorem step_effect {state next : State Place} {action : Action Place}
    (taken : step state action = some next) : Effect state action next := by
  cases action with
  | register id place =>
      simp only [step] at taken
      split at taken
      · cases taken
      · split at taken
        · cases taken
          exact .refused
        · cases taken
          exact .registered id place
  | complete id =>
      simp only [step] at taken
      split at taken
      · next found =>
          cases taken
          exact .refreshed id (known_of_any found)
      · cases taken
  | beat id =>
      simp only [step] at taken
      split at taken
      · next found =>
          cases taken
          exact .refreshed id (known_of_any found)
      · cases taken
  | disconnect id =>
      simp only [step] at taken
      split at taken
      · cases taken
      · cases taken
        exact .removed _ _
  | deleteKey id place =>
      simp only [step] at taken
      split at taken
      · next pending =>
          cases taken
          exact .deleted id place rfl pending
      · cases taken
  | die place =>
      simp only [step] at taken
      split at taken
      · cases taken
        exact .removed _ _
      · cases taken
  | advance duration =>
      simp only [step] at taken
      split at taken
      · next timely =>
          cases taken
          refine .advanced duration fun connection member due beats => ?_
          have all := List.all_eq_true.mp timely connection member
          rw [Option.mem_def.mp beats] at all
          simpa using all
      · cases taken

/-- The key never outlives the last connection by more than its time to live. -/
structure Inv (state : State Place) : Prop where
  bounded : ∀ expiry ∈ state.expiry, expiry ≤ state.now + presenceTtl
  ended : state.connections = [] → ∀ expiry ∈ state.expiry, expiry ≤ state.endedAt + presenceTtl

omit [DecidableEq Place] in
theorem initial_inv : Inv (initial : State Place) :=
  ⟨nofun, fun _ => nofun⟩

theorem step_inv {state next : State Place} {action : Action Place} (inv : Inv state)
    (taken : step state action = some next) : Inv next := by
  cases step_effect taken with
  | refused => exact inv
  | registered id place =>
      exact ⟨inv.bounded, fun empty => absurd empty (List.append_ne_nil_of_right_ne_nil _ nofun)⟩
  | refreshed id known =>
      refine ⟨?_, fun empty => ?_⟩
      · rintro _ ⟨⟩
        exact Nat.le_refl _
      · obtain ⟨connection, member, _⟩ := known
        have none := List.map_eq_nil_iff.mp empty
        rw [none] at member
        cases member
  | removed ends leaving => exact ⟨inv.bounded, fun _ => inv.bounded⟩
  | deleted id place asked pending => exact ⟨nofun, fun _ => nofun⟩
  | advanced duration timely =>
      refine ⟨fun expiry set => ?_, inv.ended⟩
      have before := inv.bounded expiry set
      show expiry ≤ state.now + duration + presenceTtl
      omega

/-- Each heartbeat comes before the key expires. -/
structure Kept (state : State Place) : Prop where
  inv : Inv state
  ahead : ∀ connection ∈ state.connections, ∀ due ∈ connection.beatAt,
    state.now ≤ due ∧ due ≤ state.now + heartbeatInterval ∧
      ∃ expiry ∈ state.expiry, due + 20 * 1000 ≤ expiry

theorem step_kept {state next : State Place} {action : Action Place} (kept : Kept state)
    (last : LastLeaves state action) (taken : step state action = some next) : Kept next := by
  refine ⟨step_inv kept.inv taken, ?_⟩
  cases step_effect taken with
  | refused => exact kept.ahead
  | registered id place =>
      intro connection member due beats
      rcases List.mem_append.mp member with before | new
      · exact kept.ahead connection before due beats
      · rw [List.mem_singleton.mp new] at beats
        cases beats
  | refreshed id known =>
      intro connection member due beats
      obtain ⟨before, there, rfl⟩ := List.mem_map.mp member
      have soon : state.now ≤ due ∧ due ≤ state.now + heartbeatInterval := by
        split at beats
        · cases beats
          exact ⟨Nat.le_add_right _ _, Nat.le_refl _⟩
        · exact ⟨(kept.ahead before there due beats).1, (kept.ahead before there due beats).2.1⟩
      refine ⟨soon.1, soon.2, _, rfl, ?_⟩
      simp only [heartbeatInterval, presenceTtl] at soon ⊢
      omega
  | removed ends leaving =>
      exact fun connection member => kept.ahead connection (List.mem_filter.mp member).1
  | deleted id place asked pending =>
      intro connection member due beats
      have incomplete := last id place asked pending connection member
      rw [Connection.complete, Option.mem_def.mp beats] at incomplete
      cases incomplete
  | advanced duration timely =>
      intro connection member due beats
      obtain ⟨_, soon, held⟩ := kept.ahead connection member due beats
      refine ⟨timely connection member due beats, ?_, held⟩
      show due ≤ state.now + duration + heartbeatInterval
      omega

omit [DecidableEq Place] in
theorem kept_shown {state : State Place} (kept : Kept state) : Shown state := by
  constructor
  · rintro ⟨connection, member, complete⟩
    obtain ⟨due, beats⟩ := Option.isSome_iff_exists.mp complete
    obtain ⟨soon, _, expiry, set, later⟩ := kept.ahead connection member due beats
    exact ⟨expiry, set, by omega⟩
  · rintro empty late ⟨expiry, set, lasts⟩
    have bound := kept.inv.ended empty expiry set
    omega

/-- In every visited state the key is there with a connection and gone after
the last one, exactly when no connection deletes it from under another. -/
theorem presence_iff (actions : List (Action Place)) :
    (∀ visited, Runs.Visits step (initial : State Place) actions visited → Shown visited) ↔
      Runs.Meets step LastLeaves (initial : State Place) actions := by
  apply Runs.always_iff_meets Inv Kept Shown
  · exact fun _ _ _ inv taken => step_inv inv taken
  · rintro state action _ safe id place rfl pending connection member
    have shown := safe _ (if_pos pending)
    by_contra complete
    obtain ⟨_, none, _⟩ :=
      shown.present ⟨connection, member, Bool.eq_true_of_not_eq_false complete⟩
    cases none
  · exact fun _ _ _ kept last taken => step_kept kept last taken
  · exact fun _ kept => kept_shown kept
  · exact initial_inv
  · exact ⟨initial_inv, nofun⟩

/-- One of two connections ends; the other has no key. -/
theorem second_connection_unseen : ¬∀ (actions : List (Action Nat)) (visited : State Nat),
    Runs.Visits step initial actions visited → Shown visited := by
  intro claim
  have shown := claim [.register 1 0, .complete 1, .register 2 0, .complete 2, .disconnect 1,
    .deleteKey 1 0] _ ⟨_, [], (List.append_nil _).symm, rfl⟩
  obtain ⟨_, none, _⟩ := shown.present ⟨_, List.mem_singleton_self _, rfl⟩
  cases none

end RunnerupChat.Presence
