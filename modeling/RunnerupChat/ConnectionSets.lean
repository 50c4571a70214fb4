import RunnerupChat.ConnectionManager
import RunnerupChat.HashedSets

/-!
The sets of `ws/manager.py` as Python keeps them. `Connection` is declared a
dataclass without options, so what a set does with a connection depends on the
hash that the declaration leaves it.
-/

namespace RunnerupChat.ConnectionSets

open ConnectionManager (Connection maxConnectionsPerUser userChannel)
open HashedSets

inductive Request where
  | register (connection : Connection)
  | unregister (connection : Connection)

/-- `_by_user`, `_by_channel` and the `subscriptions` of the connections. -/
structure Registry where
  byUser : String → Option (List Connection) := fun _ => none
  byChannel : String → Option (List Connection) := fun _ => none
  subscriptions : Connection → List String := fun _ => []

namespace Registry

/-- `_by_user[user_id]` -/
def users (registry : Registry) (userId : String) : List Connection :=
  (registry.byUser userId).getD []

def members (registry : Registry) (channel : String) : List Connection :=
  (registry.byChannel channel).getD []

/-- A `defaultdict` keeps the empty set that a lookup made. -/
def setUsers (registry : Registry) (userId : String) (connections : Option (List Connection)) :
    Registry :=
  { registry with byUser := Function.update registry.byUser userId connections }

def setMembers (registry : Registry) (channel : String) (connections : Option (List Connection)) :
    Registry :=
  { registry with byChannel := Function.update registry.byChannel channel connections }

def setSubscriptions (registry : Registry) (connection : Connection) (channels : List String) :
    Registry :=
  { registry with subscriptions := Function.update registry.subscriptions connection channels }

end Registry

section Calls
variable (objects : ObjectClass Connection)

/-- An empty set is deleted from its table. -/
def kept (connections : List Connection) : Option (List Connection) :=
  if connections = [] then none else some connections

def subscribe (registry : Registry) (connection : Connection) (channel : String) :
    Except SetError Unit × Registry :=
  let held := registry.members channel
  match add objects held connection with
  | .error error => (.error error, registry.setMembers channel (some held))
  | .ok connections =>
      (.ok (), (registry.setMembers channel (some connections)).setSubscriptions connection
        ((registry.subscriptions connection).insert channel))

/-- The loop of `unregister`. -/
def leave (connection : Connection) : List String → Registry → Except SetError Unit × Registry
  | [], registry => (.ok (), registry)
  | channel :: rest, registry =>
      let held := registry.members channel
      match discard objects held connection with
      | .error error => (.error error, registry.setMembers channel (some held))
      | .ok connections => leave connection rest (registry.setMembers channel (kept connections))

def register (registry : Registry) (connection : Connection) : Except SetError Bool × Registry :=
  let userId := connection.userId
  let held := registry.users userId
  if maxConnectionsPerUser ≤ held.length then (.ok false, registry.setUsers userId (some held))
  else match add objects held connection with
    | .error error => (.error error, registry.setUsers userId (some held))
    | .ok connections =>
        match subscribe objects (registry.setUsers userId (some connections)) connection
            (userChannel userId) with
        | (.error error, registry) => (.error error, registry)
        | (.ok (), registry) => (.ok true, registry)

def unregister (registry : Registry) (connection : Connection) :
    Except SetError Unit × Registry :=
  let userId := connection.userId
  let held := registry.users userId
  match discard objects held connection with
  | .error error => (.error error, registry.setUsers userId (some held))
  | .ok connections =>
      match leave objects connection (registry.subscriptions connection)
          (registry.setUsers userId (kept connections)) with
      | (.error error, registry) => (.error error, registry)
      | (.ok (), registry) => (.ok (), registry.setSubscriptions connection [])

/-- The answer of a call, which is empty for `unregister`. -/
def perform (registry : Registry) : Request → Except SetError (Option Bool) × Registry
  | .register connection =>
      let (answer, registry) := register objects registry connection
      (answer.map some, registry)
  | .unregister connection =>
      let (answer, registry) := unregister objects registry connection
      (answer.map fun _ => none, registry)

def performAll (calls : List Request) : Registry :=
  calls.foldl (fun registry call => (perform objects registry call).2) {}

end Calls

section Admission

def connectionsOf (live : List Connection) (userId : String) : List Connection :=
  live.filter fun connection => connection.userId == userId

def hasRoom (live : List Connection) (connection : Connection) : Bool :=
  decide ((connectionsOf live connection.userId).length < maxConnectionsPerUser)

/-- The connections that are admitted and not yet unregistered. -/
def admitted (live : List Connection) : Request → List Connection
  | .register connection =>
      if hasRoom live connection = true ∧ connection ∉ live then live ++ [connection] else live
  | .unregister connection => live.filter fun other => decide (other ≠ connection)

def liveAfter (calls : List Request) : List Connection := calls.foldl admitted []

/-- The answer a call should get. -/
def due (live : List Connection) : Request → Option Bool
  | .register connection => some (hasRoom live connection)
  | .unregister _ => none

/-- Every call gets its answer, and the sets hold the live connections. -/
def Honoured (objects : ObjectClass Connection) (calls : List Request) : Prop :=
  ∀ before call after, calls = before ++ call :: after →
    (perform objects (performAll objects before) call).1 = .ok (due (liveAfter before) call) ∧
    ∀ userId, (performAll objects (before ++ [call])).users userId =
      connectionsOf (liveAfter (before ++ [call])) userId

end Admission

section Identity
variable {registry : Registry} {connection : Connection}

/-- Connections that are compared as objects. -/
def identified : ObjectClass Connection := byIdentity Connection.connectionId

@[simp] theorem users_set (userId other : String) (connections : Option (List Connection)) :
    (registry.setUsers userId connections).users other =
      if other = userId then connections.getD [] else registry.users other := by
  unfold Registry.users Registry.setUsers
  by_cases same : other = userId
  · subst same
    simp
  · simp [same]

@[simp] theorem kept_get (connections : List Connection) : (kept connections).getD [] = connections := by
  unfold kept
  split
  · next empty => rw [empty]; rfl
  · rfl

variable (registry connection) in
/-- Where connections have a hash, a subscription succeeds. -/
theorem subscribe_identity (channel : String) : ∃ after,
    subscribe identified registry connection channel = (.ok (), after) ∧
      after.byUser = registry.byUser := by
  simp only [subscribe, identified, add_identity]
  exact ⟨_, rfl, rfl⟩

variable (registry connection) in
theorem leave_identity (channels : List String) : ∃ after,
    leave identified connection channels registry = (.ok (), after) ∧
      after.byUser = registry.byUser := by
  induction channels generalizing registry with
  | nil => exact ⟨registry, rfl, rfl⟩
  | cons channel rest ih =>
      obtain ⟨after, left, same⟩ := ih (registry.setMembers channel
        (kept ((registry.members channel).filter fun member => decide (member ≠ connection))))
      refine ⟨after, ?_, same⟩
      simp only [leave, identified, discard_identity]
      exact left

/-- The sets hold these connections. -/
def Holds (registry : Registry) (live : List Connection) : Prop :=
  ∀ userId, registry.users userId = connectionsOf live userId

theorem mem_connections_of {live : List Connection} :
    connection ∈ connectionsOf live connection.userId ↔ connection ∈ live := by
  simp [connectionsOf]

theorem connections_of_added (live : List Connection) (userId : String) :
    connectionsOf (live ++ [connection]) userId =
      if userId = connection.userId then connectionsOf live userId ++ [connection]
      else connectionsOf live userId := by
  rw [connectionsOf, List.filter_append]
  by_cases own : userId = connection.userId
  · simp [connectionsOf, own]
  · simp [connectionsOf, own, Ne.symm own]

/-- A connection is in no set but that of its user. -/
theorem connections_of_removed (live : List Connection) (userId : String) :
    connectionsOf (live.filter fun other => decide (other ≠ connection)) userId =
      if userId = connection.userId then
        (connectionsOf live userId).filter fun other => decide (other ≠ connection)
      else connectionsOf live userId := by
  rw [connectionsOf, List.filter_comm]
  split
  · rfl
  · next foreign =>
      apply List.filter_eq_self.mpr
      intro other listed
      have owner : other.userId = userId := by
        simpa using (List.mem_filter.mp listed).2
      simp only [decide_eq_true_eq]
      rintro rfl
      exact foreign owner.symm

/-- A call that finds the set full leaves it as it is. -/
theorem register_refuses {live : List Connection} (holds : Holds registry live)
    (full : maxConnectionsPerUser ≤ (registry.users connection.userId).length) :
    (perform identified registry (.register connection)).1 =
        .ok (some (hasRoom live connection)) ∧
      Holds (perform identified registry (.register connection)).2
        (admitted live (.register connection)) := by
  have noRoom : hasRoom live connection = false := by
    rw [holds connection.userId] at full
    simp [hasRoom, full]
  have ran : perform identified registry (.register connection) = (.ok (some false),
      registry.setUsers connection.userId (some (registry.users connection.userId))) := by
    simp only [perform, register, if_pos full]
    rfl
  have stays : admitted live (.register connection) = live :=
    if_neg fun both => by rw [noRoom] at both; cases both.1
  rw [ran, noRoom, stays]
  refine ⟨rfl, fun userId => ?_⟩
  rw [users_set]
  split
  · next own =>
      rw [own]
      exact holds connection.userId
  · exact holds userId

/-- The set of a user with one connection more. -/
theorem added_holds {live : List Connection} (holds : Holds registry live)
    (room : hasRoom live connection = true) :
    Holds (registry.setUsers connection.userId (some
      (if connection ∈ registry.users connection.userId then registry.users connection.userId
        else registry.users connection.userId ++ [connection])))
      (admitted live (.register connection)) := by
  have counted : registry.users connection.userId = connectionsOf live connection.userId :=
    holds connection.userId
  have listed : connection ∈ registry.users connection.userId ↔ connection ∈ live := by
    rw [counted, mem_connections_of]
  intro userId
  rw [users_set, Option.getD_some]
  by_cases known : connection ∈ live
  · have stays : admitted live (.register connection) = live := if_neg fun both => both.2 known
    rw [stays, if_pos (listed.mpr known)]
    split
    · next own =>
        rw [own]
        exact counted
    · exact holds userId
  · have grows : admitted live (.register connection) = live ++ [connection] :=
      if_pos ⟨room, known⟩
    rw [grows, connections_of_added, if_neg fun held => known (listed.mp held)]
    split
    · next own => rw [own, counted]
    · exact holds userId

theorem register_identity {live : List Connection} (holds : Holds registry live) :
    (perform identified registry (.register connection)).1 =
        .ok (some (hasRoom live connection)) ∧
      Holds (perform identified registry (.register connection)).2
        (admitted live (.register connection)) := by
  by_cases full : maxConnectionsPerUser ≤ (registry.users connection.userId).length
  · exact register_refuses holds full
  · have room : hasRoom live connection = true := by
      rw [holds connection.userId] at full
      simp [hasRoom, Nat.not_le.mp full]
    obtain ⟨after, subscribed, same⟩ := subscribe_identity
      (registry.setUsers connection.userId (some
        (if connection ∈ registry.users connection.userId then registry.users connection.userId
          else registry.users connection.userId ++ [connection])))
      connection (userChannel connection.userId)
    have ran : perform identified registry (.register connection) = (.ok (some true), after) := by
      simp only [perform, register, if_neg full, identified, add_identity]
      rw [show subscribe (byIdentity Connection.connectionId) _ connection _ = (.ok (), after) from
        subscribed]
      rfl
    rw [ran, room]
    refine ⟨rfl, fun userId => ?_⟩
    rw [Registry.users, same]
    exact added_holds holds room userId

theorem unregister_identity {live : List Connection} (holds : Holds registry live) :
    (perform identified registry (.unregister connection)).1 = .ok none ∧
      Holds (perform identified registry (.unregister connection)).2
        (admitted live (.unregister connection)) := by
  obtain ⟨after, left, same⟩ := leave_identity
    (registry.setUsers connection.userId (kept ((registry.users
      connection.userId).filter fun member => decide (member ≠ connection))))
    connection (registry.subscriptions connection)
  have ran : unregister identified registry connection =
      (.ok (), after.setSubscriptions connection []) := by
    simp only [unregister, identified, discard_identity]
    rw [show leave (byIdentity Connection.connectionId) connection _ _ = (.ok (), after) from left]
  refine ⟨by rw [perform, ran]; rfl, fun userId => ?_⟩
  have found : ((perform identified registry (.unregister connection)).2).users userId =
      (registry.setUsers connection.userId (kept ((registry.users connection.userId).filter
        fun member => decide (member ≠ connection)))).users userId := by
    rw [perform, ran]
    show (after.byUser userId).getD [] = _
    rw [same]
    rfl
  rw [found, users_set, kept_get, admitted, connections_of_removed]
  split
  · next own => rw [own, holds connection.userId]
  · exact holds userId

theorem honoured_identity (calls : List Request) : Honoured identified calls := by
  have holds : ∀ calls, Holds (performAll identified calls) (liveAfter calls) := by
    intro calls
    induction calls using List.reverseRecOn with
    | nil => exact fun _ => rfl
    | append_singleton before call ih =>
        rw [performAll, List.foldl_append, liveAfter, List.foldl_append]
        cases call with
        | register connection => exact (register_identity ih).2
        | unregister connection => exact (unregister_identity ih).2
  intro before call after _
  refine ⟨?_, holds (before ++ [call])⟩
  cases call with
  | register connection => exact (register_identity (holds before)).1
  | unregister connection => exact (unregister_identity (holds before)).1

end Identity

/-- The class as it is declared: a dataclass with the options at their defaults,
whatever its fields are. -/
def declared (fields : ObjectClass Connection) : ObjectClass Connection :=
  dataclass {} (byIdentity Connection.connectionId) fields

theorem declared_raises (fields : ObjectClass Connection) (registry : Registry) (call : Request)
    (room : ∀ userId, (registry.users userId).length < maxConnectionsPerUser) :
    (perform (declared fields) registry call).1 = .error .unhashable := by
  cases call with
  | register connection =>
      have below := Nat.not_le.mpr (room connection.userId)
      simp only [perform, register, if_neg below, add_unhashable (default_unhashable _ _ _), declared]
      rfl
  | unregister connection =>
      simp only [perform, unregister, discard_unhashable (default_unhashable _ _ _), declared]
      rfl

/-- No sequence with a call is honoured, since the declaration takes the hash
away; with `eq=False` every sequence would be. -/
theorem registry_honoured_iff (fields : ObjectClass Connection) (calls : List Request) :
    (Honoured (declared fields) calls ↔ calls = []) ∧
      Honoured (dataclass { eq := false } (byIdentity Connection.connectionId) fields) calls := by
  refine ⟨⟨fun honoured => ?_, ?_⟩, ?_⟩
  · cases calls with
    | nil => rfl
    | cons call rest =>
        have answered := (honoured [] call rest rfl).1
        have raised := declared_raises fields {} call fun _ => by
          show 0 < maxConnectionsPerUser
          decide
        rw [performAll, List.foldl_nil, raised] at answered
        cases answered
  · rintro rfl before call after cut
    simp at cut
  · rw [inherited_class]
    exact honoured_identity calls

/-- The first connection of a user. -/
theorem first_connection_refused : ¬∀ (fields : ObjectClass Connection) (calls : List Request),
    (calls.map fun call => match call with
      | .register connection => some connection
      | .unregister _ => none).Nodup → Honoured (declared fields) calls := by
  intro claimed
  have answered := (claimed identified [.register ⟨1, "4", "s", "d"⟩] (by simp) []
    (.register ⟨1, "4", "s", "d"⟩) [] rfl).1
  cases answered

end RunnerupChat.ConnectionSets
