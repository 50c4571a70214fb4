import RunnerupChat.ConnectionManager

/-!
What the calls of a manager keep, however they interleave: the two indices of
the subscriptions agree, and the channels at Redis are those with local
members. A connection that is being unregistered is followed through its loop.
-/

namespace RunnerupChat.ConnectionManager

open Runs

section Tables
variable {manager after next : Manager} {connection other : Connection}

/-- The two indices of the subscriptions agree on a connection. -/
def Linked (manager : Manager) (connection : Connection) : Prop :=
  ∀ channel, connection ∈ manager.members channel ↔ channel ∈ manager.subscriptions connection

def Unlisted (manager : Manager) (connection : Connection) : Prop :=
  ∀ user, connection ∉ manager.users user

/-- Nothing is changed that belongs to another connection. -/
structure Frame (connection : Connection) (before after : Manager) : Prop where
  members : ∀ other, other ≠ connection → ∀ channel,
    (other ∈ after.members channel ↔ other ∈ before.members channel)
  subscriptions : ∀ other, other ≠ connection →
    after.subscriptions other = before.subscriptions other
  users : ∀ other, other ≠ connection → ∀ user,
    (other ∈ after.users user ↔ other ∈ before.users user)

theorem frame_refl (connection : Connection) (manager : Manager) :
    Frame connection manager manager where
  members := fun _ _ _ => Iff.rfl
  subscriptions := fun _ _ => rfl
  users := fun _ _ _ => Iff.rfl

theorem frame_trans (first : Frame connection manager after) (second : Frame connection after next) :
    Frame connection manager next where
  members := fun other distinct channel =>
    (second.members other distinct channel).trans (first.members other distinct channel)
  subscriptions := fun other distinct =>
    (second.subscriptions other distinct).trans (first.subscriptions other distinct)
  users := fun other distinct user =>
    (second.users other distinct user).trans (first.users other distinct user)

theorem subscribe_frame (channel : String) :
    Frame connection manager (manager.subscribe connection channel) where
  members := by
    intro other distinct place
    rw [Manager.mem_subscribe]
    simp [distinct]
  subscriptions := by
    intro other distinct
    rw [Manager.subscribe_subscriptions, Function.update_of_ne distinct]
  users := by
    intro other _ user
    rw [Manager.subscribe_users]

theorem unsubscribe_frame (channel : String) :
    Frame connection manager (manager.unsubscribe connection channel) where
  members := by
    intro other distinct place
    rw [Manager.mem_removal Manager.unsubscribe_channels]
    simp [distinct]
  subscriptions := by
    intro other distinct
    rw [Manager.unsubscribe_subscriptions, Function.update_of_ne distinct]
  users := by
    intro other _ user
    rw [Manager.unsubscribe_users]

theorem leave_frame (channel : String) :
    Frame connection manager (manager.leave connection channel) where
  members := by
    intro other distinct place
    rw [Manager.mem_removal Manager.leave_channels]
    simp [distinct]
  subscriptions := fun _ _ => by rw [Manager.leave_subscriptions]
  users := by
    intro other _ user
    rw [Manager.leave_users]

theorem add_user_frame : Frame connection manager (manager.addUser connection) where
  members := fun _ _ _ => Iff.rfl
  subscriptions := fun _ _ => rfl
  users := by
    intro other distinct user
    rw [Manager.mem_add_user]
    simp [distinct]

theorem remove_user_frame : Frame connection manager (manager.removeUser connection) where
  members := fun _ _ _ => Iff.rfl
  subscriptions := fun _ _ => rfl
  users := by
    intro other distinct user
    rw [Manager.mem_remove_user]
    simp [distinct]

theorem clear_frame : Frame connection manager (manager.clear connection) where
  members := fun _ _ _ => Iff.rfl
  subscriptions := fun _ distinct => Function.update_of_ne distinct _ _
  users := fun _ _ _ => Iff.rfl

theorem subscribe_linked (linked : Linked manager connection) (channel : String) :
    Linked (manager.subscribe connection channel) connection := by
  intro place
  rw [Manager.mem_subscribe, Manager.subscribe_subscriptions, Function.update_self,
    Finset.mem_insert, linked]
  simp [or_comm]

theorem unsubscribe_linked (linked : Linked manager connection) (channel : String) :
    Linked (manager.unsubscribe connection channel) connection := by
  intro place
  rw [Manager.mem_removal Manager.unsubscribe_channels, Manager.unsubscribe_subscriptions,
    Function.update_self, Finset.mem_erase, linked]
  simp [and_comm]

/-- What the loop of `unregister` leaves: the connection is still in the sets
of exactly the channels that are to come. -/
structure Drained (connection : Connection) (manager : Manager)
    (result : Manager × Option (List String)) : Prop where
  tidy : result.1.Tidy
  users : ∀ user, result.1.users user = manager.users user
  rest : (result.2.getD []).Nodup
  left : ∀ channel, connection ∈ result.1.members channel ↔ channel ∈ result.2.getD []

theorem leave_left {channel : String} {rest : List String} (distinct : (channel :: rest).Nodup)
    (listed : ∀ place, connection ∈ manager.members place ↔ place ∈ channel :: rest)
    (place : String) :
    connection ∈ (manager.leave connection channel).members place ↔ place ∈ rest := by
  rw [Manager.mem_removal Manager.leave_channels, listed, List.mem_cons]
  have absent := (List.nodup_cons.mp distinct).1
  constructor
  · rintro ⟨rfl | later, other⟩
    · exact absurd ⟨rfl, rfl⟩ other
    · exact later
  · intro later
    exact ⟨Or.inr later, fun same => absent (same.2 ▸ later)⟩

theorem drain_frame (channels : List String) :
    Frame connection manager (manager.drain connection channels).1 := by
  induction channels generalizing manager with
  | nil => exact frame_refl _ _
  | cons channel rest ih =>
      simp only [Manager.drain]
      split
      · exact leave_frame channel
      · exact frame_trans (leave_frame channel) ih

theorem drain_drained (tidy : manager.Tidy) (channels : List String) (distinct : channels.Nodup)
    (listed : ∀ channel, connection ∈ manager.members channel ↔ channel ∈ channels) :
    Drained connection manager (manager.drain connection channels) := by
  induction channels generalizing manager with
  | nil => exact ⟨tidy, fun _ => rfl, List.nodup_nil, listed⟩
  | cons channel rest ih =>
      have left := leave_left distinct listed
      have later := (List.nodup_cons.mp distinct).2
      have users : ∀ user, (manager.leave connection channel).users user = manager.users user :=
        fun user => Manager.leave_users user
      simp only [Manager.drain]
      split
      · exact ⟨Manager.leave_tidy tidy, users, later, left⟩
      · have drained := ih (Manager.leave_tidy tidy) later left
        exact ⟨drained.tidy, fun user => (drained.users user).trans (users user), drained.rest,
          drained.left⟩

/-- What holds of a connection whose `unregister` has come this far. -/
def Fits (manager : Manager) (connection : Connection) : Progress → Prop
  | .waiting => Linked manager connection
  | .closing rest => rest.Nodup ∧ Unlisted manager connection ∧
      ∀ channel, connection ∈ manager.members channel ↔ channel ∈ rest
  | .finishing => False
  | .returned _ => Linked manager connection ∧ Unlisted manager connection ∧
      manager.subscriptions connection = ∅

theorem linked_frame (frame : Frame connection manager after) (distinct : other ≠ connection)
    (linked : Linked manager other) : Linked after other := by
  intro channel
  rw [frame.members other distinct, frame.subscriptions other distinct]
  exact linked channel

theorem fits_frame (frame : Frame connection manager after) (distinct : other ≠ connection)
    {progress : Progress} (fits : Fits manager other progress) : Fits after other progress := by
  have unlisted : Unlisted manager other → Unlisted after other :=
    fun absent user member => absent user ((frame.users other distinct user).mp member)
  cases progress with
  | waiting => exact linked_frame frame distinct fits
  | closing rest =>
      refine ⟨fits.1, unlisted fits.2.1, fun channel => ?_⟩
      rw [frame.members other distinct]
      exact fits.2.2 channel
  | finishing => exact fits
  | returned accepted =>
      refine ⟨linked_frame frame distinct fits.1, unlisted fits.2.1, ?_⟩
      rw [frame.subscriptions other distinct]
      exact fits.2.2

end Tables

section Tasks
variable {manager after : Manager} {tasks : List Task} {holder free : Option Nat}
  {queue rest : List Nat} {index : Nat} {call : Call} {before progress : Progress}
  {connection : Connection}

def Call.Ends (call : Call) : Prop := ∃ connection, call = .unregister connection

structure TableInv (tasks : List Task) (manager : Manager) : Prop where
  tidy : manager.Tidy
  keyed : ∀ connection user, connection ∈ manager.users user → user = connection.userId
  linked : ∀ connection, (∀ (index : Nat) progress,
    tasks[index]? ≠ some ⟨.unregister connection, progress⟩) → Linked manager connection
  fits : ∀ (index : Nat) connection progress,
    tasks[index]? = some ⟨.unregister connection, progress⟩ → Fits manager connection progress

/-- The queue is in the order of the calls, and `unregister` is the last call
for its connection. -/
structure LockInv (tasks : List Task) (holder : Option Nat) (queue : List Nat) : Prop where
  sorted : queue.Pairwise (· < ·)
  bounded : ∀ index ∈ queue, index < tasks.length
  queued : ∀ (index : Nat) call, tasks[index]? = some ⟨call, .waiting⟩ → index ∈ queue
  holds : ∀ (index : Nat) call rest, tasks[index]? = some ⟨call, .closing rest⟩ →
    holder = some index
  last : ∀ (index final : Nat) task connection progress, tasks[index]? = some task →
    tasks[final]? = some ⟨.unregister connection, progress⟩ →
    task.call.connection = connection → index ≤ final
  served : ∀ (index final : Nat) task connection progress, tasks[index]? = some task →
    tasks[final]? = some ⟨.unregister connection, progress⟩ →
    task.call.connection = connection → progress ≠ .waiting → task.progress ≠ .waiting

structure Inv (state : State) : Prop where
  tables : TableInv state.tasks state.manager
  lock : LockInv state.tasks state.holder state.queue

theorem tables_moved (call : Call) (inv : TableInv tasks manager) (frame : Frame call.connection manager after)
    (found : tasks[index]? = some ⟨call, before⟩) (tidy : after.Tidy)
    (keyed : ∀ connection user, connection ∈ after.users user → user = connection.userId)
    (linked : (∀ (index : Nat) progress,
      tasks[index]? ≠ some ⟨.unregister call.connection, progress⟩) → Linked after call.connection)
    (fits : ∀ (final : Nat) last, (tasks.set index ⟨call, progress⟩)[final]? =
      some ⟨.unregister call.connection, last⟩ → Fits after call.connection last) :
    TableInv (tasks.set index ⟨call, progress⟩) after where
  tidy := tidy
  keyed := keyed
  linked := by
    intro connection unended
    have unended : ∀ (place : Nat) last,
        tasks[place]? ≠ some ⟨.unregister connection, last⟩ := by
      intro place last listed
      by_cases same : index = place
      · subst same
        obtain ⟨rfl, rfl⟩ := Task.mk.inj (Option.some.inj (found.symm.trans listed))
        have bound : index < tasks.length := (List.getElem?_eq_some_iff.mp found).1
        exact unended index progress (List.getElem?_set_self bound)
      · exact unended place last ((List.getElem?_set_ne same).trans listed)
    by_cases own : connection = call.connection
    · subst own
      exact linked unended
    · exact linked_frame frame own (inv.linked connection unended)
  fits := by
    intro final connection last listed
    by_cases own : connection = call.connection
    · subst own
      exact fits final last listed
    · rcases moved_cases listed with ⟨_, same⟩ | ⟨_, old⟩
      · exact absurd (congrArg (fun task => task.call.connection) same) own
      · exact fits_frame frame own (inv.fits final connection last old)

/-- A connection that no `unregister` has got to yet. -/
theorem idle_linked (inv : TableInv tasks manager)
    (idle : ∀ (final : Nat) last, tasks[final]? = some ⟨.unregister connection, last⟩ →
      last = .waiting) : Linked manager connection := by
  by_cases ended : ∃ (final : Nat) (last : Progress),
      tasks[final]? = some ⟨.unregister connection, last⟩
  · obtain ⟨final, last, listed⟩ := ended
    obtain rfl := idle final last listed
    exact inv.fits final connection .waiting listed
  · exact inv.linked connection fun final last listed => ended ⟨final, last, listed⟩

/-- A call other than `unregister` moves on. -/
theorem tables_used (inv : TableInv tasks manager) (frame : Frame call.connection manager after)
    (found : tasks[index]? = some ⟨call, before⟩) (open_ : ¬call.Ends) (tidy : after.Tidy)
    (keyed : ∀ connection user, connection ∈ after.users user → user = connection.userId)
    (idle : ∀ (final : Nat) last, tasks[final]? = some ⟨.unregister call.connection, last⟩ →
      last = .waiting)
    (linked : Linked manager call.connection → Linked after call.connection) :
    TableInv (tasks.set index ⟨call, progress⟩) after := by
  have now := linked (idle_linked inv idle)
  refine tables_moved call inv frame found tidy keyed (fun _ => now) fun final last listed => ?_
  rcases moved_cases listed with ⟨_, same⟩ | ⟨_, old⟩
  · exact absurd ⟨_, (Task.mk.inj same).1.symm⟩ open_
  · obtain rfl := idle final last old
    exact now

/-- The `unregister` of a connection moves on. -/
theorem tables_ended (inv : TableInv tasks manager) (frame : Frame connection manager after)
    (found : tasks[index]? = some ⟨.unregister connection, before⟩) (tidy : after.Tidy)
    (keyed : ∀ connection user, connection ∈ after.users user → user = connection.userId)
    (single : ∀ (final : Nat) last, tasks[final]? = some ⟨.unregister connection, last⟩ →
      final = index) (fits : Fits after connection progress) :
    TableInv (tasks.set index ⟨.unregister connection, progress⟩) after := by
  refine tables_moved (.unregister connection) inv frame found tidy keyed
    (fun unended => absurd found (unended index before)) fun final last listed => ?_
  rcases moved_cases listed with ⟨_, same⟩ | ⟨distinct, old⟩
  · cases same
    exact fits
  · exact absurd (single final last old) distinct

theorem tables_added (inv : TableInv tasks manager)
    (last : ∀ task ∈ tasks, task.call ≠ .unregister call.connection) :
    TableInv (tasks ++ [⟨call, .waiting⟩]) manager where
  tidy := inv.tidy
  keyed := inv.keyed
  linked := by
    intro connection unended
    refine inv.linked connection fun place progress listed => ?_
    have bound : place < tasks.length := (List.getElem?_eq_some_iff.mp listed).1
    exact unended place progress ((List.getElem?_append_left bound).trans listed)
  fits := by
    intro final connection progress listed
    rcases added_cases listed with old | ⟨_, same⟩
    · exact inv.fits final connection progress old
    · cases same
      exact inv.linked connection fun place progress listed =>
        last _ (List.mem_of_getElem? listed) rfl

/-- A new call joins the queue. -/
theorem lock_added (inv : LockInv tasks holder queue)
    (last : ∀ task ∈ tasks, task.call ≠ .unregister call.connection) :
    LockInv (tasks ++ [⟨call, .waiting⟩]) holder (queue ++ [tasks.length]) where
  sorted := by
    rw [List.pairwise_append]
    exact ⟨inv.sorted, List.pairwise_singleton _ _, fun index member other alone =>
      List.mem_singleton.mp alone ▸ inv.bounded index member⟩
  bounded := by
    intro index member
    rw [List.length_append, List.length_singleton]
    rcases List.mem_append.mp member with old | new
    · exact Nat.lt_succ_of_lt (inv.bounded index old)
    · exact List.mem_singleton.mp new ▸ Nat.lt_succ_self _
  queued := by
    intro index call listed
    rcases added_cases listed with old | ⟨rfl, _⟩
    · exact List.mem_append_left _ (inv.queued index call old)
    · exact List.mem_append_right _ (List.mem_singleton_self _)
  holds := by
    intro index call rest listed
    rcases added_cases listed with old | ⟨_, same⟩
    · exact inv.holds index call rest old
    · cases same
  last := by
    intro index final task connection progress listed ending own
    rcases added_cases ending with old | ⟨rfl, _⟩
    · rcases added_cases listed with earlier | ⟨_, rfl⟩
      · exact inv.last index final task connection progress earlier old own
      · exact absurd (own ▸ rfl) (last _ (List.mem_of_getElem? old))
    · have bound := (List.getElem?_eq_some_iff.mp listed).1
      rw [List.length_append, List.length_singleton] at bound
      omega
  served := by
    intro index final task connection progress listed ending own past
    rcases added_cases ending with old | ⟨_, same⟩
    · rcases added_cases listed with earlier | ⟨_, rfl⟩
      · exact inv.served index final task connection progress earlier old own past
      · exact absurd (own ▸ rfl) (last _ (List.mem_of_getElem? old))
    · cases same
      exact absurd rfl past

/-- A task moves on. Where it is an `unregister` that was waiting, no task of
its connection is left behind it. -/
theorem lock_moved (inv : LockInv tasks holder queue)
    (found : tasks[index]? = some ⟨call, before⟩) (past : progress ≠ .waiting)
    (sorted : rest.Pairwise (· < ·)) (fewer : ∀ place ∈ rest, place ∈ queue)
    (queued : ∀ place ∈ queue, place ≠ index → place ∈ rest)
    (holds : ∀ (place : Nat) other later, place ≠ index →
      tasks[place]? = some ⟨other, .closing later⟩ → free = some place)
    (held : ∀ later, progress = .closing later → free = some index)
    (behind : call.Ends → before = .waiting → ∀ place ∈ queue, index ≤ place) :
    LockInv (tasks.set index ⟨call, progress⟩) free rest where
  sorted := sorted
  bounded := by
    intro place member
    rw [List.length_set]
    exact inv.bounded place (fewer place member)
  queued := by
    intro place other listed
    rcases moved_cases listed with ⟨_, same⟩ | ⟨distinct, old⟩
    · exact absurd (Task.mk.inj same).2.symm past
    · exact queued place (inv.queued place other old) distinct
  holds := by
    intro place other later listed
    rcases moved_cases listed with ⟨rfl, same⟩ | ⟨distinct, old⟩
    · exact held later (Task.mk.inj same).2.symm
    · exact holds place other later distinct old
  last := by
    intro place final task connection last listed ending own
    have earlier : ∃ task, tasks[place]? = some task ∧ task.call.connection = connection := by
      rcases moved_cases listed with ⟨rfl, rfl⟩ | ⟨_, old⟩
      · exact ⟨_, found, own⟩
      · exact ⟨task, old, own⟩
    obtain ⟨old, also, theirs⟩ := earlier
    rcases moved_cases ending with ⟨rfl, same⟩ | ⟨_, ended⟩
    · obtain rfl := (Task.mk.inj same).1
      exact inv.last place final old connection before also found theirs
    · exact inv.last place final old connection last also ended theirs
  served := by
    intro place final task connection last listed ending own done
    rcases moved_cases listed with ⟨rfl, rfl⟩ | ⟨distinct, old⟩
    · exact past
    · rcases moved_cases ending with ⟨rfl, same⟩ | ⟨_, ended⟩
      · obtain rfl := (Task.mk.inj same).1
        intro waits
        by_cases waited : before = .waiting
        · have member : place ∈ queue := inv.queued place task.call (by rw [old, ← waits])
          have ahead := behind ⟨connection, rfl⟩ waited place member
          have after := inv.last place final task connection before old found own
          omega
        · exact inv.served place final task connection before old found own waited waits
      · exact inv.served place final task connection last old ended own done

end Tasks

section Steps
variable {state next : State} {index : Nat} {order : List String} {call : Call}
  {connection : Connection} {holder : Option Nat} {queue : List Nat}

theorem add_user_tidy {manager : Manager} (tidy : manager.Tidy) :
    (manager.addUser connection).Tidy :=
  ⟨tidy.filled, tidy.redis⟩

theorem remove_user_tidy {manager : Manager} (tidy : manager.Tidy) :
    (manager.removeUser connection).Tidy :=
  ⟨tidy.filled, tidy.redis⟩

theorem clear_tidy {manager : Manager} (tidy : manager.Tidy) : (manager.clear connection).Tidy :=
  ⟨tidy.filled, tidy.redis⟩

/-- There is one `unregister` of a connection. -/
theorem single_ending {tasks : List Task} {before : Progress} (lock : LockInv tasks holder queue)
    (found : tasks[index]? = some ⟨.unregister connection, before⟩) (final : Nat) (last : Progress)
    (listed : tasks[final]? = some ⟨.unregister connection, last⟩) : final = index := by
  have first := lock.last index final _ connection last found listed rfl
  have second := lock.last final index _ connection before listed found rfl
  omega

theorem continue_inv {manager : Manager} {channels : List String} {before : Progress}
    (tables : TableInv state.tasks state.manager) (lock : LockInv state.tasks holder queue)
    (found : state.tasks[index]? = some ⟨.unregister connection, before⟩)
    (frame : Frame connection state.manager manager) (tidy : manager.Tidy)
    (keyed : ∀ connection user, connection ∈ manager.users user → user = connection.userId)
    (unlisted : Unlisted manager connection) (distinct : channels.Nodup)
    (listed : ∀ channel, connection ∈ manager.members channel ↔ channel ∈ channels)
    (sorted : state.queue.Pairwise (· < ·)) (fewer : ∀ place ∈ state.queue, place ∈ queue)
    (queued : ∀ place ∈ queue, place ≠ index → place ∈ state.queue)
    (alone : ∀ (place : Nat) other later, place ≠ index →
      state.tasks[place]? ≠ some ⟨other, .closing later⟩)
    (behind : before = .waiting → ∀ place ∈ queue, index ≤ place) :
    Inv (continueLoop state index connection manager channels) := by
  have drained := drain_drained tidy channels distinct listed
  have single := single_ending lock found
  have onward := frame_trans frame (drain_frame channels)
  have owners : ∀ other user, other ∈ (manager.drain connection channels).1.users user →
      user = other.userId := by
    intro other user member
    rw [drained.users] at member
    exact keyed other user member
  have absent : Unlisted (manager.drain connection channels).1 connection := by
    intro user member
    rw [drained.users] at member
    exact unlisted user member
  unfold continueLoop
  cases result : manager.drain connection channels with
  | mk left rest =>
      rw [result] at drained onward owners absent
      cases rest with
      | some rest =>
          exact {
            tables := tables_ended tables onward found drained.tidy owners single
              ⟨drained.rest, absent, drained.left⟩
            lock := lock_moved lock found (by simp) sorted fewer queued
              (fun place other later distinct old => absurd old (alone place other later distinct))
              (fun _ _ => rfl) fun _ => behind }
      | none =>
          have empty : ∀ channel, connection ∉ left.members channel := fun channel member =>
            List.not_mem_nil ((drained.left channel).mp member)
          have cleared : (left.clear connection).subscriptions connection = ∅ :=
            Function.update_self _ _ _
          have linked : Linked (left.clear connection) connection := by
            intro channel
            rw [cleared]
            exact iff_of_false (empty channel) (Finset.notMem_empty channel)
          exact {
            tables := tables_ended tables (frame_trans onward clear_frame) found
              (clear_tidy drained.tidy) owners single ⟨linked, absent, cleared⟩
            lock := lock_moved lock found (by simp) sorted fewer queued
              (fun place other later distinct old => absurd old (alone place other later distinct))
              (fun _ same => nomatch same) fun _ => behind }

/-- The call at the head of the queue gets the lock. -/
theorem enter_inv (state : State) {rest : List Nat} (tables : TableInv state.tasks state.manager)
    (lock : LockInv state.tasks none (index :: rest))
    (found : state.tasks[index]? = some ⟨call, .waiting⟩) (queued : state.queue = rest)
    (entered : Entered state index call next) : Inv next := by
  have sorted : state.queue.Pairwise (· < ·) := queued ▸ (List.pairwise_cons.mp lock.sorted).2
  have fewer : ∀ place ∈ state.queue, place ∈ index :: rest :=
    fun place member => List.mem_cons_of_mem index (queued ▸ member)
  have others : ∀ place ∈ index :: rest, place ≠ index → place ∈ state.queue := by
    intro place member distinct
    rw [queued]
    exact (List.mem_cons.mp member).resolve_left distinct
  have alone : ∀ (place : Nat) other later, place ≠ index →
      state.tasks[place]? ≠ some ⟨other, .closing later⟩ :=
    fun place other later _ listed => nomatch lock.holds place other later listed
  have behind : ∀ place ∈ index :: rest, index ≤ place := by
    intro place member
    rcases List.mem_cons.mp member with same | later
    · exact same ▸ Nat.le_refl _
    · exact Nat.le_of_lt ((List.pairwise_cons.mp lock.sorted).1 place later)
  have idle : ∀ connection, call = .register connection → ∀ (final : Nat) last,
      state.tasks[final]? = some ⟨.unregister connection, last⟩ → last = .waiting := by
    rintro connection rfl final last listed
    by_contra past
    exact lock.served index final _ connection last found listed rfl past rfl
  cases entered with
  | refused connection =>
      have open_ : ¬(Call.register connection).Ends := fun ⟨_, same⟩ => nomatch same
      exact {
        tables := tables_used tables (frame_refl _ _) found open_ tables.tidy tables.keyed
          (idle connection rfl) id
        lock := lock_moved lock found (by simp) sorted fewer others
          (fun place other later distinct old => absurd old (alone place other later distinct))
          (fun _ same => nomatch same) fun ends => absurd ends open_ }
  | registered connection =>
      have open_ : ¬(Call.register connection).Ends := fun ⟨_, same⟩ => nomatch same
      have joined : Linked state.manager connection →
          Linked (state.manager.addUser connection) connection := id
      exact {
        tables := by
          refine tables_used tables (frame_trans add_user_frame (subscribe_frame _)) found open_
            (Manager.subscribe_tidy (add_user_tidy tables.tidy)) ?_ (idle connection rfl)
            fun linked => subscribe_linked (joined linked) _
          intro other user member
          have added : other ∈ (state.manager.addUser connection).users user := by
            rwa [← Manager.subscribe_users]
          rcases Manager.mem_add_user.mp added with old | ⟨rfl, rfl⟩
          · exact tables.keyed other user old
          · rfl
        lock := lock_moved lock found (by simp) sorted fewer others
          (fun place other later distinct old => absurd old (alone place other later distinct))
          (fun _ same => nomatch same) fun ends => absurd ends open_ }
  | leaving connection order order_listed =>
      have linked : Linked state.manager connection := tables.fits index connection _ found
      refine continue_inv tables lock found remove_user_frame (remove_user_tidy tables.tidy) ?_ ?_
        order_listed.1 (fun channel => (linked channel).trans (order_listed.2 channel).symm) sorted
        fewer others alone fun _ => behind
      · intro other user member
        exact tables.keyed other user (Manager.mem_remove_user.mp member).1
      · intro user member
        obtain ⟨listed, unowned⟩ := Manager.mem_remove_user.mp member
        exact unowned ⟨rfl, tables.keyed connection user listed⟩

/-- `unregister` is the last call that is made for a connection. -/
def Last (state : State) : Action → Prop
  | .call call _ => ∀ task ∈ state.tasks, task.call ≠ .unregister call.connection
  | .resume _ _ | .takeEffect => True

/-- A call without the lock is made and runs to its end. -/
theorem use_inv {after : Manager} (inv : Inv state) (open_ : ¬call.Ends)
    (last : ∀ task ∈ state.tasks, task.call ≠ .unregister call.connection)
    (frame : Frame call.connection state.manager after) (tidy : after.Tidy)
    (users : ∀ user, after.users user = state.manager.users user)
    (linked : Linked state.manager call.connection → Linked after call.connection) :
    Inv (moved (made state call) state.tasks.length call .finishing after) where
  tables := by
    refine tables_used (tables_added inv.tables last) frame List.getElem?_concat_length open_ tidy
      (fun connection user member => inv.tables.keyed connection user (users user ▸ member))
      (fun final ending listed => ?_) linked
    rcases added_cases listed with old | ⟨_, same⟩
    · exact absurd rfl (last _ (List.mem_of_getElem? old))
    · exact (Task.mk.inj same).2
  lock := by
    have lock := lock_added inv.lock last
    have holds : ∀ (place : Nat) other later, place ≠ state.tasks.length →
        (state.tasks ++ [⟨call, .waiting⟩])[place]? = some ⟨other, .closing later⟩ →
        state.holder = some place := fun place other later _ old => lock.holds place other later old
    refine lock_moved lock List.getElem?_concat_length (by simp) inv.lock.sorted
      (fun place member => List.mem_append_left _ member) (fun place member distinct => ?_) holds
      (fun _ same => nomatch same) fun ends => absurd ends open_
    exact (List.mem_append.mp member).resolve_right fun alone =>
      distinct (List.mem_singleton.mp alone)

theorem begin_inv (inv : Inv state) (last : ∀ task ∈ state.tasks,
    task.call ≠ .unregister call.connection) (begun : begin state call order = some next) :
    Inv next := by
  have tables : TableInv (made state call).tasks (made state call).manager :=
    tables_added inv.tables last
  have lock : LockInv (made state call).tasks state.holder (state.queue ++ [state.tasks.length]) :=
    lock_added inv.lock last
  have found : (made state call).tasks[state.tasks.length]? = some ⟨call, .waiting⟩ :=
    List.getElem?_concat_length
  cases begin_cases begun with
  | entered _ _ free entered =>
      obtain ⟨unheld, empty⟩ := free
      rw [unheld, empty] at lock
      exact enter_inv (made state _) tables lock found empty entered
  | queued => exact ⟨tables, lock⟩
  | subscribed connection channel =>
      exact use_inv inv (fun ⟨_, same⟩ => nomatch same) last (subscribe_frame channel)
        (Manager.subscribe_tidy inv.tables.tidy) (fun user => Manager.subscribe_users user)
        fun linked => subscribe_linked linked channel
  | unsubscribed connection channel =>
      exact use_inv inv (fun ⟨_, same⟩ => nomatch same) last (unsubscribe_frame channel)
        (Manager.unsubscribe_tidy inv.tables.tidy) (fun user => Manager.unsubscribe_users user)
        fun linked => unsubscribe_linked linked channel

theorem answered_inv {task : Task} (inv : Inv state) (found : state.tasks[index]? = some task)
    (finishing : task.progress = .finishing) :
    Inv (moved state index task.call (.returned true) state.manager) := by
  obtain ⟨call, before⟩ := task
  cases finishing
  exact {
    tables := by
      refine tables_moved call inv.tables (frame_refl _ _) found inv.tables.tidy inv.tables.keyed
        (inv.tables.linked call.connection) fun final last listed => ?_
      rcases moved_cases listed with ⟨rfl, same⟩ | ⟨_, old⟩
      · rw [← (Task.mk.inj same).1] at found
        exact absurd (inv.tables.fits final _ .finishing found) id
      · exact inv.tables.fits final _ last old
    lock := lock_moved inv.lock found (by simp) inv.lock.sorted (fun _ member => member)
      (fun _ member _ => member) (fun place other later _ old => inv.lock.holds place other later old)
      (fun _ same => nomatch same) fun _ waiting => nomatch waiting }

theorem resume_inv {task : Task} (inv : Inv state) (found : state.tasks[index]? = some task)
    (resumed : resume state index order task = some next) : Inv next := by
  cases resume_cases resumed with
  | entered call _ turn entered =>
      obtain ⟨rest, queued⟩ := List.head?_eq_some_iff.mp turn.2
      have lock := inv.lock
      rw [turn.1, queued] at lock
      exact enter_inv { state with queue := state.queue.tail } inv.tables lock found
        (by rw [queued]; rfl) entered
  | continued connection rest =>
      obtain ⟨distinct, unlisted, listed⟩ := inv.tables.fits index connection _ found
      have held := inv.lock.holds index _ rest found
      refine continue_inv inv.tables inv.lock found (frame_refl _ _) inv.tables.tidy
        inv.tables.keyed unlisted distinct listed inv.lock.sorted (fun _ member => member)
        (fun _ member _ => member) (fun place other later distinct old => ?_)
        fun waiting => nomatch waiting
      -- only one task has the lock
      have also := inv.lock.holds place other later old
      exact distinct (Option.some.inj (also.symm.trans held))
  | finished call => exact answered_inv inv found rfl

theorem effect_inv (inv : Inv state) : Inv { state with manager := state.manager.takeEffect } := by
  have kept : ∃ subscribed pending, state.manager.takeEffect =
      { state.manager with subscribed := subscribed, pending := pending } := by
    unfold Manager.takeEffect
    split <;> exact ⟨_, _, rfl⟩
  have settled : state.manager.takeEffect.settled = state.manager.settled :=
    Manager.take_effect_settled
  obtain ⟨subscribed, pending, same⟩ := kept
  rw [same] at settled
  rw [same]
  exact {
    tables := {
      tidy := ⟨inv.tables.tidy.filled, fun channel other => by
        rw [settled]
        exact inv.tables.tidy.redis channel other⟩
      keyed := inv.tables.keyed
      linked := inv.tables.linked
      fits := fun index connection progress listed => by
        have fits := inv.tables.fits index connection progress listed
        cases progress with
        | waiting | closing rest | finishing | returned accepted => exact fits }
    lock := inv.lock }

theorem step_inv {action : Action} (inv : Inv state) (last : Last state action)
    (taken : step state action = some next) : Inv next := by
  cases action with
  | call call order => exact begin_inv inv last taken
  | resume index order =>
      obtain ⟨task, found, resumed⟩ := Option.bind_eq_some_iff.mp taken
      exact resume_inv inv found resumed
  | takeEffect =>
      cases taken
      exact effect_inv inv

theorem continue_frame (state : State) (index : Nat) (manager : Manager) (channels : List String) :
    Frame connection manager (continueLoop state index connection manager channels).manager := by
  have drained : Frame connection manager (manager.drain connection channels).1 :=
    drain_frame channels
  unfold continueLoop
  split
  · rename_i left rest result
    rw [result] at drained
    exact drained
  · rename_i left result
    rw [result] at drained
    exact frame_trans drained clear_frame

theorem enter_frame (state : State) (entered : Entered state index call next) :
    Frame call.connection state.manager next.manager := by
  cases entered with
  | refused connection => exact frame_refl _ _
  | registered connection => exact frame_trans add_user_frame (subscribe_frame _)
  | leaving connection => exact frame_trans remove_user_frame (continue_frame _ _ _ _)

/-- A call touches its own connection alone, in each of its parts. -/
theorem begin_frame (begun : begin state call order = some next) :
    Frame call.connection state.manager next.manager := by
  cases begin_cases begun with
  | entered _ _ free entered => exact enter_frame (made state _) entered
  | queued => exact frame_refl _ _
  | subscribed connection channel => exact subscribe_frame channel
  | unsubscribed connection channel => exact unsubscribe_frame channel

theorem resume_frame {task : Task} (resumed : resume state index order task = some next) :
    Frame task.call.connection state.manager next.manager := by
  cases resume_cases resumed with
  | entered call _ turn entered => exact enter_frame { state with queue := state.queue.tail } entered
  | continued connection rest => exact continue_frame _ _ _ _
  | finished call => exact frame_refl _ _

/-- After an `unregister`, no call for its connection is made. -/
def Action.Before (first second : Action) : Prop :=
  match first, second with
  | .call (.unregister connection) _, .call call _ => call.connection ≠ connection
  | _, _ => True

instance : ∀ first second : Action, Decidable (first.Before second)
  | .call (.unregister connection) _, .call call _ =>
      inferInstanceAs (Decidable (call.connection ≠ connection))
  | .call (.unregister _) _, .resume _ _ | .call (.unregister _) _, .takeEffect
  | .call (.register _) _, _ | .call (.subscribe _ _) _, _ | .call (.unsubscribe _ _) _, _
  | .resume _ _, _ | .takeEffect, _ => isTrue trivial

/-- The calls that were made, answered or not. -/
def calls (state : State) : List Call := state.tasks.map Task.call

theorem set_calls {tasks : List Task} {before progress : Progress}
    (found : tasks[index]? = some ⟨call, before⟩) :
    (tasks.set index ⟨call, progress⟩).map Task.call = tasks.map Task.call := by
  obtain ⟨bound, here⟩ := List.getElem?_eq_some_iff.mp found
  rw [List.map_set]
  apply List.ext_getElem
  · simp
  · intro place _ _
    by_cases same : index = place
    · subst same
      simp [here]
    · simp [List.getElem_set_ne same]

theorem continue_calls {manager : Manager} {channels : List String} {before : Progress}
    (found : state.tasks[index]? = some ⟨.unregister connection, before⟩) :
    calls (continueLoop state index connection manager channels) = calls state := by
  unfold continueLoop
  split
  · exact set_calls found
  · exact set_calls found

theorem enter_calls (state : State) {before : Progress}
    (found : state.tasks[index]? = some ⟨call, before⟩)
    (entered : Entered state index call next) : calls next = calls state := by
  cases entered with
  | refused connection | registered connection => exact set_calls found
  | leaving connection => exact continue_calls found

theorem begin_calls (begun : begin state call order = some next) :
    calls next = calls state ++ [call] := by
  have made_calls : calls (made state call) = calls state ++ [call] := by
    simp [calls, made]
  have found : (made state call).tasks[state.tasks.length]? = some ⟨call, .waiting⟩ :=
    List.getElem?_concat_length
  cases begin_cases begun with
  | entered _ _ free entered => rw [enter_calls (made state _) found entered, made_calls]
  | queued => exact made_calls
  | subscribed connection channel | unsubscribed connection channel =>
      exact (set_calls found).trans made_calls

theorem resume_calls {task : Task} (found : state.tasks[index]? = some task)
    (resumed : resume state index order task = some next) : calls next = calls state := by
  cases resume_cases resumed with
  | entered call _ turn entered =>
      exact enter_calls { state with queue := state.queue.tail } found entered
  | continued connection rest => exact continue_calls found
  | finished call => exact set_calls found

theorem last_meets {actions : List Action} (ordered : actions.Pairwise Action.Before)
    (earlier : ∀ connection, .unregister connection ∈ calls state →
      ∀ call order, .call call order ∈ actions → call.connection ≠ connection) :
    Meets step Last state actions := by
  induction actions generalizing state with
  | nil => trivial
  | cons action rest ih =>
      obtain ⟨first, later⟩ := List.pairwise_cons.mp ordered
      refine ⟨?_, fun next taken => ih later ?_⟩
      · cases action with
        | call call order =>
            intro task member ended
            exact earlier call.connection (ended ▸ List.mem_map_of_mem member) call order
              List.mem_cons_self rfl
        | resume index order | takeEffect => trivial
      · intro connection ended other also listed
        have before : .unregister connection ∈ calls state → other.connection ≠ connection :=
          fun old => earlier connection old other also (List.mem_cons_of_mem action listed)
        cases action with
        | call call order =>
            rw [begin_calls taken, List.mem_append, List.mem_singleton] at ended
            rcases ended with old | rfl
            · exact before old
            · exact first _ listed
        | resume index order =>
            obtain ⟨task, found, resumed⟩ := Option.bind_eq_some_iff.mp taken
            rw [resume_calls found resumed] at ended
            exact before ended
        | takeEffect =>
            cases taken
            exact before ended

theorem started_inv : Inv { manager := started } where
  tables := {
    tidy := Manager.started_tidy
    keyed := fun connection user member => absurd member (Finset.notMem_empty connection)
    linked := fun connection _ channel =>
      iff_of_false (Finset.notMem_empty connection) (Finset.notMem_empty channel)
    fits := fun index connection progress listed => by simp at listed }
  lock := {
    sorted := List.Pairwise.nil
    bounded := fun index member => absurd member List.not_mem_nil
    queued := fun index call listed => by simp at listed
    holds := fun index call rest listed => by simp at listed
    last := fun index final task connection progress listed => by simp at listed
    served := fun index final task connection progress listed => by simp at listed }

/-- Whenever no call is in progress, the two indices agree, no channel has an
empty set, the channels at Redis are those of the table, and an unregistered
connection is in no set. -/
theorem registry_consistent (actions : List Action) (final : State)
    (ran : run step { manager := started } actions = some final)
    (ordered : actions.Pairwise Action.Before)
    (idle : ∀ task ∈ final.tasks, ∃ accepted, task.progress = .returned accepted) :
    (∀ connection channel, connection ∈ final.manager.members channel ↔
      channel ∈ final.manager.subscriptions connection) ∧
    (∀ channel, final.manager.byChannel channel ≠ some ∅) ∧
    (∀ channel, channel ≠ keepAlive →
      ((final.manager.byChannel channel).isSome ↔ channel ∈ final.manager.settled)) ∧
    ∀ connection, .unregister connection ∈ calls final →
      (∀ user, connection ∉ final.manager.users user) ∧
      (∀ channel, connection ∉ final.manager.members channel) ∧
      final.manager.subscriptions connection = ∅ := by
  have last : Meets step Last { manager := started } actions :=
    last_meets ordered fun connection ended => absurd ended List.not_mem_nil
  have inv : Inv final := guarded_invariant Inv
    (fun _ _ _ inv last taken => step_inv inv last taken) ran last started_inv
  have linked : ∀ connection, Linked final.manager connection := by
    intro connection
    by_cases ended : ∃ (index : Nat) (progress : Progress),
        final.tasks[index]? = some ⟨.unregister connection, progress⟩
    · obtain ⟨index, progress, listed⟩ := ended
      obtain ⟨accepted, rfl⟩ := idle _ (List.mem_of_getElem? listed)
      exact (inv.tables.fits index connection _ listed).1
    · exact inv.tables.linked connection fun index progress listed => ended ⟨index, progress, listed⟩
  refine ⟨linked, inv.tables.tidy.filled, inv.tables.tidy.redis, ?_⟩
  intro connection ended
  obtain ⟨⟨call, progress⟩, member, rfl⟩ := List.mem_map.mp ended
  obtain ⟨index, listed⟩ := List.mem_iff_getElem?.mp member
  obtain ⟨accepted, rfl⟩ := idle _ member
  obtain ⟨_, unlisted, cleared⟩ := inv.tables.fits index connection _ listed
  refine ⟨unlisted, fun channel joined => ?_, cleared⟩
  rw [linked, cleared] at joined
  exact Finset.notMem_empty channel joined

def phone : Connection := ⟨1, "u", "s", "p"⟩

def laptop : Connection := ⟨2, "u", "t", "l"⟩

/-- The laptop joins the channel while the phone, on its way out, waits for
the command that left it; the phone's loop goes on afterwards. -/
def crossing : List Action :=
  [.call (.register phone) [], .resume 0 [], .call (.subscribe phone "conv:5") [], .resume 1 [],
    .call (.unregister phone) ["conv:5", "user:u"], .call (.register laptop) [],
    .call (.subscribe laptop "conv:5") [], .takeEffect, .resume 4 [], .resume 2 [], .resume 2 [],
    .resume 3 [], .resume 3 []]

theorem crossing_consistent : ∃ final,
    run step { manager := started } crossing = some final ∧
      laptop ∈ final.manager.members "conv:5" ∧ "conv:5" ∈ final.manager.settled ∧
      final.manager.subscriptions phone = ∅ := by
  have result : (run step { manager := started } crossing).map (fun final =>
      (decide (laptop ∈ final.manager.members "conv:5"),
        decide (.unregister phone ∈ calls final), final.tasks.map Task.progress)) =
      some (true, true, [.returned true, .returned true, .returned true, .returned true,
        .returned true]) := by
    decide +kernel
  obtain ⟨final, ran, outcome⟩ := Option.map_eq_some_iff.mp result
  obtain ⟨joined, others⟩ := Prod.mk.inj outcome
  obtain ⟨ended, answers⟩ := Prod.mk.inj others
  have member : laptop ∈ final.manager.members "conv:5" := by simpa using joined
  have idle : ∀ task ∈ final.tasks, ∃ accepted, task.progress = .returned accepted := by
    intro task listed
    have answered : task.progress ∈ final.tasks.map Task.progress := List.mem_map_of_mem listed
    rw [answers] at answered
    exact ⟨true, by simpa using answered⟩
  obtain ⟨_, filled, redis, gone⟩ :=
    registry_consistent crossing final ran (by decide +kernel) idle
  have served : (final.manager.byChannel "conv:5").isSome = true := by
    cases found : final.manager.byChannel "conv:5" with
    | none => simp [Manager.members, found] at member
    | some _ => rfl
  refine ⟨final, ran, member, (redis "conv:5" (by decide)).mp served, (gone phone ?_).2.2⟩
  simpa using ended

end Steps

end RunnerupChat.ConnectionManager
