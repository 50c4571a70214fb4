import RunnerupChat.EventDelivery

/-!
`ws/manager.py`: what a subscribed connection is sent. Once Redis has taken
the SUBSCRIBE of a channel and as long as the connection stays in its set,
no event of the channel is lost, sent twice or overtaken by a later one.
-/

namespace RunnerupChat.ConnectionManager

def Command.channel : Command → String
  | .subscribe channel | .unsubscribe channel => channel

/-- Redis sends the channel, and no command that was issued is about it. -/
structure Manager.Live (manager : Manager) (channel : String) : Prop where
  subscribed : channel ∈ manager.subscribed
  quiet : ∀ command ∈ manager.pending, command.channel ≠ channel

section Commands
variable {manager after : Manager} {connection member : Connection} {channel place : String}

theorem issue_live (live : manager.Live channel) {command : Command}
    (apart : command.channel ≠ channel) : (manager.issue command).Live channel := by
  refine ⟨live.subscribed, fun other issued => ?_⟩
  rcases List.mem_append.mp issued with old | new
  · exact live.quiet other old
  · rw [List.mem_singleton.mp new]
    exact apart

theorem take_effect_live (live : manager.Live channel) : manager.takeEffect.Live channel := by
  unfold Manager.takeEffect
  split
  · exact live
  · rename_i command later queued
    have apart := live.quiet command (by simp [queued])
    refine ⟨?_, fun other waiting => live.quiet other (by simp [queued, waiting])⟩
    cases command with
    | subscribe other => exact Finset.mem_insert_of_mem live.subscribed
    | unsubscribe other => exact Finset.mem_erase.mpr ⟨fun same => apart same.symm, live.subscribed⟩

/-- The channel has a set already, so no SUBSCRIBE is issued for it. -/
theorem subscribe_live (live : manager.Live channel) (held : member ∈ manager.members channel) :
    (manager.subscribe connection place).Live channel := by
  have linked : (manager.link connection place).Live channel := ⟨live.subscribed, live.quiet⟩
  simp only [Manager.subscribe]
  split
  · rename_i first
    refine issue_live linked fun same => ?_
    have same : place = channel := same
    subst same
    rw [Manager.members, Option.isNone_iff_eq_none.mp first] at held
    exact absurd held (Finset.notMem_empty member)
  · exact linked

theorem removal_live (live : manager.Live channel) {remaining : Finset Connection}
    (unchanged : after.subscribed = manager.subscribed ∧ after.pending = manager.pending)
    (left : after.members place = remaining) (held : member ∈ after.members channel) :
    (if remaining = ∅ then after.issue (.unsubscribe place) else after).Live channel := by
  have kept : after.Live channel :=
    ⟨unchanged.1 ▸ live.subscribed, unchanged.2 ▸ live.quiet⟩
  split
  · rename_i none
    refine issue_live kept fun same => ?_
    have same : place = channel := same
    subst same
    rw [left, none] at held
    exact absurd held (Finset.notMem_empty member)
  · exact kept

theorem erased_members {remaining : Finset Connection} :
    Manager.members { manager with
      byChannel := Function.update manager.byChannel place (unlessEmpty remaining) } place =
      remaining := by
  simp [Manager.members]

theorem unsubscribe_live (live : manager.Live channel)
    (held : member ∈ (manager.unsubscribe connection place).members channel) :
    (manager.unsubscribe connection place).Live channel := by
  have inside : member ∈ Manager.members { manager with
      byChannel := Function.update manager.byChannel place
        (unlessEmpty ((manager.members place).erase connection))
      subscriptions := Function.update manager.subscriptions connection
        ((manager.subscriptions connection).erase place) } channel := by
    unfold Manager.unsubscribe at held
    dsimp only at held
    split at held <;> exact held
  exact removal_live live ⟨rfl, rfl⟩ erased_members inside

theorem leave_live (live : manager.Live channel)
    (held : member ∈ (manager.leave connection place).members channel) :
    (manager.leave connection place).Live channel := by
  have inside : member ∈ Manager.members { manager with
      byChannel := Function.update manager.byChannel place
        (unlessEmpty ((manager.members place).erase connection)) } channel := by
    unfold Manager.leave at held
    dsimp only at held
    split at held <;> exact held
  exact removal_live live ⟨rfl, rfl⟩ erased_members inside

theorem drain_live (channels : List String) (live : manager.Live channel)
    (held : member ∈ (manager.drain connection channels).1.members channel) :
    (manager.drain connection channels).1.Live channel := by
  induction channels generalizing manager with
  | nil => exact live
  | cons place rest ih =>
      simp only [Manager.drain] at held ⊢
      split at held
      · rename_i last
        rw [if_pos last]
        exact leave_live live held
      · rename_i more
        rw [if_neg more]
        exact ih (leave_live live (Replicas.drain_members rest held)) held

end Commands

section Steps
variable {state next : State} {connection member : Connection} {channel : String} {index : Nat}
  {order : List String} {call : Call}

theorem continue_live {manager : Manager} {channels : List String} (live : manager.Live channel)
    (held : member ∈ (continueLoop state index connection manager channels).manager.members channel) :
    (continueLoop state index connection manager channels).manager.Live channel := by
  have drained : member ∈ (manager.drain connection channels).1.members channel →
      (manager.drain connection channels).1.Live channel := drain_live channels live
  unfold continueLoop at held ⊢
  split at held
  · rename_i result
    rw [result] at drained
    exact drained held
  · rename_i result
    rw [result] at drained
    have left := drained held
    exact ⟨left.subscribed, left.quiet⟩

theorem entered_live (live : state.manager.Live channel)
    (before : member ∈ state.manager.members channel) (held : member ∈ next.manager.members channel)
    (entered : Entered state index call next) : next.manager.Live channel := by
  cases entered with
  | refused connection => exact live
  | registered connection =>
      have added : (state.manager.addUser connection).Live channel :=
        ⟨live.subscribed, live.quiet⟩
      exact subscribe_live added before
  | leaving connection order =>
      have removed : (state.manager.removeUser connection).Live channel :=
        ⟨live.subscribed, live.quiet⟩
      exact continue_live removed held

theorem step_live {action : Action} (live : state.manager.Live channel)
    (before : member ∈ state.manager.members channel) (held : member ∈ next.manager.members channel)
    (taken : step state action = some next) : next.manager.Live channel := by
  cases action with
  | call call order =>
      cases begin_cases taken with
      | entered _ _ free entered =>
          have made : (made state call).manager.Live channel := live
          exact entered_live made before held entered
      | queued => exact live
      | subscribed connection place => exact subscribe_live live before
      | unsubscribed connection place => exact unsubscribe_live live held
  | resume index order =>
      obtain ⟨task, found, resumed⟩ := Option.bind_eq_some_iff.mp taken
      cases resume_cases resumed with
      | entered call _ turn entered =>
          have tailed : { state with queue := state.queue.tail }.manager.Live channel := live
          exact entered_live tailed before held entered
      | continued connection rest => exact continue_live live held
      | finished call => exact live
  | takeEffect =>
      cases taken
      exact take_effect_live live

end Steps

end RunnerupChat.ConnectionManager

namespace RunnerupChat.EventDelivery

open Accounts Authz ConnectionManager Replicas SocketFrames

section Feed
variable {Place Digest : Type}

/-- The event is one that the connection is to be sent. -/
def Reaches (connection : Connection) (text : String) (event : Event Digest) : Prop :=
  event.text = text ∧ event.kind ≠ "session.revoked" ∧ event.origin ≠ some connection.connectionId

instance (connection : Connection) (text : String) :
    DecidablePred (Reaches connection text : Event Digest → Prop) :=
  fun event => inferInstanceAs (Decidable (_ ∧ _ ∧ event.origin ≠ _))

/-- The delivery is one of the conversation to the connection. -/
def Hits (connection : Connection) (text : String) (delivery : Delivery Digest) : Prop :=
  connection ∈ delivery.recipients ∧ delivery.event.text = text

instance (connection : Connection) (text : String) :
    DecidablePred (Hits connection text : Delivery Digest → Prop) :=
  fun delivery => inferInstanceAs (Decidable (_ ∧ delivery.event.text = _))

/-- What the connection was sent of a conversation, in order. -/
def received (connection : Connection) (text : String) (state : State Place Digest) :
    List (Event Digest) :=
  (state.deliveries.filter fun delivery => Hits connection text delivery).map Delivery.event

/-- What its replica has still to relay to it. -/
def waiting (place : Place) (connection : Connection) (text : String)
    (state : State Place Digest) : List (Event Digest) :=
  (state.replicas place).inbox.filter fun event => Reaches connection text event

/-- What a step publishes for the connection. -/
def announced (connection : Connection) (text : String) (state : State Place Digest)
    (action : Action Place Digest) (_ : State Place Digest) : List (Event Digest) :=
  match action with
  | .publish text' kind origin =>
      [⟨text', kind, origin, state.tables, state.now⟩].filter fun event =>
        Reaches connection text event
  | _ => []

/-- The connection is subscribed, at its own replica. -/
structure Stays (place : Place) (connection : Connection) (text : String)
    (state : State Place Digest) : Prop where
  member : connection ∈
    (state.replicas place).registry.manager.members (conversationChannel text)
  home : ∀ elsewhere, elsewhere ≠ place → connection ∉
    (state.replicas elsewhere).registry.manager.members (conversationChannel text)

/-- Redis sends the conversation to the replica. -/
def Live (place : Place) (text : String) (state : State Place Digest) : Prop :=
  (state.replicas place).registry.manager.Live (conversationChannel text)

end Feed

section Steps
variable {Place Digest : Type} [DecidableEq Place] [DecidableEq Digest]
  {conversions : Conversions} {place : Place} {connection : Connection} {text : String}
  {state next : State Place Digest}

omit [DecidableEq Digest] in
theorem registry_feeds {elsewhere : Place} {work : ConnectionManager.Action}
    {registry : ConnectionManager.State}
    (moved : ConnectionManager.step (state.replicas elsewhere).registry work = some registry)
    (live : Live place text state) (stays : Stays place connection text state)
    (after : connection ∈ (withRegistry state.replicas elsewhere registry
      place).registry.manager.members (conversationChannel text)) :
    (withRegistry state.replicas elsewhere registry place).registry.manager.Live
      (conversationChannel text) := by
  by_cases here : place = elsewhere
  · subst here
    rw [registry_self] at after ⊢
    exact step_live live stays.member after moved
  · rw [registry_other registry here]
    exact live

omit [DecidableEq Place] [DecidableEq Digest] in
/-- A relayed event goes to the connection exactly if it is for it. -/
theorem relayed_hits (stays : Stays place connection text state) (event : Event Digest) :
    Hits connection text
        ⟨event, recipients (state.replicas place).registry.manager event⟩ ↔
      Reaches connection text event := by
  simp only [Hits, Reaches, recipients]
  constructor
  · rintro ⟨sent, rfl⟩
    split at sent
    · exact absurd sent (Finset.notMem_empty connection)
    · rename_i other
      exact ⟨rfl, other, (Finset.mem_filter.mp sent).2⟩
  · rintro ⟨rfl, other, foreign⟩
    rw [if_neg other]
    exact ⟨Finset.mem_filter.mpr ⟨stays.member, foreign⟩, rfl⟩

omit [DecidableEq Place] [DecidableEq Digest] in
theorem elsewhere_misses (stays : Stays place connection text state) {elsewhere : Place}
    (apart : elsewhere ≠ place) (event : Event Digest) :
    ¬Hits connection text
      ⟨event, recipients (state.replicas elsewhere).registry.manager event⟩ := by
  rintro ⟨sent, rfl⟩
  simp only [recipients] at sent
  split at sent
  · exact Finset.notMem_empty connection sent
  · exact stays.home elsewhere apart (Finset.mem_filter.mp sent).1

omit [DecidableEq Place] [DecidableEq Digest] in
theorem received_delivered {delivery : Delivery Digest}
    (appended : next.deliveries = state.deliveries ++ [delivery]) :
    received connection text next = received connection text state ++
      if Hits connection text delivery then [delivery.event] else [] := by
  unfold received
  rw [appended, List.filter_append, List.map_append, List.filter_singleton]
  by_cases hits : Hits connection text delivery <;> simp [hits]

/-- A relay moves the first event of an inbox to those it is for. -/
theorem relay_feeds {elsewhere : Place} (stays : Stays place connection text state)
    (taken : step conversions state (.relay elsewhere) = some next) :
    received connection text next ++ waiting place connection text next =
      received connection text state ++ waiting place connection text state := by
  simp only [step] at taken
  split at taken
  · cases taken
  · rename_i event later queued
    obtain rfl := Option.some.inj taken
    rw [received_delivered rfl]
    by_cases here : place = elsewhere
    · subst here
      simp only [waiting, inbox_self, queued, List.filter_cons, relayed_hits stays]
      by_cases reaches : Reaches connection text event <;> simp [reaches, received]
    · have apart : elsewhere ≠ place := fun same => here same.symm
      simp only [waiting, inbox_other later here, if_neg (elsewhere_misses stays apart event),
        List.append_nil]

theorem publish_feeds (live : Live place text state) (other kind : String) (origin : Option Nat)
    (taken : step conversions state (.publish other kind origin) = some next) :
    received connection text next ++ waiting place connection text next =
      received connection text state ++ waiting place connection text state ++
        announced connection text state (.publish other kind origin) next := by
  obtain rfl := Option.some.inj taken
  simp only [announced, List.append_assoc]
  congr 1
  by_cases same : other = text
  · subst same
    have listens : isSubscribed (state.replicas place) (conversationChannel other) = true :=
      decide_eq_true live.subscribed
    simp only [waiting, publish, listens, if_true, List.filter_append]
  · have foreign : ¬Reaches connection text
        (⟨other, kind, origin, state.tables, state.now⟩ : Event Digest) := fun reaches =>
      same reaches.1
    simp only [waiting, publish]
    split <;> simp [foreign]

theorem step_feeds {action : Action Place Digest} (live : Live place text state)
    (stays : Stays place connection text state) (after : Stays place connection text next)
    (taken : step conversions state action = some next) :
    Live place text next ∧
      received connection text next ++ waiting place connection text next =
        received connection text state ++ waiting place connection text state ++
          announced connection text state action next := by
  cases action with
  | change tables now =>
      simp only [step] at taken
      split at taken
      · cases taken
        exact ⟨live, (List.append_nil _).symm⟩
      · cases taken
  | subscribe elsewhere other frame =>
      obtain rfl := Option.some.inj taken
      have same : ∀ response, (authorize state elsewhere response).replicas = state.replicas ∧
          (authorize state elsewhere response).deliveries = state.deliveries := by
        intro response
        unfold authorize
        split <;> exact ⟨rfl, rfl⟩
      have kept := same (handleSubscribe conversions state.tables state.now other frame)
      simp only [Live, received, waiting, kept.1, kept.2]
      exact ⟨live, (List.append_nil _).symm⟩
  | proceed index =>
      obtain ⟨asked, found, moved⟩ := Option.bind_eq_some_iff.mp taken
      obtain ⟨registry, begun, rfl⟩ := Option.map_eq_some_iff.mp moved
      have moved : ConnectionManager.step (state.replicas asked.place).registry (.call asked.call []) =
          some registry := begun
      refine ⟨registry_feeds moved live stays after.member, ?_⟩
      simp only [waiting, registry_inbox]
      exact (List.append_nil _).symm
  | work elsewhere action =>
      simp only [step] at taken
      split at taken
      · cases taken
      · obtain ⟨registry, moved, rfl⟩ := Option.map_eq_some_iff.mp taken
        refine ⟨registry_feeds moved live stays after.member, ?_⟩
        simp only [waiting, registry_inbox]
        exact (List.append_nil _).symm
  | publish other kind origin =>
      refine ⟨?_, publish_feeds live other kind origin taken⟩
      obtain rfl := Option.some.inj taken
      simpa only [Live, publish_registry] using live
  | relay elsewhere =>
      refine ⟨?_, (relay_feeds stays taken).trans (List.append_nil _).symm⟩
      simp only [step] at taken
      split at taken
      · cases taken
      · obtain rfl := Option.some.inj taken
        simpa only [Live, inbox_registry] using live

/-- As long as a connection stays in the set of a conversation that Redis
sends to its replica, it is sent every event that is published, once and in
order, but for those still waiting to be relayed. -/
theorem delivered_in_order (conversions : Conversions) (place : Place) (connection : Connection)
    (text : String) (earlier later : State Place Digest) (actions : List (Action Place Digest))
    (ran : Runs.run (step conversions) earlier actions = some later)
    (live : Live place text earlier)
    (stays : ∀ visited, Runs.Visits (step conversions) earlier actions visited →
      Stays place connection text visited) :
    received connection text later ++ waiting place connection text later =
      received connection text earlier ++ waiting place connection text earlier ++
        Runs.observed (step conversions) (announced connection text) earlier actions := by
  have meets : Runs.Meets (step conversions) (fun state action =>
      ∀ next, step conversions state action = some next → Stays place connection text next)
      earlier actions := by
    refine Runs.meets_of_visits ?_
    rintro before action after rfl visited reached next taken
    refine stays next ⟨before ++ [action], after, by simp, ?_⟩
    exact (Runs.run_append_iff _ _ _ _).mpr
      ⟨visited, reached, (Runs.run_single visited next action).mpr taken⟩
  have begins := stays earlier ⟨[], actions, rfl, rfl⟩
  refine (Runs.observed_invariant (fun _ state seen => Live place text state ∧
    Stays place connection text state ∧
      received connection text state ++ waiting place connection text state =
        received connection text earlier ++ waiting place connection text earlier ++ seen)
    (announced connection text) ?_ ran meets ⟨live, begins, (List.append_nil _).symm⟩).2.2
  rintro _ state seen action next ⟨sends, inside, so⟩ onward taken
  obtain ⟨still, fed⟩ := step_feeds sends inside (onward next taken) taken
  exact ⟨still, onward next taken, by rw [fed, so, List.append_assoc]⟩

/-- Publications and relays leave the sets as they are. -/
theorem traffic_stays {actions : List (Action Place Digest)}
    (traffic : ∀ action ∈ actions, (∃ other kind origin, action = .publish other kind origin) ∨
      ∃ elsewhere, action = .relay elsewhere)
    (ran : Runs.run (step conversions) state actions = some next)
    (stays : Stays place connection text state) : Stays place connection text next := by
  refine Runs.guarded_invariant (Stays place connection text) ?_ ran
    (Runs.meets_of_all traffic) stays
  rintro before action after inside (⟨other, kind, origin, rfl⟩ | ⟨elsewhere, rfl⟩) taken
  · obtain rfl := Option.some.inj taken
    refine ⟨?_, fun elsewhere apart => ?_⟩
    · simpa only [publish_registry] using inside.member
    · simpa only [publish_registry] using inside.home elsewhere apart
  · simp only [step] at taken
    split at taken
    · cases taken
    · obtain rfl := Option.some.inj taken
      refine ⟨?_, fun elsewhere apart => ?_⟩
      · simpa only [inbox_registry] using inside.member
      · simpa only [inbox_registry] using inside.home elsewhere apart

end Steps

section Examples

/-- Of two events the browser sent the second itself. -/
def news : List (Action Unit Nat) :=
  [.publish "5" "message.created" none, .publish "5" "typing" (some browser.connectionId),
    .relay ()]

instance (channel : String) (manager : Manager) : Decidable (manager.Live channel) :=
  decidable_of_iff (channel ∈ manager.subscribed ∧
      ∀ command ∈ manager.pending, command.channel ≠ channel)
    ⟨fun live => ⟨live.1, live.2⟩, fun live => ⟨live.subscribed, live.quiet⟩⟩

theorem browser_in_order : ∃ earlier later,
    Runs.run (step digits) earlier news = some later ∧
      (received browser "5" later).map Event.kind = ["message.created"] ∧
      received browser "5" later ++ waiting () browser "5" later =
        received browser "5" earlier ++ waiting () browser "5" earlier ++
          Runs.observed (step digits) (announced browser "5") earlier news := by
  have opening : (Runs.run (step digits) ({ tables := reading, now := 0 } : State Unit Nat)
      (joined ++ [asked] ++ subscribed)).map (fun state =>
        decide ((state.replicas ()).registry.manager.Live (conversationChannel "5") ∧
          browser ∈ (state.replicas ()).registry.manager.members (conversationChannel "5"))) =
      some true := by
    decide +kernel
  have result : (Runs.run (step digits) ({ tables := reading, now := 0 } : State Unit Nat)
      (joined ++ [asked] ++ subscribed ++ news)).map
        (fun final => (received browser "5" final).map Event.kind) = some ["message.created"] := by
    decide +kernel
  obtain ⟨earlier, ready, outcome⟩ := Option.map_eq_some_iff.mp opening
  obtain ⟨live, member⟩ := of_decide_eq_true outcome
  obtain ⟨later, ran, kinds⟩ := Option.map_eq_some_iff.mp result
  have onward := Runs.run_after ran ready
  refine ⟨earlier, later, onward, kinds,
    delivered_in_order digits () browser "5" earlier later news onward live ?_⟩
  rintro visited ⟨before, after, split, reached⟩
  refine traffic_stays (fun action inside => ?_) reached ⟨member, fun _ apart => absurd rfl apart⟩
  have listed : action ∈ news := split ▸ List.mem_append_left after inside
  simp only [news, List.mem_cons, List.not_mem_nil, or_false] at listed
  rcases listed with rfl | rfl | rfl
  · exact Or.inl ⟨_, _, _, rfl⟩
  · exact Or.inl ⟨_, _, _, rfl⟩
  · exact Or.inr ⟨_, rfl⟩

end Examples

end RunnerupChat.EventDelivery
