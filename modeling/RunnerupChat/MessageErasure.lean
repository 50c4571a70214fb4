import RunnerupChat.EventSync

/-!
What is left of a deleted message. The deletion clears its row, but the events
that announced and edited it keep the bodies they carried, and a sync call
from an early cursor serves them.
-/

namespace RunnerupChat.MessageStore

open Accounts UniqueKeys

/-- The response contains this body text of the message. -/
def Response.Shows (response : Response) (message : Uuid) (body : String) : Prop :=
  match response with
  | .listed _ items | .found _ items => ∃ item ∈ items, item.id = message ∧ item.body = some body
  | .synced call => ∃ event ∈ call.events, event.payload.shows message body

def Payload.body : Payload → Option String
  | .message out => out.body
  | .deletion _ _ => none

theorem shows_body {payload : Payload} {message : Uuid} {body : String}
    (shows : payload.shows message body) : payload.body = some body := by
  cases payload with
  | message out => exact shows.2
  | deletion id byModerator => exact shows.elim

/-- The next commit of the transaction deletes the message. -/
def Deletes (state : State) (tx : TxId) (message : Uuid) : Prop :=
  ∃ startedAt revision seq eventId,
    state.txs tx = some ⟨startedAt, .logged (.revise revision) seq eventId⟩ ∧
      revision.type = .deleted ∧ revision.loaded.id = message

section Histories
variable (searchMatches : String → String → Bool)

/-- In some committed state of the run the message had this body. -/
def Had (actions : List Action) (message : Uuid) (body : String) : Prop :=
  ∃ visited, Runs.Visits (step searchMatches) initial actions visited ∧
    ∃ row ∈ visited.messages, row.id = message ∧ row.body = some body

/-- However the system goes on, nothing it serves contains one of these bodies. -/
def Forgets (state : State) (message : Uuid) (bodies : String → Prop) : Prop :=
  ∀ later final, Runs.run (step searchMatches) state later = some final →
    ∀ response, Entry.served response ∈ final.journal.drop state.journal.length →
      ∀ body, bodies body → ¬response.Shows message body

end Histories

section Replay
variable (searchMatches : String → String → Bool) {state : State}

/-- One user joins the conversation, lets the event grow old and syncs from
the id before it. -/
def replay (event : ConversationEvent) : List Action :=
  [.setMembers [⟨event.conversationId, 0, .active, none⟩],
    .advance (event.createdAt + second + 1), .receive 0 (.sync 0 0 (event.id - 1) 1), .examine 0]

theorem event_id_positive (inv : Inv state) {event : ConversationEvent}
    (member : event ∈ state.events) : 0 < event.id := by
  have drawn := inv.log.ids.drawnKeys event.id
    (List.mem_map_of_mem (List.mem_map_of_mem (f := entryOf) member))
  exact (List.mem_range'_1.mp drawn).1

/-- A page that starts just below the event shows it. -/
theorem replayed_first (inv : Inv state) {event : ConversationEvent}
    (member : event ∈ state.events) {conversations : List Uuid} {now : Time}
    (allowed : servable conversations now event = true) :
    event ∈ KeysetPage.page ConversationEvent.id (event.id - 1) 1
      (state.events.filter (servable conversations now)) := by
  have distinct : ((state.events.filter (servable conversations now)).map
      ConversationEvent.id).Nodup :=
    (event_ids_distinct inv).sublist (List.filter_sublist.map _)
  exact KeysetPage.page_just_before distinct (List.mem_filter.mpr ⟨member, allowed⟩)
    (event_id_positive inv member)

/-- A free transaction number: whatever request held it is cut off. -/
theorem cut_off (state : State) : ∃ actions ready,
    Runs.run (step searchMatches) state actions = some ready ∧ ready.txs 0 = none ∧
      ready.events = state.events ∧ ready.journal = state.journal := by
  cases held : state.txs 0 with
  | none => exact ⟨[], state, rfl, held, rfl, rfl⟩
  | some transaction =>
      have cut : Runs.run (step searchMatches) state [.rollback 0] = some (close state 0) := by
        simp [Runs.run_single, step, held]
      exact ⟨_, _, cut, assign_same state.txs 0 none, rfl, rfl⟩

theorem replay_serves (inv : Inv state) (idle : state.txs 0 = none) {event : ConversationEvent}
    (member : event ∈ state.events) : ∃ final call,
      Runs.run (step searchMatches) state (replay event) = some final ∧
        final.journal = state.journal ++ [.served (.synced call)] ∧ event ∈ call.events := by
  let now := state.clock + (event.createdAt + second + 1)
  let joined : State :=
    { state with members := [⟨event.conversationId, 0, .active, none⟩], clock := now }
  let asking := enter joined 0 now (.received (.sync 0 0 (event.id - 1) 1))
  let call := syncEvents asking 0 0 now (event.id - 1) 1
  have asked : receive joined 0 (.sync 0 0 (event.id - 1) 1) = some asking := by
    simp only [receive, joined, idle]
    rfl
  have answered : examine asking 0 = some (finish asking 0 (.served (.synced call))) := by
    simp only [examine, asking, enter, assign_same]
    rfl
  refine ⟨finish asking 0 (.served (.synced call)), call, ?_, rfl, ?_⟩
  · apply (Runs.run_cons_iff _ _ _ _).mpr ⟨{ joined with clock := state.clock }, rfl, ?_⟩
    apply (Runs.run_cons_iff _ _ _ _).mpr ⟨joined, rfl, ?_⟩
    apply (Runs.run_cons_iff _ _ _ _).mpr ⟨asking, asked, ?_⟩
    exact (Runs.run_single _ _ _).mpr answered
  -- the pause outlasts the hold-back, whatever the age of the event
  · have old : event.createdAt + second < now := by
      show event.createdAt + second < state.clock + (event.createdAt + second + 1)
      exact Nat.lt_of_lt_of_le (Nat.lt_succ_self _) (Nat.le_add_left _ _)
    have joins : (memberConversations asking 0).contains event.conversationId = true := by
      simp [memberConversations, asking, enter, joined]
    apply replayed_first inv member
    rw [servable, joins, decide_eq_true old]
    rfl

/-- Every committed event can still be served. -/
theorem served_again (inv : Inv state) {event : ConversationEvent}
    (member : event ∈ state.events) : ∃ later final call,
      Runs.run (step searchMatches) state later = some final ∧
        Entry.served (.synced call) ∈ final.journal.drop state.journal.length ∧
        event ∈ call.events := by
  obtain ⟨cut, ready, freed, idle, events, journal⟩ :=
    cut_off searchMatches state
  have still := Runs.run_invariant Inv step_inv freed inv
  obtain ⟨final, call, asked, answered, served⟩ :=
    replay_serves searchMatches still idle (events ▸ member)
  refine ⟨cut ++ replay event, final, call, ?_, ?_, served⟩
  · exact (Runs.run_append_iff _ _ _ _).mpr ⟨ready, freed, asked⟩
  · rw [answered, journal, List.drop_left]
    exact List.mem_singleton_self _

/-- A body the message had in a committed state was published by an event. -/
theorem had_published {actions : List Action} {message : Uuid} {body : String}
    (ran : Runs.run (step searchMatches) initial actions = some state)
    (had : Had searchMatches actions message body) :
    ∃ event ∈ state.events, event.payload.shows message body := by
  obtain ⟨visited, visits, row, stored, same, held⟩ := had
  obtain ⟨before, rest, reached, onward⟩ := Runs.visits_between ran visits
  have inv := run_inv reached
  obtain ⟨event, published, shows⟩ := inv.announced.shown row stored body held
  exact ⟨event, (run_appends inv onward).subset published, same ▸ shows⟩

theorem deletes_commits {tx : TxId} {message : Uuid} (deleting : Deletes state tx message) :
    ∃ next, step searchMatches state (.commit tx) = some next := by
  obtain ⟨startedAt, revision, seq, eventId, ready, _⟩ := deleting
  apply Option.isSome_iff_exists.mp
  simp [step, commit, ready]

/-- A committed deletion forgets the message exactly when it had no body text
in any committed state before. -/
theorem forgets_iff (searchMatches : String → String → Bool) (actions : List Action)
    (state : State) (ran : Runs.run (step searchMatches) initial actions = some state)
    (tx : TxId) (message : Uuid) (deleting : Deletes state tx message) :
    ∃ next, step searchMatches state (.commit tx) = some next ∧
      (Forgets searchMatches next message (Had searchMatches actions message) ↔
        ∀ body, ¬Had searchMatches actions message body) := by
  obtain ⟨next, taken⟩ := deletes_commits searchMatches deleting
  have inv := run_inv ran
  have after := step_inv state (.commit tx) next inv taken
  refine ⟨next, taken, ?_, ?_⟩
  · intro forgets body had
    obtain ⟨event, published, shows⟩ := had_published _ ran had
    -- the deletion appends its own event and leaves this one
    have kept := (effect_appends (step_effect inv.phases taken)).subset published
    obtain ⟨later, final, call, asked, served, found⟩ :=
      served_again searchMatches after kept
    exact forgets later final asked (.synced call) served body had ⟨event, found, shows⟩
  · intro never later final _ response _ body had
    exact absurd had (never body)

end Replay

/-- A deletion up to its event row. -/
def deletion (tx : TxId) (conversation id : Uuid) : List Action :=
  [.receive tx (.delete (granted conversation) id), .examine tx, .allocateSeq tx, .logEvent tx]

/-- A text, up to its deletion. -/
def greetingSent : List Action :=
  [.addConversation 1] ++ sendText 1 1 30 10 "hello" 0 ++ [.commit 1]

/-- User 0 joins conversation 1 and asks for all events. -/
def readBack : List Action :=
  [.setMembers [⟨1, 0, .active, none⟩], .advance 2000000, .receive 3 (.sync 0 0 0 200), .examine 3]

/-- A picture without a caption. -/
def picture : List Action :=
  [.addConversation 1, .receive 1 (.send (granted 1) (some 30) none .image none []), .examine 1,
    .enforceBudget 1 0, .enforceBudget 1 0, .proceed 1, .selectAttachments 1, .allocateSeq 1,
    .flush 1 10, .logEvent 1, .commit 1] ++ deletion 2 1 10

set_option maxRecDepth 4000 in
theorem picture_forgotten : ∃ state next, Runs.run (step sameText) initial picture = some state ∧
    step sameText state (.commit 2) = some next ∧
      Forgets sameText next 10 (Had sameText picture 10) := by
  obtain ⟨state, ran, deleting, bodies⟩ : ∃ state,
      Runs.run (step sameText) initial picture = some state ∧ Deletes state 2 10 ∧
        state.events.map (fun event => event.payload.body) = [none] :=
    ⟨_, rfl, ⟨_, _, _, _, rfl, rfl, rfl⟩, rfl⟩
  obtain ⟨next, taken, same⟩ := forgets_iff sameText picture state ran 2 10 deleting
  refine ⟨state, next, ran, taken, same.mpr ?_⟩
  intro body had
  obtain ⟨event, member, shows⟩ := had_published _ ran had
  have carried := List.mem_map_of_mem (f := fun event => event.payload.body) member
  rw [bodies, shows_body shows] at carried
  cases List.mem_singleton.mp carried

set_option maxRecDepth 4000 in
theorem greeting_remembered : ¬∀ (actions : List Action) (state : State),
    Runs.run (step sameText) initial actions = some state →
      ∀ tx message, Deletes state tx message →
        ∃ next, step sameText state (.commit tx) = some next ∧
          Forgets sameText next message (Had sameText actions message) := by
  intro claimed
  obtain ⟨sent, state, after, reached, ran, deleting, committed, said⟩ : ∃ sent state after,
      Runs.run (step sameText) initial greetingSent = some sent ∧
        Runs.run (step sameText) initial (greetingSent ++ deletion 2 1 10) = some state ∧
        Deletes state 2 10 ∧ step sameText state (.commit 2) = some after ∧
        (∃ row ∈ sent.messages, row.id = 10 ∧ row.body = some "hello") ∧
        ∃ final response, Runs.run (step sameText) after readBack = some final ∧
          Entry.served response ∈ final.journal.drop after.journal.length ∧
          response.Shows 10 "hello" :=
    ⟨_, _, _, rfl, rfl, ⟨_, _, _, _, rfl, rfl, rfl⟩, rfl,
      ⟨_, List.mem_cons_self, rfl, rfl⟩, _, _, rfl, List.mem_cons_self,
      ⟨_, List.mem_cons_self, rfl, rfl⟩⟩
  obtain ⟨stored, final, response, asked, served, shown⟩ := said
  obtain ⟨next, taken, forgets⟩ := claimed _ state ran 2 10 deleting
  obtain rfl : after = next := Option.some.inj (committed.symm.trans taken)
  have had : Had sameText (greetingSent ++ deletion 2 1 10) 10 "hello" :=
    ⟨sent, ⟨greetingSent, deletion 2 1 10, rfl, reached⟩, stored⟩
  exact forgets readBack final asked response served "hello" had shown

end RunnerupChat.MessageStore
