import RunnerupChat.EventOrder
import RunnerupChat.KeysetPage

/-!
What a client that polls `sync_events` receives. Ids are drawn before the
commit and the hold-back looks at the start of the transaction, so a call can
serve an event while a lower one is still to come; the cursor then passes it.
-/

namespace RunnerupChat.MessageStore

open Accounts

def Entry.event : Entry → Option ConversationEvent
  | .logged event => some event
  | .served _ | .answered _ _ | .published _ => none

/-- A sync call as a page of the events committed by then. -/
def pageOf (seen : List ConversationEvent) (call : SyncCall) : KeysetPage.Call ConversationEvent :=
  { servable := seen.filter (servable call.conversations call.now), after := call.afterId,
    limit := call.limit, served := call.events, cursor := call.cursor }

/-- The sync calls of a client, each with what was committed before it. -/
def callsFrom (client : Uuid) (seen : List ConversationEvent) :
    List Entry → List (List ConversationEvent × SyncCall)
  | [] => []
  | .logged event :: rest => callsFrom client (seen ++ [event]) rest
  | .served (.synced call) :: rest =>
      if call.client = client then (seen, call) :: callsFrom client seen rest
      else callsFrom client seen rest
  | .served (.listed _ _) :: rest | .served (.found _ _) :: rest => callsFrom client seen rest
  | .answered _ _ :: rest | .published _ :: rest => callsFrom client seen rest

def callsOf (client : Uuid) (state : State) : List (List ConversationEvent × SyncCall) :=
  callsFrom client [] state.journal

def pagesOf (client : Uuid) (state : State) : List (KeysetPage.Call ConversationEvent) :=
  (callsOf client state).map fun entry => pageOf entry.1 entry.2

/-- The events of some conversations. -/
def eventsIn (his : Uuid → Bool) (state : State) : List ConversationEvent :=
  state.events.filter fun event => his event.conversationId

/-- The client's user is a member of the same conversations at every call. -/
def Stays (client : Uuid) (his : Uuid → Bool) (state : State) : Prop :=
  ∀ entry ∈ callsOf client state, ∀ conversation,
    entry.2.conversations.contains conversation = his conversation

section Journal

theorem calls_append (client : Uuid) (seen : List ConversationEvent) (left right : List Entry) :
    callsFrom client seen (left ++ right) =
      callsFrom client seen left ++
        callsFrom client (seen ++ left.filterMap Entry.event) right := by
  -- `seen` grows by the events of the journal passed over
  induction left generalizing seen with
  | nil => simp [callsFrom]
  | cons entry rest ih =>
      cases entry with
      | logged event => simp [callsFrom, ih, Entry.event]
      | served response =>
          cases response with
          | listed user items | found user items =>
              simp [callsFrom, ih, Entry.event, List.filterMap_cons]
          | synced call =>
              simp only [List.cons_append, callsFrom, ih, Entry.event, List.filterMap_cons]
              split <;> rfl
      | answered tx answer | published broadcast =>
          simp [callsFrom, ih, Entry.event, List.filterMap_cons]

theorem plain_events {events : List ConversationEvent} {added : List Entry}
    (plain : ∀ entry ∈ added, entry.Plain events) : added.filterMap Entry.event = [] := by
  rw [List.filterMap_eq_nil_iff]
  intro entry member
  have here := plain entry member
  cases entry with
  | logged event => exact here.elim
  | served response | answered tx answer | published broadcast => rfl

theorem plain_calls {client : Uuid} {events : List ConversationEvent} {added : List Entry}
    (plain : ∀ entry ∈ added, entry.Plain events) :
    ∀ entry ∈ callsFrom client events added, entry.1 = events ∧ entry.2.Right events := by
  induction added with
  | nil => simp [callsFrom]
  | cons head rest ih =>
      have right := ih fun entry member => plain entry (List.mem_cons_of_mem _ member)
      have here := plain head List.mem_cons_self
      cases head with
      | logged event => exact here.elim
      | served response =>
          cases response with
          | listed user items | found user items => exact right
          | synced call =>
              intro entry member
              simp only [callsFrom] at member
              split at member
              · rcases List.mem_cons.mp member with rfl | later
                · exact ⟨rfl, here⟩
                · exact right entry later
              · exact right entry member
      | answered tx answer | published broadcast => exact right

/-- The journal holds the events in commit order, and every sync call in it
was answered by the events before it. -/
structure Recorded (state : State) : Prop where
  events : state.journal.filterMap Entry.event = state.events
  answered : ∀ client, ∀ entry ∈ callsOf client state,
    entry.1 <+: state.events ∧ entry.2.Right entry.1

theorem recorded_extend {state next : State} (recorded : Recorded state) {added : List Entry}
    (journal : next.journal = state.journal ++ added)
    (events : next.events = state.events ++ added.filterMap Entry.event)
    (right : ∀ client, ∀ entry ∈ callsFrom client state.events added,
      entry.1 <+: next.events ∧ entry.2.Right entry.1) : Recorded next := by
  constructor
  case events =>
    rw [journal, List.filterMap_append, recorded.events, events]
  case answered =>
    intro client entry member
    unfold callsOf at member
    rw [journal, calls_append, recorded.events, List.nil_append] at member
    rcases List.mem_append.mp member with old | new
    · obtain ⟨before, answered⟩ := recorded.answered client entry old
      rw [events]
      exact ⟨before.trans (List.prefix_append _ _), answered⟩
    · exact right client entry new

theorem effect_recorded {state next : State} (recorded : Recorded state)
    {action : Action} (effect : Effect state next action) : Recorded next := by
  cases effect with
  | idle frame | moved tx transaction frame =>
      obtain ⟨added, journal, plain⟩ := frame.journal
      apply recorded_extend recorded journal
      · rw [frame.events, plain_events plain, List.append_nil]
      · intro client entry member
        obtain ⟨same, answered⟩ := plain_calls plain entry member
        rw [frame.events, same] at *
        exact ⟨List.prefix_rfl, answered⟩
  | opened id absent result =>
      rw [result]
      exact ⟨recorded.events, recorded.answered⟩
  | allocated tx startedAt job seq phase ready current free held plain result =>
      rw [result]
      exact ⟨recorded.events, recorded.answered⟩
  | flushed tx startedAt draft seq id numbered fresh result =>
      rw [result]
      exact ⟨recorded.events, recorded.answered⟩
  | logged tx startedAt write seq writing result =>
      rw [result]
      exact ⟨recorded.events, recorded.answered⟩
  | committed tx startedAt write seq eventId ready result =>
      have fields := commit_fields ready result
      apply recorded_extend recorded fields.journal fields.events
      intro client entry member
      cases member

theorem run_recorded {searchMatches : String → String → Bool} {actions : List Action}
    {final : State} (ran : Runs.run (step searchMatches) initial actions = some final) :
    Recorded final := by
  apply run_keeps Recorded (fun _ _ _ _ recorded effect => effect_recorded recorded effect)
    initial_inv _ ran
  exact ⟨rfl, by simp [callsOf, initial, callsFrom]⟩

end Journal

section Reader
variable {state : State}

theorem event_ids_distinct (inv : Inv state) : (state.events.map ConversationEvent.id).Nodup := by
  have distinct := inv.log.ids.distinct
  simpa [sequenced, List.map_map, Function.comp_def, entryOf] using distinct

theorem pages_answered (recorded : Recorded state) (client : Uuid) :
    ∀ call ∈ pagesOf client state, call.Answered ConversationEvent.id := by
  intro call member
  obtain ⟨entry, inside, rfl⟩ := List.mem_map.mp member
  have right := (recorded.answered client entry inside).2
  exact ⟨right.served, right.cursor⟩

theorem pages_within (recorded : Recorded state) {client : Uuid} {his : Uuid → Bool}
    (stays : Stays client his state) :
    ∀ call ∈ pagesOf client state, call.servable.Sublist (eventsIn his state) := by
  intro call member
  obtain ⟨entry, inside, rfl⟩ := List.mem_map.mp member
  have seen := (recorded.answered client entry inside).1.sublist
  -- what the call may serve is in his conversations, so the filter keeps it
  have kept : (pageOf entry.1 entry.2).servable =
      (entry.1.filter (servable entry.2.conversations entry.2.now)).filter
        fun event => his event.conversationId := by
    symm
    apply List.filter_eq_self.mpr
    intro event found
    have allowed := (List.mem_filter.mp found).2
    simp only [servable, Bool.and_eq_true] at allowed
    rw [← stays entry inside]
    exact allowed.1
  rw [kept]
  exact (List.filter_sublist.trans seen).filter _

/-- A client that chains its calls receives every event up to its cursor, and
none twice, exactly when no call overtakes an event that is yet to become
servable. -/
theorem sync_complete_iff (searchMatches : String → String → Bool) (actions : List Action)
    (final : State) (ran : Runs.run (step searchMatches) initial actions = some final)
    (client : Uuid) (his : Uuid → Bool) (stays : Stays client his final) (first : Nat)
    (chained : KeysetPage.Chained first (pagesOf client final)) :
    KeysetPage.Complete ConversationEvent.id (eventsIn his final) first (pagesOf client final) ↔
      KeysetPage.NoneOvertaken ConversationEvent.id (eventsIn his final)
        (pagesOf client final) := by
  have recorded := run_recorded ran
  have distinct : ((eventsIn his final).map ConversationEvent.id).Nodup :=
    (event_ids_distinct (run_inv ran)).sublist (List.filter_sublist.map _)
  exact KeysetPage.complete_iff distinct chained (pages_answered recorded client)
    (pages_within recorded stays)

end Reader

/-- User 7 is in conversations 1 and 2. -/
def twoConversations : List Action :=
  [.addConversation 1, .addConversation 2,
    .setMembers [⟨1, 7, .active, none⟩, ⟨2, 7, .active, none⟩]]

def syncOnce (tx : TxId) (afterId : Nat) : List Action :=
  [.receive tx (.sync 0 7 afterId 200), .examine tx]

/-- Two sends, one after the other, and a call that has both held back first. -/
def sentInTurn : List Action :=
  twoConversations ++ sendText 1 1 30 10 "one" 0 ++ [.commit 1] ++ sendText 2 2 31 11 "two" 1 ++
    [.commit 2] ++ syncOnce 3 0 ++ [.advance 2000000] ++ syncOnce 4 0

/-- The first send has drawn its id when the second one commits, and commits
after the call that serves the second one. -/
def slowSend : List Action :=
  twoConversations ++ sendText 1 1 30 10 "one" 0 ++ sendText 2 2 31 11 "two" 1 ++ [.commit 2] ++
    [.advance 2000000] ++ syncOnce 3 0 ++ [.commit 1, .advance 2000000] ++ syncOnce 4 2

def firstTwo (conversation : Uuid) : Bool := conversation == 1 || conversation == 2

theorem first_two_stays {client : Uuid} {state : State}
    (known : ∀ entry ∈ callsOf client state, entry.2.conversations = [1, 2]) :
    Stays client firstTwo state := by
  intro entry member conversation
  rw [known entry member, Bool.eq_iff_iff]
  simp [firstTwo]

set_option maxRecDepth 4000 in
theorem sent_in_turn_complete : ∃ final,
    Runs.run (step sameText) initial sentInTurn = some final ∧
      (pagesOf 0 final).map (fun call => (call.served.map ConversationEvent.id, call.cursor)) =
        [([], 0), ([1, 2], 2)] ∧
      KeysetPage.Complete ConversationEvent.id (eventsIn firstTwo final) 0 (pagesOf 0 final) := by
  refine ⟨_, rfl, rfl, ?_⟩
  apply (sync_complete_iff sameText sentInTurn _ rfl 0 firstTwo (first_two_stays (by decide)) 0
    ⟨rfl, rfl, trivial⟩).mpr
  unfold KeysetPage.NoneOvertaken KeysetPage.Overtaken
  decide

set_option maxRecDepth 4000 in
theorem slow_send_missed : ¬∀ (actions : List Action) (final : State),
    Runs.run (step sameText) initial actions = some final →
      ∀ client his, Stays client his final → ∀ first,
        KeysetPage.Chained first (pagesOf client final) →
          KeysetPage.Complete ConversationEvent.id (eventsIn his final) first
            (pagesOf client final) := by
  intro claimed
  obtain ⟨final, ran, calls, ids, chained, early, late, pages, served, cursor⟩ : ∃ final,
      Runs.run (step sameText) initial slowSend = some final ∧
        (∀ entry ∈ callsOf 0 final, entry.2.conversations = [1, 2]) ∧
        1 ∈ (eventsIn firstTwo final).map ConversationEvent.id ∧
        KeysetPage.Chained 0 (pagesOf 0 final) ∧
        ∃ early late, pagesOf 0 final = [early, late] ∧
          early.served.map ConversationEvent.id = [2] ∧ early.cursor = 2 :=
    ⟨_, rfl, by decide, by decide, ⟨rfl, rfl, trivial⟩, _, _, rfl, rfl, rfl⟩
  have complete := claimed slowSend final ran 0 firstTwo (first_two_stays calls) 0 chained
  obtain ⟨event, member, one⟩ := List.mem_map.mp ids
  obtain ⟨call, found, received⟩ :=
    complete.served [] early [late] pages event member (by omega) (by omega)
  rw [List.nil_append, List.mem_singleton] at found
  rw [found] at received
  have among := List.mem_map_of_mem (f := ConversationEvent.id) received
  -- the only call that reaches past the event served another one
  rw [served, one] at among
  cases List.mem_singleton.mp among

end RunnerupChat.MessageStore
