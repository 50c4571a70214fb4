import RunnerupChat.MessageInvariant

/-!
The order of events. The row lock on a conversation makes its numbers dense
in any interleaving and across rollbacks, and readers see them in order.
-/

namespace RunnerupChat.MessageStore

open Accounts

def eventsOf (state : State) (conversation : Uuid) : List ConversationEvent :=
  state.events.filter fun event => decide (event.conversationId = conversation)

/-- The event log of one committed state. -/
structure Ordered (state : State) : Prop where
  dense : ∀ row ∈ state.conversations,
    (eventsOf state row.id).map ConversationEvent.seq = List.range' 1 row.lastSeq
  homed : ∀ event ∈ state.events, ∃ row ∈ state.conversations, row.id = event.conversationId
  created : ∀ message ∈ state.messages, ∃ event,
    state.events.filter (fun event => event.creates message.id) = [event] ∧
      event.conversationId = message.conversationId ∧ event.seq = message.seq
  ascending : ∀ conversation, (eventsOf state conversation).Pairwise fun earlier later =>
    earlier.seq < later.seq ∧ earlier.id < later.id
  smallerSeen : ∀ event ∈ state.events, ∀ seq, 0 < seq → seq < event.seq →
    ∃ earlier ∈ state.events, earlier.conversationId = event.conversationId ∧
      earlier.seq = seq ∧ earlier.id < event.id

section Events
variable {state next : State}

theorem entries_of (events : List ConversationEvent) (conversation : Uuid) :
    (events.map entryOf).filter (fun entry => decide (entry.key = conversation)) =
      (events.filter fun event => decide (event.conversationId = conversation)).map entryOf := by
  rw [List.filter_map]
  rfl

theorem last_seq_of_row (distinct : (state.conversations.map Conversation.id).Nodup)
    {row : Conversation} (member : row ∈ state.conversations) :
    lastSeqOf state.conversations row.id = some row.lastSeq := by
  have exists_row : (state.conversations.find? fun other => other.id == row.id).isSome = true := by
    rw [List.find?_isSome]
    exact ⟨row, member, beq_self_eq_true row.id⟩
  obtain ⟨found, present⟩ := Option.isSome_iff_exists.mp exists_row
  have same : found = row := List.inj_on_of_nodup_map distinct (List.mem_of_find?_eq_some present)
    member (by simpa using List.find?_some present)
  simp [lastSeqOf, present, same]

theorem inv_ordered (inv : Inv state) : Ordered state where
  dense := by
    intro row member
    rw [← inv.log.dense row.id row.lastSeq (last_seq_of_row inv.conversations member)]
    simp only [SequencedLog.numbers, sequenced, entries_of, List.map_map]
    rfl
  homed := by
    intro event member
    have known := inv.log.homed (entryOf event) (List.mem_map_of_mem member)
    simp only [sequenced, lastSeqOf, Option.isSome_map, List.find?_isSome, beq_iff_eq] at known
    exact known
  created := by
    intro message member
    have once := inv.announced.once message member
    obtain ⟨event, single, both⟩ := List.map_eq_singleton_iff.mp once
    simp only [Prod.mk.injEq] at both
    exact ⟨event, single, both⟩
  ascending := by
    intro conversation
    have sorted := SequencedLog.appears_in_order inv.log conversation
    simp only [sequenced, entries_of] at sorted
    exact List.pairwise_map.mp sorted
  smallerSeen := by
    intro event member seq positive smaller
    obtain ⟨earlier, found, home, same, order⟩ := SequencedLog.smaller_seen inv.log
      (List.mem_map_of_mem member) positive smaller
    obtain ⟨before, present, rfl⟩ := List.mem_map.mp found
    exact ⟨before, present, home, same, order⟩

/-- Events are only ever appended. -/
theorem effect_appends {action : Action} (effect : Effect state next action) :
    state.events <+: next.events := by
  cases effect_written effect with
  | kept messages edits events => rw [events]
  | committed tx startedAt write seq eventId origin ready fields =>
      rw [fields.events]
      exact List.prefix_append _ _

theorem run_appends {searchMatches : String → String → Bool} {actions : List Action}
    (inv : Inv state) (ran : Runs.run (step searchMatches) state actions = some next) :
    state.events <+: next.events :=
  run_keeps (fun later => state.events <+: later.events)
    (fun _ _ _ _ grown effect => grown.trans (effect_appends effect)) inv List.prefix_rfl ran

/-- In every state of a run the numbers of each conversation are dense, each
message has its one event, and what a reader has seen stays a prefix. -/
theorem events_in_order (searchMatches : String → String → Bool) (actions : List Action)
    (final : State) (ran : Runs.run (step searchMatches) initial actions = some final) :
    Ordered final ∧ ∀ visited, Runs.Visits (step searchMatches) initial actions visited →
      Ordered visited ∧ visited.events <+: final.events := by
  constructor
  · exact inv_ordered (run_inv ran)
  · intro visited visits
    obtain ⟨before, after, reached, onward⟩ := Runs.visits_between ran visits
    have inv := run_inv reached
    exact ⟨inv_ordered inv, run_appends inv onward⟩

end Events

def everything : List Permission :=
  [.sendMessage, .readMessages, .editOwnMessage, .deleteOwnMessage]

/-- User 7 in a conversation. -/
def granted (conversation : Uuid) : Access := ⟨7, conversation, everything⟩

/-- A send up to its event row, at that many milliseconds. -/
def sendText (tx : TxId) (conversation key id : Uuid) (body : String) (nowMs : Nat) :
    List Action :=
  [.receive tx (.send (granted conversation) (some key) (some body) .text none []), .examine tx,
    .enforceBudget tx nowMs, .enforceBudget tx nowMs, .proceed tx, .selectAttachments tx,
    .allocateSeq tx, .flush tx id, .logEvent tx]

def deleteText (tx : TxId) (conversation id : Uuid) : List Action :=
  [.receive tx (.delete (granted conversation) id), .examine tx, .allocateSeq tx, .logEvent tx,
    .commit tx, .publish tx]

/-- A text search that knows whole texts only. -/
def sameText (text query : String) : Bool := text == query

/-- A message, an edit that is rolled back with its number and its id, and a deletion. -/
def abandonedEdit : List Action :=
  [.addConversation 1] ++ sendText 1 1 30 10 "hello" 0 ++ [.commit 1, .publish 1] ++
    [.receive 2 (.edit (granted 1) 10 "hi"), .examine 2, .enforceBudget 2 1, .proceed 2,
      .allocateSeq 2, .logEvent 2, .rollback 2] ++ deleteText 3 1 10

set_option maxRecDepth 4000 in
theorem abandoned_edit_ordered : ∃ final,
    Runs.run (step sameText) initial abandonedEdit = some final ∧
      final.events.map (fun event => (event.id, event.seq, event.type)) =
        [(1, 1, .created), (3, 2, .deleted)] ∧ Ordered final := by
  refine ⟨_, rfl, rfl, ?_⟩
  exact (events_in_order sameText abandonedEdit _ rfl).1

end RunnerupChat.MessageStore
