import RunnerupChat.EventOrder

/-!
The messages of one conversation in the order they were committed. Each takes
its number from the counter that edits and deletions take theirs from, so the
numbers of the messages ascend and those of the revisions fill the gaps.
-/

namespace RunnerupChat.MessageStore

open Accounts UniqueKeys

def messagesOf (state : State) (conversation : Uuid) : List Message :=
  state.messages.filter fun row => row.conversationId == conversation

def lastSeq (state : State) (conversation : Uuid) : Nat :=
  (lastSeqOf state.conversations conversation).getD 0

/-- The numbers that the creations among these events took. -/
def createdSeqs (events : List ConversationEvent) : List Nat :=
  (events.filter fun event => event.type == .created).map ConversationEvent.seq

/-- Messages and the events that created them go side by side. -/
def Numbered (state : State) (conversation : Uuid) : Prop :=
  (messagesOf state conversation).map Message.seq = createdSeqs (eventsOf state conversation)

section Steps
variable {state next : State} {action : Action} {conversation : Uuid}

/-- A revision changes no part of the rows that it does not write. -/
theorem parts_overlay {Part : Type} (part : Message → Part) (revision : Revision)
    (same : ∀ row, part (overlay revision row) = part row) (rows : List Message) :
    ((rows.map fun row => if row.id = revision.loaded.id then overlay revision row else row).filter
        fun row => row.conversationId == conversation).map part =
      (rows.filter fun row => row.conversationId == conversation).map part := by
  rw [List.filter_map, List.map_map]
  have kept : ((fun row : Message => row.conversationId == conversation) ∘ fun row =>
      if row.id = revision.loaded.id then overlay revision row else row) =
        fun row => row.conversationId == conversation := by
    funext row
    rw [Function.comp_apply]
    split
    · rfl
    · rfl
  rw [kept]
  apply List.map_congr_left
  intro row _
  rw [Function.comp_apply]
  split
  · exact same row
  · rfl

theorem numbered_commit (numbered : Numbered state conversation) {tx : TxId} {startedAt : Time}
    {write : Write} {seq eventId : Nat} (ok : write.Ok seq)
    (fields : Committed state next tx startedAt write seq eventId) :
    Numbered next conversation := by
  simp only [Numbered, messagesOf, eventsOf, createdSeqs] at numbered ⊢
  rw [fields.messages, fields.events, List.filter_append, List.filter_append, List.map_append,
    ← numbered]
  cases write with
  | create message selected actor =>
      obtain ⟨draft, id, now, rfl⟩ := ok
      rw [applyWrite, List.filter_append, List.map_append]
      congr 1
      by_cases here : draft.access.conversation = conversation
      · simp [newMessage, eventOf, Write.conversation, Write.type, here]
      · simp [newMessage, eventOf, Write.conversation, here]
  | revise revision =>
      have other : revision.type ≠ .created := by
        rcases ok with ⟨access, loaded, text, now, rfl⟩ | ⟨access, loaded, now, rfl⟩
        · simp [editOf]
        · simp [deletionOf]
      rw [applyWrite, parts_overlay Message.seq revision fun _ => rfl]
      by_cases here : revision.loaded.conversationId = conversation
      · simp [eventOf, Write.conversation, Write.type, here, other]
      · simp [eventOf, Write.conversation, here]

theorem numbered_step (inv : Inv state) (numbered : Numbered state conversation)
    (effect : Effect state next action) : Numbered next conversation := by
  cases effect_written effect with
  | kept messages edits events =>
      simp only [Numbered, messagesOf, eventsOf, messages, events]
      exact numbered
  | committed tx startedAt write seq eventId origin ready fields =>
      exact numbered_commit numbered (inv.phases tx _ ready) fields

theorem last_seq_committed (inv : Inv state) {tx : TxId} {startedAt : Time} {write : Write}
    {seq eventId : Nat} (ready : state.txs tx = some ⟨startedAt, .logged write seq eventId⟩)
    (fields : Committed state next tx startedAt write seq eventId) :
    lastSeq next conversation =
      if conversation = write.conversation then lastSeq state conversation + 1
      else lastSeq state conversation := by
  have held : (sequenced state).holds tx = some ⟨write.conversation, seq, some eventId⟩ := by
    simp [sequenced, ready, holdOf, Phase.hold]
  obtain ⟨before, known, succ⟩ := inv.log.taken tx _ held
  rw [lastSeq, lastSeq, fields.conversations, last_seq_set seq known]
  split
  · rename_i same
    rw [same, assign_same]
    have current : lastSeqOf state.conversations write.conversation = some before := known
    rw [current]
    exact succ
  · rename_i other
    rw [assign_other _ _ other]

/-- The counter of a conversation never goes back. -/
theorem last_seq_step (inv : Inv state) (effect : Effect state next action) (conversation : Uuid) :
    lastSeq state conversation ≤ lastSeq next conversation := by
  cases effect with
  | idle frame | moved tx transaction frame => rw [lastSeq, lastSeq, frame.counters]
  | opened id absent result =>
      obtain ⟨missing, counters⟩ := last_seq_append absent
      rw [lastSeq, lastSeq, result, counters]
      by_cases same : conversation = id
      · rw [same, missing]
        exact Nat.zero_le _
      · rw [assign_other _ _ same]
  | allocated tx startedAt job seq phase ready current free held plain result
  | flushed tx startedAt draft seq id numbered fresh result
  | logged tx startedAt write seq writing result =>
      rw [result]
      exact Nat.le_refl _
  | committed tx startedAt write seq eventId ready result =>
      rw [last_seq_committed inv ready (commit_fields ready result)]
      split
      · exact Nat.le_succ _
      · exact Nat.le_refl _

end Steps

section Counts
variable {state : State} {conversation : Uuid}

/-- The numbers of a conversation without a row are none. -/
theorem event_seqs (inv : Inv state) (conversation : Uuid) :
    (eventsOf state conversation).map ConversationEvent.seq =
      List.range' 1 (lastSeq state conversation) := by
  have numbers : SequencedLog.numbers (sequenced state).entries conversation =
      (eventsOf state conversation).map ConversationEvent.seq := by
    simp only [SequencedLog.numbers, sequenced, entries_of, List.map_map]
    rfl
  rw [← numbers, lastSeq]
  cases known : lastSeqOf state.conversations conversation with
  | none => exact SequencedLog.numbers_absent inv.log known
  | some seq => exact inv.log.dense conversation seq known

theorem created_seqs_sublist (events : List ConversationEvent) :
    (createdSeqs events).Sublist (events.map ConversationEvent.seq) :=
  List.filter_sublist.map _

theorem message_seqs_sorted (inv : Inv state) (numbered : Numbered state conversation) :
    (messagesOf state conversation).Pairwise fun earlier later => earlier.seq < later.seq := by
  apply List.pairwise_map.mp
  rw [numbered]
  apply List.Pairwise.sublist (created_seqs_sublist _)
  rw [event_seqs inv]
  exact List.pairwise_lt_range' 1

theorem message_seq_bounded (inv : Inv state) (numbered : Numbered state conversation) :
    ∀ row ∈ messagesOf state conversation, 0 < row.seq ∧ row.seq ≤ lastSeq state conversation := by
  intro row member
  have taken : row.seq ∈ createdSeqs (eventsOf state conversation) :=
    numbered ▸ List.mem_map_of_mem member
  have counted := (created_seqs_sublist _).subset taken
  rw [event_seqs inv, List.mem_range'_1] at counted
  omega

theorem range_above (mark length : Nat) :
    (List.range' 1 length).countP (fun seq => decide (mark < seq)) = length - mark := by
  induction length with
  | zero => simp
  | succ length ih =>
      rw [List.range'_concat, List.countP_append, ih, List.countP_singleton]
      split
      · rename_i above
        simp only [decide_eq_true_eq] at above
        omega
      · rename_i below
        simp only [decide_eq_true_eq] at below
        omega

/-- What the counter is ahead of a mark: the messages above it, and the edits
and deletions above it. -/
theorem counter_ahead (inv : Inv state) (numbered : Numbered state conversation) (mark : Nat) :
    lastSeq state conversation - mark =
      (messagesOf state conversation).countP (fun row => decide (mark < row.seq)) +
        (eventsOf state conversation).countP
          (fun event => decide (mark < event.seq) && event.type != .created) := by
  have created : (messagesOf state conversation).countP (fun row => decide (mark < row.seq)) =
      (eventsOf state conversation).countP
        (fun event => decide (mark < event.seq) && event.type == .created) := by
    have side := congrArg (List.countP fun seq => decide (mark < seq)) numbered
    rw [List.countP_map, createdSeqs, List.countP_map, List.countP_filter] at side
    exact side
  have all : lastSeq state conversation - mark =
      (eventsOf state conversation).countP fun event => decide (mark < event.seq) := by
    rw [← range_above, ← event_seqs inv, List.countP_map]
    rfl
  rw [all, created]
  induction eventsOf state conversation with
  | nil => rfl
  | cons event rest ih =>
      simp only [List.countP_cons, ih]
      by_cases above : mark < event.seq <;> by_cases type : event.type = .created <;>
        simp [above, type] <;> omega

end Counts

end RunnerupChat.MessageStore
