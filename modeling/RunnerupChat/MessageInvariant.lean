import RunnerupChat.MessageEffects

/-!
What every reachable state of the message store satisfies. Its event table is
a log numbered per conversation, every message was announced once, and every
body was published by an event.
-/

namespace RunnerupChat.MessageStore

open Accounts SnapshotUpdate UniqueKeys

section Views

def holdOf (transaction : Transaction) : Option (SequencedLog.Hold Uuid) := transaction.phase.hold

def insertsOf (transaction : Transaction) : Option Uuid := transaction.phase.inserts

def entryOf (event : ConversationEvent) : SequencedLog.Entry Uuid :=
  ⟨event.id, event.conversationId, event.seq⟩

/-- The store as a log numbered per conversation. -/
def sequenced (state : State) : SequencedLog.Log Uuid TxId :=
  { last := lastSeqOf state.conversations
    entries := state.events.map entryOf
    lastId := state.lastEventId
    holds := fun tx => (state.txs tx).bind holdOf }

def Payload.announces (payload : Payload) (id : Uuid) : Bool :=
  match payload with
  | .message out => out.id == id
  | .deletion _ _ => false

/-- The event that announced the message. -/
def ConversationEvent.creates (event : ConversationEvent) (id : Uuid) : Bool :=
  event.type == .created && event.payload.announces id

/-- The payload carries this body of the message. -/
def Payload.shows (payload : Payload) (id : Uuid) (body : String) : Prop :=
  match payload with
  | .message out => out.id = id ∧ out.body = some body
  | .deletion _ _ => False

end Views

/-- The messages agree with the events about them. -/
structure Announced (messages : List Message) (events : List ConversationEvent) : Prop where
  once : ∀ message ∈ messages,
    (events.filter fun event => event.creates message.id).map
      (fun event => (event.conversationId, event.seq)) = [(message.conversationId, message.seq)]
  stored : ∀ event ∈ events, ∀ id, event.creates id = true → id ∈ messages.map Message.id
  shown : ∀ message ∈ messages, ∀ body, message.body = some body →
    ∃ event ∈ events, event.payload.shows message.id body

structure Inv (state : State) : Prop where
  conversations : (state.conversations.map Conversation.id).Nodup
  log : SequencedLog.Inv (sequenced state)
  locked : ∀ tx hold, (sequenced state).holds tx = some hold → state.locks hold.key = some tx
  unique : Unique (state.messages.map Message.id) state.drawnIds
    (fun tx => (state.txs tx).bind insertsOf)
  phases : ∀ tx transaction, state.txs tx = some transaction → transaction.phase.Ok
  announced : Announced state.messages state.events

section Refinement
variable {state next : State}

theorem holds_assign (txs : TxId → Option Transaction) (tx : TxId)
    (transaction : Option Transaction) :
    (fun other => (assign txs tx transaction other).bind holdOf) =
      assign (fun other => (txs other).bind holdOf) tx (transaction.bind holdOf) :=
  assign_bind txs tx transaction holdOf

/-- While the lock of a conversation is available to `tx`, only `tx` can hold
a number of it. -/
theorem held_elsewhere (locked : ∀ tx hold, (sequenced state).holds tx = some hold →
      state.locks hold.key = some tx) {tx : TxId} {key : Uuid}
    (free : available state.locks key tx = true) (idle : (sequenced state).holds tx = none) :
    ∀ other hold, (sequenced state).holds other = some hold → hold.key ≠ key := by
  rintro other hold held rfl
  have owner := locked other hold held
  simp only [available, owner, reduceCtorEq, decide_false, Bool.false_or, decide_eq_true_eq,
    Option.some.injEq] at free
  rw [← free, held] at idle
  cases idle

/-- What is closed or free holds no number and has no message to commit. -/
theorem free_pending {transaction : Option Transaction}
    (free : ∀ moved, transaction = some moved → moved.phase.Free) :
    transaction.bind holdOf = none ∧ transaction.bind insertsOf = none := by
  cases transaction with
  | none => exact ⟨rfl, rfl⟩
  | some moved => exact ⟨(free moved rfl).hold, (free moved rfl).inserts⟩

/-- Every step of the store is a step of the numbered log, or leaves it alone. -/
theorem sequenced_refines (locked : ∀ tx hold, (sequenced state).holds tx = some hold →
      state.locks hold.key = some tx) (log : SequencedLog.Inv (sequenced state))
    {action : Action} (effect : Effect state next action) :
    sequenced next = sequenced state ∨ SequencedLog.Step (sequenced state) (sequenced next) := by
  cases effect with
  | idle frame txs locks drawn =>
      left
      simp only [sequenced, frame.counters, frame.events, frame.lastEventId, txs]
  | moved tx transaction frame txs free locks drawn =>
      right
      have same : sequenced next =
          { sequenced state with holds := assign (sequenced state).holds tx none } := by
        simp only [sequenced, frame.counters, frame.events, frame.lastEventId, txs, holds_assign,
          (free_pending free).1]
      exact same ▸ .drop tx
  | opened id absent result =>
      right
      obtain ⟨fresh, extended⟩ := last_seq_append absent
      have same : sequenced next =
          { sequenced state with last := assign (sequenced state).last id (some 0) } := by
        rw [result]
        simp only [sequenced, extended]
      exact same ▸ .create id fresh
  | allocated tx startedAt job seq phase ready current free held plain result =>
      right
      have idle : (sequenced state).holds tx = none := by
        simp [sequenced, ready, holdOf, Phase.hold]
      have same : sequenced next = { sequenced state with
          holds := assign (sequenced state).holds tx
            (some ⟨job.conversation, seq + 1, none⟩) } := by
        rw [result]
        simp only [sequenced, enter, holds_assign, Option.bind_some, holdOf, held]
      exact same ▸ .take tx _ seq current (held_elsewhere locked free idle)
  | flushed tx startedAt draft seq id numbered fresh result =>
      left
      -- the insert keeps the number that was taken under the lock
      have kept : (sequenced state).holds tx = some ⟨draft.access.conversation, seq, none⟩ := by
        simp [sequenced, numbered, holdOf, Phase.hold]
      rw [result]
      simp only [sequenced, enter, holds_assign]
      congr 1
      exact assign_self kept
  | logged tx startedAt write seq writing result =>
      right
      have held : (sequenced state).holds tx = some ⟨write.conversation, seq, none⟩ := by
        simp [sequenced, writing, holdOf, Phase.hold]
      have same : sequenced next = { sequenced state with
          lastId := (sequenced state).lastId + 1
          holds := assign (sequenced state).holds tx
            (some ⟨write.conversation, seq, some ((sequenced state).lastId + 1)⟩) } := by
        rw [result]
        simp only [sequenced, enter, holds_assign, Option.bind_some, holdOf, Phase.hold]
      exact same ▸ .draw tx _ seq held
  | committed tx startedAt write seq eventId ready result =>
      right
      have fields := commit_fields ready result
      have held : (sequenced state).holds tx = some ⟨write.conversation, seq, some eventId⟩ := by
        simp [sequenced, ready, holdOf, Phase.hold]
      -- the counter was written under the lock and shows only now
      obtain ⟨before, known, _⟩ := log.taken tx _ held
      have same : sequenced next = { sequenced state with
          last := assign (sequenced state).last write.conversation (some seq)
          entries := (sequenced state).entries ++ [⟨eventId, write.conversation, seq⟩]
          holds := assign (sequenced state).holds tx none } := by
        simp only [sequenced, fields.conversations, fields.events, fields.lastEventId, fields.txs,
          last_seq_set seq known, holds_assign, List.map_append, List.map_singleton]
        rfl
      exact same ▸ .append tx _ seq eventId held

theorem sequenced_inv (locked : ∀ tx hold, (sequenced state).holds tx = some hold →
      state.locks hold.key = some tx) (log : SequencedLog.Inv (sequenced state))
    {action : Action} (effect : Effect state next action) : SequencedLog.Inv (sequenced next) := by
  rcases sequenced_refines locked log effect with same | stepped
  · rwa [same]
  · exact SequencedLog.step_inv log stepped

end Refinement

section Announcements
variable {messages : List Message} {events : List ConversationEvent}

theorem creates_nothing (event : ConversationEvent) (other : event.type ≠ .created) (id : Uuid) :
    event.creates id = false := by
  simp [ConversationEvent.creates, other]

/-- A message is announced when it is created. -/
theorem announced_create (announced : Announced messages events) {message : Message}
    {attachments : List Attachment} {actor : Uuid} {seq : Nat} (numbered : message.seq = seq)
    (fresh : message.id ∉ messages.map Message.id) (eventId : Nat) (startedAt : Time) :
    Announced (messages ++ [message])
      (events ++ [eventOf (.create message attachments actor) seq eventId startedAt]) := by
  have creates : ∀ id,
      (eventOf (.create message attachments actor) seq eventId startedAt).creates id = true ↔
        message.id = id := by
    intro id
    simp [ConversationEvent.creates, eventOf, Write.type, Write.payload, Payload.announces,
      serialize]
  have before : (events.filter fun event => event.creates message.id) = [] := by
    rw [List.filter_eq_nil_iff]
    intro event member created
    exact fresh (announced.stored event member message.id created)
  constructor
  case once =>
    intro other member
    rw [List.filter_append, List.map_append]
    rcases List.mem_append.mp member with old | new
    · have distinct : message.id ≠ other.id :=
        fun same => fresh (same ▸ List.mem_map_of_mem old)
      have silent := Bool.eq_false_iff.mpr (mt (creates other.id).mp distinct)
      rw [List.filter_singleton, silent, announced.once other old]
      rfl
    · obtain rfl := List.mem_singleton.mp new
      rw [before, List.filter_singleton, (creates other.id).mpr rfl, ← numbered]
      rfl
  case stored =>
    intro event member id created
    rw [List.map_append]
    rcases List.mem_append.mp member with old | new
    · exact List.mem_append_left _ (announced.stored event old id created)
    · rw [List.mem_singleton.mp new] at created
      rw [← (creates id).mp created]
      simp
  case shown =>
    intro other member body held
    rcases List.mem_append.mp member with old | new
    · obtain ⟨event, present, shown⟩ := announced.shown other old body held
      exact ⟨event, List.mem_append_left _ present, shown⟩
    · obtain rfl := List.mem_singleton.mp new
      exact ⟨_, List.mem_append_right _ (List.mem_singleton_self _), rfl, held⟩

theorem overlay_ids (revision : Revision) (messages : List Message) :
    (messages.map fun row => if row.id = revision.loaded.id then overlay revision row else row).map
      Message.id = messages.map Message.id := by
  rw [List.map_map]
  apply List.map_congr_left
  intro row member
  simp only [Function.comp]
  split <;> rfl

/-- A body that an `UPDATE` leaves was there before or is the new one. -/
theorem overlay_body {revision : Revision} {row : Message} {body : String}
    (held : (overlay revision row).body = some body) :
    row.body = some body ∨ revision.changed.body = some body := by
  simp only [overlay] at held
  split at held
  · exact Or.inl held
  · exact Or.inr held

theorem announced_revise (announced : Announced messages events) {revision : Revision}
    (ok : revision.Ok) (seq eventId : Nat) (startedAt : Time) :
    Announced
      (messages.map fun row => if row.id = revision.loaded.id then overlay revision row else row)
      (events ++ [eventOf (.revise revision) seq eventId startedAt]) := by
  -- neither an edit nor a deletion announces a message
  have silent : ∀ id, (eventOf (.revise revision) seq eventId startedAt).creates id = false := by
    apply creates_nothing
    rcases ok with ⟨access, loaded, text, now, rfl⟩ | ⟨access, loaded, now, rfl⟩
    · simp [eventOf, Write.type, editOf]
    · simp [eventOf, Write.type, deletionOf]
  constructor
  case once =>
    intro message member
    obtain ⟨row, present, rfl⟩ := List.mem_map.mp member
    rw [List.filter_append, List.filter_singleton, silent]
    simp only [cond_false, List.append_nil]
    split
    · exact announced.once row present
    · exact announced.once row present
  case stored =>
    intro event member id created
    rw [overlay_ids]
    rcases List.mem_append.mp member with old | new
    · exact announced.stored event old id created
    · rw [List.mem_singleton.mp new, silent] at created
      cases created
  case shown =>
    intro message member body held
    obtain ⟨row, present, rfl⟩ := List.mem_map.mp member
    have earlier : row.body = some body → ∃ event ∈ events ++
        [eventOf (.revise revision) seq eventId startedAt], event.payload.shows row.id body := by
      intro kept
      obtain ⟨event, found, shown⟩ := announced.shown row present body kept
      exact ⟨event, List.mem_append_left _ found, shown⟩
    split at held
    · rename_i target
      rw [if_pos target]
      rcases overlay_body held with kept | changed
      · exact earlier kept
      -- an edit publishes the text it writes, a deletion writes none
      · rcases ok with ⟨access, loaded, text, now, rfl⟩ | ⟨access, loaded, now, rfl⟩
        · exact ⟨_, List.mem_append_right _ (List.mem_singleton_self _), target.symm, changed⟩
        · cases changed
    · rename_i other
      rw [if_neg other]
      exact earlier held

end Announcements

section Invariant
variable {state next : State}

theorem inserts_assign (txs : TxId → Option Transaction) (tx : TxId)
    (transaction : Option Transaction) :
    (fun other => (assign txs tx transaction other).bind insertsOf) =
      assign (fun other => (txs other).bind insertsOf) tx (transaction.bind insertsOf) :=
  assign_bind txs tx transaction insertsOf

theorem initial_inv : Inv initial where
  conversations := List.nodup_nil
  log := SequencedLog.initial_inv
  locked := by simp [sequenced, initial]
  unique := ⟨by simp [initial], by simp [initial], by simp [initial], by simp [initial],
    by simp [initial]⟩
  phases := by simp [initial]
  announced := ⟨by simp [initial], by simp [initial], by simp [initial]⟩

theorem assign_phases (phases : ∀ tx transaction, state.txs tx = some transaction →
      transaction.phase.Ok) {tx : TxId} {moved : Option Transaction}
    (ok : ∀ transaction, moved = some transaction → transaction.phase.Ok) (other : TxId)
    (transaction : Transaction) (found : assign state.txs tx moved other = some transaction) :
    transaction.phase.Ok := by
  rcases assign_cases found with ⟨_, here⟩ | ⟨_, kept⟩
  · exact ok transaction here
  · exact phases other transaction kept

theorem holds_next {tx : TxId} {moved : Option Transaction}
    (txs : next.txs = assign state.txs tx moved) :
    (sequenced next).holds = assign (sequenced state).holds tx (moved.bind holdOf) := by
  simp only [sequenced, txs, holds_assign]

theorem inserts_next {tx : TxId} {moved : Option Transaction}
    (txs : next.txs = assign state.txs tx moved) :
    (fun other => (next.txs other).bind insertsOf) =
      assign (fun other => (state.txs other).bind insertsOf) tx (moved.bind insertsOf) := by
  rw [txs, inserts_assign]

/-- A statement of a transaction that already holds the lock of its number. -/
theorem locked_statement (inv : Inv state) {tx : TxId} {moved : Option Transaction}
    {before after : SequencedLog.Hold Uuid} (txs : next.txs = assign state.txs tx moved)
    (locks : next.locks = state.locks) (holding : (sequenced state).holds tx = some before)
    (holds : moved.bind holdOf = some after) (same : after.key = before.key) :
    ∀ other hold, (sequenced next).holds other = some hold →
      next.locks hold.key = some other := by
  intro other hold held
  rw [holds_next txs, holds] at held
  rw [locks]
  rcases assign_cases held with ⟨rfl, here⟩ | ⟨_, kept⟩
  · rw [← Option.some.inj here, same]
    exact inv.locked other before holding
  · exact inv.locked other hold kept

theorem effect_locked (inv : Inv state) {action : Action} (effect : Effect state next action) :
    ∀ tx hold, (sequenced next).holds tx = some hold → next.locks hold.key = some tx := by
  cases effect with
  | idle frame txs locks drawn =>
      simp only [sequenced, txs, locks]
      exact inv.locked
  | moved tx transaction frame txs free locks drawn =>
      intro other hold held
      rw [holds_next txs, (free_pending free).1] at held
      obtain ⟨distinct, kept⟩ := assign_none_kept held
      exact locks _ _ distinct (inv.locked other hold kept)
  | opened id absent result =>
      rw [result]
      exact inv.locked
  | allocated tx startedAt job seq phase ready current free held plain result =>
      rw [result]
      intro other hold found
      rw [holds_next rfl, Option.bind_some, holdOf, held] at found
      rcases assign_cases found with ⟨rfl, here⟩ | ⟨_, kept⟩
      · rw [← Option.some.inj here]
        exact acquire_same _ _ _
      -- the lock was free, so no other holder is thrown out
      · exact acquire_keeps _ _ _ _ _ free (inv.locked other hold kept)
  | flushed tx startedAt draft seq id numbered fresh result =>
      have holding : (sequenced state).holds tx = some ⟨draft.access.conversation, seq, none⟩ := by
        simp [sequenced, numbered, holdOf, Phase.hold]
      rw [result]
      exact locked_statement inv rfl rfl holding rfl rfl
  | logged tx startedAt write seq writing result =>
      have holding : (sequenced state).holds tx = some ⟨write.conversation, seq, none⟩ := by
        simp [sequenced, writing, holdOf, Phase.hold]
      rw [result]
      exact locked_statement inv rfl rfl holding rfl rfl
  | committed tx startedAt write seq eventId ready result =>
      have fields := commit_fields ready result
      intro other hold held
      rw [holds_next fields.txs] at held
      obtain ⟨distinct, kept⟩ := assign_none_kept held
      rw [fields.locks]
      exact release_keeps _ _ _ _ distinct (inv.locked other hold kept)

theorem effect_unique (inv : Inv state) {action : Action} (effect : Effect state next action) :
    Unique (next.messages.map Message.id) next.drawnIds
      (fun tx => (next.txs tx).bind insertsOf) := by
  cases effect with
  | idle frame txs locks drawn =>
      rw [frame.messages, txs, drawn]
      exact inv.unique
  | moved tx transaction frame txs free locks drawn =>
      rw [frame.messages, inserts_next txs, (free_pending free).2]
      exact unique_widen (unique_drop inv.unique tx) drawn
  | opened id absent result =>
      rw [result]
      exact inv.unique
  | allocated tx startedAt job seq phase ready current free held plain result =>
      rw [result, inserts_next rfl, Option.bind_some, insertsOf, plain.1]
      exact unique_drop inv.unique tx
  | flushed tx startedAt draft seq id numbered fresh result =>
      rw [result, inserts_next rfl]
      exact unique_draw inv.unique tx fresh
  | logged tx startedAt write seq writing result =>
      have kept : (state.txs tx).bind insertsOf = write.inserts := by
        simp [writing, insertsOf, Phase.inserts]
      have same : assign (fun other => (state.txs other).bind insertsOf) tx write.inserts =
          fun other => (state.txs other).bind insertsOf := assign_self kept
      have unique : Unique (state.messages.map Message.id) state.drawnIds
          (assign (fun other => (state.txs other).bind insertsOf) tx write.inserts) := by
        rw [same]
        exact inv.unique
      rw [result, inserts_next rfl]
      exact unique
  | committed tx startedAt write seq eventId ready result =>
      have fields := commit_fields ready result
      have kept : (state.txs tx).bind insertsOf = write.inserts := by
        simp [ready, insertsOf, Phase.inserts]
      rw [fields.messages, fields.drawn, inserts_next fields.txs]
      cases write with
      | create message attachments actor =>
          simp only [applyWrite, List.map_append, List.map_singleton]
          exact unique_commit inv.unique kept
      | revise revision =>
          simp only [applyWrite, overlay_ids]
          exact unique_drop inv.unique tx

theorem effect_phases (inv : Inv state) {action : Action} (effect : Effect state next action) :
    ∀ tx transaction, next.txs tx = some transaction → transaction.phase.Ok := by
  cases effect with
  | idle frame txs locks drawn =>
      rw [txs]
      exact inv.phases
  | moved tx transaction frame txs free locks drawn =>
      rw [txs]
      exact assign_phases inv.phases fun moved same => (free moved same).ok
  | opened id absent result =>
      rw [result]
      exact inv.phases
  | allocated tx startedAt job seq phase ready current free held plain result =>
      rw [result]
      exact assign_phases inv.phases (by rintro moved ⟨⟩; exact plain.2)
  | flushed tx startedAt draft seq id numbered fresh result =>
      rw [result]
      exact assign_phases inv.phases (by rintro moved ⟨⟩; exact ⟨draft, id, state.clock, rfl⟩)
  | logged tx startedAt write seq writing result =>
      have ok := inv.phases tx _ writing
      rw [result]
      exact assign_phases inv.phases (by rintro moved ⟨⟩; exact ok)
  | committed tx startedAt write seq eventId ready result =>
      rw [(commit_fields ready result).txs]
      exact assign_phases inv.phases (by rintro moved ⟨⟩; trivial)

theorem effect_announced (inv : Inv state) {action : Action} (effect : Effect state next action) :
    Announced next.messages next.events := by
  cases effect_written effect with
  | kept messages edits events =>
      rw [messages, events]
      exact inv.announced
  | committed tx startedAt write seq eventId origin ready fields =>
      have ok := inv.phases tx _ ready
      rw [fields.messages, fields.events]
      cases write with
      | create message attachments actor =>
          have fresh := inv.unique.apart tx message.id
            (by simp [ready, insertsOf, Phase.inserts, Write.inserts])
          obtain ⟨draft, id, now, rfl⟩ := ok
          exact announced_create inv.announced rfl fresh eventId startedAt
      | revise revision => exact announced_revise inv.announced ok seq eventId startedAt

theorem effect_conversations (inv : Inv state) {action : Action}
    (effect : Effect state next action) : (next.conversations.map Conversation.id).Nodup := by
  cases effect with
  | idle frame | moved tx transaction frame =>
      rw [frame.conversations]
      exact inv.conversations
  | opened id absent result =>
      rw [result, List.map_append]
      apply List.nodup_append.mpr ⟨inv.conversations, List.nodup_singleton id, ?_⟩
      rintro old member new inside rfl
      obtain ⟨row, present, same⟩ := List.mem_map.mp member
      rw [List.any_eq_false] at absent
      exact absent row present (by simpa using same.trans (List.mem_singleton.mp inside))
  | allocated tx startedAt job seq phase ready current free held plain result =>
      rw [result]
      exact inv.conversations
  | flushed tx startedAt draft seq id numbered fresh result =>
      rw [result]
      exact inv.conversations
  | logged tx startedAt write seq writing result =>
      rw [result]
      exact inv.conversations
  | committed tx startedAt write seq eventId ready result =>
      rw [(commit_fields ready result).conversations, row_ids _ (by intro row; split <;> rfl)]
      exact inv.conversations

theorem effect_inv (inv : Inv state) {action : Action} (effect : Effect state next action) :
    Inv next where
  conversations := effect_conversations inv effect
  log := sequenced_inv inv.locked inv.log effect
  locked := effect_locked inv effect
  unique := effect_unique inv effect
  phases := effect_phases inv effect
  announced := effect_announced inv effect

theorem step_inv {searchMatches : String → String → Bool} (state : State) (action : Action)
    (next : State) (inv : Inv state) (taken : step searchMatches state action = some next) :
    Inv next :=
  effect_inv inv (step_effect inv.phases taken)

theorem run_inv {searchMatches : String → String → Bool} {actions : List Action} {final : State}
    (ran : Runs.run (step searchMatches) initial actions = some final) : Inv final :=
  Runs.run_invariant Inv step_inv ran initial_inv

/-- What every effect keeps, next to the invariant, is kept by a run. -/
theorem run_keeps {searchMatches : String → String → Bool} {actions : List Action}
    {state final : State} (kept : State → Prop)
    (preserved : ∀ before after action, Inv before → kept before → Effect before after action →
      kept after)
    (inv : Inv state) (holds : kept state)
    (ran : Runs.run (step searchMatches) state actions = some final) : kept final := by
  have both := Runs.run_invariant (fun state => Inv state ∧ kept state)
    (fun before action after holds taken => ⟨step_inv before action after holds.1 taken,
      preserved before after action holds.1 holds.2 (step_effect holds.1.phases taken)⟩)
    ran ⟨inv, holds⟩
  exact both.2

end Invariant

end RunnerupChat.MessageStore
