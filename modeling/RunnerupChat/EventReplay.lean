import RunnerupChat.MessageNumbers
import RunnerupChat.Tombstones

/-!
The event log against the messages table. A reader that starts with nothing
and takes the events of a conversation in the order of their numbers arrives
at its messages, unless a commit wrote over a version it had not read.
-/

namespace RunnerupChat.MessageStore

open Accounts

/-- A message as the log tells it; its attachments are in its first event only. -/
def shown (row : Message) : MessageOut := serialize row []

/-- What a reader makes of one event. -/
def ConversationEvent.tell (event : ConversationEvent) (rows : List MessageOut) :
    List MessageOut :=
  match event.type, event.payload with
  | .created, .message out => rows ++ [{ out with attachments := [] }]
  | .edited, .message out =>
      rows.map fun row => if row.id = out.id then { out with attachments := [] } else row
  | .deleted, .deletion id _ =>
      rows.map fun row => if row.id = id then { row with body := none, deleted := true } else row
  | _, _ => rows

def logOf (state : State) (conversation : Uuid) : List ConversationEvent :=
  (eventsOf state conversation).insertionSort fun earlier later => earlier.seq ≤ later.seq

def rebuilt (state : State) (conversation : Uuid) : List MessageOut :=
  (logOf state conversation).foldl (fun rows event => event.tell rows) []

/-- The log of every conversation rebuilds its messages. -/
def Rebuilds (state : State) : Prop :=
  ∀ conversation, rebuilt state conversation = (messagesOf state conversation).map shown

/-- The event of this revision says what its commit makes of the row. -/
def Revision.Honest (revision : Revision) (row : Message) : Prop :=
  let { type, loaded, changed, .. } := revision
  match type with
  | .created => True
  | .edited =>
      -- a column that the edit does not write is told as it was read
      (changed.body = loaded.body → row.body = loaded.body) ∧
        (changed.editedAt = loaded.editedAt → row.editedAt = loaded.editedAt) ∧
        row.deletedAt.isSome = loaded.deletedAt.isSome
  | .deleted => loaded.body = none → row.body = none

def Honest (state : State) (action : Action) : Prop :=
  ∀ tx revision row, action = .commit tx → Revising state tx revision →
    rowOf state revision.loaded.id = some row → revision.Honest row

/-- A copy differs from its row in nothing but what edits and deletions write. -/
structure Stems (row loaded : Message) : Prop where
  seq : row.seq = loaded.seq
  conversation : row.conversationId = loaded.conversationId
  sender : row.senderId = loaded.senderId
  kind : row.kind = loaded.kind
  clientMsgId : row.clientMsgId = loaded.clientMsgId
  replyToId : row.replyToId = loaded.replyToId
  createdAt : row.createdAt = loaded.createdAt
  precedes : Precedes row loaded

theorem stems_self (row : Message) : Stems row row :=
  ⟨rfl, rfl, rfl, rfl, rfl, rfl, rfl, fun deleted => deleted⟩

theorem stems_kept (state : State) (action : Action) (inv : Inv state) :
    Kept Stems state action := by
  intro tx revision committing ready row member target loaded named stems
  exact { stems with
    precedes := precedes_kept state action inv tx revision committing ready row member target
      loaded named stems.precedes }

section Telling
variable {revision : Revision} {row : Message}

/-- What the event of a revision makes of the message it is about. -/
def Revision.told (revision : Revision) (row : Message) : MessageOut :=
  match revision.type with
  | .deleted => { shown row with body := none, deleted := true }
  | .created | .edited => shown revision.changed

/-- The event of a revision says what the row becomes exactly when it is honest. -/
theorem told_iff (ok : revision.Ok) (named : row.id = revision.loaded.id)
    (stems : Stems row revision.loaded) :
    revision.told row = shown (overlay revision row) ↔ revision.Honest row := by
  rcases ok with ⟨access, loaded, text, now, rfl⟩ | ⟨access, loaded, now, rfl⟩
  · have same : row.id = loaded.id := named
    have seq : row.seq = loaded.seq := stems.seq
    have conversation : row.conversationId = loaded.conversationId := stems.conversation
    have sender : row.senderId = loaded.senderId := stems.sender
    have kind : row.kind = loaded.kind := stems.kind
    have key : row.clientMsgId = loaded.clientMsgId := stems.clientMsgId
    have reply : row.replyToId = loaded.replyToId := stems.replyToId
    have created : row.createdAt = loaded.createdAt := stems.createdAt
    simp only [Revision.told, Revision.Honest, editOf, shown, serialize, overlay, MessageOut.mk.injEq,
      List.map_nil, same, seq, conversation, sender, kind, key, reply, created, if_true]
    grind
  · have precedes : Precedes row loaded := stems.precedes
    unfold Precedes at precedes
    simp only [Revision.told, Revision.Honest, deletionOf, shown, serialize, overlay,
      MessageOut.mk.injEq, if_true]
    grind

theorem honest_of_same (ok : revision.Ok) (current : row = revision.loaded) :
    revision.Honest row := by
  subst current
  rcases ok with ⟨access, loaded, text, now, rfl⟩ | ⟨access, loaded, now, rfl⟩
  · exact ⟨fun _ => rfl, fun _ => rfl, rfl⟩
  · exact fun cleared => cleared

end Telling

section Commits
variable {state next : State} {tx : TxId} {startedAt : Time} {seq eventId : Nat}
  {conversation : Uuid}

/-- Numbers ascend as events appear, so the log is the events as they appeared. -/
theorem log_appeared (inv : Inv state) (conversation : Uuid) :
    logOf state conversation = eventsOf state conversation := by
  apply List.Pairwise.insertionSort_eq
  exact ((inv_ordered inv).ascending conversation).imp fun order => Nat.le_of_lt order.1

theorem rebuilt_same (inv : Inv state) (after : Inv next)
    (same : eventsOf next conversation = eventsOf state conversation) :
    rebuilt next conversation = rebuilt state conversation := by
  unfold rebuilt
  rw [log_appeared inv, log_appeared after, same]

theorem committed_events {write : Write}
    (fields : Committed state next tx startedAt write seq eventId) (conversation : Uuid) :
    eventsOf next conversation = eventsOf state conversation ++
      if write.conversation = conversation then [eventOf write seq eventId startedAt] else [] := by
  unfold eventsOf
  rw [fields.events, List.filter_append, List.filter_singleton, Bool.cond_decide]
  rfl

/-- A commit elsewhere leaves the log of a conversation alone. -/
theorem rebuilt_elsewhere (inv : Inv state) (after : Inv next) {write : Write}
    (fields : Committed state next tx startedAt write seq eventId)
    (elsewhere : write.conversation ≠ conversation) :
    rebuilt next conversation = rebuilt state conversation := by
  apply rebuilt_same inv after
  rw [committed_events fields, if_neg elsewhere, List.append_nil]

theorem rebuilt_here (inv : Inv state) (after : Inv next) {write : Write}
    (fields : Committed state next tx startedAt write seq eventId) :
    rebuilt next write.conversation =
      (eventOf write seq eventId startedAt).tell (rebuilt state write.conversation) := by
  unfold rebuilt
  rw [log_appeared inv, log_appeared after, committed_events fields, if_pos rfl,
    List.foldl_append]
  rfl

theorem created_rebuilds (inv : Inv state) (after : Inv next) (rebuilds : Rebuilds state)
    {message : Message} {attachments : List Attachment} {actor : Uuid}
    (fields : Committed state next tx startedAt (.create message attachments actor) seq eventId) :
    Rebuilds next := by
  intro conversation
  have messages : messagesOf next conversation = messagesOf state conversation ++
      if message.conversationId = conversation then [message] else [] := by
    unfold messagesOf
    rw [fields.messages, applyWrite, List.filter_append, List.filter_singleton, ← Bool.cond_decide]
    rfl
  by_cases here : message.conversationId = conversation
  · subst here
    rw [messages, if_pos rfl, List.map_append, ← rebuilds]
    exact rebuilt_here inv after fields
  · rw [messages, if_neg here, List.append_nil, ← rebuilds]
    exact rebuilt_elsewhere inv after fields here

section Revised
variable {revision : Revision} {row : Message}
  (fields : Committed state next tx startedAt (.revise revision) seq eventId)
include fields

theorem revised_messages (conversation : Uuid) :
    messagesOf next conversation = (messagesOf state conversation).map fun other =>
      if other.id = revision.loaded.id then overlay revision other else other := by
  unfold messagesOf
  rw [fields.messages, applyWrite, List.filter_map]
  congr 2
  funext other
  simp only [Function.comp]
  split <;> rfl

/-- The messages of other conversations stay as they are. -/
theorem revised_elsewhere (inv : Inv state) (found : rowOf state revision.loaded.id = some row)
    (stems : Stems row revision.loaded)
    (elsewhere : revision.loaded.conversationId ≠ conversation) :
    messagesOf next conversation = messagesOf state conversation := by
  rw [revised_messages fields]
  refine (List.map_congr_left fun other member => if_neg fun named => ?_).trans (List.map_id _)
  obtain ⟨present, home⟩ := List.mem_filter.mp member
  have same : rowOf state other.id = some other := row_of_member inv present
  rw [named, found, Option.some.injEq] at same
  exact elsewhere (stems.conversation.symm.trans (same ▸ beq_iff_eq.mp home))

theorem told_event (ok : revision.Ok) (rows : List Message) :
    (eventOf (.revise revision) seq eventId startedAt).tell (rows.map shown) =
      rows.map fun other =>
        if other.id = revision.loaded.id then revision.told other else shown other := by
  rcases ok with ⟨access, loaded, text, now, rfl⟩ | ⟨access, loaded, now, rfl⟩
  · rw [ConversationEvent.tell]
    simp only [eventOf, Write.type, Write.payload, editOf, List.map_map]
    rfl
  · simp only [ConversationEvent.tell, eventOf, Write.type, Write.payload, deletionOf, List.map_map]
    rfl

/-- After the commit of a revision the log rebuilds the messages exactly when
the event was honest about the row. -/
theorem revised_rebuilds_iff (inv : Inv state) (after : Inv next) (rebuilds : Rebuilds state)
    (ok : revision.Ok) (found : rowOf state revision.loaded.id = some row)
    (stems : Stems row revision.loaded) : Rebuilds next ↔ revision.Honest row := by
  have home : row ∈ messagesOf state revision.loaded.conversationId :=
    List.mem_filter.mpr ⟨(row_member found).1, decide_eq_true stems.conversation⟩
  have named : row.id = revision.loaded.id := (row_member found).2
  have here : rebuilt next revision.loaded.conversationId =
      (messagesOf state revision.loaded.conversationId).map fun other =>
        if other.id = revision.loaded.id then revision.told other else shown other := by
    rw [← told_event fields ok, ← rebuilds]
    exact rebuilt_here inv after fields
  have there : (messagesOf next revision.loaded.conversationId).map shown =
      (messagesOf state revision.loaded.conversationId).map fun other =>
        shown (if other.id = revision.loaded.id then overlay revision other else other) := by
    rw [revised_messages fields, List.map_map]
    rfl
  rw [← told_iff ok named stems]
  constructor
  · intro told
    have agree := told revision.loaded.conversationId
    rw [here, there, List.map_inj_left] at agree
    have one := agree row home
    rwa [if_pos named, if_pos named] at one
  · intro told conversation
    by_cases same : revision.loaded.conversationId = conversation
    · subst same
      rw [here, there, List.map_inj_left]
      intro other member
      by_cases target : other.id = revision.loaded.id
      · have present : rowOf state other.id = some other :=
          row_of_member inv (List.mem_filter.mp member).1
        rw [target, found, Option.some.injEq] at present
        rw [if_pos target, if_pos target, ← present, told]
      · rw [if_neg target, if_neg target]
    · rw [revised_elsewhere fields inv found stems same, ← rebuilds]
      exact rebuilt_elsewhere inv after fields same

end Revised

end Commits

section Runs
variable {searchMatches : String → String → Bool} {state next : State} {action : Action}

theorem step_stems (state : State) (action : Action) (next : State)
    (holds : Inv state ∧ Copies Stems state) (taken : step searchMatches state action = some next) :
    Inv next ∧ Copies Stems next :=
  ⟨step_inv state action next holds.1 taken,
    step_copies holds.1 taken stems_self (stems_kept state action holds.1) holds.2⟩

/-- A step from rebuilt messages leads to rebuilt messages exactly when it is honest. -/
theorem step_rebuilds_iff (holds : Inv state ∧ Copies Stems state) (rebuilds : Rebuilds state)
    (taken : step searchMatches state action = some next) :
    Rebuilds next ↔ Honest state action := by
  have after : Inv next := step_inv state action next holds.1 taken
  cases effect_written (step_effect holds.1.phases taken) with
  | kept messages edits events =>
      have same : Rebuilds next := by
        intro conversation
        rw [rebuilt_same holds.1 after (by rw [eventsOf, events, eventsOf]), rebuilds conversation,
          messagesOf, messagesOf, messages]
      refine iff_of_true same ?_
      rintro tx revision row rfl ⟨startedAt, seq, eventId, ready⟩ found
      -- a commit adds an event
      have added := (commit_fields ready taken).events
      rw [events] at added
      simp at added
  | committed tx startedAt write seq eventId origin ready fields =>
      subst origin
      cases write with
      | create message attachments actor =>
          refine iff_of_true (created_rebuilds holds.1 after rebuilds fields) ?_
          rintro other revision row ⟨⟩ ⟨_, _, _, revising⟩ found
          rw [ready] at revising
          cases revising
      | revise revision =>
          have revising : Revising state tx revision := ⟨startedAt, seq, eventId, ready⟩
          obtain ⟨row, found, stems⟩ := revising_row holds.1 holds.2 revising
          rw [revised_rebuilds_iff fields holds.1 after rebuilds (revising_ok holds.1 revising)
            found stems]
          constructor
          · rintro honest other again read ⟨⟩ ⟨_, _, _, opened⟩ present
            rw [ready] at opened
            cases opened
            rwa [← Option.some.inj (found.symm.trans present)]
          · exact fun honest => honest tx revision row rfl revising found

theorem initial_rebuilds : Rebuilds initial := fun _ => rfl

/-- In a run of any requests, the log of every conversation rebuilds its
messages in every visited state exactly when each commit is honest about the
version it replaces. -/
theorem log_rebuilds_iff (searchMatches : String → String → Bool) (actions : List Action)
    (final : State) (ran : Runs.run (step searchMatches) initial actions = some final) :
    (∀ visited, Runs.Visits (step searchMatches) initial actions visited → Rebuilds visited) ↔
      Runs.Meets (step searchMatches) Honest initial actions := by
  have pairs : (∀ earlier later, Runs.Passes (step searchMatches) initial actions earlier later →
      Rebuilds later) ↔ Runs.Meets (step searchMatches) Honest initial actions := by
    apply Runs.pairs_iff_meets (fun state => Inv state ∧ Copies Stems state)
      (fun state => (Inv state ∧ Copies Stems state) ∧ Rebuilds state)
      (fun _ later => Rebuilds later) (fun _ => True) ran (fun _ _ => trivial) step_stems
    case needed =>
      intro state action next holds taken here _ there
      exact (step_rebuilds_iff holds here taken).mp there
    case sound =>
      intro state action next holds _ honest taken
      exact ⟨step_stems state action next holds.1 taken,
        (step_rebuilds_iff holds.1 holds.2 taken).mpr honest⟩
    case implied => exact fun state holds => holds.2
    case carried =>
      intro earlier state action next holds _ honest taken _
      exact (step_rebuilds_iff holds.1 holds.2 taken).mpr honest
    case base => exact ⟨initial_inv, initial_copies⟩
    case holds => exact ⟨⟨initial_inv, initial_copies⟩, initial_rebuilds⟩
  rw [← pairs]
  constructor
  · rintro always earlier later ⟨before, middle, after, rfl, reached, onward⟩
    exact always later ⟨before ++ middle, after, by simp,
      (Runs.run_append_iff _ _ _ _).mpr ⟨earlier, reached, onward⟩⟩
  · rintro always visited ⟨before, after, rfl, reached⟩
    exact always initial visited ⟨[], before, after, rfl, rfl, reached⟩

set_option maxRecDepth 4000 in
/-- The log ends with a text, the table with a tombstone. -/
theorem late_edit_misleads : ∃ final,
    Runs.run (step sameText) initial (deletedMeanwhile ++ editCommits) = some final ∧
      ¬Runs.Meets (step sameText) Honest initial (deletedMeanwhile ++ editCommits) := by
  obtain ⟨final, ran, told, kept⟩ : ∃ final,
      Runs.run (step sameText) initial (deletedMeanwhile ++ editCommits) = some final ∧
        (rebuilt final 1).map MessageOut.deleted = [false] ∧
        (messagesOf final 1).map (fun row => (shown row).deleted) = [true] :=
    ⟨_, rfl, rfl, rfl⟩
  refine ⟨final, ran, fun honest => ?_⟩
  have rebuilds : Rebuilds final :=
    (log_rebuilds_iff sameText _ final ran).mpr honest final ⟨_, [], by simp, ran⟩
  rw [rebuilds 1, List.map_map] at told
  cases told.symm.trans kept

/-- The commit replaces the version that was read. -/
def Current (state : State) (action : Action) : Prop :=
  ∀ tx revision row, action = .commit tx → Revising state tx revision →
    rowOf state revision.loaded.id = some row → row = revision.loaded

/-- Where no two requests change a message at once, the log is enough. -/
theorem unraced_log_rebuilds {actions : List Action} {final : State}
    (ran : Runs.run (step searchMatches) initial actions = some final)
    (unraced : Runs.Meets (step searchMatches) Current initial actions) : Rebuilds final := by
  have holds : (Inv final ∧ Copies Stems final) ∧ Rebuilds final :=
    Runs.guarded_invariant (fun state => (Inv state ∧ Copies Stems state) ∧ Rebuilds state)
      (fun state action next holds current taken =>
        ⟨step_stems state action next holds.1 taken,
          (step_rebuilds_iff holds.1 holds.2 taken).mpr
            fun tx revision row committing ready found =>
              honest_of_same (revising_ok holds.1.1 ready)
                (current tx revision row committing ready found)⟩)
      ran unraced ⟨⟨initial_inv, initial_copies⟩, initial_rebuilds⟩
  exact holds.2

end Runs

section Tombstones
variable {searchMatches : String → String → Bool} {state next : State} {action : Action}

/-- The event announces that the message is deleted. -/
def ConversationEvent.deletes (event : ConversationEvent) (message : Uuid) : Bool :=
  match event.payload with
  | .message _ => false
  | .deletion id _ => event.type == .deleted && id == message

/-- Tombstones and deletion events tell of each other. -/
structure Buried (state : State) : Prop where
  announced : ∀ row ∈ state.messages, row.deletedAt.isSome = true →
    ∃ event ∈ eventsOf state row.conversationId, event.deletes row.id = true
  deleted : ∀ event ∈ state.events, ∀ message, event.deletes message = true →
    ∃ row, rowOf state message = some row ∧ row.deletedAt.isSome = true

theorem deletion_marks {access : Access} {loaded row : Message} {now : Time}
    (precedes : Precedes row loaded) :
    (overlay (deletionOf access loaded now) row).deletedAt.isSome = true := by
  rw [deletion_deleted_at]
  split
  · rename_i copied
    exact precedes (by rw [← copied]; rfl)
  · rfl

theorem event_grown {event : ConversationEvent} {conversation : Uuid} {tx : TxId}
    {startedAt : Time} {write : Write} {seq eventId : Nat}
    (fields : Committed state next tx startedAt write seq eventId)
    (member : event ∈ eventsOf state conversation) : event ∈ eventsOf next conversation := by
  rw [committed_events fields]
  exact List.mem_append_left _ member

theorem created_buried (inv : Inv state) (buried : Buried state) {tx : TxId} {startedAt : Time}
    {message : Message} {attachments : List Attachment} {actor : Uuid} {seq eventId : Nat}
    (ready : state.txs tx = some ⟨startedAt, .logged (.create message attachments actor) seq eventId⟩)
    (fields : Committed state next tx startedAt (.create message attachments actor) seq eventId) :
    Buried next where
  announced := by
    obtain ⟨draft, id, now, rfl⟩ := inv.phases tx _ ready
    intro row member marked
    rw [fields.messages, applyWrite, List.mem_append, List.mem_singleton] at member
    rcases member with before | rfl
    · obtain ⟨event, logged, deletes⟩ := buried.announced row before marked
      exact ⟨event, event_grown fields logged, deletes⟩
    · cases marked
  deleted := by
    intro event member other deletes
    rw [fields.events, List.mem_append, List.mem_singleton] at member
    rcases member with before | rfl
    · obtain ⟨row, found, marked⟩ := buried.deleted event before other deletes
      refine ⟨row, ?_, marked⟩
      rw [(created_row other fields).1, found, Option.some_or]
    · cases deletes

theorem revised_buried (inv : Inv state) (copies : Copies Stems state) (buried : Buried state)
    {tx : TxId} {startedAt : Time} {revision : Revision} {seq eventId : Nat}
    (ready : state.txs tx = some ⟨startedAt, .logged (.revise revision) seq eventId⟩)
    (fields : Committed state next tx startedAt (.revise revision) seq eventId) :
    Buried next := by
  have revising : Revising state tx revision := ⟨startedAt, seq, eventId, ready⟩
  obtain ⟨target, found, stems⟩ := revising_row inv copies revising
  have ok := revising_ok inv revising
  constructor
  case announced =>
    intro row member marked
    rw [fields.messages, applyWrite, List.mem_map] at member
    obtain ⟨before, present, rfl⟩ := member
    -- a row that was marked already has its event
    have kept : before.deletedAt.isSome = true →
        ∃ event ∈ eventsOf next before.conversationId, event.deletes before.id = true := by
      intro old
      obtain ⟨event, logged, deletes⟩ := buried.announced before present old
      exact ⟨event, event_grown fields logged, deletes⟩
    by_cases here : before.id = revision.loaded.id
    · rw [if_pos here] at marked ⊢
      have same : rowOf state before.id = some before := row_of_member inv present
      rw [here, found, Option.some.injEq] at same
      subst same
      rcases ok with ⟨access, loaded, text, now, rfl⟩ | ⟨access, loaded, now, rfl⟩
      · rw [edit_deleted_at] at marked
        exact kept marked
      · refine ⟨eventOf (.revise (deletionOf access loaded now)) seq eventId startedAt, ?_, ?_⟩
        · rw [committed_events fields]
          apply List.mem_append_right
          have home : (Write.revise (deletionOf access loaded now)).conversation =
              (overlay (deletionOf access loaded now) target).conversationId :=
            stems.conversation.symm
          rw [if_pos home]
          exact List.mem_singleton_self _
        · simp only [ConversationEvent.deletes, eventOf, Write.payload, Write.type, deletionOf,
            overlay_id]
          simpa [deletionOf] using here.symm
    · rw [if_neg here] at marked ⊢
      exact kept marked
  case deleted =>
    intro event member message deletes
    rw [fields.events, List.mem_append, List.mem_singleton] at member
    rcases member with before | rfl
    · obtain ⟨row, present, marked⟩ := buried.deleted event before message deletes
      by_cases here : revision.loaded.id = message
      · subst here
        refine ⟨overlay revision row, ?_, overlay_deleted row ok marked⟩
        rw [(revised_row fields).1, present, Option.map_some]
      · exact ⟨row, (other_row fields here).1.trans present, marked⟩
    · rcases ok with ⟨access, loaded, text, now, rfl⟩ | ⟨access, loaded, now, rfl⟩
      · cases deletes
      · obtain rfl : loaded.id = message := by
          simpa [ConversationEvent.deletes, eventOf, Write.payload, Write.type, deletionOf]
            using deletes
        refine ⟨overlay (deletionOf access loaded now) target, ?_, deletion_marks stems.precedes⟩
        exact (revised_row fields).1.trans (congrArg (Option.map _) found)

/-- However sends, edits and deletions interleave, a message is a tombstone
exactly when the log of its conversation holds its deletion. -/
theorem tombstones_announced (searchMatches : String → String → Bool) (actions : List Action)
    (final : State) (ran : Runs.run (step searchMatches) initial actions = some final) :
    ∀ row ∈ final.messages, row.deletedAt.isSome = true ↔
      ∃ event ∈ eventsOf final row.conversationId, event.deletes row.id = true := by
  have holds : (Inv final ∧ Copies Stems final) ∧ Buried final := by
    apply Runs.run_invariant (fun state => (Inv state ∧ Copies Stems state) ∧ Buried state) _ ran
    · exact ⟨⟨initial_inv, initial_copies⟩, by rintro row ⟨⟩, by rintro event ⟨⟩⟩
    · intro state action next holds taken
      refine ⟨step_stems state action next holds.1 taken, ?_⟩
      cases effect_written (step_effect holds.1.1.phases taken) with
      | kept messages edits events =>
          constructor
          · simpa only [messages, eventsOf, events] using holds.2.announced
          · simpa only [rowOf, messages, events] using holds.2.deleted
      | committed tx startedAt write seq eventId origin ready fields =>
          cases write with
          | create message attachments actor =>
              exact created_buried holds.1.1 holds.2 ready fields
          | revise revision => exact revised_buried holds.1.1 holds.1.2 holds.2 ready fields
  intro row member
  refine ⟨holds.2.announced row member, ?_⟩
  rintro ⟨event, logged, deletes⟩
  obtain ⟨same, found, marked⟩ := holds.2.deleted event (List.mem_filter.mp logged).1 row.id deletes
  rwa [← Option.some.inj (found.symm.trans (row_of_member holds.1.1 member))]

set_option maxRecDepth 4000 in
theorem deleted_message_announced : ∃ final,
    Runs.run (step sameText) initial abandonedEdit = some final ∧
      ∀ row ∈ final.messages, row.deletedAt.isSome = true ↔
        ∃ event ∈ eventsOf final row.conversationId, event.deletes row.id = true :=
  ⟨_, rfl, tombstones_announced sameText abandonedEdit _ rfl⟩

end Tombstones

end RunnerupChat.MessageStore
