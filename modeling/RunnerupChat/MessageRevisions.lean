import RunnerupChat.MessageInvariant

/-!
One message under its edits and deletions. Each request works on a copy that
it read without a lock; what a commit makes of the row is `overlay`.
-/

namespace RunnerupChat.MessageStore

open Accounts SnapshotUpdate UniqueKeys

/-- `db.get(Message, id)`. -/
def rowOf (state : State) (message : Uuid) : Option Message :=
  state.messages.find? fun row => row.id == message

def editsOf (state : State) (message : Uuid) : List MessageEdit :=
  state.edits.filter fun edit => edit.messageId == message

/-- The row that the commit of `tx` adds to the edit trail. -/
def Revision.trail (revision : Revision) : List MessageEdit :=
  if revision.type = .edited then [⟨revision.loaded.id, revision.loaded.body, revision.actor⟩]
  else []

/-- `tx` is about to commit this revision. -/
def Revising (state : State) (tx : TxId) (revision : Revision) : Prop :=
  ∃ startedAt seq eventId, state.txs tx = some ⟨startedAt, .logged (.revise revision) seq eventId⟩

section Overlay
variable (access : Access) (loaded row : Message) (text : String) (now : Time)

@[simp] theorem overlay_id (revision : Revision) : (overlay revision row).id = row.id := rfl

@[simp] theorem edit_count :
    (overlay (editOf access loaded (some text) now) row).editCount = loaded.editCount + 1 := by
  simp [overlay, editOf]

@[simp] theorem edit_deleted_at (body : Option String) :
    (overlay (editOf access loaded body now) row).deletedAt = row.deletedAt := by
  simp [overlay, editOf]

@[simp] theorem edit_deleted_by (body : Option String) :
    (overlay (editOf access loaded body now) row).deletedBy = row.deletedBy := by
  simp [overlay, editOf]

theorem edit_body (body : Option String) :
    (overlay (editOf access loaded body now) row).body =
      if body = loaded.body then row.body else body := rfl

@[simp] theorem deletion_count :
    (overlay (deletionOf access loaded now) row).editCount = row.editCount := by
  simp [overlay, deletionOf]

theorem deletion_body :
    (overlay (deletionOf access loaded now) row).body =
      if none = loaded.body then row.body else none := rfl

theorem deletion_deleted_at :
    (overlay (deletionOf access loaded now) row).deletedAt =
      if some now = loaded.deletedAt then row.deletedAt else some now := rfl

theorem deletion_deleted_by :
    (overlay (deletionOf access loaded now) row).deletedBy =
      if some access.user = loaded.deletedBy then row.deletedBy else some access.user := rfl

/-- No revision takes a deletion mark away. -/
theorem overlay_deleted {revision : Revision} (ok : revision.Ok)
    (deleted : row.deletedAt.isSome = true) : (overlay revision row).deletedAt.isSome = true := by
  rcases ok with ⟨access, loaded, text, now, rfl⟩ | ⟨access, loaded, now, rfl⟩
  · rwa [edit_deleted_at]
  · rw [deletion_deleted_at]
    split
    · exact deleted
    · rfl

end Overlay

section Rows
variable {state next : State} {message : Uuid}

theorem row_member {row : Message} (found : rowOf state message = some row) :
    row ∈ state.messages ∧ row.id = message :=
  ⟨List.mem_of_find?_eq_some found, by simpa using List.find?_some found⟩

/-- Ids are unique, so the lookup finds the row. -/
theorem row_of_member (inv : Inv state) {row : Message} (member : row ∈ state.messages) :
    rowOf state row.id = some row :=
  find_member Message.id inv.unique.distinct member

/-- What a step does to one message and to its edit trail. -/
inductive RowStep (state next : State) (message : Uuid) (action : Action) : Prop
  | same (row : rowOf next message = rowOf state message)
      (edits : editsOf next message = editsOf state message)
  | created (draft : Draft) (seq : Nat) (now : Time) (absent : rowOf state message = none)
      (row : rowOf next message = some (newMessage draft seq message now))
      (edits : editsOf next message = editsOf state message)
  | revised (tx : TxId) (revision : Revision) (committing : action = .commit tx)
      (ready : Revising state tx revision)
      (target : revision.loaded.id = message)
      (row : rowOf next message = (rowOf state message).map (overlay revision))
      (edits : editsOf next message = editsOf state message ++ revision.trail)

theorem row_unchanged (messages : next.messages = state.messages) (edits : next.edits = state.edits)
    (action : Action) : RowStep state next message action :=
  .same (by rw [rowOf, messages, rowOf]) (by rw [editsOf, edits, editsOf])

/-- An `UPDATE` of one row is found again under its id. -/
theorem find_overlay (revision : Revision) (rows : List Message) (message : Uuid) :
    (rows.map fun row => if row.id = revision.loaded.id then overlay revision row else row).find?
        (fun row => row.id == message) =
      (rows.find? fun row => row.id == message).map fun row =>
        if row.id = revision.loaded.id then overlay revision row else row := by
  rw [List.find?_map]
  congr 2
  funext row
  simp only [Function.comp]
  split <;> rfl

theorem trail_named (revision : Revision) :
    ∀ edit ∈ revision.trail, edit.messageId = revision.loaded.id := by
  intro edit member
  unfold Revision.trail at member
  split at member
  · rw [List.mem_singleton.mp member]
  · cases member

section Commit
variable {tx : TxId} {startedAt : Time} {seq eventId : Nat} {revision : Revision}

theorem revised_edits
    (fields : Committed state next tx startedAt (.revise revision) seq eventId) :
    next.edits = state.edits ++ revision.trail := by
  rw [fields.edits, applyWrite, Revision.trail]
  split <;> simp

theorem revised_row
    (fields : Committed state next tx startedAt (.revise revision) seq eventId) :
    rowOf next revision.loaded.id =
        (rowOf state revision.loaded.id).map (overlay revision) ∧
      editsOf next revision.loaded.id = editsOf state revision.loaded.id ++ revision.trail := by
  constructor
  · rw [rowOf, fields.messages, applyWrite, find_overlay, ← rowOf]
    cases found : rowOf state revision.loaded.id with
    | none => rfl
    | some row => simp [(row_member found).2]
  · rw [editsOf, revised_edits fields, List.filter_append, ← editsOf]
    congr 1
    rw [List.filter_eq_self]
    intro edit member
    simpa using trail_named revision edit member

theorem other_row (fields : Committed state next tx startedAt (.revise revision) seq eventId)
    (other : revision.loaded.id ≠ message) :
    rowOf next message = rowOf state message ∧ editsOf next message = editsOf state message := by
  constructor
  · rw [rowOf, fields.messages, applyWrite, find_overlay, ← rowOf]
    cases found : rowOf state message with
    | none => rfl
    | some row => simp [(row_member found).2, Ne.symm other]
  · rw [editsOf, revised_edits fields, List.filter_append, ← editsOf,
      List.filter_eq_nil_iff.mpr, List.append_nil]
    intro edit member
    simpa [trail_named revision edit member] using other

/-- The insert is found under its own new id only. -/
theorem created_row (message : Uuid) {created : Message} {attachments : List Attachment}
    {actor : Uuid}
    (fields : Committed state next tx startedAt (.create created attachments actor) seq eventId) :
    rowOf next message =
        (rowOf state message).or (if created.id = message then some created else none) ∧
      editsOf next message = editsOf state message := by
  constructor
  · rw [rowOf, fields.messages, applyWrite, List.find?_append, ← rowOf, List.find?_singleton]
    simp
  · rw [editsOf, fields.edits]
    rfl

theorem committed_row (inv : Inv state) {write : Write}
    (ready : state.txs tx = some ⟨startedAt, .logged write seq eventId⟩)
    (fields : Committed state next tx startedAt write seq eventId) :
    RowStep state next message (.commit tx) := by
  cases write with
  | create created attachments actor =>
      obtain ⟨draft, id, now, rfl⟩ := inv.phases tx _ ready
      have fresh := inv.unique.apart tx id
        (by simp [ready, insertsOf, Phase.inserts, Write.inserts, newMessage])
      obtain ⟨rows, edits⟩ := created_row message fields
      by_cases here : id = message
      · have absent : rowOf state message = none := by
          rw [rowOf, List.find?_eq_none]
          intro row member same
          exact fresh (List.mem_map.mpr ⟨row, member, by simpa [here] using same⟩)
        subst here
        exact .created draft seq now absent (by rw [rows, absent]; simp [newMessage]) edits
      · exact .same (by rw [rows]; simp [newMessage, here]) edits
  | revise revision =>
      by_cases here : revision.loaded.id = message
      · obtain ⟨rows, edits⟩ := revised_row fields
        subst here
        exact .revised tx revision rfl ⟨startedAt, seq, eventId, ready⟩ rfl rows edits
      · obtain ⟨rows, edits⟩ := other_row fields here
        exact .same rows edits

theorem revising_commit {searchMatches : String → String → Bool}
    (ready : Revising state tx revision)
    (taken : step searchMatches state (.commit tx) = some next) :
    rowOf next revision.loaded.id =
        (rowOf state revision.loaded.id).map (overlay revision) ∧
      editsOf next revision.loaded.id = editsOf state revision.loaded.id ++ revision.trail := by
  obtain ⟨startedAt, seq, eventId, ready⟩ := ready
  exact revised_row (commit_fields ready taken)

end Commit

theorem row_step {searchMatches : String → String → Bool} (inv : Inv state) {action : Action}
    (taken : step searchMatches state action = some next) (message : Uuid) :
    RowStep state next message action := by
  cases effect_written (step_effect inv.phases taken) with
  | kept messages edits events => exact row_unchanged messages edits action
  | committed tx startedAt write seq eventId origin ready fields =>
      exact origin ▸ committed_row inv ready fields

end Rows

section Copies
variable {state next : State}

/-- Every copy that an open request works on stands in this relation to its row. -/
def Copies (related : Message → Message → Prop) (state : State) : Prop :=
  ∀ tx transaction, state.txs tx = some transaction → ∀ loaded,
    transaction.phase.loaded = some loaded →
      ∃ row ∈ state.messages, row.id = loaded.id ∧ related row loaded

/-- The relation survives a commit. -/
def Kept (related : Message → Message → Prop) (state : State) (action : Action) : Prop :=
  ∀ tx revision, action = .commit tx → Revising state tx revision → ∀ row ∈ state.messages,
    row.id = revision.loaded.id → ∀ loaded : Message, loaded.id = row.id →
      related row loaded → related (overlay revision row) loaded

variable {related : Message → Message → Prop}

theorem copies_assign (copies : Copies related state) {tx : TxId}
    {transaction : Option Transaction} (messages : next.messages = state.messages)
    (txs : next.txs = assign state.txs tx transaction)
    (here : ∀ moved, transaction = some moved → ∀ loaded, moved.phase.loaded = some loaded →
      ∃ row ∈ state.messages, row.id = loaded.id ∧ related row loaded) :
    Copies related next := by
  intro other moved found loaded held
  rw [messages]
  rw [txs] at found
  rcases assign_cases found with ⟨_, same⟩ | ⟨_, kept⟩
  · exact here moved same loaded held
  · exact copies other moved kept loaded held

/-- A request that goes on keeps its copy or reads one now. -/
theorem follows_copies (copies : Copies related state) (fresh : ∀ row, related row row) {tx : TxId}
    {startedAt : Time} {before after : Phase} (opened : state.txs tx = some ⟨startedAt, before⟩)
    (follows : Follows state before after) (loaded : Message)
    (held : after.loaded = some loaded) :
    ∃ row ∈ state.messages, row.id = loaded.id ∧ related row loaded := by
  rcases follows.loaded with same | ⟨row, member, read⟩
  · exact copies tx _ opened loaded (same ▸ held)
  · obtain rfl : row = loaded := Option.some.inj (read.symm.trans held)
    exact ⟨row, member, rfl, fresh row⟩

theorem committed_copies (copies : Copies related state) {tx : TxId}
    (kept : Kept related state (.commit tx)) {startedAt : Time} {write : Write} {seq eventId : Nat}
    (ready : state.txs tx = some ⟨startedAt, .logged write seq eventId⟩)
    (fields : Committed state next tx startedAt write seq eventId) : Copies related next := by
  intro other moved found loaded held
  rw [fields.txs] at found
  rcases assign_cases found with ⟨_, same⟩ | ⟨_, opened⟩
  · rw [← Option.some.inj same] at held
    cases held
  · obtain ⟨row, member, named, close⟩ := copies other moved opened loaded held
    rw [fields.messages]
    cases write with
    | create message attachments actor =>
        exact ⟨row, List.mem_append_left _ member, named, close⟩
    | revise revision =>
        refine ⟨_, List.mem_map_of_mem member, ?_⟩
        split
        · rename_i target
          exact ⟨named, kept tx revision rfl ⟨startedAt, seq, eventId, ready⟩ row member target
            loaded named.symm close⟩
        · exact ⟨named, close⟩

theorem step_copies {searchMatches : String → String → Bool} {action : Action} (inv : Inv state)
    (taken : step searchMatches state action = some next) (fresh : ∀ row, related row row)
    (kept : Kept related state action) (copies : Copies related state) : Copies related next := by
  cases step_effect inv.phases taken with
  | idle frame txs =>
      intro tx transaction found
      rw [txs] at found
      rw [frame.messages]
      exact copies tx transaction found
  | moved tx transaction frame txs free locks drawn move =>
      apply copies_assign copies frame.messages txs
      rintro moved rfl loaded held
      obtain ⟨added, _, move⟩ := move
      cases move with
      | received request => cases held
      | followed startedAt before after opened follows =>
          exact follows_copies copies fresh opened follows loaded held
  | opened id absent result =>
      rw [result]
      exact copies
  | allocated tx startedAt job seq phase ready current free held plain result follows =>
      refine copies_assign copies (by rw [result]; rfl) (by rw [result]; rfl) ?_
      rintro moved ⟨⟩ loaded found
      exact follows_copies copies fresh ready follows loaded found
  | flushed tx startedAt draft seq id numbered absent result =>
      refine copies_assign copies (by rw [result]; rfl) (by rw [result]; rfl) ?_
      rintro moved ⟨⟩ loaded ⟨⟩
  | logged tx startedAt write seq writing result =>
      refine copies_assign copies (by rw [result]; rfl) (by rw [result]; rfl) ?_
      rintro moved ⟨⟩ loaded found
      exact copies tx _ writing loaded found
  | committed tx startedAt write seq eventId ready result origin =>
      exact committed_copies copies (origin ▸ kept) ready (commit_fields ready result)

theorem initial_copies : Copies related initial := by
  rintro tx transaction ⟨⟩

/-- The row under the id of a revision that is about to be committed. -/
theorem revising_row (inv : Inv state) (copies : Copies related state) {tx : TxId}
    {revision : Revision} (ready : Revising state tx revision) :
    ∃ row, rowOf state revision.loaded.id = some row ∧ related row revision.loaded := by
  obtain ⟨startedAt, seq, eventId, ready⟩ := ready
  obtain ⟨row, member, named, close⟩ := copies tx _ ready revision.loaded rfl
  exact ⟨row, named ▸ row_of_member inv member, close⟩

theorem revising_ok (inv : Inv state) {tx : TxId} {revision : Revision}
    (ready : Revising state tx revision) : revision.Ok := by
  obtain ⟨startedAt, seq, eventId, ready⟩ := ready
  exact inv.phases tx _ ready

end Copies

end RunnerupChat.MessageStore
