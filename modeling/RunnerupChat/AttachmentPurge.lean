import RunnerupChat.AttachmentBinding

/-!
`purge_orphan_attachments` of `worker.py` beside uploads and requests. A send
holds copies of the rows it selected; if a purge has deleted one of them by
the time the send writes its binding, the update hits no row and the send is
rolled back whole.
-/

namespace RunnerupChat.AttachmentPurge

open Accounts AttachmentBinding MessageStore

structure State where
  store : MessageStore.State
  /-- The column `created_at`. -/
  createdAt : Uuid → Time

inductive Action where
  | serve (action : MessageStore.Action)
  | purgeOrphanAttachments

def initial : State := { store := MessageStore.initial, createdAt := fun _ => 0 }

/-- `now() - interval '24 hours'`. -/
def expired (state : State) (row : Attachment) : Bool :=
  row.messageId.isNone && decide (state.createdAt row.id + 24 * 3600 * second < state.store.clock)

def withAttachments (store : MessageStore.State) (attachments : List Attachment) :
    MessageStore.State :=
  { store with attachments := attachments }

/-- A copy that is to be bound has lost its row. -/
def stale (store : MessageStore.State) (tx : TxId) : Bool :=
  match store.txs tx with
  | none => false
  | some transaction =>
      transaction.phase.selected.any fun row => (attachmentOf store row.id).isNone

section Machine
variable (searchMatches : String → String → Bool) (state : State)

def serve (action : MessageStore.Action) : Option State :=
  (AttachmentBinding.step searchMatches state.store action).map fun store =>
    { state with store := store }

def step : Action → Option State
  | .serve (.addAttachment row) =>
      (serve searchMatches state (.addAttachment row)).map fun next =>
        { next with createdAt := fun id =>
            if id = row.id then state.store.clock else state.createdAt id }
  | .serve (.commit tx) =>
      -- an update that hits fewer rows than it should raises StaleDataError
      if stale state.store tx then serve searchMatches state (.rollback tx)
      else serve searchMatches state (.commit tx)
  | .serve action => serve searchMatches state action
  | .purgeOrphanAttachments =>
      let left := state.store.attachments.filter fun row => !expired state row
      some { state with store := withAttachments state.store left }

end Machine

section Purging
variable {store : MessageStore.State}

/-- A row that is bound stays, whichever unbound rows are deleted. -/
theorem filtered_binding {gone : Attachment → Bool}
    (unbound : ∀ row, gone row = true → row.messageId = none) {id : Uuid}
    (bound : (bindingOf store id).isSome = true) :
    (bindingOf (withAttachments store (store.attachments.filter fun row => !gone row)) id).isSome =
      true := by
  obtain ⟨binding, held⟩ := Option.isSome_iff_exists.mp bound
  obtain ⟨row, found, message⟩ := Option.bind_eq_some_iff.mp held
  have kept : gone row = false := by
    by_contra deleted
    rw [unbound row (by simpa using deleted)] at message
    cases message
  have still : (store.attachments.filter fun row => !gone row).find? (fun row => row.id == id) =
      some row := by
    rw [List.find?_filter]
    obtain ⟨first, before, after, split, none⟩ := List.find?_eq_some_iff_append.mp found
    refine List.find?_eq_some_iff_append.mpr ⟨by simp [kept, first], before, after, split, ?_⟩
    intro other member
    have skipped := none other member
    simp only [Bool.not_eq_true'] at skipped ⊢
    simp [skipped]
  have moved : attachmentOf (withAttachments store
      (store.attachments.filter fun row => !gone row)) id = some row := still
  rw [bindingOf, moved, Option.bind_some, message]
  rfl

theorem purged_inv (inv : MessageStore.Inv store) (attachments : List Attachment) :
    MessageStore.Inv (withAttachments store attachments) :=
  ⟨inv.conversations, inv.log, inv.locked, inv.unique, inv.phases, inv.announced⟩

end Purging

/-- Every attachment that an event shows is there and bound. -/
structure Sound (store : MessageStore.State) : Prop where
  inv : MessageStore.Inv store
  selected : ∀ tx transaction, store.txs tx = some transaction →
    ∀ row ∈ transaction.phase.selected, row.messageId = none
  shown : ∀ event ∈ store.events, ∀ id ∈ listed event, (bindingOf store id).isSome = true

section Serving
variable {searchMatches : String → String → Bool} {store next : MessageStore.State}
  {action : MessageStore.Action}

theorem not_stale {tx : TxId} {transaction : Transaction} (present : stale store tx = false)
    (opened : store.txs tx = some transaction) {row : Attachment}
    (member : row ∈ transaction.phase.selected) : (attachmentOf store row.id).isSome = true := by
  simp only [stale, opened, List.any_eq_false] at present
  exact Option.isSome_iff_ne_none.mpr (by simpa using present row member)

/-- A commit that has lost none of its rows binds them all. -/
theorem present_binds (sound : Sound store) {tx : TxId} (present : stale store tx = false)
    {startedAt : Time} {message : Message} {selected : List Attachment} {actor : Uuid}
    {seq eventId : Nat}
    (ready : store.txs tx = some ⟨startedAt, .logged (.create message selected actor) seq eventId⟩)
    (fields : Committed store next tx startedAt (.create message selected actor) seq eventId)
    {row : Attachment} (member : row ∈ selected) : (bindingOf next row.id).isSome = true := by
  obtain ⟨conversation, bound⟩ := binding_created fields
    (fun copy inside => sound.selected tx _ ready copy inside) member
    (not_stale present ready member)
  rw [bound]
  rfl

theorem served_keeps (sound : Sound store)
    (taken : AttachmentBinding.step searchMatches store action = some next)
    (present : ∀ tx, action = .commit tx → stale store tx = false) {id : Uuid}
    (bound : (bindingOf store id).isSome = true) : (bindingOf next id).isSome = true := by
  rcases attachments_step taken with same | ⟨row, unbound, appended⟩ | ⟨tx, rfl⟩
  · rw [bindingOf, attachmentOf, same]
    exact bound
  · rw [binding_appended unbound appended]
    exact bound
  · obtain ⟨startedAt, write, seq, eventId, ready, fields⟩ := commit_taken (step_taken taken)
    cases write with
    | revise revision =>
        have same : next.attachments = store.attachments := fields.attachments
        rw [bindingOf, attachmentOf, same]
        exact bound
    | create message selected actor =>
        by_cases touched : ∃ row ∈ selected, row.id = id
        · obtain ⟨row, member, rfl⟩ := touched
          exact present_binds sound (present tx rfl) ready fields member
        · push Not at touched
          rw [binding_untouched fields touched]
          exact bound

theorem served_sound (sound : Sound store)
    (taken : AttachmentBinding.step searchMatches store action = some next)
    (present : ∀ tx, action = .commit tx → stale store tx = false) : Sound next := by
  have effect := step_effect sound.inv.phases (step_taken taken)
  refine ⟨MessageStore.step_inv store action next sound.inv (step_taken taken), ?_, ?_⟩
  · intro tx transaction found row member
    rcases selected_before effect found member with ⟨before, opened, inside⟩ | ⟨_, unbound⟩
    · exact sound.selected tx before opened row inside
    · exact unbound
  · intro event member id inside
    cases effect_written effect with
    | kept messages edits events =>
        exact served_keeps sound taken present (sound.shown event (events ▸ member) id inside)
    | committed tx startedAt write seq eventId origin ready fields =>
        rw [fields.events] at member
        rcases List.mem_append.mp member with old | new
        · exact served_keeps sound taken present (sound.shown event old id inside)
        · rw [List.mem_singleton.mp new, listed_commit (sound.inv.phases tx _ ready)] at inside
          obtain ⟨row, selected, rfl⟩ := List.mem_map.mp inside
          cases write with
          | revise revision => cases selected
          | create message copies actor =>
              exact present_binds sound (present tx origin) ready fields selected

theorem purged_sound (sound : Sound store) {gone : Attachment → Bool}
    (unbound : ∀ row, gone row = true → row.messageId = none) :
    Sound (withAttachments store (store.attachments.filter fun row => !gone row)) :=
  ⟨purged_inv sound.inv _, sound.selected, fun event member id inside =>
    filtered_binding unbound (sound.shown event member id inside)⟩

theorem initial_sound : Sound MessageStore.initial where
  inv := initial_inv
  selected := fun _ _ opened => by cases opened
  shown := fun _ member => by cases member

end Serving

section Runs
variable {searchMatches : String → String → Bool} {state next : State} {action : Action}

theorem serve_sound (sound : Sound state.store) {action : MessageStore.Action}
    (taken : serve searchMatches state action = some next)
    (present : ∀ tx, action = .commit tx → stale state.store tx = false) : Sound next.store := by
  obtain ⟨store, stepped, rfl⟩ := Option.map_eq_some_iff.mp taken
  exact served_sound sound stepped present

theorem step_sound (sound : Sound state.store) (taken : step searchMatches state action = some next) :
    Sound next.store := by
  unfold step at taken
  split at taken
  · obtain ⟨served, stepped, rfl⟩ := Option.map_eq_some_iff.mp taken
    have kept : Sound served.store := serve_sound sound stepped fun _ same => by cases same
    exact kept
  · rename_i tx
    cases lost : stale state.store tx with
    | true =>
        rw [if_pos lost] at taken
        exact serve_sound sound taken fun _ other => by cases other
    | false =>
        rw [if_neg (by simp [lost])] at taken
        refine serve_sound sound taken fun other same => ?_
        cases same
        exact lost
  · rename_i other
    exact serve_sound sound taken fun tx same => absurd same (other tx)
  · cases taken
    exact purged_sound sound fun row gone => by
      simp only [expired, Bool.and_eq_true, Option.isNone_iff_eq_none] at gone
      exact gone.1

/-- However purges fall among uploads and requests, whatever attachment an
event of a message shows is there, and bound to a message. -/
theorem shown_never_purged {actions : List Action} {final : State}
    (ran : Runs.run (step searchMatches) initial actions = some final)
    {event : ConversationEvent} (member : event ∈ final.store.events) {id : Uuid}
    (shown : id ∈ listed event) : (bindingOf final.store id).isSome = true :=
  (Runs.run_invariant (fun state => Sound state.store)
    (fun _ _ _ sound taken => step_sound sound taken) ran initial_sound).shown event member id shown

end Runs

/-- Two pictures are uploaded, and one is sent. -/
def sentOne : List MessageStore.Action :=
  [.addConversation 1, .addAttachment uploaded, .addAttachment { uploaded with id := 6 }] ++
    selectPicture 1 1 30 0 ++ bindPicture 1 10

/-- A day later the worker wakes. -/
def dayLater : List Action :=
  sentOne.map Action.serve ++ [.serve (.advance (86401 * second)), .purgeOrphanAttachments]

set_option maxRecDepth 4000 in
theorem sent_picture_stays : ∃ final,
    Runs.run (step sameText) initial dayLater = some final ∧
      attachmentOf final.store 6 = none ∧ (bindingOf final.store 5).isSome = true := by
  obtain ⟨final, event, ran, purged, events, shown⟩ : ∃ final event,
      Runs.run (step sameText) initial dayLater = some final ∧
        attachmentOf final.store 6 = none ∧ final.store.events = [event] ∧ listed event = [5] :=
    ⟨_, _, rfl, rfl, rfl, rfl⟩
  have member : event ∈ final.store.events := by simp [events]
  exact ⟨final, ran, purged, shown_never_purged ran member (by simp [shown])⟩

end RunnerupChat.AttachmentPurge
