import RunnerupChat.MessageFaults

/-!
Which message an attachment belongs to. A send selects rows that are not
attached yet, without locking them, and binds them when it commits. Uploads
insert their rows as `request_upload` does: unattached, under an id of their own.
-/

namespace RunnerupChat.AttachmentBinding

open Accounts MessageStore UniqueKeys

section Machine
variable (searchMatches : String → String → Bool)

def step (state : State) : Action → Option State
  | .addAttachment row =>
      if row.messageId.isSome ∨ state.attachments.any fun other => other.id == row.id then none
      else MessageStore.step searchMatches state (.addAttachment row)
  | action => MessageStore.step searchMatches state action

end Machine

def attachmentOf (state : State) (id : Uuid) : Option Attachment :=
  state.attachments.find? fun row => row.id == id

/-- The message and the conversation that an attachment is bound to. -/
def bindingOf (state : State) (id : Uuid) : Option (Uuid × Option Uuid) :=
  (attachmentOf state id).bind fun row => row.messageId.map fun message => (message, row.conversationId)

/-- The attachments that a `message.created` event lists. -/
def listed (event : ConversationEvent) : List Uuid :=
  match event.type, event.payload with
  | .created, .message out => out.attachments.map AttachmentOut.id
  | _, _ => []

def ListedOnce (events : List ConversationEvent) : Prop :=
  events.Pairwise fun earlier later => ∀ id ∈ listed earlier, id ∉ listed later

/-- What is bound in the earlier state is bound to the same in the later one,
and no two events of the later state list one attachment. -/
structure Kept (earlier later : State) : Prop where
  bindings : ∀ id binding, bindingOf earlier id = some binding → bindingOf later id = some binding
  once : ListedOnce later.events

/-- Nothing that a commit binds is bound already. -/
def StillUnbound (state : State) : Action → Prop
  | .commit tx => ∀ transaction, state.txs tx = some transaction →
      ∀ row ∈ transaction.phase.selected, bindingOf state row.id = none
  | _ => True

section Steps
variable {searchMatches : String → String → Bool} {state next : State} {action : Action}

theorem step_taken (taken : step searchMatches state action = some next) :
    MessageStore.step searchMatches state action = some next := by
  cases action with
  | addAttachment row =>
      simp only [step] at taken
      split at taken
      · cases taken
      · exact taken
  | _ => exact taken

theorem commit_taken {tx : TxId}
    (taken : MessageStore.step searchMatches state (.commit tx) = some next) :
    ∃ startedAt write seq eventId, state.txs tx = some ⟨startedAt, .logged write seq eventId⟩ ∧
      Committed state next tx startedAt write seq eventId := by
  have committed : commit state tx = some next := taken
  simp only [MessageStore.step, commit] at taken
  split at taken
  · rename_i startedAt write seq eventId opened
    exact ⟨startedAt, write, seq, eventId, opened, commit_fields opened committed⟩
  · cases taken

/-- The attachments change by uploads and commits alone. -/
theorem attachments_step (taken : step searchMatches state action = some next) :
    next.attachments = state.attachments ∨
      (∃ row, row.messageId = none ∧ next.attachments = state.attachments ++ [row]) ∨
      ∃ tx, action = .commit tx := by
  have stored := step_taken taken
  have statement : ∀ tx, MessageFaults.requestOf (.serve action) = some tx →
      action ≠ .commit tx → next.attachments = state.attachments :=
    fun tx own early => (MessageFaults.request_statement stored own early).tables.attachments
  cases action with
  | commit tx => exact Or.inr (Or.inr ⟨tx, rfl⟩)
  | addAttachment row =>
      simp only [step] at taken
      split at taken
      · cases taken
      · rename_i unbound
        cases taken
        exact Or.inr (Or.inl ⟨row, by simpa using (not_or.mp unbound).1, rfl⟩)
  | advance | setMembers =>
      cases stored
      exact Or.inl rfl
  | addConversation id =>
      simp only [MessageStore.step, addConversation] at stored
      split at stored <;> cases stored
      exact Or.inl rfl
  | deleteConversation id =>
      simp only [MessageStore.step, deleteConversation] at stored
      split at stored <;> cases stored
      exact Or.inl rfl
  | receive tx | examine tx | enforceBudget tx | searchRows tx | proceed tx
  | selectAttachments tx | allocateSeq tx | flush tx | logEvent tx | publish tx | rollback tx =>
      exact Or.inl (statement tx rfl (by simp))

theorem message_ids_step (effect : Effect state next action) {id : Uuid}
    (stored : id ∈ state.messages.map Message.id) : id ∈ next.messages.map Message.id := by
  cases effect_written effect with
  | kept messages edits events =>
      rw [messages]
      exact stored
  | committed tx startedAt write seq eventId origin ready fields =>
      rw [fields.messages]
      cases write with
      | create message attachments actor =>
          rw [applyWrite, List.map_append]
          exact List.mem_append_left _ stored
      | revise revision =>
          rw [applyWrite, overlay_ids]
          exact stored

/-- The copies a request is to bind it selected before, or selects now. -/
theorem selected_before (effect : Effect state next action) {tx : TxId}
    {transaction : Transaction} (found : next.txs tx = some transaction) {row : Attachment}
    (member : row ∈ transaction.phase.selected) :
    (∃ before, state.txs tx = some before ∧ row ∈ before.phase.selected) ∨
      row ∈ state.attachments ∧ row.messageId = none := by
  cases effect with
  | idle frame txs => exact Or.inl ⟨transaction, txs ▸ found, member⟩
  | moved other moved frame txs free locks drawn move =>
      rw [txs] at found
      obtain ⟨added, _, move⟩ := move
      rcases assign_cases found with ⟨rfl, rfl⟩ | ⟨_, old⟩
      · cases move with
        | received request asked vacant => cases member
        | followed startedAt before after opened follows =>
            rcases follows.selected with same | fresh
            · exact Or.inl ⟨_, opened, same ▸ member⟩
            · exact Or.inr (fresh row member)
      · exact Or.inl ⟨transaction, old, member⟩
  | opened id absent result =>
      rw [result] at found
      exact Or.inl ⟨transaction, found, member⟩
  | allocated other startedAt job seq phase ready current free held plain result follows =>
      rw [result] at found
      rcases assign_cases found with ⟨rfl, same⟩ | ⟨_, old⟩
      · rw [← Option.some.inj same] at member
        rcases follows.selected with kept | fresh
        · exact Or.inl ⟨_, ready, kept ▸ member⟩
        · exact Or.inr (fresh row member)
      · exact Or.inl ⟨transaction, old, member⟩
  | flushed other startedAt draft seq id numbered fresh result =>
      rw [result] at found
      rcases assign_cases found with ⟨rfl, same⟩ | ⟨_, old⟩
      · rw [← Option.some.inj same] at member
        exact Or.inl ⟨_, numbered, member⟩
      · exact Or.inl ⟨transaction, old, member⟩
  | logged other startedAt write seq writing result =>
      rw [result] at found
      rcases assign_cases found with ⟨rfl, same⟩ | ⟨_, old⟩
      · rw [← Option.some.inj same] at member
        exact Or.inl ⟨_, writing, member⟩
      · exact Or.inl ⟨transaction, old, member⟩
  | committed other startedAt write seq eventId ready result =>
      rw [(commit_fields ready result).txs] at found
      rcases assign_cases found with ⟨rfl, same⟩ | ⟨_, old⟩
      · rw [← Option.some.inj same] at member
        cases member
      · exact Or.inl ⟨transaction, old, member⟩

end Steps

section Bindings
variable {searchMatches : String → String → Bool} {state next : State} {action : Action}
  {tx : TxId} {startedAt : Time} {message : Message} {selected : List Attachment} {actor : Uuid}
  {seq eventId : Nat}

theorem binding_appended {row : Attachment} (unbound : row.messageId = none)
    (appended : next.attachments = state.attachments ++ [row]) (id : Uuid) :
    bindingOf next id = bindingOf state id := by
  rw [bindingOf, bindingOf, attachmentOf, attachmentOf, appended, List.find?_append]
  cases state.attachments.find? fun row => row.id == id with
  | some found => rfl
  | none =>
      by_cases same : row.id = id
      · simp [same, unbound]
      · simp [same]

theorem attachment_created
    (fields : Committed state next tx startedAt (.create message selected actor) seq eventId)
    (id : Uuid) :
    attachmentOf next id = (attachmentOf state id).map fun row =>
      match selected.find? fun loaded => loaded.id == row.id with
      | some loaded => bindTo message loaded row
      | none => row := by
  rw [attachmentOf, fields.attachments, applyWrite, List.find?_map]
  have named : ((fun row : Attachment => row.id == id) ∘ fun row =>
      match selected.find? fun loaded => loaded.id == row.id with
      | some loaded => bindTo message loaded row
      | none => row) = fun row => row.id == id := by
    funext row
    simp only [Function.comp]
    split <;> rfl
  exact congrArg _ (congrArg (List.find? · state.attachments) named)

theorem binding_untouched
    (fields : Committed state next tx startedAt (.create message selected actor) seq eventId)
    {id : Uuid} (apart : ∀ row ∈ selected, row.id ≠ id) :
    bindingOf next id = bindingOf state id := by
  rw [bindingOf, bindingOf, attachment_created fields]
  cases found : attachmentOf state id with
  | none => rfl
  | some row =>
      have named : row.id = id := by simpa using List.find?_some found
      have missed : (selected.find? fun loaded => loaded.id == row.id) = none := by
        rw [List.find?_eq_none]
        intro loaded member same
        exact apart loaded member ((beq_iff_eq.mp same).trans named)
      simp [missed]

theorem binding_created
    (fields : Committed state next tx startedAt (.create message selected actor) seq eventId)
    (fresh : ∀ row ∈ selected, row.messageId = none) {row : Attachment} (member : row ∈ selected)
    (present : (attachmentOf state row.id).isSome = true) :
    ∃ conversation, bindingOf next row.id = some (message.id, conversation) := by
  obtain ⟨stored, found⟩ := Option.isSome_iff_exists.mp present
  have named : stored.id = row.id := by simpa using List.find?_some found
  have hit : (selected.find? fun loaded => loaded.id == stored.id).isSome = true := by
    rw [List.find?_isSome]
    exact ⟨row, member, by simp [named]⟩
  obtain ⟨loaded, first⟩ := Option.isSome_iff_exists.mp hit
  have unbound := fresh loaded (List.mem_of_find?_eq_some first)
  rw [bindingOf, attachment_created fields, found, Option.map_some, Option.bind_some, first]
  simp [bindTo, unbound]

/-- What holds whether or not attachments are bound anew. -/
structure Bound (state : State) : Prop where
  store : MessageStore.Inv state
  stored : ∀ id binding, bindingOf state id = some binding →
    binding.1 ∈ state.messages.map Message.id
  selected : ∀ tx transaction, state.txs tx = some transaction →
    ∀ row ∈ transaction.phase.selected,
      row.messageId = none ∧ (attachmentOf state row.id).isSome = true

theorem initial_bound : Bound initial where
  store := initial_inv
  stored := by
    intro id binding held
    cases held
  selected := by
    intro tx transaction opened
    cases opened

/-- A send binds each attachment it selected to its message. -/
theorem commit_binds (bound : Bound state) {tx : TxId} {startedAt : Time} {message : Message}
    {selected : List Attachment} {actor : Uuid} {seq eventId : Nat}
    (ready : state.txs tx = some ⟨startedAt, .logged (.create message selected actor) seq eventId⟩)
    (fields : Committed state next tx startedAt (.create message selected actor) seq eventId)
    {row : Attachment} (member : row ∈ selected) :
    ∃ conversation, bindingOf next row.id = some (message.id, conversation) := by
  have known := bound.selected tx _ ready
  exact binding_created fields (fun row inside => (known row inside).1) member (known row member).2

/-- A binding is the one it was, or the one that a commit makes of it. -/
inductive BindingStep (state next : State) (action : Action) (id : Uuid) : Prop
  | same (kept : bindingOf next id = bindingOf state id)
  | bound (tx : TxId) (startedAt : Time) (message : Message) (selected : List Attachment)
      (actor : Uuid) (seq eventId : Nat) (conversation : Option Uuid) (row : Attachment)
      (committing : action = .commit tx)
      (ready : state.txs tx = some ⟨startedAt, .logged (.create message selected actor) seq eventId⟩)
      (member : row ∈ selected) (named : row.id = id)
      (stored : message ∈ next.messages)
      (binding : bindingOf next id = some (message.id, conversation))

theorem binding_step (bound : Bound state) (taken : step searchMatches state action = some next)
    (id : Uuid) : BindingStep state next action id := by
  rcases attachments_step taken with same | ⟨row, unbound, appended⟩ | ⟨tx, rfl⟩
  · exact .same (by rw [bindingOf, attachmentOf, same, bindingOf, attachmentOf])
  · exact .same (binding_appended unbound appended id)
  · obtain ⟨startedAt, write, seq, eventId, ready, fields⟩ := commit_taken (step_taken taken)
    cases write with
    | revise revision =>
        have same : next.attachments = state.attachments := fields.attachments
        exact .same (by rw [bindingOf, attachmentOf, same, bindingOf, attachmentOf])
    | create message selected actor =>
        by_cases touched : ∃ row ∈ selected, row.id = id
        · obtain ⟨row, member, rfl⟩ := touched
          obtain ⟨conversation, binding⟩ := commit_binds bound ready fields member
          refine .bound tx startedAt message selected actor seq eventId conversation row rfl ready
            member rfl ?_ binding
          rw [fields.messages, applyWrite]
          exact List.mem_append_right _ (List.mem_singleton_self _)
        · push Not at touched
          exact .same (binding_untouched fields touched)

theorem attachment_kept (taken : step searchMatches state action = some next) {id : Uuid}
    (present : (attachmentOf state id).isSome = true) :
    (attachmentOf next id).isSome = true := by
  rcases attachments_step taken with same | ⟨row, unbound, appended⟩ | ⟨tx, rfl⟩
  · rw [attachmentOf, same]
    exact present
  · rw [attachmentOf, appended, List.find?_append, Option.isSome_or]
    exact Bool.or_eq_true_iff.mpr (Or.inl present)
  · obtain ⟨startedAt, write, seq, eventId, ready, fields⟩ := commit_taken (step_taken taken)
    cases write with
    | revise revision =>
        have same : next.attachments = state.attachments := fields.attachments
        rw [attachmentOf, same]
        exact present
    | create message selected actor =>
        rw [attachment_created fields, Option.isSome_map]
        exact present

theorem step_bound (bound : Bound state) (taken : step searchMatches state action = some next) :
    Bound next where
  store := step_inv state action next bound.store (step_taken taken)
  stored := by
    intro id binding held
    have effect := step_effect bound.store.phases (step_taken taken)
    cases binding_step bound taken id with
    | same kept => exact message_ids_step effect (bound.stored id binding (kept ▸ held))
    | bound tx startedAt message selected actor seq eventId conversation row committing ready
        member named stored made =>
        rw [Option.some.inj (held.symm.trans made)]
        exact List.mem_map_of_mem stored
  selected := by
    intro tx transaction found row member
    have effect := step_effect bound.store.phases (step_taken taken)
    rcases selected_before effect found member with ⟨before, opened, inside⟩ | ⟨stored, unbound⟩
    · obtain ⟨unbound, present⟩ := bound.selected tx before opened row inside
      exact ⟨unbound, attachment_kept taken present⟩
    · refine ⟨unbound, attachment_kept taken ?_⟩
      rw [attachmentOf, List.find?_isSome]
      exact ⟨row, stored, by simp⟩

end Bindings

section Runs
variable {searchMatches : String → String → Bool} {state next : State} {action : Action}

/-- The event of a commit lists what the commit binds. -/
theorem listed_commit {write : Write} {seq eventId : Nat} (ok : write.Ok seq) (startedAt : Time) :
    listed (eventOf write seq eventId startedAt) = write.selected.map Attachment.id := by
  cases write with
  | create message selected actor =>
      simp [listed, eventOf, Write.type, Write.payload, serialize, Write.selected]
  | revise revision =>
      rcases ok with ⟨access, loaded, text, now, rfl⟩ | ⟨access, loaded, now, rfl⟩ <;> rfl

/-- While nothing is bound anew, every attachment that an event lists is bound. -/
structure Settled (state : State) : Prop where
  bound : Bound state
  listedBound : ∀ event ∈ state.events, ∀ id ∈ listed event, (bindingOf state id).isSome = true
  once : ListedOnce state.events

theorem bindings_kept (bound : Bound state) (allowed : StillUnbound state action)
    (taken : step searchMatches state action = some next) {id : Uuid} {binding : Uuid × Option Uuid}
    (held : bindingOf state id = some binding) : bindingOf next id = some binding := by
  cases binding_step bound taken id with
  | same kept => exact kept.trans held
  | bound tx startedAt message selected actor seq eventId conversation row committing ready member
      named =>
      subst committing
      have unbound := allowed _ ready row member
      rw [named, held] at unbound
      cases unbound

/-- A step that binds nothing anew lists nothing anew. -/
theorem settled_step (settled : Settled state) (allowed : StillUnbound state action)
    (taken : step searchMatches state action = some next) : Settled next := by
  have bound := settled.bound
  have effect := step_effect bound.store.phases (step_taken taken)
  have carried : ∀ id, (bindingOf state id).isSome = true → (bindingOf next id).isSome = true := by
    intro id present
    obtain ⟨binding, held⟩ := Option.isSome_iff_exists.mp present
    rw [bindings_kept bound allowed taken held]
    rfl
  constructor
  case bound => exact step_bound bound taken
  case listedBound =>
    intro event member id inside
    cases effect_written effect with
    | kept messages edits events =>
        exact carried id (settled.listedBound event (events ▸ member) id inside)
    | committed tx startedAt write seq eventId origin ready fields =>
        rw [fields.events] at member
        rcases List.mem_append.mp member with old | new
        · exact carried id (settled.listedBound event old id inside)
        · rw [List.mem_singleton.mp new, listed_commit (bound.store.phases tx _ ready)] at inside
          obtain ⟨row, selected, rfl⟩ := List.mem_map.mp inside
          cases write with
          | revise revision => cases selected
          | create message copies actor =>
              obtain ⟨conversation, made⟩ := commit_binds bound ready fields selected
              rw [made]
              rfl
  case once =>
    cases effect_written effect with
    | kept messages edits events =>
        rw [events]
        exact settled.once
    | committed tx startedAt write seq eventId origin ready fields =>
        subst origin
        rw [fields.events]
        apply List.pairwise_append.mpr
        refine ⟨settled.once, List.pairwise_singleton _ _, ?_⟩
        intro earlier old later new id inside again
        rw [List.mem_singleton.mp new, listed_commit (bound.store.phases tx _ ready)] at again
        obtain ⟨row, selected, rfl⟩ := List.mem_map.mp again
        -- an id that is listed already is bound, so this commit was not allowed to take it
        have present := settled.listedBound earlier old row.id inside
        rw [allowed _ ready row selected] at present
        cases present

/-- A commit that binds anew changes a binding. -/
theorem unbound_needed (bound : Bound state) (taken : step searchMatches state action = some next)
    (kept : Kept state next) : StillUnbound state action := by
  cases action with
  | commit tx =>
      intro transaction opened row member
      obtain ⟨startedAt, write, seq, eventId, ready, fields⟩ := commit_taken (step_taken taken)
      rw [ready] at opened
      cases opened
      cases held : bindingOf state row.id with
      | none => rfl
      | some binding =>
          cases write with
          | revise revision => cases member
          | create message selected actor =>
              obtain ⟨conversation, made⟩ := commit_binds bound ready fields member
              -- a fresh message cannot be the one that the attachment is bound to
              have same := Option.some.inj ((kept.bindings row.id binding held).symm.trans made)
              have stored := bound.stored row.id binding held
              rw [same] at stored
              exact absurd stored (bound.store.unique.apart tx message.id
                (by simp [ready, insertsOf, Phase.inserts, Write.inserts]))
  | _ => trivial

/-- In a run every binding lasts and no two events list one attachment exactly
when no commit binds an attachment that is bound by then. -/
theorem bindings_last_iff (searchMatches : String → String → Bool) (actions : List Action)
    (final : State) (ran : Runs.run (step searchMatches) initial actions = some final) :
    (∀ earlier later, Runs.Passes (step searchMatches) initial actions earlier later →
        Kept earlier later) ↔
      Runs.Meets (step searchMatches) StillUnbound initial actions := by
  apply Runs.pairs_iff_meets Bound Settled Kept (fun _ => True) ran (fun _ _ => trivial)
  case keeps => exact fun state action next bound taken => step_bound bound taken
  case needed =>
    intro state action next bound taken here across there
    exact unbound_needed bound taken across
  case sound =>
    intro state action next settled admitted allowed taken
    exact settled_step settled allowed taken
  case implied => exact fun state settled => ⟨fun id binding held => held, settled.once⟩
  case carried =>
    intro earlier state action next settled admitted allowed taken related
    refine ⟨fun id binding held => ?_, (settled_step settled allowed taken).once⟩
    exact bindings_kept settled.bound allowed taken (related.bindings id binding held)
  case base => exact initial_bound
  case holds =>
    refine ⟨initial_bound, ?_, List.Pairwise.nil⟩
    intro event member
    cases member

end Runs

def uploaded : Attachment :=
  { id := 5, ownerId := 7, conversationId := some 1, messageId := none, displayName := "cat.png",
    byteSize := 9, detectedMime := "image/png", width := none, height := none,
    durationMs := none, state := .ready }

/-- A send of that picture, up to its selection. -/
def selectPicture (tx : TxId) (conversation key : Uuid) (nowMs : Nat) : List Action :=
  [.receive tx (.send (granted conversation) (some key) none .image none [5]), .examine tx,
    .enforceBudget tx nowMs, .enforceBudget tx nowMs, .proceed tx, .selectAttachments tx]

def bindPicture (tx : TxId) (id : Uuid) : List Action :=
  [.allocateSeq tx, .flush tx id, .logEvent tx, .commit tx]

/-- Two sends select one picture for two conversations, and the first commits. -/
def sentTwice : List Action :=
  [.addConversation 1, .addConversation 2, .addAttachment uploaded] ++ selectPicture 1 1 30 0 ++
    selectPicture 2 2 31 1 ++ bindPicture 1 10

set_option maxRecDepth 4000 in
theorem picture_moves : ∃ bound final,
    Runs.run (step sameText) initial (sentTwice ++ bindPicture 2 11) = some final ∧
      Runs.Passes (step sameText) initial (sentTwice ++ bindPicture 2 11) bound final ∧
      ¬Kept bound final := by
  obtain ⟨bound, final, ran, reached, onward, first, second⟩ : ∃ bound final,
      Runs.run (step sameText) initial (sentTwice ++ bindPicture 2 11) = some final ∧
        Runs.run (step sameText) initial sentTwice = some bound ∧
        Runs.run (step sameText) bound (bindPicture 2 11) = some final ∧
        bindingOf bound 5 = some (10, some 1) ∧ bindingOf final 5 = some (11, some 2) :=
    ⟨_, _, rfl, rfl, rfl, rfl, rfl⟩
  refine ⟨bound, final, ran, ⟨sentTwice, bindPicture 2 11, [], by simp, reached, onward⟩, ?_⟩
  intro kept
  rw [kept.bindings 5 _ first] at second
  cases second

theorem late_commit_binds_again : ∃ final,
    Runs.run (step sameText) initial (sentTwice ++ bindPicture 2 11) = some final ∧
      ¬Runs.Meets (step sameText) StillUnbound initial (sentTwice ++ bindPicture 2 11) := by
  obtain ⟨bound, final, ran, passes, moved⟩ := picture_moves
  refine ⟨final, ran, fun unbound => moved ?_⟩
  exact (bindings_last_iff sameText _ final ran).mpr unbound bound final passes

theorem attachment_rebound : ¬∀ (actions : List Action) (final : State),
    Runs.run (step sameText) initial actions = some final →
      ∀ earlier later, Runs.Passes (step sameText) initial actions earlier later →
        Kept earlier later := by
  intro claimed
  obtain ⟨bound, final, ran, passes, moved⟩ := picture_moves
  exact moved (claimed _ final ran bound final passes)

end RunnerupChat.AttachmentBinding
