import RunnerupChat.EventOrder

/-!
The objects that stand for one message: the payload of its `message.created`
event, the answer to its send, and the items of `list_messages` and
`search_messages`. All go through `_serialize`; the event alone is given the
attachments.
-/

namespace RunnerupChat.MessageObjects

open Accounts MessageStore UniqueKeys

/-- The message objects an entry hands out; the route of a send serializes the
row of its answer. -/
def objectsOf : Entry → List MessageOut
  | .served response => response.messages
  | .answered _ (.sent message _) => [serialize message []]
  | _ => []

def Shown (state : State) (message : Uuid) (object : MessageOut) : Prop :=
  ∃ entry ∈ state.journal, object ∈ objectsOf entry ∧ object.id = message

/-- The message that a payload is about. -/
def subject : Payload → Uuid
  | .message out => out.id
  | .deletion id _ => id

/-- No edit and no deletion of the message is committed. -/
def Unrevised (state : State) (message : Uuid) : Prop :=
  ∀ event ∈ state.events, subject event.payload = message → event.type = .created

/-- Every object and every creation of the message is made of its row. -/
structure FromRow (state : State) (message : Uuid) : Prop where
  shown : ∀ object, Shown state message object →
    ∃ row ∈ state.messages, row.id = message ∧ object = serialize row []
  announced : ∀ event ∈ state.events, event.creates message = true →
    ∃ row ∈ state.messages, row.id = message ∧
      ∃ attachments, event.payload = .message (serialize row attachments)

section Steps
variable {state next : State} {action : Action} {message : Uuid}

theorem unrevised_before (effect : Effect state next action) (unrevised : Unrevised next message) :
    Unrevised state message := by
  intro event member
  exact unrevised event ((effect_appends effect).subset member)

/-- A step that changes no row and adds objects of stored rows only. -/
theorem from_row_kept (fromRow : FromRow state message) {added : List Entry}
    (messages : next.messages = state.messages) (events : next.events = state.events)
    (journal : next.journal = state.journal ++ added)
    (stored : ∀ entry ∈ added, ∀ object ∈ objectsOf entry,
      ∃ row ∈ state.messages, object = serialize row []) : FromRow next message where
  shown := by
    rintro object ⟨entry, member, inside, named⟩
    rw [messages]
    rw [journal] at member
    rcases List.mem_append.mp member with old | new
    · exact fromRow.shown object ⟨entry, old, inside, named⟩
    · obtain ⟨row, present, rfl⟩ := stored entry new object inside
      exact ⟨row, present, named, rfl⟩
  announced := by
    rw [messages, events]
    exact fromRow.announced

theorem ends_stored {tx : TxId} {phase : Phase} {entry : Entry}
    (ends : Ends state action tx phase entry) :
    ∀ object ∈ objectsOf entry, ∃ row ∈ state.messages, object = serialize row [] := by
  intro object inside
  cases ends with
  | served _ response other rows => exact rows object inside
  | reused _ row key stored => exact ⟨row, stored, List.mem_singleton.mp inside⟩
  | published | refused | homeless | taken | overflow => cases inside

theorem from_row_created (fromRow : FromRow state message) {tx : TxId} {startedAt : Time}
    {created : Message} {attachments : List Attachment} {actor : Uuid} {seq eventId : Nat}
    (fields : Committed state next tx startedAt (.create created attachments actor) seq eventId) :
    FromRow next message := by
  have messages : next.messages = state.messages ++ [created] := fields.messages
  constructor
  case shown =>
    rintro object ⟨entry, member, inside, named⟩
    rw [messages]
    rw [fields.journal] at member
    rcases List.mem_append.mp member with old | new
    · obtain ⟨row, present, found⟩ := fromRow.shown object ⟨entry, old, inside, named⟩
      exact ⟨row, List.mem_append_left _ present, found⟩
    · rcases List.mem_cons.mp new with rfl | answer
      · cases inside
      · rw [List.mem_singleton.mp answer] at inside
        obtain rfl := List.mem_singleton.mp inside
        exact ⟨created, List.mem_append_right _ (List.mem_singleton_self _), named, rfl⟩
  case announced =>
    intro event member creates
    rw [messages]
    rw [fields.events] at member
    rcases List.mem_append.mp member with old | new
    · obtain ⟨row, present, found⟩ := fromRow.announced event old creates
      exact ⟨row, List.mem_append_left _ present, found⟩
    · rw [List.mem_singleton.mp new] at creates ⊢
      have named : created.id = message := by
        simpa [ConversationEvent.creates, eventOf, Write.type, Write.payload, Payload.announces,
          serialize] using creates
      exact ⟨created, List.mem_append_right _ (List.mem_singleton_self _), named, attachments, rfl⟩

theorem from_row_revised (fromRow : FromRow state message) {tx : TxId} {startedAt : Time}
    {revision : Revision} {seq eventId : Nat} (ok : revision.Ok)
    (fields : Committed state next tx startedAt (.revise revision) seq eventId)
    (unrevised : Unrevised next message) : FromRow next message := by
  have type : revision.type ≠ .created ∧ subject (Write.revise revision).payload =
      revision.loaded.id := by
    rcases ok with ⟨access, loaded, text, now, rfl⟩ | ⟨access, loaded, now, rfl⟩
    · exact ⟨by simp [editOf], rfl⟩
    · exact ⟨by simp [deletionOf], rfl⟩
  have other : message ≠ revision.loaded.id := by
    rintro rfl
    have created := unrevised (eventOf (.revise revision) seq eventId startedAt)
      (by rw [fields.events]; simp) type.2
    exact type.1 created
  have kept : ∀ row ∈ state.messages, row.id = message → row ∈ next.messages := by
    intro row member named
    rw [fields.messages]
    refine List.mem_map.mpr ⟨row, member, if_neg ?_⟩
    rw [named]
    exact other
  constructor
  case shown =>
    rintro object ⟨entry, member, inside, named⟩
    rw [fields.journal] at member
    rcases List.mem_append.mp member with old | new
    · obtain ⟨row, present, owned, made⟩ := fromRow.shown object ⟨entry, old, inside, named⟩
      exact ⟨row, kept row present owned, owned, made⟩
    · rcases List.mem_cons.mp new with rfl | answer
      · cases inside
      · rw [List.mem_singleton.mp answer] at inside
        cases inside
  case announced =>
    intro event member creates
    rw [fields.events] at member
    rcases List.mem_append.mp member with old | new
    · obtain ⟨row, present, owned, made⟩ := fromRow.announced event old creates
      exact ⟨row, kept row present owned, owned, made⟩
    · rw [List.mem_singleton.mp new, creates_nothing _ type.1] at creates
      cases creates

theorem from_row_step (inv : Inv state) (fromRow : FromRow state message)
    (effect : Effect state next action) (unrevised : Unrevised next message) :
    FromRow next message := by
  cases effect with
  | idle frame txs locks drawn quiet =>
      exact from_row_kept fromRow frame.messages frame.events (quiet.trans (List.append_nil _).symm)
        (by simp)
  | moved tx transaction frame txs free locks drawn move =>
      obtain ⟨added, journal, move⟩ := move
      apply from_row_kept fromRow frame.messages frame.events journal
      intro entry member
      cases move with
      | received | followed | cut => cases member
      | ended startedAt phase entry opened ends =>
          rw [List.mem_singleton.mp member]
          exact ends_stored ends
  | opened id absent result
  | allocated tx startedAt job seq phase ready current free held plain result
  | flushed tx startedAt draft seq id numbered fresh result
  | logged tx startedAt write seq writing result =>
      rw [result]
      exact from_row_kept fromRow rfl rfl (List.append_nil _).symm (by simp)
  | committed tx startedAt write seq eventId ready result =>
      have fields := commit_fields ready result
      cases write with
      | create created attachments actor => exact from_row_created fromRow fields
      | revise revision =>
          exact from_row_revised fromRow (inv.phases tx _ ready) fields unrevised

theorem effect_journal (effect : Effect state next action) : state.journal <+: next.journal := by
  cases effect with
  | idle frame | moved tx transaction frame =>
      obtain ⟨added, journal, _⟩ := frame.journal
      exact journal ▸ List.prefix_append _ _
  | opened id absent result
  | allocated tx startedAt job seq phase ready current free held plain result
  | flushed tx startedAt draft seq id numbered fresh result
  | logged tx startedAt write seq writing result =>
      subst result
      exact List.prefix_rfl
  | committed tx startedAt write seq eventId ready result =>
      rw [(commit_fields ready result).journal]
      exact List.prefix_append _ _

/-- A send stays a send of its attachments for as long as its request is open. -/
theorem names_step (effect : Effect state next action) {tx : TxId} {ids : List Uuid}
    (names : ∀ transaction, state.txs tx = some transaction → transaction.phase.Names ids)
    (same : ∀ request, action ≠ .receive tx request) (uncommitted : action ≠ .commit tx)
    (transaction : Transaction) (found : next.txs tx = some transaction) :
    transaction.phase.Names ids := by
  cases effect with
  | idle frame txs => exact names transaction (txs ▸ found)
  | moved other moved frame txs free locks drawn move =>
      rw [txs] at found
      obtain ⟨added, _, move⟩ := move
      rcases assign_cases found with ⟨rfl, rfl⟩ | ⟨_, old⟩
      · cases move with
        | received request asked vacant => exact absurd asked (same request)
        | followed startedAt before after opened follows =>
            exact follows.names ids (names _ opened)
      · exact names transaction old
  | opened id absent result =>
      rw [result] at found
      exact names transaction found
  | allocated other startedAt job seq phase ready current free held plain result follows =>
      rw [result] at found
      rcases assign_cases found with ⟨rfl, here⟩ | ⟨_, old⟩
      · rw [← Option.some.inj here]
        exact follows.names ids (names _ ready)
      · exact names transaction old
  | flushed other startedAt draft seq id numbered fresh result =>
      rw [result] at found
      rcases assign_cases found with ⟨rfl, here⟩ | ⟨_, old⟩
      · rw [← Option.some.inj here]
        have named := names _ numbered
        exact named
      · exact names transaction old
  | logged other startedAt write seq writing result =>
      rw [result] at found
      rcases assign_cases found with ⟨rfl, here⟩ | ⟨_, old⟩
      · rw [← Option.some.inj here]
        have named := names _ writing
        cases write with
        | create message attachments actor => exact named
        | revise revision => exact named
      · exact names transaction old
  | committed other startedAt write seq eventId ready result origin =>
      rw [(commit_fields ready result).txs] at found
      rcases assign_cases found with ⟨rfl, here⟩ | ⟨_, old⟩
      · exact absurd origin uncommitted
      · exact names transaction old

end Steps

section Runs
variable {searchMatches : String → String → Bool} {state final : State} {actions : List Action}
  {message : Uuid}

theorem run_from_row (ran : Runs.run (step searchMatches) initial actions = some final)
    (unrevised : Unrevised final message) : FromRow final message := by
  apply run_keeps (fun state => Unrevised state message → FromRow state message) ?_ initial_inv ?_
    ran unrevised
  · intro before after action inv fromRow effect later
    exact from_row_step inv (fromRow (unrevised_before effect later)) effect later
  · exact fun _ => ⟨by rintro object ⟨entry, ⟨⟩, _⟩, by rintro event ⟨⟩⟩

theorem run_journal (inv : Inv state)
    (ran : Runs.run (step searchMatches) state actions = some final) :
    state.journal <+: final.journal :=
  run_keeps (fun later => state.journal <+: later.journal)
    (fun _ _ _ _ grown effect => grown.trans (effect_journal effect)) inv List.prefix_rfl ran

theorem run_names (inv : Inv state) {tx : TxId} {ids : List Uuid}
    (names : ∀ transaction, state.txs tx = some transaction → transaction.phase.Names ids)
    (ran : Runs.run (step searchMatches) state actions = some final)
    (between : ∀ action ∈ actions, (∀ request, action ≠ .receive tx request) ∧
      action ≠ .commit tx) :
    ∀ transaction, final.txs tx = some transaction → transaction.phase.Names ids := by
  have meets : Runs.Meets (step searchMatches) (fun _ action =>
      (∀ request, action ≠ .receive tx request) ∧ action ≠ .commit tx) state actions :=
    Runs.meets_of_all between
  have both := Runs.guarded_invariant (fun state => Inv state ∧
      ∀ transaction, state.txs tx = some transaction → transaction.phase.Names ids)
    (fun state action next holds allowed taken => by
      have effect := step_effect holds.1.phases taken
      exact ⟨step_inv state action next holds.1 taken,
        names_step effect holds.2 allowed.1 allowed.2⟩)
    ran meets ⟨inv, names⟩
  exact both.2

/-- The steps from a send to its commit: `middle` has no other request under
the transaction and no earlier commit of it. -/
structure Accepted (searchMatches : String → String → Bool) (before middle after : List Action)
    (tx : TxId) (request : Request) (ready next final : State) : Prop where
  reached : Runs.run (step searchMatches) initial (before ++ .receive tx request :: middle) =
    some ready
  between : ∀ action ∈ middle, (∀ other, action ≠ .receive tx other) ∧ action ≠ .commit tx
  committed : step searchMatches ready (.commit tx) = some next
  onward : Runs.run (step searchMatches) next after = some final

variable {before middle after : List Action} {tx : TxId} {access : Access}
  {clientMsgId : Option Uuid} {body : Option String} {kind : MessageKind} {replyToId : Option Uuid}
  {attachmentIds : List Uuid} {ready next : State}

theorem accepted_names (accepted : Accepted searchMatches before middle after tx
      (.send access clientMsgId body kind replyToId attachmentIds) ready next final) :
    ∀ transaction, ready.txs tx = some transaction → transaction.phase.Names attachmentIds := by
  obtain ⟨arrived, first, second⟩ := (Runs.run_append_iff _ _ _ _).mp accepted.reached
  obtain ⟨asked, taken, rest⟩ := (Runs.run_cons_iff _ _ _ _).mp second
  have inv := run_inv first
  apply run_names (step_inv _ _ _ inv taken) ?_ rest accepted.between
  intro transaction found
  simp only [step, receive] at taken
  split at taken
  · cases taken
  · cases taken
    rcases assign_cases found with ⟨_, same⟩ | ⟨other, _⟩
    · rw [← Option.some.inj same]
      rfl
    · exact absurd rfl other

theorem accepted_whole {request : Request}
    (accepted : Accepted searchMatches before middle after tx request ready next final) :
    Runs.run (step searchMatches) initial
      ((before ++ .receive tx request :: middle) ++ .commit tx :: after) = some final := by
  rw [Runs.run_append_iff]
  refine ⟨ready, accepted.reached, ?_⟩
  rw [Runs.run_cons_iff]
  exact ⟨next, accepted.committed, accepted.onward⟩

/-- The row of a message that was never revised is found again by its id. -/
theorem serialized_row (inv : Inv final) {row other : Message} (member : row ∈ final.messages)
    (listed : other ∈ final.messages) (same : other.id = row.id) : other = row :=
  List.inj_on_of_nodup_map inv.unique.distinct listed member same

/-- The answer to a send, the lists and the searches all show the object of the
`message.created` event exactly when the send named no attachment. -/
theorem objects_agree_iff (searchMatches : String → String → Bool)
    (before middle after : List Action) (tx : TxId) (access : Access) (clientMsgId : Option Uuid)
    (body : Option String) (kind : MessageKind) (replyToId : Option Uuid)
    (attachmentIds : List Uuid) (ready next final : State)
    (accepted : Accepted searchMatches before middle after tx
      (.send access clientMsgId body kind replyToId attachmentIds) ready next final) :
    ∃ message event out,
      next.journal = ready.journal ++ [.logged event, .answered tx (.sent message true)] ∧
      event ∈ final.events ∧ event.type = .created ∧ event.payload = .message out ∧
      (Unrevised final message.id →
        ((∀ object, Shown final message.id object → object = out) ↔ attachmentIds = [])) := by
  have inv := run_inv accepted.reached
  have taken := accepted.committed
  simp only [step, commit] at taken
  split at taken
  case h_2 => cases taken
  case h_1 startedAt write seq eventId opened =>
    have fields := commit_fields opened accepted.committed
    have later := step_inv _ _ _ inv accepted.committed
    have named := accepted_names accepted _ opened
    cases write with
    | revise revision => cases named
    | create message attachments actor =>
        have logged : eventOf (.create message attachments actor) seq eventId startedAt ∈
            final.events := by
          apply (run_appends later accepted.onward).subset
          rw [fields.events]
          exact List.mem_append_right _ (List.mem_singleton_self _)
        refine ⟨message, _, serialize message attachments, fields.journal, logged, rfl, rfl, ?_⟩
        intro unrevised
        have whole := accepted_whole accepted
        have fromRow := run_from_row whole unrevised
        obtain ⟨row, stored, same, bound, payload⟩ := fromRow.announced _ logged (by
          simp [ConversationEvent.creates, eventOf, Write.type, Write.payload,
            Payload.announces, serialize])
        have object : serialize message attachments = serialize row bound :=
          Payload.message.inj payload
        have answered : Shown final message.id (serialize message []) := by
          refine ⟨.answered tx (.sent message true), ?_, List.mem_singleton_self _, rfl⟩
          apply (run_journal later accepted.onward).subset
          rw [fields.journal]
          simp [answerOf]
        constructor
        · intro agree
          have plain := congrArg MessageOut.attachments (agree _ answered)
          apply named.mp
          exact (List.map_eq_nil_iff.mp plain.symm)
        · intro none shown visible
          obtain ⟨other, listed, owned, rfl⟩ := fromRow.shown shown visible
          rw [serialized_row (run_inv whole) stored listed (owned.trans same.symm), object]
          have empty : (serialize row bound).attachments = [] := by
            rw [← object, named.mpr none]
            rfl
          rw [List.map_eq_nil_iff.mp empty]

end Runs

def photo : Attachment :=
  { id := 5, ownerId := 7, conversationId := some 1, messageId := none, displayName := "cat.png",
    byteSize := 9, detectedMime := "image/png", width := none, height := none,
    durationMs := none, state := .ready }

def photoSend : Request := .send (granted 1) (some 30) none .image none [5]

def photoSteps : List Action :=
  [.examine 1, .enforceBudget 1 0, .enforceBudget 1 0, .proceed 1, .selectAttachments 1,
    .allocateSeq 1, .flush 1 10, .logEvent 1]

set_option maxRecDepth 4000 in
theorem photo_accepted : ∃ ready next,
    Accepted sameText [.addConversation 1, .addAttachment photo] photoSteps [] 1 photoSend ready
      next next ∧
      ∃ (message : Message) (event : ConversationEvent) (out : MessageOut),
        next.journal = ready.journal ++ [.logged event, .answered 1 (.sent message true)] ∧
        event.type = .created ∧ event.payload = .message out ∧ Unrevised next message.id ∧
        Shown next message.id { out with attachments := [] } ∧ out.attachments ≠ [] := by
  refine ⟨_, _, ⟨rfl, ?_, rfl, rfl⟩, _, _, _, rfl, rfl, rfl, ?_, ?_, ?_⟩
  · simp [photoSteps]
  · intro event member subject
    rw [List.mem_singleton.mp member]
    rfl
  · exact ⟨_, List.mem_cons_of_mem _ List.mem_cons_self, List.mem_cons_self, rfl⟩
  · exact List.cons_ne_nil _ _

theorem photo_object_differs : ∃ ready next,
    Accepted sameText [.addConversation 1, .addAttachment photo] photoSteps [] 1 photoSend ready
      next next ∧
      ∃ (message : Message) (event : ConversationEvent) (out : MessageOut),
        event ∈ next.events ∧ event.payload = .message out ∧
        (Unrevised next message.id →
          ¬∀ object, Shown next message.id object → object = out) := by
  obtain ⟨ready, next, accepted, _⟩ := photo_accepted
  obtain ⟨message, event, out, _, logged, _, payload, agree⟩ := objects_agree_iff sameText
    _ _ _ _ _ _ _ _ _ _ _ _ _ accepted
  refine ⟨ready, next, accepted, message, event, out, logged, payload, fun unrevised all => ?_⟩
  cases (agree unrevised).mp all

theorem answer_lacks_attachments :
    ¬∀ (before middle after : List Action) (tx : TxId) (request : Request)
      (ready next final : State),
      Accepted sameText before middle after tx request ready next final →
        ∀ (message : Message) (event : ConversationEvent) (out : MessageOut),
          next.journal = ready.journal ++ [.logged event, .answered tx (.sent message true)] →
            event.type = .created → event.payload = .message out → Unrevised final message.id →
              ∀ object, Shown final message.id object → object = out := by
  intro claimed
  obtain ⟨ready, next, accepted, message, event, out, journal, type, payload, unrevised, shown,
    filled⟩ := photo_accepted
  have same := claimed _ _ _ _ _ _ _ _ accepted message event out journal type payload unrevised
    _ shown
  exact filled (congrArg MessageOut.attachments same).symm

end RunnerupChat.MessageObjects
