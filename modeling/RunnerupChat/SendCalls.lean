import RunnerupChat.Idempotency
import RunnerupChat.MessageInvariant

/-!
The calls of `send_message` with one idempotency key. The unique constraint
and the lock of the conversation keep at most one message for the key, and the
store is a slot that is filled once.
-/

namespace RunnerupChat.MessageStore

open Accounts SnapshotUpdate UniqueKeys

def Write.created : Write → Option Message
  | .create message _ _ => some message
  | .revise _ => none

/-- The message a phase has inserted and not committed. -/
def Phase.created : Phase → Option Message
  | .writing write _ | .logged write _ _ => write.created
  | _ => none

def keysOf (state : State) : List (Option SendKey) := state.messages.map Message.key

/-- No key is stored twice, and none that is inserted is stored. -/
structure Keyed (state : State) : Prop where
  distinct : (keysOf state).Nodup
  pending : ∀ tx transaction, state.txs tx = some transaction → ∀ message,
    transaction.phase.created = some message → message.key ∉ keysOf state

/-- The message stored under a key. -/
def slotOf (key : SendKey) (state : State) : Option Uuid :=
  (state.messages.find? fun row => row.key == some key).map Message.id

/-- The key of the call that a transaction carries out. -/
def callOf (state : State) (tx : TxId) : Option SendKey :=
  (state.txs tx).bind fun transaction => transaction.phase.key

/-- What an entry tells a call with the key. -/
def Entry.tells (key : SendKey) (state : State) : Entry → Option Answer
  | .answered tx answer => if callOf state tx = some key then some answer else none
  | .logged _ | .served _ | .published _ => none

/-- The answers that a step gives to calls with the key. -/
def answered (key : SendKey) (state : State) (_ : Action) (next : State) : List Answer :=
  (next.journal.drop state.journal.length).filterMap (Entry.tells key state)

section Keys
variable {state next : State}

theorem key_conversation {message : Message} {key : SendKey} (named : message.key = some key) :
    message.conversationId = key.conversation := by
  obtain ⟨sender, _, rfl⟩ := Option.map_eq_some_iff.mp named
  rfl

theorem new_message_key (draft : Draft) (seq : Nat) (id : Uuid) (now : Time) :
    (newMessage draft seq id now).key = some draft.key := rfl

theorem inserts_created (phase : Phase) : phase.inserts = phase.created.map Message.id := by
  cases phase with
  | writing write seq | logged write seq eventId => cases write <;> rfl
  | received | limiting | attaching | ready | numbered | publishing => rfl

theorem created_none {phase : Phase} (free : phase.inserts = none) : phase.created = none := by
  rw [inserts_created] at free
  exact Option.map_eq_none_iff.mp free

theorem keys_revise (revision : Revision) (state : State) :
    keysOf (applyWrite state (.revise revision)) = keysOf state := by
  rw [keysOf, applyWrite, List.map_map]
  apply List.map_congr_left
  intro row _
  simp only [Function.comp]
  split <;> rfl

theorem keys_create (message : Message) (attachments : List Attachment) (actor : Uuid)
    (state : State) :
    keysOf (applyWrite state (.create message attachments actor)) =
      keysOf state ++ [message.key] := by
  simp [keysOf, applyWrite]

/-- An insert whose key is stored violates the constraint. -/
theorem stored_collides (draft : Draft) (seq : Nat) (stored : some draft.key ∈ keysOf state) :
    Collides state draft seq := by
  obtain ⟨row, member, named⟩ := List.mem_map.mp stored
  obtain ⟨sender, sent, same⟩ := Option.map_eq_some_iff.mp named
  simp only [Draft.key, SendKey.mk.injEq] at same
  obtain ⟨inside, rfl, keyed⟩ := same
  exact ⟨row, member, inside, Or.inr ⟨sent, keyed⟩⟩

theorem pending_assign (keyed : Keyed state) {tx : TxId} {transaction : Option Transaction}
    (txs : next.txs = assign state.txs tx transaction) (keys : keysOf next = keysOf state)
    (here : ∀ moved, transaction = some moved → ∀ message, moved.phase.created = some message →
      message.key ∉ keysOf state) : Keyed next where
  distinct := keys ▸ keyed.distinct
  pending := by
    intro other moved found message held
    rw [keys]
    rw [txs] at found
    rcases assign_cases found with ⟨_, same⟩ | ⟨_, before⟩
    · exact here moved same message held
    · exact keyed.pending other moved before message held

/-- The lock is held from the insert to the commit, so no other insert of the
same key is open. -/
theorem created_alone (inv : Inv state) {tx other : TxId} {transaction moved : Transaction}
    {message inserted : Message} {key : SendKey} (opened : state.txs tx = some transaction)
    (held : transaction.phase.created = some message) (named : message.key = some key)
    (beside : state.txs other = some moved) (holds : moved.phase.created = some inserted)
    (same : inserted.key = some key) : other = tx := by
  have locked : ∀ {tx : TxId} {transaction : Transaction} {message : Message},
      state.txs tx = some transaction → transaction.phase.created = some message →
        state.locks message.conversationId = some tx := by
    intro tx ⟨startedAt, phase⟩ message opened held
    cases phase with
    | writing write seq =>
        cases write with
        | create created attachments actor =>
            cases held
            exact inv.locked tx ⟨message.conversationId, seq, none⟩
              (by simp [sequenced, opened, holdOf, Phase.hold, Write.conversation])
        | revise revision => cases held
    | logged write seq eventId =>
        cases write with
        | create created attachments actor =>
            cases held
            exact inv.locked tx ⟨message.conversationId, seq, some eventId⟩
              (by simp [sequenced, opened, holdOf, Phase.hold, Write.conversation])
        | revise revision => cases held
    | received | limiting | attaching | ready | numbered | publishing => cases held
  have first := locked opened held
  have second := locked beside holds
  rw [key_conversation named] at first
  rw [key_conversation same, first] at second
  exact (Option.some.inj second).symm

theorem committed_keyed (inv : Inv state) (keyed : Keyed state) {tx : TxId} {startedAt : Time}
    {write : Write} {seq eventId : Nat}
    (ready : state.txs tx = some ⟨startedAt, .logged write seq eventId⟩)
    (fields : Committed state next tx startedAt write seq eventId) : Keyed next := by
  have keys : keysOf next = keysOf (applyWrite state write) := by
    rw [keysOf, fields.messages, keysOf]
  cases write with
  | create message attachments actor =>
      have fresh := keyed.pending tx _ ready message rfl
      obtain ⟨draft, id, now, rfl⟩ := inv.phases tx _ ready
      rw [keys_create] at keys
      constructor
      case distinct =>
        rw [keys]
        exact List.nodup_append.mpr ⟨keyed.distinct, List.nodup_singleton _, by
          intro key member other here same
          rw [List.mem_singleton] at here
          exact fresh (here ▸ same ▸ member)⟩
      case pending =>
        intro other moved found inserted held stored
        rw [fields.txs] at found
        rw [keys] at stored
        rcases assign_cases found with ⟨_, same⟩ | ⟨apart, before⟩
        · rw [← Option.some.inj same] at held
          cases held
        · rcases List.mem_append.mp stored with old | new
          · exact keyed.pending other moved before inserted held old
          · have named := List.mem_singleton.mp new
            exact apart (created_alone inv ready rfl (new_message_key draft seq id now) before held
              (named.trans (new_message_key draft seq id now)))
  | revise revision =>
      rw [keys_revise] at keys
      apply pending_assign keyed fields.txs keys
      rintro moved ⟨⟩ message ⟨⟩

theorem step_keyed {searchMatches : String → String → Bool} {action : Action} (inv : Inv state)
    (keyed : Keyed state) (taken : step searchMatches state action = some next) : Keyed next := by
  cases step_effect inv.phases taken with
  | idle frame txs =>
      have keys : keysOf next = keysOf state := by rw [keysOf, frame.messages, keysOf]
      exact ⟨keys ▸ keyed.distinct, by rw [txs, keys]; exact keyed.pending⟩
  | moved tx transaction frame txs free =>
      apply pending_assign keyed txs (by rw [keysOf, frame.messages, keysOf])
      intro moved same message held
      rw [created_none (free moved same).inserts] at held
      cases held
  | opened id absent result =>
      rw [result]
      exact ⟨keyed.distinct, keyed.pending⟩
  | allocated tx startedAt job seq phase ready current free held plain result =>
      refine pending_assign keyed (by rw [result]; rfl) (by rw [result]; rfl) ?_
      rintro moved ⟨⟩ message inserted
      rw [created_none plain.1] at inserted
      cases inserted
  | flushed tx startedAt draft seq id numbered fresh result untaken =>
      refine pending_assign keyed (by rw [result]; rfl) (by rw [result]; rfl) ?_
      rintro moved ⟨⟩ message ⟨⟩ stored
      exact untaken (stored_collides draft seq stored)
  | logged tx startedAt write seq writing result =>
      refine pending_assign keyed (by rw [result]; rfl) (by rw [result]; rfl) ?_
      rintro moved ⟨⟩ message inserted
      exact keyed.pending tx _ writing message inserted
  | committed tx startedAt write seq eventId ready result =>
      exact committed_keyed inv keyed ready (commit_fields ready result)

theorem initial_keyed : Keyed initial := ⟨List.nodup_nil, by rintro tx transaction ⟨⟩⟩

end Keys

section Slots
variable {state next : State} {key : SendKey}

theorem slot_stored (keyed : Keyed state) {row : Message} (member : row ∈ state.messages)
    (named : row.key = some key) : slotOf key state = some row.id := by
  have found := find_member Message.key keyed.distinct member
  rw [named] at found
  rw [slotOf, found]
  rfl

theorem slot_empty_iff : slotOf key state = none ↔ some key ∉ keysOf state := by
  simp [slotOf, keysOf]

theorem slot_same (key : SendKey) (messages : next.messages = state.messages) :
    slotOf key next = slotOf key state := by
  rw [slotOf, messages, slotOf]

theorem slot_revise {tx : TxId} {startedAt : Time} {revision : Revision} {seq eventId : Nat}
    (fields : Committed state next tx startedAt (.revise revision) seq eventId) :
    slotOf key next = slotOf key state := by
  rw [slotOf, fields.messages, applyWrite, List.find?_map, Option.map_map, slotOf]
  have kept : ((fun row : Message => row.key == some key) ∘ fun row =>
      if row.id = revision.loaded.id then overlay revision row else row) =
      fun row => row.key == some key := by
    funext row
    simp only [Function.comp]
    split <;> rfl
  rw [kept]
  congr 1
  funext row
  simp only [Function.comp]
  split <;> rfl

theorem slot_create {tx : TxId} {startedAt : Time} {message : Message}
    {attachments : List Attachment} {actor : Uuid} {seq eventId : Nat}
    (fields : Committed state next tx startedAt (.create message attachments actor) seq eventId) :
    slotOf key next =
      (slotOf key state).or (if message.key = some key then some message.id else none) := by
  rw [slotOf, fields.messages, applyWrite, List.find?_append, List.find?_singleton, slotOf]
  cases state.messages.find? fun row => row.key == some key with
  | some row => rfl
  | none =>
      by_cases here : message.key = some key
      · simp [here]
      · simp [here]

/-- The number taken under the lock is no stored number of the conversation. -/
theorem numbered_fresh (inv : Inv state) {tx : TxId} {startedAt : Time} {draft : Draft} {seq : Nat}
    (opened : state.txs tx = some ⟨startedAt, .numbered draft seq⟩) {row : Message}
    (member : row ∈ state.messages) (inside : row.conversationId = draft.access.conversation) :
    row.seq ≠ seq := by
  rintro rfl
  have holding : (sequenced state).holds tx = some ⟨row.conversationId, row.seq, none⟩ := by
    simp [sequenced, opened, holdOf, Phase.hold, inside]
  obtain ⟨last, current, next⟩ := inv.log.taken tx _ holding
  have told : (row.conversationId, row.seq) ∈
      (state.events.filter fun event => event.creates row.id).map
        fun event => (event.conversationId, event.seq) := by
    rw [inv.announced.once row member]
    exact List.mem_singleton_self _
  obtain ⟨event, announced, same⟩ := List.mem_map.mp told
  obtain ⟨conversation, number⟩ := Prod.mk.inj same
  have logged : row.seq ∈ SequencedLog.numbers (sequenced state).entries row.conversationId :=
    List.mem_map.mpr ⟨entryOf event, List.mem_filter.mpr
      ⟨List.mem_map_of_mem (List.mem_filter.mp announced).1, by simp [entryOf, conversation]⟩,
      number⟩
  rw [inv.log.dense _ _ current] at logged
  have bounded := List.mem_range'_1.mp logged
  simp only at next
  omega

/-- Only a stored message with the same key keeps an insert out. -/
theorem collides_stored (inv : Inv state) {tx : TxId} {startedAt : Time} {draft : Draft} {seq : Nat}
    (opened : state.txs tx = some ⟨startedAt, .numbered draft seq⟩)
    (collides : Collides state draft seq) : some draft.key ∈ keysOf state := by
  obtain ⟨row, member, inside, number | ⟨sent, keyed⟩⟩ := collides
  · exact absurd number (numbered_fresh inv opened member inside)
  · refine List.mem_map.mpr ⟨row, member, ?_⟩
    simp [Message.key, sent, inside, keyed, Draft.key]

end Slots

/-- The branches of a call with the key that raise no `AppError`: the
conversation is gone when the number is taken, or the key is stored when the
message is inserted. -/
structure Unraced (key : SendKey) (state : State) (action : Action) : Prop where
  homed : ∀ tx startedAt draft, action = .allocateSeq tx →
    state.txs tx = some ⟨startedAt, .ready (.create draft)⟩ → draft.key = key →
      Homed state key.conversation
  untaken : ∀ tx id startedAt draft seq, action = .flush tx id →
    state.txs tx = some ⟨startedAt, .numbered draft seq⟩ → draft.key = key →
      slotOf key state = none

/-- What a call with the key is answered, and what its slot holds then. -/
inductive Tells (key : SendKey) (state next : State) (action : Action) : Answer → Prop
  | returned (message : Message) (created : Bool) (named : message.key = some key)
      (stored : Idempotency.Step (slotOf key state) [(message.id, created)] (slotOf key next)) :
      Tells key state next action (.sent message created)
  | refused (error : AppError) (slot : slotOf key next = slotOf key state) :
      Tells key state next action (.refused error)
  | failed (slot : slotOf key next = slotOf key state) (raced : ¬Unraced key state action) :
      Tells key state next action .failed

/-- The requests of this step, if any, have another key. -/
def Unasked (key : SendKey) (action : Action) : Prop :=
  ∀ tx request, action = .receive tx request → request.key ≠ some key

/-- What a step does to the calls with the key. -/
inductive CallStep (key : SendKey) (state next : State) (action : Action) : List Answer → Prop
  | silent (unasked : Unasked key action)
      (calls : ∀ tx, callOf next tx = some key ↔ callOf state tx = some key)
      (slot : slotOf key next = slotOf key state) : CallStep key state next action []
  | asked (tx : TxId) (request : Request) (origin : action = .receive tx request)
      (named : request.key = some key) (idle : callOf state tx ≠ some key)
      (calls : ∀ other, callOf next other = some key ↔ other = tx ∨ callOf state other = some key)
      (slot : slotOf key next = slotOf key state) : CallStep key state next action []
  | cut (tx : TxId) (origin : action = .rollback tx) (opened : callOf state tx = some key)
      (slot : slotOf key next = slotOf key state) : CallStep key state next action []
  | ended (tx : TxId) (answer : Answer) (opened : callOf state tx = some key)
      (unasked : Unasked key action)
      (calls : ∀ other, callOf next other = some key ↔ other ≠ tx ∧ callOf state other = some key)
      (tells : Tells key state next action answer) : CallStep key state next action [answer]

section Calls
variable {state next : State} {key : SendKey} {action : Action}

theorem answered_added (added : List Entry) (journal : next.journal = state.journal ++ added) :
    answered key state action next = added.filterMap (Entry.tells key state) := by
  rw [answered, journal, List.drop_left]

theorem call_assign {tx : TxId} {transaction : Option Transaction}
    (txs : next.txs = assign state.txs tx transaction) (other : TxId) :
    callOf next other =
      if other = tx then transaction.bind fun moved => moved.phase.key else callOf state other := by
  rw [callOf, txs]
  by_cases same : other = tx
  · rw [if_pos same, same, assign_same]
  · rw [if_neg same, assign_other _ _ same, callOf]

/-- The transaction goes on with the same call. -/
theorem calls_kept {tx : TxId} {before : Transaction} (after : Option Transaction)
    (opened : state.txs tx = some before) (txs : next.txs = assign state.txs tx after)
    (same : (after.bind fun moved => moved.phase.key) = before.phase.key) (other : TxId) :
    callOf next other = some key ↔ callOf state other = some key := by
  rw [call_assign txs]
  split
  · rename_i here
    rw [same, here, callOf, opened]
    rfl
  · rfl

/-- The transaction carries out no call with the key, before or after. -/
theorem calls_other {tx : TxId} {after : Option Transaction} (idle : callOf state tx ≠ some key)
    (txs : next.txs = assign state.txs tx after)
    (still : (after.bind fun moved => moved.phase.key) ≠ some key) (other : TxId) :
    callOf next other = some key ↔ callOf state other = some key := by
  rw [call_assign txs]
  split
  · rename_i here
    rw [here]
    exact iff_of_false still idle
  · rfl

/-- The transaction ends its call. -/
theorem calls_dropped {tx : TxId} {after : Option Transaction}
    (txs : next.txs = assign state.txs tx after)
    (ended : (after.bind fun moved => moved.phase.key) = none) (other : TxId) :
    callOf next other = some key ↔ other ≠ tx ∧ callOf state other = some key := by
  rw [call_assign txs]
  split
  · rename_i here
    rw [ended]
    simp [here]
  · rename_i apart
    simp [apart]

theorem call_opened {tx : TxId} {startedAt : Time} {phase : Phase}
    (opened : state.txs tx = some ⟨startedAt, phase⟩) : callOf state tx = phase.key := by
  rw [callOf, opened]
  rfl

/-- A call with the key that ends without a commit. -/
theorem ends_tells (inv : Inv state) (keyed : Keyed state) {tx : TxId} {startedAt : Time}
    {phase : Phase} {entry : Entry} (opened : state.txs tx = some ⟨startedAt, phase⟩)
    (ends : Ends state action tx phase entry) (mine : phase.key = some key)
    (messages : next.messages = state.messages) :
    ∃ answer, entry = .answered tx answer ∧ Tells key state next action answer := by
  have slot := slot_same key messages
  cases ends with
  | served _ response other rows => rw [other] at mine; cases mine
  | published broadcast => cases mine
  | refused _ error => exact ⟨_, rfl, .refused error slot⟩
  | reused _ row named stored same asked =>
      obtain rfl : named = key := Option.some.inj (asked.symm.trans mine)
      refine ⟨_, rfl, .returned row false same ?_⟩
      rw [slot, slot_stored keyed stored same]
      exact .reuse row.id
  | homeless job origin gone =>
      cases job with
      | create draft =>
          obtain rfl := Option.some.inj mine
          exact ⟨_, rfl, .failed slot fun unraced =>
            gone (unraced.homed tx startedAt draft origin opened rfl)⟩
      | revise revision => cases mine
  | taken draft seq id origin collides =>
      obtain rfl := Option.some.inj mine
      exact ⟨_, rfl, .failed slot fun unraced =>
        slot_empty_iff.mp (unraced.untaken tx id startedAt draft seq origin opened rfl)
          (collides_stored inv opened collides)⟩
  | overflow write seq wide =>
      cases write with
      | create message attachments actor => cases wide
      | revise revision => cases mine

theorem ended_call (inv : Inv state) (keyed : Keyed state) (unasked : Unasked key action)
    {tx : TxId} {startedAt : Time} {phase : Phase} {entry : Entry}
    (opened : state.txs tx = some ⟨startedAt, phase⟩)
    (ends : Ends state action tx phase entry) (txs : next.txs = assign state.txs tx none)
    (messages : next.messages = state.messages)
    (journal : next.journal = state.journal ++ [entry]) :
    CallStep key state next action (answered key state action next) := by
  rw [answered_added _ journal]
  by_cases mine : phase.key = some key
  · obtain ⟨answer, rfl, tells⟩ := ends_tells inv keyed opened ends mine messages
    have call : callOf state tx = some key := (call_opened opened).trans mine
    have told : [Entry.answered tx answer].filterMap (Entry.tells key state) = [answer] := by
      simp [Entry.tells, call]
    rw [told]
    exact .ended tx answer call unasked (calls_dropped txs rfl) tells
  · have idle : callOf state tx ≠ some key := by rwa [call_opened opened]
    have told : [entry].filterMap (Entry.tells key state) = [] := by
      cases ends <;> simp [Entry.tells, idle]
    rw [told]
    exact .silent unasked (calls_other idle txs (by simp)) (slot_same key messages)

theorem committed_call (keyed : Keyed state) (unasked : Unasked key action)
    {tx : TxId} {startedAt : Time} {write : Write} {seq eventId : Nat}
    (ready : state.txs tx = some ⟨startedAt, .logged write seq eventId⟩)
    (fields : Committed state next tx startedAt write seq eventId) :
    CallStep key state next action (answered key state action next) := by
  rw [answered_added _ fields.journal]
  by_cases mine : write.key = some key
  · cases write with
    | revise revision => cases mine
    | create message attachments actor =>
        have call : callOf state tx = some key := (call_opened ready).trans mine
        have told : [Entry.logged (eventOf (.create message attachments actor) seq eventId
              startedAt), .answered tx (answerOf (.create message attachments actor))].filterMap
            (Entry.tells key state) = [.sent message true] := by
          simp [List.filterMap_cons, Entry.tells, call, answerOf]
        have fresh : slotOf key state = none := by
          rw [slot_empty_iff, ← mine]
          exact keyed.pending tx _ ready message rfl
        have named : message.key = some key := mine
        rw [told]
        refine .ended tx _ call unasked (calls_dropped fields.txs rfl)
          (.returned message true mine ?_)
        rw [slot_create fields, fresh, if_pos named]
        exact .place message.id
  · have idle : callOf state tx ≠ some key := by rwa [call_opened ready]
    have told : [Entry.logged (eventOf write seq eventId startedAt),
        .answered tx (answerOf write)].filterMap (Entry.tells key state) = [] := by
      simp [Entry.tells, idle]
    rw [told]
    refine .silent unasked (calls_other idle fields.txs (by simp [Phase.key])) ?_
    cases write with
    | create message attachments actor =>
        have other : message.key ≠ some key := mine
        rw [slot_create fields, if_neg other, Option.or_none]
    | revise revision => exact slot_revise fields

theorem receive_vacant {searchMatches : String → String → Bool} {tx : TxId} {request : Request}
    (taken : step searchMatches state (.receive tx request) = some next) : state.txs tx = none := by
  simp only [step, receive] at taken
  split at taken
  · cases taken
  · rename_i vacant
    exact Option.not_isSome_iff_eq_none.mp vacant

theorem received_call {tx : TxId} {request : Request}
    (taken : receive state tx request = some next) :
    CallStep key state next (.receive tx request)
      (answered key state (.receive tx request) next) := by
  unfold receive at taken
  split at taken
  · cases taken
  · rename_i vacant
    have idle : callOf state tx ≠ some key := by
      rw [callOf, Option.not_isSome_iff_eq_none.mp vacant]
      simp
    cases taken
    rw [answered_added [] (by simp [enter])]
    by_cases mine : request.key = some key
    · refine .asked tx request rfl mine idle (fun other => ?_) rfl
      rw [call_assign rfl]
      split
      · rename_i here
        simp [here, Phase.key, mine]
      · rename_i apart
        simp [apart]
    · exact .silent (by rintro other asked ⟨⟩; exact mine)
        (calls_other idle rfl (by simpa [Phase.key] using mine)) rfl

theorem call_step {searchMatches : String → String → Bool} (key : SendKey) (inv : Inv state) (keyed : Keyed state)
    (taken : step searchMatches state action = some next) :
    CallStep key state next action (answered key state action next) := by
  by_cases received : ∃ tx request, action = .receive tx request
  · obtain ⟨tx, request, rfl⟩ := received
    exact received_call taken
  have unasked : Unasked key action :=
    fun tx request origin => absurd ⟨tx, request, origin⟩ received
  have quiet : next.journal = state.journal → answered key state action next = [] := by
    intro same
    rw [answered_added [] (by rw [same, List.append_nil]), List.filterMap_nil]
  cases step_effect inv.phases taken with
  | idle frame txs locks drawn journal =>
      rw [quiet journal]
      exact .silent unasked (fun tx => by rw [callOf, txs, callOf]) (slot_same key frame.messages)
  | moved tx transaction frame txs free locks drawn move =>
      obtain ⟨added, journal, move⟩ := move
      cases move with
      | received request asked => exact absurd ⟨tx, request, asked⟩ received
      | followed startedAt before after opened follows =>
          rw [quiet (by rw [journal, List.append_nil])]
          exact .silent unasked (calls_kept _ opened txs follows.key) (slot_same key frame.messages)
      | ended startedAt phase entry opened ends =>
          exact ended_call inv keyed unasked opened ends txs frame.messages journal
      | cut startedAt phase opened origin =>
          rw [quiet (by rw [journal, List.append_nil])]
          by_cases mine : phase.key = some key
          · exact .cut tx origin ((call_opened opened).trans mine) (slot_same key frame.messages)
          · exact .silent unasked
              (calls_other (by rwa [call_opened opened]) txs (by simp)) (slot_same key frame.messages)
  | opened id absent result =>
      rw [quiet (by rw [result])]
      exact .silent unasked (fun tx => by rw [result]; rfl) (slot_same key (by rw [result]))
  | allocated tx startedAt job seq phase ready current free held plain result follows =>
      rw [quiet (by rw [result]; rfl)]
      exact .silent unasked (calls_kept (some ⟨startedAt, phase⟩) ready (by rw [result]; rfl) follows.key)
        (slot_same key (by rw [result]; rfl))
  | flushed tx startedAt draft seq id numbered fresh result =>
      rw [quiet (by rw [result]; rfl)]
      exact .silent unasked (calls_kept _ numbered (by rw [result]; rfl) rfl)
        (slot_same key (by rw [result]; rfl))
  | logged tx startedAt write seq writing result =>
      rw [quiet (by rw [result]; rfl)]
      exact .silent unasked (calls_kept _ writing (by rw [result]; rfl) rfl)
        (slot_same key (by rw [result]; rfl))
  | committed tx startedAt write seq eventId ready result =>
      exact committed_call keyed unasked ready (commit_fields ready result)

/-- A returned message has the key of its call and is stored under it. -/
theorem sent_stored {searchMatches : String → String → Bool} (inv : Inv state) (keyed : Keyed state)
    (taken : step searchMatches state action = some next) {tx : TxId} {message : Message}
    {created : Bool}
    (told : Entry.answered tx (.sent message created) ∈ next.journal.drop state.journal.length) :
    ∃ key, callOf state tx = some key ∧ message.key = some key ∧
      slotOf key next = some message.id := by
  have silent : next.journal = state.journal → False := by
    intro same
    rw [same, List.drop_length] at told
    cases told
  cases step_effect inv.phases taken with
  | idle frame txs locks drawn journal => exact (silent journal).elim
  | opened id absent result => exact (silent (by rw [result])).elim
  | allocated other startedAt job seq phase ready current free held plain result =>
      exact (silent (by rw [result]; rfl)).elim
  | flushed other startedAt draft seq id numbered fresh result =>
      exact (silent (by rw [result]; rfl)).elim
  | logged other startedAt write seq writing result =>
      exact (silent (by rw [result]; rfl)).elim
  | moved other transaction frame txs free locks drawn move =>
      obtain ⟨added, journal, move⟩ := move
      rw [journal, List.drop_left] at told
      cases move with
      | received | followed | cut => cases told
      | ended startedAt phase entry opened ends =>
          obtain rfl := List.mem_singleton.mp told
          cases ends with
          | reused _ _ key stored same asked =>
              refine ⟨key, (call_opened opened).trans asked, same, ?_⟩
              rw [slot_same key frame.messages]
              exact slot_stored keyed stored same
  | committed other startedAt write seq eventId ready result =>
      have fields := commit_fields ready result
      rw [fields.journal, List.drop_left] at told
      rcases List.mem_cons.mp told with logged | answer
      · cases logged
      · have same := List.mem_singleton.mp answer
        cases write with
        | revise revision => cases same
        | create row attachments actor =>
            cases same
            obtain ⟨draft, id, now, rfl⟩ := inv.phases tx _ ready
            refine ⟨draft.key, call_opened ready, rfl, ?_⟩
            have absent : slotOf draft.key state = none :=
              slot_empty_iff.mpr (keyed.pending tx _ ready _ rfl)
            rw [slot_create fields, absent]
            simp [new_message_key]

/-- What a key has stored stays stored. -/
theorem step_slot {searchMatches : String → String → Bool} (inv : Inv state) (keyed : Keyed state)
    (taken : step searchMatches state action = some next) {id : Uuid}
    (stored : slotOf key state = some id) : slotOf key next = some id := by
  have stepped := call_step key inv keyed taken
  generalize answered key state action next = answers at stepped
  cases stepped with
  | silent unasked calls slot | asked tx request origin named idle calls slot
  | cut tx origin opened slot => rw [slot, stored]
  | ended tx answer opened unasked calls tells =>
      cases tells with
      | returned message created named step => exact Idempotency.slot_kept step stored
      | refused error slot => rw [slot, stored]
      | failed slot raced => rw [slot, stored]

end Calls

end RunnerupChat.MessageStore
