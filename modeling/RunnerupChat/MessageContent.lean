import RunnerupChat.AttachmentBinding
import RunnerupChat.MessageObjects
import RunnerupChat.Scanning

/-!
What `_validate_body` makes of a body, and what the row of a send has to show.
The body is tested before its characters are removed.
-/

namespace RunnerupChat.MessageContent

open Accounts MessageStore Scanning UniqueKeys

section Bodies

/-- The Unicode category Cc. -/
def isControl (char : Char) : Bool :=
  decide (char.toNat < 32 ∨ 127 ≤ char.toNat ∧ char.toNat ≤ 159)

/-- Of the body something stays that is not white space. -/
def KeepsText (body : Option String) : Prop :=
  ∃ text ∈ body, ∃ char ∈ text.toList, isKept char = true ∧ isSpace char = false

/-- What a body has to be that `_validate_body` returns. -/
structure Proper (returned : Option String) (kind : MessageKind) (attachments : Nat) : Prop where
  short : ∀ text ∈ returned, text.length ≤ maxBodyChars
  plain : ∀ text ∈ returned, ∀ char ∈ text.toList,
    (isControl char = true → char = '\t' ∨ char = '\n') ∧
      char.toNat ≠ 0x202d ∧ char.toNat ≠ 0x202e
  again : validateBody returned kind attachments = .ok returned

theorem strip_empty_iff (text : String) :
    strip text = "" ↔ ∀ char ∈ text.toList, isSpace char = true := by
  rw [← trim_nil_iff, ← String.toList_inj, strip, String.toList_ofList]
  rfl

theorem blank_iff (body : Option String) :
    (body.all fun text => strip text == "") = true ↔
      ¬∃ text ∈ body, ∃ char ∈ text.toList, isSpace char = false := by
  cases body with
  | none => simp
  | some text => simp [strip_empty_iff]

/-- All that `_validate_body` accepts and what it makes of it. -/
theorem validate_iff (body returned : Option String) (kind : MessageKind) (attachments : Nat) :
    validateBody body kind attachments = .ok returned ↔
      (kind = .text → ∃ text ∈ body, ∃ char ∈ text.toList, isSpace char = false) ∧
        (∀ text ∈ body, text.length ≤ maxBodyChars) ∧ attachments ≤ maxAttachments ∧
        returned = body.map fun text => String.ofList (text.toList.filter isKept) := by
  have long_iff : (body.any fun text => decide (maxBodyChars < text.length)) = true ↔
      ¬∀ text ∈ body, text.length ≤ maxBodyChars := by
    cases body <;> simp
  unfold validateBody
  by_cases empty : kind = .text ∧ (body.all fun text => strip text == "") = true
  · rw [if_pos empty]
    refine iff_of_false nofun ?_
    rintro ⟨content, _⟩
    exact (blank_iff body).mp empty.2 (content empty.1)
  · rw [if_neg empty]
    have content : kind = .text → ∃ text ∈ body, ∃ char ∈ text.toList, isSpace char = false := by
      intro text
      by_contra blank
      exact empty ⟨text, (blank_iff body).mpr blank⟩
    by_cases long : (body.any fun text => decide (maxBodyChars < text.length)) = true
    · rw [if_pos long]
      refine iff_of_false nofun ?_
      rintro ⟨_, short, _⟩
      exact long_iff.mp long short
    · rw [if_neg long]
      have short := not_not.mp (mt long_iff.mpr long)
      by_cases many : maxAttachments < attachments
      · rw [if_pos many]
        refine iff_of_false nofun ?_
        rintro ⟨_, _, few, _⟩
        omega
      · rw [if_neg many]
        constructor
        · intro answered
          exact ⟨content, short, Nat.le_of_not_lt many, (Except.ok.inj answered).symm⟩
        · rintro ⟨_, _, _, rfl⟩
          rfl

/-- A kept character is a control character only as a tab, a newline or from
U+007F on, where the loop over the characters takes none away. -/
theorem kept_control {char : Char} (kept : isKept char = true) (low : char.toNat < 127) :
    isControl char = true → char = '\t' ∨ char = '\n' := by
  intro control
  simp only [isKept, Bool.and_eq_true, Bool.or_eq_true, beq_iff_eq, decide_eq_true_eq] at kept
  simp only [isControl, decide_eq_true_eq] at control
  rcases kept.1.1 with (tab | line) | visible
  · exact Or.inl tab
  · exact Or.inr line
  · omega

theorem kept_plain {char : Char} (kept : isKept char = true) :
    char.toNat ≠ 0x202d ∧ char.toNat ≠ 0x202e := by
  simp only [isKept, Bool.and_eq_true, bne_iff_ne] at kept
  exact ⟨kept.2, kept.1.2⟩

theorem high_kept {char : Char} (high : 127 ≤ char.toNat ∧ char.toNat ≤ 159) :
    isKept char = true ∧ isControl char = true ∧ char ≠ '\t' ∧ char ≠ '\n' := by
  refine ⟨?_, ?_, ?_, ?_⟩
  · simp only [isKept, Bool.and_eq_true, Bool.or_eq_true, beq_iff_eq, decide_eq_true_eq, bne_iff_ne]
    omega
  · simp only [isControl, decide_eq_true_eq]
    omega
  · rintro rfl
    revert high
    decide
  · rintro rfl
    revert high
    decide

/-- The text that is returned shows something exactly when the body keeps it. -/
theorem returned_shows_iff {body returned : Option String} {kind : MessageKind} {attachments : Nat}
    (validated : validateBody body kind attachments = .ok returned) :
    (∃ text ∈ returned, ∃ char ∈ text.toList, isSpace char = false) ↔ KeepsText body := by
  obtain ⟨_, _, _, rfl⟩ := (validate_iff body returned kind attachments).mp validated
  cases body with
  | none => simp [KeepsText]
  | some text => simp [KeepsText, and_assoc]

/-- What is returned is proper exactly when no control character from U+007F on
is in the body, and a text message keeps something that is not white space. -/
theorem proper_iff {body returned : Option String} {kind : MessageKind} {attachments : Nat}
    (validated : validateBody body kind attachments = .ok returned) :
    Proper returned kind attachments ↔
      (∀ text ∈ body, ∀ char ∈ text.toList, ¬(127 ≤ char.toNat ∧ char.toNat ≤ 159)) ∧
        (kind = .text → KeepsText body) := by
  have shows := returned_shows_iff validated
  obtain ⟨_, short, few, rfl⟩ := (validate_iff body returned kind attachments).mp validated
  have made : ∀ text ∈ body.map fun text => String.ofList (text.toList.filter isKept),
      ∃ whole ∈ body, text.toList = whole.toList.filter isKept := by
    intro text member
    obtain ⟨whole, inside, rfl⟩ := Option.map_eq_some_iff.mp member
    exact ⟨whole, inside, String.toList_ofList⟩
  have makes : ∀ whole ∈ body, String.ofList (whole.toList.filter isKept) ∈
      body.map fun text => String.ofList (text.toList.filter isKept) :=
    fun whole inside => Option.map_eq_some_iff.mpr ⟨whole, inside, rfl⟩
  constructor
  · intro proper
    constructor
    · intro text member char inside high
      obtain ⟨kept, control, tab, line⟩ := high_kept high
      have stays : char ∈ (String.ofList (text.toList.filter isKept)).toList := by
        rw [String.toList_ofList]
        exact List.mem_filter.mpr ⟨inside, kept⟩
      exact ((proper.plain _ (makes text member) char stays).1 control).elim tab line
    · intro isText
      exact shows.mp (((validate_iff _ _ _ _).mp proper.again).1 isText)
  · rintro ⟨clean, content⟩
    have within : ∀ text ∈ body.map fun text => String.ofList (text.toList.filter isKept),
        text.length ≤ maxBodyChars := by
      intro text member
      obtain ⟨whole, present, same⟩ := made text member
      rw [← String.length_toList, same]
      exact (List.length_filter_le _ _).trans (short whole present)
    refine ⟨within, ?_, (validate_iff _ _ _ _).mpr ⟨?_, within, few, ?_⟩⟩
    · intro text member char inside
      obtain ⟨whole, present, same⟩ := made text member
      rw [same] at inside
      obtain ⟨stood, kept⟩ := List.mem_filter.mp inside
      refine ⟨fun control => ?_, kept_plain kept⟩
      have low : char.toNat < 127 := by
        have outside := clean whole present char stood
        simp only [isControl, decide_eq_true_eq] at control
        omega
      exact kept_control kept low control
    · exact fun isText => shows.mpr (content isText)
    · cases body with
      | none => rfl
      | some text => simp

end Bodies

section Rows
open AttachmentBinding (bindingOf Bound step_taken commit_taken commit_binds binding_untouched)

/-- The message shows something: a body that is not all white space, or an
attachment that is bound to it. -/
def HasContent (state : State) (message : Message) : Prop :=
  (∃ text ∈ message.body, ∃ char ∈ text.toList, isSpace char = false) ∨
    ∃ id conversation, bindingOf state id = some (message.id, conversation)

/-- The steps from a send to the commit of its row: `middle` has no other
request under the transaction and no earlier commit of it. -/
structure Stored (searchMatches : String → String → Bool) (before middle : List Action)
    (tx : TxId) (request : Request) (ready next : State) : Prop where
  reached : Runs.run (AttachmentBinding.step searchMatches) initial
    (before ++ .receive tx request :: middle) = some ready
  between : ∀ action ∈ middle, (∀ other, action ≠ .receive tx other) ∧ action ≠ .commit tx
  committed : AttachmentBinding.step searchMatches ready (.commit tx) = some next

variable {searchMatches : String → String → Bool} {state final ready next : State}
  {actions before middle : List Action} {tx : TxId}

theorem run_taken
    (ran : Runs.run (AttachmentBinding.step searchMatches) state actions = some final) :
    Runs.run (step searchMatches) state actions = some final := by
  induction actions generalizing state with
  | nil => exact ran
  | cons action rest ih =>
      obtain ⟨after, taken, onward⟩ := (Runs.run_cons_iff _ _ _ _).mp ran
      exact (Runs.run_cons_iff _ _ _ _).mpr ⟨after, step_taken taken, ih onward⟩

theorem run_bound
    (ran : Runs.run (AttachmentBinding.step searchMatches) initial actions = some final) :
    Bound final :=
  Runs.run_invariant Bound (fun _ _ _ bound taken => AttachmentBinding.step_bound bound taken) ran
    AttachmentBinding.initial_bound

/-- A part of a request that no statement changes is the one it came with. -/
theorem run_lasting {Part : Type} {view : Phase → Option Part} (lasting : Lasting view)
    (inv : Inv state) (ran : Runs.run (step searchMatches) state actions = some final)
    (between : ∀ action ∈ actions, ∀ request, action ≠ .receive tx request)
    {transaction : Transaction} (opened : final.txs tx = some transaction) {part : Part}
    (held : view transaction.phase = some part) :
    ∃ before, state.txs tx = some before ∧ view before.phase = some part := by
  have meets : Runs.Meets (step searchMatches)
      (fun _ action => ∀ request, action ≠ .receive tx request) state actions :=
    Runs.meets_of_all between
  have both := Runs.guarded_invariant (fun later => Inv later ∧
      ∀ transaction, later.txs tx = some transaction → view transaction.phase = some part →
        ∃ before, state.txs tx = some before ∧ view before.phase = some part)
    (fun later action after holds allowed taken => by
      refine ⟨step_inv later action after holds.1 taken, fun transaction found held => ?_⟩
      have effect := step_effect holds.1.phases taken
      rcases lasting_before lasting effect found held with
        ⟨earlier, was, same⟩ | ⟨request, asked, _⟩
      · exact holds.2 earlier was same
      · exact absurd asked (allowed request))
    ran meets ⟨inv, fun transaction found held => ⟨transaction, found, held⟩⟩
  exact both.2 transaction opened held

variable {access : Access} {clientMsgId : Option Uuid} {body : Option String}
  {kind : MessageKind} {replyToId : Option Uuid} {attachmentIds : List Uuid}

theorem stored_accepted {request : Request}
    (stored : Stored searchMatches before middle tx request ready next) :
    MessageObjects.Accepted searchMatches before middle [] tx request ready next next where
  reached := run_taken stored.reached
  between := stored.between
  committed := step_taken stored.committed
  onward := rfl

/-- The body of the row is the one that `_validate_body` returned. -/
theorem stored_body (stored : Stored searchMatches before middle tx
      (.send access clientMsgId body kind replyToId attachmentIds) ready next)
    {transaction : Transaction} (opened : ready.txs tx = some transaction) {text : Option String}
    (held : transaction.phase.body = some text) :
    validateBody body kind attachmentIds.length = .ok text := by
  obtain ⟨arrived, first, second⟩ := (Runs.run_append_iff _ _ _ _).mp stored.reached
  obtain ⟨asked, taken, rest⟩ := (Runs.run_cons_iff _ _ _ _).mp second
  have inv := step_inv _ _ _ (run_inv (run_taken first)) (step_taken taken)
  obtain ⟨received, found, carried⟩ := run_lasting body_lasting inv (run_taken rest)
    (fun action member => (stored.between action member).1) opened held
  have receives : receive arrived tx _ = some asked := step_taken taken
  unfold receive at receives
  split at receives
  · cases receives
  · cases receives
    rcases assign_cases found with ⟨_, same⟩ | ⟨other, _⟩
    · rw [← Option.some.inj same] at carried
      simp only [Phase.body] at carried
      cases validated : validateBody body kind attachmentIds.length with
      | error error =>
          rw [validated] at carried
          cases carried
      | ok returned =>
          rw [validated] at carried
          rw [Option.some.inj carried]
    · exact absurd rfl other

theorem stored_content_iff (stored : Stored searchMatches before middle tx
      (.send access clientMsgId body kind replyToId attachmentIds) ready next) :
    ∃ message, next.messages = ready.messages ++ [message] ∧
      (HasContent next message ↔ KeepsText body ∨ attachmentIds ≠ []) := by
  have bound := run_bound stored.reached
  have accepted := stored_accepted stored
  obtain ⟨startedAt, write, seq, eventId, opened, fields⟩ := commit_taken accepted.committed
  have named := MessageObjects.accepted_names accepted _ opened
  cases write with
  | revise revision => cases named
  | create message attachments actor =>
      have validated := stored_body stored opened rfl
      refine ⟨message, fields.messages, or_congr (returned_shows_iff validated) ?_⟩
      constructor
      · rintro ⟨id, conversation, binding⟩ none
        -- the id of the row is its own, so nothing was bound to it before
        have untouched : bindingOf next id = bindingOf ready id := by
          apply binding_untouched fields
          rw [named.mpr none]
          exact fun _ member => absurd member List.not_mem_nil
        rw [untouched] at binding
        have known := bound.stored id _ binding
        have later := step_inv _ _ _ bound.store accepted.committed
        have distinct := later.unique.distinct
        rw [fields.messages, applyWrite, List.map_append, List.nodup_append] at distinct
        exact distinct.2.2 _ known _ (List.mem_singleton_self _) rfl
      · intro some
        obtain ⟨row, member⟩ := List.exists_mem_of_ne_nil _ (mt named.mp some)
        obtain ⟨conversation, binding⟩ := commit_binds bound opened fields member
        exact ⟨row.id, conversation, binding⟩

/-- A stored message shows something, and a validated body is proper, exactly
under these conditions on the request. -/
theorem content_and_shape_iff (searchMatches : String → String → Bool) (body : Option String)
    (kind : MessageKind) :
    (∀ (before middle : List Action) (tx : TxId) (access : Access) (clientMsgId : Option Uuid)
        (replyToId : Option Uuid) (attachmentIds : List Uuid) (ready next : State),
      Stored searchMatches before middle tx
        (.send access clientMsgId body kind replyToId attachmentIds) ready next →
      ∃ message, next.messages = ready.messages ++ [message] ∧
        (HasContent next message ↔ KeepsText body ∨ attachmentIds ≠ [])) ∧
      ∀ (returned : Option String) (attachments : Nat),
        validateBody body kind attachments = .ok returned →
        (Proper returned kind attachments ↔
          (∀ text ∈ body, ∀ char ∈ text.toList, ¬(127 ≤ char.toNat ∧ char.toNat ≤ 159)) ∧
            (kind = .text → KeepsText body)) :=
  ⟨fun _ _ _ _ _ _ _ _ _ stored => stored_content_iff stored,
    fun _ _ validated => proper_iff validated⟩

/-- A text of which only a direction override is not white space. -/
def overrideSend : Request := .send (granted 1) (some 30) (some "\u202e") .text none []

def overrideSteps : List Action :=
  [.examine 1, .enforceBudget 1 0, .enforceBudget 1 0, .proceed 1, .selectAttachments 1,
    .allocateSeq 1, .flush 1 10, .logEvent 1]

set_option maxRecDepth 4000 in
theorem override_stored : ∃ ready next message,
    Stored sameText [.addConversation 1] overrideSteps 1 overrideSend ready next ∧
      next.messages = ready.messages ++ [message] ∧ message.body = some "" ∧
      next.attachments = [] := by
  obtain ⟨ready, next, message, reached, committed, added, body, unbound⟩ :
      ∃ ready next message,
        Runs.run (AttachmentBinding.step sameText) initial
            ([.addConversation 1] ++ .receive 1 overrideSend :: overrideSteps) = some ready ∧
          AttachmentBinding.step sameText ready (.commit 1) = some next ∧
          next.messages = ready.messages ++ [message] ∧ message.body = some "" ∧
          next.attachments = [] :=
    ⟨_, _, _, rfl, rfl, rfl, rfl, rfl⟩
  exact ⟨ready, next, message, ⟨reached, by simp [overrideSteps], committed⟩, added, body, unbound⟩

/-- The message of such a text shows nothing, and its body would be refused. -/
theorem override_shows_nothing :
    ¬((∀ (searchMatches : String → String → Bool) (before middle : List Action) (tx : TxId)
          (access : Access) (clientMsgId : Option Uuid) (body : Option String)
          (kind : MessageKind) (replyToId : Option Uuid) (attachmentIds : List Uuid)
          (ready next : State),
        Stored searchMatches before middle tx
          (.send access clientMsgId body kind replyToId attachmentIds) ready next →
        ∀ message, next.messages = ready.messages ++ [message] → HasContent next message) ∧
      ∀ (body returned : Option String) (kind : MessageKind) (attachments : Nat),
        validateBody body kind attachments = .ok returned →
        Proper returned kind attachments) := by
  rintro ⟨contents, _⟩
  obtain ⟨ready, next, message, stored, added, empty, unbound⟩ := override_stored
  rcases contents _ _ _ _ _ _ _ _ _ _ _ _ stored message added with
    ⟨text, here, char, inside, _⟩ | ⟨id, conversation, binding⟩
  · rw [empty] at here
    obtain rfl := Option.some.inj here
    cases inside
  · rw [bindingOf, AttachmentBinding.attachmentOf, unbound] at binding
    cases binding

/-- A message that keeps its text, and the body that it is validated to. -/
theorem greeting_has_content :
    (∃ ready next, ∃ message, Stored sameText [.addConversation 1] overrideSteps 1
        (.send (granted 1) (some 30) (some "hi") .text none []) ready next ∧
      next.messages = ready.messages ++ [message] ∧
      (HasContent next message ↔ KeepsText (some "hi") ∨ ([] : List Uuid) ≠ [])) ∧
    (Proper (some "hi") .text 0 ↔
      (∀ text ∈ some "hi", ∀ char ∈ text.toList, ¬(127 ≤ char.toNat ∧ char.toNat ≤ 159)) ∧
        (MessageKind.text = .text → KeepsText (some "hi"))) := by
  constructor
  · have sent : ∃ ready next, Runs.run (AttachmentBinding.step sameText) initial
          ([.addConversation 1] ++ .receive 1 (.send (granted 1) (some 30) (some "hi") .text none
            []) :: overrideSteps) = some ready ∧
        AttachmentBinding.step sameText ready (.commit 1) = some next := ⟨_, _, rfl, rfl⟩
    obtain ⟨ready, next, reached, committed⟩ := sent
    have stored : Stored sameText [.addConversation 1] overrideSteps 1
        (.send (granted 1) (some 30) (some "hi") .text none []) ready next :=
      ⟨reached, by simp [overrideSteps], committed⟩
    obtain ⟨message, added, content⟩ :=
      (content_and_shape_iff sameText (some "hi") .text).1 _ _ _ _ _ _ _ _ _ stored
    exact ⟨ready, next, message, stored, added, content⟩
  · exact (content_and_shape_iff sameText (some "hi") .text).2 (some "hi") 0 rfl

end Rows

end RunnerupChat.MessageContent
