import RunnerupChat.ObjectProbe
import RunnerupChat.Uploads
import RunnerupChat.UniqueKeys

/-!
One call of `finalize_upload` from its first statement to its answer, with
nothing in between: what it leaves of the row and of the object.
-/

namespace RunnerupChat.Uploads

open Accounts Storage UniqueKeys

section Calls
variable {characters : Characters} {state : State} {row : Attachment}

/-- The call at the index goes on for so many steps, or until it has answered. -/
def complete : Nat → State → Nat → State
  | 0, state, _ => state
  | steps + 1, state, index =>
      match (state.calls[index]?).bind (proceed detectMime state index) with
      | none => state
      | some next => complete steps next index

/-- No call takes more than four steps after it has read the row. -/
def finalizeUpload (state : State) (id owner : Uuid) : Option State :=
  (finalize state id owner).map fun opened => complete 4 opened state.calls.length

/-- The state with one more call, the last. -/
def opened (state : State) (row : Attachment) (stage : Stage) : State :=
  { state with calls := state.calls ++ [⟨row, stage⟩] }

theorem opened_call (stage : Stage) :
    (opened state row stage).calls[state.calls.length]? = some ⟨row, stage⟩ := by
  simp [opened]

theorem enter_opened (stage onward : Stage) :
    enter (opened state row stage) state.calls.length ⟨row, stage⟩ onward =
      opened state row onward := by
  simp [enter, opened]

/-- What the steps of a call come to is a run of the machine. -/
theorem complete_runs (steps : Nat) (state : State) (index : Nat) :
    ∃ taken, Runs.run (step characters detectMime) state (List.replicate taken (.proceed index)) =
      some (complete steps state index) := by
  induction steps generalizing state with
  | zero => exact ⟨0, rfl⟩
  | succ steps ih =>
      unfold complete
      cases went : (state.calls[index]?).bind (proceed detectMime state index) with
      | none => exact ⟨0, rfl⟩
      | some next =>
          obtain ⟨taken, ran⟩ := ih next
          exact ⟨taken + 1, (Runs.run_cons_iff _ _ _ _).mpr ⟨next, went, ran⟩⟩

/-- One step of the last call. -/
theorem complete_step (steps : Nat) {stage : Stage} {next : State}
    (went : proceed detectMime (opened state row stage) state.calls.length ⟨row, stage⟩ =
      some next) :
    complete (steps + 1) (opened state row stage) state.calls.length =
      complete steps next state.calls.length := by
  rw [complete, opened_call, Option.bind_some, went]

theorem complete_answered (steps : Nat) (answer : Answer) :
    complete steps (opened state row (.answered answer)) state.calls.length =
      opened state row (.answered answer) := by
  cases steps with
  | zero => rfl
  | succ steps =>
      rw [complete, opened_call]
      rfl

end Calls

section Outcomes
variable {state : State} {row : Attachment} {bytes : List UInt8}

/-- Where a call ends that reads the row and probes the object. -/
def ended (state : State) (row : Attachment) : Except ProbeFailure Probe → State
  | .error (.app error) => opened state row (.answered (.refused error))
  | .error .raised => opened state row (.answered .failed)
  | .ok ⟨_, none⟩ =>
      opened (deleteObject (commit state row (rejectedCopy row)) row.storageKey) row
        (.answered (.refused (.validationFailed "file_type_not_allowed")))
  | .ok ⟨size, some mime⟩ =>
      opened (commit state row (readyCopy row size mime state.now)) row (.answered .ready)

/-- First the size is asked for. -/
theorem size_step (held : state.objects row.storageKey = some bytes) :
    proceed detectMime (opened state row .loaded) state.calls.length ⟨row, .loaded⟩ =
      some (opened state row (if maxUploadBytes < bytes.length then
        .answered (.refused (.validationFailed "file_too_large")) else .sized bytes.length)) := by
  have there : (opened state row .loaded).objects row.storageKey = some bytes := held
  simp only [proceed, there, enter_opened]
  split <;> rfl

/-- Then the first bytes; the walk over the table may raise. -/
theorem read_step (held : state.objects row.storageKey = some bytes) (size : Nat) :
    proceed detectMime (opened state row (.sized size)) state.calls.length ⟨row, .sized size⟩ =
      some (opened state row (match reachable.find? (begins bytes) with
        | none => .answered .failed
        | some entry => .probed size (some entry.1))) := by
  have there : (opened state row (.sized size)).objects row.storageKey = some bytes := held
  cases bytes with
  | nil =>
      simp only [proceed, there, enter_opened]
      rfl
  | cons first rest =>
      simp only [proceed, there, detect_eq, find_leading, enter_opened]
      cases reachable.find? (begins (first :: rest)) with
      | none => rfl
      | some entry => rfl

theorem ready_step {size : Nat} (present : size ≠ 0) (mime : String) :
    proceed detectMime (opened state row (.probed size (some mime))) state.calls.length
        ⟨row, .probed size (some mime)⟩ =
      some (opened (commit state row (readyCopy row size mime state.now)) row
        (.answered .ready)) := by
  have moved : commit (opened state row (.probed size (some mime))) row
      (readyCopy row size mime state.now) =
      opened (commit state row (readyCopy row size mime state.now)) row
        (.probed size (some mime)) := rfl
  simp only [proceed, present, if_false]
  exact congrArg some ((congrArg (enter · _ _ _) moved).trans (enter_opened _ _))

/-- A known type has a first byte. -/
theorem found_nonempty {entry : String × Signatures}
    (found : reachable.find? (begins bytes) = some entry) : bytes.length ≠ 0 := by
  intro empty
  obtain rfl := List.length_eq_zero_iff.mp empty
  have absent : reachable.find? (begins []) = none := by decide
  rw [absent] at found
  cases found

theorem complete_eq (held : state.objects row.storageKey = some bytes) :
    complete 4 (opened state row .loaded) state.calls.length =
      ended state row (probeObject bytes) := by
  rw [complete_step 3 (size_step held), probe_eq]
  by_cases large : maxUploadBytes < bytes.length
  · rw [if_pos large, if_pos large, complete_answered]
    rfl
  · rw [if_neg large, if_neg large, complete_step 2 (read_step held _)]
    cases found : reachable.find? (begins bytes) with
    | none => exact complete_answered 2 .failed
    | some entry =>
        rw [complete_step 1 (ready_step (found_nonempty found) _)]
        exact complete_answered 1 .ready

/-- The row that was read is the one that a commit changes. -/
theorem commit_row (listed : row ∈ state.rows) (changed : Attachment) :
    overlay row changed row ∈ (commit state row changed).rows := by
  refine List.mem_map.mpr ⟨row, listed, ?_⟩
  unfold rewrite
  rw [if_pos rfl]

/-- What the update of a column leaves where it starts from the row itself. -/
theorem column_self {Column : Type} [DecidableEq Column] (changed loaded : Column) :
    (if changed = loaded then loaded else changed) = changed := by
  by_cases same : changed = loaded
  · rw [if_pos same, same]
  · rw [if_neg same]

/-- The answer of the call that was the last to be made in the state before. -/
def Answered (before final : State) (answer : Answer) : Prop :=
  (final.calls[before.calls.length]?).map Call.stage = some (.answered answer)

/-- The upload is finished, with the size and the type of the object. -/
structure EndsReady (before final : State) (row : Attachment) (bytes : List UInt8) : Prop where
  answered : Answered before final .ready
  size : 0 < bytes.length ∧ bytes.length ≤ maxUploadBytes
  finished : ∃ changed ∈ final.rows, changed.id = row.id ∧ changed.state = .ready ∧
    probeObject bytes = .ok ⟨changed.byteSize, some changed.detectedMime⟩ ∧
    changed.byteSize = bytes.length

/-- The upload is rejected and its object deleted. -/
structure EndsRejected (before final : State) (row : Attachment) : Prop where
  answered : ∃ reason, Answered before final (.refused (.validationFailed reason))
  rejected : ∃ changed ∈ final.rows, changed.id = row.id ∧ changed.state = .rejected
  object : final.objects row.storageKey = none

theorem opened_answered (after : State) (same : after.calls = state.calls) (answer : Answer) :
    Answered state (opened after row (.answered answer)) answer := by
  unfold Answered
  rw [← same, opened_call]
  rfl

theorem ends_ready (listed : row ∈ state.rows) {entry : String × Signatures}
    (fits : ¬maxUploadBytes < bytes.length) (found : reachable.find? (begins bytes) = some entry) :
    EndsReady state (ended state row (probeObject bytes)) row bytes := by
  have probed : probeObject bytes = .ok ⟨bytes.length, some entry.1⟩ := by
    rw [probe_eq, if_neg fits, found]
  rw [probed]
  exact {
    answered := opened_answered _ rfl .ready
    size := ⟨Nat.pos_of_ne_zero (found_nonempty found), Nat.le_of_not_lt fits⟩
    finished := by
      refine ⟨_, commit_row listed _, rfl, ?_, ?_, ?_⟩
      · exact column_self _ _
      · rw [probed]
        simp only [overlay, column_self]
        rfl
      · exact column_self _ _ }

/-- A call that fails leaves the upload pending. -/
theorem ends_pending (distinct : (state.rows.map fun row => row.id).Nodup)
    (listed : row ∈ state.rows) (pending : row.state = .pending) (stage : Stage)
    (bytes : List UInt8) :
    ¬(EndsReady state (opened state row stage) row bytes ∨
      EndsRejected state (opened state row stage) row) := by
  have only : ∀ changed ∈ (opened state row stage).rows, changed.id = row.id →
      changed.state = .pending := by
    intro changed member named
    rw [same_row (fun row => row.id) distinct member listed named]
    exact pending
  rintro (⟨_, _, changed, member, named, ready, _⟩ | ⟨_, ⟨changed, member, named, rejected⟩, _⟩)
  · rw [only changed member named] at ready
    cases ready
  · rw [only changed member named] at rejected
    cases rejected

/-- The owner's call reads the row. -/
theorem finalize_opens (distinct : (state.rows.map fun row => row.id).Nodup)
    (listed : row ∈ state.rows) (unfinished : row.state ≠ .ready) :
    finalize state row.id row.ownerId = some (opened state row .loaded) := by
  have found : state.rows.find? (fun other => other.id == row.id && other.ownerId == row.ownerId) =
      some row := by
    cases found : state.rows.find? fun other =>
        other.id == row.id && other.ownerId == row.ownerId with
    | none => simpa using List.find?_eq_none.mp found row listed
    | some other =>
        have named := List.find?_some found
        simp only [Bool.and_eq_true, beq_iff_eq] at named
        rw [same_row (fun row => row.id) distinct (List.mem_of_find?_eq_some found) listed named.1]
  unfold finalize
  rw [found]
  simp only [unfinished, if_false]
  rfl

/-- A pending upload whose call fails is neither finished nor rejected: that is
when the object is too large, or of no type before `audio/webm` in the table. -/
theorem finalize_ends_iff (distinct : (state.rows.map fun row => row.id).Nodup)
    (listed : row ∈ state.rows) (pending : row.state = .pending)
    (held : state.objects row.storageKey = some bytes) :
    (∃ final, finalizeUpload state row.id row.ownerId = some final ∧
        (EndsReady state final row bytes ∨ EndsRejected state final row)) ↔
      bytes.length ≤ maxUploadBytes ∧ ∃ entry ∈ reachable, begins bytes entry = true := by
  have ends : finalizeUpload state row.id row.ownerId =
      some (ended state row (probeObject bytes)) := by
    unfold finalizeUpload
    rw [finalize_opens distinct listed (by rw [pending]; decide), Option.map_some, complete_eq held]
  simp only [ends, Option.some.injEq, exists_eq_left']
  rw [← find_reachable_iff]
  constructor
  · intro right
    by_cases large : maxUploadBytes < bytes.length
    · rw [probe_eq, if_pos large] at right
      exact absurd right (ends_pending distinct listed pending _ bytes)
    · refine ⟨Nat.le_of_not_lt large, ?_⟩
      cases found : reachable.find? (begins bytes) with
      | none =>
          rw [probe_eq, if_neg large, found] at right
          exact absurd right (ends_pending distinct listed pending _ bytes)
      | some entry => exact ⟨entry, rfl⟩
  · rintro ⟨fits, entry, found⟩
    exact Or.inl (ends_ready listed (Nat.not_lt.mpr fits) found)

def pendingUpload : Attachment :=
  { id := 7, ownerId := 1, conversationId := some 5, messageId := none, displayName := "notes.pdf"
    byteSize := 40, detectedMime := "application/octet-stream", width := none, height := none
    durationMs := none, state := .pending, storageKey := "u/1/7/0"
    declaredMime := some "application/pdf" }

/-- The upload is granted and its bytes are in storage. -/
def uploaded (bytes : List UInt8) : State :=
  { rows := [pendingUpload], objects := fun _ => some bytes }

theorem jpeg_ends_ready :
    ∃ final, finalizeUpload (uploaded [0xff, 0xd8, 0xff]) 7 1 = some final ∧
      (EndsReady (uploaded [0xff, 0xd8, 0xff]) final pendingUpload [0xff, 0xd8, 0xff] ∨
        EndsRejected (uploaded [0xff, 0xd8, 0xff]) final pendingUpload) := by
  have distinct : ((uploaded [0xff, 0xd8, 0xff]).rows.map fun row => row.id).Nodup := by decide
  have listed : pendingUpload ∈ (uploaded [0xff, 0xd8, 0xff]).rows := List.mem_cons_self
  have held : (uploaded [0xff, 0xd8, 0xff]).objects pendingUpload.storageKey =
    some [0xff, 0xd8, 0xff] := rfl
  exact (finalize_ends_iff distinct listed rfl held).mpr (by decide)

/-- A PDF is left pending, with its object in the bucket. -/
theorem pdf_left_pending :
    ¬∀ (state : State) (row : Attachment) (bytes : List UInt8),
      (state.rows.map fun row => row.id).Nodup → row ∈ state.rows → row.state = .pending →
      state.objects row.storageKey = some bytes →
      ∃ final, finalizeUpload state row.id row.ownerId = some final ∧
        (EndsReady state final row bytes ∨ EndsRejected state final row) := by
  intro always
  obtain ⟨final, ran, ends⟩ := always (uploaded [0x25, 0x50, 0x44, 0x46, 0x2d]) pendingUpload _
    (by decide) List.mem_cons_self rfl rfl
  obtain rfl := Option.some.inj ran
  rcases ends with ready | rejected
  · obtain ⟨changed, member, _, finished, _⟩ := ready.finished
    revert changed
    decide
  · obtain ⟨changed, member, _, refused⟩ := rejected.rejected
    revert changed
    decide

end Outcomes

end RunnerupChat.Uploads
