import RunnerupChat.Tombstones

/-!
The edit trail. An edit stores the body of the copy it read as the version
before it, and counts from the number it read; two edits that read the same
copy leave one version out.
-/

namespace RunnerupChat.MessageStore

open Accounts

/-- The trail of the message is complete in the later state. -/
structure Trailed (message : Uuid) (earlier later : State) : Prop where
  counted : ∀ row, rowOf later message = some row →
    row.editCount = (editsOf later message).length
  retained : ∀ old, rowOf earlier message = some old → ∃ row, rowOf later message = some row ∧
    (old.body = row.body ∨ ∃ edit ∈ editsOf later message, edit.previousBody = old.body)

/-- No other edit has committed since this one read the message. -/
def Undisturbed (message : Uuid) (state : State) (action : Action) : Prop :=
  ∀ tx revision row, action = .commit tx → Revising state tx revision →
    revision.type = .edited → revision.loaded.id = message → rowOf state message = some row →
      row.editCount = revision.loaded.editCount

/-- Not a request to delete the message. -/
def Keeps (message : Uuid) (action : Action) : Prop :=
  ∀ tx access, action ≠ .receive tx (.delete access message)

/-- A copy is an earlier version of the row, or the same one. -/
def Versioned (message : Uuid) (row loaded : Message) : Prop :=
  row.id = message → loaded.editCount ≤ row.editCount ∧
    (loaded.editCount = row.editCount → loaded.body = row.body)

/-- Every edit of the message has one row of the trail. -/
def Counted (message : Uuid) (state : State) : Prop :=
  (editsOf state message).length = ((rowOf state message).map Message.editCount).getD 0

/-- No open request deletes the message. -/
def Undeleted (message : Uuid) (state : State) : Prop :=
  ∀ tx transaction, state.txs tx = some transaction → transaction.phase.deletes ≠ some message

structure TrailInv (message : Uuid) (state : State) : Prop where
  inv : Inv state
  copies : Copies (Versioned message) state
  counted : Counted message state
  undeleted : Undeleted message state

section Runs
variable {searchMatches : String → String → Bool} {message : Uuid} {state next : State}
  {action : Action}

/-- With no deletion open, a revision of the message is an edit. -/
theorem revising_edit (holds : TrailInv message state) {tx : TxId} {revision : Revision}
    (ready : Revising state tx revision) (target : revision.loaded.id = message) :
    ∃ access loaded text now, revision = editOf access loaded (some text) now := by
  rcases revising_ok holds.inv ready with edit | ⟨access, loaded, now, rfl⟩
  · exact edit
  · obtain ⟨startedAt, seq, eventId, ready⟩ := ready
    exact absurd (congrArg some target) (holds.undeleted tx _ ready)

theorem edit_trail (access : Access) (loaded : Message) (body : Option String) (now : Time) :
    (editOf access loaded body now).trail = [⟨loaded.id, loaded.body, access.user⟩] := rfl

theorem undisturbed_kept (holds : TrailInv message state)
    (undisturbed : Undisturbed message state action) :
    Kept (Versioned message) state action := by
  intro tx revision committing ready row member target loaded named versioned here
  have mine : rowOf state message = some row := here ▸ row_of_member holds.inv member
  obtain ⟨access, copy, text, now, rfl⟩ := revising_edit holds ready (target.symm.trans here)
  have current : row.editCount = copy.editCount :=
    undisturbed tx _ row committing ready rfl (target.symm.trans here) mine
  obtain ⟨older, _⟩ := versioned here
  rw [edit_count, ← current]
  exact ⟨Nat.le_succ_of_le older, fun same => by omega⟩

theorem undisturbed_counted (holds : TrailInv message state)
    (undisturbed : Undisturbed message state action)
    (taken : step searchMatches state action = some next) : Counted message next := by
  have counted := holds.counted
  unfold Counted at counted ⊢
  cases row_step holds.inv taken message with
  | same rows edits => rw [rows, edits, counted]
  | created draft seq now absent rows edits =>
      rw [rows, edits, counted, absent]
      rfl
  | revised tx revision committing ready target rows edits =>
      obtain ⟨row, found, _⟩ := revising_row holds.inv holds.copies ready
      rw [target] at found
      obtain ⟨access, copy, text, now, rfl⟩ := revising_edit holds ready target
      have current := undisturbed tx _ row committing ready rfl target found
      rw [found] at counted
      rw [rows, edits, found, edit_trail, List.length_append, counted]
      simp only [Option.map_some, Option.getD_some, edit_count, List.length_singleton]
      exact congrArg (· + 1) current

theorem keeps_undeleted (holds : TrailInv message state) (keeps : Keeps message action)
    (taken : step searchMatches state action = some next) : Undeleted message next := by
  intro tx transaction found deletes
  rcases lasting_before deletes_lasting (step_effect holds.inv.phases taken) found deletes with
    ⟨before, opened, same⟩ | ⟨request, asked, _, same⟩
  · exact holds.undeleted tx before opened same
  · cases request with
    | delete access wanted =>
        obtain rfl := Option.some.inj same
        exact keeps tx access asked
    | send | edit | list | search | sync => cases same

theorem trail_inv_step (holds : TrailInv message state) (keeps : Keeps message action)
    (undisturbed : Undisturbed message state action)
    (taken : step searchMatches state action = some next) : TrailInv message next where
  inv := step_inv state action next holds.inv taken
  copies := step_copies holds.inv taken (fun _ _ => ⟨Nat.le_refl _, fun _ => rfl⟩)
    (undisturbed_kept holds undisturbed) holds.copies
  counted := undisturbed_counted holds undisturbed taken
  undeleted := keeps_undeleted holds keeps taken

theorem initial_trail_inv (message : Uuid) : TrailInv message initial where
  inv := initial_inv
  copies := initial_copies
  counted := rfl
  undeleted := by rintro tx transaction ⟨⟩

theorem counted_row (holds : TrailInv message state) {row : Message}
    (found : rowOf state message = some row) :
    row.editCount = (editsOf state message).length := by
  have counted := holds.counted
  rw [Counted, found] at counted
  exact counted.symm

/-- What an undisturbed edit overwrites goes to the trail. -/
theorem undisturbed_retains (holds : TrailInv message state)
    (undisturbed : Undisturbed message state action)
    (taken : step searchMatches state action = some next) {body : Option String} {row : Message}
    (found : rowOf state message = some row)
    (kept : body = row.body ∨ ∃ edit ∈ editsOf state message, edit.previousBody = body) :
    ∃ after, rowOf next message = some after ∧
      (body = after.body ∨ ∃ edit ∈ editsOf next message, edit.previousBody = body) := by
  cases row_step holds.inv taken message with
  | same rows edits => exact ⟨row, rows.trans found, edits ▸ kept⟩
  | created draft seq now absent =>
      rw [absent] at found
      cases found
  | revised tx revision committing ready target rows edits =>
      obtain ⟨other, same, versioned⟩ := revising_row holds.inv holds.copies ready
      obtain ⟨access, copy, text, now, rfl⟩ := revising_edit holds ready target
      have current := undisturbed tx _ row committing ready rfl target found
      rw [target, found, Option.some.injEq] at same
      subst same
      have overwritten : copy.body = row.body :=
        (versioned (row_member found).2).2 current.symm
      rw [found, Option.map_some] at rows
      refine ⟨_, rows, Or.inr ?_⟩
      rw [edits, edit_trail]
      rcases kept with rfl | ⟨edit, member, previous⟩
      · exact ⟨_, List.mem_append_right _ (List.mem_singleton_self _), overwritten⟩
      · exact ⟨edit, List.mem_append_left _ member, previous⟩

/-- An edit after which the trail is complete read the current version. -/
theorem undisturbed_needed (inv : Inv state) (taken : step searchMatches state action = some next)
    (here : Trailed message state state) (there : Trailed message next next) :
    Undisturbed message state action := by
  rintro tx revision row rfl ready edited rfl found
  obtain ⟨rows, edits⟩ := revising_commit ready taken
  rw [found, Option.map_some] at rows
  have before := here.counted row found
  have after := there.counted _ rows
  rcases revising_ok inv ready with ⟨access, copy, text, now, rfl⟩ | ⟨access, copy, now, rfl⟩
  · rw [edits, List.length_append, ← before, edit_count] at after
    exact (Nat.succ.inj after).symm
  · cases edited

/-- The trail of a message that is not deleted is complete in every state of a
run exactly when no edit commits between the read and the commit of another. -/
theorem edit_trail_iff (searchMatches : String → String → Bool) (actions : List Action)
    (final : State) (ran : Runs.run (step searchMatches) initial actions = some final)
    (message : Uuid) (keeps : ∀ action ∈ actions, Keeps message action) :
    (∀ earlier later, Runs.Passes (step searchMatches) initial actions earlier later →
        Trailed message earlier later) ↔
      Runs.Meets (step searchMatches) (Undisturbed message) initial actions := by
  apply Runs.pairs_iff_meets Inv (TrailInv message) (Trailed message) (Keeps message) ran keeps
    step_inv
  case needed =>
    intro state action next inv taken here _ there
    exact undisturbed_needed inv taken here there
  case sound =>
    intro state action next holds keeps undisturbed taken
    exact trail_inv_step holds keeps undisturbed taken
  case implied =>
    intro state holds
    exact ⟨fun row => counted_row holds, fun old found => ⟨old, found, Or.inl rfl⟩⟩
  case carried =>
    intro earlier state action next holds keeps undisturbed taken trailed
    constructor
    case counted => exact fun row => counted_row (trail_inv_step holds keeps undisturbed taken)
    case retained =>
      intro old before
      obtain ⟨row, found, kept⟩ := trailed.retained old before
      exact undisturbed_retains holds undisturbed taken found kept
  case base => exact initial_inv
  case holds => exact initial_trail_inv message

end Runs

/-- Two edits read the message and commit one after the other. -/
def editedTwice : List Action :=
  [.addConversation 1] ++ sendText 1 1 30 10 "hello" 0 ++ [.commit 1] ++ editText 2 1 10 "hi" 1 ++
    editText 3 1 10 "hey" 2 ++ [.allocateSeq 2, .logEvent 2, .commit 2] ++
    [.allocateSeq 3, .logEvent 3, .commit 3]

theorem edited_twice_keeps : ∀ action ∈ editedTwice, Keeps 10 action := by
  rintro action member tx access rfl
  simp [editedTwice, sendText, editText] at member

set_option maxRecDepth 4000 in
theorem edited_twice_loses : ∃ edited final,
    Runs.run (step sameText) initial editedTwice = some final ∧
      Runs.Passes (step sameText) initial editedTwice edited final ∧
      ¬Trailed 10 edited final := by
  obtain ⟨edited, final, ran, reached, onward, row, found, count, trail⟩ : ∃ edited final,
      Runs.run (step sameText) initial editedTwice = some final ∧
        Runs.run (step sameText) initial (editedTwice.take 30) = some edited ∧
        Runs.run (step sameText) edited (editedTwice.drop 30) = some final ∧
        ∃ row, rowOf final 10 = some row ∧ row.editCount = 1 ∧ (editsOf final 10).length = 2 :=
    ⟨_, _, rfl, rfl, rfl, _, rfl, rfl, rfl⟩
  refine ⟨edited, final, ran,
    ⟨editedTwice.take 30, editedTwice.drop 30, [], by simp, reached, onward⟩, fun trailed => ?_⟩
  have counted := trailed.counted row found
  rw [count, trail] at counted
  cases counted

theorem edited_twice_disturbed : ∃ final,
    Runs.run (step sameText) initial editedTwice = some final ∧
      ¬Runs.Meets (step sameText) (Undisturbed 10) initial editedTwice := by
  obtain ⟨edited, final, ran, passes, incomplete⟩ := edited_twice_loses
  refine ⟨final, ran, fun undisturbed => incomplete ?_⟩
  exact (edit_trail_iff sameText editedTwice final ran 10 edited_twice_keeps).mpr undisturbed
    edited final passes

theorem version_left_out : ¬∀ (actions : List Action) (final : State),
    Runs.run (step sameText) initial actions = some final →
      ∀ message, (∀ action ∈ actions, Keeps message action) →
        ∀ earlier later, Runs.Passes (step sameText) initial actions earlier later →
          Trailed message earlier later := by
  intro claimed
  obtain ⟨edited, final, ran, passes, incomplete⟩ := edited_twice_loses
  exact incomplete (claimed editedTwice final ran 10 edited_twice_keeps edited final passes)

end RunnerupChat.MessageStore
