import RunnerupChat.EventOrder
import RunnerupChat.MessageRevisions

/-!
Deleted messages. An edit or a deletion decides on the copy it read; one that
read the message before its deletion still commits after it.
-/

namespace RunnerupChat.MessageStore

open Accounts

/-- A deletion that has committed stays as it was written. -/
def StaysDeleted (message : Uuid) (earlier later : State) : Prop :=
  ∀ row, rowOf earlier message = some row → row.deletedAt.isSome = true →
    ∃ kept, rowOf later message = some kept ∧ kept.body = none ∧
      kept.deletedAt = row.deletedAt ∧ kept.deletedBy = row.deletedBy

/-- The commit of this revision writes nothing over a deletion of the row. -/
def Revision.Spares (revision : Revision) (row : Message) : Prop :=
  let { type, loaded, changed, .. } := revision
  match type, row.deletedAt with
  -- no text in the copy, no write to the body
  | .deleted, none => loaded.body = none → row.body = none
  | .deleted, some _ =>
      (changed.deletedAt = loaded.deletedAt ∨ changed.deletedAt = row.deletedAt) ∧
        (changed.deletedBy = loaded.deletedBy ∨ changed.deletedBy = row.deletedBy)
  | .created, some _ | .edited, some _ => changed.body = loaded.body
  | .created, none | .edited, none => True

def Spared (message : Uuid) (state : State) (action : Action) : Prop :=
  ∀ tx revision row, action = .commit tx → Revising state tx revision →
    revision.loaded.id = message → rowOf state message = some row → revision.Spares row

/-- A copy is deleted only if its row is. -/
def Precedes (row loaded : Message) : Prop :=
  loaded.deletedAt.isSome = true → row.deletedAt.isSome = true

/-- The message is without text once it is deleted. -/
def Cleared (message : Uuid) (state : State) : Prop :=
  ∀ row, rowOf state message = some row → row.deletedAt.isSome = true → row.body = none

section Overlay
variable {revision : Revision} {row : Message}

/-- On a deleted row a revision leaves the deletion exactly when it spares it. -/
theorem spares_deleted_iff (ok : revision.Ok) (deleted : row.deletedAt.isSome = true)
    (cleared : row.body = none) :
    revision.Spares row ↔ (overlay revision row).body = none ∧
      (overlay revision row).deletedAt = row.deletedAt ∧
      (overlay revision row).deletedBy = row.deletedBy := by
  obtain ⟨time, marked⟩ := Option.isSome_iff_exists.mp deleted
  rcases ok with ⟨access, loaded, text, now, rfl⟩ | ⟨access, loaded, now, rfl⟩
  · simp only [Revision.Spares, editOf, marked]
    rw [← editOf, edit_deleted_at, edit_deleted_by, edit_body, cleared]
    simp [marked]
  · simp only [Revision.Spares, deletionOf, marked]
    rw [← deletionOf, deletion_deleted_at, deletion_deleted_by, deletion_body, cleared, marked]
    simp only [ite_self, true_and]
    constructor
    · rintro ⟨at', by'⟩
      exact ⟨by grind, by grind⟩
    · rintro ⟨at', by'⟩
      exact ⟨by grind, by grind⟩

/-- A row that becomes deleted is cleared exactly when the revision spares it. -/
theorem spares_open_iff (ok : revision.Ok) (opened : row.deletedAt = none)
    (precedes : Precedes row revision.loaded) :
    revision.Spares row ↔
      ((overlay revision row).deletedAt.isSome = true → (overlay revision row).body = none) := by
  rcases ok with ⟨access, loaded, text, now, rfl⟩ | ⟨access, loaded, now, rfl⟩
  · simp only [Revision.Spares, editOf, opened]
    rw [← editOf, edit_deleted_at, opened]
    simp
  · have copied : loaded.deletedAt = none := by
      by_contra marked
      have deleted := precedes (Option.isSome_iff_ne_none.mpr marked)
      rw [opened] at deleted
      cases deleted
    simp only [Revision.Spares, deletionOf, opened]
    rw [← deletionOf, deletion_deleted_at, deletion_body, copied]
    grind

theorem precedes_kept (state : State) (action : Action) (inv : Inv state) :
    Kept Precedes state action := by
  intro tx revision _ ready row _ _ loaded _ precedes deleted
  exact overlay_deleted row (revising_ok inv ready) (precedes deleted)

end Overlay

section Runs
variable {searchMatches : String → String → Bool} {message : Uuid} {state next : State}
  {action : Action}

theorem step_precedes (state : State) (action : Action) (next : State)
    (holds : Inv state ∧ Copies Precedes state)
    (taken : step searchMatches state action = some next) :
    Inv next ∧ Copies Precedes next :=
  ⟨step_inv state action next holds.1 taken,
    step_copies holds.1 taken (fun _ marked => marked) (precedes_kept state action holds.1) holds.2⟩

/-- A commit after which every deletion stands spares the row. -/
theorem spared_needed (holds : Inv state ∧ Copies Precedes state)
    (taken : step searchMatches state action = some next)
    (here : StaysDeleted message state state) (across : StaysDeleted message state next)
    (there : StaysDeleted message next next) : Spared message state action := by
  rintro tx revision row rfl ready rfl found
  have ok := revising_ok holds.1 ready
  have after := (revising_commit ready taken).1
  rw [found, Option.map_some] at after
  cases marked : row.deletedAt with
  | none =>
      obtain ⟨other, same, precedes⟩ := revising_row holds.1 holds.2 ready
      rw [found, Option.some.injEq] at same
      subst same
      apply (spares_open_iff ok marked precedes).mpr
      intro deleted
      obtain ⟨kept, read, cleared, _⟩ := there _ after deleted
      rwa [Option.some.inj (after.symm.trans read)]
  | some time =>
      have deleted : row.deletedAt.isSome = true := by rw [marked]; rfl
      obtain ⟨same, read, cleared, _⟩ := here row found deleted
      obtain rfl : row = same := Option.some.inj (found.symm.trans read)
      obtain ⟨kept, read, stays⟩ := across row found deleted
      obtain rfl : overlay revision row = kept := Option.some.inj (after.symm.trans read)
      exact (spares_deleted_iff ok deleted cleared).mpr stays

/-- A spared deletion is there after the step as it was before. -/
theorem spared_keeps (holds : Inv state ∧ Copies Precedes state) (cleared : Cleared message state)
    (spared : Spared message state action)
    (taken : step searchMatches state action = some next) {row : Message}
    (found : rowOf state message = some row) (deleted : row.deletedAt.isSome = true) :
    ∃ kept, rowOf next message = some kept ∧ kept.body = none ∧
      kept.deletedAt = row.deletedAt ∧ kept.deletedBy = row.deletedBy := by
  cases row_step holds.1 taken message with
  | same rows =>
      exact ⟨row, rows.trans found, cleared row found deleted, rfl, rfl⟩
  | created draft seq now absent =>
      rw [absent] at found
      cases found
  | revised tx revision committing ready target rows =>
      have spares := spared tx revision row committing ready target found
      rw [found, Option.map_some] at rows
      exact ⟨_, rows, (spares_deleted_iff (revising_ok holds.1 ready) deleted
        (cleared row found deleted)).mp spares⟩

theorem spared_cleared (holds : Inv state ∧ Copies Precedes state)
    (cleared : Cleared message state) (spared : Spared message state action)
    (taken : step searchMatches state action = some next) : Cleared message next := by
  intro after read deleted
  cases row_step holds.1 taken message with
  | same rows => exact cleared after (rows.symm.trans read) deleted
  | created draft seq now absent rows =>
      rw [← Option.some.inj (rows.symm.trans read)] at deleted
      cases deleted
  | revised tx revision committing ready target rows =>
      rw [rows] at read
      obtain ⟨row, found, rfl⟩ := Option.map_eq_some_iff.mp read
      have ok := revising_ok holds.1 ready
      have spares := spared tx revision row committing ready target found
      cases marked : row.deletedAt with
      | none =>
          obtain ⟨other, same, precedes⟩ := revising_row holds.1 holds.2 ready
          rw [target, found, Option.some.injEq] at same
          subst same
          exact (spares_open_iff ok marked precedes).mp spares deleted
      | some time =>
          have before : row.deletedAt.isSome = true := by rw [marked]; rfl
          exact ((spares_deleted_iff ok before (cleared row found before)).mp spares).1

/-- Every deletion of the message stands in all later states of a run exactly
when each commit on the message spares it. -/
theorem stays_deleted_iff (searchMatches : String → String → Bool) (actions : List Action)
    (final : State) (ran : Runs.run (step searchMatches) initial actions = some final)
    (message : Uuid) :
    (∀ earlier later, Runs.Passes (step searchMatches) initial actions earlier later →
        StaysDeleted message earlier later) ↔
      Runs.Meets (step searchMatches) (Spared message) initial actions := by
  apply Runs.pairs_iff_meets (fun state => Inv state ∧ Copies Precedes state)
    (fun state => (Inv state ∧ Copies Precedes state) ∧ Cleared message state)
    (StaysDeleted message) (fun _ => True) ran
  case only => simp
  case keeps => exact step_precedes
  case needed =>
    intro state action next holds taken here across there
    exact spared_needed holds taken here across there
  case sound =>
    intro state action next holds _ spared taken
    exact ⟨step_precedes state action next holds.1 taken,
      spared_cleared holds.1 holds.2 spared taken⟩
  case implied =>
    intro state holds row found deleted
    exact ⟨row, found, holds.2 row found deleted, rfl, rfl⟩
  case carried =>
    intro earlier state action next holds _ spared taken stays row found deleted
    obtain ⟨middle, read, _, at', by'⟩ := stays row found deleted
    obtain ⟨kept, after, cleared, time, actor⟩ :=
      spared_keeps holds.1 holds.2 spared taken read (at' ▸ deleted)
    exact ⟨kept, after, cleared, time.trans at', actor.trans by'⟩
  case base => exact ⟨initial_inv, initial_copies⟩
  case holds => exact ⟨⟨initial_inv, initial_copies⟩, by rintro row ⟨⟩⟩

end Runs

/-- An edit up to the check of its text. -/
def editText (tx : TxId) (conversation id : Uuid) (body : String) (nowMs : Nat) : List Action :=
  [.receive tx (.edit (granted conversation) id body), .examine tx, .enforceBudget tx nowMs,
    .proceed tx]

/-- An edit reads the message, and a deletion commits. -/
def deletedMeanwhile : List Action :=
  [.addConversation 1] ++ sendText 1 1 30 10 "hello" 0 ++ [.commit 1] ++ editText 2 1 10 "hi" 1 ++
    deleteText 3 1 10

/-- The edit goes on. -/
def editCommits : List Action := [.allocateSeq 2, .logEvent 2, .commit 2]

set_option maxRecDepth 4000 in
theorem text_comes_back : ∃ deleted final,
    Runs.run (step sameText) initial (deletedMeanwhile ++ editCommits) = some final ∧
      Runs.Passes (step sameText) initial (deletedMeanwhile ++ editCommits) deleted final ∧
      ¬StaysDeleted 10 deleted final := by
  obtain ⟨deleted, final, ran, reached, onward, row, marked, body⟩ : ∃ deleted final,
      Runs.run (step sameText) initial (deletedMeanwhile ++ editCommits) = some final ∧
        Runs.run (step sameText) initial deletedMeanwhile = some deleted ∧
        Runs.run (step sameText) deleted editCommits = some final ∧
        ∃ row, rowOf deleted 10 = some row ∧ row.deletedAt.isSome = true ∧
          (rowOf final 10).map Message.body = some (some "hi") :=
    ⟨_, _, rfl, rfl, rfl, _, rfl, rfl, rfl⟩
  obtain ⟨found, text⟩ := body
  refine ⟨deleted, final, ran, ⟨deletedMeanwhile, editCommits, [], by simp, reached, onward⟩, ?_⟩
  intro stays
  obtain ⟨kept, read, cleared, _⟩ := stays row marked found
  rw [read, Option.map_some, cleared] at text
  cases text

theorem late_edit_not_spared : ∃ final,
    Runs.run (step sameText) initial (deletedMeanwhile ++ editCommits) = some final ∧
      ¬Runs.Meets (step sameText) (Spared 10) initial (deletedMeanwhile ++ editCommits) := by
  obtain ⟨deleted, final, ran, passes, lost⟩ := text_comes_back
  refine ⟨final, ran, fun spared => lost ?_⟩
  exact (stays_deleted_iff sameText _ final ran 10).mpr spared deleted final passes

theorem deleted_text_restored : ¬∀ (actions : List Action) (final : State),
    Runs.run (step sameText) initial actions = some final →
      ∀ message earlier later, Runs.Passes (step sameText) initial actions earlier later →
        StaysDeleted message earlier later := by
  intro claimed
  obtain ⟨deleted, final, ran, passes, lost⟩ := text_comes_back
  exact lost (claimed _ final ran 10 deleted final passes)

end RunnerupChat.MessageStore
