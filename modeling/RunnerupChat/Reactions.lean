import RunnerupChat.Authz
import RunnerupChat.CheckThenWrite

/-!
`toggle_reaction` of `services/messages.py`, any number of calls at once. The
call looks for the row of `message_reactions` and writes what follows from the
look, so two calls that remove one reaction both answer that it is gone.
-/

namespace RunnerupChat.Reactions

open Accounts Authz CheckThenWrite Runs
open MessageStore (Message)

structure MessageReaction where
  messageId : Uuid
  userId : Uuid
  emoji : String
  deriving DecidableEq

/-- The check on a row of `message_reactions`. -/
def MessageReaction.allowed (row : MessageReaction) : Bool :=
  decide (1 ≤ row.emoji.length ∧ row.emoji.length ≤ 16)

/-- A call that has passed its checks. -/
structure Toggle (Digest : Type) where
  access : Access Digest
  message : Message
  emoji : String
  permitted : access.require .sendMessage = .ok ()
  short : emoji.length ≤ 16

section Calls
variable {Digest : Type}

def checkToggle (access : Access Digest) (message : Message) (emoji : String) :
    Except AppError (Toggle Digest) :=
  match permitted : access.require .sendMessage with
  | .error error => .error error
  | .ok () =>
      if short : emoji.length ≤ 16 then .ok ⟨access, message, emoji, permitted, short⟩
      else .error (.validationFailed "invalid_emoji")

def Toggle.row (toggle : Toggle Digest) : MessageReaction :=
  { messageId := toggle.message.id, userId := toggle.access.user.id, emoji := toggle.emoji }

/-- The row that is found is deleted, a missing one is added. -/
def toggleReaction : Rules MessageReaction (Toggle Digest) where
  target := Toggle.row
  act := fun _ existing => some (!existing)
  fits := MessageReaction.allowed

/-- The event `reaction.changed`. -/
structure ReactionChanged where
  conversationId : Uuid
  messageId : Uuid
  userId : Uuid
  emoji : String
  added : Bool
  deriving DecidableEq

def published (told : List (Toggle Digest × Bool)) : List ReactionChanged :=
  told.map fun (toggle, added) =>
    { conversationId := toggle.message.conversationId, messageId := toggle.message.id
      userId := toggle.access.user.id, emoji := toggle.emoji, added := added }

end Calls

section Toggling
variable {Digest Tx : Type} [DecidableEq Tx]

/-- The committed calls for one reaction. -/
def toggles (row : MessageReaction) (journal : List (Outcome (Toggle Digest))) : Nat :=
  journal.countP fun outcome =>
    match outcome with
    | .changed toggle _ _ => decide (toggle.row = row)
    | _ => false

/-- Every committed call has flipped its reaction. -/
def Flipped (start : List MessageReaction)
    (state : State MessageReaction (Toggle Digest) Tx) : Prop :=
  ∀ row, decide (row ∈ state.rows) =
    (decide (row ∈ start) ^^ decide (toggles row state.journal % 2 = 1))

/-- No call commits a deletion that found nothing to delete. -/
def NotVain (state : State MessageReaction (Toggle Digest) Tx) (action : Action (Toggle Digest) Tx) :
    Prop :=
  ∀ tx, action = .commit tx → ∀ toggle added,
    state.phases tx ≠ some (.written toggle added false)

variable {start : List MessageReaction} {state next : State MessageReaction (Toggle Digest) Tx}

theorem odd_succ (count : Nat) : decide ((count + 1) % 2 = 1) = !decide (count % 2 = 1) := by
  rw [← decide_not, decide_eq_decide]
  omega

theorem toggles_changed (row : MessageReaction) (journal : List (Outcome (Toggle Digest)))
    (toggle : Toggle Digest) (added effective : Bool) :
    toggles row (journal ++ [.changed toggle added effective]) =
      toggles row journal + if toggle.row = row then 1 else 0 := by
  simp [toggles, List.countP_append, List.countP_cons]

theorem toggles_ended (row : MessageReaction) (journal : List (Outcome (Toggle Digest)))
    (toggle : Toggle Digest) :
    toggles row (journal ++ [.rejected toggle]) = toggles row journal := by
  simp [toggles, List.countP_append]

omit [DecidableEq Tx] in
theorem flipped_kept (flipped : Flipped start state) (rows : next.rows = state.rows)
    (same : ∀ row, toggles row next.journal = toggles row state.journal) : Flipped start next := by
  intro row
  rw [rows, same row]
  exact flipped row

omit [DecidableEq Tx] in
theorem commit_flips {tx : Tx} (inv : Inv toggleReaction start state) (flipped : Flipped start state)
    {toggle : Toggle Digest} {added : Bool}
    (phase : state.phases tx = some (.written toggle added true))
    (rows : next.rows = changedRows toggleReaction toggle added true state.rows)
    (journal : next.journal = state.journal ++ [.changed toggle added true]) :
    Flipped start next := by
  intro row
  rw [rows, journal, toggles_changed]
  by_cases same : toggle.row = row
  · subst same
    have before : decide (toggle.row ∈ state.rows) = !added := (inv.holds tx toggle added phase).2.1
    have after : decide (toggle.row ∈ changedRows toggleReaction toggle added true state.rows) =
        added := changed_here toggle added state.rows
    have known := flipped toggle.row
    rw [before] at known
    rw [after, if_pos rfl, odd_succ, Bool.xor_not, ← known, Bool.not_not]
  · have kept : row ∈ changedRows toggleReaction toggle added true state.rows ↔ row ∈ state.rows :=
      changed_elsewhere (fun named => same named.symm) added true state.rows
    rw [if_neg same, Nat.add_zero, decide_eq_decide.mpr kept]
    exact flipped row

omit [DecidableEq Tx] in
theorem vain_misses {toggle : Toggle Digest} {added : Bool} (flipped : Flipped start state)
    (rows : next.rows = state.rows)
    (journal : next.journal = state.journal ++ [.changed toggle added false]) :
    ¬Flipped start next := by
  intro after
  have here := after toggle.row
  rw [rows, journal, toggles_changed, if_pos rfl, odd_succ, Bool.xor_not,
    ← flipped toggle.row] at here
  cases there : decide (toggle.row ∈ state.rows) <;> simp [there] at here

theorem step_flips {action : Action (Toggle Digest) Tx} (inv : Inv toggleReaction start state)
    (flipped : Flipped start state) (effective : NotVain state action)
    (taken : step toggleReaction state action = some next) : Flipped start next := by
  cases action with
  | look tx toggle =>
      have looked : look toggleReaction state tx toggle = some next := taken
      obtain ⟨_, ⟨found, rfl⟩ | ⟨_, _, rfl⟩⟩ := look_cases looked
      · cases found
      · exact flipped
  | write tx =>
      obtain ⟨toggle, wrote⟩ := write_cases taken
      cases wrote with
      | rejected _ _ => exact flipped_kept flipped rfl fun row => toggles_ended row _ _
      | vain _ _ | waits _ _ | locked _ _ _ _ => exact flipped
  | commit tx =>
      obtain ⟨toggle, added, done, phase, rfl⟩ := commit_cases taken
      cases done with
      | true => exact commit_flips inv flipped phase rfl rfl
      | false => exact absurd phase (effective tx rfl toggle added)
  | finish tx =>
      obtain ⟨_, _, _, rfl⟩ := finish_cases taken
      exact flipped
  | abort tx =>
      obtain rfl := abort_cases taken
      exact flipped

/-- In every interleaving: a reaction is there once or not at all, none is
longer than its column, and of each reaction the additions and the removals
that took effect alternate, the last one telling whether it is there. -/
theorem trail_alternates {actions : List (Action (Toggle Digest) Tx)}
    {final : State MessageReaction (Toggle Digest) Tx} (distinct : start.Nodup)
    (ran : run (step toggleReaction) (initial start) actions = some final) :
    final.rows.Nodup ∧ (∀ row ∈ final.rows, row ∈ start ∨ row.allowed = true) ∧
      ∀ row, (decide (row ∈ start) :: effects toggleReaction row final.journal).IsChain (· ≠ ·) ∧
        (decide (row ∈ start) :: effects toggleReaction row final.journal).getLast
          (List.cons_ne_nil _ _) = decide (row ∈ final.rows) := by
  have inv := run_inv distinct ran
  exact ⟨inv.distinct, inv.fitting, inv.changes⟩

/-- Whether a reaction is there follows from how many calls have committed,
throughout a run, exactly when no call commits a deletion in vain. -/
theorem flipped_iff (distinct : start.Nodup) (actions : List (Action (Toggle Digest) Tx)) :
    (∀ visited, Visits (step toggleReaction) (initial start) actions visited →
        Flipped start visited) ↔
      Meets (step toggleReaction) NotVain (initial start) actions := by
  constructor
  · intro always
    apply meets_of_visits
    intro before action after split visited reached tx named toggle added phase
    subst named
    have here := always visited ⟨before, .commit tx :: after, split, reached⟩
    obtain ⟨next, taken, rows, journal⟩ : ∃ next,
        step toggleReaction visited (.commit tx) = some next ∧ next.rows = visited.rows ∧
          next.journal = visited.journal ++ [.changed toggle added false] :=
      ⟨_, commit_taken phase, rfl, rfl⟩
    refine vain_misses here rows journal
      (always next ⟨before ++ [.commit tx], after, by simp [split], ?_⟩)
    exact (run_append_iff _ _ _ _).mpr ⟨visited, reached, (run_single _ _ _).mpr taken⟩
  · rintro meets visited ⟨before, after, rfl, reached⟩
    have base : Flipped start (initial start : State MessageReaction (Toggle Digest) Tx) := by
      intro row
      exact (Bool.xor_false _).symm
    exact (guarded_invariant
      (fun state => Inv toggleReaction start state ∧ Flipped start state)
      (fun _ _ _ known effective taken =>
        ⟨step_inv known.1 taken, step_flips known.1 known.2 effective taken⟩)
      reached ((meets_append_iff reached).mp meets).1 ⟨initial_inv distinct, base⟩).2

def fan : User Nat :=
  { id := 4, phoneHash := 40, phoneLast4 := "0004", phoneCountry := "91", displayName := "Fan",
    systemRole := .user, accountState := .active, deletedAt := none }

/-- A heart by user 4 on message 9. -/
def heart : Toggle Nat where
  access := { user := fan, membership := none, permissions := [.sendMessage]
              conversation := { id := 5, kind := .group, createdBy := none, updatedAt := 10 } }
  message := { id := 9, conversationId := 5, seq := 1, senderId := none, kind := .text
               body := some "hi", clientMsgId := 3, replyToId := none, editedAt := none
               editCount := 0, deletedAt := none, deletedBy := none, createdAt := 10 }
  emoji := "♥"
  permitted := rfl
  short := by decide

/-- Two calls see the heart and both delete it; the second finds nothing. -/
def doubleRemoval : List (Action (Toggle Nat) Nat) :=
  [.look 1 heart, .look 2 heart, .write 1, .write 1, .write 2, .commit 1, .commit 2]

theorem double_removal_trail :
    ∃ final : State MessageReaction (Toggle Nat) Nat,
      run (step toggleReaction) (initial [heart.row]) doubleRemoval = some final ∧
        final.rows.Nodup := by
  obtain ⟨final, ran⟩ := Option.isSome_iff_exists.mp
    (by decide : (run (step toggleReaction) (initial [heart.row]) doubleRemoval).isSome = true)
  exact ⟨final, ran, (trail_alternates (List.nodup_singleton _) ran).1⟩

theorem double_removal_unflipped :
    ¬∀ visited, Visits (step toggleReaction) (initial [heart.row]) doubleRemoval visited →
      Flipped [heart.row] visited := by
  intro always
  have meets := (flipped_iff (List.nodup_singleton _) doubleRemoval).mp always
  obtain ⟨middle, ran, phase⟩ : ∃ middle : State MessageReaction (Toggle Nat) Nat,
      run (step toggleReaction) (initial [heart.row]) doubleRemoval.dropLast = some middle ∧
        middle.phases 2 = some (.written heart false false) := ⟨_, rfl, rfl⟩
  exact ((meets_append_iff ran).mp meets).2.1 2 rfl heart false phase

/-- The event of a call says what the table showed at some moment between the
look of the call and its event. -/
theorem event_timely {tx : Tx} {first looked last final : State MessageReaction (Toggle Digest) Tx}
    {actions : List (Action (Toggle Digest) Tx)} {toggle : Toggle Digest}
    (asked : look toggleReaction first tx toggle = some looked)
    (ran : run (step toggleReaction) looked actions = some last)
    (own : ∀ action ∈ actions, ∀ other, action ≠ .look tx other)
    (answered : finish last tx = some final) :
    ∃ added visited, published final.told = published last.told ++
        [{ conversationId := toggle.message.conversationId, messageId := toggle.message.id
           userId := toggle.access.user.id, emoji := toggle.emoji, added := added }] ∧
      Visits (step toggleReaction) looked actions visited ∧
        decide (toggle.row ∈ visited.rows) = added := by
  obtain ⟨named, added, settled, rfl⟩ := finish_cases answered
  obtain ⟨rfl, _, visited, visits, there⟩ := settled_between asked ran own settled
  exact ⟨added, visited, List.map_append, visits, there⟩

/-- A first heart: the event says that it was added. -/
theorem first_heart_timely :
    ∃ looked last final : State MessageReaction (Toggle Nat) Nat,
      run (step toggleReaction) looked [.write 1, .commit 1] = some last ∧
        finish last 1 = some final ∧
        ∃ added visited, published final.told = published last.told ++
            [{ conversationId := 5, messageId := 9, userId := 4, emoji := "♥", added := added }] ∧
          Visits (step toggleReaction) looked [.write 1, .commit 1] visited ∧
            decide (heart.row ∈ visited.rows) = added := by
  obtain ⟨final, ran⟩ := Option.isSome_iff_exists.mp
    (by decide : (run (step toggleReaction) (initial [] : State MessageReaction (Toggle Nat) Nat)
      [.look 1 heart, .write 1, .commit 1, .finish 1]).isSome = true)
  obtain ⟨looked, asked, onward⟩ := (run_cons_iff _ _ _ _).mp ran
  obtain ⟨last, middle, ended⟩ :=
    (run_append_iff looked final ([.write 1, .commit 1] : List (Action (Toggle Nat) Nat))
      [.finish 1]).mp onward
  have answered : finish last 1 = some final := (run_single _ _ _).mp ended
  exact ⟨looked, last, final, middle, answered, event_timely asked middle (by simp) answered⟩

end Toggling

end RunnerupChat.Reactions
