import RunnerupChat.OtpVerification

/-!
Live codes of one number. The `UPDATE` of a request consumes the challenges of
its snapshot, so two overlapping requests miss one another's. There is at most
one live code exactly when no request commits while a challenge it missed is
live.
-/

namespace RunnerupChat.OtpStore

open Accounts SnapshotUpdate

variable {Digest : Type}

/-- At most one challenge of a number is unconsumed. -/
def OneLive (state : State Digest) : Prop :=
  ∀ one ∈ state.challenges, ∀ other ∈ state.challenges, one.phoneHash = other.phoneHash →
    one.unconsumed = true → other.unconsumed = true → one = other

/-- When a new challenge commits, every challenge of its number that is live by
then was already committed when the superseding `UPDATE` started. -/
def NoneMissed (state : State Digest) (action : Action) : Prop :=
  ∀ tx phone code row superseded progress, action = .commit tx →
    state.txs tx = some (.inserting phone code row superseded progress) →
    ∀ other ∈ state.challenges, other.phoneHash = row.phoneHash → other.unconsumed = true →
      other.id ∈ progress.seen

section Steps
variable {crypto : Crypto Digest} {settings : Settings} {state next : State Digest} {tx : TxId}

/-- Rewritten challenges keep their numbers and do not come back to life. -/
theorem one_live_rewrite {rows : List (OtpChallenge Digest)}
    {change : OtpChallenge Digest → OtpChallenge Digest}
    (evolves : ∀ row ∈ rows, Evolves row (change row))
    (single : ∀ one ∈ rows, ∀ other ∈ rows, one.phoneHash = other.phoneHash →
      one.unconsumed = true → other.unconsumed = true → one = other) :
    ∀ one ∈ rows.map change, ∀ other ∈ rows.map change, one.phoneHash = other.phoneHash →
      one.unconsumed = true → other.unconsumed = true → one = other := by
  intro one member other another same alive also
  obtain ⟨left, leftIn, rfl⟩ := List.mem_map.mp member
  obtain ⟨right, rightIn, rfl⟩ := List.mem_map.mp another
  rw [(evolves left leftIn).phone, (evolves right rightIn).phone] at same
  rw [single left leftIn right rightIn same ((evolves left leftIn).fades alive)
    ((evolves right rightIn).fades also)]

theorem missed_survives_iff (inv : Inv crypto settings state) {phone code : String}
    {row : OtpChallenge Digest} {superseded : Time} {progress : Progress Uuid}
    (opened : state.txs tx = some (.inserting phone code row superseded progress))
    {other : OtpChallenge Digest} (member : other ∈ state.challenges) :
    (if other.id ∈ progress.updated then consume superseded other else other).unconsumed = true ↔
      other.unconsumed = true ∧ other.id ∉ progress.seen := by
  obtain ⟨ok, finished, _⟩ := inv.phases tx _ opened
  have consumes := finished_consumes ok finished superseded other member
  simp only [OtpChallenge.unconsumed, ← Option.not_isSome, Bool.not_eq_true', ← Bool.not_eq_true]
    at consumes ⊢
  rw [consumes]
  grind

theorem issue_one_live (inv : Inv crypto settings state) (single : OneLive state)
    {phone code : String} {row : OtpChallenge Digest} {superseded : Time}
    {progress : Progress Uuid}
    (opened : state.txs tx = some (.inserting phone code row superseded progress))
    (rows : next.challenges =
      written OtpChallenge.id (consume superseded) progress state.challenges ++ [row])
    (timely : NoneMissed state (.commit tx)) : OneLive next := by
  have old := one_live_rewrite (fun other _ => written_evolves superseded progress other) single
  -- no challenge of the new one's number outlives the commit
  have ended : ∀ other ∈ written OtpChallenge.id (consume superseded) progress state.challenges,
      other.phoneHash = row.phoneHash → other.unconsumed = true → False := by
    intro other member same alive
    obtain ⟨before, present, rfl⟩ := List.mem_map.mp member
    obtain ⟨live, missed⟩ := (missed_survives_iff inv opened present).mp alive
    rw [(written_evolves superseded progress before).phone] at same
    exact missed (timely tx phone code row superseded progress rfl opened before present same live)
  unfold OneLive
  rw [rows]
  intro one member other another same alive also
  rcases List.mem_append.mp member with before | added <;>
    rcases List.mem_append.mp another with before' | added'
  · exact old one before other before' same alive also
  · rw [List.mem_singleton.mp added'] at same
    exact (ended one before same alive).elim
  · rw [List.mem_singleton.mp added] at same
    exact (ended other before' same.symm also).elim
  · rw [List.mem_singleton.mp added, List.mem_singleton.mp added']

variable [DecidableEq Digest]

theorem step_one_live (inv : Inv crypto settings state) (single : OneLive state) {action : Action}
    (timely : NoneMissed state action) (taken : step crypto settings state action = some next) :
    OneLive next := by
  cases step_outcome taken with
  | silent rows added => unfold OneLive; rwa [rows]
  | limited challenge code phone now retryAfter rows added => unfold OneLive; rwa [rows]
  | unknown challenge code phone now rows added absent => unfold OneLive; rwa [rows]
  | settled tx challenge code phone row now branch opened decides rows added =>
      have member := (inv.phases tx _ opened).1
      unfold OneLive
      rw [rows]
      apply one_live_rewrite _ single
      intro other inside
      split
      · rename_i same
        have found : other = row := List.inj_on_of_nodup_map inv.unique.distinct inside member same
        exact found ▸ settles_evolves branch now row
      · exact evolves_refl other
  | issued tx phone code row superseded progress commits opened rows added =>
      subst commits
      exact issue_one_live inv single opened rows timely

/-- A commit that leaves one live code missed none. -/
theorem timely_of_one_live (inv : Inv crypto settings state) {action : Action}
    (single : ∀ next, step crypto settings state action = some next → OneLive next) :
    NoneMissed state action := by
  rintro tx phone code row superseded progress rfl opened other member same alive
  by_contra missed
  have taken : step crypto settings state (.commit tx) = some { close state tx with
      challenges := written OtpChallenge.id (consume superseded) progress state.challenges ++ [row]
      journal := state.journal ++
        [.issued row.id phone code row.expiresAt progress.seen] } := by
    simp [step, commit, opened]
  have survives := (missed_survives_iff inv opened member).mpr ⟨alive, missed⟩
  have live : row.unconsumed = true := by
    simp [OtpChallenge.unconsumed, (inv.phases tx _ opened).2.2.2.2]
  have evolves := written_evolves superseded progress other
  have equal := single _ taken _ (List.mem_append_left _ (List.mem_map_of_mem member)) row
    (List.mem_append_right _ (List.mem_singleton_self row)) (evolves.phone.trans same) survives live
  have held : pendingIds state.txs tx = some row.id := by
    simp [pendingIds, opened, Phase.inserts]
  apply inv.unique.apart tx row.id held
  rw [← equal, evolves.id]
  exact List.mem_map_of_mem member

/-- At most one code is live per number in every state of a run exactly when
no commit of the run misses a live challenge. -/
theorem one_live_iff (crypto : Crypto Digest) (settings : Settings) (actions : List Action) :
    (∀ visited, Runs.Visits (step crypto settings) initial actions visited → OneLive visited) ↔
      Runs.Meets (step crypto settings) NoneMissed initial actions := by
  apply Runs.always_iff_meets (Inv crypto settings)
    (fun state => Inv crypto settings state ∧ OneLive state) OneLive actions step_inv
  · exact fun state action inv single => timely_of_one_live inv single
  · exact fun state action next holds timely taken =>
      ⟨step_inv state action next holds.1 taken, step_one_live holds.1 holds.2 timely taken⟩
  · exact fun state holds => holds.2
  · exact initial_inv
  · exact ⟨initial_inv, by simp [OneLive, initial]⟩

/-- Two requests, one after the other. -/
def issuedInTurn : List Action :=
  issueFirst ++ [.receive 1 (.issue "+911" none none), .enforceBudget 1 1, .startUpdate 1 1000,
    .reachRow 1 1, .insertRow 1 2 "654321" 1000, .commit 1]

theorem issued_in_turn_single :
    (Runs.run (step plain ⟨300, 5⟩) initial issuedInTurn).isSome = true ∧
      ∀ visited : State String,
        Runs.Visits (step plain ⟨300, 5⟩) initial issuedInTurn visited → OneLive visited := by
  refine ⟨rfl, ?_⟩
  apply (one_live_iff plain ⟨300, 5⟩ issuedInTurn).mpr
  iterate 4 refine Runs.meets_cons rfl (by rintro tx phone code row superseded progress ⟨⟩) ?_
  -- the first commit finds no other challenge
  refine Runs.meets_cons rfl ?_ ?_
  · rintro tx phone code row superseded progress ⟨⟩ ⟨⟩ other ⟨⟩
  iterate 5 refine Runs.meets_cons rfl (by rintro tx phone code row superseded progress ⟨⟩) ?_
  -- the second one saw the first
  refine Runs.meets_cons rfl ?_ trivial
  rintro tx phone code row superseded progress ⟨⟩ ⟨⟩ other member same alive
  obtain rfl := List.mem_singleton.mp member
  decide

/-- The second `UPDATE` starts before the first challenge is committed. -/
def issuedAtOnce : List Action :=
  [.receive 0 (.issue "+911" none none), .enforceBudget 0 0, .startUpdate 0 0,
    .receive 1 (.issue "+911" none none), .enforceBudget 1 1, .startUpdate 1 1000,
    .insertRow 0 1 "123456" 1000, .commit 0, .insertRow 1 2 "654321" 1000, .commit 1]

theorem overlapping_issues_both_live :
    ¬∀ (actions : List Action) (final : State String),
      Runs.run (step plain ⟨300, 5⟩) initial actions = some final → OneLive final := by
  intro claimed
  let first := newChallenge plain ⟨300, 5⟩ 1 "+911" "123456" none none 1000
  let second := newChallenge plain ⟨300, 5⟩ 2 "+911" "654321" none none 1000
  obtain ⟨final, ran, rows⟩ : ∃ final : State String,
      Runs.run (step plain ⟨300, 5⟩) initial issuedAtOnce = some final ∧
        final.challenges = [first, second] := ⟨_, rfl, rfl⟩
  have same : first = second :=
    claimed issuedAtOnce final ran first (by simp [rows]) second (by simp [rows]) rfl rfl rfl
  cases congrArg OtpChallenge.id same

end Steps

end RunnerupChat.OtpStore
