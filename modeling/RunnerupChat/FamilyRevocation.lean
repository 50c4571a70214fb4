import RunnerupChat.TokenFamilies

/-!
Revoking a family while one of its tokens is being rotated. The revoking
`UPDATE` rewrites the rows of its snapshot, so a successor committed between
the snapshot and the revoking commit is missed. Revocation is final exactly
when no live session of a revoked family is younger than the snapshot.
-/

namespace RunnerupChat.SessionStore

open Accounts SnapshotUpdate

variable {Token Digest : Type}

def revokedFamilies (journal : List (Entry Token)) : List Uuid :=
  journal.flatMap fun entry =>
    match entry with
    | .revoked families => families
    | .answered _ _ => []

/-- No rotation in a family succeeds after the family was revoked. -/
def NoLaterExchange : List (Entry Token) → Prop :=
  History.Each fun before entry => ∀ token family, entry = .answered token (.exchanged family) →
    family ∉ revokedFamilies before

structure StaysDead (state : State Token Digest) : Prop where
  rows : ∀ row ∈ state.sessions, row.familyId ∈ revokedFamilies state.journal → row.live = false
  exchanges : NoLaterExchange state.journal

/-- When a revoking transaction commits, every session of its families that is
live by then was already committed when the `UPDATE` started. -/
def NoLateSuccessor (state : State Token Digest) (action : Action Token) : Prop :=
  ∀ tx work, action = .commit tx → state.txs tx = some (.revoking work) →
    work.todo = [] → work.progress.pending = [] →
    ∀ row ∈ state.sessions, row.familyId ∈ work.covers → row.live = true →
      row.id ∈ work.progress.seen

theorem live_iff (row : UserSession Digest) :
    row.live = true ↔ row.unrevoked = true ∧ row.rotatedAt = none := by
  simp [UserSession.live, UserSession.unrevoked]

theorem Evolves.live {row later : UserSession Digest} (evolves : Evolves row later)
    (alive : later.live = true) : row.live = true := by
  rw [live_iff] at alive ⊢
  refine ⟨evolves.revoked alive.1, ?_⟩
  by_contra spent
  have rotated := evolves.rotated (Option.isSome_iff_ne_none.mpr spent)
  simp [alive.2] at rotated

section Commits
variable {sha256 : Token → Digest} {state next : State Token Digest} {tx : TxId}
  {work : Revocation Token}

/-- The commit of a revocation leaves no live session in its families exactly
when no live session of them is younger than its snapshot. -/
theorem revocation_complete_iff (inv : Inv sha256 state)
    (opened : state.txs tx = some (.revoking work)) {later : List (UserSession Digest)}
    {entries : List (Entry Token)}
    (done : committed state.sessions (.revoking work) = some (later, entries)) :
    (∀ row ∈ later, row.familyId ∈ work.covers → row.live = false) ↔
      ∀ row ∈ state.sessions, row.familyId ∈ work.covers → row.live = true →
        row.id ∈ work.progress.seen := by
  have ok : RevocationOk sha256 state.sessions state.locks tx work := inv.phases tx _ opened
  obtain ⟨_, finished, rows, _⟩ := committed_revoking done
  have exact := leaves_none_iff ok.tracked finished
    (fun row => revoke (work.stamps row.id) work.reason row) (fun row => by rfl)
    (fun row => row.familyId ∈ work.covers ∧ row.rotatedAt = none)
  rw [← rows] at exact
  constructor
  · intro none row member covered alive
    rw [live_iff] at alive
    apply exact.mp _ row member ⟨covered, alive.2⟩ alive.1
    intro other present about
    simpa [UserSession.live, UserSession.unrevoked, about.2] using none other present about.1
  · intro seen row member covered
    by_contra alive
    rw [Bool.not_eq_false, live_iff] at alive
    have dead := exact.mpr (fun other present about unrevoked =>
      seen other present about.1 ((live_iff other).mpr ⟨unrevoked, about.2⟩))
      row member ⟨covered, alive.2⟩
    simp [alive.1] at dead

/-- The revoked families and the rows, in a run whose revocations all come in
time. -/
structure Settled (rows : List (UserSession Digest)) (journal : List (Entry Token)) : Prop where
  dead : ∀ row ∈ rows, row.familyId ∈ revokedFamilies journal → row.live = false
  exchanges : NoLaterExchange journal
  present : ∀ family ∈ revokedFamilies journal, Present family rows

/-- After a commit, a live row of a family revoked earlier is the flushed one. -/
theorem revoked_live_flushed (settled : Settled state.sessions state.journal)
    {phase : Phase Token Digest} {change : UserSession Digest → UserSession Digest}
    {later : List (UserSession Digest)} (commits : Commits state tx phase change later)
    {row : UserSession Digest} (member : row ∈ later)
    (revoked : row.familyId ∈ revokedFamilies state.journal) (alive : row.live = true) :
    phase.inserts = some row := by
  rcases commits.origin member with ⟨before, old, evolves⟩ | inserted
  · have ended := settled.dead before old (evolves.familyId ▸ revoked)
    simp [evolves.live alive] at ended
  · exact inserted

theorem create_settled (inv : Inv sha256 state) (settled : Settled state.sessions state.journal)
    {row : UserSession Digest} {newDevice : Bool}
    (opened : state.txs tx = some (.creating row newDevice))
    {change : UserSession Digest → UserSession Digest} {later : List (UserSession Digest)}
    (commits : Commits state tx (.creating row newDevice) change later) :
    Settled later state.journal where
  dead := by
    intro found member revoked
    by_contra alive
    rw [Bool.not_eq_false] at alive
    obtain rfl := Option.some.inj (revoked_live_flushed settled commits member revoked alive)
    -- the new family is not among those known before
    obtain ⟨other, old, same⟩ := settled.present row.familyId revoked
    exact ((inv.fresh tx _ row opened rfl).2 other old).family
      (inv.phases tx _ opened).1 same.symm
  exchanges := settled.exchanges
  present := fun family revoked => commits.present (settled.present family revoked)

theorem rotate_settled (inv : Inv sha256 state) (settled : Settled state.sessions state.journal)
    {token : Token} {row new : UserSession Digest} {now : Time} {touched : Bool}
    (opened : state.txs tx = some (.rotating token row now new touched))
    {change : UserSession Digest → UserSession Digest} {later : List (UserSession Digest)}
    (commits : Commits state tx (.rotating token row now new touched) change later) :
    Settled later (state.journal ++ [.answered token (.exchanged row.familyId)]) := by
  obtain ⟨held, live, id, hash, rfl⟩ := inv.phases tx _ opened
  have unrevoked : row.familyId ∉ revokedFamilies state.journal := by
    intro revoked
    simp [settled.dead row held.member revoked] at live
  have same : revokedFamilies (state.journal ++ [.answered token (.exchanged row.familyId)])
      = revokedFamilies state.journal := by
    simp [revokedFamilies]
  constructor
  · intro found member revoked
    rw [same] at revoked
    by_contra alive
    rw [Bool.not_eq_false] at alive
    obtain rfl := Option.some.inj (revoked_live_flushed settled commits member revoked alive)
    exact unrevoked revoked
  · apply (History.each_snoc_iff _ _).mpr ⟨settled.exchanges, ?_⟩
    rintro _ _ ⟨⟩
    exact unrevoked
  · rw [same]
    exact fun family revoked => commits.present (settled.present family revoked)

theorem revoke_settled (inv : Inv sha256 state) (settled : Settled state.sessions state.journal)
    (opened : state.txs tx = some (.revoking work))
    {change : UserSession Digest → UserSession Digest} {later : List (UserSession Digest)}
    (commits : Commits state tx (.revoking work) change later)
    (complete : ∀ row ∈ later, row.familyId ∈ work.covers → row.live = false) :
    Settled later (state.journal ++ .revoked work.covers :: reuseAnswer work.presented) := by
  have ok : RevocationOk sha256 state.sessions state.locks tx work := inv.phases tx _ opened
  have families : revokedFamilies (state.journal ++
      .revoked work.covers :: reuseAnswer work.presented) =
      revokedFamilies state.journal ++ work.covers := by
    cases presented : work.presented <;> simp [revokedFamilies, reuseAnswer]
  have exchanges : NoLaterExchange (state.journal ++ [.revoked work.covers]) :=
    (History.each_snoc_iff _ _).mpr ⟨settled.exchanges, by simp⟩
  constructor
  · intro row member revoked
    rw [families] at revoked
    rcases List.mem_append.mp revoked with before | covered
    · by_contra alive
      rw [Bool.not_eq_false] at alive
      cases revoked_live_flushed settled commits member before alive
    · exact complete row member covered
  · cases presented : work.presented with
    | none => exact exchanges
    | some token =>
        have answered := (History.each_snoc_iff _
          (.answered token (.rejected .reuseDetected))).mpr ⟨exchanges, by simp⟩
        simpa [reuseAnswer, NoLaterExchange] using answered
  · rw [families]
    intro family revoked
    rcases List.mem_append.mp revoked with before | covered
    · exact commits.present (settled.present family before)
    · exact commits.present (ok.covers family covered)

theorem commit_settled (inv : Inv sha256 state) (settled : Settled state.sessions state.journal)
    {phase : Phase Token Digest} {later : List (UserSession Digest)} {entries : List (Entry Token)}
    (opened : state.txs tx = some phase)
    (done : committed state.sessions phase = some (later, entries))
    (timely : NoLateSuccessor state (.commit tx)) :
    Settled later (state.journal ++ entries) := by
  obtain ⟨change, commits⟩ := commit_rows inv opened done
  cases phase with
  | creating row newDevice =>
      have none : entries = [] := (Prod.mk.inj (Option.some.inj done)).2.symm
      rw [none, List.append_nil]
      exact create_settled inv settled opened commits
  | leaving device now => simp [committed] at done
  | locked token row => simp [committed] at done
  | rotating token row now new touched =>
      rw [(committed_rotating done).2]
      exact rotate_settled inv settled opened commits
  | revoking work =>
      obtain ⟨finished, idle, _, added⟩ := committed_revoking done
      rw [added]
      exact revoke_settled inv settled opened commits
        ((revocation_complete_iff inv opened done).mpr (timely tx work rfl opened finished idle))

variable [DecidableEq Token] [DecidableEq Digest]

theorem step_settled (inv : Inv sha256 state) (settled : Settled state.sessions state.journal)
    {action : Action Token} (timely : NoLateSuccessor state action)
    (taken : step sha256 state action = some next) : Settled next.sessions next.journal := by
  cases step_outcome inv taken with
  | silent rows added => rwa [rows, added]
  | refused token answer rows added other unspent =>
      have same : revokedFamilies next.journal = revokedFamilies state.journal := by
        simp [added, revokedFamilies]
      constructor
      · rw [same, rows]
        exact settled.dead
      · rw [added]
        exact (History.each_snoc_iff _ _).mpr ⟨settled.exchanges, by simp⟩
      · rw [same, rows]
        exact settled.present
  | committed tx phase entries commits opened done added =>
      subst commits
      rw [added]
      exact commit_settled inv settled opened done timely

/-- A revoking commit that leaves its families dead was a timely one. -/
theorem timely_of_dead (inv : Inv sha256 state) {action : Action Token}
    (dead : ∀ next, step sha256 state action = some next → StaysDead next) :
    NoLateSuccessor state action := by
  rintro tx work rfl opened finished idle
  let phase : Phase Token Digest := .revoking work
  obtain ⟨⟨later, entries⟩, done⟩ : ∃ result, committed state.sessions phase = some result := by
    simp [phase, committed, finished, idle]
  have taken : step sha256 state (.commit tx) = some { close state tx with
      sessions := later
      devices := committedDevices state.devices phase
      journal := state.journal ++ entries } := by
    simp [step, commit, opened, phase, done]
  apply (revocation_complete_iff inv opened done).mp
  intro row member covered
  apply (dead _ taken).rows row member
  obtain ⟨_, _, _, rfl⟩ := committed_revoking done
  simp [revokedFamilies, covered]

end Commits

section Runs
variable [DecidableEq Token] [DecidableEq Digest] {sha256 : Token → Digest}

/-- Revoked families stay dead in every state of a run exactly when every
revocation of the run comes in time. -/
theorem revocation_final_iff (collisionFree : Function.Injective sha256)
    (actions : List (Action Token)) :
    (∀ visited, Runs.Visits (step sha256) initial actions visited → StaysDead visited) ↔
      Runs.Meets (step sha256) NoLateSuccessor initial actions := by
  apply Runs.always_iff_meets (Inv sha256)
    (fun state => Inv sha256 state ∧ Settled state.sessions state.journal) StaysDead actions
    (step_inv collisionFree)
  · exact fun state action inv dead => timely_of_dead inv dead
  · exact fun state action next holds timely taken =>
      ⟨step_inv collisionFree state action next holds.1 taken,
        step_settled holds.1 holds.2 timely taken⟩
  · exact fun state holds => ⟨holds.2.dead, holds.2.exchanges⟩
  · exact initial_inv sha256
  · exact ⟨initial_inv sha256, by simp [initial], History.each_nil, by
      simp [initial, revokedFamilies]⟩

/-- A rotation stages the successor 11 of session 10; a logout starts its
`UPDATE`; the rotation commits; the logout rewrites session 10 and commits; the
token of session 11 is exchanged as if nothing had happened. -/
def missedSuccessor : List (Action Nat) :=
  [.createSession 1 none 10 20 30 40 100 5000, .commit 1, .setUsable 20 true,
    .selectForUpdate 2 100, .decide 2 1000 11 101, .touchDevice 2,
    .revokeSession 3 10 20 "user_logout", .startUpdate 3 1001, .commit 2, .reachRow 3 10,
    .commit 3, .selectForUpdate 4 101, .decide 4 1002 12 102, .touchDevice 4, .commit 4]

theorem successor_survives : ∃ final : State Nat Nat,
    Runs.run (step id) initial missedSuccessor = some final ∧
      (∃ row ∈ final.sessions, row.familyId ∈ revokedFamilies final.journal ∧ row.live = true) ∧
      ¬NoLaterExchange final.journal := by
  let last : UserSession Nat :=
    { id := 12, userId := 20, deviceId := 30, familyId := 40, refreshHash := 102,
      previousId := some 11, rotatedAt := none, revokedAt := none, revokedReason := none,
      expiresAt := 5000, lastUsedAt := none }
  refine ⟨_, rfl, ⟨last, by decide, by decide, rfl⟩, fun none => ?_⟩
  exact none [.answered 100 (.exchanged 40), .revoked [40]] (.answered 101 (.exchanged 40)) [] rfl
    101 40 rfl (by decide)

/-- The same requests one after the other: the logout finds both sessions. -/
def logoutAfterRotation : List (Action Nat) :=
  [.createSession 1 none 10 20 30 40 100 5000, .commit 1, .setUsable 20 true,
    .selectForUpdate 2 100, .decide 2 1000 11 101, .touchDevice 2, .commit 2,
    .revokeSession 3 10 20 "user_logout", .startUpdate 3 1001, .reachRow 3 10, .reachRow 3 11,
    .commit 3]

theorem logout_after_rotation_final :
    (Runs.run (step id) initial logoutAfterRotation).isSome = true ∧
      ∀ visited : State Nat Nat,
        Runs.Visits (step id) initial logoutAfterRotation visited → StaysDead visited := by
  refine ⟨rfl, ?_⟩
  apply (revocation_final_iff Function.injective_id logoutAfterRotation).mpr
  -- only the last commit is a revoking one
  iterate 11 refine Runs.meets_cons rfl (by rintro tx work ⟨⟩ ⟨⟩) ?_
  refine Runs.meets_cons rfl ?_ trivial
  rintro tx work ⟨⟩ ⟨⟩ _ _
  decide

end Runs

end RunnerupChat.SessionStore
