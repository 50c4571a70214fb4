import RunnerupChat.SessionTurns

/-!
A family ages out. Rotation extends nothing: all sessions that descend from
one login belong to its user and its device and end when it ends, and none of
their tokens is exchanged after that.
-/

namespace RunnerupChat.SessionStore

open Accounts UniqueKeys

variable {Token Digest : Type}

/-- Whom a session is for, and until when. -/
def UserSession.binding (row : UserSession Digest) : Uuid × Uuid × Time :=
  (row.userId, row.deviceId, row.expiresAt)

theorem Evolves.binding {row later : UserSession Digest} (evolves : Evolves row later) :
    later.binding = row.binding :=
  congrArg (fun columns => (columns.2.1, columns.2.2.1, columns.2.2.2.2.2.2)) evolves.same

/-- The sessions of a family end together, and each was exchanged before. -/
structure AgesOut (rows : List (UserSession Digest)) : Prop where
  bound : ∀ row ∈ rows, ∀ other ∈ rows, row.familyId = other.familyId → row.binding = other.binding
  spent : ∀ row ∈ rows, ∀ rotatedAt, row.rotatedAt = some rotatedAt → rotatedAt < row.expiresAt

/-- An exchange that is under way was decided in time. -/
def Timely (state : State Token Digest) : Prop :=
  ∀ tx token row now next deviceTouched,
    state.txs tx = some (.rotating token row now next deviceTouched) → now < row.expiresAt

section Steps
variable {sha256 : Token → Digest} {state next : State Token Digest} {action : Action Token}

theorem judge_exchange_early {row : UserSession Digest} {now : Time} {usable : Bool}
    (verdict : judge row now usable = .exchange) : now < row.expiresAt := by
  unfold judge at verdict
  split at verdict
  · cases verdict
  · split at verdict
    · cases verdict
    · split at verdict
      · cases verdict
      · rename_i early
        exact Nat.lt_of_not_le early

theorem decide_early [DecidableEq Token] {tx : TxId} {now : Time} {id : Uuid} {minted token : Token}
    {row : UserSession Digest} (taken : decideRotation sha256 state tx now id minted = some next)
    (held : state.txs tx = some (.locked token row)) {flushed : UserSession Digest}
    (txs : next.txs tx = some (.rotating token row now flushed false)) : now < row.expiresAt := by
  simp only [decideRotation, held] at taken
  split at taken
  · cases taken
    simp only [assign_same] at txs
    cases txs
  · cases taken
    simp only [close, assign_same] at txs
    cases txs
  · rename_i verdict
    exact judge_exchange_early verdict

theorem timely_assigned (timely : Timely state) {tx : TxId} {moved : Option (Phase Token Digest)}
    (txs : next.txs = assign state.txs tx moved)
    (early : ∀ token row now flushed deviceTouched,
      moved = some (.rotating token row now flushed deviceTouched) → now < row.expiresAt) :
    Timely next := by
  intro other token row now flushed deviceTouched opened
  rw [txs] at opened
  by_cases same : other = tx
  · subst other
    rw [assign_same] at opened
    exact early token row now flushed deviceTouched opened
  · rw [assign_other _ _ same] at opened
    exact timely other token row now flushed deviceTouched opened

variable [DecidableEq Token] [DecidableEq Digest]

theorem step_timely (timely : Timely state) (taken : step sha256 state action = some next) :
    Timely next := by
  cases step_turn taken with
  | still txs quiet =>
      intro tx token row now flushed deviceTouched opened
      exact timely tx token row now flushed deviceTouched (txs ▸ opened)
  | elsewhere tx phase before apart txs quiet =>
      refine timely_assigned timely txs fun _ _ _ _ _ same => ?_
      rw [Option.some.inj same] at apart
      exact apart.elim
  | locks tx token row free member hash txs | punishes tx now id minted token row held spent txs
  | refuses tx now id minted token row held txs =>
      exact timely_assigned timely txs fun _ _ _ _ _ same => by cases same
  | rotates tx now id minted token row held txs =>
      refine timely_assigned timely txs fun _ _ _ _ _ same => ?_
      cases same
      exact decide_early taken held (by rw [txs, assign_same])
  | touches tx token row flushed now held txs =>
      refine timely_assigned timely txs fun _ _ _ _ _ same => ?_
      cases same
      exact timely tx token row now flushed false held
  | starts tx now work later target rest held todo left presented covers txs
  | reaches tx session work later held left presented covers txs
  | commits tx phase entries held done txs | rollsBack tx phase held txs =>
      exact timely_assigned timely txs fun _ _ _ _ _ same => by cases same

omit [DecidableEq Token] [DecidableEq Digest] in
/-- A row that is inserted into a family is bound like the others. -/
theorem inserted_bound (inv : Inv sha256 state) (ages : AgesOut state.sessions) {tx : TxId}
    {phase : Phase Token Digest} (opened : state.txs tx = some phase) {row : UserSession Digest}
    (inserts : phase.inserts = some row) {other : UserSession Digest}
    (member : other ∈ state.sessions) (same : row.familyId = other.familyId) :
    row.binding = other.binding := by
  have ok := inv.phases tx phase opened
  cases phase with
  | creating created newDevice =>
      cases inserts
      exact absurd same (((inv.fresh tx _ row opened rfl).2 other member).family ok.1)
  | rotating token spent now flushed deviceTouched =>
      cases inserts
      obtain ⟨held, -, id, hash, rfl⟩ := ok
      exact ages.bound spent held.member other member same
  | leaving device now | locked token row | revoking work => cases inserts

omit [DecidableEq Token] [DecidableEq Digest] in
theorem commit_bound (inv : Inv sha256 state) (ages : AgesOut state.sessions) {tx : TxId}
    {phase : Phase Token Digest} (opened : state.txs tx = some phase)
    {later : List (UserSession Digest)} {entries : List (Entry Token)}
    (done : committed state.sessions phase = some (later, entries)) :
    ∀ row ∈ later, ∀ other ∈ later, row.familyId = other.familyId → row.binding = other.binding := by
  obtain ⟨change, commits⟩ := commit_rows inv opened done
  intro row member other another same
  rcases commits.origin member with ⟨before, old, evolves⟩ | inserted
  · rw [evolves.familyId] at same
    rw [evolves.binding]
    rcases commits.origin another with ⟨before', old', evolves'⟩ | inserted'
    · rw [evolves'.familyId] at same
      rw [evolves'.binding]
      exact ages.bound before old before' old' same
    · exact (inserted_bound inv ages opened inserted' old same.symm).symm
  · rcases commits.origin another with ⟨before', old', evolves'⟩ | inserted'
    · rw [evolves'.familyId] at same
      rw [evolves'.binding]
      exact inserted_bound inv ages opened inserted old' same
    · rw [Option.some.inj (inserted.symm.trans inserted')]

omit [DecidableEq Token] [DecidableEq Digest] in
theorem commit_spent (inv : Inv sha256 state) (ages : AgesOut state.sessions)
    (timely : Timely state) {tx : TxId} {phase : Phase Token Digest}
    (opened : state.txs tx = some phase) {later : List (UserSession Digest)}
    {entries : List (Entry Token)} (done : committed state.sessions phase = some (later, entries)) :
    ∀ row ∈ later, ∀ rotatedAt, row.rotatedAt = some rotatedAt → rotatedAt < row.expiresAt := by
  have ok := inv.phases tx phase opened
  intro row member rotatedAt rotated
  cases phase with
  | creating created newDevice =>
      simp only [committed, Option.some.injEq, Prod.mk.injEq] at done
      rw [← done.1] at member
      rcases List.mem_append.mp member with old | new
      · exact ages.spent row old rotatedAt rotated
      · have live := ok.2
        simp [← List.mem_singleton.mp new, UserSession.live, rotated] at live
  | leaving device now | locked token held => simp [committed] at done
  | rotating token held now flushed deviceTouched =>
      rw [(committed_rotating done).1] at member
      obtain ⟨locked, -, id, hash, rfl⟩ := ok
      rcases List.mem_append.mp member with rewritten | new
      · obtain ⟨before, old, rfl⟩ := List.mem_map.mp rewritten
        by_cases same : before.id = held.id
        · -- the row that was locked is the row that is spent
          have only := List.inj_on_of_nodup_map inv.ids old locked.member same
          rw [if_pos same] at rotated ⊢
          have early := timely tx token held now _ deviceTouched opened
          rw [← only] at early
          exact Option.some.inj rotated ▸ early
        · rw [if_neg same] at rotated ⊢
          exact ages.spent before old rotatedAt rotated
      · rw [List.mem_singleton.mp new] at rotated
        cases rotated
  | revoking work =>
      rw [(committed_revoking done).2.2.1] at member
      obtain ⟨before, old, rfl⟩ := List.mem_map.mp member
      by_cases updated : before.id ∈ work.progress.updated
      · rw [if_pos updated] at rotated ⊢
        exact ages.spent before old rotatedAt rotated
      · rw [if_neg updated] at rotated ⊢
        exact ages.spent before old rotatedAt rotated

theorem step_ages (inv : Inv sha256 state) (ages : AgesOut state.sessions) (timely : Timely state)
    (taken : step sha256 state action = some next) : AgesOut next.sessions := by
  cases step_outcome inv taken with
  | silent rows added | refused token answer rows added other unspent => exact rows ▸ ages
  | committed tx phase entries commits opened done added =>
      exact ⟨commit_bound inv ages opened done, commit_spent inv ages timely opened done⟩

/-- However its tokens are exchanged, replayed and revoked, a family keeps the
user, the device and the end of its login, and is exchanged before that end
only. -/
theorem families_age_out (collisionFree : Function.Injective sha256)
    (actions : List (Action Token)) (final : State Token Digest)
    (ran : Runs.run (step sha256) initial actions = some final) : AgesOut final.sessions := by
  have kept : Inv sha256 final ∧ AgesOut final.sessions ∧ Timely final := by
    refine Runs.run_invariant
      (fun state => Inv sha256 state ∧ AgesOut state.sessions ∧ Timely state) ?_ ran
      ⟨initial_inv sha256, ⟨by simp [initial], by simp [initial]⟩, by simp [Timely, initial]⟩
    rintro state action next ⟨inv, ages, timely⟩ taken
    exact ⟨step_inv collisionFree state action next inv taken, step_ages inv ages timely taken,
      step_timely timely taken⟩
  exact kept.2.1

theorem replayed_token_ages : ∃ final : State Nat Nat,
    Runs.run (step id) initial replayedToken = some final ∧
      final.sessions.map UserSession.id = [10, 11] ∧ AgesOut final.sessions := by
  obtain ⟨final, ran, rows⟩ : ∃ final : State Nat Nat,
      Runs.run (step id) initial replayedToken = some final ∧
        final.sessions.map UserSession.id = [10, 11] := ⟨_, rfl, rfl⟩
  exact ⟨final, ran, rows, families_age_out Function.injective_id replayedToken final ran⟩

end Steps

end RunnerupChat.SessionStore
