import RunnerupChat.TokenFamilies

/-!
What one step does to the open transactions of `services/sessions.py`: which
of them moves on, and from where to where. A row is spent by the commit of a
rotation and by nothing else.
-/

namespace RunnerupChat.SessionStore

open Accounts SnapshotUpdate UniqueKeys

variable {Token Digest : Type}

/-- A transaction that presents no token. -/
def Phase.Apart : Phase Token Digest → Prop
  | .creating _ _ | .leaving _ _ => True
  | .revoking work => work.presented = none
  | .locked _ _ | .rotating _ _ _ _ _ => False

/-- The transaction whose exchange a step carries on or ends. -/
def Action.moves : Action Token → Option TxId
  | .decide tx _ _ _ | .touchDevice tx | .commit tx | .rollback tx => some tx
  | _ => none

/-- What one step does to the open transactions. -/
inductive Turn (sha256 : Token → Digest) (state next : State Token Digest) : Action Token → Prop
  | still {action : Action Token} (txs : next.txs = state.txs)
      (quiet : action.moves = none) : Turn sha256 state next action
  | elsewhere {action : Action Token} (tx : TxId) (phase : Phase Token Digest)
      (before : ∀ old, state.txs tx = some old → old.Apart) (apart : phase.Apart)
      (txs : next.txs = assign state.txs tx (some phase))
      (quiet : action.moves = none) : Turn sha256 state next action
  | locks (tx : TxId) (token : Token) (row : UserSession Digest) (free : state.txs tx = none)
      (member : row ∈ state.sessions) (hash : row.refreshHash = sha256 token)
      (txs : next.txs = assign state.txs tx (some (.locked token row))) :
      Turn sha256 state next (.selectForUpdate tx token)
  | punishes (tx : TxId) (now : Time) (id : Uuid) (minted token : Token)
      (row : UserSession Digest) (held : state.txs tx = some (.locked token row))
      (spent : row.rotatedAt.isSome = true)
      (txs : next.txs = assign state.txs tx (some (.revoking
        (revocation [.family row.familyId] "refresh_reuse_detected" (some token) none)))) :
      Turn sha256 state next (.decide tx now id minted)
  | refuses (tx : TxId) (now : Time) (id : Uuid) (minted token : Token)
      (row : UserSession Digest) (held : state.txs tx = some (.locked token row))
      (txs : next.txs = assign state.txs tx none) :
      Turn sha256 state next (.decide tx now id minted)
  | rotates (tx : TxId) (now : Time) (id : Uuid) (minted token : Token)
      (row : UserSession Digest) (held : state.txs tx = some (.locked token row))
      (txs : next.txs = assign state.txs tx
        (some (.rotating token row now (successor row id (sha256 minted)) false))) :
      Turn sha256 state next (.decide tx now id minted)
  | touches (tx : TxId) (token : Token) (row flushed : UserSession Digest) (now : Time)
      (held : state.txs tx = some (.rotating token row now flushed false))
      (txs : next.txs = assign state.txs tx (some (.rotating token row now flushed true))) :
      Turn sha256 state next (.touchDevice tx)
  | starts (tx : TxId) (now : Time) (work later : Revocation Token) (target : Target)
      (rest : List Target) (held : state.txs tx = some (.revoking work))
      (todo : work.todo = target :: rest) (left : later.todo = rest)
      (presented : later.presented = work.presented)
      (covers : later.covers = work.covers ++ target.covers state.sessions)
      (txs : next.txs = assign state.txs tx (some (.revoking later))) :
      Turn sha256 state next (.startUpdate tx now)
  | reaches (tx : TxId) (session : Uuid) (work later : Revocation Token)
      (held : state.txs tx = some (.revoking work)) (left : later.todo = work.todo)
      (presented : later.presented = work.presented) (covers : later.covers = work.covers)
      (txs : next.txs = assign state.txs tx (some (.revoking later))) :
      Turn sha256 state next (.reachRow tx session)
  | commits (tx : TxId) (phase : Phase Token Digest) (entries : List (Entry Token))
      (held : state.txs tx = some phase)
      (done : committed state.sessions phase = some (next.sessions, entries))
      (txs : next.txs = assign state.txs tx none) : Turn sha256 state next (.commit tx)
  | rollsBack (tx : TxId) (phase : Phase Token Digest) (held : state.txs tx = some phase)
      (txs : next.txs = assign state.txs tx none) : Turn sha256 state next (.rollback tx)

section Turns
variable {sha256 : Token → Digest} {state next : State Token Digest}

theorem open_turn {action : Action Token} {tx : TxId} {todo : List Target} {reason : String}
    (quiet : action.moves = none)
    (taken : openRevocation state tx todo reason = some next) : Turn sha256 state next action := by
  rw [openRevocation] at taken
  split at taken
  · cases taken
  · rename_i free
    cases taken
    refine .elsewhere tx _ (fun old opened => ?_) ?_ rfl quiet
    · simp [opened] at free
    · rfl

theorem decide_turn [DecidableEq Token] {tx : TxId} {now : Time} {id : Uuid} {minted : Token}
    (taken : decideRotation sha256 state tx now id minted = some next) :
    Turn sha256 state next (.decide tx now id minted) := by
  rw [decideRotation] at taken
  split at taken
  case h_2 => cases taken
  case h_1 token row held =>
    split at taken
    · rename_i verdict
      cases taken
      exact .punishes tx now id minted token row held ((judge_reuse_iff _ _ _).mp verdict) rfl
    · cases taken
      exact .refuses tx now id minted token row held rfl
    · split at taken
      · cases taken
        exact .rotates tx now id minted token row held rfl
      · cases taken

/-- A token that nobody knows leaves the transactions as they are. -/
theorem select_cases [DecidableEq Digest] {tx : TxId} {token : Token}
    (taken : selectForUpdate sha256 state tx token = some next) :
    state.txs tx = none ∧ (next.txs = state.txs ∨
      ∃ row ∈ state.sessions, row.refreshHash = sha256 token ∧
        next.txs = assign state.txs tx (some (.locked token row))) := by
  rw [selectForUpdate] at taken
  split at taken
  · cases taken
  · rename_i free
    refine ⟨by simpa using free, ?_⟩
    split at taken
    · cases taken
      exact Or.inl rfl
    · rename_i row found
      split at taken
      · cases taken
        refine Or.inr ⟨row, List.mem_of_find?_eq_some found, ?_, rfl⟩
        simpa using List.find?_some found
      · cases taken

theorem step_turn [DecidableEq Token] [DecidableEq Digest] {action : Action Token}
    (taken : step sha256 state action = some next) : Turn sha256 state next action := by
  cases action with
  | createSession tx existing id user device family token expiresAt =>
      simp only [step, createSession] at taken
      split at taken
      · rename_i allowed
        cases taken
        refine .elsewhere tx _ (fun old opened => ?_) ?_ rfl rfl
        · simp [opened] at allowed
        · trivial
      · cases taken
  | selectForUpdate tx token =>
      obtain ⟨free, txs | ⟨row, member, hash, txs⟩⟩ := select_cases taken
      · exact .still txs rfl
      · exact .locks tx token row free member hash txs
  | decide tx now id minted => exact decide_turn taken
  | touchDevice tx =>
      simp only [step, touchDevice] at taken
      split at taken
      · rename_i token row now flushed held
        split at taken
        · cases taken
          exact .touches tx token row flushed now held rfl
        · cases taken
      · cases taken
  | revokeSession tx session user reason =>
      simp only [step, revokeSession] at taken
      split at taken
      · cases taken
        exact .still rfl rfl
      · exact open_turn rfl taken
  | revokeAllForUser tx user exceptSession reason => exact open_turn rfl taken
  | revokeDevice tx device user now =>
      simp only [step, revokeDevice] at taken
      split at taken
      · cases taken
        exact .still rfl rfl
      · split at taken
        · rename_i free
          cases taken
          refine .elsewhere tx _ (fun old opened => ?_) ?_ rfl rfl
          · simp [opened] at free
          · trivial
        · cases taken
  | readSessions tx =>
      simp only [step, readSessions] at taken
      split at taken
      · rename_i device now held
        cases taken
        refine .elsewhere tx _ (fun old opened => ?_) ?_ rfl rfl
        · rw [held] at opened
          cases opened
          trivial
        · rfl
      · cases taken
  | startUpdate tx now =>
      simp only [step, startUpdate] at taken
      split at taken
      · rename_i work held
        split at taken
        · rename_i target rest todo _
          cases taken
          refine .starts tx now work _ target rest held todo ?_ ?_ ?_ rfl
          · rfl
          · rfl
          · rfl
        · cases taken
      · cases taken
  | reachRow tx session =>
      simp only [step, reachRow] at taken
      split at taken
      · rename_i work held
        split at taken
        · cases taken
          refine .reaches tx session work _ held ?_ ?_ ?_ rfl
          · rfl
          · rfl
          · rfl
        · cases taken
      · cases taken
  | commit tx =>
      simp only [step, commit] at taken
      split at taken
      case h_1 => cases taken
      case h_2 phase held =>
        obtain ⟨⟨rows, entries⟩, done, rfl⟩ := Option.map_eq_some_iff.mp taken
        exact .commits tx phase entries held done rfl
  | rollback tx =>
      simp only [step] at taken
      split at taken
      · rename_i opened
        cases taken
        obtain ⟨phase, held⟩ := Option.isSome_iff_exists.mp opened
        exact .rollsBack tx phase held rfl
      · cases taken
  | setUsable user usable =>
      cases taken
      exact .still rfl rfl

end Turns

/-- A row of the family with this token that was not exchanged. -/
def Unspent (sha256 : Token → Digest) (family : Uuid) (state : State Token Digest)
    (token : Token) : Prop :=
  ∃ row ∈ state.sessions, row.refreshHash = sha256 token ∧ row.familyId = family ∧
    row.rotatedAt = none

section Spending
variable {sha256 : Token → Digest} {state next : State Token Digest} {family : Uuid}
  {token : Token}

/-- The row that a transaction has locked for a token of another family is
none of this one. -/
theorem commit_unspent (inv : Inv sha256 state) {tx : TxId} {phase : Phase Token Digest}
    {entries : List (Entry Token)} (held : state.txs tx = some phase)
    (done : committed state.sessions phase = some (next.sessions, entries))
    (apart : ∀ presented row now flushed touched,
      phase = .rotating presented row now flushed touched → row.familyId ≠ family)
    (unspent : Unspent sha256 family state token) : Unspent sha256 family next token := by
  obtain ⟨row, member, hash, inside, fresh⟩ := unspent
  cases phase with
  | creating created newDevice =>
      simp only [committed, Option.some.injEq, Prod.mk.injEq] at done
      exact ⟨row, done.1 ▸ List.mem_append_left _ member, hash, inside, fresh⟩
  | leaving device now => simp [committed] at done
  | locked presented locked => simp [committed] at done
  | rotating presented locked now flushed touched =>
      have ok : Held sha256 state.sessions state.locks tx presented locked :=
        (inv.phases tx _ held).1
      have other : row.id ≠ locked.id := by
        intro same
        obtain rfl := List.inj_on_of_nodup_map inv.ids member ok.member same
        exact apart presented row now flushed touched rfl inside
      have rows := (committed_rotating done).1
      exact ⟨row, rows ▸ List.mem_append_left _ (List.mem_map.mpr ⟨row, member, if_neg other⟩),
        hash, inside, fresh⟩
  | revoking work =>
      rw [Unspent, (committed_revoking done).2.2.1]
      refine ⟨_, List.mem_map.mpr ⟨row, member, rfl⟩, ?_⟩
      split
      · exact ⟨hash, inside, fresh⟩
      · exact ⟨hash, inside, fresh⟩

end Spending

end RunnerupChat.SessionStore
