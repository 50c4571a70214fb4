import RunnerupChat.SessionStore

/-!
What holds of the session table and of the open transactions in every state.
Rows keep their identity for good and only ever gain `rotated_at` and
`revoked_at`; a transaction that holds a row lock still sees the committed row;
rows not yet committed differ from every other row in id and digest.
-/

namespace RunnerupChat.SessionStore

open Accounts SnapshotUpdate UniqueKeys

section Rows
variable {Digest : Type}

/-- The columns no statement writes after the insert. -/
def UserSession.identity (row : UserSession Digest) :
    Uuid × Uuid × Uuid × Uuid × Digest × Option Uuid × Time :=
  (row.id, row.userId, row.deviceId, row.familyId, row.refreshHash, row.previousId, row.expiresAt)

structure Evolves (row later : UserSession Digest) : Prop where
  same : later.identity = row.identity
  rotated : row.rotatedAt.isSome = true → later.rotatedAt.isSome = true
  revoked : later.unrevoked = true → row.unrevoked = true

theorem evolves_refl (row : UserSession Digest) : Evolves row row := ⟨rfl, id, id⟩

theorem spend_evolves (now : Time) (row : UserSession Digest) : Evolves row (spend now row) :=
  ⟨rfl, fun _ => rfl, id⟩

theorem revoke_evolves (now : Time) (reason : String) (row : UserSession Digest) :
    Evolves row (revoke now reason row) :=
  ⟨rfl, id, fun alive => by simp [revoke, UserSession.unrevoked] at alive⟩

section Identity
variable {row later : UserSession Digest} (evolves : Evolves row later)
include evolves

theorem Evolves.id : later.id = row.id := congrArg (·.1) evolves.same
theorem Evolves.familyId : later.familyId = row.familyId := congrArg (·.2.2.2.1) evolves.same
theorem Evolves.refreshHash : later.refreshHash = row.refreshHash :=
  congrArg (·.2.2.2.2.1) evolves.same

end Identity

/-- A row about to be inserted collides with no other row, and starts a family
of its own unless it names a predecessor. -/
structure Apart (new other : UserSession Digest) : Prop where
  id : new.id ≠ other.id
  hash : new.refreshHash ≠ other.refreshHash
  family : new.previousId = none → new.familyId ≠ other.familyId

theorem Apart.evolves {new other later : UserSession Digest} (apart : Apart new other)
    (evolves : Evolves other later) : Apart new later where
  id := by rw [evolves.id]; exact apart.id
  hash := by rw [evolves.refreshHash]; exact apart.hash
  family := by rw [evolves.familyId]; exact apart.family

def Present (family : Uuid) (rows : List (UserSession Digest)) : Prop :=
  ∃ row ∈ rows, row.familyId = family

end Rows

variable {Token Digest : Type}

/-- The row a transaction has flushed and not yet committed. -/
def Phase.inserts : Phase Token Digest → Option (UserSession Digest)
  | .creating row _ => some row
  | .rotating _ _ _ next _ => some next
  | _ => none

structure Drawn (sha256 : Token → Digest) (ids : List Uuid) (tokens : List Token)
    (row : UserSession Digest) : Prop where
  id : row.id ∈ ids
  family : row.familyId ∈ ids
  token : ∃ token ∈ tokens, row.refreshHash = sha256 token

/-- The committed row a transaction has locked and read. -/
structure Held (sha256 : Token → Digest) (rows : List (UserSession Digest))
    (locks : Locks Uuid TxId) (tx : TxId) (token : Token) (row : UserSession Digest) : Prop where
  member : row ∈ rows
  hash : row.refreshHash = sha256 token
  lock : locks row.id = some tx

structure RevocationOk (sha256 : Token → Digest) (rows : List (UserSession Digest))
    (locks : Locks Uuid TxId) (tx : TxId) (work : Revocation Token) : Prop where
  tracked : Tracked UserSession.id UserSession.unrevoked rows locks tx work.progress
  known : ∀ key ∈ work.progress.seen, ∃ row ∈ rows, row.id = key
  todo : ∀ family, Target.family family ∈ work.todo → Present family rows
  covers : ∀ family ∈ work.covers, Present family rows
  presented : ∀ token, work.presented = some token →
    ∃ row ∈ rows, row.refreshHash = sha256 token ∧ row.rotatedAt.isSome = true

def PhaseOk (sha256 : Token → Digest) (rows : List (UserSession Digest))
    (locks : Locks Uuid TxId) (tx : TxId) : Phase Token Digest → Prop
  | .creating row _ => row.previousId = none ∧ row.live = true
  | .leaving _ _ => True
  | .locked token row => Held sha256 rows locks tx token row
  | .rotating token row _ next _ =>
      Held sha256 rows locks tx token row ∧ row.live = true ∧
        ∃ id hash, next = successor row id hash
  | .revoking work => RevocationOk sha256 rows locks tx work

/-- What holds of the committed rows and the open transactions together. -/
structure Inv (sha256 : Token → Digest) (state : State Token Digest) : Prop where
  ids : (state.sessions.map UserSession.id).Nodup
  hashes : (state.sessions.map UserSession.refreshHash).Nodup
  drawn : ∀ row ∈ state.sessions, Drawn sha256 state.drawnIds state.drawnTokens row
  phases : ∀ tx phase, state.txs tx = some phase →
    PhaseOk sha256 state.sessions state.locks tx phase
  fresh : ∀ tx phase row, state.txs tx = some phase → phase.inserts = some row →
    Drawn sha256 state.drawnIds state.drawnTokens row ∧
      ∀ other ∈ state.sessions, Apart row other
  apart : ∀ tx phase row tx' phase' row', tx ≠ tx' →
    state.txs tx = some phase → phase.inserts = some row →
    state.txs tx' = some phase' → phase'.inserts = some row' → Apart row row'

theorem initial_inv (sha256 : Token → Digest) :
    Inv sha256 (initial : State Token Digest) where
  ids := List.nodup_nil
  hashes := List.nodup_nil
  drawn := by simp [initial]
  phases := by simp [initial]
  fresh := by simp [initial]
  apart := by simp [initial]

/-! One transaction moves on; the committed rows stay. -/

section Move
variable {sha256 : Token → Digest} {state next : State Token Digest}

theorem Drawn.later {ids laterIds : List Uuid} {tokens laterTokens : List Token}
    {row : UserSession Digest} (drawn : Drawn sha256 ids tokens row)
    (more : ids ⊆ laterIds) (others : tokens ⊆ laterTokens) :
    Drawn sha256 laterIds laterTokens row := by
  obtain ⟨token, member, hash⟩ := drawn.token
  exact ⟨more drawn.id, more drawn.family, token, others member, hash⟩

theorem phase_ok_locks {rows : List (UserSession Digest)} {locks later : Locks Uuid TxId}
    {tx : TxId} {phase : Phase Token Digest} (ok : PhaseOk sha256 rows locks tx phase)
    (kept : ∀ key, locks key = some tx → later key = some tx) :
    PhaseOk sha256 rows later tx phase := by
  cases phase with
  | creating row newDevice => exact ok
  | leaving device now => trivial
  | locked token row => exact { ok with lock := kept _ ok.lock }
  | rotating token row now next touched =>
      exact ⟨{ ok.1 with lock := kept _ ok.1.lock }, ok.2⟩
  | revoking work => exact { ok with tracked := locks_tracked ok.tracked kept }

/-- A row flushed by one transaction, beside the rows of all the others. -/
structure Flushed (sha256 : Token → Digest) (state next : State Token Digest) (tx : TxId)
    (row : UserSession Digest) : Prop where
  drawn : Drawn sha256 next.drawnIds next.drawnTokens row
  apart : ∀ other ∈ state.sessions, Apart row other
  others : ∀ other phase pending, other ≠ tx → state.txs other = some phase →
    phase.inserts = some pending → Apart row pending ∧ Apart pending row

theorem inv_move (inv : Inv sha256 state) (tx : TxId) (moved : Option (Phase Token Digest))
    (rows : next.sessions = state.sessions) (txs : next.txs = assign state.txs tx moved)
    (locks : ∀ key other, other ≠ tx → state.locks key = some other →
      next.locks key = some other)
    (ids : state.drawnIds ⊆ next.drawnIds) (tokens : state.drawnTokens ⊆ next.drawnTokens)
    (ok : ∀ phase, moved = some phase → PhaseOk sha256 next.sessions next.locks tx phase)
    (flushed : ∀ phase row, moved = some phase → phase.inserts = some row →
      Flushed sha256 state next tx row) : Inv sha256 next where
  ids := rows ▸ inv.ids
  hashes := rows ▸ inv.hashes
  drawn := by
    intro row member
    exact (inv.drawn row (rows ▸ member)).later ids tokens
  phases := by
    intro other phase opened
    rw [txs] at opened
    by_cases same : other = tx
    · subst other
      rw [assign_same] at opened
      exact ok phase opened
    · rw [assign_other _ _ same] at opened
      rw [rows]
      exact phase_ok_locks (inv.phases other phase opened) fun key => locks key other same
  fresh := by
    intro other phase row opened inserts
    rw [txs] at opened
    rw [rows]
    by_cases same : other = tx
    · subst other
      rw [assign_same] at opened
      have new := flushed phase row opened inserts
      exact ⟨new.drawn, new.apart⟩
    · rw [assign_other _ _ same] at opened
      obtain ⟨drawn, apart⟩ := inv.fresh other phase row opened inserts
      exact ⟨drawn.later ids tokens, apart⟩
  apart := by
    intro left phase row right phase' row' distinct opened inserts opened' inserts'
    rw [txs] at opened opened'
    by_cases same : left = tx
    · subst left
      rw [assign_same] at opened
      rw [assign_other _ _ (Ne.symm distinct)] at opened'
      exact ((flushed phase row opened inserts).others right phase' row' (Ne.symm distinct)
        opened' inserts').1
    · rw [assign_other _ _ same] at opened
      by_cases same' : right = tx
      · subst right
        rw [assign_same] at opened'
        exact ((flushed phase' row' opened' inserts').others left phase row same
          opened inserts).2
      · rw [assign_other _ _ same'] at opened'
        exact inv.apart left phase row right phase' row' distinct opened inserts opened' inserts'

end Move

/-! A commit rewrites rows it has locked and adds the row it has flushed. -/

section Commit
variable {sha256 : Token → Digest} {state : State Token Digest}

/-- How the committed rows change when `tx` commits. -/
structure Commits (state : State Token Digest) (tx : TxId) (phase : Phase Token Digest)
    (change : UserSession Digest → UserSession Digest)
    (later : List (UserSession Digest)) : Prop where
  rewrites : Rewrites UserSession.id UserSession.unrevoked state.sessions state.locks tx change
    phase.inserts.toList later
  evolves : ∀ row, Evolves row (change row)

theorem commits_intro (inv : Inv sha256 state) {tx : TxId} {phase : Phase Token Digest}
    (opened : state.txs tx = some phase) {change : UserSession Digest → UserSession Digest}
    {later : List (UserSession Digest)}
    (shape : later = state.sessions.map change ++ phase.inserts.toList)
    (evolves : ∀ row, Evolves row (change row))
    (owned : ∀ row, state.locks row.id ≠ some tx → change row = row) :
    Commits state tx phase change later where
  rewrites := {
    shape := shape
    keys := fun row => (evolves row).id
    fades := fun row _ => (evolves row).revoked
    owned := owned
    new := fun row added other member =>
      ((inv.fresh tx phase row opened (by simpa using added)).2 other member).id }
  evolves := evolves

theorem commit_rows (inv : Inv sha256 state) {tx : TxId} {phase : Phase Token Digest}
    (opened : state.txs tx = some phase) {later : List (UserSession Digest)}
    {entries : List (Entry Token)} (done : committed state.sessions phase = some (later, entries)) :
    ∃ change, Commits state tx phase change later := by
  have ok := inv.phases tx phase opened
  cases phase with
  | creating row newDevice =>
      simp only [committed, Option.some.injEq, Prod.mk.injEq] at done
      exact ⟨id, commits_intro inv opened (by simp [Phase.inserts, ← done.1]) evolves_refl
        fun _ _ => rfl⟩
  | leaving device now => simp [committed] at done
  | locked token row => simp [committed] at done
  | rotating token row now next touched =>
      refine ⟨_, commits_intro inv opened (committed_rotating done).1
        (fun other => ?_) fun other free => ?_⟩
      · split
        · exact spend_evolves now other
        · exact evolves_refl other
      · rw [if_neg]
        intro same
        exact free (same ▸ ok.1.lock)
  | revoking work =>
      refine ⟨fun row => if row.id ∈ work.progress.updated then
          revoke (work.stamps row.id) work.reason row else row,
        commits_intro inv opened (by simp [Phase.inserts, (committed_revoking done).2.2.1, written])
          (fun row => ?_) fun row free => ?_⟩
      · split
        · exact revoke_evolves _ _ row
        · exact evolves_refl row
      · rw [if_neg]
        exact fun updated => free (ok.tracked.locked row.id updated)

variable {tx : TxId} {phase : Phase Token Digest}
  {change : UserSession Digest → UserSession Digest} {later : List (UserSession Digest)}

theorem Commits.heir (commits : Commits state tx phase change later) {row : UserSession Digest}
    (member : row ∈ state.sessions) : ∃ heir ∈ later, Evolves row heir :=
  ⟨change row, commits.rewrites.heir member, commits.evolves row⟩

/-- Every row after the commit is an old row grown on, or the flushed one. -/
theorem Commits.origin (commits : Commits state tx phase change later) {row : UserSession Digest}
    (member : row ∈ later) :
    (∃ before ∈ state.sessions, Evolves before row) ∨ phase.inserts = some row := by
  rcases commits.rewrites.origin member with ⟨before, old, rfl⟩ | added
  · exact Or.inl ⟨before, old, commits.evolves before⟩
  · exact Or.inr (by simpa using added)

theorem Commits.present (commits : Commits state tx phase change later) {family : Uuid}
    (present : Present family state.sessions) : Present family later := by
  obtain ⟨row, member, same⟩ := present
  obtain ⟨heir, found, evolves⟩ := commits.heir member
  exact ⟨heir, found, evolves.familyId.trans same⟩

theorem Commits.held (commits : Commits state tx phase change later) {other : TxId} {token : Token}
    {row : UserSession Digest} (distinct : other ≠ tx)
    (held : Held sha256 state.sessions state.locks other token row) :
    Held sha256 later (release state.locks tx) other token row where
  member := commits.rewrites.locked_member distinct held.member held.lock
  hash := held.hash
  lock := release_keeps state.locks row.id tx other distinct held.lock

theorem Commits.phase_ok (commits : Commits state tx phase change later) {other : TxId}
    {pending : Phase Token Digest} (distinct : other ≠ tx)
    (ok : PhaseOk sha256 state.sessions state.locks other pending) :
    PhaseOk sha256 later (release state.locks tx) other pending := by
  cases pending with
  | creating row newDevice => exact ok
  | leaving device now => trivial
  | locked token row => exact commits.held distinct ok
  | rotating token row now next touched => exact ⟨commits.held distinct ok.1, ok.2⟩
  | revoking work =>
      exact {
        tracked := commits.rewrites.tracked distinct ok.known ok.tracked
        known := fun key seen => by
          obtain ⟨row, member, same⟩ := ok.known key seen
          obtain ⟨heir, found, evolves⟩ := commits.heir member
          exact ⟨heir, found, evolves.id.trans same⟩
        todo := fun family member => commits.present (ok.todo family member)
        covers := fun family member => commits.present (ok.covers family member)
        presented := fun token named => by
          obtain ⟨row, member, hash, rotated⟩ := ok.presented token named
          obtain ⟨heir, found, evolves⟩ := commits.heir member
          exact ⟨heir, found, evolves.refreshHash.trans hash, evolves.rotated rotated⟩ }

/-- A column no statement writes stays free of duplicates when the flushed row
brings a new value. -/
theorem Commits.nodup {Column : Type} (commits : Commits state tx phase change later)
    (column : UserSession Digest → Column) (kept : ∀ row, column (change row) = column row)
    (distinct : (state.sessions.map column).Nodup)
    (new : ∀ row, phase.inserts = some row → ∀ other ∈ state.sessions, column row ≠ column other) :
    (later.map column).Nodup := by
  have same : (state.sessions.map change).map column = state.sessions.map column := by
    simp [kept]
  rw [commits.rewrites.shape, List.map_append, same]
  cases added : phase.inserts with
  | none => simpa using distinct
  | some row =>
      refine List.nodup_append.mpr ⟨distinct, by simp, ?_⟩
      intro value old other inserted
      obtain ⟨before, member, rfl⟩ := List.mem_map.mp old
      simp only [Option.toList_some, List.map_cons, List.map_nil, List.mem_singleton] at inserted
      rw [inserted]
      exact (new row added before member).symm

theorem inv_commit (inv : Inv sha256 state) {tx : TxId} {phase : Phase Token Digest}
    (opened : state.txs tx = some phase) {next : State Token Digest}
    {entries : List (Entry Token)}
    (done : committed state.sessions phase = some (next.sessions, entries))
    (locks : next.locks = release state.locks tx) (txs : next.txs = assign state.txs tx none)
    (ids : next.drawnIds = state.drawnIds) (tokens : next.drawnTokens = state.drawnTokens) :
    Inv sha256 next := by
  obtain ⟨change, commits⟩ := commit_rows inv opened done
  -- an open transaction of `next` was open before, and is another one
  have others : ∀ {other pending}, next.txs other = some pending →
      other ≠ tx ∧ state.txs other = some pending := by
    intro other pending found
    rw [txs] at found
    by_cases same : other = tx
    · simp [same] at found
    · exact ⟨same, assign_other state.txs none same ▸ found⟩
  constructor
  · exact commits.nodup UserSession.id (fun row => (commits.evolves row).id) inv.ids
      fun row added other member => ((inv.fresh tx phase row opened added).2 other member).id
  · exact commits.nodup UserSession.refreshHash (fun row => (commits.evolves row).refreshHash)
      inv.hashes fun row added other member =>
        ((inv.fresh tx phase row opened added).2 other member).hash
  · intro row member
    rw [ids, tokens]
    rcases commits.origin member with ⟨before, old, evolves⟩ | added
    · have drawn := inv.drawn before old
      exact ⟨evolves.id ▸ drawn.id, evolves.familyId ▸ drawn.family,
        evolves.refreshHash ▸ drawn.token⟩
    · exact (inv.fresh tx phase row opened added).1
  · intro other pending found
    obtain ⟨distinct, before⟩ := others found
    rw [locks]
    exact commits.phase_ok distinct (inv.phases other pending before)
  · intro other pending row found inserts
    obtain ⟨distinct, before⟩ := others found
    obtain ⟨drawn, apart⟩ := inv.fresh other pending row before inserts
    refine ⟨by rw [ids, tokens]; exact drawn, fun present member => ?_⟩
    rcases commits.origin member with ⟨earlier, old, evolves⟩ | added
    · exact (apart earlier old).evolves evolves
    · exact inv.apart other pending row tx phase present distinct before inserts opened added
  · intro left phase' row right phase'' row' distinct found inserts found' inserts'
    exact inv.apart left phase' row right phase'' row' distinct (others found).2 inserts
      (others found').2 inserts'

end Commit

/-! Each statement keeps the invariant. -/

section Statements
variable {sha256 : Token → Digest} {state next : State Token Digest}

/-- A statement that flushes no row and draws nothing. -/
theorem inv_statement (inv : Inv sha256 state) (tx : TxId) (phase : Phase Token Digest)
    (rows : next.sessions = state.sessions) (txs : next.txs = assign state.txs tx (some phase))
    (locks : ∀ key other, other ≠ tx → state.locks key = some other →
      next.locks key = some other)
    (ids : next.drawnIds = state.drawnIds) (tokens : next.drawnTokens = state.drawnTokens)
    (ok : PhaseOk sha256 next.sessions next.locks tx phase) (none : phase.inserts = none) :
    Inv sha256 next := by
  apply inv_move inv tx (some phase) rows txs locks (by simp [ids]) (by simp [tokens])
  · intro same opened
    rw [← Option.some.inj opened]
    exact ok
  · intro same row opened inserts
    rw [← Option.some.inj opened, none] at inserts
    cases inserts

/-- The end of a transaction without effect on the rows. -/
theorem inv_close (inv : Inv sha256 state) (tx : TxId) : Inv sha256 (close state tx) := by
  refine inv_move inv tx none rfl rfl
    (fun key other distinct => release_keeps state.locks key tx other distinct)
    (List.Subset.refl _) (List.Subset.refl _) ?_ ?_
  · simp
  · simp

theorem revocation_ok {rows : List (UserSession Digest)} {locks : Locks Uuid TxId} {tx : TxId}
    {todo : List Target} {reason : String} {presented : Option Token}
    {device : Option (Uuid × Time)}
    (families : ∀ family, Target.family family ∈ todo → Present family rows)
    (reused : ∀ token, presented = some token →
      ∃ row ∈ rows, row.refreshHash = sha256 token ∧ row.rotatedAt.isSome = true) :
    RevocationOk sha256 rows locks tx (revocation todo reason presented device) where
  tracked := none_tracked rows locks tx
  known := by simp [revocation, Progress.none]
  todo := families
  covers := by simp [revocation]
  presented := reused

variable (collisionFree : Function.Injective sha256)
include collisionFree

/-- A row whose id and token are newly drawn collides with no drawn row. -/
theorem drawn_apart {new other : UserSession Digest} {token : Token}
    (id : new.id ∉ state.drawnIds) (hash : new.refreshHash = sha256 token)
    (unseen : token ∉ state.drawnTokens)
    (family : new.previousId = none → new.familyId ∉ state.drawnIds)
    (drawn : Drawn sha256 state.drawnIds state.drawnTokens other) : Apart new other := by
  obtain ⟨earlier, member, digest⟩ := drawn.token
  refine ⟨fun same => id (same ▸ drawn.id), fun same => unseen ?_,
    fun first same => family first (same ▸ drawn.family)⟩
  rw [hash, digest] at same
  exact collisionFree same ▸ member

/-- A newly drawn row is apart from the committed and the pending rows, and
they from it as long as it joins no family that is still to be committed. -/
theorem drawn_flushed (inv : Inv sha256 state) {tx : TxId} {new : UserSession Digest}
    {token : Token} (id : new.id ∉ state.drawnIds) (hash : new.refreshHash = sha256 token)
    (unseen : token ∉ state.drawnTokens)
    (family : new.previousId = none → new.familyId ∉ state.drawnIds)
    (joins : new.previousId ≠ none → Present new.familyId state.sessions)
    (drawn : Drawn sha256 next.drawnIds next.drawnTokens new) :
    Flushed sha256 state next tx new where
  drawn := drawn
  apart := fun other member =>
    drawn_apart collisionFree id hash unseen family (inv.drawn other member)
  others := by
    intro other phase pending _ opened inserts
    obtain ⟨known, apart⟩ := inv.fresh other phase pending opened inserts
    have one := drawn_apart collisionFree id hash unseen family known
    refine ⟨one, one.id.symm, one.hash.symm, fun first same => ?_⟩
    by_cases root : new.previousId = none
    · exact one.family root same.symm
    · obtain ⟨row, member, joined⟩ := joins root
      exact (apart row member).family first (same.trans joined.symm)

end Statements

section Steps
variable {sha256 : Token → Digest} {state next : State Token Digest}

theorem open_revocation_inv (inv : Inv sha256 state) {tx : TxId} {todo : List Target}
    {reason : String}
    (families : ∀ family, Target.family family ∈ todo → Present family state.sessions)
    (taken : openRevocation state tx todo reason = some next) : Inv sha256 next := by
  unfold openRevocation at taken
  split at taken
  · cases taken
  · cases taken
    exact inv_statement inv tx _ rfl rfl (fun _ _ _ => id) rfl rfl
      (revocation_ok families (by simp)) rfl

theorem create_session_inv [DecidableEq Token] (collisionFree : Function.Injective sha256)
    (inv : Inv sha256 state) {tx : TxId} {existing : Option Uuid}
    {id user device family : Uuid} {token : Token}
    {expiresAt : Time}
    (taken : createSession sha256 state tx existing id user device family token expiresAt
      = some next) : Inv sha256 next := by
  unfold createSession at taken
  split at taken
  case isFalse => cases taken
  case isTrue allowed =>
    obtain ⟨_, _, unseen, newToken⟩ := allowed
    cases taken
    refine inv_move inv tx _ rfl rfl (fun _ _ _ found => found)
      (fun drawn member => by simp [member]) (List.subset_cons_self _ _) ?_ ?_
    · intro phase opened
      rw [← Option.some.inj opened]
      exact ⟨rfl, rfl⟩
    · intro phase row opened inserts
      rw [← Option.some.inj opened] at inserts
      rw [← Option.some.inj inserts]
      exact drawn_flushed collisionFree inv (unseen id (by simp)) rfl newToken
        (fun _ => unseen family (by simp)) (fun joins => absurd rfl joins)
        ⟨by simp [newSession], by simp [newSession], token, by simp, rfl⟩

theorem select_for_update_inv [DecidableEq Digest] (inv : Inv sha256 state) {tx : TxId}
    {token : Token}
    (taken : selectForUpdate sha256 state tx token = some next) : Inv sha256 next := by
  unfold selectForUpdate at taken
  split at taken
  · cases taken
  · split at taken
    · cases taken
      exact { inv with }
    · rename_i row found
      split at taken
      case isFalse => cases taken
      case isTrue free =>
        cases taken
        refine inv_statement inv tx _ rfl rfl
          (fun key other _ => acquire_keeps state.locks row.id key tx other free) rfl rfl ?_ rfl
        exact ⟨List.mem_of_find?_eq_some found, by simpa using List.find?_some found,
          acquire_same state.locks row.id tx⟩

theorem decide_rotation_inv [DecidableEq Token] (collisionFree : Function.Injective sha256)
    (inv : Inv sha256 state) {tx : TxId} {now : Time} {nextId : Uuid} {nextToken : Token}
    (taken : decideRotation sha256 state tx now nextId nextToken = some next) :
    Inv sha256 next := by
  unfold decideRotation at taken
  split at taken
  case h_2 => cases taken
  case h_1 token row opened =>
    have held : Held sha256 state.sessions state.locks tx token row := inv.phases tx _ opened
    split at taken
    · rename_i verdict
      cases taken
      refine inv_statement inv tx _ rfl rfl (fun _ _ _ same => same) rfl rfl
        (revocation_ok ?_ ?_) rfl
      · intro family member
        simp only [List.mem_singleton, Target.family.injEq] at member
        exact ⟨row, held.member, member.symm⟩
      · intro presented named
        cases named
        exact ⟨row, held.member, held.hash, (judge_reuse_iff row now _).mp verdict⟩
    · cases taken
      exact { inv_close inv tx with }
    · rename_i verdict
      split at taken
      case isFalse => cases taken
      case isTrue unseen =>
        cases taken
        refine inv_move inv tx _ rfl rfl (fun _ _ _ same => same) (List.subset_cons_self _ _)
          (List.subset_cons_self _ _) ?_ ?_
        · intro phase opened
          rw [← Option.some.inj opened]
          exact ⟨held, judge_exchange_live verdict, nextId, _, rfl⟩
        · intro phase new opened inserts
          rw [← Option.some.inj opened] at inserts
          rw [← Option.some.inj inserts]
          refine drawn_flushed collisionFree inv unseen.1 rfl unseen.2 (fun first => ?_)
            (fun _ => ⟨row, held.member, rfl⟩)
            ⟨by simp [successor], ?_, nextToken, by simp, rfl⟩
          · simp [successor] at first
          · exact List.mem_cons_of_mem nextId (inv.drawn row held.member).family

/-- The row a rotation has flushed stays flushed while it waits for the device. -/
theorem touch_device_inv (inv : Inv sha256 state) {tx : TxId}
    (taken : touchDevice state tx = some next) : Inv sha256 next := by
  unfold touchDevice at taken
  split at taken
  case h_2 => cases taken
  case h_1 token row now new opened =>
    split at taken
    case isFalse => cases taken
    case isTrue free =>
      cases taken
      have ok := inv.phases tx _ opened
      refine inv_move inv tx _ rfl rfl (fun _ _ _ same => same) (List.Subset.refl _)
        (List.Subset.refl _) ?_ ?_
      · intro phase same
        rw [← Option.some.inj same]
        exact ok
      · intro phase flushed same inserts
        rw [← Option.some.inj same] at inserts
        obtain ⟨drawn, apart⟩ := inv.fresh tx _ flushed opened inserts
        refine ⟨drawn, apart, fun other pending another distinct opened' inserts' => ⟨?_, ?_⟩⟩
        · exact inv.apart tx _ flushed other pending another distinct.symm opened inserts
            opened' inserts'
        · exact inv.apart other pending another tx _ flushed distinct opened' inserts'
            opened inserts

theorem revoke_session_inv (inv : Inv sha256 state) {tx : TxId} {session user : Uuid}
    {reason : String} (taken : revokeSession state tx session user reason = some next) :
    Inv sha256 next := by
  unfold revokeSession at taken
  split at taken
  · cases taken
    exact inv
  · rename_i row found
    refine open_revocation_inv inv ?_ taken
    intro family member
    simp only [List.mem_singleton, Target.family.injEq] at member
    exact ⟨row, List.mem_of_find?_eq_some found, member.symm⟩

theorem revoke_device_inv (inv : Inv sha256 state) {tx : TxId} {device user : Uuid} {now : Time}
    (taken : revokeDevice state tx device user now = some next) : Inv sha256 next := by
  unfold revokeDevice at taken
  split at taken
  · cases taken
    exact inv
  · split at taken
    · cases taken
      exact inv_statement inv tx _ rfl rfl (fun _ _ _ same => same) rfl rfl trivial rfl
    · cases taken

theorem read_sessions_inv (inv : Inv sha256 state) {tx : TxId}
    (taken : readSessions state tx = some next) : Inv sha256 next := by
  unfold readSessions at taken
  split at taken
  case h_2 => cases taken
  case h_1 device now opened =>
    cases taken
    refine inv_statement inv tx _ rfl rfl (fun _ _ _ same => same) rfl rfl
      (revocation_ok ?_ (by simp)) rfl
    intro family member
    obtain ⟨row, found, same⟩ := List.mem_map.mp member
    exact ⟨row, List.mem_of_mem_filter found, Target.family.inj same⟩

theorem covers_present {target : Target} {rows : List (UserSession Digest)}
    (named : ∀ family, target = .family family → Present family rows) :
    ∀ family ∈ target.covers rows, Present family rows := by
  intro family covered
  cases target with
  | family wanted =>
      rw [List.mem_singleton.mp covered]
      exact named wanted rfl
  | user owner exceptSession =>
      obtain ⟨row, found, same⟩ := List.mem_map.mp (List.mem_of_mem_filter covered)
      exact ⟨row, List.mem_of_mem_filter found, same⟩

theorem start_update_inv (inv : Inv sha256 state) {tx : TxId} {now : Time}
    (taken : startUpdate state tx now = some next) : Inv sha256 next := by
  unfold startUpdate at taken
  split at taken
  case h_2 => cases taken
  case h_1 work opened =>
    have ok : RevocationOk sha256 state.sessions state.locks tx work := inv.phases tx _ opened
    split at taken
    case h_2 => cases taken
    case h_1 target rest listed idle =>
      cases taken
      refine inv_statement inv tx _ rfl rfl (fun _ _ _ same => same) rfl rfl ?_ rfl
      exact {
        tracked := start_tracked target.selects ok.tracked
        known := by
          intro key seen
          rcases List.mem_append.mp seen with old | new
          · exact ok.known key old
          · obtain ⟨row, found, same⟩ := List.mem_map.mp (List.mem_of_mem_filter new)
            exact ⟨row, List.mem_of_mem_filter found, same⟩
        todo := fun family member => ok.todo family (by simp [listed, member])
        covers := by
          intro family member
          rcases List.mem_append.mp member with old | new
          · exact ok.covers family old
          · exact covers_present (fun wanted same => ok.todo wanted (by simp [listed, same]))
              family new
        presented := ok.presented }

theorem reach_row_inv (inv : Inv sha256 state) {tx : TxId} {session : Uuid}
    (taken : reachRow state tx session = some next) : Inv sha256 next := by
  unfold reachRow at taken
  split at taken
  case h_2 => cases taken
  case h_1 work opened =>
    have ok : RevocationOk sha256 state.sessions state.locks tx work := inv.phases tx _ opened
    split at taken
    case isFalse => cases taken
    case isTrue waiting =>
      cases taken
      refine inv_statement inv tx _ rfl rfl
        (fun key other _ => acquire_keeps state.locks session key tx other waiting.2) rfl rfl ?_ rfl
      exact { ok with tracked := reach_tracked ok.tracked waiting.1 waiting.2 }

theorem commit_inv (inv : Inv sha256 state) {tx : TxId}
    (taken : commit state tx = some next) : Inv sha256 next := by
  unfold commit at taken
  split at taken
  case h_1 => cases taken
  case h_2 phase opened =>
    obtain ⟨⟨rows, entries⟩, done, rfl⟩ := Option.map_eq_some_iff.mp taken
    exact inv_commit inv opened done rfl rfl rfl rfl

variable [DecidableEq Token] [DecidableEq Digest]

theorem step_inv (collisionFree : Function.Injective sha256) (state : State Token Digest)
    (action : Action Token) (next : State Token Digest) (inv : Inv sha256 state)
    (taken : step sha256 state action = some next) : Inv sha256 next := by
  cases action with
  | createSession tx existing id user device family token expiresAt =>
      exact create_session_inv collisionFree inv taken
  | selectForUpdate tx token => exact select_for_update_inv inv taken
  | decide tx now nextId nextToken => exact decide_rotation_inv collisionFree inv taken
  | touchDevice tx => exact touch_device_inv inv taken
  | revokeSession tx session user reason => exact revoke_session_inv inv taken
  | revokeAllForUser tx user exceptSession reason =>
      exact open_revocation_inv inv (by simp) taken
  | revokeDevice tx device user now => exact revoke_device_inv inv taken
  | readSessions tx => exact read_sessions_inv inv taken
  | startUpdate tx now => exact start_update_inv inv taken
  | reachRow tx session => exact reach_row_inv inv taken
  | commit tx => exact commit_inv inv taken
  | rollback tx =>
      simp only [step] at taken
      split at taken
      · cases taken
        exact inv_close inv tx
      · cases taken
  | setUsable user usable =>
      cases taken
      exact { inv with }

theorem run_inv (collisionFree : Function.Injective sha256) {actions : List (Action Token)}
    {final : State Token Digest} (ran : Runs.run (step sha256) initial actions = some final) :
    Inv sha256 final :=
  Runs.run_invariant (Inv sha256) (step_inv collisionFree) ran (initial_inv sha256)

end Steps

end RunnerupChat.SessionStore
