import RunnerupChat.Accounts
import RunnerupChat.Lineage
import RunnerupChat.Runs
import RunnerupChat.SnapshotUpdate
import RunnerupChat.UniqueKeys

/-!
`services/sessions.py` as transactions under READ COMMITTED. One action is
one statement of one transaction, or its commit or rollback; actions of
different transactions interleave freely. A statement that has to wait for a
row lock is not enabled while another transaction holds the lock. Redis
effects follow the statements and are modelled with the access tokens.
-/

namespace RunnerupChat.SessionStore

open Accounts SnapshotUpdate UniqueKeys

structure UserSession (Digest : Type) where
  id : Uuid
  userId : Uuid
  deviceId : Uuid
  familyId : Uuid
  refreshHash : Digest
  previousId : Option Uuid
  rotatedAt : Option Time
  revokedAt : Option Time
  revokedReason : Option String
  expiresAt : Time
  lastUsedAt : Option Time
  deriving DecidableEq

/-- The columns a device is looked up by. -/
structure UserDevice where
  id : Uuid
  userId : Uuid
  revokedAt : Option Time
  deriving DecidableEq

inductive RefreshRejected where
  | unknownToken | reuseDetected | revoked | expired | accountUnavailable
  deriving DecidableEq

def RefreshRejected.reason : RefreshRejected → String
  | .unknownToken => "unknown_token"
  | .reuseDetected => "reuse_detected"
  | .revoked => "revoked"
  | .expired => "expired"
  | .accountUnavailable => "account_unavailable"

section Rows
variable {Digest : Type}

def UserSession.unrevoked (row : UserSession Digest) : Bool := row.revokedAt.isNone

/-- A row whose token can still be exchanged, unless it has expired. -/
def UserSession.live (row : UserSession Digest) : Bool :=
  row.revokedAt.isNone && row.rotatedAt.isNone

/-- The row `create_session` inserts. -/
def newSession (id user device family : Uuid) (hash : Digest) (expiresAt : Time) :
    UserSession Digest :=
  { id := id, userId := user, deviceId := device, familyId := family, refreshHash := hash,
    previousId := none, rotatedAt := none, revokedAt := none, revokedReason := none,
    expiresAt := expiresAt, lastUsedAt := none }

/-- Mark the presented token spent. -/
def spend (now : Time) (row : UserSession Digest) : UserSession Digest :=
  { row with rotatedAt := some now, lastUsedAt := some now }

/-- Rotation extends nothing: the successor expires with its family. -/
def successor (row : UserSession Digest) (id : Uuid) (hash : Digest) : UserSession Digest :=
  { id := id, userId := row.userId, deviceId := row.deviceId, familyId := row.familyId,
    refreshHash := hash, previousId := some row.id, rotatedAt := none, revokedAt := none,
    revokedReason := none, expiresAt := row.expiresAt, lastUsedAt := none }

def revoke (now : Time) (reason : String) (row : UserSession Digest) : UserSession Digest :=
  { row with revokedAt := some now, revokedReason := some reason }

inductive Verdict where
  | reuse | rejected (answer : RefreshRejected) | exchange
  deriving DecidableEq

/-- The checks of `rotate_session` on the locked row, in its order. -/
def judge (row : UserSession Digest) (now : Time) (usable : Bool) : Verdict :=
  if row.rotatedAt.isSome then .reuse
  else if row.revokedAt.isSome then .rejected .revoked
  else if row.expiresAt ≤ now then .rejected .expired
  else if usable then .exchange
  else .rejected .accountUnavailable

theorem judge_reuse_iff (row : UserSession Digest) (now : Time) (usable : Bool) :
    judge row now usable = .reuse ↔ row.rotatedAt.isSome = true := by
  constructor
  · intro verdict
    unfold judge at verdict
    by_contra unspent
    rw [if_neg unspent] at verdict
    repeat' split at verdict
    all_goals cases verdict
  · intro spent
    simp [judge, spent]

theorem judge_exchange_live {row : UserSession Digest} {now : Time} {usable : Bool}
    (verdict : judge row now usable = .exchange) : row.live = true := by
  unfold judge at verdict
  split at verdict
  · cases verdict
  · split at verdict
    · cases verdict
    · rename_i unspent unrevoked
      simp [UserSession.live] at unspent unrevoked ⊢
      exact ⟨unrevoked, unspent⟩

/-- A refusal by the checks is no reuse, and its row is unspent. -/
theorem judge_rejected {row : UserSession Digest} {now : Time} {usable : Bool}
    {answer : RefreshRejected} (verdict : judge row now usable = .rejected answer) :
    row.rotatedAt = none ∧ answer ≠ .reuseDetected := by
  unfold judge at verdict
  split at verdict
  · cases verdict
  · rename_i unspent
    refine ⟨by simpa using unspent, ?_⟩
    repeat' split at verdict
    all_goals cases verdict
    all_goals decide

/-- The predicate of one revoking `UPDATE`. -/
inductive Target where
  | family (family : Uuid)
  | user (user : Uuid) (exceptSession : Option Uuid)
  deriving DecidableEq

def Target.selects (target : Target) (row : UserSession Digest) : Bool :=
  row.unrevoked &&
    match target with
    | .family wanted => row.familyId == wanted
    | .user owner exceptSession =>
        row.userId == owner && some row.id != exceptSession

/-- The families the statement revokes as a whole. An excepted session keeps
its family out. -/
def Target.covers (target : Target) (rows : List (UserSession Digest)) : List Uuid :=
  match target with
  | .family wanted => [wanted]
  | .user owner exceptSession =>
      let families := (rows.filter fun row => row.userId == owner).map (·.familyId)
      families.filter fun found =>
        !rows.any fun row => row.familyId == found && some row.id == exceptSession

def familyRows (family : Uuid) (rows : List (UserSession Digest)) : List (UserSession Digest) :=
  rows.filter fun row => row.familyId == family

end Rows

/-- A transaction that revokes: the statements not yet started, the rows
reached so far with their `revoked_at`, the token whose reuse it punishes, and
the device it signs out. -/
structure Revocation (Token : Type) where
  todo : List Target
  reason : String
  now : Time
  progress : Progress Uuid
  stamps : Uuid → Time
  covers : List Uuid
  presented : Option Token
  device : Option (Uuid × Time)

inductive Phase (Token Digest : Type) where
  | creating (row : UserSession Digest) (newDevice : Bool)
  | leaving (device : Uuid) (now : Time)
  | locked (token : Token) (row : UserSession Digest)
  | rotating (token : Token) (row : UserSession Digest) (now : Time)
      (next : UserSession Digest) (deviceTouched : Bool)
  | revoking (work : Revocation Token)

inductive Answer where
  | exchanged (family : Uuid)
  | rejected (answer : RefreshRejected)
  deriving DecidableEq

/-- What has been answered and revoked so far, oldest first. -/
inductive Entry (Token : Type) where
  | answered (token : Token) (answer : Answer)
  | revoked (families : List Uuid)
  deriving DecidableEq

structure State (Token Digest : Type) where
  sessions : List (UserSession Digest)
  devices : List UserDevice
  usable : Uuid → Bool
  locks : Locks Uuid TxId
  deviceLocks : Locks Uuid TxId
  drawnIds : List Uuid
  drawnTokens : List Token
  txs : TxId → Option (Phase Token Digest)
  journal : List (Entry Token)

inductive Action (Token : Type) where
  | createSession (tx : TxId) (existing : Option Uuid) (id user device family : Uuid)
      (token : Token) (expiresAt : Time)
  | selectForUpdate (tx : TxId) (token : Token)
  | decide (tx : TxId) (now : Time) (nextId : Uuid) (nextToken : Token)
  | touchDevice (tx : TxId)
  | revokeSession (tx : TxId) (session user : Uuid) (reason : String)
  | revokeAllForUser (tx : TxId) (user : Uuid) (exceptSession : Option Uuid) (reason : String)
  | revokeDevice (tx : TxId) (device user : Uuid) (now : Time)
  | readSessions (tx : TxId)
  | startUpdate (tx : TxId) (now : Time)
  | reachRow (tx : TxId) (session : Uuid)
  | commit (tx : TxId)
  | rollback (tx : TxId)
  | setUsable (user : Uuid) (usable : Bool)

section Machine
variable {Token Digest : Type}

def initial : State Token Digest :=
  { sessions := [], devices := [], usable := fun _ => false, locks := fun _ => none,
    deviceLocks := fun _ => none, drawnIds := [], drawnTokens := [], txs := fun _ => none,
    journal := [] }

/-- The transaction ends: its locks go and nothing of it stays open. -/
def close (state : State Token Digest) (tx : TxId) : State Token Digest :=
  { state with locks := release state.locks tx, deviceLocks := release state.deviceLocks tx,
               txs := assign state.txs tx none }

def revocation (todo : List Target) (reason : String) (presented : Option Token)
    (device : Option (Uuid × Time)) : Revocation Token :=
  { todo := todo, reason := reason, now := 0, progress := Progress.none, stamps := fun _ => 0,
    covers := [], presented := presented, device := device }

/-- The device a new session is bound to, when the caller names a usable one of
the same user. -/
def existingDevice (devices : List UserDevice) (user : Uuid) (existing : Option Uuid) :
    Option UserDevice :=
  devices.find? fun row => some row.id == existing && row.userId == user && row.revokedAt.isNone

/-- Random values are new whenever they are drawn. -/
def createSession [DecidableEq Token] (sha256 : Token → Digest) (state : State Token Digest)
    (tx : TxId) (existing : Option Uuid) (id user device family : Uuid) (token : Token)
    (expiresAt : Time) : Option (State Token Digest) :=
  if (state.txs tx).isNone ∧ [id, device, family].Nodup ∧
      (∀ drawn ∈ [id, device, family], drawn ∉ state.drawnIds) ∧ token ∉ state.drawnTokens then
    -- an unknown, foreign or revoked device counts as none: a new one is made
    let found := existingDevice state.devices user existing
    let bound := match found with
      | some row => row.id
      | none => device
    some { state with
      txs := assign state.txs tx (some (.creating
        (newSession id user bound family (sha256 token) expiresAt) found.isNone))
      drawnIds := id :: device :: family :: state.drawnIds
      drawnTokens := token :: state.drawnTokens }
  else none

/-- `SELECT ... FOR UPDATE` by digest: the row is read under its lock. -/
def selectForUpdate [DecidableEq Digest] (sha256 : Token → Digest)
    (state : State Token Digest) (tx : TxId) (token : Token) : Option (State Token Digest) :=
  if (state.txs tx).isSome then none
  else match state.sessions.find? fun row => row.refreshHash == sha256 token with
    | none =>
        some { state with
          journal := state.journal ++ [.answered token (.rejected .unknownToken)] }
    | some row =>
        if available state.locks row.id tx then
          some { state with
            locks := acquire state.locks row.id tx
            txs := assign state.txs tx (some (.locked token row)) }
        else none

/-- The checks on the locked row, and for an exchange the flush that stages
the spent row and its successor. -/
def decideRotation [DecidableEq Token] (sha256 : Token → Digest)
    (state : State Token Digest) (tx : TxId) (now : Time) (nextId : Uuid) (nextToken : Token) :
    Option (State Token Digest) :=
  match state.txs tx with
  | some (.locked token row) =>
      match judge row now (state.usable row.userId) with
      -- the row stays locked while the whole family is revoked
      | .reuse =>
          some { state with
            txs := assign state.txs tx (some (.revoking
              (revocation [.family row.familyId] "refresh_reuse_detected" (some token) none))) }
      | .rejected answer =>
          let closed := close state tx
          some { closed with journal := state.journal ++ [.answered token (.rejected answer)] }
      | .exchange =>
          if nextId ∉ state.drawnIds ∧ nextToken ∉ state.drawnTokens then
            some { state with
              txs := assign state.txs tx
                (some (.rotating token row now (successor row nextId (sha256 nextToken)) false))
              drawnIds := nextId :: state.drawnIds
              drawnTokens := nextToken :: state.drawnTokens }
          else none
  | _ => none

/-- The `UPDATE` of the device row, kept here for its row lock. -/
def touchDevice (state : State Token Digest) (tx : TxId) : Option (State Token Digest) :=
  match state.txs tx with
  | some (.rotating token row now next false) =>
      if available state.deviceLocks row.deviceId tx then
        some { state with
          deviceLocks := acquire state.deviceLocks row.deviceId tx
          txs := assign state.txs tx (some (.rotating token row now next true)) }
      else none
  | _ => none

def openRevocation (state : State Token Digest) (tx : TxId) (todo : List Target)
    (reason : String) : Option (State Token Digest) :=
  if (state.txs tx).isSome then none
  else some { state with
    txs := assign state.txs tx (some (.revoking (revocation todo reason none none))) }

/-- A session id of somebody else is a no-op. -/
def revokeSession (state : State Token Digest) (tx : TxId) (session user : Uuid)
    (reason : String) : Option (State Token Digest) :=
  match state.sessions.find? fun row =>
      row.id == session && row.userId == user with
  | none => some state
  | some row => openRevocation state tx [.family row.familyId] reason

/-- The device row is written, and so locked, before its sessions are read. -/
def revokeDevice (state : State Token Digest) (tx : TxId) (device user : Uuid) (now : Time) :
    Option (State Token Digest) :=
  match state.devices.find? fun row => row.id == device && row.userId == user with
  | none => some state
  | some _ =>
      if (state.txs tx).isNone ∧ available state.deviceLocks device tx then
        some { state with
          deviceLocks := acquire state.deviceLocks device tx
          txs := assign state.txs tx (some (.leaving device now)) }
      else none

/-- Each session found on the device revokes its family in a statement of its
own. -/
def readSessions (state : State Token Digest) (tx : TxId) : Option (State Token Digest) :=
  match state.txs tx with
  | some (.leaving device now) =>
      -- a plain `SELECT`: it sees committed rows only and locks none
      let found := state.sessions.filter fun row => row.deviceId == device && row.unrevoked
      some { state with
        txs := assign state.txs tx (some (.revoking
          (revocation (found.map fun row => .family row.familyId) "device_revoked" none
            (some (device, now))))) }
  | _ => none

def startUpdate (state : State Token Digest) (tx : TxId) (now : Time) :
    Option (State Token Digest) :=
  match state.txs tx with
  | some (.revoking work) =>
      match work.todo, work.progress.pending with
      | target :: rest, [] =>
          some { state with
            txs := assign state.txs tx (some (.revoking
              { work with
                todo := rest
                now := now
                progress := start UserSession.id target.selects state.sessions work.progress
                covers := work.covers ++ target.covers state.sessions })) }
      | _, _ => none
  | _ => none

def reachRow (state : State Token Digest) (tx : TxId) (session : Uuid) :
    Option (State Token Digest) :=
  match state.txs tx with
  | some (.revoking work) =>
      if session ∈ work.progress.pending ∧ available state.locks session tx = true then
        some { state with
          locks := acquire state.locks session tx
          txs := assign state.txs tx (some (.revoking
            { work with
              progress :=
                reach UserSession.id UserSession.unrevoked state.sessions session work.progress
              -- each statement of the revocation has its own `now`
              stamps := fun other => if other = session then work.now else work.stamps other })) }
      else none
  | _ => none

/-- A revocation that punishes a reused token refuses that token. -/
def reuseAnswer : Option Token → List (Entry Token)
  | some token => [.answered token (.rejected .reuseDetected)]
  | none => []

/-- The rows after the commit of a phase that is ready to commit, with what
the commit adds to the journal. -/
def committed (sessions : List (UserSession Digest)) :
    Phase Token Digest → Option (List (UserSession Digest) × List (Entry Token))
  | .creating row _ => some (sessions ++ [row], [])
  | .leaving _ _ => none
  | .locked _ _ => none
  | .rotating token row now next deviceTouched =>
      -- the spent row and its successor become visible together
      if deviceTouched then
        some ((sessions.map fun other => if other.id = row.id then spend now other else other)
          ++ [next], [.answered token (.exchanged row.familyId)])
      else none
  | .revoking work =>
      match work.todo, work.progress.pending with
      | [], [] =>
          some (written UserSession.id
              (fun row => revoke (work.stamps row.id) work.reason row) work.progress sessions,
            .revoked work.covers :: reuseAnswer work.presented)
      | _, _ => none

theorem committed_revoking {sessions later : List (UserSession Digest)} {work : Revocation Token}
    {entries : List (Entry Token)}
    (done : committed sessions (.revoking work) = some (later, entries)) :
    work.todo = [] ∧ work.progress.pending = [] ∧
      later = written UserSession.id (fun row => revoke (work.stamps row.id) work.reason row)
        work.progress sessions ∧
      entries = .revoked work.covers :: reuseAnswer work.presented := by
  simp only [committed] at done
  split at done
  · rename_i finished idle
    simp only [Option.some.injEq, Prod.mk.injEq] at done
    exact ⟨finished, idle, done.1.symm, done.2.symm⟩
  · cases done

theorem committed_rotating {sessions later : List (UserSession Digest)} {token : Token}
    {row next : UserSession Digest} {now : Time} {touched : Bool} {entries : List (Entry Token)}
    (done : committed sessions (.rotating token row now next touched) = some (later, entries)) :
    later = (sessions.map fun other => if other.id = row.id then spend now other else other)
        ++ [next] ∧
      entries = [.answered token (.exchanged row.familyId)] := by
  cases touched with
  | false => simp [committed] at done
  | true =>
      simp only [committed, if_true, Option.some.injEq, Prod.mk.injEq] at done
      exact ⟨done.1.symm, done.2.symm⟩

/-- The device rows after the commit. -/
def committedDevices (devices : List UserDevice) : Phase Token Digest → List UserDevice
  | .creating row true => devices ++ [⟨row.deviceId, row.userId, none⟩]
  | .revoking work =>
      match work.device with
      | some (device, now) =>
          devices.map fun row => if row.id = device then { row with revokedAt := some now } else row
      | none => devices
  | _ => devices

def commit (state : State Token Digest) (tx : TxId) : Option (State Token Digest) :=
  match state.txs tx with
  | none => none
  | some phase =>
      (committed state.sessions phase).map fun (sessions, entries) =>
        let closed := close state tx
        { closed with
          sessions := sessions
          devices := committedDevices state.devices phase
          journal := state.journal ++ entries }

def step [DecidableEq Token] [DecidableEq Digest] (sha256 : Token → Digest)
    (state : State Token Digest) :
    Action Token → Option (State Token Digest)
  | .createSession tx existing id user device family token expiresAt =>
      createSession sha256 state tx existing id user device family token expiresAt
  | .selectForUpdate tx token => selectForUpdate sha256 state tx token
  | .decide tx now nextId nextToken => decideRotation sha256 state tx now nextId nextToken
  | .touchDevice tx => touchDevice state tx
  | .revokeSession tx session user reason => revokeSession state tx session user reason
  | .revokeAllForUser tx user exceptSession reason =>
      openRevocation state tx [.user user exceptSession] reason
  | .revokeDevice tx device user now => revokeDevice state tx device user now
  | .readSessions tx => readSessions state tx
  | .startUpdate tx now => startUpdate state tx now
  | .reachRow tx session => reachRow state tx session
  | .commit tx => commit state tx
  | .rollback tx => if (state.txs tx).isSome then some (close state tx) else none
  | .setUsable user usable =>
      some { state with usable := fun other => if other = user then usable else state.usable other }

end Machine

end RunnerupChat.SessionStore
