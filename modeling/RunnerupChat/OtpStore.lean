import RunnerupChat.Accounts
import RunnerupChat.RateLimit
import RunnerupChat.Runs
import RunnerupChat.SnapshotUpdate
import RunnerupChat.UniqueKeys

/-!
`services/otp.py` under READ COMMITTED. An action is one statement, one
rate-limit script or one commit of one request; requests interleave freely.
-/

namespace RunnerupChat.OtpStore

open Accounts RateLimit SnapshotUpdate UniqueKeys

structure Settings where
  otpTtlSeconds : Nat
  otpMaxAttempts : Nat

/-- The digests of `core/security.py` under one pepper, and `uuid.UUID(text)`. -/
structure Crypto (Digest : Type) where
  hmacDigest : String → Digest
  sha256 : String → Digest
  hex : Digest → String
  parseUuid : String → Option Uuid

structure OtpChallenge (Digest : Type) where
  id : Uuid
  phoneHash : Digest
  codeHash : Digest
  attempts : Nat
  maxAttempts : Nat
  requestIp : Option String
  userAgentHash : Option Digest
  consumedAt : Option Time
  expiresAt : Time
  deriving DecidableEq

inductive OtpResult where
  | ok | invalid | expired | exhausted
  deriving DecidableEq

def OtpResult.text : OtpResult → String
  | .ok => "ok"
  | .invalid => "invalid"
  | .expired => "expired"
  | .exhausted => "exhausted"

section Rows
variable {Digest : Type}

def phoneFingerprint (crypto : Crypto Digest) (phone : String) : Digest :=
  crypto.hmacDigest ("phone:" ++ phone)

def hashOtp (crypto : Crypto Digest) (challenge : Uuid) (code : String) : Digest :=
  crypto.hmacDigest (toString challenge ++ ":" ++ code)

def OtpChallenge.unconsumed (row : OtpChallenge Digest) : Bool := row.consumedAt.isNone

def consume (now : Time) (row : OtpChallenge Digest) : OtpChallenge Digest :=
  { row with consumedAt := some now }

/-- Where `verify_challenge` ends on a locked row. -/
inductive Branch where
  | replay | expired | exhausted | wrongCode | accepted
  deriving DecidableEq

def Branch.result : Branch → OtpResult
  | .replay => .invalid
  | .expired => .expired
  | .exhausted => .exhausted
  | .wrongCode => .invalid
  | .accepted => .ok

def burn (row : OtpChallenge Digest) : OtpChallenge Digest :=
  { row with attempts := row.attempts + 1 }

/-- The checks on the row, after its attempt is burned. -/
def judge (burned : OtpChallenge Digest) (now : Time) (codeMatches : Bool) : Branch :=
  if burned.consumedAt.isSome then .replay
  else if burned.expiresAt ≤ now then .expired
  else if burned.maxAttempts < burned.attempts then .exhausted
  else if !codeMatches then .wrongCode
  else .accepted

/-- The row each branch commits. -/
def Branch.settles (branch : Branch) (now : Time) (burned : OtpChallenge Digest) :
    OtpChallenge Digest :=
  match branch with
  | .exhausted | .accepted => consume now burned
  | .replay | .expired | .wrongCode => burned

/-- The row `issue_challenge` inserts. -/
def newChallenge (crypto : Crypto Digest) (settings : Settings) (id : Uuid) (phone code : String)
    (ip userAgent : Option String) (now : Time) : OtpChallenge Digest :=
  { id := id, phoneHash := phoneFingerprint crypto phone, codeHash := hashOtp crypto id code,
    attempts := 0, maxAttempts := settings.otpMaxAttempts, requestIp := ip,
    userAgentHash := (userAgent.filter (· ≠ "")).map crypto.sha256, consumedAt := none,
    expiresAt := now + settings.otpTtlSeconds * second }

end Rows

inductive Request where
  | issue (phone : String) (ip userAgent : Option String)
  | verify (challenge code phone : String) (ip : Option String)

/-- The budgets a request is charged to, in order: its number, then its address
if there is one. -/
def Request.budgets {Digest : Type} (crypto : Crypto Digest) :
    Request → List (LimitName × String)
  | .issue phone ip _ =>
      (.otpRequestPhone, crypto.hex (phoneFingerprint crypto phone)) ::
        (ip.toList.filter (· ≠ "")).map fun address => (.otpRequestIp, address)
  | .verify _ _ phone ip =>
      (.otpVerifyPhone, crypto.hex (phoneFingerprint crypto phone)) ::
        (ip.toList.filter (· ≠ "")).map fun address => (.otpVerifyIp, address)

inductive Phase (Digest : Type) where
  | limiting (request : Request) (budgets : List (LimitName × String))
  | superseding (phone : String) (ip userAgent : Option String) (now : Time)
      (progress : Progress Uuid)
  | inserting (phone code : String) (row : OtpChallenge Digest) (superseded : Time)
      (progress : Progress Uuid)
  | selected (challenge code phone : String) (row : OtpChallenge Digest)

inductive Answer where
  | limited (retryAfter : Nat)
  | result (result : OtpResult)
  deriving DecidableEq

/-- What was committed and answered, oldest first: a challenge with the row set
of the `UPDATE` that made room for it, and a verification with the challenge
it reached. -/
inductive Entry where
  | issued (id : Uuid) (phone code : String) (expiresAt : Time) (superseded : List Uuid)
  | verified (challenge code phone : String) (now : Time) (reached : Option Uuid)
      (answer : Answer)
  deriving DecidableEq

structure State (Digest : Type) where
  challenges : List (OtpChallenge Digest)
  locks : Locks Uuid TxId
  drawnIds : List Uuid
  txs : TxId → Option (Phase Digest)
  limiter : Store
  journal : List Entry

inductive Action where
  | receive (tx : TxId) (request : Request)
  | enforceBudget (tx : TxId) (nowMs : Nat)
  | startUpdate (tx : TxId) (now : Time)
  | reachRow (tx : TxId) (id : Uuid)
  | insertRow (tx : TxId) (id : Uuid) (code : String) (now : Time)
  | selectForUpdate (tx : TxId) (now : Time)
  | settle (tx : TxId) (now : Time)
  | commit (tx : TxId)
  | rollback (tx : TxId)

section Machine
variable {Digest : Type}

def initial : State Digest :=
  { challenges := [], locks := fun _ => none, drawnIds := [], txs := fun _ => none,
    limiter := emptyStore, journal := [] }

/-- The transaction ends: its locks go and nothing of it stays open. -/
def close (state : State Digest) (tx : TxId) : State Digest :=
  { state with locks := release state.locks tx, txs := assign state.txs tx none }

def receive (crypto : Crypto Digest) (state : State Digest) (tx : TxId) (request : Request) :
    Option (State Digest) :=
  if (state.txs tx).isSome then none
  else some { state with
    txs := assign state.txs tx (some (.limiting request (request.budgets crypto))) }

/-- What a refused request leaves in the journal. -/
def refusal (request : Request) (now : Time) (retryAfter : Nat) : List Entry :=
  match request with
  | .issue _ _ _ => []
  | .verify challenge code phone _ =>
      [.verified challenge code phone now none (.limited retryAfter)]

def enforceBudget (state : State Digest) (tx : TxId) (nowMs : Nat) : Option (State Digest) :=
  match state.txs tx with
  | some (.limiting request ((name, identity) :: rest)) =>
      match enforce state.limiter name identity nowMs with
      | (.ok _, limiter) =>
          some { state with
            limiter := limiter
            txs := assign state.txs tx (some (.limiting request rest)) }
      | (.error refused, limiter) =>
          some { close state tx with
            limiter := limiter
            journal := state.journal ++ refusal request (nowMs * 1000) refused.retryAfter }
  | _ => none

/-- The `UPDATE` that supersedes the outstanding challenges of the number. -/
def startUpdate [DecidableEq Digest] (crypto : Crypto Digest) (state : State Digest) (tx : TxId)
    (now : Time) : Option (State Digest) :=
  match state.txs tx with
  | some (.limiting (.issue phone ip userAgent) []) =>
      -- a challenge committed after this snapshot is not in the row set
      let outstanding := fun row : OtpChallenge Digest =>
        row.phoneHash == phoneFingerprint crypto phone && row.unconsumed
      some { state with
        txs := assign state.txs tx (some (.superseding phone ip userAgent now
          (start OtpChallenge.id outstanding state.challenges Progress.none))) }
  | _ => none

def reachRow (state : State Digest) (tx : TxId) (id : Uuid) : Option (State Digest) :=
  match state.txs tx with
  | some (.superseding phone ip userAgent now progress) =>
      if id ∈ progress.pending ∧ available state.locks id tx = true then
        some { state with
          locks := acquire state.locks id tx
          txs := assign state.txs tx (some (.superseding phone ip userAgent now
            (reach OtpChallenge.id OtpChallenge.unconsumed state.challenges id progress))) }
      else none
  | _ => none

/-- A challenge id is new whenever it is drawn. -/
def insertRow (crypto : Crypto Digest) (settings : Settings) (state : State Digest) (tx : TxId)
    (id : Uuid) (code : String) (now : Time) : Option (State Digest) :=
  match state.txs tx with
  | some (.superseding phone ip userAgent superseded progress) =>
      if progress.pending = [] ∧ id ∉ state.drawnIds then
        some { state with
          drawnIds := id :: state.drawnIds
          txs := assign state.txs tx (some (.inserting phone code
            (newChallenge crypto settings id phone code ip userAgent now) superseded progress)) }
      else none
  | _ => none

/-- A malformed id or an unknown challenge is answered at once; a known one is
read under its row lock. -/
def selectForUpdate [DecidableEq Digest] (crypto : Crypto Digest) (state : State Digest)
    (tx : TxId) (now : Time) : Option (State Digest) :=
  match state.txs tx with
  | some (.limiting (.verify challenge code phone _) []) =>
      let unknown := { close state tx with
        journal := state.journal ++
          [.verified challenge code phone now none (.result .invalid)] }
      match crypto.parseUuid challenge with
      | none => some unknown
      | some id =>
          match state.challenges.find? fun row =>
              row.id == id && row.phoneHash == phoneFingerprint crypto phone with
          | none => some unknown
          | some row =>
              if available state.locks row.id tx then
                some { state with
                  locks := acquire state.locks row.id tx
                  txs := assign state.txs tx (some (.selected challenge code phone row)) }
              else none
  | _ => none

/-- Every branch commits before it answers. -/
def settle [DecidableEq Digest] (crypto : Crypto Digest) (state : State Digest) (tx : TxId)
    (now : Time) : Option (State Digest) :=
  match state.txs tx with
  | some (.selected challenge code phone row) =>
      -- the attempt is burned before the code is looked at
      let branch := judge (burn row) now (row.codeHash == hashOtp crypto row.id code)
      some { close state tx with
        challenges := state.challenges.map fun other =>
          if other.id = row.id then branch.settles now (burn row) else other
        journal := state.journal ++
          [.verified challenge code phone now (some row.id) (.result branch.result)] }
  | _ => none

def commit (state : State Digest) (tx : TxId) : Option (State Digest) :=
  match state.txs tx with
  | some (.inserting phone code row superseded progress) =>
      some { close state tx with
        challenges :=
          written OtpChallenge.id (consume superseded) progress state.challenges ++ [row]
        journal := state.journal ++ [.issued row.id phone code row.expiresAt progress.seen] }
  | _ => none

def step [DecidableEq Digest] (crypto : Crypto Digest) (settings : Settings)
    (state : State Digest) : Action → Option (State Digest)
  | .receive tx request => receive crypto state tx request
  | .enforceBudget tx nowMs => enforceBudget state tx nowMs
  | .startUpdate tx now => startUpdate crypto state tx now
  | .reachRow tx id => reachRow state tx id
  | .insertRow tx id code now => insertRow crypto settings state tx id code now
  | .selectForUpdate tx now => selectForUpdate crypto state tx now
  | .settle tx now => settle crypto state tx now
  | .commit tx => commit state tx
  | .rollback tx => if (state.txs tx).isSome then some (close state tx) else none

end Machine

end RunnerupChat.OtpStore
