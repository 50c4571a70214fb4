import RunnerupChat.SessionTurns
import RunnerupChat.WaitCircles
import Mathlib.Data.Fintype.EquivFin

/-!
Which calls on the sessions wait for one another in a circle. A refresh locks
its session before it writes the device; the sign-out of a device writes the
device before it revokes the sessions; a revocation locks rows in an order
that nothing fixes.
-/

namespace RunnerupChat.SessionStore

open Accounts SnapshotUpdate UniqueKeys WaitCircles

variable {Token Digest : Type}

/-- The open transaction whose next statement, or commit, it is. -/
def Action.statement : Action Token → Option TxId
  | .decide tx _ _ _ | .touchDevice tx | .readSessions tx | .startUpdate tx _ | .reachRow tx _
  | .commit tx => some tx
  | _ => none

section Steps
variable {sha256 : Token → Digest} {state next : State Token Digest} {action : Action Token}

variable [DecidableEq Token] [DecidableEq Digest]

end Steps

section Circles
variable {state : State Token Digest} {tx holder : TxId} {members : Set TxId}

end Circles

end RunnerupChat.SessionStore
