import Mathlib.Data.List.Basic

/-!
Accounts and the errors requests are refused with, from `db/models.py` and
`core/errors.py`. Ids stand for UUIDs, times are microseconds.
-/

namespace RunnerupChat.Accounts

abbrev Uuid := Nat
/-- A database transaction. -/
abbrev TxId := Nat
/-- Microseconds. -/
abbrev Time := Nat

def second : Time := 1000000

/-- A `SMALLINT` column takes no more. -/
def smallintMax : Nat := 32767

/-- An `INTEGER` column takes no more. -/
def integerMax : Nat := 2147483647

inductive SystemRole where
  | user | moderator | admin | superAdmin
  deriving DecidableEq

inductive AccountState where
  | active | restricted | suspended | deleted
  deriving DecidableEq

/-- The phone number is kept as a keyed digest and as its last digits. -/
structure User (Digest : Type) where
  id : Uuid
  phoneHash : Digest
  phoneLast4 : String
  phoneCountry : String
  displayName : String
  systemRole : SystemRole
  accountState : AccountState
  deletedAt : Option Time
  deriving DecidableEq

def User.isUsable {Digest : Type} (user : User Digest) : Bool :=
  user.accountState == .active && user.deletedAt.isNone

inductive Permission where
  | sendMessage | readMessages | editOwnMessage | deleteOwnMessage | deleteAnyMessage
  | pinMessage | addMember | removeMember | banMember | manageConversation | manageInvites
  | manageRoles | transferOwnership | viewReports | moderateContent | manageUsers | manageSystem
  deriving DecidableEq

inductive AppError where
  | notAuthenticated (detail : String)
  | permissionDenied (detail : String)
  | notVisible (detail : String)
  | validationFailed (detail : String)
  | rateLimited (retryAfter : Nat)
  | accountUnavailable (detail : String)
  deriving DecidableEq

end RunnerupChat.Accounts
