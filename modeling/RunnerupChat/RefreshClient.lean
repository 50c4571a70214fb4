import RunnerupChat.SessionTurns

/-!
`refresh` and `api` of `lib/api.ts` in one page, against `rotate_session`. A
promise is an index into the list of those made so far. Each response reaches
the client, at any later time; the page alone holds tokens of its family. What
the route does after the commit of an exchange may raise.
-/

namespace RunnerupChat.RefreshClient

open Accounts Runs SessionStore
open UniqueKeys (assign assign_same assign_other)

/-- `SessionOut`, where a reply can be read as one. -/
structure Session where
  accessToken : String
  expiresIn : Nat

/-- Where a `POST /auth/refresh` stands: on its way, in the transaction that
runs `rotate_session`, behind the commit of an exchange, answered, with the
cookie of a success, or answered with 500. -/
inductive Progress (Token : Type) where
  | sent
  | running (tx : TxId) (minted : Option Token)
  | committed (minted : Token)
  | answered (cookie : Option Token)
  | raised

structure Request (Token : Type) where
  token : Option Token
  promise : Nat
  progress : Progress Token

inductive Stage where
  /-- In `await refresh()`, early or after a 401. -/
  | awaiting (promise : Nat) (early : Bool)
  | requesting
  | returned
  | threw
  deriving DecidableEq

/-- A call of `api`. -/
structure ApiCall where
  retryOnAuthFailure : Bool
  stage : Stage

/-- What decides about refreshing. -/
structure Wire (Token Digest : Type) where
  server : SessionStore.State Token Digest
  cookie : Option Token
  requests : List (Request Token) := []
  refreshInFlight : Option Nat := none

structure World (Token Digest : Type) extends Wire Token Digest where
  accessToken : Option String := none
  /-- In milliseconds, as `now`. -/
  expiresAt : Nat := 0
  promises : List (Option Bool) := []
  calls : List ApiCall := []

inductive Action (Token : Type) where
  | api (retryOnAuthFailure : Bool) (now : Nat) (csrfThrows : Bool)
  /-- `auth.restore` -/
  | restore (csrfThrows : Bool)
  /-- A call goes on once the promise that it awaits is settled. -/
  | resume (index now : Nat) (csrfThrows : Bool)
  /-- The answer to a call; `fetch` throws without a status. -/
  | respond (index : Nat) (status : Option Nat) (csrfThrows : Bool)
  | receive (index : Nat) (tx : TxId)
  /-- The route refuses before `rotate_session`: no cookie, the CSRF check or
  the rate limit. -/
  | refuse (index : Nat)
  | serve (action : SessionStore.Action Token)
  /-- The route after the commit of an exchange: the commit may be reported as
  failed, and `mark_revoked_in_cache` may raise. -/
  | finish (index : Nat) (raises : Bool)
  /-- The response to a refresh; a refusal may delete the cookie. -/
  | deliver (index now : Nat) (session : Option Session) (deleted : Bool)

section Client
variable {Token Digest : Type}

namespace World

def setSession (world : World Token Digest) (session : Session) (now : Nat) : World Token Digest :=
  { world with
    accessToken := some session.accessToken
    expiresAt := now + session.expiresIn * 1000 }

def clearSession (world : World Token Digest) : World Token Digest :=
  { world with accessToken := none, expiresAt := 0 }

/-- `refresh`, and the promise that it returns. -/
def refresh (world : World Token Digest) (csrfThrows : Bool) : Nat × World Token Digest :=
  match world.refreshInFlight with
  -- concurrent calls share the request that is in flight
  | some promise => (promise, world)
  | none =>
      let promise := world.promises.length
      if csrfThrows then
        -- the block has run to its end when its promise is assigned
        (promise, { world.clearSession with
          promises := world.promises ++ [some false]
          refreshInFlight := some promise })
      else
        (promise, { world with
          promises := world.promises ++ [none]
          requests := world.requests ++ [⟨world.cookie, promise, .sent⟩]
          refreshInFlight := some promise })

/-- The beginning of `api`, up to its first `await`. -/
def start (world : World Token Digest) (now : Nat) (csrfThrows : Bool) :
    Stage × World Token Digest :=
  if world.accessToken.isSome ∧ world.expiresAt < now + 30000 then
    let (promise, world) := world.refresh csrfThrows
    (.awaiting promise true, world)
  else (.requesting, world)

def put (world : World Token Digest) (index : Nat) (call : ApiCall) : World Token Digest :=
  { world with calls := world.calls.set index call }

def api (world : World Token Digest) (retryOnAuthFailure : Bool) (now : Nat) (csrfThrows : Bool) :
    World Token Digest :=
  let (stage, world) := world.start now csrfThrows
  { world with calls := world.calls ++ [⟨retryOnAuthFailure, stage⟩] }

def resume (world : World Token Digest) (index now : Nat) (csrfThrows : Bool) :
    Option (World Token Digest) :=
  match world.calls[index]? with
  | some ⟨retryOnAuthFailure, .awaiting promise early⟩ =>
      match world.promises[promise]? with
      | some (some ok) =>
          if early then some (world.put index ⟨retryOnAuthFailure, .requesting⟩)
          else if ok then
            let (stage, world) := world.start now csrfThrows
            some (world.put index ⟨false, stage⟩)
          else some (world.put index ⟨retryOnAuthFailure, .threw⟩)
      | _ => none
  | _ => none

def respond (world : World Token Digest) (index : Nat) (status : Option Nat) (csrfThrows : Bool) :
    Option (World Token Digest) :=
  match world.calls[index]? with
  | some ⟨retryOnAuthFailure, .requesting⟩ =>
      if status = some 401 ∧ retryOnAuthFailure = true then
        let (promise, world) := world.refresh csrfThrows
        some (world.put index ⟨retryOnAuthFailure, .awaiting promise false⟩)
      else if status.any fun code => decide (200 ≤ code ∧ code < 300) then
        some (world.put index ⟨retryOnAuthFailure, .returned⟩)
      else some (world.put index ⟨retryOnAuthFailure, .threw⟩)
  | _ => none

def advance (world : World Token Digest) (index : Nat) (request : Request Token)
    (progress : Progress Token) : World Token Digest :=
  { world with requests := world.requests.set index { request with progress := progress } }

def refuse (world : World Token Digest) (index : Nat) : Option (World Token Digest) :=
  match world.requests[index]? with
  | some ⟨token, promise, .sent⟩ =>
      some (world.advance index ⟨token, promise, .sent⟩ (.answered none))
  | _ => none

def finish (world : World Token Digest) (index : Nat) (raises : Bool) :
    Option (World Token Digest) :=
  match world.requests[index]? with
  | some ⟨token, promise, .committed minted⟩ =>
      -- a 500 sets no cookie
      let progress := if raises then .raised else .answered (some minted)
      some (world.advance index ⟨token, promise, .committed minted⟩ progress)
  | _ => none

/-- The block of `refresh` after its `fetch`. -/
def deliver (world : World Token Digest) (index now : Nat) (session : Option Session)
    (deleted : Bool) : Option (World Token Digest) :=
  match world.requests[index]? with
  | some ⟨_, promise, .answered cookie⟩ =>
      let ok := cookie.isSome && session.isSome
      let world := match cookie, session with
        | some _, some session => world.setSession session now
        | _, _ => world.clearSession
      some { world with
        cookie := match cookie with
          | some fresh => some fresh
          | none => if deleted then none else world.cookie
        requests := world.requests.eraseIdx index
        promises := world.promises.set promise (some ok)
        refreshInFlight := none }
  | some ⟨_, promise, .raised⟩ =>
      some { world.clearSession with
        requests := world.requests.eraseIdx index
        promises := world.promises.set promise (some false)
        refreshInFlight := none }
  | _ => none

end World

section Server
variable [DecidableEq Token] [DecidableEq Digest] (sha256 : Token → Digest) (family : Uuid)

/-- The request presents its cookie. An unknown token is answered at once. -/
def receive (world : World Token Digest) (index : Nat) (tx : TxId) :
    Option (World Token Digest) :=
  match world.requests[index]? with
  | some ⟨some token, promise, .sent⟩ =>
      (SessionStore.step sha256 world.server (.selectForUpdate tx token)).map fun server =>
        let progress := if (server.txs tx).isSome then .running tx none else .answered none
        { world.advance index ⟨some token, promise, .sent⟩ progress with server := server }
  | _ => none

/-- Where the request stands after a step of its transaction. -/
def follow (server : SessionStore.State Token Digest) (action : SessionStore.Action Token)
    (request : Request Token) : Request Token :=
  match request.progress, action with
  | .running tx minted, .decide other _ _ token =>
      if other = tx then
        { request with progress := match server.txs tx with
            | some (.rotating _ _ _ _ _) => .running tx (some token)
            | some _ => .running tx minted
            | none => .answered none }
      else request
  | .running tx minted, .commit other =>
      if other = tx then { request with progress := match minted with
          | some fresh => .committed fresh
          | none => .answered none }
      else request
  | .running tx _, .rollback other =>
      if other = tx then { request with progress := .answered none } else request
  | _, _ => request

/-- A token of the family is presented by nobody else. -/
def isForeign (server : SessionStore.State Token Digest) : SessionStore.Action Token → Bool
  | .selectForUpdate _ token =>
      !server.sessions.any fun row => row.refreshHash == sha256 token && row.familyId == family
  | _ => true

def serve (world : World Token Digest) (action : SessionStore.Action Token) :
    Option (World Token Digest) :=
  if isForeign sha256 family world.server action then
    (SessionStore.step sha256 world.server action).map fun server =>
      { world with
        server := server
        requests := world.requests.map (follow server action) }
  else none

def step (world : World Token Digest) : Action Token → Option (World Token Digest)
  | .api retryOnAuthFailure now csrfThrows => some (world.api retryOnAuthFailure now csrfThrows)
  | .restore csrfThrows => some (world.refresh csrfThrows).2
  | .resume index now csrfThrows => world.resume index now csrfThrows
  | .respond index status csrfThrows => world.respond index status csrfThrows
  | .receive index tx => receive sha256 world index tx
  | .refuse index => world.refuse index
  | .serve action => serve sha256 family world action
  | .finish index raises => world.finish index raises
  | .deliver index now session deleted => world.deliver index now session deleted

end Server

end Client

end RunnerupChat.RefreshClient
