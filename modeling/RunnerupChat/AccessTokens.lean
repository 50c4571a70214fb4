import RunnerupChat.Accounts
import RunnerupChat.MessageStore
import RunnerupChat.Runs
import RunnerupChat.SessionStore

/-!
Access tokens and the revocation cache: `core/security.py`, `api/deps.py` and
the session calls of `services/sessions.py`, each running to its end. Time
passes between the calls and, in the pauses, between the steps of a call. The
JWT library is a parameter.
-/

namespace RunnerupChat.AccessTokens

open Accounts SessionStore
open MessageStore (strip)

structure Settings where
  accessTokenTtlSeconds : Nat
  refreshTokenTtlSeconds : Nat

structure Claims where
  sub : Uuid
  sid : Uuid
  did : Uuid
  role : SystemRole
  iat : Nat
  exp : Nat
  iss : String
  typ : String
  deriving DecidableEq

def mintAccessToken (settings : Settings) (now : Time) (user session device : Uuid)
    (role : SystemRole) : Claims :=
  { sub := user, sid := session, did := device, role := role, iat := now / second,
    exp := (now + settings.accessTokenTtlSeconds * second) / second,
    iss := "chat-api", typ := "access" }

/-- `jwt.encode` and `jwt.decode` with the signing key, the algorithm and the
issuer of the service; decoding is given the current second. -/
structure Jwt where
  encode : Claims → String
  decode : String → Nat → Option Claims

/-- An encoded token decodes to its own claims, and not after its expiry. -/
structure Jwt.Faithful (jwt : Jwt) : Prop where
  sound : ∀ claims now found, jwt.decode (jwt.encode claims) now = some found →
    found = claims ∧ now ≤ claims.exp

inductive InvalidToken where
  | jwtError | wrongTokenType

def decodeAccessToken (jwt : Jwt) (token : String) (now : Time) : Except InvalidToken Claims :=
  match jwt.decode token (now / second) with
  | none => .error .jwtError
  | some claims => if claims.typ = "access" then .ok claims else .error .wrongTokenType

/-- The token of an `Authorization: Bearer` header. -/
def bearerToken (authorization : String) : Option String :=
  let text := authorization.toList
  if (text.take 7).map Char.toLower = "bearer ".toList then
    some (strip (String.ofList ((text.dropWhile (· ≠ ' ')).drop 1)))
  else none

/-- The rows, the Redis keys with the time each one ends, and every access
token minted so far. -/
structure World (Digest : Type) where
  sessions : List (UserSession Digest)
  devices : List UserDevice
  users : List (User Digest)
  cache : String → Option Time
  minted : List Claims
  clock : Time

structure Principal (Digest : Type) where
  user : User Digest
  sessionId : Uuid
  deviceId : Uuid

section Calls
variable {Token Digest : Type}

def emptyWorld : World Digest :=
  { sessions := [], devices := [], users := [], cache := fun _ => none, minted := [], clock := 0 }

def revokedSessionKey (session : Uuid) : String := "revoked:" ++ toString session

def isSessionRevoked (world : World Digest) (session : Uuid) : Bool :=
  match world.cache (revokedSessionKey session) with
  | none => false
  | some ends => world.clock < ends

def currentPrincipal (jwt : Jwt) (world : World Digest) (authorization : Option String) :
    Except AppError (Principal Digest) :=
  match authorization.bind bearerToken with
  | none => .error (.notAuthenticated "not_authenticated")
  | some token =>
      match decodeAccessToken jwt token world.clock with
      | .error _ => .error (.notAuthenticated "not_authenticated")
      | .ok claims =>
          -- Redis is asked before the user row is read
          if isSessionRevoked world claims.sid then .error (.notAuthenticated "not_authenticated")
          else match world.users.find? fun user => user.id == claims.sub with
            | none => .error (.notAuthenticated "not_authenticated")
            | some user =>
                if user.deletedAt.isSome then .error (.notAuthenticated "not_authenticated")
                else if user.accountState == .suspended || user.accountState == .deleted then
                  .error (.accountUnavailable "account_unavailable")
                else .ok ⟨user, claims.sid, claims.did⟩

/-- How long a call takes between its steps, and before it marks a session. -/
structure Pauses where
  first : Nat
  second : Nat
  third : Nat
  mark : Uuid → Nat

def wait (world : World Digest) (pause : Nat) : World Digest :=
  { world with clock := world.clock + pause }

def markRevokedInCache (settings : Settings) (world : World Digest) (session : Uuid) :
    World Digest :=
  { world with
    cache := fun key =>
      if key = revokedSessionKey session then
        some (world.clock + (settings.accessTokenTtlSeconds + 60) * second)
      else world.cache key }

def markAll (settings : Settings) (pause : Uuid → Nat) : List Uuid → World Digest → World Digest
  | [], world => world
  | session :: rest, world =>
      markAll settings pause rest
        (markRevokedInCache settings (wait world (pause session)) session)

/-- One revoking `UPDATE ... RETURNING id`, then the cache entry of every row
it returned. -/
def revokeWhere (settings : Settings) (pause : Uuid → Nat) (target : Target) (reason : String)
    (world : World Digest) : World Digest :=
  markAll settings pause ((world.sessions.filter target.selects).map UserSession.id)
    { world with
      sessions := world.sessions.map fun row =>
        if target.selects row then revoke world.clock reason row else row }

def createSession (sha256 : Token → Digest) (settings : Settings) (pauses : Pauses)
    (world : World Digest) (user : User Digest) (existing : Option Uuid)
    (id device family : Uuid) (token : Token) : Claims × World Digest :=
  let world := wait world pauses.first
  let found := existingDevice world.devices user.id existing
  let bound := match found with
    | some row => row.id
    | none => device
  let session := newSession id user.id bound family (sha256 token)
    (world.clock + settings.refreshTokenTtlSeconds * second)
  let world := wait world pauses.second
  let access := mintAccessToken settings world.clock user.id id bound user.systemRole
  let committed := { world with
    sessions := world.sessions ++ [session]
    devices := if found.isNone then world.devices ++ [⟨device, user.id, none⟩] else world.devices
    minted := access :: world.minted }
  (access, wait committed pauses.third)

def rotateSession [DecidableEq Digest] (sha256 : Token → Digest) (settings : Settings)
    (pauses : Pauses) (world : World Digest) (presented : Token) (nextId : Uuid)
    (nextToken : Token) : Except RefreshRejected Claims × World Digest :=
  let world := wait world pauses.first
  match world.sessions.find? fun row => row.refreshHash == sha256 presented with
  | none => (.error .unknownToken, world)
  | some row =>
      let user := world.users.find? fun user => user.id == row.userId
      match judge row world.clock (user.any User.isUsable), user with
      | .reuse, _ =>
          (.error .reuseDetected,
            revokeWhere settings pauses.mark (.family row.familyId) "refresh_reuse_detected"
              (wait world pauses.second))
      | .rejected answer, _ => (.error answer, world)
      | .exchange, none => (.error .accountUnavailable, world)
      | .exchange, some user =>
          -- `rotated_at` is the time of the checks, the mark comes after the commit
          let spent := world.sessions.map fun other =>
            if other.id = row.id then spend world.clock other else other
          let world := wait world pauses.second
          let access :=
            mintAccessToken settings world.clock user.id nextId row.deviceId user.systemRole
          let committed := { world with
            sessions := spent ++ [successor row nextId (sha256 nextToken)]
            minted := access :: world.minted }
          (.ok access, markRevokedInCache settings (wait committed pauses.third) row.id)

def revokeSession (settings : Settings) (pauses : Pauses) (world : World Digest)
    (session user : Uuid) (reason : String) : Bool × World Digest :=
  let world := wait world pauses.first
  match world.sessions.find? fun row => row.id == session && row.userId == user with
  | none => (false, world)
  | some row =>
      (true, revokeWhere settings pauses.mark (.family row.familyId) reason
        (wait world pauses.second))

def revokeAllForUser (settings : Settings) (pauses : Pauses) (world : World Digest)
    (user : Uuid) (reason : String) (exceptSession : Option Uuid) : Nat × World Digest :=
  let world := wait world pauses.first
  let target := Target.user user exceptSession
  ((world.sessions.filter target.selects).length,
    revokeWhere settings pauses.mark target reason world)

def leaveDevice (world : World Digest) (device : Uuid) : World Digest :=
  { world with
    devices := world.devices.map fun row =>
      if row.id = device then { row with revokedAt := some world.clock } else row }

/-- The device is signed out, then the family of every session found on it. -/
def revokeDevice (settings : Settings) (pauses : Pauses) (world : World Digest)
    (device user : Uuid) : World Digest :=
  let world := wait world pauses.first
  match world.devices.find? fun row => row.id == device && row.userId == user with
  | none => world
  | some _ =>
      let found := world.sessions.filter fun row => row.deviceId == device && row.unrevoked
      found.foldl
        (fun world row => revokeWhere settings pauses.mark (.family row.familyId) "device_revoked"
          (wait world pauses.second))
        (leaveDevice world device)

inductive Call (Token Digest : Type) where
  | wait (pause : Nat)
  | setUsers (users : List (User Digest))
  | createSession (pauses : Pauses) (user : User Digest) (existing : Option Uuid)
      (id device family : Uuid) (token : Token)
  | rotateSession (pauses : Pauses) (presented : Token) (nextId : Uuid) (nextToken : Token)
  | revokeSession (pauses : Pauses) (session user : Uuid) (reason : String)
  | revokeAllForUser (pauses : Pauses) (user : Uuid) (reason : String)
      (exceptSession : Option Uuid)
  | revokeDevice (pauses : Pauses) (device user : Uuid)

/-- A new session id is not in use: it is the primary key of the row. -/
def step [DecidableEq Digest] (sha256 : Token → Digest) (settings : Settings)
    (world : World Digest) : Call Token Digest → Option (World Digest)
  | .wait pause => some (wait world pause)
  | .setUsers users => some { world with users := users }
  | .createSession pauses user existing id device family token =>
      if id ∈ world.sessions.map UserSession.id then none
      else some (createSession sha256 settings pauses world user existing id device family token).2
  | .rotateSession pauses presented nextId nextToken =>
      if nextId ∈ world.sessions.map UserSession.id then none
      else some (rotateSession sha256 settings pauses world presented nextId nextToken).2
  | .revokeSession pauses session user reason =>
      some (revokeSession settings pauses world session user reason).2
  | .revokeAllForUser pauses user reason exceptSession =>
      some (revokeAllForUser settings pauses world user reason exceptSession).2
  | .revokeDevice pauses device user => some (revokeDevice settings pauses world device user)

end Calls

/-! Every minted token of a spent or revoked session is outlived by a cache
entry, except for sessions still to be marked. -/

section Cover
variable {Token Digest : Type} {settings : Settings} {world : World Digest}

def Outlives (cache : String → Option Time) (claims : Claims) : Prop :=
  ∃ ends, cache (revokedSessionKey claims.sid) = some ends ∧ (claims.exp + 1) * second ≤ ends

/-- No token is minted with a longer life than one from now on would have. -/
def Bounded (settings : Settings) (world : World Digest) : Prop :=
  ∀ claims ∈ world.minted,
    claims.exp ≤ (world.clock + settings.accessTokenTtlSeconds * second) / second

structure Covered (settings : Settings) (pending : List Uuid) (world : World Digest) : Prop where
  bounded : Bounded settings world
  known : ∀ claims ∈ world.minted, ∃ row ∈ world.sessions, row.id = claims.sid
  cached : ∀ row ∈ world.sessions, row.live = false → ∀ claims ∈ world.minted,
    claims.sid = row.id → claims.sid ∈ pending ∨ Outlives world.cache claims

theorem empty_covered : Covered settings [] (emptyWorld : World Digest) where
  bounded := by simp [Bounded, emptyWorld]
  known := by simp [emptyWorld]
  cached := by simp [emptyWorld]

theorem wait_covered {pending : List Uuid} (covered : Covered settings pending world)
    (pause : Nat) : Covered settings pending (wait world pause) where
  bounded := by
    intro claims member
    apply Nat.le_trans (covered.bounded claims member)
    apply Nat.div_le_div_right
    simp only [wait]
    omega
  known := covered.known
  cached := covered.cached

/-- A fresh entry outlives every token minted so far, whatever the key. -/
theorem mark_outlives (bounded : Bounded settings world) (session : Uuid) {claims : Claims}
    (member : claims ∈ world.minted)
    (before : claims.sid = session ∨ Outlives world.cache claims) :
    Outlives (markRevokedInCache settings world session).cache claims := by
  have bound := bounded claims member
  have fits : (claims.exp + 1) * second ≤
      world.clock + (settings.accessTokenTtlSeconds + 60) * second := by
    simp only [second] at bound ⊢
    omega
  unfold Outlives markRevokedInCache
  by_cases same : revokedSessionKey claims.sid = revokedSessionKey session
  · exact ⟨_, if_pos same, fits⟩
  · rcases before with rfl | ⟨ends, found, outlives⟩
    · exact absurd rfl same
    · exact ⟨ends, by simp [same, found], outlives⟩

theorem mark_covered {session : Uuid} {pending : List Uuid}
    (covered : Covered settings (session :: pending) world) :
    Covered settings pending (markRevokedInCache settings world session) where
  bounded := covered.bounded
  known := covered.known
  cached := by
    intro row member dead claims minted same
    rcases covered.cached row member dead claims minted same with waiting | outlives
    · rcases List.mem_cons.mp waiting with here | later
      · exact Or.inr (mark_outlives covered.bounded session minted (Or.inl here))
      · exact Or.inl later
    · exact Or.inr (mark_outlives covered.bounded session minted (Or.inr outlives))

theorem mark_all_covered (pause : Uuid → Nat) (pending : List Uuid)
    (covered : Covered settings pending world) :
    Covered settings [] (markAll settings pause pending world) := by
  induction pending generalizing world with
  | nil => exact covered
  | cons session rest ih => exact ih (mark_covered (wait_covered covered (pause session)))

/-- The rows an `UPDATE` revokes are the ones it returns to be marked. -/
theorem revoke_where_covered (pause : Uuid → Nat) (target : Target) (reason : String)
    (covered : Covered settings [] world) :
    Covered settings [] (revokeWhere settings pause target reason world) := by
  apply mark_all_covered
  constructor
  · exact covered.bounded
  · intro claims minted
    obtain ⟨row, member, same⟩ := covered.known claims minted
    refine ⟨_, List.mem_map_of_mem member, ?_⟩
    split
    · exact same
    · exact same
  · intro row member dead claims minted same
    obtain ⟨before, old, rfl⟩ := List.mem_map.mp member
    by_cases selected : target.selects before = true
    · rw [if_pos selected] at same
      exact Or.inl (List.mem_map.mpr ⟨before, List.mem_filter.mpr ⟨old, selected⟩, same.symm⟩)
    · rw [if_neg selected] at dead same
      exact Or.inr ((covered.cached before old dead claims minted same).resolve_left (by simp))

/-- A live session is inserted with its token, while the sessions in `pending`
are spent. -/
theorem issue_covered (covered : Covered settings [] world) {pending : List Uuid}
    {change : UserSession Digest → UserSession Digest} {new : UserSession Digest} {claims : Claims}
    (ids : ∀ row, (change row).id = row.id)
    (spent : ∀ row, (change row).live = false → row.live = false ∨ row.id ∈ pending)
    (live : new.live = true) (unused : new.id ∉ world.sessions.map UserSession.id)
    (own : claims.sid = new.id)
    (bound : claims.exp ≤ (world.clock + settings.accessTokenTtlSeconds * second) / second) :
    Covered settings pending
      { world with
        sessions := world.sessions.map change ++ [new]
        minted := claims :: world.minted } where
  bounded := by
    intro other member
    rcases List.mem_cons.mp member with rfl | old
    · exact bound
    · exact covered.bounded other old
  known := by
    intro other member
    rcases List.mem_cons.mp member with rfl | old
    · exact ⟨new, by simp, own.symm⟩
    · obtain ⟨row, found, same⟩ := covered.known other old
      exact ⟨change row, by simp [List.mem_map_of_mem found], (ids row).trans same⟩
  cached := by
    intro row member dead other minted same
    rcases List.mem_append.mp member with rewritten | added
    · obtain ⟨before, old, rfl⟩ := List.mem_map.mp rewritten
      rw [ids] at same
      rcases List.mem_cons.mp minted with rfl | earlier
      · exact absurd (List.mem_map.mpr ⟨before, old, same.symm.trans own⟩) unused
      · rcases spent before dead with ended | waiting
        · exact Or.inr ((covered.cached before old ended other earlier same).resolve_left (by simp))
        · exact Or.inl (same ▸ waiting)
    · rw [List.mem_singleton.mp added, live] at dead
      cases dead

theorem create_covered (sha256 : Token → Digest) (pauses : Pauses) (user : User Digest)
    (existing : Option Uuid) (id device family : Uuid) (token : Token)
    (covered : Covered settings [] world) (unused : id ∉ world.sessions.map UserSession.id) :
    Covered settings []
      (createSession sha256 settings pauses world user existing id device family token).2 := by
  apply wait_covered
  let before := wait (wait world pauses.first) pauses.second
  let bound := match existingDevice world.devices user.id existing with
    | some row => row.id
    | none => device
  let new := newSession id user.id bound family (sha256 token)
    (world.clock + pauses.first + settings.refreshTokenTtlSeconds * second)
  let access := mintAccessToken settings before.clock user.id id bound user.systemRole
  have issued : Covered settings [] { before with
      sessions := before.sessions.map (fun row => row) ++ [new]
      minted := access :: before.minted } :=
    issue_covered (wait_covered (wait_covered covered _) _) (fun _ => rfl)
      (fun _ dead => Or.inl dead) rfl unused rfl (Nat.le_refl _)
  simp only [List.map_id'] at issued
  exact ⟨issued.bounded, issued.known, issued.cached⟩

theorem rotate_covered [DecidableEq Digest] (sha256 : Token → Digest) (pauses : Pauses)
    (presented : Token) (nextId : Uuid) (nextToken : Token) (covered : Covered settings [] world)
    (unused : nextId ∉ world.sessions.map UserSession.id) :
    Covered settings []
      (rotateSession sha256 settings pauses world presented nextId nextToken).2 := by
  have waited := wait_covered covered pauses.first
  unfold rotateSession
  simp only
  split
  · exact waited
  · rename_i row found
    split
    · exact revoke_where_covered _ _ _ (wait_covered waited pauses.second)
    · exact waited
    · exact waited
    · apply mark_covered
      apply wait_covered
      apply issue_covered (wait_covered waited pauses.second)
      · intro other
        split <;> rfl
      · intro other dead
        by_cases same : other.id = row.id
        · exact Or.inr (by simp [same])
        · rw [if_neg same] at dead
          exact Or.inl dead
      · rfl
      · exact unused
      · rfl
      · exact Nat.le_refl _

theorem revoke_session_covered (pauses : Pauses) (session user : Uuid) (reason : String)
    (covered : Covered settings [] world) :
    Covered settings [] (revokeSession settings pauses world session user reason).2 := by
  have waited := wait_covered covered pauses.first
  unfold revokeSession
  simp only
  split
  · exact waited
  · exact revoke_where_covered _ _ _ (wait_covered waited pauses.second)

theorem revoke_device_covered (pauses : Pauses) (device user : Uuid)
    (covered : Covered settings [] world) :
    Covered settings [] (revokeDevice settings pauses world device user) := by
  have waited := wait_covered covered pauses.first
  unfold revokeDevice
  simp only
  split
  · exact waited
  · -- the loop over the sessions found keeps the invariant, whatever they are
    have loop : ∀ (found : List (UserSession Digest)) (state : World Digest),
        Covered settings [] state →
        Covered settings [] (found.foldl (fun world row =>
          revokeWhere settings pauses.mark (.family row.familyId) "device_revoked"
            (wait world pauses.second)) state) := by
      intro found
      induction found with
      | nil => exact fun _ kept => kept
      | cons row rest ih =>
          intro state kept
          exact ih _ (revoke_where_covered _ _ _ (wait_covered kept pauses.second))
    exact loop _ _ ⟨waited.bounded, waited.known, waited.cached⟩

theorem step_covered [DecidableEq Digest] (sha256 : Token → Digest) (settings : Settings)
    (world : World Digest) (call : Call Token Digest) (next : World Digest)
    (covered : Covered settings [] world) (taken : step sha256 settings world call = some next) :
    Covered settings [] next := by
  cases call with
  | wait pause =>
      cases taken
      exact wait_covered covered pause
  | setUsers users =>
      cases taken
      exact ⟨covered.bounded, covered.known, covered.cached⟩
  | createSession pauses user existing id device family token =>
      simp only [step] at taken
      split at taken
      · cases taken
      · rename_i unused
        cases taken
        exact create_covered sha256 pauses user existing id device family token covered unused
  | rotateSession pauses presented nextId nextToken =>
      simp only [step] at taken
      split at taken
      · cases taken
      · rename_i unused
        cases taken
        exact rotate_covered sha256 pauses presented nextId nextToken covered unused
  | revokeSession pauses session user reason =>
      cases taken
      exact revoke_session_covered pauses session user reason covered
  | revokeAllForUser pauses user reason exceptSession =>
      cases taken
      exact revoke_where_covered _ _ _ (wait_covered covered pauses.first)
  | revokeDevice pauses device user =>
      cases taken
      exact revoke_device_covered pauses device user covered

end Cover

section Authentication
variable {Token Digest : Type}

theorem outlived_revoked {world : World Digest} {claims : Claims}
    (outlives : Outlives world.cache claims) :
    claims.exp < world.clock / second ∨ isSessionRevoked world claims.sid = true := by
  obtain ⟨ends, found, long⟩ := outlives
  by_cases expired : claims.exp < world.clock / second
  · exact Or.inl expired
  · right
    have current : world.clock / second < claims.exp + 1 :=
      Nat.lt_succ_of_le (Nat.le_of_not_lt expired)
    have early : world.clock < ends :=
      Nat.lt_of_lt_of_le ((Nat.div_lt_iff_lt_mul (by decide)).mp current) long
    simp [isSessionRevoked, found, early]

/-- Neither an expired token nor one of a session in the cache gets through. -/
theorem principal_rejected {jwt : Jwt} (faithful : jwt.Faithful) {world : World Digest}
    {claims : Claims} (ended : claims.exp < world.clock / second ∨
      isSessionRevoked world claims.sid = true)
    {authorization : Option String}
    (presented : authorization.bind bearerToken = some (jwt.encode claims)) :
    currentPrincipal jwt world authorization = .error (.notAuthenticated "not_authenticated") := by
  unfold currentPrincipal
  rw [presented]
  simp only [decodeAccessToken]
  cases decoded : jwt.decode (jwt.encode claims) (world.clock / second) with
  | none => rfl
  | some found =>
      obtain ⟨rfl, current⟩ := faithful.sound claims _ found decoded
      have revoked : isSessionRevoked world found.sid = true := by
        rcases ended with expired | revoked
        · omega
        · exact revoked
      by_cases access : found.typ = "access"
      · simp [access, revoked]
      · simp [access]

/-- At no time does a token of a spent or revoked session authenticate. -/
theorem ended_session_rejected [DecidableEq Digest] (jwt : Jwt) (faithful : jwt.Faithful)
    (sha256 : Token → Digest) (settings : Settings) (calls : List (Call Token Digest))
    (world : World Digest)
    (ran : Runs.run (step sha256 settings) emptyWorld calls = some world) :
    ∀ row ∈ world.sessions, row.rotatedAt.isSome = true ∨ row.revokedAt.isSome = true →
      ∀ claims ∈ world.minted, claims.sid = row.id →
        (claims.exp < world.clock / second ∨ isSessionRevoked world claims.sid = true) ∧
        ∀ authorization : Option String,
          authorization.bind bearerToken = some (jwt.encode claims) →
          currentPrincipal jwt world authorization =
            .error (.notAuthenticated "not_authenticated") := by
  intro row member ended claims minted same
  have covered := Runs.run_invariant (Covered settings [])
    (step_covered sha256 settings) ran empty_covered
  have dead : row.live = false := by
    rcases ended with rotated | revoked
    · simp [UserSession.live, Option.isNone_eq_false_iff.mpr rotated]
    · simp [UserSession.live, Option.isNone_eq_false_iff.mpr revoked]
  have outlives := (covered.cached row member dead claims minted same).resolve_left (by simp)
  have rejected := outlived_revoked outlives
  exact ⟨rejected, fun _ => principal_rejected faithful rejected⟩

/-- A login and a rotation half a second later. -/
def rotatedOnce : List (Call Nat Nat) :=
  let user : User Nat := ⟨20, 7, "1234", "91", "User 1234", .user, .active, none⟩
  [.setUsers [user], .wait 1700000000000000,
    .createSession ⟨0, 0, 0, fun _ => 0⟩ user none 10 30 40 100, .wait 500000,
    .rotateSession ⟨0, 0, 0, fun _ => 0⟩ 100 11 101, .wait 1000000]

def firstAccess : Claims :=
  ⟨20, 10, 30, .user, 1700000000, 1700000600, "chat-api", "access"⟩

/-- A library that knows the one token. -/
def oneToken : Jwt where
  encode := fun claims => if claims = firstAccess then "aa.bb.cc" else ""
  decode := fun text now =>
    if text = "aa.bb.cc" ∧ now ≤ firstAccess.exp then some firstAccess else none

theorem one_token_faithful : oneToken.Faithful where
  sound := by
    intro claims now found decoded
    by_cases known : claims = firstAccess
    · simp only [oneToken, known, if_true, true_and] at decoded ⊢
      split at decoded
      · rename_i current
        exact ⟨(Option.some.inj decoded).symm, current⟩
      · cases decoded
    · simp [oneToken, known] at decoded

theorem rotated_once_rejected : ∃ world : World Nat,
    Runs.run (step id ⟨600, 2592000⟩) emptyWorld rotatedOnce = some world ∧
      firstAccess ∈ world.minted ∧
      currentPrincipal oneToken world (some "Bearer aa.bb.cc") =
        .error (.notAuthenticated "not_authenticated") := by
  refine ⟨_, rfl, by decide, ?_⟩
  have spent := ended_session_rejected oneToken one_token_faithful id ⟨600, 2592000⟩ rotatedOnce _
    rfl _ List.mem_cons_self (Or.inl rfl) firstAccess (by decide) rfl
  exact spent.2 _ (by decide)

end Authentication

end RunnerupChat.AccessTokens
