import RunnerupChat.RefreshClient

/-!
What the refreshes of one page keep, however they interleave with the server:
one request is on its way at most, and until its exchange commits its token is
unspent and its transaction the only one at work on the family. A committed
exchange that is answered with 500 leaves the page with a spent token.
-/

namespace RunnerupChat.RefreshClient

open Accounts Runs SessionStore
open UniqueKeys (assign assign_same assign_other)

section Holding
variable {Token Digest : Type} {sha256 : Token → Digest} {family : Uuid}
  {server next : SessionStore.State Token Digest} {cookie : Option Token}
  {requests : List (Request Token)}

/-- The cookie can be exchanged, if there is one. -/
def CookieOk (sha256 : Token → Digest) (family : Uuid)
    (server : SessionStore.State Token Digest) (cookie : Option Token) : Prop :=
  ∀ token, cookie = some token → Unspent sha256 family server token

/-- How far the requests have come: there is one at most, it presents the
cookie, and until its exchange commits the cookie is unspent. -/
inductive Standing (sha256 : Token → Digest) (family : Uuid)
    (server : SessionStore.State Token Digest) (cookie : Option Token) :
    List (Request Token) → Prop where
  | idle (ok : CookieOk sha256 family server cookie) : Standing sha256 family server cookie []
  | sent (promise : Nat) (ok : CookieOk sha256 family server cookie) :
      Standing sha256 family server cookie [⟨cookie, promise, .sent⟩]
  | locked (token : Token) (promise : Nat) (tx : TxId) (row : UserSession Digest)
      (same : cookie = some token) (unspent : Unspent sha256 family server token)
      (held : server.txs tx = some (.locked token row)) :
      Standing sha256 family server cookie [⟨some token, promise, .running tx none⟩]
  | rotating (token minted : Token) (promise : Nat) (tx : TxId) (row flushed : UserSession Digest)
      (now : Time) (touched : Bool) (same : cookie = some token)
      (unspent : Unspent sha256 family server token)
      (held : server.txs tx = some (.rotating token row now flushed touched))
      (hash : flushed.refreshHash = sha256 minted) :
      Standing sha256 family server cookie [⟨some token, promise, .running tx (some minted)⟩]
  | committed (token minted : Token) (promise : Nat) (same : cookie = some token)
      (spent : token ∈ exchangedTokens server.journal)
      (unspent : Unspent sha256 family server minted) :
      Standing sha256 family server cookie [⟨some token, promise, .committed minted⟩]
  | refused (token : Option Token) (promise : Nat) (ok : CookieOk sha256 family server cookie) :
      Standing sha256 family server cookie [⟨token, promise, .answered none⟩]
  | exchanged (token : Option Token) (promise : Nat) (fresh : Token)
      (unspent : Unspent sha256 family server fresh) :
      Standing sha256 family server cookie [⟨token, promise, .answered (some fresh)⟩]

def Running (requests : List (Request Token)) (tx : TxId) : Prop :=
  ∃ request ∈ requests, ∃ minted, request.progress = .running tx minted

def Touches (family : Uuid) : Phase Token Digest → Prop
  | .locked _ row | .rotating _ row _ _ _ => row.familyId = family
  | .creating _ _ | .leaving _ _ | .revoking _ => False

/-- Only requests of the page hold rows of the family. -/
def Holders (family : Uuid) (server : SessionStore.State Token Digest)
    (requests : List (Request Token)) : Prop :=
  ∀ tx phase, server.txs tx = some phase → Touches family phase → Running requests tx

/-- No detected reuse revokes the family. -/
def Spared (family : Uuid) (server : SessionStore.State Token Digest) : Prop :=
  ∀ tx work, server.txs tx = some (.revoking work) → work.presented ≠ none →
    (∀ target ∈ work.todo, ∃ other, target = .family other ∧ other ≠ family) ∧
      family ∉ work.covers

/-- The phase holds no row of the family, and revokes others on a detected reuse. -/
structure Elsewhere (family : Uuid) (phase : Phase Token Digest) : Prop where
  apart : ¬Touches family phase
  spares : ∀ work, phase = .revoking work → work.presented ≠ none →
    (∀ target ∈ work.todo, ∃ other, target = .family other ∧ other ≠ family) ∧
      family ∉ work.covers

structure Inv (sha256 : Token → Digest) (family : Uuid) (wire : Wire Token Digest) : Prop where
  server : SessionStore.Inv sha256 wire.server
  known : Consistent sha256 wire.server
  single : wire.refreshInFlight = none → wire.requests = []
  standing : Standing sha256 family wire.server wire.cookie wire.requests
  holders : Holders family wire.server wire.requests
  spared : Spared family wire.server

/-- A phase other than that of a revocation. -/
theorem quiet_elsewhere {phase : Phase Token Digest} (apart : ¬Touches family phase)
    (quiet : ∀ work, phase ≠ .revoking work) : Elsewhere family phase where
  apart := apart
  spares := fun work same => absurd same (quiet work)

theorem revoking_elsewhere {work : Revocation Token}
    (spares : work.presented ≠ none →
      (∀ target ∈ work.todo, ∃ other, target = .family other ∧ other ≠ family) ∧
        family ∉ work.covers) : Elsewhere family (.revoking work : Phase Token Digest) where
  apart := fun touches => touches
  spares := by
    rintro _ ⟨⟩
    exact spares

theorem standing_single (standing : Standing sha256 family server cookie requests) :
    requests.length ≤ 1 := by
  cases standing with
  | idle => exact Nat.zero_le 1
  | sent | locked | rotating | committed | refused | exchanged => exact Nat.le_refl 1

theorem single_found {request found : Request Token} {index : Nat}
    (listed : [request][index]? = some found) : index = 0 ∧ found = request := by
  cases index with
  | zero => exact ⟨rfl, (Option.some.inj listed).symm⟩
  | succ index => cases listed

/-- The row of an unspent token is the only one with its digest. -/
theorem unspent_row (inv : SessionStore.Inv sha256 server) {token : Token}
    {row : UserSession Digest} (unspent : Unspent sha256 family server token)
    (member : row ∈ server.sessions) (hash : row.refreshHash = sha256 token) :
    row.familyId = family ∧ row.rotatedAt = none := by
  obtain ⟨other, present, digest, inside, fresh⟩ := unspent
  obtain rfl := List.inj_on_of_nodup_map inv.hashes member present (hash.trans digest.symm)
  exact ⟨inside, fresh⟩

/-- An unspent token was never exchanged. -/
theorem unspent_unexchanged (inv : SessionStore.Inv sha256 server)
    (known : Consistent sha256 server) {token : Token}
    (unspent : Unspent sha256 family server token) :
    token ∉ exchangedTokens server.journal := by
  intro exchanged
  obtain ⟨row, member, hash, spent⟩ := (known.spent token).mp exchanged
  rw [(unspent_row inv unspent member hash).2] at spent
  cases spent

/-- Steps of other transactions leave a request where it stands. -/
theorem standing_kept (standing : Standing sha256 family server cookie requests)
    (kept : ∀ tx, Running requests tx → next.txs tx = server.txs tx)
    (unspent : ∀ token, Unspent sha256 family server token → Unspent sha256 family next token)
    (grows : exchangedTokens server.journal ⊆ exchangedTokens next.journal) :
    Standing sha256 family next cookie requests := by
  cases standing with
  | idle ok => exact .idle fun token same => unspent token (ok token same)
  | sent promise ok => exact .sent promise fun token same => unspent token (ok token same)
  | locked token promise tx row same fresh held =>
      refine .locked token promise tx row same (unspent token fresh) ?_
      rw [kept tx ⟨_, List.mem_singleton_self _, none, rfl⟩]
      exact held
  | rotating token minted promise tx row flushed now touched same fresh held hash =>
      refine .rotating token minted promise tx row flushed now touched same (unspent token fresh)
        ?_ hash
      rw [kept tx ⟨_, List.mem_singleton_self _, some minted, rfl⟩]
      exact held
  | committed token minted promise same spent fresh =>
      exact .committed token minted promise same (grows spent) (unspent minted fresh)
  | refused token promise ok =>
      exact .refused token promise fun token same => unspent token (ok token same)
  | exchanged token promise fresh live => exact .exchanged token promise fresh (unspent fresh live)

theorem holders_assign {actor : TxId} {phase : Option (Phase Token Digest)}
    {later : List (Request Token)} (holders : Holders family server requests)
    (txs : next.txs = assign server.txs actor phase)
    (kept : ∀ tx, tx ≠ actor → Running requests tx → Running later tx)
    (mine : ∀ found, phase = some found → Touches family found → Running later actor) :
    Holders family next later := by
  intro tx found held touches
  rw [txs] at held
  by_cases same : tx = actor
  · subst same
    rw [assign_same] at held
    exact mine found held touches
  · rw [assign_other _ _ same] at held
    exact kept tx same (holders tx found held touches)

theorem spared_assign {actor : TxId} {phase : Option (Phase Token Digest)}
    (spared : Spared family server) (txs : next.txs = assign server.txs actor phase)
    (mine : ∀ work, phase = some (.revoking work) → work.presented ≠ none →
      (∀ target ∈ work.todo, ∃ other, target = .family other ∧ other ≠ family) ∧
        family ∉ work.covers) : Spared family next := by
  intro tx work held presented
  rw [txs] at held
  by_cases same : tx = actor
  · subst same
    rw [assign_same] at held
    exact mine work held presented
  · rw [assign_other _ _ same] at held
    exact spared tx work held presented

/-- A request that runs holds its row, and the row is one of the family. -/
theorem running_touches (inv : SessionStore.Inv sha256 server)
    (standing : Standing sha256 family server cookie requests) {tx : TxId}
    (running : Running requests tx) :
    ∃ phase, server.txs tx = some phase ∧ Touches family phase := by
  obtain ⟨request, member, minted, progress⟩ := running
  cases standing with
  | idle => cases member
  | sent | committed | refused | exchanged =>
      rw [List.mem_singleton.mp member] at progress
      cases progress
  | locked token promise other row same unspent held =>
      rw [List.mem_singleton.mp member] at progress
      cases progress
      have ok : Held sha256 server.sessions server.locks tx token row := inv.phases tx _ held
      exact ⟨_, held, (unspent_row inv unspent ok.member ok.hash).1⟩
  | rotating token fresh promise other row flushed now touched same unspent held hash =>
      rw [List.mem_singleton.mp member] at progress
      cases progress
      have ok : Held sha256 server.sessions server.locks tx token row := (inv.phases tx _ held).1
      exact ⟨_, held, (unspent_row inv unspent ok.member ok.hash).1⟩

theorem followed_same {action : SessionStore.Action Token}
    (idle : ∀ tx, action.moves = some tx → ¬Running requests tx) :
    requests.map (follow next action) = requests := by
  have each : ∀ request ∈ requests, follow next action request = request := by
    intro request member
    cases progress : request.progress with
    | sent | committed | answered | raised => simp only [follow, progress]
    | running tx minted =>
        have other : action.moves ≠ some tx :=
          fun same => idle tx same ⟨request, member, minted, progress⟩
        cases action with
        | decide actor now id token | commit actor | rollback actor =>
            simp only [SessionStore.Action.moves, ne_eq, Option.some.injEq] at other
            simp only [follow, progress, if_neg other]
        | _ => simp only [follow, progress]
  exact (List.map_congr_left each).trans (List.map_id _)

theorem running_unique
    (standing : Standing sha256 family server cookie requests) {one other : TxId}
    (first : Running requests one) (second : Running requests other) : one = other := by
  obtain ⟨left, listed, minted, running⟩ := first
  obtain ⟨right, member, again, progress⟩ := second
  have same : left = right := by
    have few := standing_single standing
    cases requests with
    | nil => cases listed
    | cons request rest =>
        cases rest with
        | nil => rw [List.mem_singleton.mp listed, List.mem_singleton.mp member]
        | cons next rest => simp at few
  subst same
  rw [running] at progress
  cases progress
  rfl

end Holding

section Serving
variable {Token Digest : Type} [DecidableEq Token] [DecidableEq Digest] {sha256 : Token → Digest}
  {family : Uuid} {wire : Wire Token Digest} {next : SessionStore.State Token Digest}
  {action : SessionStore.Action Token}

/-- An unspent row of the family stays unspent, unless a rotation of the family
commits. -/
theorem unspent_step (inv : SessionStore.Inv sha256 wire.server)
    (taken : SessionStore.step sha256 wire.server action = some next)
    (apart : ∀ tx token row now flushed touched, action = .commit tx →
      wire.server.txs tx = some (.rotating token row now flushed touched) → row.familyId ≠ family)
    (token : Token) (unspent : Unspent sha256 family wire.server token) :
    Unspent sha256 family next token := by
  cases step_outcome inv taken with
  | silent rows _ | refused _ _ rows _ _ _ =>
      obtain ⟨row, member, rest⟩ := unspent
      exact ⟨row, rows ▸ member, rest⟩
  | committed tx phase entries commits opened done _ =>
      apply commit_unspent inv opened done _ unspent
      rintro presented row now flushed touched rfl
      exact apart tx presented row now flushed touched commits opened

/-- What was exchanged stays on record. -/
theorem exchanged_grows (inv : SessionStore.Inv sha256 wire.server)
    (taken : SessionStore.step sha256 wire.server action = some next) :
    exchangedTokens wire.server.journal ⊆ exchangedTokens next.journal := by
  cases step_outcome inv taken with
  | silent _ added =>
      rw [added]
      exact List.Subset.refl _
  | refused _ _ _ added _ _ | committed _ _ _ _ _ _ added =>
      rw [added, exchanged_tokens_append]
      exact List.subset_append_left _ _

variable (collisionFree : Function.Injective sha256)
include collisionFree

/-- A step that moves no transaction of the page. -/
theorem elsewhere_inv (inv : Inv sha256 family wire)
    (taken : SessionStore.step sha256 wire.server action = some next)
    (kept : ∀ tx, Running wire.requests tx → next.txs tx = wire.server.txs tx)
    (commits : ∀ tx, action = .commit tx → ¬Running wire.requests tx)
    (moved : ∀ tx found, next.txs tx = some found →
      wire.server.txs tx = some found ∨ Elsewhere family found) : Inv sha256 family { wire with server := next } where
  server := step_inv collisionFree _ _ _ inv.server taken
  known := step_consistent collisionFree inv.server inv.known taken
  single := inv.single
  standing := by
    refine standing_kept inv.standing kept ?_ (exchanged_grows inv.server taken)
    apply unspent_step inv.server taken
    intro tx token row now flushed touched same held inside
    exact commits tx same (inv.holders tx _ held inside)
  holders := by
    intro tx found held touches
    rcases moved tx found held with before | elsewhere
    · exact inv.holders tx found before touches
    · exact absurd touches elsewhere.apart
  spared := by
    intro tx work held presented
    rcases moved tx _ held with before | elsewhere
    · exact inv.spared tx work before presented
    · exact elsewhere.spares work rfl presented

/-- One transaction, not of the page, moves to a phase that spares the family. -/
theorem assigned_inv (inv : Inv sha256 family wire)
    (taken : SessionStore.step sha256 wire.server action = some next) {actor : TxId}
    {phase : Option (Phase Token Digest)} (txs : next.txs = assign wire.server.txs actor phase)
    (idle : ¬Running wire.requests actor) (commits : ∀ tx, action = .commit tx → tx = actor)
    (moved : ∀ found, phase = some found → Elsewhere family found) :
    Inv sha256 family { wire with server := next } := by
  apply elsewhere_inv collisionFree inv taken
  case kept =>
    intro tx running
    rw [txs, assign_other]
    rintro rfl
    exact idle running
  case commits => exact fun tx same running => idle (commits tx same ▸ running)
  case moved =>
    intro tx found held
    rw [txs] at held
    by_cases same : tx = actor
    · subst same
      rw [assign_same] at held
      exact Or.inr (moved found held)
    · rw [assign_other _ _ same] at held
      exact Or.inl held

/-- Such a transaction goes on. -/
theorem turned_inv (inv : Inv sha256 family wire)
    (taken : SessionStore.step sha256 wire.server action = some next) {actor : TxId}
    {found : Phase Token Digest} (txs : next.txs = assign wire.server.txs actor (some found))
    (idle : ¬Running wire.requests actor) (uncommitted : ∀ tx, action ≠ .commit tx)
    (elsewhere : Elsewhere family found) : Inv sha256 family { wire with server := next } := by
  apply assigned_inv collisionFree inv taken txs idle
  · exact fun tx same => absurd same (uncommitted tx)
  · rintro _ ⟨⟩
    exact elsewhere

/-- Such a transaction ends. -/
theorem closed_inv (inv : Inv sha256 family wire)
    (taken : SessionStore.step sha256 wire.server action = some next) {actor : TxId}
    (txs : next.txs = assign wire.server.txs actor none) (idle : ¬Running wire.requests actor)
    (commits : ∀ tx, action = .commit tx → tx = actor) :
    Inv sha256 family { wire with server := next } :=
  assigned_inv collisionFree inv taken txs idle commits fun _ same => nomatch same

/-- The request of the page moves on, with its transaction. -/
theorem moved_inv (inv : Inv sha256 family wire)
    (taken : SessionStore.step sha256 wire.server action = some next) {actor : TxId}
    {phase : Option (Phase Token Digest)} (txs : next.txs = assign wire.server.txs actor phase)
    (busy : wire.requests ≠ []) (only : ∀ tx, Running wire.requests tx → tx = actor)
    {later : List (Request Token)} (standing : Standing sha256 family next wire.cookie later)
    (mine : ∀ found, phase = some found → Touches family found ∧ Running later actor) :
    Inv sha256 family { wire with server := next, requests := later } where
  server := step_inv collisionFree _ _ _ inv.server taken
  known := step_consistent collisionFree inv.server inv.known taken
  single := fun free => absurd (inv.single free) busy
  standing := standing
  holders := holders_assign inv.holders txs
    (fun tx other running => absurd (only tx running) other)
    fun found same _ => (mine found same).2
  spared := spared_assign inv.spared txs fun _ same _ => ((mine _ same).1).elim

theorem own_inv (inv : Inv sha256 family wire)
    (taken : SessionStore.step sha256 wire.server action = some next) {actor : TxId}
    {phase : Option (Phase Token Digest)} (txs : next.txs = assign wire.server.txs actor phase)
    (running : Running wire.requests actor) {later : List (Request Token)}
    (standing : Standing sha256 family next wire.cookie later)
    (mine : ∀ found, phase = some found → Touches family found ∧ Running later actor) :
    Inv sha256 family { wire with server := next, requests := later } := by
  apply moved_inv collisionFree inv taken txs _ _ standing mine
  · intro empty
    obtain ⟨request, member, _⟩ := running
    rw [empty] at member
    cases member
  · exact fun tx again => running_unique inv.standing again running

/-- The transaction of the page's request, where it stands. -/
inductive Own (sha256 : Token → Digest) (family : Uuid) (wire : Wire Token Digest) (tx : TxId) :
    Prop where
  | locked (token : Token) (promise : Nat) (row : UserSession Digest)
      (requests : wire.requests = [⟨some token, promise, .running tx none⟩])
      (cookie : wire.cookie = some token) (unspent : Unspent sha256 family wire.server token)
      (held : wire.server.txs tx = some (.locked token row)) (inside : row.familyId = family)
      (fresh : row.rotatedAt = none)
  | rotating (token minted : Token) (promise : Nat) (row flushed : UserSession Digest)
      (now : Time) (touched : Bool)
      (requests : wire.requests = [⟨some token, promise, .running tx (some minted)⟩])
      (cookie : wire.cookie = some token) (unspent : Unspent sha256 family wire.server token)
      (held : wire.server.txs tx = some (.rotating token row now flushed touched))
      (inside : row.familyId = family) (hash : flushed.refreshHash = sha256 minted)

omit [DecidableEq Token] [DecidableEq Digest] collisionFree in
theorem own_cases (inv : Inv sha256 family wire) {tx : TxId}
    (running : Running wire.requests tx) : Own sha256 family wire tx := by
  obtain ⟨request, member, found, progress⟩ := running
  obtain ⟨phase, opened, touches⟩ :=
    running_touches inv.server inv.standing ⟨request, member, found, progress⟩
  generalize listed : wire.requests = requests at member
  have standing := inv.standing
  rw [listed] at standing
  cases standing with
  | idle => cases member
  | sent | committed | refused | exchanged =>
      rw [List.mem_singleton.mp member] at progress
      cases progress
  | locked token promise other row same unspent held =>
      rw [List.mem_singleton.mp member] at progress
      cases progress
      have ok : Held sha256 wire.server.sessions wire.server.locks tx token row :=
        inv.server.phases tx _ held
      obtain ⟨inside, fresh⟩ := unspent_row inv.server unspent ok.member ok.hash
      exact .locked token promise row listed same unspent held inside fresh
  | rotating token minted promise other row flushed now touched same unspent held hash =>
      rw [List.mem_singleton.mp member] at progress
      cases progress
      rw [held] at opened
      cases opened
      exact .rotating token minted promise row flushed now touched listed same unspent held touches
        hash

/-- The checks of `rotate_session` on the row of the request. -/
theorem decide_own (inv : Inv sha256 family wire) {tx : TxId} {now : Time} {id : Uuid}
    {drawn : Token} (running : Running wire.requests tx)
    (taken : SessionStore.step sha256 wire.server (.decide tx now id drawn) = some next) :
    Inv sha256 family { wire with
      server := next
      requests := wire.requests.map (follow next (.decide tx now id drawn)) } := by
  have live : ∀ token, Unspent sha256 family wire.server token →
      Unspent sha256 family next token :=
    unspent_step inv.server taken <| by
      rintro _ _ _ _ _ _ ⟨⟩
  cases own_cases inv running with
  | rotating token minted promise row flushed moment touched requests cookie unspent held =>
      cases step_turn taken with
      | still _ quiet | elsewhere _ _ _ _ _ quiet => cases quiet
      | punishes _ _ _ _ _ _ locked | refuses _ _ _ _ _ _ locked | rotates _ _ _ _ _ _ locked =>
          rw [held] at locked
          cases locked
  | locked token promise row requests cookie unspent held inside fresh =>
      cases step_turn taken with
      | still _ quiet | elsewhere _ _ _ _ _ quiet => cases quiet
      | punishes _ _ _ _ presented found locked spent =>
          rw [held] at locked
          cases locked
          -- the row was not rotated when it was locked, and the lock kept it so
          rw [fresh] at spent
          cases spent
      | refuses _ _ _ _ presented found locked txs =>
          apply own_inv collisionFree inv taken txs running
          · rw [requests]
            simp only [List.map_cons, List.map_nil, follow, if_pos, txs, assign_same]
            refine .refused _ _ fun other same => ?_
            rw [cookie] at same
            cases same
            exact live token unspent
          · rintro _ ⟨⟩
      | rotates _ _ _ _ presented found locked txs =>
          rw [held] at locked
          cases locked
          apply own_inv collisionFree inv taken txs running
          · rw [requests]
            simp only [List.map_cons, List.map_nil, follow, if_pos, txs, assign_same]
            refine .rotating token drawn promise tx row (successor row id (sha256 drawn)) now false
              cookie (live token unspent) ?_ rfl
            rw [txs, assign_same]
          · rintro _ ⟨⟩
            refine ⟨inside, ?_⟩
            rw [requests]
            simp only [List.map_cons, List.map_nil, follow, if_pos, txs, assign_same]
            exact ⟨_, List.mem_singleton_self _, some drawn, rfl⟩

/-- The commit of a rotation spends the cookie; its successor is fresh. -/
theorem commit_own (inv : Inv sha256 family wire) {tx : TxId}
    (running : Running wire.requests tx)
    (taken : SessionStore.step sha256 wire.server (.commit tx) = some next) :
    Inv sha256 family { wire with
      server := next, requests := wire.requests.map (follow next (.commit tx)) } := by
  cases step_turn taken with
  | still _ quiet | elsewhere _ _ _ _ _ quiet => cases quiet
  | commits _ phase entries opened done txs =>
      apply own_inv collisionFree inv taken txs running
      · cases own_cases inv running with
        | locked token promise row requests cookie unspent held =>
            rw [held] at opened
            cases opened
            cases done
        | rotating token minted promise row flushed now touched requests cookie unspent held inside
            hash =>
            rw [held] at opened
            cases opened
            rw [requests]
            simp only [List.map_cons, List.map_nil, follow, if_pos]
            have locked : Held sha256 wire.server.sessions wire.server.locks tx token row :=
              (inv.server.phases tx _ held).1
            have rows := (committed_rotating done).1
            have known := step_consistent collisionFree inv.server inv.known taken
            refine .committed token minted promise cookie ((known.spent token).mpr ?_)
              ⟨flushed, ?_, hash, ?_, ?_⟩
            · refine ⟨spend now row, ?_, locked.hash, rfl⟩
              rw [rows]
              exact List.mem_append_left _ (List.mem_map.mpr ⟨row, locked.member, if_pos rfl⟩)
            · rw [rows]
              exact List.mem_append_right _ (List.mem_singleton_self flushed)
            · obtain ⟨_, _, id, digest, rfl⟩ := inv.server.phases tx _ held
              exact inside
            · obtain ⟨_, _, id, digest, rfl⟩ := inv.server.phases tx _ held
              rfl
      · exact fun _ same => nomatch same

/-- Without a commit the token is as good as before. -/
theorem rollback_own (inv : Inv sha256 family wire) {tx : TxId}
    (running : Running wire.requests tx)
    (taken : SessionStore.step sha256 wire.server (.rollback tx) = some next) :
    Inv sha256 family { wire with
      server := next, requests := wire.requests.map (follow next (.rollback tx)) } := by
  have live : ∀ token, Unspent sha256 family wire.server token →
      Unspent sha256 family next token :=
    unspent_step inv.server taken fun _ _ _ _ _ _ same => nomatch same
  cases step_turn taken with
  | still _ quiet | elsewhere _ _ _ _ _ quiet => cases quiet
  | rollsBack _ phase opened txs =>
      apply own_inv collisionFree inv taken txs running
      · cases own_cases inv running with
        | locked token promise row requests cookie unspent
        | rotating token _ promise _ _ _ _ requests cookie unspent =>
            rw [requests]
            simp only [List.map_cons, List.map_nil, follow, if_pos]
            refine .refused _ _ fun other same => ?_
            rw [cookie] at same
            cases same
            exact live token unspent
      · exact fun _ same => nomatch same

theorem touch_own (inv : Inv sha256 family wire) {tx : TxId}
    (running : Running wire.requests tx) {token : Token} {row flushed : UserSession Digest}
    {now : Time} (found : wire.server.txs tx = some (.rotating token row now flushed false))
    (txs : next.txs = assign wire.server.txs tx (some (.rotating token row now flushed true)))
    (taken : SessionStore.step sha256 wire.server (.touchDevice tx) = some next) :
    Inv sha256 family { wire with server := next } := by
  have live : ∀ token, Unspent sha256 family wire.server token →
      Unspent sha256 family next token :=
    unspent_step inv.server taken fun _ _ _ _ _ _ same => nomatch same
  cases own_cases inv running with
  | locked _ _ _ _ _ _ held =>
      rw [found] at held
      cases held
  | rotating _ minted promise _ _ _ _ requests cookie unspent held inside hash =>
      rw [found] at held
      cases held
      apply own_inv collisionFree inv taken txs running
      · rw [requests]
        refine .rotating token minted promise tx row flushed now true cookie (live token unspent)
          ?_ hash
        rw [txs, assign_same]
      · rintro _ ⟨⟩
        exact ⟨inside, running⟩

omit [DecidableEq Token] [DecidableEq Digest] collisionFree in
/-- The page's transaction never revokes, and is no other's. -/
theorem not_running (inv : Inv sha256 family wire) {tx : TxId}
    (apart : ∀ phase, wire.server.txs tx = some phase → ¬Touches family phase) :
    ¬Running wire.requests tx := by
  intro running
  obtain ⟨phase, opened, touches⟩ := running_touches inv.server inv.standing running
  exact apart phase opened touches

omit [DecidableEq Token] [DecidableEq Digest] collisionFree in
theorem revoking_not_running (inv : Inv sha256 family wire) {tx : TxId} {work : Revocation Token}
    (held : wire.server.txs tx = some (.revoking work)) : ¬Running wire.requests tx := by
  apply not_running inv
  intro phase opened touches
  rw [held] at opened
  cases opened
  exact touches

omit [DecidableEq Token] [DecidableEq Digest] collisionFree in
theorem outsider_row (inv : Inv sha256 family wire) {tx : TxId}
    (idle : ¬Running wire.requests tx) {phase : Phase Token Digest}
    (held : wire.server.txs tx = some phase) : ¬Touches family phase :=
  fun touches => idle (inv.holders tx phase held touches)

/-- A step of a transaction that presents no token of the page. -/
theorem outsider_inv (inv : Inv sha256 family wire)
    (foreign : isForeign sha256 family wire.server action = true)
    (taken : SessionStore.step sha256 wire.server action = some next)
    (idle : ∀ tx, action.moves = some tx → ¬Running wire.requests tx) :
    Inv sha256 family { wire with server := next } := by
  cases step_turn taken with
  | still txs quiet =>
      apply elsewhere_inv collisionFree inv taken
      case kept => exact fun tx _ => congrFun txs tx
      case commits =>
        rintro tx rfl
        cases quiet
      case moved => exact fun tx found held => Or.inl (txs ▸ held)
  | elsewhere tx phase before apart txs quiet =>
      apply assigned_inv collisionFree inv taken txs
      case idle =>
        apply not_running inv
        intro old held touches
        have none := before old held
        cases old with
        | locked | rotating => exact none
        | creating | leaving | revoking => exact touches
      case commits =>
        rintro other rfl
        cases quiet
      case moved =>
        rintro found same
        cases same
        cases phase with
        | locked | rotating => exact apart.elim
        | creating | leaving =>
            exact quiet_elsewhere (fun touches => touches) fun work same => nomatch same
        | revoking work => exact revoking_elsewhere fun presented => absurd apart presented
  | locks tx token row free member hash txs =>
      apply turned_inv collisionFree inv taken txs
      case idle =>
        apply not_running inv
        intro phase held
        rw [free] at held
        cases held
      case uncommitted => exact fun _ same => nomatch same
      case elsewhere =>
        -- a token of the family would not be foreign
        refine quiet_elsewhere (fun inside => ?_) fun work same => nomatch same
        have named : (wire.server.sessions.any fun row =>
            row.refreshHash == sha256 token && row.familyId == family) = true :=
          List.any_eq_true.mpr ⟨row, member, by simp [hash, show row.familyId = family from inside]⟩
        simp [isForeign, named] at foreign
  | punishes tx now id minted token row held spent txs =>
      -- the row of somebody else, so the family that is revoked is not this one
      have free := idle tx rfl
      apply turned_inv collisionFree inv taken txs free
      case uncommitted => exact fun _ same => nomatch same
      case elsewhere =>
        refine revoking_elsewhere fun _ => ⟨fun target member => ?_, fun member => nomatch member⟩
        exact ⟨row.familyId, List.mem_singleton.mp member, outsider_row inv free held⟩
  | refuses tx now id minted token row held txs =>
      exact closed_inv collisionFree inv taken txs (idle tx rfl) fun _ same => nomatch same
  | rotates tx now id minted token row held txs =>
      have free := idle tx rfl
      apply turned_inv collisionFree inv taken txs free
      case uncommitted => exact fun _ same => nomatch same
      case elsewhere =>
        have apart := outsider_row inv free held
        exact quiet_elsewhere apart fun work same => nomatch same
  | touches tx token row flushed now held txs =>
      have free := idle tx rfl
      apply turned_inv collisionFree inv taken txs free
      case uncommitted => exact fun _ same => nomatch same
      case elsewhere =>
        have apart := outsider_row inv free held
        exact quiet_elsewhere apart fun work same => nomatch same
  | starts tx now work later target rest held todo left presented covers txs =>
      apply turned_inv collisionFree inv taken txs (revoking_not_running inv held)
      case uncommitted => exact fun _ same => nomatch same
      case elsewhere =>
        refine revoking_elsewhere fun reuse => ?_
        obtain ⟨targets, apart⟩ := inv.spared tx work held (presented ▸ reuse)
        rw [todo] at targets
        refine ⟨fun other member => targets other (List.mem_cons_of_mem _ (left ▸ member)), ?_⟩
        obtain ⟨other, rfl, different⟩ := targets target List.mem_cons_self
        rw [covers, List.mem_append, not_or]
        exact ⟨apart, fun member => different (List.mem_singleton.mp member).symm⟩
  | reaches tx session work later held left presented covers txs =>
      apply turned_inv collisionFree inv taken txs (revoking_not_running inv held)
      case uncommitted => exact fun _ same => nomatch same
      case elsewhere =>
        refine revoking_elsewhere fun reuse => ?_
        rw [left, covers]
        exact inv.spared tx work held (presented ▸ reuse)
  | commits tx phase entries held done txs =>
      apply closed_inv collisionFree inv taken txs (idle tx rfl)
      rintro _ ⟨⟩
      rfl
  | rollsBack tx phase held txs =>
      exact closed_inv collisionFree inv taken txs (idle tx rfl) fun _ same => nomatch same

theorem serve_inv (inv : Inv sha256 family wire)
    (foreign : isForeign sha256 family wire.server action = true)
    (taken : SessionStore.step sha256 wire.server action = some next) :
    Inv sha256 family { wire with
      server := next, requests := wire.requests.map (follow next action) } := by
  by_cases own : ∃ tx, action.moves = some tx ∧ Running wire.requests tx
  · obtain ⟨tx, acts, running⟩ := own
    cases action with
    | decide other now id token =>
        cases acts
        exact decide_own collisionFree inv running taken
    | commit other =>
        cases acts
        exact commit_own collisionFree inv running taken
    | rollback other =>
        cases acts
        exact rollback_own collisionFree inv running taken
    | touchDevice other =>
        cases acts
        have each : follow next (.touchDevice tx) = id := by
          funext request
          obtain ⟨token, promise, progress⟩ := request
          cases progress <;> rfl
        rw [each, List.map_id]
        cases step_turn taken with
        | still _ quiet | elsewhere _ _ _ _ _ quiet => cases quiet
        | touches _ token row flushed now held txs =>
            exact touch_own collisionFree inv running held txs taken
    | _ => cases acts
  · have idle : ∀ tx, action.moves = some tx → ¬Running wire.requests tx :=
      fun tx acts running => own ⟨tx, acts, running⟩
    rw [followed_same idle]
    exact outsider_inv collisionFree inv foreign taken idle

end Serving

section Steps
variable {Token Digest : Type} {sha256 : Token → Digest} {family : Uuid}

section Requests
variable {server : SessionStore.State Token Digest} {cookie : Option Token}
  {requests : List (Request Token)} {index promise : Nat} {token : Option Token}

theorem sent_cases (standing : Standing sha256 family server cookie requests)
    (found : requests[index]? = some ⟨token, promise, .sent⟩) :
    index = 0 ∧ requests = [⟨token, promise, .sent⟩] ∧ token = cookie ∧
      CookieOk sha256 family server cookie := by
  cases standing with
  | idle => cases found
  | locked | rotating | committed | refused | exchanged =>
      obtain ⟨_, same⟩ := single_found found
      cases same
  | sent promise ok =>
      obtain ⟨rfl, same⟩ := single_found found
      cases same
      exact ⟨rfl, rfl, rfl, ok⟩

/-- Behind the commit, the cookie is spent. -/
theorem committed_cases {minted : Token}
    (standing : Standing sha256 family server cookie requests)
    (found : requests[index]? = some ⟨token, promise, .committed minted⟩) :
    index = 0 ∧ requests = [⟨token, promise, .committed minted⟩] ∧ token = cookie ∧
      (∀ kept, cookie = some kept → kept ∈ exchangedTokens server.journal) ∧
      Unspent sha256 family server minted := by
  cases standing with
  | idle => cases found
  | sent | locked | rotating | refused | exchanged =>
      obtain ⟨_, same⟩ := single_found found
      cases same
  | committed other minted promise same spent unspent =>
      obtain ⟨rfl, listed⟩ := single_found found
      cases listed
      refine ⟨rfl, rfl, same.symm, fun kept named => ?_, unspent⟩
      cases same.symm.trans named
      exact spent

/-- No request is answered with 500 as long as the cookie is good. -/
theorem unraised (standing : Standing sha256 family server cookie requests) :
    requests[index]? ≠ some ⟨token, promise, .raised⟩ := by
  intro found
  cases standing with
  | idle => cases found
  | sent | locked | rotating | committed | refused | exchanged =>
      obtain ⟨_, same⟩ := single_found found
      cases same

/-- What the cookie is after the response. -/
theorem answered_cases {fresh : Option Token} (deleted : Bool)
    (standing : Standing sha256 family server cookie requests)
    (found : requests[index]? = some ⟨token, promise, .answered fresh⟩) :
    index = 0 ∧ requests = [⟨token, promise, .answered fresh⟩] ∧
      CookieOk sha256 family server
        (match fresh with
        | some fresh => some fresh
        | none => if deleted then none else cookie) := by
  cases standing with
  | idle => cases found
  | sent | locked | rotating | committed =>
      obtain ⟨_, same⟩ := single_found found
      cases same
  | refused other promise ok =>
      obtain ⟨rfl, same⟩ := single_found found
      cases same
      refine ⟨rfl, rfl, fun kept same => ?_⟩
      dsimp only at same
      split at same
      · cases same
      · exact ok kept same
  | exchanged other promise fresh unspent =>
      obtain ⟨rfl, same⟩ := single_found found
      cases same
      refine ⟨rfl, rfl, fun kept same => ?_⟩
      cases same
      exact unspent

end Requests

section Worlds
variable {world next : World Token Digest}

theorem refresh_inv (inv : Inv sha256 family world.toWire) (csrfThrows : Bool) :
    Inv sha256 family (world.refresh csrfThrows).2.toWire := by
  rw [World.refresh]
  split
  · exact inv
  · rename_i free
    -- nothing is in flight, so no request is left and the cookie is the latest
    have empty := inv.single free
    have standing := inv.standing
    rw [empty] at standing
    have ok : CookieOk sha256 family world.server world.cookie := by
      cases standing with
      | idle ok => exact ok
    split
    · exact { inv with single := fun same => nomatch same }
    · constructor
      case server => exact inv.server
      case known => exact inv.known
      case single => exact fun same => nomatch same
      case standing =>
        show Standing sha256 family world.server world.cookie (world.requests ++ _)
        rw [empty]
        exact .sent _ ok
      case holders =>
        intro tx phase held touches
        obtain ⟨request, member, running⟩ := inv.holders tx phase held touches
        exact ⟨request, List.mem_append_left _ member, running⟩
      case spared => exact inv.spared

theorem start_inv (inv : Inv sha256 family world.toWire) (now : Nat) (csrfThrows : Bool) :
    Inv sha256 family (world.start now csrfThrows).2.toWire := by
  rw [World.start]
  split
  · exact refresh_inv inv csrfThrows
  · exact inv

theorem resume_inv {index now : Nat} {csrfThrows : Bool} (inv : Inv sha256 family world.toWire)
    (taken : world.resume index now csrfThrows = some next) :
    Inv sha256 family next.toWire := by
  rw [World.resume] at taken
  split at taken
  · split at taken
    · split at taken
      · cases taken
        exact inv
      · split at taken
        · cases taken
          exact start_inv inv now csrfThrows
        · cases taken
          exact inv
    · cases taken
  · cases taken

theorem respond_inv {index : Nat} {status : Option Nat} {csrfThrows : Bool}
    (inv : Inv sha256 family world.toWire)
    (taken : world.respond index status csrfThrows = some next) :
    Inv sha256 family next.toWire := by
  rw [World.respond] at taken
  split at taken
  · split at taken
    · cases taken
      exact refresh_inv inv csrfThrows
    · split at taken
      · cases taken
        exact inv
      · cases taken
        exact inv
  · cases taken

/-- A request that is not in a transaction may be answered. -/
theorem advanced_inv {wire : Wire Token Digest} (inv : Inv sha256 family wire)
    {request later : Request Token} (requests : wire.requests = [request])
    (apart : ∀ tx, ¬Running wire.requests tx)
    (standing : Standing sha256 family wire.server wire.cookie [later]) :
    Inv sha256 family { wire with requests := wire.requests.set 0 later } where
  server := inv.server
  known := inv.known
  single := by
    intro free
    have empty := inv.single free
    rw [requests] at empty
    cases empty
  standing := by
    rw [requests]
    exact standing
  holders := fun tx phase held touches => absurd (inv.holders tx phase held touches) (apart tx)
  spared := inv.spared

theorem refuse_inv {index : Nat} (inv : Inv sha256 family world.toWire)
    (taken : world.refuse index = some next) : Inv sha256 family next.toWire := by
  rw [World.refuse] at taken
  split at taken
  · rename_i token promise found
    cases taken
    obtain ⟨rfl, requests, _, ok⟩ := sent_cases inv.standing found
    refine advanced_inv inv requests ?_ (.refused token promise ok)
    rintro tx ⟨request, member, minted, progress⟩
    rw [requests] at member
    cases List.mem_singleton.mp member
    cases progress
  · cases taken

theorem answered_inv {wire : Wire Token Digest} (inv : Inv sha256 family wire)
    {token fresh cookie : Option Token} {promise : Nat}
    (requests : wire.requests = [⟨token, promise, .answered fresh⟩])
    (ok : CookieOk sha256 family wire.server cookie) :
    Inv sha256 family ⟨wire.server, cookie, wire.requests.eraseIdx 0, none⟩ := by
  rw [requests]
  constructor
  case server => exact inv.server
  case known => exact inv.known
  case single => exact fun _ => rfl
  case standing => exact .idle ok
  case holders =>
    intro tx phase held touches
    obtain ⟨request, member, minted, progress⟩ := inv.holders tx phase held touches
    rw [requests] at member
    cases List.mem_singleton.mp member
    cases progress
  case spared => exact inv.spared

theorem deliver_inv {index now : Nat} {session : Option Session} {deleted : Bool}
    (inv : Inv sha256 family world.toWire)
    (taken : world.deliver index now session deleted = some next) :
    Inv sha256 family next.toWire := by
  rw [World.deliver] at taken
  split at taken
  · rename_i token promise fresh found
    obtain ⟨rfl, requests, ok⟩ := answered_cases deleted inv.standing found
    have after := answered_inv inv requests ok
    cases taken
    cases fresh with
    | none => exact after
    | some fresh =>
        cases session with
        | none => exact after
        | some session => exact after
  · rename_i found
    exact absurd found (unraised inv.standing)
  · cases taken

theorem finish_inv {index : Nat} (inv : Inv sha256 family world.toWire)
    (taken : world.finish index false = some next) : Inv sha256 family next.toWire := by
  rw [World.finish] at taken
  split at taken
  · rename_i token promise minted found
    cases taken
    obtain ⟨rfl, requests, -, -, unspent⟩ := committed_cases inv.standing found
    refine advanced_inv inv requests ?_ (.exchanged token promise minted unspent)
    rintro tx ⟨request, member, running, progress⟩
    rw [requests] at member
    cases List.mem_singleton.mp member
    cases progress
  · cases taken

section Serves
variable [DecidableEq Token] [DecidableEq Digest]

theorem receive_inv (collisionFree : Function.Injective sha256) {index : Nat} {tx : TxId}
    (inv : Inv sha256 family world.toWire)
    (taken : receive sha256 world index tx = some next) : Inv sha256 family next.toWire := by
  rw [receive] at taken
  split at taken
  · rename_i token promise found
    obtain ⟨server, selected, rfl⟩ := Option.map_eq_some_iff.mp taken
    obtain ⟨rfl, requests, cookie, ok⟩ := sent_cases inv.standing found
    have live : ∀ token, Unspent sha256 family world.server token →
        Unspent sha256 family server token :=
      unspent_step inv.server selected fun _ _ _ _ _ _ same => nomatch same
    have busy : world.requests ≠ [] := by
      rw [requests]
      exact List.cons_ne_nil _ _
    have only : ∀ other, Running world.requests other → other = tx := by
      rintro other ⟨request, member, minted, progress⟩
      rw [requests] at member
      cases List.mem_singleton.mp member
      cases progress
    have unspent := ok token cookie.symm
    obtain ⟨free, txs | ⟨row, member, hash, txs⟩⟩ := select_cases selected
    · have closed : server.txs tx = none := (congrFun txs tx).trans free
      have cleared : server.txs = assign world.server.txs tx none := by
        rw [txs]
        funext other
        by_cases same : other = tx
        · rw [same, assign_same, free]
        · rw [assign_other _ _ same]
      apply moved_inv collisionFree inv selected cleared busy only
      · show Standing sha256 family server world.cookie (world.requests.set 0 _)
        rw [requests, closed]
        exact .refused (some token) promise fun other same => live other (ok other same)
      · exact fun _ same => nomatch same
    · have opened : server.txs tx = some (.locked token row) := by rw [txs, assign_same]
      apply moved_inv collisionFree inv selected txs busy only
      · show Standing sha256 family server world.cookie (world.requests.set 0 _)
        rw [requests, opened]
        exact .locked token promise tx row cookie.symm (live token unspent) opened
      · rintro _ ⟨⟩
        refine ⟨(unspent_row inv.server unspent member hash).1, ?_⟩
        show Running (world.requests.set 0 _) tx
        rw [requests, opened]
        exact ⟨_, List.mem_singleton_self _, none, rfl⟩
  · cases taken

theorem step_inv (collisionFree : Function.Injective sha256) {action : Action Token}
    (inv : Inv sha256 family world.toWire) (answers : ∀ index, action ≠ .finish index true)
    (taken : step sha256 family world action = some next) : Inv sha256 family next.toWire := by
  cases action with
  | api retryOnAuthFailure now csrfThrows =>
      cases taken
      exact start_inv inv now csrfThrows
  | restore csrfThrows =>
      cases taken
      exact refresh_inv inv csrfThrows
  | resume index now csrfThrows => exact resume_inv inv taken
  | respond index status csrfThrows => exact respond_inv inv taken
  | receive index tx => exact receive_inv collisionFree inv taken
  | refuse index => exact refuse_inv inv taken
  | serve action =>
      rw [step, serve] at taken
      split at taken
      · rename_i foreign
        obtain ⟨server, served, rfl⟩ := Option.map_eq_some_iff.mp taken
        exact serve_inv collisionFree inv foreign served
      · cases taken
  | finish index raises =>
      cases raises with
      | false => exact finish_inv inv taken
      | true => exact absurd rfl (answers index)
  | deliver index now session deleted => exact deliver_inv inv taken

/-- A request presents a token that was never exchanged. -/
theorem received_unexchanged {index : Nat} {tx : TxId} (inv : Inv sha256 family world.toWire)
    (taken : receive sha256 world index tx = some next) {request : Request Token}
    (found : world.requests[index]? = some request) {token : Token}
    (presented : request.token = some token) :
    token ∉ exchangedTokens world.server.journal := by
  rw [receive] at taken
  split at taken
  · rename_i other promise listed
    rw [found] at listed
    cases listed
    cases presented
    obtain ⟨_, _, cookie, ok⟩ := sent_cases inv.standing found
    exact unspent_unexchanged inv.server inv.known (ok token cookie.symm)
  · cases taken

/-! An exchange that is committed and answered with 500. -/

/-- The request is in no transaction and brings no cookie. -/
def Progress.Stalled : Progress Token → Prop
  | .sent | .raised | .answered none => True
  | .running _ _ | .committed _ | .answered (some _) => False

/-- The page is left with a token that was exchanged, and nothing else of its
family is at work. -/
structure Lost (sha256 : Token → Digest) (family : Uuid) (wire : Wire Token Digest) : Prop where
  server : Inv sha256 family { server := wire.server, cookie := none }
  single : wire.refreshInFlight = none → wire.requests = []
  few : wire.requests.length ≤ 1
  cookie : ∀ token, wire.cookie = some token → token ∈ exchangedTokens wire.server.journal
  requests : ∀ request ∈ wire.requests, request.progress.Stalled ∧
    ∀ token, request.token = some token → token ∈ exchangedTokens wire.server.journal

omit [DecidableEq Token] [DecidableEq Digest] in
/-- The one request of the page presents its cookie. -/
theorem lost_request {wire : Wire Token Digest} {request : Request Token}
    (server : Inv sha256 family { server := wire.server, cookie := none })
    (flying : wire.refreshInFlight ≠ none) (requests : wire.requests = [request])
    (stalled : request.progress.Stalled) (presented : request.token = wire.cookie)
    (spent : ∀ token, wire.cookie = some token → token ∈ exchangedTokens wire.server.journal) :
    Lost sha256 family wire where
  server := server
  single := fun free => absurd free flying
  few := Nat.le_of_eq (congrArg List.length requests)
  cookie := spent
  requests := by
    intro other member
    rw [requests, List.mem_singleton] at member
    subst member
    exact ⟨stalled, fun token named => spent token (presented.symm.trans named)⟩

omit [DecidableEq Token] [DecidableEq Digest] in
theorem finish_lost {index : Nat} (inv : Inv sha256 family world.toWire)
    (taken : world.finish index true = some next) : Lost sha256 family next.toWire := by
  rw [World.finish] at taken
  split at taken
  · rename_i token promise minted found
    cases taken
    obtain ⟨rfl, requests, same, spent, -⟩ := committed_cases inv.standing found
    have later : world.requests.set 0 ⟨token, promise, .raised⟩ =
        [⟨token, promise, .raised⟩] := by rw [requests]; rfl
    refine lost_request ?_ ?_ later trivial same spent
    · exact {
        server := inv.server
        known := inv.known
        single := fun _ => rfl
        standing := .idle fun _ named => nomatch named
        holders := by
          intro tx phase held touches
          obtain ⟨request, member, running, progress⟩ := inv.holders tx phase held touches
          rw [requests] at member
          cases List.mem_singleton.mp member
          cases progress
        spared := inv.spared }
    · intro free
      have empty := inv.single free
      rw [requests] at empty
      cases empty
  · cases taken

omit [DecidableEq Token] [DecidableEq Digest] in
theorem refresh_lost (lost : Lost sha256 family world.toWire) (csrfThrows : Bool) :
    Lost sha256 family (world.refresh csrfThrows).2.toWire := by
  rw [World.refresh]
  split
  · exact lost
  · rename_i free
    split
    · exact { lost with single := fun same => nomatch same }
    · have later : world.requests ++ [⟨world.cookie, world.promises.length, .sent⟩] =
          [⟨world.cookie, world.promises.length, .sent⟩] := by rw [lost.single free]; rfl
      exact lost_request lost.server (fun same => nomatch same) later trivial rfl lost.cookie

omit [DecidableEq Token] [DecidableEq Digest] in
theorem start_lost (lost : Lost sha256 family world.toWire) (now : Nat) (csrfThrows : Bool) :
    Lost sha256 family (world.start now csrfThrows).2.toWire := by
  rw [World.start]
  split
  · exact refresh_lost lost csrfThrows
  · exact lost

omit [DecidableEq Token] [DecidableEq Digest] in
theorem resume_lost {index now : Nat} {csrfThrows : Bool} (lost : Lost sha256 family world.toWire)
    (taken : world.resume index now csrfThrows = some next) : Lost sha256 family next.toWire := by
  rw [World.resume] at taken
  split at taken
  · split at taken
    · split at taken
      · cases taken
        exact lost
      · split at taken
        · cases taken
          exact start_lost lost now csrfThrows
        · cases taken
          exact lost
    · cases taken
  · cases taken

omit [DecidableEq Token] [DecidableEq Digest] in
theorem respond_lost {index : Nat} {status : Option Nat} {csrfThrows : Bool}
    (lost : Lost sha256 family world.toWire)
    (taken : world.respond index status csrfThrows = some next) : Lost sha256 family next.toWire := by
  rw [World.respond] at taken
  split at taken
  · split at taken
    · cases taken
      exact refresh_lost lost csrfThrows
    · split at taken
      · cases taken
        exact lost
      · cases taken
        exact lost
  · cases taken

omit [DecidableEq Token] [DecidableEq Digest] in
theorem refuse_lost {index : Nat} (lost : Lost sha256 family world.toWire)
    (taken : world.refuse index = some next) : Lost sha256 family next.toWire := by
  rw [World.refuse] at taken
  split at taken
  · rename_i token promise found
    cases taken
    have listed := List.mem_of_getElem? found
    constructor
    case server => exact lost.server
    case single =>
      intro free
      rw [lost.single free] at listed
      cases listed
    case few => exact le_of_eq_of_le (List.length_set ..) lost.few
    case cookie => exact lost.cookie
    case requests =>
      intro request member
      rcases List.mem_or_eq_of_mem_set member with old | rfl
      · exact lost.requests request old
      · exact ⟨trivial, (lost.requests _ listed).2⟩
  · cases taken

omit [DecidableEq Token] [DecidableEq Digest] in
/-- No answer brings a new cookie. -/
theorem settled_lost {wire : Wire Token Digest} (lost : Lost sha256 family wire) {index : Nat}
    {cookie : Option Token} (kept : ∀ token, cookie = some token → wire.cookie = some token)
    (listed : index < wire.requests.length) :
    Lost sha256 family ⟨wire.server, cookie, wire.requests.eraseIdx index, none⟩ := by
  have few := lost.few
  have empty : wire.requests.eraseIdx index = [] := by
    rw [← List.length_eq_zero_iff, List.length_eraseIdx_of_lt listed]
    omega
  rw [empty]
  exact {
    server := lost.server
    single := fun _ => rfl
    few := Nat.zero_le 1
    cookie := fun token named => lost.cookie token (kept token named)
    requests := fun _ member => nomatch member }

omit [DecidableEq Token] [DecidableEq Digest] in
theorem deliver_lost {index now : Nat} {session : Option Session} {deleted : Bool}
    (lost : Lost sha256 family world.toWire)
    (taken : world.deliver index now session deleted = some next) :
    Lost sha256 family next.toWire := by
  rw [World.deliver] at taken
  split at taken
  · rename_i token promise cookie found
    cases cookie with
    | some fresh => exact (lost.requests _ (List.mem_of_getElem? found)).1.elim
    | none =>
        cases taken
        refine settled_lost lost (fun kept named => ?_) (List.getElem?_eq_some_iff.mp found).1
        dsimp only at named
        split at named
        · cases named
        · exact named
  · rename_i found
    cases taken
    exact settled_lost lost (fun _ named => named) (List.getElem?_eq_some_iff.mp found).1
  · cases taken

theorem serve_lost (collisionFree : Function.Injective sha256)
    {action : SessionStore.Action Token} (lost : Lost sha256 family world.toWire)
    (taken : serve sha256 family world action = some next) : Lost sha256 family next.toWire := by
  rw [serve] at taken
  split at taken
  · rename_i foreign
    obtain ⟨server, served, rfl⟩ := Option.map_eq_some_iff.mp taken
    have grows := exchanged_grows lost.server.server served
    have same : world.requests.map (follow server action) = world.requests := by
      apply followed_same
      rintro tx _ ⟨request, member, minted, progress⟩
      have stalled := (lost.requests request member).1
      rw [progress] at stalled
      exact stalled
    constructor
    case server => exact serve_inv collisionFree lost.server foreign served
    case single => exact fun free => same.trans (lost.single free)
    case few => exact le_of_eq_of_le (congrArg List.length same) lost.few
    case cookie => exact fun token named => grows (lost.cookie token named)
    case requests =>
      intro request member
      obtain ⟨stalled, spent⟩ := lost.requests request (same ▸ member)
      exact ⟨stalled, fun token named => grows (spent token named)⟩
  · cases taken

theorem step_lost (collisionFree : Function.Injective sha256) {action : Action Token}
    (lost : Lost sha256 family world.toWire) (quits : ∀ index tx, action ≠ .receive index tx)
    (taken : step sha256 family world action = some next) : Lost sha256 family next.toWire := by
  cases action with
  | api retryOnAuthFailure now csrfThrows =>
      cases taken
      exact start_lost lost now csrfThrows
  | restore csrfThrows =>
      cases taken
      exact refresh_lost lost csrfThrows
  | resume index now csrfThrows => exact resume_lost lost taken
  | respond index status csrfThrows => exact respond_lost lost taken
  | receive index tx => exact absurd rfl (quits index tx)
  | refuse index => exact refuse_lost lost taken
  | serve action => exact serve_lost collisionFree lost taken
  | finish index raises =>
      simp only [step, World.finish] at taken
      split at taken
      · rename_i found
        exact (lost.requests _ (List.mem_of_getElem? found)).1.elim
      · cases taken
  | deliver index now session deleted => exact deliver_lost lost taken

end Serves

end Worlds

end Steps

/-- The page is loaded: its cookie can be exchanged, and nobody else is at work
with a token of its family. -/
structure Loaded {Token Digest : Type} [DecidableEq Token] [DecidableEq Digest]
    (sha256 : Token → Digest) (family : Uuid) (server : SessionStore.State Token Digest)
    (cookie : Option Token) : Prop where
  reached : ∃ history, run (SessionStore.step sha256) SessionStore.initial history = some server
  cookie : CookieOk sha256 family server cookie
  alone : Holders family server []
  spared : Spared family server

section Runs
variable {Token Digest : Type} [DecidableEq Token] [DecidableEq Digest] {sha256 : Token → Digest}
  {family : Uuid} {server : SessionStore.State Token Digest} {cookie : Option Token}

theorem loaded_inv (collisionFree : Function.Injective sha256)
    (loaded : Loaded sha256 family server cookie) :
    Inv sha256 family { server := server, cookie := cookie } := by
  obtain ⟨history, ran⟩ := loaded.reached
  obtain ⟨inv, known⟩ := run_consistent collisionFree ran
  exact ⟨inv, known, fun _ => rfl, .idle loaded.cookie, loaded.alone, loaded.spared⟩

/-- What one page promises of a run: one refresh is in flight at most, none
presents a token that was exchanged, and no detected reuse revokes the family. -/
structure NeverReuses (sha256 : Token → Digest) (family : Uuid) (world : World Token Digest)
    (actions : List (Action Token)) : Prop where
  single : ∀ visited, Visits (step sha256 family) world actions visited →
    visited.requests.length ≤ 1
  spared : ∀ visited, Visits (step sha256 family) world actions visited →
    Spared family visited.server
  fresh : ∀ visited index tx next request token,
    Takes (step sha256 family) world actions visited (.receive index tx) next →
    visited.requests[index]? = some request → request.token = some token →
    token ∉ exchangedTokens visited.server.journal

/-- Once an exchange has committed and its route has raised, the server takes
no refresh of the page any more. -/
def Quits (actions : List (Action Token)) : Prop :=
  ∀ before index after, actions = before ++ .finish index true :: after →
    ∀ other tx, .receive other tx ∉ after

omit [DecidableEq Token] in
theorem quits_rest {action : Action Token} {rest : List (Action Token)}
    (quits : Quits (action :: rest)) : Quits rest :=
  fun before index after split => quits (action :: before) index after (by rw [split]; rfl)

omit [DecidableEq Token] in
theorem quits_cons {action : Action Token} {rest : List (Action Token)}
    (answers : ∀ index, action ≠ .finish index true) (quits : Quits rest) :
    Quits (action :: rest) := by
  intro before index after split
  cases before with
  | nil => exact absurd (List.cons.inj split).1 (answers index)
  | cons first before => exact quits before index after (List.cons.inj split).2

/-- A page whose cookie is good or spent for nothing. -/
def Kept (sha256 : Token → Digest) (family : Uuid) (world : World Token Digest) : Prop :=
  Inv sha256 family world.toWire ∨ Lost sha256 family world.toWire

variable {world next : World Token Digest} {action : Action Token} {actions : List (Action Token)}

omit [DecidableEq Token] [DecidableEq Digest] in
theorem kept_single (kept : Kept sha256 family world) :
    world.requests.length ≤ 1 ∧ Spared family world.server := by
  rcases kept with inv | lost
  · exact ⟨standing_single inv.standing, inv.spared⟩
  · exact ⟨lost.few, lost.server.spared⟩

/-- A page that is lost stays so while the server takes none of its refreshes. -/
theorem run_lost (collisionFree : Function.Injective sha256)
    (lost : Lost sha256 family world.toWire) (quits : ∀ other tx, .receive other tx ∉ actions)
    {final : World Token Digest} (ran : run (step sha256 family) world actions = some final) :
    Lost sha256 family final.toWire := by
  have each : ∀ action ∈ actions, ∀ index tx, action ≠ .receive index tx := by
    rintro action member index tx rfl
    exact quits index tx member
  exact guarded_invariant (fun world => Lost sha256 family world.toWire)
    (fun _ _ _ lost quits taken => step_lost collisionFree lost quits taken) ran
    (meets_of_all each) lost

/-- As long as every committed exchange is answered with its cookie. -/
theorem run_inv (collisionFree : Function.Injective sha256)
    (inv : Inv sha256 family world.toWire) (answers : ∀ index, .finish index true ∉ actions)
    {final : World Token Digest} (ran : run (step sha256 family) world actions = some final) :
    Inv sha256 family final.toWire := by
  have each : ∀ action ∈ actions, ∀ index, action ≠ .finish index true := by
    rintro action member index rfl
    exact answers index member
  exact guarded_invariant (fun world => Inv sha256 family world.toWire)
    (fun _ _ _ inv answers taken => step_inv collisionFree inv answers taken) ran
    (meets_of_all each) inv

/-- The page keeps a good cookie until a route raises behind its commit. -/
theorem run_kept (collisionFree : Function.Injective sha256)
    (inv : Inv sha256 family world.toWire) (quits : Quits actions) {final : World Token Digest}
    (ran : run (step sha256 family) world actions = some final) : Kept sha256 family final := by
  induction actions generalizing world with
  | nil =>
      cases ran
      exact Or.inl inv
  | cons action rest ih =>
      obtain ⟨next, taken, onward⟩ := (run_cons_iff _ _ _ _).mp ran
      by_cases raises : ∃ index, action = .finish index true
      · obtain ⟨index, rfl⟩ := raises
        exact Or.inr (run_lost collisionFree (finish_lost inv taken) (quits [] index rest rfl) onward)
      · have answers : ∀ index, action ≠ .finish index true :=
          fun index same => raises ⟨index, same⟩
        exact ih (step_inv collisionFree inv answers taken) (quits_rest quits) onward

theorem fresh_later (taken : step sha256 family world action = some next)
    (fresh : NeverReuses sha256 family world (action :: actions)) :
    NeverReuses sha256 family next actions where
  single := fun visited visits => fresh.single visited (visits_later taken visits)
  spared := fun visited visits => fresh.spared visited (visits_later taken visits)
  fresh := by
    rintro visited index tx other request token ⟨before, after, rfl, reached, received⟩
    exact fresh.fresh visited index tx other request token ⟨action :: before, after, rfl,
      (run_cons_iff _ _ _ _).mpr ⟨next, taken, reached⟩, received⟩

/-- A lost page that goes on presents the spent token. -/
theorem lost_quits (collisionFree : Function.Injective sha256)
    (lost : Lost sha256 family world.toWire) (fresh : NeverReuses sha256 family world actions)
    {final : World Token Digest} (ran : run (step sha256 family) world actions = some final) :
    ∀ other tx, .receive other tx ∉ actions := by
  induction actions generalizing world with
  | nil => exact fun _ _ member => nomatch member
  | cons action rest ih =>
      obtain ⟨next, taken, onward⟩ := (run_cons_iff _ _ _ _).mp ran
      have quits : ∀ index tx, action ≠ .receive index tx := by
        rintro index tx rfl
        have received := taken
        rw [step, receive] at received
        split at received
        · rename_i token promise found
          exact fresh.fresh world index tx next _ token ⟨[], rest, rfl, rfl, taken⟩ found rfl
            ((lost.requests _ (List.mem_of_getElem? found)).2 token rfl)
        · cases received
      have later := ih (step_lost collisionFree lost quits taken) (fresh_later taken fresh) onward
      intro other tx member
      rcases List.mem_cons.mp member with same | after
      · exact quits other tx same.symm
      · exact later other tx after

theorem fresh_quits (collisionFree : Function.Injective sha256)
    (inv : Inv sha256 family world.toWire) (fresh : NeverReuses sha256 family world actions)
    {final : World Token Digest} (ran : run (step sha256 family) world actions = some final) :
    Quits actions := by
  induction actions generalizing world with
  | nil =>
      intro before index after split
      cases before <;> cases split
  | cons action rest ih =>
      obtain ⟨next, taken, onward⟩ := (run_cons_iff _ _ _ _).mp ran
      -- up to the first 500 the page keeps a good cookie, from there on it is lost
      by_cases raises : ∃ index, action = .finish index true
      · obtain ⟨index, rfl⟩ := raises
        have none := lost_quits collisionFree (finish_lost inv taken) (fresh_later taken fresh) onward
        intro before other after split
        cases before with
        | nil =>
            rw [← (List.cons.inj split).2]
            exact none
        | cons first before =>
            intro later tx member
            refine none later tx ?_
            rw [(List.cons.inj split).2]
            exact List.mem_append_right _ (List.mem_cons_of_mem _ member)
      · have answers : ∀ index, action ≠ .finish index true :=
          fun index same => raises ⟨index, same⟩
        exact quits_cons answers
          (ih (step_inv collisionFree inv answers taken) (fresh_later taken fresh) onward)

/-- However the calls of `api` and `refresh` interleave with the server, one
refresh is in flight at most, none presents a token that was exchanged and no
detected reuse revokes the family, exactly if the server takes no refresh of
the page after an exchange whose route raised behind the commit. -/
theorem never_reuses_iff (collisionFree : Function.Injective sha256)
    (loaded : Loaded sha256 family server cookie) (actions : List (Action Token))
    (final : World Token Digest)
    (ran : run (step sha256 family) { server := server, cookie := cookie } actions = some final) :
    NeverReuses sha256 family { server := server, cookie := cookie } actions ↔ Quits actions := by
  have inv : Inv sha256 family { server := server, cookie := cookie } :=
    loaded_inv collisionFree loaded
  constructor
  · exact fun fresh => fresh_quits collisionFree inv fresh ran
  · intro quits
    have kept : ∀ before after visited, actions = before ++ after →
        run (step sha256 family) { server := server, cookie := cookie } before = some visited →
        Kept sha256 family visited := by
      rintro before after visited rfl reached
      refine run_kept collisionFree inv ?_ reached
      intro first index later split other tx member
      refine quits first index (later ++ after) ?_ other tx (List.mem_append_left _ member)
      rw [split, List.append_assoc, List.cons_append]
    constructor
    case single =>
      rintro visited ⟨before, after, split, reached⟩
      exact (kept_single (kept before after visited split reached)).1
    case spared =>
      rintro visited ⟨before, after, split, reached⟩
      exact (kept_single (kept before after visited split reached)).2
    case fresh =>
      rintro visited index tx next request token ⟨before, after, split, reached, taken⟩ found named
      have answers : ∀ other, .finish other true ∉ before := by
        intro other member
        obtain ⟨first, middle, rfl⟩ := List.append_of_mem member
        refine quits first other (middle ++ .receive index tx :: after) ?_ index tx
          (List.mem_append_right _ List.mem_cons_self)
        rw [split, List.append_assoc, List.cons_append]
      exact received_unexchanged (run_inv collisionFree inv answers reached) taken found named

end Runs

def login : List (SessionStore.Action Nat) :=
  [.createSession 1 none 10 20 30 40 100 5000, .commit 1, .setUsable 20 true]

/-- Two calls are answered with 401 while the first refresh is on its way; a
third answer comes when it is over. -/
def lateAnswers : List (Action Nat) :=
  [.api true 0 false, .api true 0 false, .api true 0 false, .respond 0 (some 401) false,
    .receive 0 7, .respond 1 (some 401) false, .serve (.decide 7 1000 11 101),
    .serve (.touchDevice 7), .serve (.commit 7), .finish 0 false,
    .deliver 0 0 (some ⟨"a", 900⟩) false, .respond 2 (some 401) false, .resume 0 0 false,
    .resume 1 0 false, .receive 0 8, .serve (.decide 8 1001 12 102), .serve (.touchDevice 8),
    .serve (.commit 8)]

/-- After a login, a page with its cookie. -/
theorem login_loaded : ∃ server : SessionStore.State Nat Nat,
    run (SessionStore.step id) SessionStore.initial login = some server ∧
      Loaded id 40 server (some 100) := by
  obtain ⟨server, reached, sessions, idle⟩ : ∃ server : SessionStore.State Nat Nat,
      run (SessionStore.step id) SessionStore.initial login = some server ∧
        server.sessions = [newSession 10 20 30 40 100 5000] ∧ ∀ tx, server.txs tx = none := by
    refine ⟨_, rfl, rfl, fun tx => ?_⟩
    show assign (assign (fun _ => none) 1 _) 1 none tx = none
    by_cases same : tx = 1
    · rw [same, assign_same]
    · rw [assign_other _ _ same, assign_other _ _ same]
  refine ⟨server, reached, ⟨login, reached⟩, ?_, fun tx phase held => ?_, fun tx work held => ?_⟩
  · rintro _ ⟨⟩
    rw [Unspent, sessions]
    exact ⟨_, List.mem_singleton_self _, rfl, rfl, rfl⟩
  · rw [idle] at held
    cases held
  · rw [idle] at held
    cases held

theorem late_answers_refresh : ∃ (server : SessionStore.State Nat Nat) (final : World Nat Nat),
    run (step id 40) { server := server, cookie := some 100 } lateAnswers = some final ∧
      exchangedTokens final.server.journal = [100, 101] ∧
      NeverReuses id 40 { server := server, cookie := some 100 } lateAnswers := by
  obtain ⟨server, reached, loaded⟩ := login_loaded
  obtain ⟨final, ran, exchanged⟩ : ∃ final : World Nat Nat,
      run (step id 40) { server := server, cookie := some 100 } lateAnswers = some final ∧
        exchangedTokens final.server.journal = [100, 101] := by
    cases reached
    exact ⟨_, rfl, rfl⟩
  refine ⟨server, final, ran, exchanged,
    (never_reuses_iff Function.injective_id loaded lateAnswers final ran).mpr ?_⟩
  intro before index after split
  have raised : .finish index true ∈ lateAnswers := by
    rw [split]
    exact List.mem_append_right _ List.mem_cons_self
  simp [lateAnswers] at raised

/-- The exchange of the first refresh commits, and the write to Redis behind it
raises; the next answer of 401 makes the page present the same token. -/
def unansweredExchange : List (Action Nat) :=
  [.api true 0 false, .api true 0 false, .respond 0 (some 401) false, .receive 0 7,
    .serve (.decide 7 1000 11 101), .serve (.touchDevice 7), .serve (.commit 7), .finish 0 true,
    .deliver 0 0 none false, .respond 1 (some 401) false, .receive 0 8,
    .serve (.decide 8 1001 12 102), .serve (.startUpdate 8 1001), .serve (.reachRow 8 10),
    .serve (.reachRow 8 11), .serve (.commit 8)]

theorem unanswered_exchange_reused : ∃ (server : SessionStore.State Nat Nat)
    (final : World Nat Nat), Loaded id 40 server (some 100) ∧
      run (step id 40) { server := server, cookie := some 100 } unansweredExchange = some final ∧
      .answered 100 (.rejected .reuseDetected) ∈ final.server.journal ∧
      (final.server.sessions.all fun row => row.revokedAt.isSome) = true ∧
      ¬NeverReuses id 40 { server := server, cookie := some 100 } unansweredExchange := by
  obtain ⟨server, reached, loaded⟩ := login_loaded
  cases reached
  refine ⟨_, _, loaded, rfl, by decide, by decide, fun fresh => ?_⟩
  exact fresh.fresh _ 0 8 _ _ 100 ⟨unansweredExchange.take 10, unansweredExchange.drop 11, rfl, rfl,
    rfl⟩ rfl rfl (by decide)

end RunnerupChat.RefreshClient
