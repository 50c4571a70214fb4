import RunnerupChat.History
import RunnerupChat.SessionInvariant

/-!
Refresh-token families. In every state each family is one linear chain of
sessions, and the journal of answers agrees with the rows: a token was
exchanged exactly when its row is spent.
-/

namespace RunnerupChat.SessionStore

open Accounts

variable {Token Digest : Type}

/-- What one step does to the committed rows and to the journal. -/
inductive Outcome (sha256 : Token → Digest) (state : State Token Digest) (action : Action Token)
    (next : State Token Digest) : Prop
  | silent (rows : next.sessions = state.sessions) (added : next.journal = state.journal)
  | refused (token : Token) (answer : RefreshRejected) (rows : next.sessions = state.sessions)
      (added : next.journal = state.journal ++ [.answered token (.rejected answer)])
      (other : answer ≠ .reuseDetected)
      (unspent : ∀ row ∈ state.sessions, row.refreshHash = sha256 token → row.rotatedAt = none)
  | committed (tx : TxId) (phase : Phase Token Digest) (entries : List (Entry Token))
      (commits : action = .commit tx) (opened : state.txs tx = some phase)
      (done : committed state.sessions phase = some (next.sessions, entries))
      (added : next.journal = state.journal ++ entries)

section Outcomes
variable {sha256 : Token → Digest} {state next : State Token Digest} {action : Action Token}

theorem open_revocation_outcome {tx : TxId} {todo : List Target} {reason : String}
    (taken : openRevocation state tx todo reason = some next) :
    Outcome sha256 state action next := by
  unfold openRevocation at taken
  split at taken
  · cases taken
  · cases taken
    exact .silent rfl rfl

theorem select_for_update_outcome [DecidableEq Digest] {tx : TxId} {token : Token}
    (taken : selectForUpdate sha256 state tx token = some next) :
    Outcome sha256 state action next := by
  unfold selectForUpdate at taken
  split at taken
  · cases taken
  · split at taken
    · rename_i unknown
      cases taken
      refine .refused token .unknownToken rfl rfl (by decide) ?_
      intro row member same
      simpa [same] using List.find?_eq_none.mp unknown row member
    · split at taken
      · cases taken
        exact .silent rfl rfl
      · cases taken

theorem decide_rotation_outcome [DecidableEq Token] (inv : Inv sha256 state) {tx : TxId}
    {now : Time} {nextId : Uuid} {nextToken : Token}
    (taken : decideRotation sha256 state tx now nextId nextToken = some next) :
    Outcome sha256 state action next := by
  unfold decideRotation at taken
  split at taken
  case h_2 => cases taken
  case h_1 token row opened =>
    have held : Held sha256 state.sessions state.locks tx token row := inv.phases tx _ opened
    split at taken
    · cases taken
      exact .silent rfl rfl
    · rename_i answer verdict
      cases taken
      obtain ⟨unspent, other⟩ := judge_rejected verdict
      refine .refused token answer rfl rfl other ?_
      intro found member same
      have only : found = row := List.inj_on_of_nodup_map inv.hashes member held.member
        (same.trans held.hash.symm)
      exact only ▸ unspent
    · split at taken
      · cases taken
        exact .silent rfl rfl
      · cases taken

theorem step_outcome [DecidableEq Token] [DecidableEq Digest] (inv : Inv sha256 state)
    (taken : step sha256 state action = some next) : Outcome sha256 state action next := by
  cases action with
  | createSession tx existing id user device family token expiresAt =>
      simp only [step, createSession] at taken
      split at taken
      · cases taken
        exact .silent rfl rfl
      · cases taken
  | selectForUpdate tx token => exact select_for_update_outcome taken
  | decide tx now nextId nextToken => exact decide_rotation_outcome inv taken
  | touchDevice tx =>
      simp only [step, touchDevice] at taken
      split at taken
      · split at taken
        · cases taken
          exact .silent rfl rfl
        · cases taken
      · cases taken
  | revokeSession tx session user reason =>
      simp only [step, revokeSession] at taken
      split at taken
      · cases taken
        exact .silent rfl rfl
      · exact open_revocation_outcome taken
  | revokeAllForUser tx user exceptSession reason => exact open_revocation_outcome taken
  | revokeDevice tx device user now =>
      simp only [step, revokeDevice] at taken
      split at taken
      · cases taken
        exact .silent rfl rfl
      · split at taken
        · cases taken
          exact .silent rfl rfl
        · cases taken
  | readSessions tx =>
      simp only [step, readSessions] at taken
      split at taken
      · cases taken
        exact .silent rfl rfl
      · cases taken
  | startUpdate tx now =>
      simp only [step, startUpdate] at taken
      split at taken
      · split at taken
        · cases taken
          exact .silent rfl rfl
        · cases taken
      · cases taken
  | reachRow tx session =>
      simp only [step, reachRow] at taken
      split at taken
      · split at taken
        · cases taken
          exact .silent rfl rfl
        · cases taken
      · cases taken
  | commit tx =>
      simp only [step, commit] at taken
      split at taken
      case h_1 => cases taken
      case h_2 phase opened =>
        obtain ⟨⟨rows, entries⟩, done, rfl⟩ := Option.map_eq_some_iff.mp taken
        exact .committed tx phase entries rfl opened done rfl
  | rollback tx =>
      simp only [step] at taken
      split at taken
      · cases taken
        exact .silent rfl rfl
      · cases taken
  | setUsable user usable =>
      cases taken
      exact .silent rfl rfl

end Outcomes

/-! The chain of a family. -/

section Chains

def chainShape (Digest : Type) :
    Lineage.Shape (UserSession Digest) Uuid (Uuid × Uuid × Time) where
  keyOf := UserSession.id
  previous := UserSession.previousId
  spent := fun row => row.rotatedAt.isSome
  owner := fun row => (row.userId, row.deviceId, row.expiresAt)

def FamilyChain (family : Uuid) (rows : List (UserSession Digest)) : Prop :=
  Lineage.Chain (chainShape Digest) (familyRows family rows)

def AllChains (rows : List (UserSession Digest)) : Prop :=
  ∀ family, Present family rows → FamilyChain family rows

theorem Evolves.chain {row later : UserSession Digest} (evolves : Evolves row later) :
    (chainShape Digest).keyOf later = (chainShape Digest).keyOf row ∧
      (chainShape Digest).previous later = (chainShape Digest).previous row ∧
      (chainShape Digest).owner later = (chainShape Digest).owner row := by
  have same := evolves.same
  simp only [UserSession.identity, Prod.mk.injEq] at same
  obtain ⟨id, user, device, _, _, previous, expires⟩ := same
  exact ⟨id, previous, by simp [chainShape, user, device, expires]⟩

theorem family_rows_map (family : Uuid) (change : UserSession Digest → UserSession Digest)
    (kept : ∀ row, (change row).familyId = row.familyId) (rows : List (UserSession Digest)) :
    familyRows family (rows.map change) = (familyRows family rows).map change := by
  simp [familyRows, List.filter_map, Function.comp_def, kept]

theorem family_rows_append (family : Uuid) (rows more : List (UserSession Digest)) :
    familyRows family (rows ++ more) = familyRows family rows ++ familyRows family more := by
  simp [familyRows]

theorem family_rows_empty {family : Uuid} {rows : List (UserSession Digest)}
    (absent : ¬Present family rows) : familyRows family rows = [] := by
  apply List.filter_eq_nil_iff.mpr
  intro row member same
  exact absent ⟨row, member, by simpa using same⟩

/-- A commit that only rewrites rows, and spends none of them, keeps the chains. -/
theorem chains_rewrite {rows : List (UserSession Digest)}
    (change : UserSession Digest → UserSession Digest) (chains : AllChains rows)
    (evolves : ∀ row, Evolves row (change row))
    (unspent : ∀ row, (change row).rotatedAt = row.rotatedAt) :
    AllChains (rows.map change) := by
  rintro family ⟨row, member, same⟩
  obtain ⟨before, old, rfl⟩ := List.mem_map.mp member
  unfold FamilyChain
  rw [family_rows_map family change fun other => (evolves other).familyId]
  apply Lineage.chain_rewrite change
    (chains family ⟨before, old, (evolves before).familyId ▸ same⟩)
  intro other
  obtain ⟨key, previous, owner⟩ := (evolves other).chain
  exact ⟨key, previous, owner, by simp [chainShape, unspent other]⟩

/-- A new login starts a chain of its own. -/
theorem chains_create {rows : List (UserSession Digest)} {new : UserSession Digest}
    (chains : AllChains rows) (apart : ∀ other ∈ rows, Apart new other)
    (root : new.previousId = none) (unspent : new.rotatedAt = none) :
    AllChains (rows ++ [new]) := by
  have absent : ¬Present new.familyId rows := by
    rintro ⟨other, member, same⟩
    exact (apart other member).family root same.symm
  rintro family ⟨row, member, same⟩
  unfold FamilyChain
  rw [family_rows_append]
  by_cases own : family = new.familyId
  · rw [own, family_rows_empty absent]
    simp [familyRows, Lineage.Chain, Lineage.Follows, chainShape, root, unspent]
  · have old : row ∈ rows := by
      rcases List.mem_append.mp member with old | added
      · exact old
      · rw [List.mem_singleton.mp added] at same
        exact absurd same.symm own
    have none : familyRows family [new] = [] := by
      simp [familyRows, Ne.symm own]
    rw [none, List.append_nil]
    exact chains family ⟨row, old, same⟩

/-- A rotation spends the last link of one chain and appends the next. -/
theorem chains_rotate {rows : List (UserSession Digest)} {row : UserSession Digest} {now : Time}
    {id : Uuid} {hash : Digest} (chains : AllChains rows) (distinct : (rows.map (·.id)).Nodup)
    (member : row ∈ rows) (live : row.live = true) :
    AllChains ((rows.map fun other => if other.id = row.id then spend now other else other)
      ++ [successor row id hash]) := by
  have evolves : ∀ other : UserSession Digest,
      Evolves other (if other.id = row.id then spend now other else other) := by
    intro other
    split
    · exact spend_evolves now other
    · exact evolves_refl other
  have only : ∀ other ∈ rows, other.id = row.id → other = row := fun other inside same =>
    List.inj_on_of_nodup_map distinct inside member same
  rintro family ⟨found, inside, same⟩
  unfold FamilyChain
  rw [family_rows_append, family_rows_map family _ fun other => (evolves other).familyId]
  -- only the family of the spent session grows
  by_cases own : family = row.familyId
  · have joins : familyRows family [successor row id hash] = [successor row id hash] := by
      simp [familyRows, successor, own]
    rw [joins]
    apply Lineage.chain_extend _ (chains family ⟨row, member, own.symm⟩)
      (List.mem_filter.mpr ⟨member, by simp [own]⟩)
    · simpa [chainShape, UserSession.live] using (Bool.and_eq_true_iff.mp live).2
    · exact fun other => (evolves other).chain
    · rintro other _ (spent | rfl)
      · exact (evolves other).rotated spent
      · simp [chainShape, spend]
    · rfl
    · rfl
    · rfl
  · have leaves : familyRows family [successor row id hash] = [] := by
      simp [familyRows, successor, Ne.symm own]
    have untouched : (familyRows family rows).map
        (fun other => if other.id = row.id then spend now other else other)
        = familyRows family rows := by
      conv_rhs => rw [← List.map_id (familyRows family rows)]
      apply List.map_congr_left
      intro other inside
      obtain ⟨old, joined⟩ := List.mem_filter.mp inside
      rw [if_neg]
      · rfl
      · intro collides
        rw [only other old collides] at joined
        exact own (beq_iff_eq.mp joined).symm
    rw [leaves, List.append_nil, untouched]
    apply chains family
    rcases List.mem_append.mp inside with kept | added
    · obtain ⟨before, old, rfl⟩ := List.mem_map.mp kept
      exact ⟨before, old, (evolves before).familyId ▸ same⟩
    · rw [List.mem_singleton.mp added] at same
      exact absurd same.symm own

end Chains

/-! The journal of answers. -/

section Answers

def exchangedToken : Entry Token → Option Token
  | .answered token (.exchanged _) => some token
  | _ => none

def exchangedTokens (journal : List (Entry Token)) : List Token :=
  journal.filterMap exchangedToken

/-- An answer is `reuse_detected` exactly when the token was exchanged before it. -/
def ReuseExact : List (Entry Token) → Prop :=
  History.Each fun before entry => ∀ token answer, entry = .answered token answer →
    (answer = .rejected .reuseDetected ↔ token ∈ exchangedTokens before)

theorem exchanged_tokens_append (journal more : List (Entry Token)) :
    exchangedTokens (journal ++ more) = exchangedTokens journal ++ exchangedTokens more := by
  simp [exchangedTokens]

/-- The rows and the journal tell the same history. -/
structure Consistent (sha256 : Token → Digest) (state : State Token Digest) : Prop where
  chains : AllChains state.sessions
  spent : ∀ token, token ∈ exchangedTokens state.journal ↔
    ∃ row ∈ state.sessions, row.refreshHash = sha256 token ∧ row.rotatedAt.isSome = true
  once : (exchangedTokens state.journal).Nodup
  reuse : ReuseExact state.journal

variable {sha256 : Token → Digest} {state next : State Token Digest}

theorem initial_consistent : Consistent sha256 (initial : State Token Digest) where
  chains := by
    rintro family ⟨row, member, _⟩
    simp [initial] at member
  spent := by simp [initial, exchangedTokens]
  once := List.nodup_nil
  reuse := History.each_nil

/-- Journal entries that exchange nothing, over rows that keep their spent tokens. -/
theorem consistent_unspending (holds : Consistent sha256 state) (entries : List (Entry Token))
    (chains : AllChains next.sessions) (added : next.journal = state.journal ++ entries)
    (none : exchangedTokens entries = [])
    (spent : ∀ token, (∃ row ∈ next.sessions, row.refreshHash = sha256 token ∧
        row.rotatedAt.isSome = true) ↔
      ∃ row ∈ state.sessions, row.refreshHash = sha256 token ∧ row.rotatedAt.isSome = true)
    (reuse : ReuseExact next.journal) : Consistent sha256 next where
  chains := chains
  spent := by
    intro token
    rw [added, exchanged_tokens_append, none, List.append_nil, spent]
    exact holds.spent token
  once := by
    rw [added, exchanged_tokens_append, none, List.append_nil]
    exact holds.once
  reuse := reuse

theorem create_consistent (inv : Inv sha256 state) (holds : Consistent sha256 state) {tx : TxId}
    {row : UserSession Digest} {newDevice : Bool}
    (opened : state.txs tx = some (.creating row newDevice))
    (rows : next.sessions = state.sessions ++ [row]) (added : next.journal = state.journal) :
    Consistent sha256 next := by
  obtain ⟨root, live⟩ := inv.phases tx _ opened
  have unspent : row.rotatedAt = none := by
    simpa using (Bool.and_eq_true_iff.mp live).2
  apply consistent_unspending holds []
  · rw [rows]
    exact chains_create holds.chains (inv.fresh tx _ row opened rfl).2 root unspent
  · simp [added]
  · rfl
  · intro token
    simp [rows, or_and_right, exists_or, unspent]
  · rw [added]
    exact holds.reuse

theorem revoke_consistent (inv : Inv sha256 state) (holds : Consistent sha256 state) {tx : TxId}
    {work : Revocation Token} {entries : List (Entry Token)}
    (opened : state.txs tx = some (.revoking work))
    (done : committed state.sessions (.revoking work) = some (next.sessions, entries))
    (added : next.journal = state.journal ++ entries) : Consistent sha256 next := by
  have ok : RevocationOk sha256 state.sessions state.locks tx work := inv.phases tx _ opened
  obtain ⟨_, _, rows, rfl⟩ := committed_revoking done
  let change := fun row : UserSession Digest => if row.id ∈ work.progress.updated then
    revoke (work.stamps row.id) work.reason row else row
  have evolves : ∀ row, Evolves row (change row) := by
    intro row
    simp only [change]
    split
    · exact revoke_evolves _ _ row
    · exact evolves_refl row
  have unspent : ∀ row, (change row).rotatedAt = row.rotatedAt := by
    intro row
    simp only [change]
    split <;> rfl
  have mapped : next.sessions = state.sessions.map change := rows
  apply consistent_unspending holds (.revoked work.covers :: reuseAnswer work.presented)
  · rw [mapped]
    exact chains_rewrite change holds.chains evolves unspent
  · exact added
  · cases presented : work.presented <;> rfl
  · intro token
    simp [mapped, (evolves _).refreshHash, unspent]
  · rw [added]
    have revoked : ReuseExact (state.journal ++ [.revoked work.covers]) :=
      (History.each_snoc_iff _ _).mpr ⟨holds.reuse, by simp⟩
    cases presented : work.presented with
    | none => exact revoked
    | some token =>
        have longer : state.journal ++ .revoked work.covers :: reuseAnswer (some token) =
            (state.journal ++ [.revoked work.covers]) ++
              [.answered token (.rejected .reuseDetected)] := by simp [reuseAnswer]
        rw [longer]
        apply (History.each_snoc_iff _ _).mpr ⟨revoked, ?_⟩
        rintro found answer same
        cases same
        have before : token ∈ exchangedTokens state.journal :=
          (holds.spent token).mpr (ok.presented token presented)
        simp [exchanged_tokens_append, before]

theorem rotate_consistent (collisionFree : Function.Injective sha256) (inv : Inv sha256 state)
    (holds : Consistent sha256 state) {tx : TxId} {token : Token} {row new : UserSession Digest}
    {now : Time} {touched : Bool} {entries : List (Entry Token)}
    (opened : state.txs tx = some (.rotating token row now new touched))
    (done : committed state.sessions (.rotating token row now new touched)
      = some (next.sessions, entries))
    (added : next.journal = state.journal ++ entries) : Consistent sha256 next := by
  obtain ⟨held, live, id, hash, rfl⟩ := inv.phases tx _ opened
  obtain ⟨rows, rfl⟩ := committed_rotating done
  have unspent : row.rotatedAt = none := by
    simpa using (Bool.and_eq_true_iff.mp live).2
  have only : ∀ other ∈ state.sessions, other.id = row.id → other = row := fun other member same =>
    List.inj_on_of_nodup_map inv.ids member held.member same
  -- an exchanged token is the token of a spent row, and this row is live
  have before : token ∉ exchangedTokens state.journal := by
    intro exchanged
    obtain ⟨other, member, same, spent⟩ := (holds.spent token).mp exchanged
    have found : other = row := List.inj_on_of_nodup_map inv.hashes member held.member
      (same.trans held.hash.symm)
    simp [found, unspent] at spent
  have exchanged : exchangedTokens next.journal = exchangedTokens state.journal ++ [token] := by
    rw [added, exchanged_tokens_append]
    rfl
  constructor
  case chains =>
    rw [rows]
    exact chains_rotate holds.chains inv.ids held.member live
  case spent =>
    intro other
    rw [exchanged, List.mem_append, List.mem_singleton, holds.spent, rows]
    constructor
    · rintro (⟨found, member, same, spent⟩ | rfl)
      · refine ⟨_, List.mem_append_left _ (List.mem_map_of_mem member), ?_⟩
        split
        · exact ⟨same, rfl⟩
        · exact ⟨same, spent⟩
      · refine ⟨_, List.mem_append_left _ (List.mem_map_of_mem held.member), ?_⟩
        rw [if_pos rfl]
        exact ⟨held.hash, rfl⟩
    · rintro ⟨found, member, same, spent⟩
      rcases List.mem_append.mp member with kept | fresh
      · obtain ⟨earlier, old, rfl⟩ := List.mem_map.mp kept
        split at same
        · rename_i collides
          rw [only earlier old collides] at same
          exact Or.inr (collisionFree (same.symm.trans held.hash))
        · rename_i distinct
          rw [if_neg distinct] at spent
          exact Or.inl ⟨earlier, old, same, spent⟩
      · rw [List.mem_singleton.mp fresh] at spent
        simp [successor] at spent
  case once =>
    rw [exchanged]
    apply List.nodup_append.mpr ⟨holds.once, List.nodup_singleton token, ?_⟩
    rintro other member same inside rfl
    exact before (List.mem_singleton.mp inside ▸ member)
  case reuse =>
    rw [added]
    apply (History.each_snoc_iff _ _).mpr ⟨holds.reuse, ?_⟩
    rintro found answer same
    cases same
    simp [before]

theorem step_consistent [DecidableEq Token] [DecidableEq Digest]
    (collisionFree : Function.Injective sha256) (inv : Inv sha256 state)
    (holds : Consistent sha256 state) {action : Action Token}
    (taken : step sha256 state action = some next) : Consistent sha256 next := by
  cases step_outcome inv taken with
  | silent rows added =>
      exact ⟨rows ▸ holds.chains, by rw [rows, added]; exact holds.spent,
        added ▸ holds.once, added ▸ holds.reuse⟩
  | refused token answer rows added other unspent =>
      apply consistent_unspending holds [.answered token (.rejected answer)]
      · exact rows ▸ holds.chains
      · exact added
      · rfl
      · simp [rows]
      · rw [added]
        apply (History.each_snoc_iff _ _).mpr ⟨holds.reuse, ?_⟩
        rintro found given same
        cases same
        have before : token ∉ exchangedTokens state.journal := by
          intro exchanged
          obtain ⟨row, member, hash, spent⟩ := (holds.spent token).mp exchanged
          simp [unspent row member hash] at spent
        simp [before, other]
  | committed tx phase entries commits opened done added =>
      cases phase with
      | creating row newDevice =>
          simp only [committed, Option.some.injEq, Prod.mk.injEq] at done
          obtain ⟨rows, rfl⟩ := done
          exact create_consistent inv holds opened rows.symm (by simpa using added)
      | leaving device now => simp [committed] at done
      | locked token row => simp [committed] at done
      | rotating token row now new touched =>
          exact rotate_consistent collisionFree inv holds opened done added
      | revoking work => exact revoke_consistent inv holds opened done added

end Answers

section Families
variable {sha256 : Token → Digest}

/-- One linear chain through `previous_id`, spelled out. -/
structure LinearFamily (members : List (UserSession Digest)) : Prop where
  chain : Lineage.Chain (chainShape Digest) members
  oneUnrotated : ∃ last, members.filter (fun row => row.rotatedAt.isNone) = [last]
  sameOwner : ∀ one ∈ members, ∀ other ∈ members, one.userId = other.userId ∧
    one.deviceId = other.deviceId ∧ one.expiresAt = other.expiresAt

theorem chain_linear {family : Uuid} {rows : List (UserSession Digest)}
    (chain : FamilyChain family rows) : LinearFamily (familyRows family rows) where
  chain := chain
  oneUnrotated := by
    obtain ⟨last, only⟩ := Lineage.chain_unspent chain
    refine ⟨last, only ▸ List.filter_congr fun row _ => ?_⟩
    simp [chainShape]
  sameOwner := by
    intro one member other another
    have same := Lineage.chain_owner chain one member other another
    simpa [chainShape] using same

/-- A session is the `previous_id` of one session at most, in whichever family. -/
theorem previous_once {rows : List (UserSession Digest)} (chains : AllChains rows)
    (distinct : (rows.map UserSession.id).Nodup) {one other : UserSession Digest}
    (member : one ∈ rows) (another : other ∈ rows) (present : one.previousId ≠ none)
    (same : one.previousId = other.previousId) : one = other := by
  obtain ⟨previous, named⟩ := Option.ne_none_iff_exists'.mp present
  -- both name a predecessor of their own family, and it is one row
  have family : ∀ row ∈ rows, row.previousId = some previous →
      ∃ earlier ∈ rows, earlier.id = previous ∧ earlier.familyId = row.familyId := by
    intro row inside found
    obtain ⟨earlier, listed, key⟩ := Lineage.chain_previous_member
      (chains row.familyId ⟨row, inside, rfl⟩) (List.mem_filter.mpr ⟨inside, by simp⟩) found
    obtain ⟨old, joined⟩ := List.mem_filter.mp listed
    exact ⟨earlier, old, key, by simpa using joined⟩
  obtain ⟨left, leftIn, leftId, leftFamily⟩ := family one member named
  obtain ⟨right, rightIn, rightId, rightFamily⟩ := family other another (same ▸ named)
  have shared : left = right :=
    List.inj_on_of_nodup_map distinct leftIn rightIn (leftId.trans rightId.symm)
  have families : other.familyId = one.familyId := by
    rw [← rightFamily, ← leftFamily, shared]
  exact Lineage.chain_previous_unique (chains one.familyId ⟨one, member, rfl⟩)
    (distinct.sublist (List.filter_sublist.map UserSession.id))
    one (List.mem_filter.mpr ⟨member, by simp⟩)
    other (List.mem_filter.mpr ⟨another, by simp [families]⟩) present same

variable [DecidableEq Token] [DecidableEq Digest]

theorem run_consistent (collisionFree : Function.Injective sha256) {actions : List (Action Token)}
    {final : State Token Digest} (ran : Runs.run (step sha256) initial actions = some final) :
    Inv sha256 final ∧ Consistent sha256 final :=
  Runs.run_invariant (fun state => Inv sha256 state ∧ Consistent sha256 state)
    (fun state action next holds taken =>
      ⟨step_inv collisionFree state action next holds.1 taken,
        step_consistent collisionFree holds.1 holds.2 taken⟩)
    ran ⟨initial_inv sha256, initial_consistent⟩

theorem refresh_families_linear (collisionFree : Function.Injective sha256)
    (actions : List (Action Token)) (final : State Token Digest)
    (ran : Runs.run (step sha256) initial actions = some final) :
    (∀ row ∈ final.sessions, LinearFamily (familyRows row.familyId final.sessions)) ∧
      (∀ one ∈ final.sessions, ∀ other ∈ final.sessions, one.previousId ≠ none →
        one.previousId = other.previousId → one = other) ∧
      (exchangedTokens final.journal).Nodup ∧ ReuseExact final.journal := by
  obtain ⟨inv, holds⟩ := run_consistent collisionFree ran
  have linear : ∀ row ∈ final.sessions,
      LinearFamily (familyRows row.familyId final.sessions) := fun row member =>
    chain_linear (holds.chains row.familyId ⟨row, member, rfl⟩)
  have once : ∀ one ∈ final.sessions, ∀ other ∈ final.sessions, one.previousId ≠ none →
      one.previousId = other.previousId → one = other := fun one member other another =>
    previous_once holds.chains inv.ids member another
  exact ⟨linear, once, holds.once, holds.reuse⟩

/-- One login, one rotation, and the spent token presented again. -/
def replayedToken : List (Action Nat) :=
  [.createSession 1 none 10 20 30 40 100 5000, .commit 1, .setUsable 20 true,
    .selectForUpdate 2 100, .decide 2 1000 11 101, .touchDevice 2, .commit 2,
    .selectForUpdate 3 100, .decide 3 1001 0 0, .startUpdate 3 1002, .reachRow 3 10,
    .reachRow 3 11, .commit 3]

theorem replayed_token_linear : ∃ final : State Nat Nat,
    Runs.run (step id) initial replayedToken = some final ∧
      exchangedTokens final.journal = [100] ∧
      .answered 100 (.rejected .reuseDetected) ∈ final.journal ∧
      ∀ row ∈ final.sessions, LinearFamily (familyRows row.familyId final.sessions) := by
  refine ⟨_, rfl, rfl, by decide, ?_⟩
  exact (refresh_families_linear Function.injective_id replayedToken _ rfl).1

end Families

end RunnerupChat.SessionStore
