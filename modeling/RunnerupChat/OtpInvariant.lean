import RunnerupChat.OtpStore

/-!
What holds of the challenges, the journal and the open requests in every
state. The columns of a challenge tell its history: `attempts` counts the
verifications that reached it, and `consumed_at` is set exactly when it was
superseded, accepted or exhausted.
-/

namespace RunnerupChat.OtpStore

open Accounts RateLimit SnapshotUpdate UniqueKeys

/-! The history of one challenge. -/

def Entry.supersedes (id : Uuid) : Entry → Bool
  | .issued _ _ _ _ superseded => superseded.contains id
  | .verified _ _ _ _ _ _ => false

def Entry.reaches (id : Uuid) : Entry → Bool
  | .issued _ _ _ _ _ => false
  | .verified _ _ _ _ reached _ => reached == some id

section History
variable {Digest : Type}

/-- The verification of challenge `id` was answered with `result`. -/
def Entry.answers (crypto : Crypto Digest) (id : Uuid) (result : OtpResult) : Entry → Bool
  | .issued _ _ _ _ _ => false
  | .verified challenge _ _ _ _ answer =>
      crypto.parseUuid challenge == some id && answer == .result result

def Entry.ends (crypto : Crypto Digest) (id : Uuid) (entry : Entry) : Bool :=
  entry.answers crypto id .ok || entry.answers crypto id .exhausted

def Consumed (crypto : Crypto Digest) (journal : List Entry) (id : Uuid) : Prop :=
  journal.any (Entry.supersedes id) = true ∨ journal.any (Entry.ends crypto id) = true

theorem consumed_snoc_iff (crypto : Crypto Digest) (journal : List Entry) (entry : Entry)
    (id : Uuid) : Consumed crypto (journal ++ [entry]) id ↔
      Consumed crypto journal id ∨ entry.supersedes id = true ∨ entry.ends crypto id = true := by
  simp only [Consumed, List.any_append, List.any_cons, List.any_nil, Bool.or_false,
    Bool.or_eq_true]
  grind

theorem reached_count_snoc (journal : List Entry) (entry : Entry) (id : Uuid) :
    (journal ++ [entry]).countP (Entry.reaches id) =
      journal.countP (Entry.reaches id) + if entry.reaches id then 1 else 0 := by
  simp [List.countP_append, List.countP_cons]

/-- The columns a challenge got when it was issued and keeps. -/
structure IssuedAs (crypto : Crypto Digest) (settings : Settings) (phone code : String)
    (expiresAt : Time) (row : OtpChallenge Digest) : Prop where
  phone : row.phoneHash = phoneFingerprint crypto phone
  code : row.codeHash = hashOtp crypto row.id code
  expires : row.expiresAt = expiresAt
  budget : row.maxAttempts = settings.otpMaxAttempts

/-- The rows and the journal tell the same history. -/
structure Agrees (crypto : Crypto Digest) (settings : Settings)
    (rows : List (OtpChallenge Digest)) (journal : List Entry) : Prop where
  issued : ∀ id phone code expiresAt superseded,
    .issued id phone code expiresAt superseded ∈ journal →
      ∃ row ∈ rows, row.id = id ∧ IssuedAs crypto settings phone code expiresAt row
  origin : ∀ row ∈ rows, ∃ phone code superseded,
    .issued row.id phone code row.expiresAt superseded ∈ journal
  attempts : ∀ row ∈ rows, row.attempts = journal.countP (Entry.reaches row.id)
  consumed : ∀ row ∈ rows, row.consumedAt.isSome = true ↔ Consumed crypto journal row.id
  reached : ∀ entry ∈ journal, ∀ id, entry.reaches id = true → ∃ row ∈ rows, row.id = id
  mentions : ∀ id, Consumed crypto journal id → ∃ row ∈ rows, row.id = id

theorem agrees_nil (crypto : Crypto Digest) (settings : Settings) :
    Agrees crypto settings ([] : List (OtpChallenge Digest)) [] where
  issued := by simp
  origin := by simp
  attempts := by simp
  consumed := by simp
  reached := by simp
  mentions := by simp [Consumed]

end History

section Changes
variable {Digest : Type}

/-- What a commit may do to a challenge: its identity stays and it is never
unconsumed again. -/
structure Evolves (row later : OtpChallenge Digest) : Prop where
  id : later.id = row.id
  phone : later.phoneHash = row.phoneHash
  code : later.codeHash = row.codeHash
  expires : later.expiresAt = row.expiresAt
  budget : later.maxAttempts = row.maxAttempts
  fades : later.unconsumed = true → row.unconsumed = true

theorem evolves_refl (row : OtpChallenge Digest) : Evolves row row :=
  ⟨rfl, rfl, rfl, rfl, rfl, fun alive => alive⟩

theorem consume_evolves (now : Time) (row : OtpChallenge Digest) :
    Evolves row (consume now row) :=
  ⟨rfl, rfl, rfl, rfl, rfl, fun alive => by simp [consume, OtpChallenge.unconsumed] at alive⟩

theorem settles_evolves (branch : Branch) (now : Time) (row : OtpChallenge Digest) :
    Evolves row (branch.settles now (burn row)) := by
  cases branch with
  | replay | expired | wrongCode => exact ⟨rfl, rfl, rfl, rfl, rfl, id⟩
  | exhausted | accepted =>
      exact ⟨rfl, rfl, rfl, rfl, rfl, fun alive => by
        simp [Branch.settles, consume, OtpChallenge.unconsumed] at alive⟩

theorem Evolves.issued_as {crypto : Crypto Digest} {settings : Settings} {phone code : String}
    {expiresAt : Time} {row later : OtpChallenge Digest} (evolves : Evolves row later)
    (issued : IssuedAs crypto settings phone code expiresAt row) :
    IssuedAs crypto settings phone code expiresAt later where
  phone := evolves.phone.trans issued.phone
  code := by rw [evolves.code, evolves.id, issued.code]
  expires := evolves.expires.trans issued.expires
  budget := evolves.budget.trans issued.budget

end Changes

/-! Each commit keeps the rows and the journal in agreement. -/

section Agreement
variable {Digest : Type} {crypto : Crypto Digest} {settings : Settings}
  {rows : List (OtpChallenge Digest)} {journal : List Entry}

/-- A verification that reached no challenge and was not accepted. -/
theorem agrees_unreached (agrees : Agrees crypto settings rows journal)
    {challenge code phone : String} {now : Time} {answer : Answer}
    (ends : answer ≠ .result .ok ∧ answer ≠ .result .exhausted) :
    Agrees crypto settings rows
      (journal ++ [.verified challenge code phone now none answer]) := by
  have quiet : ∀ id, Consumed crypto
      (journal ++ [.verified challenge code phone now none answer]) id ↔
      Consumed crypto journal id := by
    intro id
    simp [consumed_snoc_iff, Entry.supersedes, Entry.ends, Entry.answers, ends.1, ends.2]
  constructor
  case issued =>
    intro id number sent expiresAt superseded member
    exact agrees.issued id number sent expiresAt superseded (by simpa using member)
  case origin =>
    intro row member
    obtain ⟨number, sent, superseded, found⟩ := agrees.origin row member
    exact ⟨number, sent, superseded, List.mem_append_left _ found⟩
  case attempts =>
    intro row member
    rw [reached_count_snoc, agrees.attempts row member]
    rfl
  case consumed =>
    intro row member
    rw [quiet]
    exact agrees.consumed row member
  case reached =>
    intro entry member id reaches
    rcases List.mem_append.mp member with old | new
    · exact agrees.reached entry old id reaches
    · rw [List.mem_singleton.mp new] at reaches
      simp [Entry.reaches] at reaches
  case mentions =>
    intro id consumed
    exact agrees.mentions id ((quiet id).mp consumed)

theorem settles_consumed (branch : Branch) (now : Time) (row : OtpChallenge Digest) :
    (branch.settles now (burn row)).consumedAt.isSome = true ↔
      row.consumedAt.isSome = true ∨ branch.result = .ok ∨ branch.result = .exhausted := by
  cases branch <;> simp [Branch.settles, Branch.result, burn, consume]

section Evolved
variable {change : OtpChallenge Digest → OtpChallenge Digest}

/-- Every challenge keeps a row under its id. -/
theorem evolved_heir (evolves : ∀ row ∈ rows, Evolves row (change row)) {id : Uuid}
    (present : ∃ row ∈ rows, row.id = id) : ∃ row ∈ rows.map change, row.id = id := by
  obtain ⟨row, old, same⟩ := present
  exact ⟨change row, List.mem_map_of_mem old, (evolves row old).id.trans same⟩

theorem evolved_issued (agrees : Agrees crypto settings rows journal)
    (evolves : ∀ row ∈ rows, Evolves row (change row)) {id : Uuid} {phone code : String}
    {expiresAt : Time} {superseded : List Uuid}
    (member : .issued id phone code expiresAt superseded ∈ journal) :
    ∃ row ∈ rows.map change, row.id = id ∧
      IssuedAs crypto settings phone code expiresAt row := by
  obtain ⟨row, old, same, issued⟩ := agrees.issued id phone code expiresAt superseded member
  exact ⟨change row, List.mem_map_of_mem old, (evolves row old).id.trans same,
    (evolves row old).issued_as issued⟩

theorem evolved_origin (agrees : Agrees crypto settings rows journal)
    (evolves : ∀ row ∈ rows, Evolves row (change row)) {later : OtpChallenge Digest}
    (member : later ∈ rows.map change) : ∃ phone code superseded,
      .issued later.id phone code later.expiresAt superseded ∈ journal := by
  obtain ⟨row, old, rfl⟩ := List.mem_map.mp member
  rw [(evolves row old).id, (evolves row old).expires]
  exact agrees.origin row old

end Evolved

/-- A verification burns an attempt of the row it reached and may consume it. -/
theorem agrees_settle (agrees : Agrees crypto settings rows journal)
    (distinct : (rows.map OtpChallenge.id).Nodup) {row : OtpChallenge Digest} (member : row ∈ rows)
    {challenge code phone : String} {now : Time} (branch : Branch)
    (named : crypto.parseUuid challenge = some row.id) :
    Agrees crypto settings
      (rows.map fun other => if other.id = row.id then branch.settles now (burn row) else other)
      (journal ++ [.verified challenge code phone now (some row.id) (.result branch.result)]) := by
  have only : ∀ other ∈ rows, other.id = row.id → other = row := fun other inside same =>
    List.inj_on_of_nodup_map distinct inside member same
  have evolves : ∀ other ∈ rows, Evolves other
      (if other.id = row.id then branch.settles now (burn row) else other) := by
    intro other inside
    split
    · rename_i same
      rw [only other inside same]
      exact settles_evolves branch now row
    · exact evolves_refl other
  have ends : ∀ id, (Entry.verified challenge code phone now (some row.id)
      (.result branch.result)).ends crypto id = true ↔
      id = row.id ∧ (branch.result = .ok ∨ branch.result = .exhausted) := by
    intro id
    simp only [Entry.ends, Entry.answers, named, Bool.or_eq_true, Bool.and_eq_true, beq_iff_eq,
      Option.some.injEq, Answer.result.injEq]
    grind
  constructor
  case issued =>
    intro id number sent expiresAt superseded inside
    exact evolved_issued agrees evolves (by simpa using inside)
  case origin =>
    intro later inside
    obtain ⟨number, sent, superseded, found⟩ := evolved_origin agrees evolves inside
    exact ⟨number, sent, superseded, List.mem_append_left _ found⟩
  case attempts =>
    intro later inside
    obtain ⟨other, old, rfl⟩ := List.mem_map.mp inside
    rw [(evolves other old).id, reached_count_snoc, ← agrees.attempts other old]
    -- the burned attempt is the one this entry counts
    by_cases same : other.id = row.id
    · rw [if_pos same, only other old same]
      cases branch <;> simp [Branch.settles, burn, consume, Entry.reaches]
    · rw [if_neg same]
      simp [Entry.reaches, Ne.symm same]
  case consumed =>
    intro later inside
    obtain ⟨other, old, rfl⟩ := List.mem_map.mp inside
    rw [(evolves other old).id, consumed_snoc_iff, ← agrees.consumed other old, ends]
    by_cases same : other.id = row.id
    · rw [if_pos same, only other old same, settles_consumed]
      simp [Entry.supersedes]
    · rw [if_neg same]
      simp [Entry.supersedes, same]
  case reached =>
    intro entry inside id reaches
    apply evolved_heir evolves
    rcases List.mem_append.mp inside with old | new
    · exact agrees.reached entry old id reaches
    · rw [List.mem_singleton.mp new] at reaches
      have same : row.id = id := by simpa [Entry.reaches] using reaches
      exact ⟨row, member, same⟩
  case mentions =>
    intro id consumed
    apply evolved_heir evolves
    rcases (consumed_snoc_iff crypto journal _ id).mp consumed with before | superseded | ended
    · exact agrees.mentions id before
    · simp [Entry.supersedes] at superseded
    · exact ⟨row, member, ((ends id).mp ended).1.symm⟩

/-- A new challenge is committed together with the end of the ones it supersedes. -/
theorem agrees_issue (agrees : Agrees crypto settings rows journal) {new : OtpChallenge Digest}
    {phone code : String} {superseded : List Uuid}
    {change : OtpChallenge Digest → OtpChallenge Digest}
    (evolves : ∀ row, Evolves row (change row))
    (unburned : ∀ row, (change row).attempts = row.attempts)
    (consumes : ∀ row ∈ rows, (change row).consumedAt.isSome = true ↔
      row.consumedAt.isSome = true ∨ row.id ∈ superseded)
    (known : ∀ id ∈ superseded, ∃ row ∈ rows, row.id = id)
    (apart : ∀ row ∈ rows, row.id ≠ new.id)
    (issued : IssuedAs crypto settings phone code new.expiresAt new)
    (untried : new.attempts = 0) (unconsumed : new.consumedAt = none) :
    Agrees crypto settings (rows.map change ++ [new])
      (journal ++ [.issued new.id phone code new.expiresAt superseded]) := by
  have consumed : ∀ id, Consumed crypto
      (journal ++ [.issued new.id phone code new.expiresAt superseded]) id ↔
      Consumed crypto journal id ∨ id ∈ superseded := by
    intro id
    simp [consumed_snoc_iff, Entry.supersedes, Entry.ends, Entry.answers]
  -- the new entry reaches nothing, so no attempt is counted
  have old_count : ∀ id, (journal ++
      [Entry.issued new.id phone code new.expiresAt superseded]).countP (Entry.reaches id) =
      journal.countP (Entry.reaches id) := by
    intro id
    rw [reached_count_snoc]
    rfl
  -- every challenge keeps a row under its id
  have heir : ∀ id, (∃ row ∈ rows, row.id = id) →
      ∃ row ∈ rows.map change ++ [new], row.id = id := by
    intro id present
    obtain ⟨row, kept, same⟩ := evolved_heir (fun row _ => evolves row) present
    exact ⟨row, List.mem_append_left _ kept, same⟩
  constructor
  case issued =>
    intro id number sent expiresAt set member
    rcases List.mem_append.mp member with old | added
    · obtain ⟨row, kept, same, as⟩ := evolved_issued agrees (fun row _ => evolves row) old
      exact ⟨row, List.mem_append_left _ kept, same, as⟩
    · obtain ⟨rfl, rfl, rfl, rfl, rfl⟩ : id = new.id ∧ number = phone ∧ sent = code ∧
          expiresAt = new.expiresAt ∧ set = superseded := by simpa using added
      exact ⟨new, List.mem_append_right _ (List.mem_singleton_self new), rfl, issued⟩
  case origin =>
    intro row member
    rcases List.mem_append.mp member with rewritten | added
    · obtain ⟨number, sent, set, found⟩ :=
        evolved_origin agrees (fun row _ => evolves row) rewritten
      exact ⟨number, sent, set, List.mem_append_left _ found⟩
    · rw [List.mem_singleton.mp added]
      exact ⟨phone, code, superseded, by simp⟩
  case attempts =>
    intro row member
    rw [old_count]
    rcases List.mem_append.mp member with rewritten | added
    · obtain ⟨before, old, rfl⟩ := List.mem_map.mp rewritten
      rw [unburned, (evolves before).id, agrees.attempts before old]
    · rw [List.mem_singleton.mp added, untried]
      -- an id that was never committed was never reached
      symm
      apply List.countP_eq_zero.mpr
      intro entry inside reaches
      obtain ⟨row, old, same⟩ := agrees.reached entry inside new.id reaches
      exact apart row old same
  case consumed =>
    intro row member
    rw [consumed]
    rcases List.mem_append.mp member with rewritten | added
    · obtain ⟨before, old, rfl⟩ := List.mem_map.mp rewritten
      rw [consumes before old, (evolves before).id, agrees.consumed before old]
    · rw [List.mem_singleton.mp added, unconsumed]
      constructor
      · intro some
        cases some
      · rintro (mentioned | listed)
        · obtain ⟨row, old, same⟩ := agrees.mentions new.id mentioned
          exact absurd same (apart row old)
        · obtain ⟨row, old, same⟩ := known new.id listed
          exact absurd same (apart row old)
  case reached =>
    intro entry member id reaches
    rcases List.mem_append.mp member with old | added
    · exact heir id (agrees.reached entry old id reaches)
    · rw [List.mem_singleton.mp added] at reaches
      cases reaches
  case mentions =>
    intro id mentioned
    rcases (consumed id).mp mentioned with before | listed
    · exact heir id (agrees.mentions id before)
    · exact heir id (known id listed)

end Agreement

/-! The open requests. -/

section Invariant
variable {Digest : Type} {crypto : Crypto Digest} {settings : Settings}

def Phase.inserts : Phase Digest → Option Uuid
  | .inserting _ _ row _ _ => some row.id
  | _ => none

def pendingIds (txs : TxId → Option (Phase Digest)) : TxId → Option Uuid :=
  fun tx => (txs tx).bind Phase.inserts

theorem pending_ids_assign (txs : TxId → Option (Phase Digest)) (tx : TxId)
    (phase : Option (Phase Digest)) :
    pendingIds (assign txs tx phase) = assign (pendingIds txs) tx (phase.bind Phase.inserts) :=
  assign_bind txs tx phase Phase.inserts

/-- A superseding `UPDATE` on its way through its row set. -/
structure UpdateOk (rows : List (OtpChallenge Digest))
    (locks : Locks Uuid TxId) (tx : TxId) (progress : Progress Uuid) : Prop where
  tracked : Tracked OtpChallenge.id OtpChallenge.unconsumed rows locks tx progress
  known : ∀ id ∈ progress.seen, ∃ row ∈ rows, row.id = id

def PhaseOk (crypto : Crypto Digest) (settings : Settings) (rows : List (OtpChallenge Digest))
    (locks : Locks Uuid TxId) (tx : TxId) : Phase Digest → Prop
  | .limiting _ _ => True
  | .superseding _ _ _ _ progress => UpdateOk rows locks tx progress
  | .inserting phone code row _ progress =>
      UpdateOk rows locks tx progress ∧ progress.pending = [] ∧
        IssuedAs crypto settings phone code row.expiresAt row ∧
        row.attempts = 0 ∧ row.consumedAt = none
  | .selected challenge _ phone row =>
      row ∈ rows ∧ locks row.id = some tx ∧ row.phoneHash = phoneFingerprint crypto phone ∧
        crypto.parseUuid challenge = some row.id

structure Inv (crypto : Crypto Digest) (settings : Settings) (state : State Digest) : Prop where
  unique : Unique (state.challenges.map OtpChallenge.id) state.drawnIds (pendingIds state.txs)
  agrees : Agrees crypto settings state.challenges state.journal
  phases : ∀ tx phase, state.txs tx = some phase →
    PhaseOk crypto settings state.challenges state.locks tx phase

theorem initial_inv : Inv crypto settings (initial : State Digest) where
  unique := ⟨List.nodup_nil, by simp [initial], by simp [initial, pendingIds],
    by simp [initial], by simp [initial, pendingIds]⟩
  agrees := agrees_nil crypto settings
  phases := by simp [initial]

/-- The rows as a commit with this progress rewrites them. -/
theorem written_evolves (now : Time) (progress : Progress Uuid) (row : OtpChallenge Digest) :
    Evolves row (if row.id ∈ progress.updated then consume now row else row) := by
  split
  · exact consume_evolves now row
  · exact evolves_refl row

theorem written_attempts (now : Time) (progress : Progress Uuid) (row : OtpChallenge Digest) :
    (if row.id ∈ progress.updated then consume now row else row).attempts = row.attempts := by
  split <;> rfl

/-- A finished `UPDATE` consumes every row of its row set. -/
theorem finished_consumes {rows : List (OtpChallenge Digest)} {locks : Locks Uuid TxId} {tx : TxId}
    {progress : Progress Uuid} (ok : UpdateOk rows locks tx progress)
    (finished : progress.pending = []) (now : Time) : ∀ row ∈ rows,
      (if row.id ∈ progress.updated then consume now row else row).consumedAt.isSome = true ↔
        row.consumedAt.isSome = true ∨ row.id ∈ progress.seen := by
  intro row member
  by_cases updated : row.id ∈ progress.updated
  · simp [updated, consume, ok.tracked.updated_seen row.id updated]
  · rw [if_neg updated]
    constructor
    · exact Or.inl
    · rintro (ended | seen)
      · exact ended
      · by_contra alive
        have unconsumed : row.unconsumed = true := by
          simpa [OtpChallenge.unconsumed] using alive
        exact updated ((finished_updated ok.tracked finished row member unconsumed).mpr seen)

theorem phase_ok_locks {rows : List (OtpChallenge Digest)} {locks later : Locks Uuid TxId}
    {tx : TxId} {phase : Phase Digest} (ok : PhaseOk crypto settings rows locks tx phase)
    (kept : ∀ key, locks key = some tx → later key = some tx) :
    PhaseOk crypto settings rows later tx phase := by
  cases phase with
  | limiting request budgets => trivial
  | superseding phone ip userAgent now progress =>
      exact ⟨locks_tracked ok.tracked kept, ok.known⟩
  | inserting phone code row superseded progress =>
      exact ⟨⟨locks_tracked ok.1.tracked kept, ok.1.known⟩, ok.2⟩
  | selected challenge code phone row => exact ⟨ok.1, kept _ ok.2.1, ok.2.2⟩

theorem update_ok_commit {state : State Digest} {tx other : TxId}
    {change : OtpChallenge Digest → OtpChallenge Digest} {added later : List (OtpChallenge Digest)}
    (rewrites : Rewrites OtpChallenge.id OtpChallenge.unconsumed state.challenges state.locks tx
      change added later) (distinct : other ≠ tx) {progress : Progress Uuid}
    (ok : UpdateOk state.challenges state.locks other progress) :
    UpdateOk later (release state.locks tx) other progress where
  tracked := rewrites.tracked distinct ok.known ok.tracked
  known := by
    intro id seen
    obtain ⟨row, member, same⟩ := ok.known id seen
    exact ⟨change row, rewrites.heir member, (rewrites.keys row).trans same⟩

theorem phase_ok_commit {state : State Digest} {tx other : TxId}
    {change : OtpChallenge Digest → OtpChallenge Digest} {added later : List (OtpChallenge Digest)}
    (rewrites : Rewrites OtpChallenge.id OtpChallenge.unconsumed state.challenges state.locks tx
      change added later) (distinct : other ≠ tx) {phase : Phase Digest}
    (ok : PhaseOk crypto settings state.challenges state.locks other phase) :
    PhaseOk crypto settings later (release state.locks tx) other phase := by
  cases phase with
  | limiting request budgets => trivial
  | superseding phone ip userAgent now progress => exact update_ok_commit rewrites distinct ok
  | inserting phone code row superseded progress =>
      exact ⟨update_ok_commit rewrites distinct ok.1, ok.2⟩
  | selected challenge code phone row =>
      exact ⟨rewrites.locked_member distinct ok.1 ok.2.1,
        release_keeps state.locks row.id tx other distinct ok.2.1, ok.2.2⟩

/-- A statement of one request that commits no row and draws no id. -/
theorem inv_statement {state next : State Digest} (inv : Inv crypto settings state) (tx : TxId)
    (phase : Option (Phase Digest)) (rows : next.challenges = state.challenges)
    (journal : Agrees crypto settings state.challenges next.journal)
    (txs : next.txs = assign state.txs tx phase) (ids : next.drawnIds = state.drawnIds)
    (locks : ∀ key other, other ≠ tx → state.locks key = some other →
      next.locks key = some other)
    (none : phase.bind Phase.inserts = none)
    (ok : ∀ moved, phase = some moved →
      PhaseOk crypto settings state.challenges next.locks tx moved) :
    Inv crypto settings next where
  unique := by
    have pending : pendingIds next.txs = assign (pendingIds state.txs) tx Option.none := by
      rw [txs, pending_ids_assign, none]
    rw [rows, ids, pending]
    exact unique_drop inv.unique tx
  agrees := rows ▸ journal
  phases := by
    intro other moved opened
    rw [txs] at opened
    rw [rows]
    by_cases same : other = tx
    · subst other
      rw [assign_same] at opened
      exact ok moved opened
    · rw [assign_other _ _ same] at opened
      exact phase_ok_locks (inv.phases other moved opened) fun key => locks key other same

/-- A statement that only moves its request on. -/
theorem inv_moved {state : State Digest} (inv : Inv crypto settings state) (tx : TxId)
    {phase : Phase Digest} (plain : phase.inserts = none)
    (ok : PhaseOk crypto settings state.challenges state.locks tx phase) :
    Inv crypto settings { state with txs := assign state.txs tx (some phase) } := by
  refine inv_statement inv tx (some phase) rfl inv.agrees rfl rfl (fun _ _ _ same => same) plain ?_
  intro moved same
  rw [← Option.some.inj same]
  exact ok

/-- A commit that rewrites locked rows and adds the pending one. -/
theorem inv_commit {state next : State Digest} (inv : Inv crypto settings state) {tx : TxId}
    {change : OtpChallenge Digest → OtpChallenge Digest} {added : List (OtpChallenge Digest)}
    (rewrites : Rewrites OtpChallenge.id OtpChallenge.unconsumed state.challenges state.locks tx
      change added next.challenges)
    (unique : Unique (state.challenges.map OtpChallenge.id ++ added.map OtpChallenge.id)
      state.drawnIds (assign (pendingIds state.txs) tx none))
    (agrees : Agrees crypto settings next.challenges next.journal)
    (txs : next.txs = assign state.txs tx none) (locks : next.locks = release state.locks tx)
    (ids : next.drawnIds = state.drawnIds) : Inv crypto settings next where
  unique := by
    have keys : next.challenges.map OtpChallenge.id =
        state.challenges.map OtpChallenge.id ++ added.map OtpChallenge.id := by
      simp [rewrites.shape, rewrites.keys]
    have pending : pendingIds next.txs = assign (pendingIds state.txs) tx none := by
      rw [txs, pending_ids_assign]
      rfl
    rw [keys, ids, pending]
    exact unique
  agrees := agrees
  phases := by
    intro other moved opened
    rw [txs] at opened
    rw [locks]
    by_cases same : other = tx
    · simp [same] at opened
    · rw [assign_other _ _ same] at opened
      exact phase_ok_commit rewrites same (inv.phases other moved opened)

end Invariant

/-! What one step does, and that it keeps the invariant. -/

section Steps
variable {Digest : Type} [DecidableEq Digest] {crypto : Crypto Digest} {settings : Settings}

/-- The changes to the committed rows and the journal. -/
inductive Outcome (crypto : Crypto Digest) (state : State Digest) (action : Action)
    (next : State Digest) : Prop
  | silent (rows : next.challenges = state.challenges) (added : next.journal = state.journal)
  | limited (challenge code phone : String) (now : Time) (retryAfter : Nat)
      (rows : next.challenges = state.challenges)
      (added : next.journal = state.journal ++
        [.verified challenge code phone now none (.limited retryAfter)])
  | unknown (challenge code phone : String) (now : Time)
      (rows : next.challenges = state.challenges)
      (added : next.journal = state.journal ++
        [.verified challenge code phone now none (.result .invalid)])
      (absent : ∀ row ∈ state.challenges, crypto.parseUuid challenge = some row.id →
        row.phoneHash ≠ phoneFingerprint crypto phone)
  | settled (tx : TxId) (challenge code phone : String) (row : OtpChallenge Digest) (now : Time)
      (branch : Branch) (opened : state.txs tx = some (.selected challenge code phone row))
      (decides : branch = judge (burn row) now (row.codeHash == hashOtp crypto row.id code))
      (rows : next.challenges = state.challenges.map fun other =>
        if other.id = row.id then branch.settles now (burn row) else other)
      (added : next.journal = state.journal ++
        [.verified challenge code phone now (some row.id) (.result branch.result)])
  | issued (tx : TxId) (phone code : String) (row : OtpChallenge Digest) (superseded : Time)
      (progress : Progress Uuid) (commits : action = .commit tx)
      (opened : state.txs tx = some (.inserting phone code row superseded progress))
      (rows : next.challenges =
        written OtpChallenge.id (consume superseded) progress state.challenges ++ [row])
      (added : next.journal = state.journal ++
        [.issued row.id phone code row.expiresAt progress.seen])

theorem step_outcome {state next : State Digest} {action : Action}
    (taken : step crypto settings state action = some next) :
    Outcome crypto state action next := by
  cases action with
  | receive tx request =>
      simp only [step, receive] at taken
      split at taken
      · cases taken
      · cases taken
        exact .silent rfl rfl
  | enforceBudget tx nowMs =>
      simp only [step, enforceBudget] at taken
      split at taken
      case h_2 => cases taken
      case h_1 request name identity rest opened =>
        split at taken
        · cases taken
          exact .silent rfl rfl
        · cases taken
          cases request with
          | issue phone ip userAgent => exact .silent rfl (by simp [refusal])
          | verify challenge code phone ip => exact .limited challenge code phone _ _ rfl rfl
  | startUpdate tx now =>
      simp only [step, startUpdate] at taken
      split at taken
      · cases taken
        exact .silent rfl rfl
      · cases taken
  | reachRow tx id =>
      simp only [step, reachRow] at taken
      split at taken
      · split at taken
        · cases taken
          exact .silent rfl rfl
        · cases taken
      · cases taken
  | insertRow tx id code now =>
      simp only [step, insertRow] at taken
      split at taken
      · split at taken
        · cases taken
          exact .silent rfl rfl
        · cases taken
      · cases taken
  | selectForUpdate tx now =>
      simp only [step, selectForUpdate] at taken
      split at taken
      case h_2 => cases taken
      case h_1 challenge code phone ip opened =>
        split at taken
        · rename_i malformed
          cases taken
          exact .unknown challenge code phone now rfl rfl (by simp [malformed])
        · rename_i id parsed
          split at taken
          · rename_i missing
            cases taken
            refine .unknown challenge code phone now rfl rfl ?_
            intro row member named phone
            have same : row.id = id := Option.some.inj (named.symm.trans parsed)
            simpa [same, phone] using List.find?_eq_none.mp missing row member
          · split at taken
            · cases taken
              exact .silent rfl rfl
            · cases taken
  | settle tx now =>
      simp only [step, settle] at taken
      split at taken
      case h_2 => cases taken
      case h_1 challenge code phone row opened =>
        cases taken
        exact .settled tx challenge code phone row now _ opened rfl rfl rfl
  | commit tx =>
      simp only [step, commit] at taken
      split at taken
      case h_2 => cases taken
      case h_1 phone code row superseded progress opened =>
        cases taken
        exact .issued tx phone code row superseded progress rfl opened rfl rfl
  | rollback tx =>
      simp only [step] at taken
      split at taken
      · cases taken
        exact .silent rfl rfl
      · cases taken

omit [DecidableEq Digest] in
theorem enforce_budget_inv {state next : State Digest} (inv : Inv crypto settings state)
    {tx : TxId} {nowMs : Nat} (taken : enforceBudget state tx nowMs = some next) :
    Inv crypto settings next := by
  unfold enforceBudget at taken
  split at taken
  case h_2 => cases taken
  case h_1 request name identity rest opened =>
    split at taken
    · cases taken
      refine inv_statement inv tx _ rfl inv.agrees rfl rfl (fun _ _ _ same => same) rfl ?_
      intro moved same
      rw [← Option.some.inj same]
      trivial
    · cases taken
      refine inv_statement inv tx none rfl ?_ rfl rfl
        (fun key other distinct => release_keeps state.locks key tx other distinct) rfl (by simp)
      cases request with
      | issue phone ip userAgent => simpa [refusal] using inv.agrees
      | verify challenge code phone ip => exact agrees_unreached inv.agrees (by simp)

theorem start_update_inv {state next : State Digest} (inv : Inv crypto settings state)
    {tx : TxId} {now : Time} (taken : startUpdate crypto state tx now = some next) :
    Inv crypto settings next := by
  unfold startUpdate at taken
  split at taken
  case h_2 => cases taken
  case h_1 phone ip userAgent opened =>
    cases taken
    apply inv_moved inv tx rfl
    refine ⟨start_tracked _ (none_tracked _ _ _), fun id seen => ?_⟩
    obtain ⟨row, found, named⟩ := List.mem_map.mp (List.mem_of_mem_filter seen)
    exact ⟨row, List.mem_of_mem_filter found, named⟩

omit [DecidableEq Digest] in
theorem reach_row_inv {state next : State Digest} (inv : Inv crypto settings state) {tx : TxId}
    {id : Uuid} (taken : reachRow state tx id = some next) : Inv crypto settings next := by
  unfold reachRow at taken
  split at taken
  case h_2 => cases taken
  case h_1 phone ip userAgent now progress opened =>
    have ok : UpdateOk state.challenges state.locks tx progress := inv.phases tx _ opened
    split at taken
    case isFalse => cases taken
    case isTrue waiting =>
      cases taken
      refine inv_statement inv tx _ rfl inv.agrees rfl rfl
        (fun key other _ => acquire_keeps state.locks id key tx other waiting.2) rfl ?_
      intro moved same
      rw [← Option.some.inj same]
      exact ⟨reach_tracked ok.tracked waiting.1 waiting.2, ok.known⟩

omit [DecidableEq Digest] in
theorem insert_row_inv {state next : State Digest} (inv : Inv crypto settings state) {tx : TxId}
    {id : Uuid} {code : String} {now : Time}
    (taken : insertRow crypto settings state tx id code now = some next) :
    Inv crypto settings next := by
  unfold insertRow at taken
  split at taken
  case h_2 => cases taken
  case h_1 phone ip userAgent superseded progress opened =>
    have ok : UpdateOk state.challenges state.locks tx progress := inv.phases tx _ opened
    split at taken
    case isFalse => cases taken
    case isTrue ready =>
      cases taken
      constructor
      · rw [pending_ids_assign]
        exact unique_draw inv.unique tx ready.2
      · exact inv.agrees
      · intro other moved found
        by_cases same : other = tx
        · subst other
          simp only [assign_same, Option.some.injEq] at found
          rw [← found]
          exact ⟨ok, ready.1, ⟨rfl, rfl, rfl, rfl⟩, rfl, rfl⟩
        · simp only [assign_other _ _ same] at found
          exact inv.phases other moved found

theorem select_for_update_inv {state next : State Digest} (inv : Inv crypto settings state)
    {tx : TxId} {now : Time} (taken : selectForUpdate crypto state tx now = some next) :
    Inv crypto settings next := by
  unfold selectForUpdate at taken
  split at taken
  case h_2 => cases taken
  case h_1 challenge code phone ip opened =>
    have missed : Inv crypto settings { close state tx with
        journal := state.journal ++
          [.verified challenge code phone now none (.result .invalid)] } :=
      inv_statement inv tx none rfl (agrees_unreached inv.agrees (by simp)) rfl rfl
        (fun key other distinct => release_keeps state.locks key tx other distinct) rfl (by simp)
    split at taken
    · cases taken
      exact missed
    · rename_i id parsed
      split at taken
      · cases taken
        exact missed
      · rename_i row found
        split at taken
        case isFalse => cases taken
        case isTrue free =>
          cases taken
          have named := List.find?_some found
          simp only [Bool.and_eq_true, beq_iff_eq] at named
          refine inv_statement inv tx _ rfl inv.agrees rfl rfl
            (fun key other _ => acquire_keeps state.locks row.id key tx other free) rfl ?_
          intro moved same
          rw [← Option.some.inj same]
          exact ⟨List.mem_of_find?_eq_some found, acquire_same state.locks row.id tx, named.2,
            by rw [parsed, named.1]⟩

theorem settle_inv {state next : State Digest} (inv : Inv crypto settings state) {tx : TxId}
    {now : Time} (taken : settle crypto state tx now = some next) : Inv crypto settings next := by
  unfold settle at taken
  split at taken
  case h_2 => cases taken
  case h_1 challenge code phone row opened =>
    cases taken
    obtain ⟨member, lock, _, named⟩ := inv.phases tx _ opened
    let branch := judge (burn row) now (row.codeHash == hashOtp crypto row.id code)
    have rewrites : Rewrites OtpChallenge.id OtpChallenge.unconsumed state.challenges state.locks
        tx (fun other => if other.id = row.id then branch.settles now (burn row) else other) []
        (state.challenges.map fun other =>
          if other.id = row.id then branch.settles now (burn row) else other) := {
      shape := (List.append_nil _).symm
      keys := fun other => by
        split
        · rename_i same
          exact (settles_evolves branch now row).id.trans same.symm
        · rfl
      fades := fun other inside alive => by
        split at alive
        · rename_i same
          have found : other = row :=
            List.inj_on_of_nodup_map inv.unique.distinct inside member same
          exact found ▸ (settles_evolves branch now row).fades alive
        · exact alive
      owned := fun other free => by
        rw [if_neg]
        intro same
        exact free (same ▸ lock)
      new := by simp }
    refine inv_commit inv rewrites ?_
      (agrees_settle inv.agrees inv.unique.distinct member branch named) rfl rfl rfl
    simpa using unique_drop inv.unique tx

omit [DecidableEq Digest] in
theorem commit_inv {state next : State Digest} (inv : Inv crypto settings state) {tx : TxId}
    (taken : commit state tx = some next) : Inv crypto settings next := by
  unfold commit at taken
  split at taken
  case h_2 => cases taken
  case h_1 phone code row superseded progress opened =>
    cases taken
    obtain ⟨ok, finished, issued, untried, unconsumed⟩ := inv.phases tx _ opened
    have held : pendingIds state.txs tx = some row.id := by
      simp [pendingIds, opened, Phase.inserts]
    have apart : ∀ other ∈ state.challenges, other.id ≠ row.id := fun other member same =>
      inv.unique.apart tx row.id held (List.mem_map.mpr ⟨other, member, same⟩)
    have evolves : ∀ other : OtpChallenge Digest, Evolves other
        (if other.id ∈ progress.updated then consume superseded other else other) :=
      written_evolves superseded progress
    have rewrites : Rewrites OtpChallenge.id OtpChallenge.unconsumed state.challenges state.locks
        tx (fun other => if other.id ∈ progress.updated then consume superseded other else other)
        [row] (written OtpChallenge.id (consume superseded) progress state.challenges ++ [row]) := {
      shape := rfl
      keys := fun other => (evolves other).id
      fades := fun other _ => (evolves other).fades
      owned := fun other free => if_neg fun updated => free (ok.tracked.locked other.id updated)
      new := fun added inside other member => by
        rw [List.mem_singleton.mp inside]
        exact (apart other member).symm }
    refine inv_commit inv rewrites (unique_commit inv.unique held) ?_ rfl rfl rfl
    exact agrees_issue inv.agrees evolves (written_attempts superseded progress)
      (finished_consumes ok finished superseded) ok.known apart issued untried unconsumed

theorem step_inv (state : State Digest) (action : Action) (next : State Digest)
    (inv : Inv crypto settings state) (taken : step crypto settings state action = some next) :
    Inv crypto settings next := by
  cases action with
  | receive tx request =>
      simp only [step, receive] at taken
      split at taken
      · cases taken
      · cases taken
        exact inv_moved inv tx rfl trivial
  | enforceBudget tx nowMs => exact enforce_budget_inv inv taken
  | startUpdate tx now => exact start_update_inv inv taken
  | reachRow tx id => exact reach_row_inv inv taken
  | insertRow tx id code now => exact insert_row_inv inv taken
  | selectForUpdate tx now => exact select_for_update_inv inv taken
  | settle tx now => exact settle_inv inv taken
  | commit tx => exact commit_inv inv taken
  | rollback tx =>
      simp only [step] at taken
      split at taken
      · cases taken
        exact inv_statement inv tx none rfl inv.agrees rfl rfl
          (fun key other distinct => release_keeps state.locks key tx other distinct) rfl (by simp)
      · cases taken

theorem run_inv {actions : List Action} {final : State Digest}
    (ran : Runs.run (step crypto settings) initial actions = some final) :
    Inv crypto settings final :=
  Runs.run_invariant (Inv crypto settings) step_inv ran initial_inv

end Steps

end RunnerupChat.OtpStore
