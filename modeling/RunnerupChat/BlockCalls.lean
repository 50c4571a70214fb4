import RunnerupChat.Blocking
import RunnerupChat.CheckThenWrite

/-!
`block_user`, `unblock_user` and `list_blocks` of `api/v1/moderation.py`, any
number of calls at once. A call that finds the block as it wants it writes
nothing, and a write that another call has made in the meantime is either
refused by the key or finds nothing to delete.
-/

namespace RunnerupChat.BlockCalls

open Accounts Authz CheckThenWrite Runs

/-- A call that has passed its checks; only `block_user` looks whether the
target is the caller. -/
structure Call where
  blocker : Uuid
  blocked : Uuid
  wanted : Bool
  notSelf : wanted = true → blocked ≠ blocker

section Calls
variable {Digest : Type} (parseUuid : String → Option Uuid) (user : User Digest)

def blockUser (userId : String) : Except AppError Call :=
  match parseUuid userId with
  | none => .error (.validationFailed "invalid_user")
  | some target =>
      if same : target = user.id then .error (.validationFailed "cannot_block_self")
      else .ok ⟨user.id, target, true, fun _ => same⟩

def unblockUser (userId : String) : Except AppError Call :=
  match parseUuid userId with
  | none => .error (.validationFailed "invalid_user")
  | some target => .ok ⟨user.id, target, false, fun wanted => by cases wanted⟩

def listBlocks (rows : List BlockedUser) : List Uuid :=
  (rows.filter fun row => row.blockerId == user.id).map BlockedUser.blockedId

def Call.row (call : Call) : BlockedUser := { blockerId := call.blocker, blockedId := call.blocked }

/-- `accounts` are the users there are or will be; an insert that comes before
its user fails, as any transaction may. -/
def blockRules (accounts : List Uuid) : Rules BlockedUser Call where
  target := Call.row
  act := fun call existing => if existing = call.wanted then none else some call.wanted
  fits := fun row => decide (row.blockerId ≠ row.blockedId ∧ row.blockedId ∈ accounts)

end Calls

section Answers
variable {Digest Tx : Type} [DecidableEq Tx] {accounts : List Uuid}

theorem block_wanted {call : Call} {present : Bool}
    (meant : (blockRules accounts).act call present = none ∨
      ∃ there, (blockRules accounts).act call there = some present) : present = call.wanted := by
  rcases meant with found | ⟨there, decided⟩
  · by_contra other
    simp [blockRules, other] at found
  · by_cases same : there = call.wanted
    · simp [blockRules, same] at decided
    · simp only [blockRules, same, if_false, Option.some.injEq] at decided
      exact decided.symm

theorem listed_iff (user : User Digest) (rows : List BlockedUser) (target : Uuid) :
    target ∈ listBlocks user rows ↔ ⟨user.id, target⟩ ∈ rows := by
  simp only [listBlocks, List.mem_map, List.mem_filter, beq_iff_eq]
  constructor
  · rintro ⟨⟨blocker, blocked⟩, ⟨member, rfl⟩, rfl⟩
    exact member
  · intro member
    exact ⟨_, ⟨member, rfl⟩, rfl⟩

/-- With these blocks neither of the two can send in a direct chat of theirs. -/
def Silences (Digest : Type) (rows : List BlockedUser) (one other : Uuid) : Prop :=
  ∀ (tables : Tables Digest), tables.blocks = rows →
    ∀ (user : User Digest) (counterpart id : Uuid) (now : Time) (access : Access Digest),
      (user.id = one ∧ counterpart = other ∨ user.id = other ∧ counterpart = one) →
      resolveAccess tables user now id = .ok access → access.conversation.kind = .direct →
      directCounterpart tables access.conversation.id user.id = some counterpart →
      access.can .sendMessage = false

theorem row_blocks {tables : Tables Digest} {one other : Uuid}
    (member : (⟨one, other⟩ : BlockedUser) ∈ tables.blocks) : isBlocked tables one other = true := by
  simp only [isBlocked, blockingState, Bool.or_eq_true, List.any_eq_true, Bool.and_eq_true,
    beq_iff_eq]
  exact Or.inl ⟨_, member, rfl, rfl⟩

theorem row_silences {rows : List BlockedUser} {one other : Uuid}
    (member : (⟨one, other⟩ : BlockedUser) ∈ rows) : Silences Digest rows one other := by
  rintro tables rfl user counterpart id now access parties resolved direct opposite
  have blocked : isBlocked tables user.id counterpart = true := by
    rcases parties with ⟨rfl, rfl⟩ | ⟨rfl, rfl⟩
    · exact row_blocks member
    · exact (blocked_symm _ _ _).trans (row_blocks member)
  obtain ⟨_, conversation, granted, _, _, rfl⟩ := (resolve_ok_iff access).mp resolved
  have here : BlockedHere tables conversation user.id := by
    refine ⟨direct, ?_⟩
    rw [opposite]
    exact blocked
  by_contra sends
  simp only [Access.can, Bool.not_eq_false, List.contains_iff_mem, List.mem_append] at sends
  rcases sends with kept | granted
  · obtain ⟨sending, silent⟩ := (restrained_blocked granted here (by decide)).mp kept
    exact silent sending
  · exact writes_no_platform _ (by decide) (system_grants_platform _ granted)

/-- A call that is answered has had its effect at some moment between its look
and its answer: then the list of the caller has the target as the call wants
it, and after a block neither of the two could send to the other. -/
theorem answered_in_effect (user : User Digest) {tx : Tx}
    {first looked last final : State BlockedUser Call Tx} {actions : List (Action Call Tx)}
    {call : Call} (caller : call.blocker = user.id)
    (asked : look (blockRules accounts) first tx call = some looked)
    (ran : run (step (blockRules accounts)) looked actions = some last)
    (own : ∀ action ∈ actions, ∀ other, action ≠ .look tx other)
    (answered : finish last tx = some final) :
    ∃ visited, Visits (step (blockRules accounts)) looked actions visited ∧
      (call.blocked ∈ listBlocks user visited.rows ↔ call.wanted = true) ∧
      (call.wanted = true → Silences Digest visited.rows call.blocker call.blocked) := by
  obtain ⟨named, present, settled, _⟩ := finish_cases answered
  obtain ⟨rfl, meant, visited, visits, there⟩ := settled_between asked ran own settled
  have wanted := block_wanted meant
  subst wanted
  have member : named.row ∈ visited.rows ↔ named.wanted = true := by
    have there : decide (named.row ∈ visited.rows) = named.wanted := there
    rw [← there, decide_eq_true_eq]
  refine ⟨visited, visits, ?_, fun blocks => row_silences (member.mpr blocks)⟩
  rw [listed_iff, ← caller]
  exact member

/-- Whatever the calls, the table keeps its key and its checks. -/
theorem blocks_kept {start : List BlockedUser} {actions : List (Action Call Tx)}
    {final : State BlockedUser Call Tx} (distinct : (start.map BlockedUser.pair).Nodup)
    (checked : ∀ row ∈ start, row.blockerId ≠ row.blockedId ∧ row.blockedId ∈ accounts)
    (ran : run (step (blockRules accounts)) (initial start) actions = some final) :
    (final.rows.map BlockedUser.pair).Nodup ∧
      ∀ row ∈ final.rows, row.blockerId ≠ row.blockedId ∧ row.blockedId ∈ accounts := by
  have inv := run_inv (List.Nodup.of_map _ distinct) ran
  refine ⟨inv.distinct.map ?_, ?_⟩
  · rintro ⟨_, _⟩ ⟨_, _⟩ same
    cases same
    rfl
  · intro row member
    rcases inv.fitting row member with before | fits
    · exact checked row before
    · exact of_decide_eq_true fits

end Answers

def ann : User Nat :=
  { id := 1, phoneHash := 10, phoneLast4 := "0001", phoneCountry := "91", displayName := "Ann",
    systemRole := .user, accountState := .active, deletedAt := none }

def blockBob : Call := ⟨1, 2, true, fun _ => by decide⟩

/-- A block that waits for no one, answered after its commit. -/
theorem block_bob_in_effect :
    ∃ looked last : State BlockedUser Call Nat,
      look (blockRules [1, 2]) (initial []) 7 blockBob = some looked ∧
        run (step (blockRules [1, 2])) looked [.write 7, .commit 7] = some last ∧
        ∃ visited, Visits (step (blockRules [1, 2])) looked [.write 7, .commit 7] visited ∧
          blockBob.blocked ∈ listBlocks ann visited.rows := by
  obtain ⟨final, ran⟩ := Option.isSome_iff_exists.mp
    (by decide : (run (step (blockRules [1, 2])) (initial [] : State BlockedUser Call Nat)
      [.look 7 blockBob, .write 7, .commit 7, .finish 7]).isSome = true)
  obtain ⟨looked, asked, onward⟩ := (run_cons_iff _ _ _ _).mp ran
  obtain ⟨last, middle, ended⟩ :=
    (run_append_iff looked final ([.write 7, .commit 7] : List (Action Call Nat))
      [.finish 7]).mp onward
  have answered : finish last 7 = some final := (run_single _ _ _).mp ended
  obtain ⟨visited, visits, listed, _⟩ := answered_in_effect ann (rfl : blockBob.blocker = ann.id)
    asked middle (by simp) answered
  exact ⟨looked, last, asked, middle, visited, visits, listed.mpr rfl⟩

/-- The second of two blocks at once is refused by the key. -/
theorem double_block_kept :
    ∃ final : State BlockedUser Call Nat,
      run (step (blockRules [1, 2])) (initial []) [.look 7 blockBob, .look 8 blockBob, .write 7,
        .commit 7, .write 8] = some final ∧ (final.rows.map BlockedUser.pair).Nodup := by
  obtain ⟨final, ran⟩ := Option.isSome_iff_exists.mp
    (by decide : (run (step (blockRules [1, 2])) (initial [] : State BlockedUser Call Nat)
      [.look 7 blockBob, .look 8 blockBob, .write 7, .commit 7, .write 8]).isSome = true)
  exact ⟨final, ran, (blocks_kept (by decide : (([] : List BlockedUser).map BlockedUser.pair).Nodup)
    (by simp) ran).1⟩

end RunnerupChat.BlockCalls
