import RunnerupChat.Conversations
import RunnerupChat.Runs

/-!
Requests that redeem one invite link at the same time. `SELECT ... FOR UPDATE`
holds the row of the link until the transaction ends; the membership and the
conversation are read without a lock, and anything but the link may be changed
by others in between.
-/

namespace RunnerupChat.InviteRaces

open Accounts Authz Conversations UniqueKeys
open OtpLogin (AuditLog)

section Statements
variable {Digest : Type} [DecidableEq Digest]

/-- A constraint that a statement breaks. -/
inductive Violation where
  | usesWithinLimit
  | useCountRange
  | memberRow
  deriving DecidableEq

/-- The copy of the link is the one that was read under the lock. -/
inductive Phase (Digest : Type) where
  | called
  | locked (invite : InviteLink Digest)
  | passed (invite : InviteLink Digest)
  | seen (invite : InviteLink Digest) (membership : Option ConversationMember)
  | joining (invite : InviteLink Digest) (membership : Option ConversationMember)
      (conversation : Conversation)
  | written (invite : InviteLink Digest) (membership : Option ConversationMember)
      (conversation : Conversation)
  | redeemed (conversation : Conversation)
  /-- `NotVisible`, the one error for every failure. -/
  | refused
  | failed (violation : Violation)
  | cut
  deriving DecidableEq

structure Request (Digest : Type) where
  user : User Digest
  phase : Phase Digest

/-- The committed tables, the request that holds the row of the link, and all
requests that were made. -/
structure State (Digest : Type) where
  tables : Tables Digest
  clock : Time
  lock : Option Nat := none
  requests : List (Request Digest) := []

def findLink (tables : Tables Digest) (hash : Digest) : Option (InviteLink Digest) :=
  tables.invites.find? fun row => row.tokenHash == hash

def changeLink (tables : Tables Digest) (hash : Digest)
    (change : InviteLink Digest → InviteLink Digest) : Tables Digest :=
  { tables with invites := tables.invites.map fun row =>
      if row.tokenHash = hash then change row else row }

def newMember (user : User Digest) (conversation : Conversation) : ConversationMember :=
  { conversationId := conversation.id, userId := user.id, role := joiningRole conversation.kind }

/-- The constraints on a new row of `conversation_members`. -/
def MemberAllowed (tables : Tables Digest) (row : ConversationMember) : Prop :=
  row.key ∉ tables.members.map ConversationMember.key ∧
    row.conversationId ∈ tables.conversationIds ∧ row.userId ∈ tables.userIds

instance (tables : Tables Digest) (row : ConversationMember) : Decidable (MemberAllowed tables row) :=
  inferInstanceAs (Decidable (row.key ∉ tables.members.map ConversationMember.key ∧
    row.conversationId ∈ tables.conversationIds ∧ row.userId ∈ tables.userIds))

/-- The columns of a membership that differ from the copy are written. -/
def rejoinedFrom (copy row : ConversationMember) : ConversationMember :=
  { row with
    leftAt := if copy.leftAt.isSome then none else row.leftAt
    state := if copy.state = .active then row.state else .active }

/-- Whether the rows of a membership can be written. -/
def MembershipWritable (tables : Tables Digest) (user : User Digest)
    (membership : Option ConversationMember) (conversation : Conversation) : Prop :=
  match membership with
  | none => MemberAllowed tables (newMember user conversation)
  | some copy => rejoinedFrom copy copy = copy ∨ copy.key ∈ tables.members.map ConversationMember.key

instance (tables : Tables Digest) (user : User Digest) (membership : Option ConversationMember)
    (conversation : Conversation) :
    Decidable (MembershipWritable tables user membership conversation) :=
  match membership with
  | none => inferInstanceAs (Decidable (MemberAllowed tables (newMember user conversation)))
  | some copy => inferInstanceAs (Decidable
      (rejoinedFrom copy copy = copy ∨ copy.key ∈ tables.members.map ConversationMember.key))

/-- `use_count` is written from the copy. -/
def usedFrom (copy row : InviteLink Digest) : InviteLink Digest :=
  { row with useCount := copy.useCount + 1 }

/-- The rows of a request, once it commits. -/
def redeemedRows (tables : Tables Digest) (user : User Digest) (invite : InviteLink Digest)
    (membership : Option ConversationMember) (conversation : Conversation) : Tables Digest :=
  let joined := match membership with
    | none => addMemberRow tables (newMember user conversation)
    | some copy => updateMember tables copy.key (rejoinedFrom copy)
  recordAudit (changeLink joined invite.tokenHash (usedFrom invite))
    { action := "invite.redeemed", actorId := some user.id, targetType := some "conversation",
      targetId := some (toString conversation.id) }

inductive Statement where
  | selectLink
  | check
  | readMember
  | readConversation
  | write
  | commit
  | cut
  deriving DecidableEq

/-- The lock after a request has ended. -/
def released (lock : Option Nat) (index : Nat) : Option Nat :=
  if lock = some index then none else lock

def moved (state : State Digest) (index : Nat) (request : Request Digest) (phase : Phase Digest) :
    State Digest :=
  { state with requests := state.requests.set index { request with phase := phase } }

/-- The transaction is over, and with it the lock. -/
def ended (state : State Digest) (index : Nat) (request : Request Digest) (phase : Phase Digest) :
    State Digest :=
  { moved state index request phase with lock := released state.lock index }

/-- A statement of a request. It is `none` when the statement is not the next
one, or has to wait for the lock. -/
def execute (hash : Digest) (state : State Digest) (index : Nat) (request : Request Digest)
    (statement : Statement) : Option (State Digest) :=
  let tables := state.tables
  match statement, request.phase with
  | .selectLink, .called =>
      match findLink tables hash with
      | none => some (ended state index request .refused)
      | some invite =>
          if state.lock = none then
            some { moved state index request (.locked invite) with lock := some index }
          else none
  | .check, .locked invite =>
      if isSpent invite state.clock then some (ended state index request .refused)
      else some (moved state index request (.passed invite))
  | .readMember, .passed invite =>
      let membership := findMember tables invite.conversationId request.user.id
      if membership.any fun row => row.state == .banned then
        some (ended state index request .refused)
      else some (moved state index request (.seen invite membership))
  | .readConversation, .seen invite membership =>
      match findConversation tables invite.conversationId with
      | none => some (ended state index request .refused)
      | some conversation =>
          some (moved state index request (.joining invite membership conversation))
  | .write, .joining invite membership conversation =>
      if invite.maxUses.any fun most => decide (most < invite.useCount + 1) then
        some (ended state index request (.failed .usesWithinLimit))
      else if integerMax < invite.useCount + 1 then
        some (ended state index request (.failed .useCountRange))
      else if MembershipWritable tables request.user membership conversation then
        some (moved state index request (.written invite membership conversation))
      else some (ended state index request (.failed .memberRow))
  | .commit, .written invite membership conversation =>
      some { ended state index request (.redeemed conversation) with
        tables := redeemedRows tables request.user invite membership conversation }
  -- the client or the database goes away: what was written is rolled back
  | .cut, .redeemed _ | .cut, .refused | .cut, .failed _ | .cut, .cut => none
  | .cut, _ => some (ended state index request .cut)
  | _, _ => none

/-- The row of `conversation_members` that a request has written. -/
def Request.writes (request : Request Digest) : Option (Uuid × Uuid) :=
  match request.phase with
  | .written _ _ conversation => some (conversation.id, request.user.id)
  | _ => none

inductive Action (Digest : Type) where
  | receive (user : User Digest)
  | perform (index : Nat) (statement : Statement)
  | revoke
  | wait (duration : Time)
  /-- Others commit anything but a change of the link. -/
  | elsewhere (tables : Tables Digest)

def step (hash : Digest) (state : State Digest) : Action Digest → Option (State Digest)
  | .receive user => some { state with requests := state.requests ++ [⟨user, .called⟩] }
  | .perform index statement =>
      (state.requests[index]?).bind fun request => execute hash state index request statement
  | .revoke =>
      if state.lock = none then
        some { state with
          tables := changeLink state.tables hash fun row => { row with revokedAt := some state.clock } }
      else none
  | .wait duration => some { state with clock := state.clock + duration }
  | .elsewhere tables =>
      if findLink tables hash = findLink state.tables hash ∧
          ∀ request ∈ state.requests, ∀ key ∈ request.writes,
            findMember tables key.1 key.2 = findMember state.tables key.1 key.2 then
        some { state with tables := tables }
      else none

end Statements

section Links
variable {Digest : Type} [DecidableEq Digest] {tables : Tables Digest} {hash : Digest}

theorem find_changed (change : InviteLink Digest → InviteLink Digest)
    (same : ∀ row, (change row).tokenHash = row.tokenHash) :
    findLink (changeLink tables hash change) hash = (findLink tables hash).map change := by
  have unmoved : ((fun row : InviteLink Digest => row.tokenHash == hash) ∘ fun row =>
      if row.tokenHash = hash then change row else row) = fun row => row.tokenHash == hash := by
    funext row
    simp only [Function.comp]
    split
    · rw [same]
    · rfl
  unfold findLink changeLink
  rw [List.find?_map, unmoved]
  cases found : tables.invites.find? fun row => row.tokenHash == hash with
  | none => rfl
  | some row =>
      have named : row.tokenHash = hash := by simpa using List.find?_some found
      simp [named]

theorem find_named {row : InviteLink Digest} (found : findLink tables hash = some row) :
    row.tokenHash = hash := by
  simpa using List.find?_some found

/-- The link after a redemption has one use more. -/
theorem find_redeemed {user : User Digest} {invite : InviteLink Digest}
    {membership : Option ConversationMember} {conversation : Conversation}
    (found : findLink tables hash = some invite) :
    findLink (redeemedRows tables user invite membership conversation) hash =
      some (usedFrom invite invite) := by
  obtain rfl := find_named found
  have used : ∀ tables : Tables Digest, findLink tables invite.tokenHash = some invite →
      findLink (changeLink tables invite.tokenHash (usedFrom invite)) invite.tokenHash =
        some (usedFrom invite invite) := by
    intro tables found
    rw [find_changed (usedFrom invite) fun _ => rfl, found, Option.map_some]
  cases membership with
  | none => exact used (addMemberRow tables (newMember user conversation)) found
  | some copy => exact used (updateMember tables copy.key (rejoinedFrom copy)) found

/-- Undisturbed, a request writes what `redeem_invite` on its own does. -/
theorem redeemed_alone (schema : Schema tables) {invite : InviteLink Digest}
    (listed : invite ∈ tables.invites) (user : User Digest) (conversation : Conversation) :
    redeemedRows tables user invite (findMember tables conversation.id user.id) conversation =
      recordAudit (redeemed (match findMember tables conversation.id user.id with
          | some membership => updateMember tables membership.key rejoined
          | none => addMemberRow tables (newMember user conversation)) invite)
        { action := "invite.redeemed", actorId := some user.id,
          targetType := some "conversation", targetId := some (toString conversation.id) } := by
  have used : ∀ joined : Tables Digest, joined.invites = tables.invites →
      changeLink joined invite.tokenHash (usedFrom invite) = redeemed joined invite := by
    intro joined same
    unfold changeLink redeemed
    rw [same]
    congr 1
    apply List.map_congr_left
    intro row member
    by_cases named : row.tokenHash = invite.tokenHash
    · obtain rfl := same_row InviteLink.tokenHash schema.invites member listed named
      simp [usedFrom]
    · simp [named]
  unfold redeemedRows
  cases found : findMember tables conversation.id user.id with
  | none => exact congrArg (recordAudit · _) (used _ rfl)
  | some copy =>
      have rejoins : updateMember tables copy.key (rejoinedFrom copy) =
          updateMember tables copy.key rejoined := by
        have stored := List.mem_of_find?_eq_some found
        unfold updateMember
        congr 1
        apply List.map_congr_left
        intro row member
        by_cases same : row.key = copy.key
        · obtain rfl := same_row ConversationMember.key schema.members member stored same
          simp only [if_true, rejoinedFrom, rejoined]
          cases left : row.leftAt <;> cases state : row.state <;> simp
        · rw [if_neg same, if_neg same]
      change recordAudit (changeLink (updateMember tables copy.key (rejoinedFrom copy)) _ _) _ = _
      rw [rejoins]
      exact congrArg (recordAudit · _) (used _ rfl)

end Links

section Invariant
variable {Digest : Type} [DecidableEq Digest]

/-- The copy of the link that a request holds under the lock. -/
def Phase.copy : Phase Digest → Option (InviteLink Digest)
  | .locked invite | .passed invite | .seen invite _ | .joining invite _ _ | .written invite _ _ =>
      some invite
  | _ => none

/-- The copy of a request that passed the check. -/
def Phase.checked : Phase Digest → Option (InviteLink Digest)
  | .passed invite | .seen invite _ | .joining invite _ _ | .written invite _ _ => some invite
  | _ => none

def Phase.isRedeemed : Phase Digest → Bool
  | .redeemed _ => true
  | _ => false

/-- The number of redemptions that were committed. -/
def redemptions (state : State Digest) : Nat :=
  state.requests.countP fun request => request.phase.isRedeemed

def WithinLimit (invite : InviteLink Digest) : Prop :=
  ∀ most ∈ invite.maxUses, invite.useCount ≤ most

def HasRoom (invite : InviteLink Digest) : Prop := ∀ most ∈ invite.maxUses, invite.useCount < most

structure Inv (hash : Digest) (link : InviteLink Digest) (state : State Digest) : Prop where
  stored : ∃ row, findLink state.tables hash = some row ∧ row.maxUses = link.maxUses ∧
    row.useCount = link.useCount + redemptions state ∧ WithinLimit row
  /-- Whoever has read the link holds it, so that the copy is up to date. -/
  locked : ∀ index request copy, state.requests[index]? = some request →
    request.phase.copy = some copy → state.lock = some index ∧ findLink state.tables hash = some copy
  room : ∀ request ∈ state.requests, ∀ copy, request.phase.checked = some copy → HasRoom copy
  unfailed : ∀ request ∈ state.requests, request.phase ≠ .failed .usesWithinLimit

omit [DecidableEq Digest] in
theorem unspent_room {invite : InviteLink Digest} {now : Time} (unspent : isSpent invite now = false) :
    HasRoom invite := by
  intro most limited
  simp only [isSpent, Bool.or_eq_false_iff] at unspent
  have below := unspent.2
  rw [Option.mem_def.mp limited] at below
  simpa using below

omit [DecidableEq Digest] in
/-- With room for one more use the check `uses_within_limit` lets it in. -/
theorem room_allows {invite : InviteLink Digest} (room : HasRoom invite) :
    (invite.maxUses.any fun most => decide (most < invite.useCount + 1)) = false := by
  cases limited : invite.maxUses with
  | none => rfl
  | some most =>
      have below := room most limited
      simp only [Option.any_some, decide_eq_false_iff_not]
      omega

variable {hash : Digest} {link : InviteLink Digest} {state next : State Digest} {index : Nat}
  {request : Request Digest} {statement : Statement}

/-- What a statement does: the request moves on and the tables stay, or its
rows are committed. -/
inductive Executed (hash : Digest) (state : State Digest) (index : Nat) (request : Request Digest) :
    State Digest → Prop where
  | moves (phase : Phase Digest) (lock : Option Nat)
      (copied : ∀ copy, phase.copy = some copy →
        lock = some index ∧ findLink state.tables hash = some copy)
      (room : ∀ copy, phase.checked = some copy → HasRoom copy)
      (kept : lock = state.lock ∨ state.lock = none ∨ state.lock = some index)
      (unfailed : phase ≠ .failed .usesWithinLimit) (open_ : request.phase.isRedeemed = false)
      (unredeemed : phase.isRedeemed = false) :
      Executed hash state index request { moved state index request phase with lock := lock }
  | commits (invite : InviteLink Digest) (membership : Option ConversationMember)
      (conversation : Conversation) (ready : request.phase = .written invite membership conversation) :
      Executed hash state index request
        { ended state index request (.redeemed conversation) with
          tables := redeemedRows state.tables request.user invite membership conversation }

theorem released_kept (lock : Option Nat) (index : Nat) :
    released lock index = lock ∨ lock = none ∨ lock = some index := by
  unfold released
  by_cases held : lock = some index
  · exact Or.inr (Or.inr held)
  · exact Or.inl (if_neg held)

theorem ends (phase : Phase Digest) (open_ : request.phase.isRedeemed = false)
    (unheld : phase.copy = none) (unchecked : phase.checked = none)
    (unfailed : phase ≠ .failed .usesWithinLimit) (unredeemed : phase.isRedeemed = false) :
    Executed hash state index request (ended state index request phase) :=
  .moves phase (released state.lock index) (fun copy held => by simp [unheld] at held)
    (fun copy held => by simp [unchecked] at held) (released_kept state.lock index) unfailed open_
    unredeemed

theorem execute_effect (inv : Inv hash link state) (found : state.requests[index]? = some request)
    (ran : execute hash state index request statement = some next) :
    Executed hash state index request next := by
  obtain ⟨user, before⟩ := request
  have held := fun copy => inv.locked index _ copy found
  have room := inv.room _ (List.mem_of_getElem? found)
  cases statement with
  | selectLink => cases before with
    | called =>
        simp only [execute] at ran
        split at ran
        · cases ran
          exact ends .refused rfl rfl rfl (by simp) rfl
        · rename_i invite stored
          split at ran
          · rename_i free
            cases ran
            exact .moves (.locked invite) (some index)
              (fun copy same => ⟨rfl, Option.some.inj same ▸ stored⟩)
              (fun copy same => nomatch same) (Or.inr (Or.inl free)) (by simp) rfl rfl
          · cases ran
    | _ => cases ran
  | check => cases before with
    | locked invite =>
        simp only [execute] at ran
        split at ran
        · cases ran
          exact ends .refused rfl rfl rfl (by simp) rfl
        · rename_i unspent
          cases ran
          exact .moves (.passed invite) state.lock (fun copy same => held copy same)
            (fun copy same => Option.some.inj same ▸ unspent_room (by simpa using unspent))
            (Or.inl rfl) (by simp) rfl rfl
    | _ => cases ran
  | readMember => cases before with
    | passed invite =>
        simp only [execute] at ran
        split at ran
        · cases ran
          exact ends .refused rfl rfl rfl (by simp) rfl
        · cases ran
          exact .moves (.seen invite _) state.lock (fun copy same => held copy same)
            (fun copy same => room copy same) (Or.inl rfl) (by simp) rfl rfl
    | _ => cases ran
  | readConversation => cases before with
    | seen invite membership =>
        simp only [execute] at ran
        split at ran
        · cases ran
          exact ends .refused rfl rfl rfl (by simp) rfl
        · rename_i conversation live
          cases ran
          exact .moves (.joining invite membership conversation) state.lock
            (fun copy same => held copy same) (fun copy same => room copy same) (Or.inl rfl)
            (by simp) rfl rfl
    | _ => cases ran
  | write => cases before with
    | joining invite membership conversation =>
        have allowed := room_allows (room invite rfl)
        simp only [execute, allowed, Bool.false_eq_true, if_false] at ran
        split at ran
        · cases ran
          exact ends (.failed .useCountRange) rfl rfl rfl (by simp) rfl
        · split at ran
          · cases ran
            exact .moves (.written invite membership conversation) state.lock
              (fun copy same => held copy same) (fun copy same => room copy same) (Or.inl rfl)
              (by simp) rfl rfl
          · cases ran
            exact ends (.failed .memberRow) rfl rfl rfl (by simp) rfl
    | _ => cases ran
  | commit => cases before with
    | written invite membership conversation =>
        cases ran
        exact .commits invite membership conversation rfl
    | _ => cases ran
  | cut => cases before with
    | redeemed _ | refused | failed _ | cut => cases ran
    | _ =>
        cases ran
        exact ends .cut rfl rfl rfl (by simp) rfl

omit [DecidableEq Digest] in
theorem redemptions_moved (phase : Phase Digest) (lock : Option Nat)
    (found : state.requests[index]? = some request) (open_ : request.phase.isRedeemed = false) :
    redemptions { moved state index request phase with lock := lock } =
      redemptions state + if phase.isRedeemed then 1 else 0 := by
  obtain ⟨bound, here⟩ := List.getElem?_eq_some_iff.mp found
  simp only [redemptions, moved, List.countP_set bound, here, open_]
  simp

theorem moves_inv {phase : Phase Digest} {lock : Option Nat} (inv : Inv hash link state)
    (found : state.requests[index]? = some request)
    (copied : ∀ copy, phase.copy = some copy →
      lock = some index ∧ findLink state.tables hash = some copy)
    (room : ∀ copy, phase.checked = some copy → HasRoom copy)
    (kept : lock = state.lock ∨ state.lock = none ∨ state.lock = some index)
    (unfailed : phase ≠ .failed .usesWithinLimit) (open_ : request.phase.isRedeemed = false)
    (unredeemed : phase.isRedeemed = false) :
    Inv hash link { moved state index request phase with lock := lock } where
  stored := by
    obtain ⟨row, stored, most, count, within⟩ := inv.stored
    refine ⟨row, stored, most, ?_, within⟩
    rw [redemptions_moved phase lock found open_, unredeemed, count]
    rfl
  locked := by
    intro other rival copy listed holds
    rcases Runs.moved_cases listed with ⟨rfl, rfl⟩ | ⟨distinct, old⟩
    · exact copied copy holds
    · obtain ⟨held, current⟩ := inv.locked other rival copy old holds
      refine ⟨?_, current⟩
      rcases kept with same | free | own
      · exact same.trans held
      · rw [held] at free
        cases free
      · rw [held] at own
        exact absurd (Option.some.inj own) distinct
  room := by
    intro rival member copy passed
    rcases List.mem_or_eq_of_mem_set member with old | rfl
    · exact inv.room rival old copy passed
    · exact room copy passed
  unfailed := by
    intro rival member
    rcases List.mem_or_eq_of_mem_set member with old | rfl
    · exact inv.unfailed rival old
    · exact unfailed

theorem commits_inv {invite : InviteLink Digest} {membership : Option ConversationMember}
    {conversation : Conversation} (inv : Inv hash link state)
    (found : state.requests[index]? = some request)
    (ready : request.phase = .written invite membership conversation) :
    Inv hash link { ended state index request (.redeemed conversation) with
      tables := redeemedRows state.tables request.user invite membership conversation } := by
  have listed := List.mem_of_getElem? found
  obtain ⟨held, current⟩ := inv.locked index request invite found (by rw [ready]; rfl)
  have room := inv.room request listed invite (by rw [ready]; rfl)
  obtain ⟨row, stored, most, count, _⟩ := inv.stored
  obtain rfl : invite = row := Option.some.inj (current.symm.trans stored)
  exact {
    stored := by
      refine ⟨usedFrom invite invite, find_redeemed current, most, ?_, fun limit limited => ?_⟩
      · have counted := redemptions_moved (.redeemed conversation) (released state.lock index)
          found (by rw [ready]; rfl)
        change invite.useCount + 1 = link.useCount + redemptions _
        rw [count, Nat.add_assoc]
        exact congrArg (link.useCount + ·) counted.symm
      · exact Nat.succ_le_of_lt (room limit limited)
    locked := by
      -- the lock was held by this request, so no other one has a copy
      intro other rival copy also holds
      rcases Runs.moved_cases also with ⟨rfl, rfl⟩ | ⟨distinct, old⟩
      · cases holds
      · have theirs := (inv.locked other rival copy old holds).1
        rw [held] at theirs
        exact absurd (Option.some.inj theirs).symm distinct
    room := by
      intro rival member copy passed
      rcases List.mem_or_eq_of_mem_set member with old | rfl
      · exact inv.room rival old copy passed
      · cases passed
    unfailed := by
      intro rival member
      rcases List.mem_or_eq_of_mem_set member with old | rfl
      · exact inv.unfailed rival old
      · simp }

theorem step_inv {action : Action Digest} (inv : Inv hash link state)
    (taken : step hash state action = some next) : Inv hash link next := by
  cases action with
  | receive user =>
      cases taken
      exact { inv with
        stored := by
          obtain ⟨row, stored, most, count, within⟩ := inv.stored
          refine ⟨row, stored, most, ?_, within⟩
          simpa [redemptions, List.countP_append, Phase.isRedeemed] using count
        locked := by
          intro index request copy listed holds
          rcases Runs.added_cases listed with old | ⟨_, rfl⟩
          · exact inv.locked index request copy old holds
          · cases holds
        room := by
          intro request member copy passed
          rcases List.mem_append.mp member with old | new
          · exact inv.room request old copy passed
          · rw [List.mem_singleton.mp new] at passed
            cases passed
        unfailed := by
          intro request member
          rcases List.mem_append.mp member with old | new
          · exact inv.unfailed request old
          · rw [List.mem_singleton.mp new]
            simp }
  | perform index statement =>
      obtain ⟨request, found, ran⟩ := Option.bind_eq_some_iff.mp taken
      cases execute_effect inv found ran with
      | moves phase lock copied room kept unfailed open_ unredeemed =>
          exact moves_inv inv found copied room kept unfailed open_ unredeemed
      | commits invite membership conversation ready => exact commits_inv inv found ready
  | revoke =>
      simp only [step] at taken
      split at taken
      · rename_i free
        cases taken
        exact { inv with
          stored := by
            obtain ⟨row, stored, most, count, within⟩ := inv.stored
            refine ⟨{ row with revokedAt := some state.clock }, ?_, most, count, within⟩
            rw [find_changed (fun row => { row with revokedAt := some state.clock }) fun _ => rfl,
              stored, Option.map_some]
          locked := by
            intro index request copy listed holds
            have held := (inv.locked index request copy listed holds).1
            rw [free] at held
            cases held }
      · cases taken
  | wait duration =>
      cases taken
      exact { inv with }
  | elsewhere tables =>
      simp only [step] at taken
      split at taken
      · rename_i kept
        cases taken
        exact { inv with
          stored := by
            obtain ⟨row, stored, rest⟩ := inv.stored
            exact ⟨row, kept.1.trans stored, rest⟩
          locked := by
            intro index request copy listed holds
            obtain ⟨held, current⟩ := inv.locked index request copy listed holds
            exact ⟨held, kept.1.trans current⟩ }
      · cases taken

end Invariant

section Outcomes
variable {Digest : Type} [DecidableEq Digest] {hash : Digest} {link : InviteLink Digest}
  {state next final : State Digest} {index : Nat} {request : Request Digest}

def Phase.isEnded : Phase Digest → Bool
  | .redeemed _ | .refused | .failed _ | .cut => true
  | _ => false

/-- The link is revoked, or has expired by now. -/
def Closed (hash : Digest) (state : State Digest) : Prop :=
  ∃ row, findLink state.tables hash = some row ∧
    (row.revokedAt ≠ none ∨ ∃ moment, row.expiresAt = some moment ∧ moment ≤ state.clock)

theorem execute_open {statement : Statement}
    (ran : execute hash state index request statement = some next) :
    request.phase.isEnded = false := by
  obtain ⟨user, before⟩ := request
  cases before with
  | redeemed _ | refused | failed _ | cut => cases statement <;> cases ran
  | _ => rfl

/-- An ended request is never changed again. -/
theorem ended_stays {action : Action Digest} (inv : Inv hash link state)
    (found : state.requests[index]? = some request) (ended : request.phase.isEnded = true)
    (taken : step hash state action = some next) : next.requests[index]? = some request := by
  have bound : index < state.requests.length := (List.getElem?_eq_some_iff.mp found).1
  cases action with
  | receive user =>
      cases taken
      exact (List.getElem?_append_left bound).trans found
  | perform other statement =>
      obtain ⟨mover, listed, ran⟩ := Option.bind_eq_some_iff.mp taken
      have distinct : other ≠ index := by
        rintro rfl
        obtain rfl := Option.some.inj (listed.symm.trans found)
        rw [execute_open ran] at ended
        cases ended
      cases execute_effect inv listed ran with
      | moves phase lock | commits invite membership conversation =>
          exact (List.getElem?_set_ne distinct).trans found
  | revoke =>
      simp only [step] at taken
      split at taken
      · cases taken
        exact found
      · cases taken
  | wait duration =>
      cases taken
      exact found
  | elsewhere tables =>
      simp only [step] at taken
      split at taken
      · cases taken
        exact found
      · cases taken

theorem ended_to_end {actions : List (Action Digest)} (inv : Inv hash link state)
    (ran : Runs.run (step hash) state actions = some final)
    (found : state.requests[index]? = some request) (ended : request.phase.isEnded = true) :
    final.requests[index]? = some request := by
  have kept := Runs.run_invariant
    (fun state => Inv hash link state ∧ state.requests[index]? = some request)
    (fun _ _ _ both taken => ⟨step_inv both.1 taken, ended_stays both.1 both.2 ended taken⟩)
    ran ⟨inv, found⟩
  exact kept.2

/-- A check of a closed link refuses the request. -/
theorem closed_refuses (inv : Inv hash link state)
    (taken : step hash state (.perform index .check) = some next) (closed : Closed hash state) :
    ∃ request, next.requests[index]? = some request ∧ request.phase = .refused := by
  obtain ⟨⟨user, before⟩, found, ran⟩ := Option.bind_eq_some_iff.mp taken
  have bound : index < state.requests.length := (List.getElem?_eq_some_iff.mp found).1
  cases before with
  | locked invite =>
      obtain ⟨row, stored, reason⟩ := closed
      have current := (inv.locked index _ invite found rfl).2
      obtain rfl : invite = row := Option.some.inj (current.symm.trans stored)
      have spent : isSpent invite state.clock = true := by
        unfold isSpent
        rcases reason with revoked | ⟨moment, expires, past⟩
        · simp [Option.isSome_iff_ne_none, revoked]
        · simp [expires, past]
      simp only [execute, if_pos spent] at ran
      cases ran
      exact ⟨⟨user, .refused⟩, List.getElem?_set_self bound, rfl⟩
  | _ => cases ran

/-- Only a commit writes. -/
theorem perform_writes {statement : Statement} (inv : Inv hash link state)
    (taken : step hash state (.perform index statement) = some next) :
    next.tables = state.tables ∨ ∃ request, next.requests[index]? = some request ∧
      request.phase.isRedeemed = true := by
  obtain ⟨request, found, ran⟩ := Option.bind_eq_some_iff.mp taken
  have bound : index < state.requests.length := (List.getElem?_eq_some_iff.mp found).1
  cases execute_effect inv found ran with
  | moves phase lock => exact Or.inl rfl
  | commits invite membership conversation ready =>
      exact Or.inr ⟨_, List.getElem?_set_self bound, rfl⟩

omit [DecidableEq Digest] in
theorem redeemed_ended {phase : Phase Digest} (redeemed : phase.isRedeemed = true) :
    phase.isEnded = true := by
  cases phase with
  | redeemed conversation => rfl
  | _ => cases redeemed

theorem start_inv (start : Database Digest) (clock : Time) {link : InviteLink Digest}
    (stored : findLink start.toTables hash = some link) :
    Inv hash link { tables := start.toTables, clock := clock } where
  stored := ⟨link, stored, rfl, rfl, fun most limited =>
    (start.schema.usesWithinLimit link (List.mem_of_find?_eq_some stored) most limited).2⟩
  locked := fun index request copy listed => by simp at listed
  room := fun request member => absurd member List.not_mem_nil
  unfailed := fun request member => absurd member List.not_mem_nil

/-- However the requests for a link interleave, its count is the number of
redemptions, which keep within its limit; a request that checks a closed link
is refused, and a request that does not redeem writes nothing. -/
theorem link_used_within_limit (hash : Digest) (start : Database Digest) (clock : Time)
    (link : InviteLink Digest) (stored : findLink start.toTables hash = some link)
    (actions : List (Action Digest)) (final : State Digest)
    (ran : Runs.run (step hash) { tables := start.toTables, clock := clock } actions =
      some final) :
    (∃ row, findLink final.tables hash = some row ∧
      row.useCount = link.useCount + redemptions final ∧
      ∀ most ∈ link.maxUses, link.useCount + redemptions final ≤ most) ∧
    (∀ request ∈ final.requests, request.phase ≠ .failed .usesWithinLimit) ∧
    ∀ before index statement after visited next,
      actions = before ++ .perform index statement :: after →
      Runs.run (step hash) { tables := start.toTables, clock := clock } before = some visited →
      step hash visited (.perform index statement) = some next →
      (statement = .check → Closed hash visited →
        ∃ request, final.requests[index]? = some request ∧ request.phase = .refused) ∧
      ((∃ request, final.requests[index]? = some request ∧ request.phase.isRedeemed = false) →
        next.tables = visited.tables) := by
  have begins := start_inv start clock stored
  have keeps : ∀ state action next, Inv hash link state → step hash state action = some next →
      Inv hash link next := fun _ _ _ inv taken => step_inv inv taken
  have ends := Runs.run_invariant (Inv hash link) keeps ran begins
  refine ⟨?_, ends.unfailed, ?_⟩
  · obtain ⟨row, found, most, count, within⟩ := ends.stored
    refine ⟨row, found, count, fun limit limited => ?_⟩
    rw [← count]
    exact within limit (most ▸ limited)
  · rintro before index statement after visited next rfl reached taken
    have inv := Runs.run_invariant (Inv hash link) keeps reached begins
    have later : Runs.run (step hash) next after = some final := by
      obtain ⟨following, also, rest⟩ :=
        (Runs.run_cons_iff _ _ _ _).mp (Runs.run_after ran reached)
      rwa [Option.some.inj (also.symm.trans taken)] at rest
    have onward := step_inv inv taken
    constructor
    · rintro rfl closed
      obtain ⟨request, refused, phase⟩ := closed_refuses inv taken closed
      exact ⟨request, ended_to_end onward later refused (by rw [phase]; rfl), phase⟩
    · rintro ⟨request, listed, unredeemed⟩
      rcases perform_writes inv taken with same | ⟨mover, redeemed, success⟩
      · exact same
      · have kept := ended_to_end onward later redeemed (redeemed_ended success)
        rw [Option.some.inj (kept.symm.trans listed), unredeemed] at success
        cases success

def visitor (id : Uuid) : User Nat :=
  { id := id, phoneHash := id, phoneLast4 := "1234", phoneCountry := "91", displayName := ""
    systemRole := .user, accountState := .active, deletedAt := none }

def lastSeat : InviteLink Nat :=
  { conversationId := 5, tokenHash := 7, createdBy := none, maxUses := some 1
    requiresApproval := false, expiresAt := none }

def cinema : Database Nat :=
  ⟨{ users := [visitor 1, visitor 2]
     conversations := [{ id := 5, kind := .group, createdBy := none, updatedAt := 0 }]
     invites := [lastSeat] }, by decide⟩

/-- Two visitors ask for the last use; the second waits for the row and is refused. -/
def rush : List (Action Nat) :=
  [.receive (visitor 1), .receive (visitor 2)] ++
    ([.selectLink, .check, .readMember, .readConversation, .write, .commit].map (.perform 0)) ++
    ([.selectLink, .check].map (.perform 1))

theorem last_seat_taken_once : ∃ final,
    Runs.run (step 7) { tables := cinema.toTables, clock := 0 } rush = some final ∧
      final.requests.map (fun request => request.phase.isRedeemed) = [true, false] ∧
      redemptions final ≤ 1 := by
  have result : (Runs.run (step 7) { tables := cinema.toTables, clock := 0 } rush).map
      (fun final => final.requests.map fun request => request.phase.isRedeemed) =
        some [true, false] := by
    decide
  obtain ⟨final, ran, outcomes⟩ := Option.map_eq_some_iff.mp result
  refine ⟨final, ran, outcomes, ?_⟩
  obtain ⟨row, _, _, within⟩ :=
    (link_used_within_limit 7 cinema 0 lastSeat (by decide) rush final ran).1
  simpa [lastSeat] using within 1 rfl

end Outcomes

end RunnerupChat.InviteRaces
