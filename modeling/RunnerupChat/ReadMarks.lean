import RunnerupChat.ContentReads
import RunnerupChat.MessageNumbers

/-!
`mark_read` beside the requests of the message store. A call reads the
conversation and then the membership, each by a statement of its own and
without a lock; what it writes becomes visible when it commits. Whether
`resolve_access` admits the user is an input.
-/

namespace RunnerupChat.ReadMarks

open Accounts UniqueKeys
open Authz (ConversationMember ConversationOut Tables joinedRows listForUser)
open MessageStore (lastSeq messagesOf eventsOf Numbered)

inductive Phase where
  | received
  | loaded (lastSeq : Nat)
  | marked (lastSeq lastReadSeq : Nat)
  | publishing (lastReadSeq : Nat)

/-- A call of the route; the copies it has read are in its phase. -/
structure Call where
  conversation : Uuid
  user : Uuid
  upToSeq : Nat
  phase : Phase

/-- The event `receipt.read`. -/
structure Receipt where
  conversationId : Uuid
  userId : Uuid
  upToSeq : Nat
  deriving DecidableEq

structure State where
  store : MessageStore.State
  members : List ConversationMember
  calls : TxId → Option Call
  receipts : List Receipt

inductive Action where
  | serve (action : MessageStore.Action)
  | saveMember (row : ConversationMember)
  | receive (tx : TxId) (conversation user : Uuid) (upToSeq : Nat)
  | loadConversation (tx : TxId)
  | loadMembership (tx : TxId) (admitted : Bool)
  | commit (tx : TxId)
  | publish (tx : TxId)
  | rollback (tx : TxId)

def isRow (conversation user : Uuid) (row : ConversationMember) : Bool :=
  row.conversationId == conversation && row.userId == user

def membershipOf (state : State) (conversation user : Uuid) : Option ConversationMember :=
  state.members.find? (isRow conversation user)

section Machine
variable (searchMatches : String → String → Bool)

def initial : State :=
  { store := MessageStore.initial, members := [], calls := fun _ => none, receipts := [] }

def enter (state : State) (tx : TxId) (call : Call) : State :=
  { state with calls := assign state.calls tx (some call) }

def finish (state : State) (tx : TxId) : State :=
  { state with calls := assign state.calls tx none }

/-- Any other request about a member. A new row starts at the column's
default, and none but `mark_read` writes the column. -/
def saveMember (state : State) (row : ConversationMember) : State :=
  let same := isRow row.conversationId row.userId
  if state.members.any same then
    { state with
      members := state.members.map fun old =>
        if same old then { row with lastReadSeq := old.lastReadSeq } else old }
  else { state with members := state.members ++ [{ row with lastReadSeq := 0 }] }

def receive (state : State) (tx : TxId) (conversation user : Uuid) (upToSeq : Nat) :
    Option State :=
  if (state.calls tx).isSome then none
  else some (enter state tx ⟨conversation, user, upToSeq, .received⟩)

def loadConversation (state : State) (tx : TxId) : Option State :=
  match state.calls tx with
  | some ⟨conversation, user, upToSeq, .received⟩ =>
      match state.store.conversations.find? fun row =>
          row.id == conversation && row.deletedAt.isNone with
      | none => some (finish state tx)
      | some row => some (enter state tx ⟨conversation, user, upToSeq, .loaded row.lastSeq⟩)
  | _ => none

/-- The second query of `resolve_access`, and the checks of `mark_read`. -/
def loadMembership (state : State) (tx : TxId) (admitted : Bool) : Option State :=
  match state.calls tx with
  | some ⟨conversation, user, upToSeq, .loaded lastSeq⟩ =>
      match membershipOf state conversation user with
      | none => some (finish state tx)
      | some row =>
          if !admitted || decide (upToSeq ≤ row.lastReadSeq) then some (finish state tx)
          else some (enter state tx
            ⟨conversation, user, upToSeq, .marked lastSeq row.lastReadSeq⟩)
  | _ => none

def commit (state : State) (tx : TxId) : Option State :=
  match state.calls tx with
  | some ⟨conversation, user, upToSeq, .marked lastSeq lastReadSeq⟩ =>
      let read := min upToSeq lastSeq
      let members :=
        -- a column equal to the copy that was read is not written
        if read = lastReadSeq then state.members
        else state.members.map fun row =>
          if isRow conversation user row then { row with lastReadSeq := read } else row
      some { enter state tx ⟨conversation, user, upToSeq, .publishing read⟩ with
        members := members }
  | _ => none

def publish (state : State) (tx : TxId) : Option State :=
  match state.calls tx with
  | some ⟨conversation, user, _, .publishing read⟩ =>
      some { finish state tx with receipts := state.receipts ++ [⟨conversation, user, read⟩] }
  | _ => none

def step (state : State) : Action → Option State
  | .serve action =>
      (MessageStore.step searchMatches state.store action).map fun store =>
        { state with store := store }
  | .saveMember row => some (saveMember state row)
  | .receive tx conversation user upToSeq => receive state tx conversation user upToSeq
  | .loadConversation tx => loadConversation state tx
  | .loadMembership tx admitted => loadMembership state tx admitted
  | .commit tx => commit state tx
  | .publish tx => publish state tx
  | .rollback tx => if (state.calls tx).isSome then some (finish state tx) else none

end Machine

/-- The committed `last_read_seq` of a member. -/
def markOf (state : State) (conversation user : Uuid) : Option Nat :=
  (membershipOf state conversation user).map ConversationMember.lastReadSeq

/-- The tables that `list_for_user` reads; `details` has the columns of a
conversation that no message changes. -/
def tablesOf {Digest : Type} (details : Uuid → Authz.Conversation) (state : State) :
    Tables Digest :=
  { users := []
    conversations := state.store.conversations.map fun row =>
      { details row.id with id := row.id, lastSeq := row.lastSeq, deletedAt := row.deletedAt }
    members := state.members }

/-- No edit and no deletion has taken a number above the mark. -/
def OnlyCreatedAbove (state : State) (conversation : Uuid) (mark : Nat) : Prop :=
  ∀ event ∈ eventsOf state.store conversation, mark < event.seq → event.type = .created

/-- The member's mark is no lower later on, and no higher than the counter. -/
def Advances (conversation user : Uuid) (earlier later : State) : Prop :=
  ∀ mark, markOf earlier conversation user = some mark →
    ∃ after, markOf later conversation user = some after ∧
      mark ≤ after ∧ after ≤ lastSeq later.store conversation

/-- A commit that writes the mark does so on top of none that is higher than
what the call was asked for or than the counter it read. -/
def Rising (conversation user : Uuid) (state : State) : Action → Prop
  | .commit tx => ∀ call last read, state.calls tx = some call → call.phase = .marked last read →
      call.conversation = conversation → call.user = user → last ≠ read →
        ∀ mark, markOf state conversation user = some mark → mark ≤ call.upToSeq ∧ mark ≤ last
  | _ => True

/-- What a call has read is not ahead of the counter. -/
def Call.Fits (call : Call) (store : MessageStore.State) : Prop :=
  match call.phase with
  | .loaded last => last ≤ lastSeq store call.conversation
  | .marked last read => last ≤ lastSeq store call.conversation ∧ read < call.upToSeq
  | _ => True

structure Inv (state : State) : Prop where
  store : MessageStore.Inv state.store
  numbered : ∀ conversation, Numbered state.store conversation
  copies : ∀ tx call, state.calls tx = some call → call.Fits state.store
  bounded : ∀ row ∈ state.members, row.lastReadSeq ≤ lastSeq state.store row.conversationId
  keys : (state.members.map ConversationMember.key).Nodup

/-- What one step can do. -/
inductive Effect (searchMatches : String → String → Bool) (state next : State)
    (action : Action) : Prop
  | served (inner : MessageStore.Action) (store : MessageStore.State)
      (taken : MessageStore.step searchMatches state.store inner = some store)
      (result : next = { state with store := store })
  | saved (row : ConversationMember) (result : next = saveMember state row)
  | moved (tx : TxId) (call : Option Call) (store : next.store = state.store)
      (members : next.members = state.members) (calls : next.calls = assign state.calls tx call)
      (fits : ∀ moved, call = some moved → moved.Fits state.store)
  | marked (tx : TxId) (call : Call) (last read : Nat) (committing : action = .commit tx)
      (ready : state.calls tx = some call) (phase : call.phase = .marked last read)
      (store : next.store = state.store)
      (calls : next.calls =
        assign state.calls tx (some { call with phase := .publishing (min call.upToSeq last) }))
      (members : next.members =
        if min call.upToSeq last = read then state.members
        else state.members.map fun row =>
          if isRow call.conversation call.user row then
            { row with lastReadSeq := min call.upToSeq last }
          else row)

section Steps
variable {searchMatches : String → String → Bool} {state next : State} {action : Action}

theorem finish_effect (tx : TxId) : Effect searchMatches state (finish state tx) action :=
  .moved tx none rfl rfl rfl (by simp)

theorem enter_effect (tx : TxId) {call : Call} (fits : call.Fits state.store) :
    Effect searchMatches state (enter state tx call) action :=
  .moved tx (some call) rfl rfl rfl (by rintro moved ⟨⟩; exact fits)

theorem load_conversation_effect (inv : Inv state) {tx : TxId}
    (taken : loadConversation state tx = some next) : Effect searchMatches state next action := by
  unfold loadConversation at taken
  split at taken
  case h_2 => cases taken
  case h_1 conversation user upToSeq opened =>
    split at taken
    · cases taken
      exact finish_effect tx
    · rename_i row found
      cases taken
      have named := List.find?_some found
      simp only [Bool.and_eq_true, beq_iff_eq] at named
      have current := MessageStore.last_seq_of_row inv.store.conversations
        (List.mem_of_find?_eq_some found)
      apply enter_effect
      show row.lastSeq ≤ lastSeq state.store conversation
      rw [lastSeq, ← named.1, current]
      exact Nat.le_refl _

theorem load_membership_effect (inv : Inv state) {tx : TxId} {admitted : Bool}
    (taken : loadMembership state tx admitted = some next) :
    Effect searchMatches state next action := by
  unfold loadMembership at taken
  split at taken
  case h_2 => cases taken
  case h_1 conversation user upToSeq last opened =>
    split at taken
    · cases taken
      exact finish_effect tx
    · rename_i row found
      split at taken
      · cases taken
        exact finish_effect tx
      · rename_i fresh
        cases taken
        simp only [Bool.or_eq_true, decide_eq_true_eq, not_or] at fresh
        exact enter_effect tx ⟨inv.copies tx _ opened, Nat.lt_of_not_le fresh.2⟩

theorem step_effect (inv : Inv state) (taken : step searchMatches state action = some next) :
    Effect searchMatches state next action := by
  cases action with
  | serve inner =>
      obtain ⟨store, stepped, rfl⟩ := Option.map_eq_some_iff.mp taken
      exact .served inner store stepped rfl
  | saveMember row =>
      cases taken
      exact .saved row rfl
  | receive tx conversation user upToSeq =>
      simp only [step, receive] at taken
      split at taken
      · cases taken
      · cases taken
        exact enter_effect tx trivial
  | loadConversation tx => exact load_conversation_effect inv taken
  | loadMembership tx admitted => exact load_membership_effect inv taken
  | commit tx =>
      simp only [step, commit] at taken
      split at taken
      case h_2 => cases taken
      case h_1 conversation user upToSeq last read ready =>
        cases taken
        exact .marked tx _ last read rfl ready rfl rfl rfl rfl
  | publish tx =>
      simp only [step, publish] at taken
      split at taken
      case h_2 => cases taken
      case h_1 =>
        cases taken
        exact .moved tx none rfl rfl rfl (by simp)
  | rollback tx =>
      simp only [step] at taken
      split at taken
      · cases taken
        exact finish_effect tx
      · cases taken

theorem fits_later {call : Call} {store later : MessageStore.State} (fits : call.Fits store)
    (grows : ∀ conversation, lastSeq store conversation ≤ lastSeq later conversation) :
    call.Fits later := by
  obtain ⟨conversation, user, upToSeq, phase⟩ := call
  cases phase with
  | loaded last => exact Nat.le_trans fits (grows conversation)
  | marked last read => exact ⟨Nat.le_trans fits.1 (grows conversation), fits.2⟩
  | received | publishing => trivial

theorem assigned_fits (inv : Inv state) {tx : TxId} {call : Option Call}
    (fits : ∀ moved, call = some moved → moved.Fits state.store) (other : TxId) (found : Call)
    (listed : assign state.calls tx call other = some found) : found.Fits state.store := by
  rcases assign_cases listed with ⟨_, here⟩ | ⟨_, kept⟩
  · exact fits found here
  · exact inv.copies other found kept

theorem saved_bounded (inv : Inv state) (row : ConversationMember) :
    ∀ found ∈ (saveMember state row).members,
      found.lastReadSeq ≤ lastSeq state.store found.conversationId := by
  intro found member
  unfold saveMember at member
  dsimp only at member
  split at member
  · obtain ⟨old, listed, rfl⟩ := List.mem_map.mp member
    split
    · rename_i same
      simp only [isRow, Bool.and_eq_true, beq_iff_eq] at same
      exact same.1 ▸ inv.bounded old listed
    · exact inv.bounded old listed
  · rcases List.mem_append.mp member with old | new
    · exact inv.bounded found old
    · rw [List.mem_singleton.mp new]
      exact Nat.zero_le _

theorem is_row_key {conversation user : Uuid} {row : ConversationMember} :
    isRow conversation user row = true ↔ row.key = (conversation, user) := by
  simp [isRow, ConversationMember.key]

theorem saved_keys (inv : Inv state) (row : ConversationMember) :
    ((saveMember state row).members.map ConversationMember.key).Nodup := by
  unfold saveMember
  dsimp only
  split
  · rw [List.map_map]
    have same : ∀ old ∈ state.members, (ConversationMember.key ∘ fun old =>
        if isRow row.conversationId row.userId old then
          { row with lastReadSeq := old.lastReadSeq } else old) old = old.key := by
      intro old member
      simp only [Function.comp]
      split
      · rename_i hit
        exact (is_row_key.mp hit).symm
      · rfl
    rw [List.map_congr_left same]
    exact inv.keys
  · rename_i absent
    rw [List.map_append]
    apply List.nodup_append.mpr ⟨inv.keys, List.nodup_singleton _, ?_⟩
    rintro old member new inside rfl
    obtain ⟨found, listed, same⟩ := List.mem_map.mp member
    apply absent
    rw [List.any_eq_true]
    exact ⟨found, listed, is_row_key.mpr (same.trans (List.mem_singleton.mp inside))⟩

/-- A step on the rows and the calls alone. -/
theorem steady_inv (inv : Inv state) (store : next.store = state.store)
    (copies : ∀ tx call, next.calls tx = some call → call.Fits state.store)
    (bounded : ∀ row ∈ next.members, row.lastReadSeq ≤ lastSeq state.store row.conversationId)
    (keys : (next.members.map ConversationMember.key).Nodup) : Inv next := by
  constructor
  case store => exact store ▸ inv.store
  case numbered => exact store ▸ inv.numbered
  case copies => exact store ▸ copies
  case bounded => exact store ▸ bounded
  case keys => exact keys

/-- The mark that a commit writes, where it writes one. -/
def markedRows (rows : List ConversationMember) (call : Call) (last : Nat) :
    List ConversationMember :=
  rows.map fun row =>
    if isRow call.conversation call.user row then
      { row with lastReadSeq := min call.upToSeq last }
    else row

theorem marked_bounded (inv : Inv state) {call : Call} {last : Nat}
    (current : last ≤ lastSeq state.store call.conversation) :
    ∀ row ∈ markedRows state.members call last,
      row.lastReadSeq ≤ lastSeq state.store row.conversationId := by
  intro row member
  obtain ⟨old, listed, rfl⟩ := List.mem_map.mp member
  split
  · rename_i same
    simp only [isRow, Bool.and_eq_true, beq_iff_eq] at same
    show min call.upToSeq last ≤ lastSeq state.store old.conversationId
    rw [same.1]
    exact Nat.le_trans (Nat.min_le_right _ _) current
  · exact inv.bounded old listed

theorem marked_keys (rows : List ConversationMember) (call : Call) (last : Nat) :
    (markedRows rows call last).map ConversationMember.key = rows.map ConversationMember.key := by
  rw [markedRows, List.map_map]
  apply List.map_congr_left
  intro old member
  simp only [Function.comp]
  split <;> rfl

theorem step_inv (inv : Inv state) (taken : step searchMatches state action = some next) :
    Inv next := by
  cases step_effect inv taken with
  | served inner store stepped result =>
      subst result
      have effect := MessageStore.step_effect inv.store.phases stepped
      have grows := MessageStore.last_seq_step inv.store effect
      constructor
      case store => exact MessageStore.step_inv _ _ _ inv.store stepped
      case numbered =>
        exact fun conversation => MessageStore.numbered_step inv.store (inv.numbered conversation)
          effect
      case copies => exact fun tx call opened => fits_later (inv.copies tx call opened) grows
      case bounded => exact fun row member => Nat.le_trans (inv.bounded row member) (grows _)
      case keys => exact inv.keys
  | saved row result =>
      subst result
      have store : (saveMember state row).store = state.store := by
        unfold saveMember
        dsimp only
        split <;> rfl
      have calls : (saveMember state row).calls = state.calls := by
        unfold saveMember
        dsimp only
        split <;> rfl
      apply steady_inv inv store
      case copies => exact calls ▸ inv.copies
      case bounded => exact saved_bounded inv row
      case keys => exact saved_keys inv row
  | moved tx call store members calls fits =>
      apply steady_inv inv store
      case copies => exact calls ▸ assigned_fits inv fits
      case bounded => exact members ▸ inv.bounded
      case keys => exact members ▸ inv.keys
  | marked tx call last read committing ready phase store calls members =>
      have fits := inv.copies tx call ready
      rw [Call.Fits, phase] at fits
      apply steady_inv inv store
      case copies =>
        rw [calls]
        exact assigned_fits inv (by rintro moved ⟨⟩; trivial)
      case bounded =>
        rw [members]
        split
        · exact inv.bounded
        · exact marked_bounded inv fits.1
      case keys =>
        rw [members]
        split
        · exact inv.keys
        · exact (marked_keys state.members call last).symm ▸ inv.keys

theorem initial_inv : Inv initial where
  store := MessageStore.initial_inv
  numbered := fun _ => rfl
  copies := by
    intro tx call opened
    cases opened
  bounded := by
    intro row member
    cases member
  keys := List.nodup_nil

end Steps

section Unread
variable {state : State} {user : Uuid}

/-- The row of `list_for_user` that an entry stands for. -/
theorem listed_row {Digest : Type} {details : Uuid → Authz.Conversation} (inv : Inv state)
    {limit : Nat} {scan : List (Authz.Conversation × ConversationMember)}
    (scanned : scan.Perm (joinedRows (tablesOf details state : Tables Digest) user))
    {out : ConversationOut} (listed : out ∈ listForUser limit scan) :
    ∃ mark, markOf state out.id user = some mark ∧
      out.unread = lastSeq state.store out.id - mark := by
  obtain ⟨⟨conversation, row⟩, chosen, rfl⟩ := List.mem_map.mp listed
  have scannedRow := (List.perm_insertionSort _ scan).subset (List.mem_of_mem_take chosen)
  have joined := scanned.subset scannedRow
  simp only [joinedRows, tablesOf, List.mem_filter, List.pair_mem_product, Bool.and_eq_true,
    beq_iff_eq] at joined
  obtain ⟨⟨stored, member⟩, ⟨⟨⟨place, person⟩, _⟩, _⟩, _⟩ := joined
  obtain ⟨source, present, same⟩ := List.mem_map.mp stored
  have counter := MessageStore.last_seq_of_row inv.store.conversations present
  have key : row.key = (source.id, user) := by
    rw [ConversationMember.key, person, place, ← same]
  have found : membershipOf state source.id user = some row := by
    have hit := find_member ConversationMember.key inv.keys member
    rw [key] at hit
    exact hit
  refine ⟨row.lastReadSeq, ?_, ?_⟩
  · rw [← same]
    exact congrArg (Option.map ConversationMember.lastReadSeq) found
  · rw [← same]
    show source.lastSeq - row.lastReadSeq = lastSeq state.store source.id - row.lastReadSeq
    rw [lastSeq, counter]
    rfl

/-- The entry counts the messages above the mark exactly when no edit or
deletion is above it. -/
theorem unread_exact (inv : Inv state) (conversation : Uuid) (mark : Nat) :
    lastSeq state.store conversation - mark =
        (messagesOf state.store conversation).countP (fun row => decide (mark < row.seq)) ↔
      OnlyCreatedAbove state conversation mark := by
  rw [MessageStore.counter_ahead inv.store (inv.numbered conversation)]
  constructor
  · intro exact' event member above
    have none : (eventsOf state.store conversation).countP
        (fun event => decide (mark < event.seq) && event.type != .created) = 0 := by
      omega
    have revision := List.countP_eq_zero.mp none event member
    simpa [above] using revision
  · intro only
    have none : (eventsOf state.store conversation).countP
        (fun event => decide (mark < event.seq) && event.type != .created) = 0 := by
      apply List.countP_eq_zero.mpr
      intro event member revision
      simp only [Bool.and_eq_true, decide_eq_true_eq, bne_iff_ne] at revision
      exact revision.2 (only event member revision.1)
    rw [none, Nat.add_zero]

theorem run_inv {searchMatches : String → String → Bool} {actions : List Action} {final : State}
    (ran : Runs.run (step searchMatches) initial actions = some final) : Inv final :=
  Runs.run_invariant Inv (fun _ _ _ => step_inv) ran initial_inv

/-- What `list_for_user` reports is the number of messages above the member's
mark exactly when no edit or deletion is above it; so too when there is none. -/
theorem unread_counts_iff {Digest : Type} (searchMatches : String → String → Bool)
    (actions : List Action) (final : State)
    (ran : Runs.run (step searchMatches) initial actions = some final)
    (details : Uuid → Authz.Conversation) (user : Uuid) (limit : Nat)
    (scan : List (Authz.Conversation × ConversationMember))
    (scanned : scan.Perm (joinedRows (tablesOf details final : Tables Digest) user))
    (out : ConversationOut) (listed : out ∈ listForUser limit scan) :
    ∃ mark, markOf final out.id user = some mark ∧
      (out.unread =
          (messagesOf final.store out.id).countP (fun row => decide (mark < row.seq)) ↔
        OnlyCreatedAbove final out.id mark) ∧
      ((∀ row ∈ messagesOf final.store out.id, row.seq ≤ mark) →
        (out.unread = 0 ↔ OnlyCreatedAbove final out.id mark)) := by
  have inv := run_inv ran
  obtain ⟨mark, held, unread⟩ := listed_row inv scanned listed
  have counts := unread_exact inv out.id mark
  rw [← unread] at counts
  refine ⟨mark, held, counts, fun newest => ?_⟩
  have none : (messagesOf final.store out.id).countP (fun row => decide (mark < row.seq)) = 0 := by
    apply List.countP_eq_zero.mpr
    intro row member above
    exact absurd (newest row member) (Nat.not_le.mpr (of_decide_eq_true above))
  rw [none] at counts
  exact counts

end Unread

def served (actions : List MessageStore.Action) : List Action := actions.map .serve

/-- A conversation with a member 9 and its first message. -/
def opened : List Action :=
  .saveMember { conversationId := 1, userId := 9 } ::
    served ([.addConversation 1] ++ MessageStore.sendText 1 1 30 10 "hello" 0 ++ [.commit 1])

/-- A call of member 9 up to its commit. -/
def readUpTo (tx : TxId) (upToSeq : Nat) : List Action :=
  [.receive tx 1 9 upToSeq, .loadConversation tx, .loadMembership tx true]

/-- The newest message is read and then deleted. -/
def readThenDeleted : List Action :=
  opened ++ readUpTo 5 1 ++ [.commit 5] ++ served (MessageStore.deleteText 2 1 10)

def plainDetails (id : Uuid) : Authz.Conversation :=
  { id := id, kind := .group, createdBy := none, updatedAt := 0 }

set_option maxRecDepth 4000 in
theorem deletion_unread : ∃ final out,
    Runs.run (step MessageStore.sameText) initial readThenDeleted = some final ∧
      out ∈ listForUser 100 (joinedRows (tablesOf plainDetails final : Tables Unit) 9) ∧
      out.unread = 1 ∧ markOf final out.id 9 = some 1 ∧
      (messagesOf final.store out.id).countP (fun row => decide (1 < row.seq)) = 0 :=
  ⟨_, _, rfl, List.mem_cons_self, rfl, rfl, rfl⟩

theorem deletion_counted : ∃ final out,
    Runs.run (step MessageStore.sameText) initial readThenDeleted = some final ∧
      out ∈ listForUser 100 (joinedRows (tablesOf plainDetails final : Tables Unit) 9) ∧
      ¬OnlyCreatedAbove final out.id 1 := by
  obtain ⟨final, out, ran, listed, unread, held, none⟩ := deletion_unread
  refine ⟨final, out, ran, listed, fun only => ?_⟩
  obtain ⟨mark, marked, counts, _⟩ := unread_counts_iff MessageStore.sameText _ final ran
    plainDetails 9 100 _ (List.Perm.refl _) out listed
  obtain rfl := Option.some.inj (held.symm.trans marked)
  have same := counts.mpr only
  rw [unread, none] at same
  cases same

theorem unread_badge_stays : ¬∀ (actions : List Action) (final : State),
    Runs.run (step MessageStore.sameText) initial actions = some final →
      ∀ (details : Uuid → Authz.Conversation) (user limit : Nat) (out : ConversationOut),
        out ∈ listForUser limit (joinedRows (tablesOf details final : Tables Unit) user) →
          ∀ mark, markOf final out.id user = some mark →
            out.unread =
              (messagesOf final.store out.id).countP fun row => decide (mark < row.seq) := by
  intro claimed
  obtain ⟨final, out, ran, listed, unread, held, none⟩ := deletion_unread
  have same := claimed _ final ran plainDetails 9 100 out listed 1 held
  rw [unread, none] at same
  cases same

section Marks
variable {searchMatches : String → String → Bool} {state next : State} {action : Action}
  {conversation user : Uuid}

/-- What a step does to the mark of one member. -/
inductive MarkStep (state next : State) (action : Action) (conversation user : Uuid) : Prop
  | same (kept : markOf next conversation user = markOf state conversation user)
  | started (absent : markOf state conversation user = none)
      (present : markOf next conversation user = some 0)
  | written (tx : TxId) (call : Call) (last read : Nat) (committing : action = .commit tx)
      (ready : state.calls tx = some call) (phase : call.phase = .marked last read)
      (place : call.conversation = conversation) (person : call.user = user)
      (changed : min call.upToSeq last ≠ read)
      (mark : markOf next conversation user =
        (markOf state conversation user).map fun _ => min call.upToSeq last)

theorem found_map (rows : List ConversationMember) (change : ConversationMember → ConversationMember)
    (keys : ∀ row, (change row).key = row.key) :
    (rows.map change).find? (isRow conversation user) =
      (rows.find? (isRow conversation user)).map change := by
  rw [List.find?_map]
  have same : isRow conversation user ∘ change = isRow conversation user := by
    funext row
    rw [Bool.eq_iff_iff, Function.comp, is_row_key, is_row_key, keys]
  rw [same]

theorem saved_mark (row : ConversationMember) :
    MarkStep state (saveMember state row) action conversation user := by
  unfold saveMember
  dsimp only
  split
  · apply MarkStep.same
    rw [markOf, markOf, membershipOf, membershipOf]
    dsimp only
    rw [found_map, Option.map_map]
    · congr 1
      funext old
      simp only [Function.comp]
      split <;> rfl
    · intro old
      split
      · rename_i hit
        exact (is_row_key.mp hit).symm
      · rfl
  · rename_i absent
    by_cases here : row.key = (conversation, user)
    · have missing : state.members.find? (isRow conversation user) = none := by
        rw [List.find?_eq_none]
        intro old member hit
        apply absent
        rw [List.any_eq_true]
        exact ⟨old, member, is_row_key.mpr ((is_row_key.mp hit).trans here.symm)⟩
      apply MarkStep.started
      · rw [markOf, membershipOf, missing]
        rfl
      · have hit : isRow conversation user { row with lastReadSeq := 0 } = true :=
          is_row_key.mpr here
        rw [markOf, membershipOf, List.find?_append, missing, Option.none_or,
          List.find?_singleton, if_pos hit]
        rfl
    · have passed : isRow conversation user { row with lastReadSeq := 0 } = false :=
        Bool.eq_false_iff.mpr fun hit => here (is_row_key.mp hit)
      apply MarkStep.same
      rw [markOf, membershipOf, List.find?_append, List.find?_singleton, passed]
      simp [markOf, membershipOf]

theorem written_current (conversation user : Uuid) {call : Call} {read : Nat}
    (members : next.members = state.members.map fun row =>
      if isRow call.conversation call.user row then { row with lastReadSeq := read } else row) :
    markOf next conversation user = (membershipOf state conversation user).map fun row =>
      if isRow call.conversation call.user row then read else row.lastReadSeq := by
  rw [markOf, membershipOf, members, found_map, Option.map_map, membershipOf]
  · congr 1
    funext row
    simp only [Function.comp]
    split <;> rfl
  · intro row
    split <;> rfl

theorem mark_step (inv : Inv state) (taken : step searchMatches state action = some next)
    (conversation user : Uuid) : MarkStep state next action conversation user := by
  cases step_effect inv taken with
  | served inner store stepped result =>
      subst result
      exact .same rfl
  | saved row result =>
      subst result
      exact saved_mark row
  | moved tx call store members calls =>
      exact .same (by rw [markOf, membershipOf, members, markOf, membershipOf])
  | marked tx call last read committing ready phase store calls members =>
      by_cases changed : min call.upToSeq last = read
      · rw [if_pos changed] at members
        exact .same (by rw [markOf, membershipOf, members, markOf, membershipOf])
      · rw [if_neg changed] at members
        have current := written_current conversation user members
        have hits : ∀ row, membershipOf state conversation user = some row →
            (isRow call.conversation call.user row = true ↔
              call.conversation = conversation ∧ call.user = user) := by
          intro row held
          have named := is_row_key.mp (List.find?_some held)
          rw [is_row_key, named, Prod.mk.injEq, eq_comm, eq_comm (a := user)]
        by_cases here : call.conversation = conversation ∧ call.user = user
        · refine .written tx call last read committing ready phase here.1 here.2 changed ?_
          rw [current, markOf]
          cases held : membershipOf state conversation user with
          | none => rfl
          | some row => exact congrArg some (if_pos ((hits row held).mpr here))
        · apply MarkStep.same
          rw [current, markOf]
          cases held : membershipOf state conversation user with
          | none => rfl
          | some row => exact congrArg some (if_neg fun hit => here ((hits row held).mp hit))

theorem mark_bounded (inv : Inv state) {mark : Nat}
    (held : markOf state conversation user = some mark) :
    mark ≤ lastSeq state.store conversation := by
  obtain ⟨row, found, rfl⟩ := Option.map_eq_some_iff.mp held
  have named := is_row_key.mp (List.find?_some found)
  have place : row.conversationId = conversation := congrArg Prod.fst named
  exact place ▸ inv.bounded row (List.mem_of_find?_eq_some found)

theorem rising_advances (inv : Inv state) (rising : Rising conversation user state action)
    (taken : step searchMatches state action = some next) {mark : Nat}
    (held : markOf state conversation user = some mark) :
    ∃ after, markOf next conversation user = some after ∧ mark ≤ after := by
  cases mark_step inv taken conversation user with
  | same kept => exact ⟨mark, kept.trans held, Nat.le_refl _⟩
  | started absent =>
      rw [held] at absent
      cases absent
  | written tx call last read committing ready phase place person changed written =>
      subst committing
      have fits := inv.copies tx call ready
      rw [Call.Fits, phase] at fits
      have apart : last ≠ read := by
        rintro rfl
        exact changed (Nat.min_eq_right fits.2.le)
      have under := rising call last read ready phase place person apart mark held
      rw [held, Option.map_some] at written
      exact ⟨_, written, Nat.le_min.mpr under⟩

theorem commit_members {tx : TxId} {call : Call} {last read : Nat}
    (ready : state.calls tx = some call) (phase : call.phase = .marked last read)
    (taken : step searchMatches state (.commit tx) = some next)
    (changed : min call.upToSeq last ≠ read) :
    next.members = state.members.map fun row =>
      if isRow call.conversation call.user row then
        { row with lastReadSeq := min call.upToSeq last }
      else row := by
  obtain ⟨place, person, upToSeq, marked⟩ := call
  cases phase
  simp only [step, commit, ready] at taken
  cases taken
  exact if_neg changed

theorem rising_needed (inv : Inv state) (taken : step searchMatches state action = some next)
    (advances : Advances conversation user state next) :
    Rising conversation user state action := by
  cases action with
  | commit tx =>
      intro call last read ready phase place person apart mark held
      have fits := inv.copies tx call ready
      rw [Call.Fits, phase] at fits
      -- the mark was behind both when it was read, so the commit does write
      have changed : min call.upToSeq last ≠ read := by omega
      have current := written_current conversation user
        (commit_members ready phase taken changed)
      obtain ⟨row, found, rfl⟩ := Option.map_eq_some_iff.mp held
      have hit : isRow call.conversation call.user row = true := by
        rw [place, person]
        exact List.find?_some found
      obtain ⟨after, later, higher, _⟩ := advances row.lastReadSeq held
      rw [current, found, Option.map_some, if_pos hit] at later
      rw [← Option.some.inj later] at higher
      exact Nat.le_min.mp higher
  | _ => trivial

/-- In a run the member's `last_read_seq` never goes back, nor past the
`last_seq` of the conversation, exactly when every commit that writes it does
so on top of a lower one. -/
theorem marks_advance_iff (searchMatches : String → String → Bool) (actions : List Action)
    (final : State) (ran : Runs.run (step searchMatches) initial actions = some final)
    (conversation user : Uuid) :
    (∀ earlier later, Runs.Passes (step searchMatches) initial actions earlier later →
        Advances conversation user earlier later) ↔
      Runs.Meets (step searchMatches) (Rising conversation user) initial actions := by
  apply Runs.pairs_iff_meets Inv Inv (Advances conversation user) (fun _ => True) ran
    (fun _ _ => trivial)
  case keeps => exact fun state action next inv taken => step_inv inv taken
  case needed =>
    intro state action next inv taken here across there
    exact rising_needed inv taken across
  case sound => exact fun state action next inv admitted allowed taken => step_inv inv taken
  case implied =>
    exact fun state inv mark held => ⟨mark, held, Nat.le_refl _, mark_bounded inv held⟩
  case carried =>
    intro earlier state action next inv admitted allowed taken advances mark held
    obtain ⟨middle, present, low, _⟩ := advances mark held
    obtain ⟨after, later, high⟩ := rising_advances inv allowed taken present
    exact ⟨after, later, Nat.le_trans low high, mark_bounded (step_inv inv taken) later⟩
  case base => exact initial_inv
  case holds => exact initial_inv

/-- The call has read something and has not committed yet. -/
def Call.Reading (call : Call) : Prop :=
  match call.phase with
  | .loaded _ | .marked _ _ => True
  | _ => False

/-- No other call of the member commits between the reads of a call and its commit. -/
def Alone (conversation user : Uuid) (state : State) : Action → Prop
  | .commit tx => ∀ call, state.calls tx = some call → call.conversation = conversation →
      call.user = user → ∀ other theirs, other ≠ tx → state.calls other = some theirs →
        theirs.conversation = conversation → theirs.user = user → ¬theirs.Reading
  | _ => True

/-- What the call has read of the member's mark still stands. -/
def Call.Stands (conversation user : Uuid) (state : State) (call : Call) : Prop :=
  call.conversation = conversation → call.user = user →
    match call.phase with
    | .loaded last => ∀ mark, markOf state conversation user = some mark → mark ≤ last
    | .marked last read => markOf state conversation user = some read ∧ read ≤ last
    | _ => True

theorem stands_idle {call : Call} (idle : ¬call.Reading) : call.Stands conversation user state := by
  intro _ _
  unfold Call.Reading at idle
  split at idle <;> trivial

theorem stands_kept {call : Call} (stands : call.Stands conversation user state)
    (kept : markOf next conversation user = markOf state conversation user) :
    call.Stands conversation user next := by
  intro place person
  have before := stands place person
  rw [← kept] at before
  exact before

theorem stands_started {call : Call} (stands : call.Stands conversation user state)
    (absent : markOf state conversation user = none)
    (present : markOf next conversation user = some 0) : call.Stands conversation user next := by
  intro place person
  have before := stands place person
  split at before
  · intro mark held
    rw [present] at held
    exact Option.some.inj held ▸ Nat.zero_le _
  · rw [absent] at before
    cases before.1
  · trivial

/-- A call that is reading after a step is not the one that committed, and read
what stood before the step. -/
theorem reading_stands (inv : Inv state)
    (stands : ∀ tx call, state.calls tx = some call → call.Stands conversation user state)
    (taken : step searchMatches state action = some next) {tx : TxId} {call : Call}
    (opened : next.calls tx = some call) (reading : call.Reading) :
    call.Stands conversation user state ∧
      ∀ committed, action = .commit committed → tx ≠ committed ∧ state.calls tx = some call := by
  have unmoved {moved : TxId} {phase : Option Call}
      (calls : next.calls = assign state.calls moved phase)
      (other : ∀ committed, action ≠ .commit committed)
      (reads : ∀ found, phase = some found → found.Stands conversation user state) :
      call.Stands conversation user state ∧
        ∀ committed, action = .commit committed → tx ≠ committed ∧ state.calls tx = some call := by
    refine ⟨?_, fun committed commits => absurd commits (other committed)⟩
    rw [calls] at opened
    rcases assign_cases opened with ⟨_, here⟩ | ⟨_, kept⟩
    · exact reads call here
    · exact stands tx call kept
  cases action with
  | serve inner =>
      obtain ⟨store, _, rfl⟩ := Option.map_eq_some_iff.mp taken
      exact ⟨stands tx call opened, fun _ commits => by cases commits⟩
  | saveMember row =>
      cases taken
      have kept : state.calls tx = some call := by
        unfold saveMember at opened
        dsimp only at opened
        split at opened <;> exact opened
      exact ⟨stands tx call kept, fun _ commits => by cases commits⟩
  | receive moved place person upToSeq =>
      simp only [step, receive] at taken
      split at taken
      · cases taken
      · cases taken
        refine unmoved rfl (fun _ => by simp) fun found same => stands_idle ?_
        cases same
        exact fun reads => reads
  | loadConversation moved =>
      simp only [step, loadConversation] at taken
      split at taken
      case h_2 => cases taken
      case h_1 place person upToSeq received =>
        split at taken
        · cases taken
          exact unmoved rfl (fun _ => by simp) fun found same => by cases same
        · rename_i row listed
          cases taken
          refine unmoved rfl (fun _ => by simp) fun found same => ?_
          cases same
          -- no mark is above the counter that is read here
          rintro rfl _ mark held
          have named := List.find?_some listed
          simp only [Bool.and_eq_true, beq_iff_eq] at named
          have current := MessageStore.last_seq_of_row inv.store.conversations
            (List.mem_of_find?_eq_some listed)
          rw [named.1] at current
          have counter : lastSeq state.store place = row.lastSeq := by
            rw [lastSeq, current]
            rfl
          exact counter ▸ mark_bounded inv held
  | loadMembership moved admitted =>
      simp only [step, loadMembership] at taken
      split at taken
      case h_2 => cases taken
      case h_1 place person upToSeq last loaded =>
        split at taken
        · cases taken
          exact unmoved rfl (fun _ => by simp) fun found same => by cases same
        · rename_i row listed
          split at taken
          · cases taken
            exact unmoved rfl (fun _ => by simp) fun found same => by cases same
          · cases taken
            refine unmoved rfl (fun _ => by simp) fun found same => ?_
            cases same
            -- the mark is read after the counter, and no other call has written it between
            rintro rfl rfl
            have held : markOf state place person = some row.lastReadSeq := by
              rw [markOf, listed, Option.map_some]
            exact ⟨held, stands moved _ loaded rfl rfl row.lastReadSeq held⟩
  | commit moved =>
      simp only [step, commit] at taken
      split at taken
      case h_2 => cases taken
      case h_1 =>
        cases taken
        rcases assign_cases opened with ⟨_, here⟩ | ⟨apart, kept⟩
        · cases here
          exact reading.elim
        · exact ⟨stands tx call kept, fun _ commits => by cases commits; exact ⟨apart, kept⟩⟩
  | publish moved =>
      simp only [step, publish] at taken
      split at taken
      case h_2 => cases taken
      case h_1 =>
        cases taken
        exact unmoved rfl (fun _ => by simp) fun found same => by cases same
  | rollback moved =>
      simp only [step] at taken
      split at taken
      · cases taken
        exact unmoved rfl (fun _ => by simp) fun found same => by cases same
      · cases taken

theorem lone_stands (inv : Inv state) (alone : Alone conversation user state action)
    (stands : ∀ tx call, state.calls tx = some call → call.Stands conversation user state)
    (taken : step searchMatches state action = some next) :
    ∀ tx call, next.calls tx = some call → call.Stands conversation user next := by
  intro tx call opened
  by_cases reading : call.Reading
  case neg => exact stands_idle reading
  case pos =>
    obtain ⟨stood, others⟩ := reading_stands inv stands taken opened reading
    cases mark_step inv taken conversation user with
    | same kept => exact stands_kept stood kept
    | started absent present => exact stands_started stood absent present
    | written committed own last read committing ready phase place person =>
        subst committing
        obtain ⟨apart, open_⟩ := others committed rfl
        intro here mine
        exact absurd reading (alone own ready place person tx call apart open_ here mine)

/-- Where no other call of the member commits between the reads of a call and its
commit, every commit that writes the mark does so on top of a lower one. -/
theorem lone_calls_rise (searchMatches : String → String → Bool) (actions : List Action)
    (conversation user : Uuid)
    (alone : Runs.Meets (step searchMatches) (Alone conversation user) initial actions) :
    Runs.Meets (step searchMatches) (Rising conversation user) initial actions := by
  apply Runs.meets_of_visits
  rintro before action after rfl visited reached
  obtain ⟨inv, stands⟩ := Runs.guarded_invariant
    (fun state => Inv state ∧
      ∀ tx call, state.calls tx = some call → call.Stands conversation user state)
    (fun _ _ _ holds lone taken =>
      ⟨step_inv holds.1 taken, lone_stands holds.1 lone holds.2 taken⟩)
    reached ((Runs.meets_append_iff reached).mp alone).1
    ⟨initial_inv, fun _ _ opened => by cases opened⟩
  cases action with
  | commit tx =>
      intro call last read ready phase place person _ mark held
      have fits := inv.copies tx call ready
      have stood := stands tx call ready place person
      rw [Call.Fits, phase] at fits
      rw [phase] at stood
      obtain ⟨current, under⟩ := stood
      obtain rfl := Option.some.inj (held.symm.trans current)
      exact ⟨fits.2.le, under⟩
  | _ => trivial

end Marks

/-- Two messages, a device that marks the first as read, and one that marks
the second meanwhile. -/
def twoDevices : List Action :=
  opened ++ served (MessageStore.sendText 2 1 31 11 "again" 1 ++ [.commit 2]) ++
    readUpTo 5 1 ++ readUpTo 6 2 ++ [.commit 6]

set_option maxRecDepth 4000 in
theorem mark_goes_back : ∃ before final,
    Runs.run (step MessageStore.sameText) initial (twoDevices ++ [.commit 5]) = some final ∧
      Runs.Passes (step MessageStore.sameText) initial (twoDevices ++ [.commit 5]) before final ∧
      ¬Advances 1 9 before final := by
  obtain ⟨before, final, ran, reached, onward, high, low⟩ : ∃ before final,
      Runs.run (step MessageStore.sameText) initial (twoDevices ++ [.commit 5]) = some final ∧
        Runs.run (step MessageStore.sameText) initial twoDevices = some before ∧
        Runs.run (step MessageStore.sameText) before [.commit 5] = some final ∧
        markOf before 1 9 = some 2 ∧ markOf final 1 9 = some 1 :=
    ⟨_, _, rfl, rfl, rfl, rfl, rfl⟩
  refine ⟨before, final, ran, ⟨twoDevices, [.commit 5], [], by simp, reached, onward⟩, ?_⟩
  intro advances
  obtain ⟨after, held, above, _⟩ := advances 2 high
  rw [low] at held
  cases held
  omega

theorem late_mark_not_rising : ∃ final,
    Runs.run (step MessageStore.sameText) initial (twoDevices ++ [.commit 5]) = some final ∧
      ¬Runs.Meets (step MessageStore.sameText) (Rising 1 9) initial (twoDevices ++ [.commit 5]) := by
  obtain ⟨before, final, ran, passes, back⟩ := mark_goes_back
  refine ⟨final, ran, fun rising => back ?_⟩
  exact (marks_advance_iff MessageStore.sameText _ final ran 1 9).mpr rising before final passes

theorem mark_decreases : ¬∀ (actions : List Action) (final : State),
    Runs.run (step MessageStore.sameText) initial actions = some final →
      ∀ conversation user earlier later,
        Runs.Passes (step MessageStore.sameText) initial actions earlier later →
          Advances conversation user earlier later := by
  intro claimed
  obtain ⟨before, final, ran, passes, back⟩ := mark_goes_back
  exact back (claimed _ final ran 1 9 before final passes)

end RunnerupChat.ReadMarks
