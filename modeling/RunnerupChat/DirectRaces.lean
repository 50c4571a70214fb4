import Mathlib.Order.MinMax
import RunnerupChat.DigitOrder
import RunnerupChat.RowSchemas
import RunnerupChat.Runs

/-!
Calls of `get_or_create_direct` that race, statement by statement. Inserted
rows are seen by others once their transaction commits; a pair that an open
transaction has inserted makes the next insert of it wait.
-/

namespace RunnerupChat.DirectRaces

open Accounts Authz Conversations DigitOrder
open OtpLogin (Failure)

section Uuids

/-- A UUID has 128 bits. -/
def uuidRange : Nat := 2 ^ 128

/-- `str(id)`: 32 hexadecimal digits, dashed after the first four groups. -/
def uuidText (id : Uuid) : String :=
  String.ofList (grouped '-' [8, 4, 4, 4] ((digits 16 32 id).map Nat.digitChar))

/-- The sixteen bytes by which PostgreSQL compares. -/
def uuidBytes (id : Uuid) : List Nat := digits 256 16 id

/-- `sorted([first, second], key=str)` -/
def sortedPair (first second : Uuid) : Uuid × Uuid :=
  if uuidText second < uuidText first then (second, first) else (first, second)

theorem hex_letters_ordered : ∀ first second : Fin 16,
    (Nat.digitChar first < Nat.digitChar second ↔ first.val < second.val) ∧
      (Nat.digitChar first = Nat.digitChar second ↔ first.val = second.val) := by
  decide

/-- The order of the texts is the order of the bytes. -/
theorem text_lt_iff (first second : Uuid) :
    uuidText first < uuidText second ↔ uuidBytes first < uuidBytes second := by
  have undashed : ¬ '-' < '-' := by decide
  have widths : (16 : Nat) ^ 32 = 256 ^ 16 := by decide
  have letters : ∀ left right : Nat, left < 16 → right < 16 →
      (Nat.digitChar left < Nat.digitChar right ↔ left < right) :=
    fun left right below bounded => (hex_letters_ordered ⟨left, below⟩ ⟨right, bounded⟩).1
  have distinct : ∀ left right : Nat, left < 16 → right < 16 →
      (Nat.digitChar left = Nat.digitChar right ↔ left = right) :=
    fun left right below bounded => (hex_letters_ordered ⟨left, below⟩ ⟨right, bounded⟩).2
  calc uuidText first < uuidText second
      ↔ (digits 16 32 first).map Nat.digitChar < (digits 16 32 second).map Nat.digitChar := by
        rw [uuidText, uuidText, String.lt_iff, String.toList_ofList, String.toList_ofList,
          grouped_lt_iff undashed _ (by simp)]
    _ ↔ digits 16 32 first < digits 16 32 second :=
        map_lt_iff letters distinct _ _ (digits_below (by decide) 32 first)
          (digits_below (by decide) 32 second)
    _ ↔ uuidBytes first < uuidBytes second := by
        rw [uuidBytes, uuidBytes, digits_lt_mod_iff (by decide), digits_lt_mod_iff (by decide),
          widths]

theorem bytes_lt_iff {first second : Uuid} (fits : first < uuidRange)
    (bounded : second < uuidRange) : uuidBytes first < uuidBytes second ↔ first < second :=
  digits_lt_iff (by decide) fits bounded

theorem sorted_pair_eq {first second : Uuid} (fits : first < uuidRange)
    (bounded : second < uuidRange) :
    sortedPair first second = (min first second, max first second) := by
  unfold sortedPair
  simp only [text_lt_iff, bytes_lt_iff bounded fits]
  by_cases less : second < first
  · rw [if_pos less, Nat.min_eq_right less.le, Nat.max_eq_left less.le]
  · rw [if_neg less, Nat.min_eq_left (Nat.le_of_not_lt less), Nat.max_eq_right (Nat.le_of_not_lt less)]

theorem sorted_pair_comm {first second : Uuid} (fits : first < uuidRange)
    (bounded : second < uuidRange) : sortedPair first second = sortedPair second first := by
  rw [sorted_pair_eq fits bounded, sorted_pair_eq bounded fits, Nat.min_comm, Nat.max_comm]

/-- The check `ordered_pair` lets every sorted pair in. -/
theorem sorted_pair_ordered {first second : Uuid} (fits : first < uuidRange)
    (bounded : second < uuidRange) (distinct : first ≠ second) :
    uuidBytes (sortedPair first second).1 < uuidBytes (sortedPair first second).2 := by
  rw [sorted_pair_eq fits bounded]
  apply (bytes_lt_iff (min_lt_of_left_lt fits) (max_lt fits bounded)).mpr
  exact min_lt_max.mpr distinct

end Uuids

section Statements
variable {Digest : Type}

inductive Phase where
  | called
  | found
  | allowed
  | absent
  /-- The conversation is flushed; the key and the members may be too. -/
  | writing (row : Conversation) (keyed joined : Bool)
  /-- An insert broke a constraint and the transaction was rolled back. -/
  | lost
  | committed (row : Conversation)
  | returned (answer : Option Conversation)
  | raised (failure : Failure)
  | cut

structure Call (Digest : Type) where
  user : User Digest
  otherId : Uuid
  phase : Phase

/-- The committed tables, and every call that was made. -/
structure State (Digest : Type) where
  tables : Tables Digest
  calls : List (Call Digest) := []

def Call.pair (call : Call Digest) : Uuid × Uuid :=
  sortedPair call.user.id call.otherId

def Call.memberRows (call : Call Digest) (id : Uuid) : List ConversationMember :=
  [{ conversationId := id, userId := call.user.id, role := .member },
    { conversationId := id, userId := call.otherId, role := .member }]

def Call.keyRow (call : Call Digest) (id : Uuid) : DirectConversationKey :=
  ⟨id, call.pair.1, call.pair.2⟩

@[simp] theorem key_row_pair (call : Call Digest) (id : Uuid) : (call.keyRow id).pair = call.pair := by
  simp only [DirectConversationKey.pair, Call.keyRow]

/-- The rows of a call, once it commits. -/
def Call.written (call : Call Digest) (tables : Tables Digest) (row : Conversation) :
    Tables Digest :=
  { withOpened tables row (call.memberRows row.id) with
    directKeys := tables.directKeys ++ [call.keyRow row.id] }

/-- The constraints on a row of `direct_conversation_keys`. -/
def KeyAllowed (tables : Tables Digest) (row : DirectConversationKey) : Prop :=
  uuidBytes row.userLo < uuidBytes row.userHi ∧
    row.pair ∉ tables.directKeys.map DirectConversationKey.pair ∧
    row.conversationId ∉ tables.directKeys.map DirectConversationKey.conversationId ∧
    row.userLo ∈ tables.userIds ∧ row.userHi ∈ tables.userIds

instance (tables : Tables Digest) (row : DirectConversationKey) :
    Decidable (KeyAllowed tables row) :=
  inferInstanceAs (Decidable (uuidBytes row.userLo < uuidBytes row.userHi ∧
    row.pair ∉ tables.directKeys.map DirectConversationKey.pair ∧
    row.conversationId ∉ tables.directKeys.map DirectConversationKey.conversationId ∧
    row.userLo ∈ tables.userIds ∧ row.userHi ∈ tables.userIds))

/-- The conversation that a call has flushed and not committed. -/
def Call.flushes (call : Call Digest) (id : Uuid) : Bool :=
  match call.phase with
  | .writing row _ _ => row.id == id
  | _ => false

/-- The pair that a call has inserted and not committed. -/
def Call.holds (call : Call Digest) (pair : Uuid × Uuid) : Bool :=
  match call.phase with
  | .writing _ keyed _ => keyed && call.pair == pair
  | _ => false

inductive Statement where
  | readUser
  | readBlocks
  | readPair
  | flush (id : Uuid) (now : Time)
  | insertKey
  | insertMembers
  | commit
  | rereadPair
  | answer
  | cut

variable [DecidableEq Digest]

/-- The committed tables and the phase after a statement of a call. It is
`none` when the statement is not the call's next one, or has to wait. -/
def execute (state : State Digest) (call : Call Digest) (statement : Statement) :
    Option (Tables Digest × Phase) :=
  let tables := state.tables
  match statement, call.phase with
  | .readUser, .called =>
      match (tables.users.find? fun row => row.id == call.otherId).filter User.isUsable with
      | none => some (tables, .raised (.app (.notVisible "not_found")))
      | some _ => some (tables, .found)
  | .readBlocks, .found =>
      match assertCanDirectMessage tables call.user call.otherId with
      | .error error => some (tables, .raised (.app error))
      | .ok () => some (tables, .allowed)
  | .readPair, .allowed =>
      match findDirect tables call.pair.1 call.pair.2 with
      | some existing => some (tables, .returned (some existing))
      | none => some (tables, .absent)
  | .flush id now, .absent =>
      if state.calls.any fun other => other.flushes id then none
      else if Schema (withOpened tables (newDirect call.user.id id now) []) then
        some (tables, .writing (newDirect call.user.id id now) false false)
      else some (tables, .raised .database)
  | .insertKey, .writing row false joined =>
      if state.calls.any fun other => other.holds call.pair then none
      else if KeyAllowed tables (call.keyRow row.id) then some (tables, .writing row true joined)
      else some (tables, .lost)
  | .insertMembers, .writing row keyed false =>
      if Schema (withOpened tables row (call.memberRows row.id)) then
        some (tables, .writing row keyed true)
      else some (tables, .lost)
  | .commit, .writing row true true => some (call.written tables row, .committed row)
  | .rereadPair, .lost => some (tables, .returned (findDirect tables call.pair.1 call.pair.2))
  | .answer, .committed row => some (tables, .returned (some row))
  -- the client or the database goes away; what is not committed is dropped
  | .cut, .returned _ | .cut, .raised _ | .cut, .cut => none
  | .cut, _ => some (tables, .cut)
  | _, _ => none

inductive Action (Digest : Type) where
  | receive (user : User Digest) (otherId : Uuid)
  | perform (index : Nat) (statement : Statement)

def step (state : State Digest) : Action Digest → Option (State Digest)
  | .receive user otherId =>
      let phase : Phase := if otherId = user.id then
          .raised (.app (.validationFailed "cannot_message_self"))
        else .called
      some { state with calls := state.calls ++ [⟨user, otherId, phase⟩] }
  | .perform index statement =>
      (state.calls[index]?).bind fun call =>
        (execute state call statement).map fun (tables, phase) =>
          { tables := tables, calls := state.calls.set index { call with phase := phase } }

end Statements

section Chats
variable {Digest : Type} {tables : Tables Digest} {call : Call Digest} {row : Conversation}
  {pair : Uuid × Uuid} {conversation : Conversation}

def pairKeys (tables : Tables Digest) (pair : Uuid × Uuid) : List DirectConversationKey :=
  tables.directKeys.filter fun key => key.pair == pair

def membersOf (tables : Tables Digest) (id : Uuid) : List ConversationMember :=
  tables.members.filter fun row => row.conversationId == id

/-- The pairs that have a conversation. -/
def pairs (tables : Tables Digest) : List (Uuid × Uuid) :=
  tables.directKeys.map DirectConversationKey.pair

/-- The only conversation of a pair, with exactly the two member rows. -/
structure Complete (tables : Tables Digest) (pair : Uuid × Uuid) (conversation : Conversation) :
    Prop where
  stored : conversation ∈ tables.conversations
  key : pairKeys tables pair = [⟨conversation.id, pair.1, pair.2⟩]
  members : ((membersOf tables conversation.id).map ConversationMember.userId).Perm
    [pair.1, pair.2]

theorem pair_keys_empty (free : pair ∉ pairs tables) : pairKeys tables pair = [] := by
  rw [pairKeys, List.filter_eq_nil_iff]
  intro key member same
  exact free (List.mem_map.mpr ⟨key, member, beq_iff_eq.mp same⟩)

theorem complete_taken (complete : Complete tables pair conversation) : pair ∈ pairs tables := by
  have listed : (⟨conversation.id, pair.1, pair.2⟩ : DirectConversationKey) ∈
      pairKeys tables pair := by
    rw [complete.key]
    exact List.mem_singleton_self _
  exact List.mem_map.mpr ⟨_, (List.mem_filter.mp listed).1, rfl⟩

theorem members_empty (schema : Schema tables) {id : Uuid} (fresh : id ∉ tables.conversationIds) :
    membersOf tables id = [] := by
  rw [membersOf, List.filter_eq_nil_iff]
  intro member listed same
  exact fresh (beq_iff_eq.mp same ▸ (schema.membersRefer member listed).1)

theorem pair_keys_written (pair : Uuid × Uuid) : pairKeys (call.written tables row) pair =
    pairKeys tables pair ++ if call.pair = pair then [call.keyRow row.id] else [] := by
  by_cases same : call.pair = pair
  · simp [pairKeys, Call.written, same]
  · simp [pairKeys, Call.written, same]

theorem members_written (id : Uuid) : membersOf (call.written tables row) id =
    membersOf tables id ++ if row.id = id then call.memberRows row.id else [] := by
  by_cases same : row.id = id
  · simp [membersOf, Call.written, Call.memberRows, withOpened, same]
  · simp [membersOf, Call.written, Call.memberRows, withOpened, same]

theorem sorted_pair_perm (first second : Uuid) :
    [first, second].Perm [(sortedPair first second).1, (sortedPair first second).2] := by
  unfold sortedPair
  split
  · exact List.Perm.swap second first []
  · exact List.Perm.refl _

/-- A committed call leaves a complete conversation. -/
theorem complete_written (schema : Schema tables) (fresh : row.id ∉ tables.conversationIds)
    (free : call.pair ∉ pairs tables) : Complete (call.written tables row) call.pair row where
  stored := List.mem_append_right _ (List.mem_singleton_self row)
  key := by
    rw [pair_keys_written, if_pos rfl, pair_keys_empty free]
    rfl
  members := by
    rw [members_written, if_pos rfl, members_empty schema fresh]
    exact sorted_pair_perm call.user.id call.otherId

/-- No other conversation is touched. -/
theorem complete_kept (fresh : row.id ∉ tables.conversationIds)
    (free : call.pair ∉ pairs tables) (complete : Complete tables pair conversation) :
    Complete (call.written tables row) pair conversation where
  stored := List.mem_append_left _ complete.stored
  key := by
    have other : call.pair ≠ pair := fun same => free (same ▸ complete_taken complete)
    rw [pair_keys_written, if_neg other, List.append_nil, complete.key]
  members := by
    have other : row.id ≠ conversation.id := fun same =>
      fresh (same ▸ List.mem_map_of_mem complete.stored)
    rw [members_written, if_neg other, List.append_nil]
    exact complete.members

theorem find_direct_eq (pair : Uuid × Uuid) : findDirect tables pair.1 pair.2 =
    tables.conversations.find? fun conversation =>
      (pairKeys tables pair).any fun key => key.conversationId == conversation.id := by
  unfold findDirect pairKeys
  congr
  funext conversation
  rw [List.any_filter]
  congr
  funext key
  have parts : (key.pair == pair) = (key.userLo == pair.1 && key.userHi == pair.2) := rfl
  rw [parts, Bool.and_comm _ (key.conversationId == conversation.id), Bool.and_assoc]

/-- The pair of a complete conversation is looked up to it. -/
theorem complete_found (schema : Schema tables) (complete : Complete tables pair conversation) :
    findDirect tables pair.1 pair.2 = some conversation := by
  rw [find_direct_eq, complete.key]
  simp only [List.any_cons, List.any_nil, Bool.or_false]
  have found : tables.conversations.find? (fun other => other.id == conversation.id) =
      some conversation := UniqueKeys.find_member Conversation.id schema.conversations
    complete.stored
  simpa only [Bool.beq_comm] using found

theorem found_taken {found : Conversation} (looked : findDirect tables pair.1 pair.2 = some found) :
    pair ∈ pairs tables := by
  by_contra free
  rw [find_direct_eq, pair_keys_empty free] at looked
  exact absurd (List.find?_some looked) Bool.false_ne_true

end Chats

section Drafts
variable {Digest : Type} {tables : Tables Digest} {call : Call Digest} {row : Conversation}

theorem direct_opens (id : Uuid) (now : Time) (fresh : id ∉ tables.conversationIds)
    (apart : call.otherId ≠ call.user.id) (creator : call.user.id ∈ tables.userIds)
    (known : call.otherId ∈ tables.userIds) :
    Opens tables (newDirect call.user.id id now) (call.memberRows id) where
  fresh := fresh
  slug := by simp [foldedSlug, newDirect]
  allowed := by
    constructor <;> simp [newDirect]
  creator := by simpa [newDirect] using creator
  theirs := by simp [Call.memberRows, newDirect]
  known := by simp [Call.memberRows, creator, known]
  distinct := by simpa [Call.memberRows] using apart.symm
  oneOwner := by simp [Call.memberRows, ConversationMember.isOwner]

/-- An allowed key of ids that are UUIDs breaks no constraint of the schema. -/
theorem keyed_schema {key : DirectConversationKey} (schema : Schema tables)
    (uuids : ∀ id ∈ tables.userIds, id < uuidRange) (allowed : KeyAllowed tables key)
    (placed : key.conversationId ∈ tables.conversationIds) :
    Schema { tables with directKeys := tables.directKeys ++ [key] } :=
  { schema with
    directKeys := by
      rw [List.map_append]
      exact nodup_appended schema.directKeys (List.nodup_singleton _)
        fun id alone => List.mem_singleton.mp alone ▸ allowed.2.2.1
    pairs := by
      rw [List.map_append]
      exact nodup_appended schema.pairs (List.nodup_singleton _)
        fun pair alone => List.mem_singleton.mp alone ▸ allowed.2.1
    orderedPair := by
      intro row member
      rcases List.mem_append.mp member with old | new
      · exact schema.orderedPair row old
      · rw [List.mem_singleton.mp new]
        exact (bytes_lt_iff (uuids _ allowed.2.2.2.1) (uuids _ allowed.2.2.2.2)).mp allowed.1
    directKeysRefer := by
      intro row member
      rcases List.mem_append.mp member with old | new
      · exact schema.directKeysRefer row old
      · rw [List.mem_singleton.mp new]
        exact ⟨placed, allowed.2.2.2⟩ }

/-- A call between two users of the database. -/
structure Call.Known (call : Call Digest) (tables : Tables Digest) : Prop where
  apart : call.otherId ≠ call.user.id
  creator : call.user.id ∈ tables.userIds
  known : call.otherId ∈ tables.userIds

theorem pair_known (known : call.Known tables) :
    call.pair.1 ∈ tables.userIds ∧ call.pair.2 ∈ tables.userIds := by
  unfold Call.pair sortedPair
  split
  · exact ⟨known.known, known.creator⟩
  · exact ⟨known.creator, known.known⟩

/-- Only the pair can be in the way of the key of a new conversation. -/
theorem key_allowed_iff (schema : Schema tables)
    (uuids : ∀ id ∈ tables.userIds, id < uuidRange) (known : call.Known tables) {id : Uuid}
    (fresh : id ∉ tables.conversationIds) :
    KeyAllowed tables (call.keyRow id) ↔ call.pair ∉ pairs tables := by
  have unused : id ∉ tables.directKeys.map DirectConversationKey.conversationId := by
    intro listed
    obtain ⟨key, member, rfl⟩ := List.mem_map.mp listed
    exact fresh (schema.directKeysRefer key member).1
  rw [KeyAllowed, key_row_pair]
  dsimp only [Call.keyRow]
  constructor
  · exact fun allowed => allowed.2.1
  · intro free
    have ordered : uuidBytes call.pair.1 < uuidBytes call.pair.2 :=
      sorted_pair_ordered (uuids call.user.id known.creator) (uuids call.otherId known.known)
        known.apart.symm
    exact ⟨ordered, free, unused, pair_known known⟩

/-- What a racing call writes is what it writes on its own. -/
theorem written_alone (uuids : ∀ id ∈ tables.userIds, id < uuidRange) (known : call.Known tables)
    (id : Uuid) (now : Time) : call.written tables (newDirect call.user.id id now) =
      withDirect tables call.user.id call.otherId id now := by
  have pair : call.pair =
      (min call.user.id call.otherId, max call.user.id call.otherId) :=
    sorted_pair_eq (uuids _ known.creator) (uuids _ known.known)
  rw [Call.written, Call.keyRow, pair]
  rfl

theorem written_schema (schema : Schema tables)
    (uuids : ∀ id ∈ tables.userIds, id < uuidRange) (known : call.Known tables) (id : Uuid)
    (now : Time) (fresh : id ∉ tables.conversationIds) (free : call.pair ∉ pairs tables) :
    Schema (call.written tables (newDirect call.user.id id now)) := by
  have opened := opened_schema schema
    (direct_opens id now fresh known.apart known.creator known.known)
  have allowed := (key_allowed_iff schema uuids known fresh).mpr free
  apply keyed_schema opened uuids allowed
  rw [opened_ids]
  exact List.mem_append_right _ (List.mem_singleton_self id)

end Drafts

section Calls
variable {Digest : Type} {tables : Tables Digest} {call other : Call Digest} {row : Conversation}
  {pair : Uuid × Uuid}

/-- Why a call is refused: it is made to oneself, there is no such usable user,
or one of the two has blocked the other. -/
def Call.Refused (call : Call Digest) (tables : Tables Digest) : Prop :=
  call.otherId = call.user.id ∨
    (tables.users.find? fun row => row.id == call.otherId).filter User.isUsable = none ∨
    isBlocked tables call.user.id call.otherId = true

/-- What a call knows of the tables in each phase; `pair` is the one observed. -/
def Call.Sound (tables : Tables Digest) (pair : Uuid × Uuid) (call : Call Digest) : Prop :=
  match call.phase with
  | .called => call.otherId ≠ call.user.id
  | .found | .allowed | .absent => call.otherId ≠ call.user.id ∧ call.otherId ∈ tables.userIds
  | .writing row keyed _ => call.Known tables ∧ row.id ∉ tables.conversationIds ∧
      (∃ id now, row = newDirect call.user.id id now) ∧
      (keyed = true → call.pair ∉ pairs tables)
  | .lost => call.pair ∈ pairs tables
  | .committed row => Complete tables call.pair row
  | .returned answer => call.pair = pair →
      ∃ conversation, answer = some conversation ∧ Complete tables pair conversation
  | .raised failure => ∀ error, failure = .app error → call.Refused tables
  | .cut => True

/-- Two calls never have the same row flushed or the same pair inserted. -/
structure Call.Apart (call other : Call Digest) : Prop where
  rows : ∀ id, call.flushes id = true → other.flushes id = false
  keys : ∀ pair, call.holds pair = true → other.holds pair = false

theorem pairs_written : pairs (call.written tables row) = pairs tables ++ [call.pair] := by
  simp [pairs, Call.written]

theorem ids_written :
    (call.written tables row).conversationIds = tables.conversationIds ++ [row.id] := by
  simp [Tables.conversationIds, Call.written, withOpened]

/-- The commit of a call leaves what another call knows. -/
theorem sound_written (fresh : row.id ∉ tables.conversationIds) (free : call.pair ∉ pairs tables)
    (unflushed : other.flushes row.id = false) (unheld : other.holds call.pair = false)
    (sound : other.Sound tables pair) : other.Sound (call.written tables row) pair := by
  obtain ⟨user, otherId, phase⟩ := other
  cases phase with
  | called | found | allowed | absent | raised failure | cut => exact sound
  | writing draft keyed joined =>
      obtain ⟨known, unused, shape, unpaired⟩ := sound
      have different : draft.id ≠ row.id := by simpa [Call.flushes] using unflushed
      refine ⟨⟨known.apart, known.creator, known.known⟩, ?_, shape, fun inserted member => ?_⟩
      · rw [ids_written, List.mem_append, List.mem_singleton]
        exact not_or.mpr ⟨unused, different⟩
      · rw [pairs_written, List.mem_append, List.mem_singleton] at member
        rcases member with old | same
        · exact unpaired inserted old
        · simp only [Call.holds, inserted, Bool.true_and, beq_eq_false_iff_ne] at unheld
          exact unheld same
  | lost =>
      change _ ∈ pairs (call.written tables row)
      rw [pairs_written]
      exact List.mem_append_left _ sound
  | committed row => exact complete_kept fresh free sound
  | returned answer =>
      intro same
      obtain ⟨conversation, given, complete⟩ := sound same
      exact ⟨conversation, given, complete_kept fresh free complete⟩

variable [DecidableEq Digest] {state : State Digest} {statement : Statement}

/-- What a statement does: it changes the phase of its call alone, where it
takes nothing that another call has, or it commits the rows of the call. -/
inductive Executed (state : State Digest) (pair : Uuid × Uuid) (call : Call Digest) :
    Tables Digest → Phase → Prop where
  | stays (phase : Phase) (sound : { call with phase := phase }.Sound state.tables pair)
      (rows : ∀ id, { call with phase := phase }.flushes id = true →
        call.flushes id = true ∨ ∀ other ∈ state.calls, other.flushes id = false)
      (keys : ∀ pair, { call with phase := phase }.holds pair = true →
        call.holds pair = true ∨ ∀ other ∈ state.calls, other.holds pair = false) :
      Executed state pair call state.tables phase
  | commits (row : Conversation) (ready : call.phase = .writing row true true) :
      Executed state pair call (call.written state.tables row) (.committed row)

omit [DecidableEq Digest] in
/-- A phase without a draft takes nothing. -/
theorem stays_draftless {phase : Phase}
    (sound : { call with phase := phase }.Sound state.tables pair)
    (unflushed : ∀ id, { call with phase := phase }.flushes id = false)
    (unheld : ∀ pair, { call with phase := phase }.holds pair = false) :
    Executed state pair call state.tables phase :=
  .stays phase sound (fun id taken => absurd ((unflushed id).symm.trans taken) Bool.false_ne_true)
    fun pair taken => absurd ((unheld pair).symm.trans taken) Bool.false_ne_true

section Effects
variable {user : User Digest} {otherId : Uuid} {after : Tables Digest} {phase : Phase}
  (schema : Schema state.tables) (uuids : ∀ id ∈ state.tables.userIds, id < uuidRange)
  (settled : pair ∈ pairs state.tables → ∃ conversation, Complete state.tables pair conversation)

theorem read_user_effect (apart : otherId ≠ user.id)
    (ran : execute state ⟨user, otherId, .called⟩ .readUser = some (after, phase)) :
    Executed state pair ⟨user, otherId, .called⟩ after phase := by
  simp only [execute] at ran
  split at ran
  · rename_i missing
    cases ran
    exact stays_draftless (fun _ _ => Or.inr (Or.inl missing)) (fun _ => rfl) fun _ => rfl
  · rename_i row usable
    cases ran
    obtain ⟨found, _⟩ := Option.filter_eq_some_iff.mp usable
    have same : row.id = otherId := by simpa using List.find?_some found
    refine stays_draftless ⟨apart, ?_⟩ (fun _ => rfl) fun _ => rfl
    exact List.mem_map.mpr ⟨row, List.mem_of_find?_eq_some found, same⟩

theorem read_blocks_effect (known : otherId ≠ user.id ∧ otherId ∈ state.tables.userIds)
    (ran : execute state ⟨user, otherId, .found⟩ .readBlocks = some (after, phase)) :
    Executed state pair ⟨user, otherId, .found⟩ after phase := by
  simp only [execute, assertCanDirectMessage] at ran
  by_cases blocked : isBlocked state.tables user.id otherId = true
  · simp only [blocked, if_true] at ran
    cases ran
    exact stays_draftless (fun _ _ => Or.inr (Or.inr blocked)) (fun _ => rfl) fun _ => rfl
  · simp only [if_neg blocked] at ran
    cases ran
    exact stays_draftless known (fun _ => rfl) fun _ => rfl

include schema settled in
theorem read_pair_effect (known : otherId ≠ user.id ∧ otherId ∈ state.tables.userIds)
    (ran : execute state ⟨user, otherId, .allowed⟩ .readPair = some (after, phase)) :
    Executed state pair ⟨user, otherId, .allowed⟩ after phase := by
  simp only [execute] at ran
  split at ran
  · rename_i existing looked
    cases ran
    refine stays_draftless (fun same => ?_) (fun _ => rfl) fun _ => rfl
    subst same
    obtain ⟨conversation, complete⟩ := settled (found_taken looked)
    refine ⟨conversation, ?_, complete⟩
    rw [← looked]
    exact complete_found schema complete
  · cases ran
    exact stays_draftless known (fun _ => rfl) fun _ => rfl

theorem flush_effect (id : Uuid) (now : Time)
    (known : otherId ≠ user.id ∧ otherId ∈ state.tables.userIds)
    (ran : execute state ⟨user, otherId, .absent⟩ (.flush id now) = some (after, phase)) :
    Executed state pair ⟨user, otherId, .absent⟩ after phase := by
  simp only [execute] at ran
  split at ran
  · cases ran
  · rename_i unflushed
    split at ran
    · rename_i opened
      cases ran
      have fresh : id ∉ state.tables.conversationIds := opened_fresh opened rfl
      have creator : user.id ∈ state.tables.userIds :=
        opened.creators _ (List.mem_append_right _ (List.mem_singleton_self _)) user.id rfl
      refine .stays _ ⟨⟨known.1, creator, known.2⟩, fresh, ⟨id, now, rfl⟩, fun inserted =>
        nomatch inserted⟩ (fun taken same => Or.inr fun other member => ?_) fun _ held => nomatch held
      have here : id = taken := by simpa [Call.flushes, newDirect] using same
      rw [← here]
      simpa using fun flushed => unflushed (List.any_eq_true.mpr ⟨other, member, flushed⟩)
    · cases ran
      exact stays_draftless (fun _ given => nomatch given) (fun _ => rfl) fun _ => rfl

include schema uuids in
theorem insert_key_effect {joined : Bool}
    (sound : Call.Sound state.tables pair ⟨user, otherId, .writing row false joined⟩)
    (ran : execute state ⟨user, otherId, .writing row false joined⟩ .insertKey =
      some (after, phase)) :
    Executed state pair ⟨user, otherId, .writing row false joined⟩ after phase := by
  obtain ⟨known, fresh, shape, _⟩ := sound
  have allowed := key_allowed_iff schema uuids known fresh
  simp only [execute] at ran
  split at ran
  · cases ran
  · rename_i unheld
    split at ran
    · rename_i let_in
      cases ran
      refine .stays _ ⟨⟨known.apart, known.creator, known.known⟩, fresh, shape, fun _ =>
        allowed.mp let_in⟩ (fun _ same => Or.inl same) fun taken held =>
        Or.inr fun other member => ?_
      have here : Call.pair ⟨user, otherId, .writing row false joined⟩ = taken := by
        simpa [Call.holds, Call.pair] using held
      rw [← here]
      simpa using fun held => unheld (List.any_eq_true.mpr ⟨other, member, held⟩)
    · rename_i refused
      cases ran
      refine stays_draftless ?_ (fun _ => rfl) fun _ => rfl
      by_contra free
      exact refused (allowed.mpr free)

include schema in
theorem insert_members_effect {keyed : Bool}
    (sound : Call.Sound state.tables pair ⟨user, otherId, .writing row keyed false⟩)
    (ran : execute state ⟨user, otherId, .writing row keyed false⟩ .insertMembers =
      some (after, phase)) :
    Executed state pair ⟨user, otherId, .writing row keyed false⟩ after phase := by
  obtain ⟨known, fresh, ⟨id, now, shape⟩, unpaired⟩ := sound
  have joins : Schema (withOpened state.tables row
      (Call.memberRows ⟨user, otherId, .writing row keyed false⟩ row.id)) := by
    have same : row.id = id := by rw [shape]; rfl
    rw [same, shape]
    exact opened_schema schema
      (direct_opens id now (same ▸ fresh) known.apart known.creator known.known)
  simp only [execute, if_pos joins] at ran
  cases ran
  refine .stays _ ⟨⟨known.apart, known.creator, known.known⟩, fresh, ⟨id, now, shape⟩, unpaired⟩
    (fun _ same => Or.inl same) fun _ held => Or.inl ?_
  simpa only [Call.holds, Call.pair] using held

include schema settled in
theorem reread_effect (taken : Call.pair ⟨user, otherId, .lost⟩ ∈ pairs state.tables)
    (ran : execute state ⟨user, otherId, .lost⟩ .rereadPair = some (after, phase)) :
    Executed state pair ⟨user, otherId, .lost⟩ after phase := by
  cases ran
  refine stays_draftless (fun same => ?_) (fun _ => rfl) fun _ => rfl
  subst same
  obtain ⟨conversation, complete⟩ := settled taken
  exact ⟨conversation, complete_found schema complete, complete⟩

include schema uuids settled in
theorem execute_effect (sound : call.Sound state.tables pair)
    (ran : execute state call statement = some (after, phase)) :
    Executed state pair call after phase := by
  obtain ⟨user, otherId, before⟩ := call
  cases statement with
  | readUser => cases before with
    | called => exact read_user_effect sound ran
    | _ => cases ran
  | readBlocks => cases before with
    | found => exact read_blocks_effect sound ran
    | _ => cases ran
  | readPair => cases before with
    | allowed => exact read_pair_effect schema settled sound ran
    | _ => cases ran
  | flush id now => cases before with
    | absent => exact flush_effect id now sound ran
    | _ => cases ran
  | insertKey => cases before with
    | writing row keyed joined => cases keyed with
      | true => cases ran
      | false => exact insert_key_effect schema uuids sound ran
    | _ => cases ran
  | insertMembers => cases before with
    | writing row keyed joined => cases joined with
      | true => cases keyed <;> cases ran
      | false => exact insert_members_effect schema sound ran
    | _ => cases ran
  | commit => cases before with
    | writing row keyed joined => cases keyed with
      | false => cases joined <;> cases ran
      | true => cases joined with
        | false => cases ran
        | true =>
            cases ran
            exact .commits row rfl
    | _ => cases ran
  | rereadPair => cases before with
    | lost => exact reread_effect schema settled sound ran
    | _ => cases ran
  | answer => cases before with
    | committed row =>
        cases ran
        exact stays_draftless (fun same => ⟨row, rfl, same ▸ sound⟩) (fun _ => rfl) fun _ => rfl
    | _ => cases ran
  | cut => cases before with
    | returned answer | raised failure | cut => cases ran
    | _ =>
        cases ran
        exact stays_draftless trivial (fun _ => rfl) fun _ => rfl

end Effects

end Calls

section Runs
variable {Digest : Type} {start : Tables Digest} {pair : Uuid × Uuid}
  {state next : State Digest} {action : Action Digest} {index : Nat} {call : Call Digest}

structure Inv (start : Tables Digest) (pair : Uuid × Uuid) (state : State Digest) : Prop where
  schema : Schema state.tables
  users : state.tables.users = start.users
  blocks : state.tables.blocks = start.blocks
  settled : pair ∈ pairs state.tables → ∃ conversation, Complete state.tables pair conversation
  whole : ∀ conversation ∈ state.tables.conversations, conversation ∈ start.conversations ∨
    ∃ pair, Complete state.tables pair conversation
  sound : ∀ call ∈ state.calls, call.Sound state.tables pair
  apart : ∀ (index other : Nat) (call rival : Call Digest), index ≠ other →
    state.calls[index]? = some call → state.calls[other]? = some rival → call.Apart rival

theorem apart_symm {rival : Call Digest} (apart : call.Apart rival) : rival.Apart call where
  rows := by
    intro id taken
    by_contra also
    exact absurd (apart.rows id (by simpa using also)) (by simp [taken])
  keys := by
    intro pair taken
    by_contra also
    exact absurd (apart.keys pair (by simpa using also)) (by simp [taken])

/-- A call that takes nothing is apart from every other. -/
theorem idle_apart {rival : Call Digest} (unflushed : ∀ id, call.flushes id = false)
    (unheld : ∀ pair, call.holds pair = false) : call.Apart rival :=
  ⟨fun id taken => absurd ((unflushed id).symm.trans taken) Bool.false_ne_true,
    fun pair taken => absurd ((unheld pair).symm.trans taken) Bool.false_ne_true⟩

theorem added_inv (inv : Inv start pair state) (sound : call.Sound state.tables pair)
    (unflushed : ∀ id, call.flushes id = false) (unheld : ∀ pair, call.holds pair = false) :
    Inv start pair { state with calls := state.calls ++ [call] } :=
  { inv with
    sound := by
      intro other member
      rcases List.mem_append.mp member with old | new
      · exact inv.sound other old
      · exact List.mem_singleton.mp new ▸ sound
    apart := by
      intro first second one two distinct listed also
      rcases Runs.added_cases listed with old | ⟨last, rfl⟩
      · rcases Runs.added_cases also with other | ⟨_, rfl⟩
        · exact inv.apart first second one two distinct old other
        · exact apart_symm (idle_apart unflushed unheld)
      · exact idle_apart unflushed unheld }

theorem stays_inv {phase : Phase} (inv : Inv start pair state)
    (found : state.calls[index]? = some call)
    (sound : { call with phase := phase }.Sound state.tables pair)
    (rows : ∀ id, { call with phase := phase }.flushes id = true →
      call.flushes id = true ∨ ∀ other ∈ state.calls, other.flushes id = false)
    (keys : ∀ pair, { call with phase := phase }.holds pair = true →
      call.holds pair = true ∨ ∀ other ∈ state.calls, other.holds pair = false) :
    Inv start pair { state with calls := state.calls.set index { call with phase := phase } } := by
  have changed : ∀ (other : Nat) (rival : Call Digest), other ≠ index →
      state.calls[other]? = some rival → Call.Apart { call with phase := phase } rival := by
    intro other rival distinct listed
    have before := inv.apart index other call rival distinct.symm found listed
    have member : rival ∈ state.calls := List.mem_of_getElem? listed
    exact ⟨fun id taken => (rows id taken).elim (before.rows id) fun free => free rival member,
      fun pair taken => (keys pair taken).elim (before.keys pair) fun free => free rival member⟩
  exact { inv with
    sound := by
      intro other member
      rcases List.mem_or_eq_of_mem_set member with old | rfl
      · exact inv.sound other old
      · exact sound
    apart := by
      intro first second one two distinct listed also
      rcases Runs.moved_cases listed with ⟨rfl, rfl⟩ | ⟨elsewhere, old⟩
      · rcases Runs.moved_cases also with ⟨rfl, _⟩ | ⟨other, second⟩
        · exact absurd rfl distinct
        · exact changed _ _ other second
      · rcases Runs.moved_cases also with ⟨rfl, rfl⟩ | ⟨_, second⟩
        · exact apart_symm (changed _ _ elsewhere old)
        · exact inv.apart _ _ _ _ distinct old second }

theorem commits_inv {row : Conversation} (uuids : ∀ id ∈ start.userIds, id < uuidRange)
    (inv : Inv start pair state) (found : state.calls[index]? = some call)
    (ready : call.phase = .writing row true true) :
    Inv start pair ⟨call.written state.tables row,
      state.calls.set index { call with phase := .committed row }⟩ := by
  obtain ⟨user, otherId, phase⟩ := call
  cases ready
  obtain ⟨known, fresh, ⟨id, now, shape⟩, unpaired⟩ := inv.sound _ (List.mem_of_getElem? found)
  have free := unpaired rfl
  have flushed : Call.flushes ⟨user, otherId, .writing row true true⟩ row.id = true := by
    simp [Call.flushes]
  have held : Call.holds ⟨user, otherId, .writing row true true⟩
      (Call.pair ⟨user, otherId, .writing row true true⟩) = true := by
    simp [Call.holds]
  have others : ∀ (other : Nat) (rival : Call Digest), other ≠ index →
      state.calls[other]? = some rival →
      rival.Sound (Call.written ⟨user, otherId, .writing row true true⟩ state.tables row) pair := by
    intro other rival distinct listed
    have apart := inv.apart index other _ rival distinct.symm found listed
    exact sound_written fresh free (apart.rows _ flushed) (apart.keys _ held)
      (inv.sound rival (List.mem_of_getElem? listed))
  have uuids : ∀ id ∈ state.tables.userIds, id < uuidRange := by
    intro id member
    rw [Tables.userIds, inv.users] at member
    exact uuids id member
  have complete := complete_written inv.schema fresh free
  exact {
    schema := by
      have same : row.id = id := by rw [shape]; rfl
      rw [shape]
      exact written_schema inv.schema uuids known id now (same ▸ fresh) free
    users := inv.users
    blocks := inv.blocks
    settled := by
      intro member
      rw [pairs_written, List.mem_append, List.mem_singleton] at member
      rcases member with old | rfl
      · obtain ⟨conversation, before⟩ := inv.settled old
        exact ⟨conversation, complete_kept fresh free before⟩
      · exact ⟨row, complete⟩
    whole := by
      intro conversation member
      rcases List.mem_append.mp member with old | new
      · rcases inv.whole conversation old with first | ⟨other, before⟩
        · exact Or.inl first
        · exact Or.inr ⟨other, complete_kept fresh free before⟩
      · rw [List.mem_singleton.mp new]
        exact Or.inr ⟨_, complete⟩
    sound := by
      intro rival member
      obtain ⟨other, listed⟩ := List.mem_iff_getElem?.mp member
      rcases Runs.moved_cases listed with ⟨_, rfl⟩ | ⟨distinct, old⟩
      · exact complete
      · exact others other rival distinct old
    apart := by
      have idle : ∀ rival : Call Digest, Call.Apart ⟨user, otherId, .committed row⟩ rival :=
        fun rival => idle_apart (fun _ => rfl) fun _ => rfl
      intro first second one two distinct listed also
      rcases Runs.moved_cases listed with ⟨_, rfl⟩ | ⟨_, old⟩
      · exact idle two
      · rcases Runs.moved_cases also with ⟨_, rfl⟩ | ⟨_, other⟩
        · exact apart_symm (idle one)
        · exact inv.apart first second one two distinct old other }

variable [DecidableEq Digest]

theorem step_inv (uuids : ∀ id ∈ start.userIds, id < uuidRange) (inv : Inv start pair state)
    (taken : step state action = some next) : Inv start pair next := by
  cases action with
  | receive user otherId =>
      by_cases own : otherId = user.id
      · simp only [step, if_pos own] at taken
        cases taken
        exact added_inv inv (fun _ _ => Or.inl own) (fun _ => rfl) fun _ => rfl
      · simp only [step, if_neg own] at taken
        cases taken
        exact added_inv inv own (fun _ => rfl) fun _ => rfl
  | perform index statement =>
      obtain ⟨call, found, executed⟩ := Option.bind_eq_some_iff.mp taken
      obtain ⟨⟨after, phase⟩, ran, rfl⟩ := Option.map_eq_some_iff.mp executed
      have known : ∀ id ∈ state.tables.userIds, id < uuidRange := by
        intro id member
        rw [Tables.userIds, inv.users] at member
        exact uuids id member
      have effect := execute_effect inv.schema known inv.settled
        (inv.sound call (List.mem_of_getElem? found)) ran
      cases effect with
      | stays phase sound rows keys => exact stays_inv inv found sound rows keys
      | commits row ready => exact commits_inv uuids inv found ready

end Runs

section Convergence
variable {Digest : Type} {start : Database Digest} {first second : User Digest}
  {state next : State Digest} {call : Call Digest}

/-- Two distinct usable users, neither of whom blocked the other. -/
structure Peers (tables : Tables Digest) (first second : User Digest) : Prop where
  distinct : first.id ≠ second.id
  listed : first ∈ tables.users ∧ second ∈ tables.users
  usable : first.isUsable = true ∧ second.isUsable = true
  unblocked : isBlocked tables first.id second.id = false

/-- A call that one of the two users makes for the other. -/
def Call.Between (call : Call Digest) (first second : Uuid) : Prop :=
  call.user.id = first ∧ call.otherId = second ∨ call.user.id = second ∧ call.otherId = first

/-- Neither of the two is refused the other. -/
theorem between_admitted (peers : Peers start.toTables first second)
    (between : call.Between first.id second.id) : ¬call.Refused start.toTables := by
  have found : ∀ user ∈ start.users, start.users.find? (fun row => row.id == user.id) = some user :=
    fun user listed => UniqueKeys.find_member User.id start.schema.users listed
  unfold Call.Refused
  rcases between with ⟨caller, other⟩ | ⟨caller, other⟩
  · rw [caller, other, found second peers.listed.2, peers.unblocked]
    simp [peers.usable, peers.distinct.symm]
  · rw [caller, other, found first peers.listed.1, blocked_symm, peers.unblocked]
    simp [peers.usable, peers.distinct]

theorem pair_between (uuids : ∀ id ∈ start.userIds, id < uuidRange)
    (peers : Peers start.toTables first second) (between : call.Between first.id second.id) :
    call.pair = sortedPair first.id second.id := by
  have fits : first.id < uuidRange := uuids _ (List.mem_map_of_mem peers.listed.1)
  have bounded : second.id < uuidRange := uuids _ (List.mem_map_of_mem peers.listed.2)
  rcases between with ⟨caller, other⟩ | ⟨caller, other⟩
  · rw [Call.pair, caller, other]
  · rw [Call.pair, caller, other, sorted_pair_comm bounded fits]

variable [DecidableEq Digest]

/-- What holds of the calls between two users after any interleaving. -/
structure Converged (start : Tables Digest) (first second : Uuid) (final : State Digest) :
    Prop where
  /-- No call of the two is refused. -/
  admitted : ∀ call ∈ final.calls, call.Between first second →
    ∀ error, call.phase ≠ .raised (.app error)
  /-- All that return give one conversation, the only one of the pair. -/
  agreed : ∀ call ∈ final.calls, call.Between first second → ∀ answer, call.phase = .returned answer →
    ∃ conversation, Complete final.tables (sortedPair first second) conversation ∧
      ∀ other ∈ final.calls, other.Between first second →
        ∀ given, other.phase = .returned given → given = some conversation
  single : (pairKeys final.tables (sortedPair first second)).length ≤ 1
  /-- No half of a conversation is left by any call. -/
  whole : ∀ conversation ∈ final.tables.conversations, conversation ∈ start.conversations ∨
    ∃ pair, Complete final.tables pair conversation

omit [DecidableEq Digest] in
theorem complete_single {tables : Tables Digest} {pair : Uuid × Uuid}
    (settled : pair ∈ pairs tables → ∃ conversation, Complete tables pair conversation) :
    (pairKeys tables pair).length ≤ 1 := by
  by_cases member : pair ∈ pairs tables
  · obtain ⟨conversation, complete⟩ := settled member
    rw [complete.key]
    exact Nat.le_refl 1
  · rw [pair_keys_empty member]
    exact Nat.zero_le 1

/-- However the calls of two users for each other interleave, they converge on
one conversation; the order of the texts, by which they sort the pair, is the
order of the bytes, which the table checks. -/
theorem direct_calls_converge (start : Database Digest)
    (uuids : ∀ id ∈ start.userIds, id < uuidRange) (first second : User Digest)
    (peers : Peers start.toTables first second)
    (settled : sortedPair first.id second.id ∈ pairs start.toTables → ∃ conversation,
      Complete start.toTables (sortedPair first.id second.id) conversation)
    (actions : List (Action Digest)) (final : State Digest)
    (ran : Runs.run step { tables := start.toTables } actions = some final) :
    Converged start.toTables first.id second.id final ∧
      ∀ one other : Uuid, one < uuidRange → other < uuidRange → one ≠ other →
        (uuidText one < uuidText other ↔ uuidBytes one < uuidBytes other) ∧
        sortedPair one other = sortedPair other one ∧
        uuidBytes (sortedPair one other).1 < uuidBytes (sortedPair one other).2 := by
  constructor
  · have inv : Inv start.toTables (sortedPair first.id second.id) final :=
      Runs.run_invariant (Inv start.toTables (sortedPair first.id second.id))
        (fun state action next inv taken => step_inv uuids inv taken) ran
        { schema := start.schema, users := rfl, blocks := rfl, settled := settled
          whole := fun conversation member => Or.inl member
          sound := fun call member => absurd member List.not_mem_nil
          apart := fun index other call rival distinct found => by simp at found }
    have returned : ∀ call ∈ final.calls, call.Between first.id second.id → ∀ answer,
        call.phase = .returned answer → ∃ conversation, answer = some conversation ∧
          Complete final.tables (sortedPair first.id second.id) conversation := by
      intro call member between answer given
      have sound := inv.sound call member
      rw [Call.Sound, given] at sound
      exact sound (pair_between uuids peers between)
    exact {
      admitted := by
        intro call member between error given
        have sound := inv.sound call member
        rw [Call.Sound, given] at sound
        have refused := sound error rfl
        unfold Call.Refused isBlocked blockingState at refused
        rw [inv.users, inv.blocks] at refused
        exact between_admitted peers between refused
      agreed := by
        intro call member between answer given
        obtain ⟨conversation, _, complete⟩ := returned call member between answer given
        refine ⟨conversation, complete, fun other listed also second replied => ?_⟩
        obtain ⟨same, rfl, again⟩ := returned other listed also second replied
        have looked := complete_found inv.schema complete
        rw [complete_found inv.schema again] at looked
        exact looked
      single := complete_single inv.settled
      whole := inv.whole }
  · intro one other fits bounded distinct
    exact ⟨text_lt_iff one other, sorted_pair_comm fits bounded,
      sorted_pair_ordered fits bounded distinct⟩

end Convergence

section Race

def newcomer (id : Uuid) : User Nat :=
  { id := id, phoneHash := id, phoneLast4 := "1234", phoneCountry := "91", displayName := ""
    systemRole := .user, accountState := .active, deletedAt := none }

def strangers : Database Nat :=
  ⟨{ users := [newcomer 3, newcomer 8] }, users_only_schema _ (by decide)⟩

/-- Both look before either writes; the second waits for the key of the first. -/
def raced : List (Action Nat) :=
  [.receive (newcomer 3) 8, .receive (newcomer 8) 3] ++
    ([.readUser, .readBlocks, .readPair, .flush 20 0].map (.perform 0)) ++
    ([.readUser, .readBlocks, .readPair, .flush 21 0].map (.perform 1)) ++
    ([.insertKey, .insertMembers].map (.perform 0)) ++ [.perform 1 .insertMembers] ++
    ([.commit, .answer].map (.perform 0)) ++ [.perform 1 .insertKey, .perform 1 .rereadPair]

def Phase.given : Phase → Option Uuid
  | .returned (some conversation) => some conversation.id
  | _ => none

theorem raced_chats_converge : ∃ final,
    Runs.run step { tables := strangers.toTables } raced = some final ∧
      final.calls.map (fun call => call.phase.given) = [some 20, some 20] ∧
      Converged strangers.toTables 3 8 final := by
  have result : (Runs.run step { tables := strangers.toTables } raced).map
      (fun final => final.calls.map fun call => call.phase.given) = some [some 20, some 20] := by
    decide +kernel
  obtain ⟨final, ran, given⟩ := Option.map_eq_some_iff.mp result
  refine ⟨final, ran, given, ?_⟩
  exact (direct_calls_converge strangers (by decide) (newcomer 3) (newcomer 8)
    ⟨by decide, by decide, by decide, by decide⟩ (fun taken => absurd taken List.not_mem_nil) raced
    final ran).1

end Race

end RunnerupChat.DirectRaces
