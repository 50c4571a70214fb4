import Mathlib.Data.List.MinMax
import RunnerupChat.MessageNumbers
import RunnerupChat.PageReading

/-!
A client that reads a conversation page by page through `list_messages`: back
from the newest message, or on from a cursor, each call from the smallest or
the largest `seq` it has received. Between its calls the message store takes
any steps.
-/

namespace RunnerupChat.MessagePages

open Accounts MessageStore PageReading

inductive Direction where
  | backward
  | forward (start : Nat)

structure State where
  store : MessageStore.State
  received : List MessageOut
  calls : Nat
  done : Bool

inductive Action where
  | serve (action : MessageStore.Action)
  | page (limit : Nat)

def beforeSeq (direction : Direction) (received : List MessageOut) : Option Nat :=
  match direction with
  | .backward => (received.map MessageOut.seq).min?
  | .forward _ => none

def afterSeq (direction : Direction) (received : List MessageOut) : Option Nat :=
  match direction with
  | .backward => none
  | .forward start => some ((received.map MessageOut.seq).max?.getD start)

def started (store : MessageStore.State) : State := ⟨store, [], 0, false⟩

section Machine
variable (searchMatches : String → String → Bool) (conversation : Uuid) (direction : Direction)

/-- One call, with a limit that the route accepts. -/
def page (state : State) (limit : Nat) : Option State :=
  if state.done ∨ limit < 1 ∨ 100 < limit then none
  else
    let rows := listRows state.store conversation (beforeSeq direction state.received)
      (afterSeq direction state.received) limit
    some { state with
      received := state.received ++ rows.map (serialize · [])
      calls := state.calls + 1
      done := rows.isEmpty }

def step (state : State) : Action → Option State
  | .serve action =>
      (MessageStore.step searchMatches state.store action).map fun store =>
        { state with store := store }
  | .page limit => page conversation direction state limit

end Machine

/-- The message was received once. -/
def Once (received : List MessageOut) (row : Message) : Prop :=
  received.countP (fun out => out.id == row.id) = 1

section Keys

def rowKey (row : Message) : Uuid × Nat := (row.id, row.seq)

def outKey (out : MessageOut) : Uuid × Nat := (out.id, out.seq)

def keysOf (store : MessageStore.State) (conversation : Uuid) : List (Uuid × Nat) :=
  (messagesOf store conversation).map rowKey

def receivedKeys (state : State) : List (Uuid × Nat) := state.received.map outKey

variable {store next : MessageStore.State} {conversation : Uuid}

theorem keys_commit {tx : TxId} {startedAt : Time} {write : Write} {seq eventId : Nat}
    (inv : Inv store) (ready : store.txs tx = some ⟨startedAt, .logged write seq eventId⟩)
    (fields : Committed store next tx startedAt write seq eventId) :
    ∃ added, keysOf next conversation = keysOf store conversation ++ added ∧
      ∀ key ∈ added, lastSeq store conversation < key.2 := by
  cases write with
  | create message selected actor =>
      obtain ⟨draft, id, now, rfl⟩ := inv.phases tx _ ready
      have held : (sequenced store).holds tx =
          some ⟨draft.access.conversation, seq, some eventId⟩ := by
        simp [sequenced, ready, holdOf, Phase.hold, Write.conversation, newMessage]
      obtain ⟨last, known, succ⟩ := inv.log.taken tx _ held
      have current : lastSeqOf store.conversations draft.access.conversation = some last := known
      refine ⟨([newMessage draft seq id now].filter fun row =>
        row.conversationId == conversation).map rowKey, ?_, ?_⟩
      · rw [keysOf, messagesOf, fields.messages, applyWrite, List.filter_append, List.map_append]
        rfl
      · intro key member
        obtain ⟨row, listed, rfl⟩ := List.mem_map.mp member
        obtain ⟨single, here⟩ := List.mem_filter.mp listed
        obtain rfl := List.mem_singleton.mp single
        have place : draft.access.conversation = conversation := beq_iff_eq.mp here
        rw [← place, lastSeq, current]
        show last < seq
        rw [show seq = last + 1 from succ]
        exact Nat.lt_succ_self last
  | revise revision =>
      refine ⟨[], ?_, by simp⟩
      rw [keysOf, messagesOf, fields.messages, applyWrite, List.append_nil]
      exact parts_overlay rowKey revision (fun _ => rfl) store.messages

/-- A step adds messages above the counter alone, and takes none away. -/
theorem keys_step (conversation : Uuid) (inv : Inv store) {action : MessageStore.Action}
    (effect : Effect store next action) :
    ∃ added, keysOf next conversation = keysOf store conversation ++ added ∧
      ∀ key ∈ added, lastSeq store conversation < key.2 := by
  cases effect_written effect with
  | kept messages edits events =>
      exact ⟨[], by rw [keysOf, messagesOf, messages, List.append_nil, keysOf, messagesOf], by simp⟩
  | committed tx startedAt write seq eventId origin ready fields =>
      exact keys_commit inv ready fields

theorem key_bounded (inv : Inv store) (numbered : Numbered store conversation) :
    ∀ key ∈ keysOf store conversation, key.2 ≤ lastSeq store conversation := by
  intro key member
  obtain ⟨row, listed, rfl⟩ := List.mem_map.mp member
  exact (message_seq_bounded inv numbered row listed).2

theorem keys_sorted (inv : Inv store) (numbered : Numbered store conversation) :
    (keysOf store conversation).Pairwise fun left right => left.2 < right.2 :=
  List.pairwise_map.mpr (message_seqs_sorted inv numbered)

theorem keys_distinct (inv : Inv store) (numbered : Numbered store conversation) :
    ∀ key ∈ keysOf store conversation, ∀ other ∈ keysOf store conversation,
      key.2 = other.2 → key = other := by
  intro key member other listed same
  have sorted := keys_sorted inv numbered
  have nodup : ((keysOf store conversation).map Prod.snd).Nodup :=
    (List.pairwise_map.mpr sorted).imp fun less => Nat.ne_of_lt less
  exact List.inj_on_of_nodup_map nodup member listed same

end Keys

section Pages
variable {store : MessageStore.State} {conversation : Uuid}

theorem newest_page (inv : Inv store) (numbered : Numbered store conversation)
    (chosen : Message → Bool) {limit : Nat} (room : 0 < limit) :
    Page (· > ·) Message.seq ((messagesOf store conversation).filter chosen)
      ((((messagesOf store conversation).filter chosen).insertionSort fun left right =>
        right.seq ≤ left.seq).take limit) := by
  apply page_take (fun left right => Nat.lt_asymm)
  case same => exact fun row => List.mem_insertionSort _
  case room => exact room
  case ordered =>
    have sorted := (message_seqs_sorted inv numbered).sublist
      (List.filter_sublist (p := chosen))
    have different : (((messagesOf store conversation).filter chosen).insertionSort
        fun left right => right.seq ≤ left.seq).Pairwise fun left right =>
          left.seq ≠ right.seq := by
      apply List.pairwise_map.mp
      apply ((List.perm_insertionSort _ _).map Message.seq).nodup_iff.mpr
      exact (List.pairwise_map.mpr sorted).imp fun less => Nat.ne_of_lt less
    have ordered : (((messagesOf store conversation).filter chosen).insertionSort
        fun left right => right.seq ≤ left.seq).Pairwise fun left right =>
          right.seq ≤ left.seq := List.pairwise_insertionSort _ _
    exact (ordered.and different).imp fun both => Nat.lt_of_le_of_ne both.1 (Ne.symm both.2)

/-- What `list_messages` answers without a cursor or below one. -/
theorem backward_page (inv : Inv store) (numbered : Numbered store conversation)
    (before : Option Nat) (limit : Nat) :
    Page (· > ·) Message.seq
      ((messagesOf store conversation).filter fun row => before.all fun last => row.seq < last)
      (listRows store conversation before none limit) := by
  have room : 0 < max 1 (min limit 100) := by omega
  cases before with
  | none =>
      have newest := newest_page inv numbered (fun _ => true) room
      rw [List.filter_true] at newest
      simpa [listRows, messagesOf] using newest
  | some last => exact newest_page inv numbered (fun row => decide (row.seq < last)) room

theorem forward_page (inv : Inv store) (numbered : Numbered store conversation)
    (after limit : Nat) :
    Page (· < ·) Message.seq
      ((messagesOf store conversation).filter fun row => decide (after < row.seq))
      (listRows store conversation none (some after) limit) := by
  have room : 0 < max 1 (min limit 100) := by omega
  apply page_take (fun left right => Nat.lt_asymm)
  case room => exact room
  case same => exact fun row => List.mem_insertionSort _
  case ordered =>
    apply KeysetPage.above_sorted
    exact (List.pairwise_map.mpr (message_seqs_sorted inv numbered)).imp fun less =>
      Nat.ne_of_lt less

end Pages

section Steps
variable {searchMatches : String → String → Bool} {conversation : Uuid} {direction : Direction}
  {state next : State}

/-- A call that is answered. -/
structure Paged (conversation : Uuid) (direction : Direction) (state next : State)
    (rows : List Message) : Prop where
  undone : state.done = false
  store : next.store = state.store
  received : next.received = state.received ++ rows.map (serialize · [])
  calls : next.calls = state.calls + 1
  done : next.done = rows.isEmpty

theorem page_paged {limit : Nat} (taken : page conversation direction state limit = some next) :
    Paged conversation direction state next (listRows state.store conversation
      (beforeSeq direction state.received) (afterSeq direction state.received) limit) := by
  unfold page at taken
  split at taken
  · cases taken
  · rename_i open_
    cases taken
    exact ⟨by simpa using (not_or.mp open_).1, rfl, rfl, rfl, rfl⟩

theorem received_keys {rows : List Message} (paged : Paged conversation direction state next rows) :
    receivedKeys next = receivedKeys state ++ rows.map rowKey := by
  rw [receivedKeys, paged.received, List.map_append, List.map_map, receivedKeys]
  rfl

theorem keys_received (state : State) :
    (receivedKeys state).map Prod.snd = state.received.map MessageOut.seq := by
  rw [receivedKeys, List.map_map]
  rfl

theorem smallest_furthest (state : State) :
    Furthest (· > ·) Prod.snd none (receivedKeys state) (beforeSeq .backward state.received) := by
  rw [beforeSeq, ← keys_received]
  cases found : ((receivedKeys state).map Prod.snd).min? with
  | none => exact Or.inl ⟨by simpa using List.min?_eq_none_iff.mp found, rfl⟩
  | some least =>
      obtain ⟨member, lowest⟩ := List.min?_eq_some_iff.mp found
      obtain ⟨key, listed, rfl⟩ := List.mem_map.mp member
      refine Or.inr ⟨key, listed, rfl, fun other inside => ?_⟩
      exact Nat.not_lt.mpr (lowest other.2 (List.mem_map_of_mem inside))

theorem largest_furthest (start : Nat) (state : State) :
    Furthest (· < ·) Prod.snd (some start) (receivedKeys state)
      (afterSeq (.forward start) state.received) := by
  rw [afterSeq, ← keys_received]
  cases found : ((receivedKeys state).map Prod.snd).max? with
  | none => exact Or.inl ⟨by simpa using List.max?_eq_none_iff.mp found, rfl⟩
  | some most =>
      obtain ⟨member, highest⟩ := List.max?_eq_some_iff.mp found
      obtain ⟨key, listed, rfl⟩ := List.mem_map.mp member
      refine Or.inr ⟨key, listed, rfl, fun other inside => ?_⟩
      exact Nat.not_lt.mpr (highest other.2 (List.mem_map_of_mem inside))

/-- The rows a call can choose from are those beyond its cursor. -/
theorem below_cursor (store : MessageStore.State) (conversation : Uuid) (cursor : Option Nat)
    (key : Uuid × Nat) :
    key ∈ (((messagesOf store conversation).filter fun row =>
        cursor.all fun last => row.seq < last).map rowKey) ↔
      key ∈ keysOf store conversation ∧ Beyond (· > ·) Prod.snd cursor key := by
  have beyond : ∀ row : Message, (cursor.all fun last => decide (row.seq < last)) = true ↔
      Beyond (· > ·) Prod.snd cursor (rowKey row) := by
    intro row
    cases cursor with
    | none => simp [Beyond]
    | some last => simp [Beyond, rowKey]
  constructor
  · intro member
    obtain ⟨row, listed, rfl⟩ := List.mem_map.mp member
    obtain ⟨stored, under⟩ := List.mem_filter.mp listed
    exact ⟨List.mem_map_of_mem stored, (beyond row).mp under⟩
  · rintro ⟨member, under⟩
    obtain ⟨row, stored, rfl⟩ := List.mem_map.mp member
    exact List.mem_map_of_mem (List.mem_filter.mpr ⟨stored, (beyond row).mpr under⟩)

/-- Of messages with keys of the conversation, none was received twice. -/
theorem once_received {store : MessageStore.State} (inv : Inv store) {received : List MessageOut}
    (apart : (received.map outKey).Pairwise fun left right => left.2 ≠ right.2)
    (within : ∀ key ∈ received.map outKey, key ∈ keysOf store conversation)
    {row : Message} (member : rowKey row ∈ received.map outKey) : Once received row := by
  have distinct : (received.map MessageOut.id).Nodup := by
    have ids : received.map MessageOut.id = (received.map outKey).map Prod.fst := by
      rw [List.map_map]
      rfl
    rw [ids]
    apply List.pairwise_map.mpr
    apply apart.imp_of_mem
    intro left right inLeft inRight different same
    obtain ⟨one, stored, rfl⟩ := List.mem_map.mp (within left inLeft)
    obtain ⟨other, kept, rfl⟩ := List.mem_map.mp (within right inRight)
    have equal : one = other := List.inj_on_of_nodup_map inv.unique.distinct
      (List.mem_of_mem_filter stored) (List.mem_of_mem_filter kept) same
    exact different (congrArg Message.seq equal)
  obtain ⟨out, listed, same⟩ := List.mem_map.mp member
  have named : out.id = row.id := congrArg Prod.fst same
  have counted : (received.map MessageOut.id).count row.id = 1 :=
    List.count_eq_one_of_mem distinct (named ▸ List.mem_map_of_mem listed)
  rw [List.count, List.countP_map] at counted
  exact counted

end Steps

section Backward
variable {searchMatches : String → String → Bool} {conversation : Uuid} {wanted : List (Uuid × Nat)}
  {state next : State}

/-- A client on its way back, once it has received its first page. -/
structure Back (conversation : Uuid) (wanted : List (Uuid × Nat)) (state : State) : Prop where
  inv : Inv state.store
  numbered : Numbered state.store conversation
  keys : ∃ added, keysOf state.store conversation = wanted ++ added ∧
    ∀ key ∈ added, ∀ old ∈ wanted, old.2 < key.2
  reading : Reading (· > ·) Prod.snd wanted (receivedKeys state)
    (beforeSeq .backward state.received)
  begun : state.done = false → receivedKeys state ≠ []
  complete : state.done = true → ∀ key ∈ wanted, key ∈ receivedKeys state
  calls : state.calls ≤ (receivedKeys state).length + if state.done then 1 else 0

/-- What a page can hold is what is wanted and still to come. -/
theorem wanted_ahead {cursor : Option Nat} (within : ∀ key ∈ wanted,
      key ∈ keysOf state.store conversation)
    (behind : ∀ key ∈ keysOf state.store conversation, key ∉ wanted →
      ¬Beyond (· > ·) Prod.snd cursor key) (key : Uuid × Nat) :
    key ∈ (((messagesOf state.store conversation).filter fun row =>
      cursor.all fun last => row.seq < last).map rowKey) ↔
        key ∈ wanted ∧ Beyond (· > ·) Prod.snd cursor key := by
  rw [below_cursor]
  constructor
  · rintro ⟨member, beyond⟩
    refine ⟨?_, beyond⟩
    by_contra foreign
    exact behind key member foreign beyond
  · rintro ⟨member, beyond⟩
    exact ⟨within key member, beyond⟩

/-- The page that a call answers goes on where the last one ended. -/
theorem back_page (inv : Inv state.store) (numbered : Numbered state.store conversation)
    (keys : ∃ added, keysOf state.store conversation = wanted ++ added ∧
      ∀ key ∈ added, ∀ old ∈ wanted, old.2 < key.2)
    (reading : Reading (· > ·) Prod.snd wanted (receivedKeys state)
      (beforeSeq .backward state.received))
    (behind : ∀ key ∈ keysOf state.store conversation, key ∉ wanted →
      ¬Beyond (· > ·) Prod.snd (beforeSeq .backward state.received) key)
    (calls : state.calls ≤ (receivedKeys state).length) {limit : Nat}
    (taken : page conversation .backward state limit = some next) :
    Back conversation wanted next := by
  have paged := page_paged taken
  have received := received_keys paged
  obtain ⟨added, split, above⟩ := keys
  have within : ∀ key ∈ wanted, key ∈ keysOf state.store conversation := by
    intro key member
    rw [split]
    exact List.mem_append_left _ member
  have chunk := page_map Prod.snd rowKey (fun _ => rfl)
    (backward_page inv numbered (beforeSeq .backward state.received) limit)
  have ahead := wanted_ahead within behind
  have distinct : ∀ key ∈ wanted, ∀ other ∈ wanted, key.2 = other.2 → key = other :=
    fun key member other listed => keys_distinct inv numbered key (within key member) other
      (within other listed)
  have onward : Reading (· > ·) Prod.snd wanted (receivedKeys next)
      (beforeSeq .backward next.received) := by
    have furthest := smallest_furthest next
    rw [received] at furthest ⊢
    exact reading_page reading distinct ahead chunk (smallest_furthest state) furthest
  constructor
  case inv => exact paged.store ▸ inv
  case numbered => exact paged.store ▸ numbered
  case keys => exact ⟨added, paged.store ▸ split, above⟩
  case reading => exact onward
  case begun =>
    intro undone none
    rw [received] at none
    have empty := List.map_eq_nil_iff.mp (List.append_eq_nil_iff.mp none).2
    rw [paged.done] at undone
    simp only [empty, List.isEmpty_nil, Bool.true_eq_false] at undone
  case complete =>
    intro done key member
    rw [paged.done, List.isEmpty_iff] at done
    rw [received, done, List.map_nil, List.append_nil]
    have last : listRows state.store conversation (beforeSeq .backward state.received) none limit =
        [] := done
    rw [last, List.map_nil] at chunk
    exact (reading_ends reading (fun key inside beyond => (ahead key).mpr ⟨inside, beyond⟩) chunk
      key).mpr member
  case calls =>
    rw [received, List.length_append, List.length_map, paged.calls, paged.done]
    cases listRows state.store conversation (beforeSeq .backward state.received)
      (afterSeq .backward state.received) limit with
    | nil => simpa using calls
    | cons row rest =>
        simp only [List.length_cons, List.isEmpty_cons, Bool.false_eq_true, if_false]
        omega

theorem back_step (back : Back conversation wanted state) {action : Action}
    (taken : step searchMatches conversation .backward state action = some next) :
    Back conversation wanted next := by
  obtain ⟨added, split, above⟩ := back.keys
  cases action with
  | serve inner =>
      obtain ⟨store, stepped, rfl⟩ := Option.map_eq_some_iff.mp taken
      have effect := MessageStore.step_effect back.inv.phases stepped
      obtain ⟨more, grown, higher⟩ := keys_step conversation back.inv effect
      have bounded := key_bounded back.inv back.numbered
      constructor
      case inv => exact step_inv _ _ _ back.inv stepped
      case numbered => exact numbered_step back.inv back.numbered effect
      case keys =>
        refine ⟨added ++ more, ?_, ?_⟩
        · rw [grown, split, List.append_assoc]
        · intro key member old inside
          rcases List.mem_append.mp member with before | new
          · exact above key before old inside
          · apply Nat.lt_of_le_of_lt (bounded old ?_) (higher key new)
            rw [split]
            exact List.mem_append_left _ inside
      case reading => exact back.reading
      case begun => exact back.begun
      case complete => exact back.complete
      case calls => exact back.calls
  | page limit =>
      have undone := (page_paged taken).undone
      apply back_page back.inv back.numbered back.keys back.reading ?_ ?_ taken
      · -- the cursor is the number of a wanted message, and the others are above it
        intro key member foreign beyond
        rcases smallest_furthest state with ⟨none, _⟩ | ⟨last, held, cursor, _⟩
        · exact back.begun undone none
        · rw [split] at member
          rcases List.mem_append.mp member with inside | later
          · exact foreign inside
          · have old := ((back.reading.covered last).mp held).1
            exact Nat.lt_asymm (above key later last old) (beyond last.2 cursor)
      · have calls := back.calls
        rw [undone] at calls
        exact calls

/-- A first page is asked for with every message of the conversation wanted. -/
theorem back_first {store : MessageStore.State} (inv : Inv store)
    (numbered : Numbered store conversation) {limit : Nat}
    (taken : step searchMatches conversation .backward (started store) (.page limit) = some next) :
    Back conversation (keysOf store conversation) next := by
  have first : page conversation .backward (started store) limit = some next := taken
  apply back_page inv numbered ⟨[], (List.append_nil _).symm, by simp⟩ ?_ ?_ (Nat.le_refl _) first
  · apply reading_starts
    rintro key member last ⟨⟩
  · intro key member foreign
    exact absurd member foreign

theorem back_length (back : Back conversation wanted state) :
    (receivedKeys state).length ≤ wanted.length := by
  have nodup : (receivedKeys state).Nodup :=
    back.reading.sorted.imp fun less same => Nat.ne_of_gt less (congrArg Prod.snd same)
  apply List.Subperm.length_le
  apply List.subperm_of_subset nodup
  intro key member
  exact ((back.reading.covered key).mp member).1

end Backward

section Forward
variable {searchMatches : String → String → Bool} {conversation : Uuid} {start : Nat}
  {state next : State}

def keysAbove (store : MessageStore.State) (conversation : Uuid) (start : Nat) :
    List (Uuid × Nat) :=
  (keysOf store conversation).filter fun key => decide (start < key.2)

/-- A client on its way on. -/
structure On (conversation : Uuid) (start : Nat) (state : State) : Prop where
  inv : Inv state.store
  numbered : Numbered state.store conversation
  reading : Reading (· < ·) Prod.snd (keysAbove state.store conversation start)
    (receivedKeys state) (afterSeq (.forward start) state.received)

theorem mem_above {store : MessageStore.State} {key : Uuid × Nat} :
    key ∈ keysAbove store conversation start ↔
      key ∈ keysOf store conversation ∧ start < key.2 := by
  rw [keysAbove, List.mem_filter, decide_eq_true_eq]

/-- The cursor is the start, or the number of a message that is stored. -/
theorem on_cursor (on : On conversation start state) {last : Nat}
    (cursor : afterSeq (.forward start) state.received = some last) :
    last = start ∨ start < last ∧ last ≤ lastSeq state.store conversation := by
  rcases largest_furthest start state with ⟨_, same⟩ | ⟨key, held, same, _⟩
  · exact Or.inl (Option.some.inj (cursor.symm.trans same))
  · have stored := mem_above.mp ((on.reading.covered key).mp held).1
    have value : last = key.2 := Option.some.inj (cursor.symm.trans same)
    rw [value]
    exact Or.inr ⟨stored.2, key_bounded on.inv on.numbered key stored.1⟩

theorem above_cursor (on : On conversation start state) {after : Nat}
    (cursor : afterSeq (.forward start) state.received = some after) (key : Uuid × Nat) :
    key ∈ (((messagesOf state.store conversation).filter fun row =>
        decide (after < row.seq)).map rowKey) ↔
      key ∈ keysAbove state.store conversation start ∧
        Beyond (· < ·) Prod.snd (afterSeq (.forward start) state.received) key := by
  have low : start ≤ after := by
    rcases on_cursor on cursor with same | between
    · exact Nat.le_of_eq same.symm
    · exact between.1.le
  rw [cursor, mem_above]
  constructor
  · intro member
    obtain ⟨row, listed, rfl⟩ := List.mem_map.mp member
    obtain ⟨stored, under⟩ := List.mem_filter.mp listed
    have above : after < row.seq := of_decide_eq_true under
    refine ⟨⟨List.mem_map_of_mem stored, Nat.lt_of_le_of_lt low above⟩, ?_⟩
    rintro last ⟨⟩
    exact above
  · rintro ⟨⟨member, _⟩, beyond⟩
    obtain ⟨row, stored, rfl⟩ := List.mem_map.mp member
    exact List.mem_map_of_mem (List.mem_filter.mpr ⟨stored, decide_eq_true (beyond after rfl)⟩)

theorem on_page (on : On conversation start state) {limit : Nat}
    (taken : page conversation (.forward start) state limit = some next) :
    On conversation start next ∧ (next.done = true →
      ∀ key ∈ keysAbove next.store conversation start, key ∈ receivedKeys next) := by
  have paged := page_paged taken
  have received := received_keys paged
  obtain ⟨after, cursor⟩ : ∃ after, afterSeq (.forward start) state.received = some after :=
    ⟨_, rfl⟩
  have ahead := above_cursor on cursor
  have chunk := page_map Prod.snd rowKey (fun _ => rfl)
    (forward_page on.inv on.numbered after limit)
  have rows : listRows state.store conversation none (some after) limit =
      listRows state.store conversation (beforeSeq (.forward start) state.received)
        (afterSeq (.forward start) state.received) limit := by
    rw [cursor]
    rfl
  rw [rows] at chunk
  have distinct : ∀ key ∈ keysAbove state.store conversation start,
      ∀ other ∈ keysAbove state.store conversation start, key.2 = other.2 → key = other :=
    fun key member other listed => keys_distinct on.inv on.numbered key (mem_above.mp member).1
      other (mem_above.mp listed).1
  constructor
  · constructor
    case inv => exact paged.store ▸ on.inv
    case numbered => exact paged.store ▸ on.numbered
    case reading =>
      have furthest := largest_furthest start next
      rw [received] at furthest ⊢
      rw [paged.store]
      exact reading_page on.reading distinct ahead chunk (largest_furthest start state) furthest
  · intro done key member
    rw [paged.store] at member
    rw [paged.done, List.isEmpty_iff] at done
    rw [received, done, List.map_nil, List.append_nil]
    rw [done, List.map_nil] at chunk
    exact (reading_ends on.reading (fun key inside beyond => (ahead key).mpr ⟨inside, beyond⟩)
      chunk key).mpr member

theorem on_step (on : On conversation start state) {action : Action}
    (taken : step searchMatches conversation (.forward start) state action = some next) :
    On conversation start next := by
  cases action with
  | serve inner =>
      obtain ⟨store, stepped, rfl⟩ := Option.map_eq_some_iff.mp taken
      have effect := MessageStore.step_effect on.inv.phases stepped
      obtain ⟨added, grown, higher⟩ := keys_step conversation on.inv effect
      constructor
      case inv => exact step_inv _ _ _ on.inv stepped
      case numbered => exact numbered_step on.inv on.numbered effect
      case reading =>
        have above : keysAbove store conversation start =
            keysAbove state.store conversation start ++
              added.filter fun key => decide (start < key.2) := by
          rw [keysAbove, grown, List.filter_append, keysAbove]
        rw [above]
        apply reading_grows on.reading
        -- a new number is above every number so far
        intro key member last cursor
        obtain ⟨new, beyond⟩ := List.mem_filter.mp member
        rcases on_cursor on cursor with same | between
        · rw [same]
          exact of_decide_eq_true beyond
        · exact Nat.lt_of_le_of_lt between.2 (higher key new)
  | page limit => exact (on_page on taken).1

theorem on_started {store : MessageStore.State} (inv : Inv store)
    (numbered : Numbered store conversation) : On conversation start (started store) where
  inv := inv
  numbered := numbered
  reading := by
    apply reading_starts
    rintro key member last ⟨⟩
    exact (mem_above.mp member).2

end Forward

/-- The message store numbers every conversation along a run. -/
theorem run_numbered {searchMatches : String → String → Bool}
    {actions : List MessageStore.Action} {store : MessageStore.State}
    (ran : Runs.run (MessageStore.step searchMatches) MessageStore.initial actions = some store)
    (conversation : Uuid) : Inv store ∧ Numbered store conversation := by
  refine ⟨run_inv ran, ?_⟩
  exact run_keeps (fun store => Numbered store conversation)
    (fun _ _ _ inv numbered effect => numbered_step inv numbered effect) initial_inv rfl ran

section Complete
variable {searchMatches : String → String → Bool} {conversation : Uuid}

theorem received_sorted {order : Nat → Nat → Prop} {state : State}
    (sorted : (receivedKeys state).Pairwise fun left right => order left.2 right.2) :
    state.received.Pairwise fun left right => order left.seq right.seq := by
  rw [receivedKeys, List.pairwise_map] at sorted
  exact sorted

/-- A client that reads back receives every message that was committed before
its first call once, the newest first, and comes to an empty page; one that
reads on receives every message above its start that was committed before its
last call once, the oldest first. -/
theorem pages_complete (searchMatches : String → String → Bool) (conversation : Uuid)
    (actions : List MessageStore.Action) (store : MessageStore.State)
    (ran : Runs.run (MessageStore.step searchMatches) MessageStore.initial actions = some store) :
    (∀ limit calls final, Runs.run (step searchMatches conversation .backward) (started store)
        (.page limit :: calls) = some final →
      (final.received.Pairwise fun earlier later => later.seq < earlier.seq) ∧
      (final.done = true → ∀ row ∈ messagesOf store conversation, Once final.received row) ∧
      final.calls ≤ (messagesOf store conversation).length + 1 ∧
      (final.done = false → ∀ more, 1 ≤ more → more ≤ 100 →
        ∃ next, step searchMatches conversation .backward final (.page more) = some next)) ∧
    ∀ start calls limit final, Runs.run (step searchMatches conversation (.forward start))
        (started store) (calls ++ [.page limit]) = some final →
      (final.received.Pairwise fun earlier later => earlier.seq < later.seq) ∧
      (final.done = true → ∀ row ∈ messagesOf final.store conversation, start < row.seq →
        Once final.received row) := by
  obtain ⟨inv, numbered⟩ := run_numbered ran conversation
  constructor
  · intro limit calls final paged
    obtain ⟨first, taken, onward⟩ := (Runs.run_cons_iff _ _ _ _).mp paged
    have back := Runs.run_invariant (Back conversation (keysOf store conversation))
      (fun _ _ _ held taken => back_step held taken) onward (back_first inv numbered taken)
    have within := fun key member => ((back.reading.covered key).mp member).1
    refine ⟨received_sorted back.reading.sorted, ?_, ?_, ?_⟩
    · intro done row member
      apply once_received inv (back.reading.sorted.imp fun less => Nat.ne_of_gt less) within
      exact back.complete done (rowKey row) (List.mem_map_of_mem member)
    · have length := back_length back
      have most := back.calls
      rw [keysOf, List.length_map] at length
      split at most <;> omega
    · intro undone more least most
      have admitted : ¬(final.done ∨ more < 1 ∨ 100 < more) := by
        rw [undone]
        simp only [Bool.false_eq_true, false_or]
        omega
      exact ⟨_, if_neg admitted⟩
  · intro start calls limit final paged
    obtain ⟨last, before, asked⟩ := (Runs.run_append_iff _ _ _ _).mp paged
    have on := Runs.run_invariant (On conversation start) (fun _ _ _ held taken => on_step held taken)
      before (on_started inv numbered)
    obtain ⟨ended, complete⟩ := on_page on ((Runs.run_single _ _ _).mp asked)
    refine ⟨received_sorted ended.reading.sorted, ?_⟩
    intro done row member above
    apply once_received ended.inv (ended.reading.sorted.imp fun less => Nat.ne_of_lt less)
    · exact fun key inside => (mem_above.mp ((ended.reading.covered key).mp inside).1).1
    · exact complete done (rowKey row) (mem_above.mpr ⟨List.mem_map_of_mem member, above⟩)

end Complete

/-- Two messages, and a third while they are read back one by one. -/
def twoSent : List MessageStore.Action :=
  [.addConversation 1] ++ sendText 1 1 30 10 "hello" 0 ++ [.commit 1, .publish 1] ++
    sendText 2 1 31 11 "again" 1 ++ [.commit 2, .publish 2]

def readBack : List Action :=
  List.map Action.serve (sendText 3 1 32 12 "late" 2 ++ [.commit 3]) ++ [.page 1, .page 1]

set_option maxRecDepth 4000 in
theorem two_read_back : ∃ store final,
    Runs.run (MessageStore.step sameText) MessageStore.initial twoSent = some store ∧
      Runs.run (step sameText 1 .backward) (started store) (.page 1 :: readBack) = some final ∧
      final.received.map MessageOut.seq = [2, 1] ∧
      ∀ row ∈ messagesOf store 1, Once final.received row := by
  obtain ⟨store, final, ran, paged, done, numbers⟩ : ∃ store final,
      Runs.run (MessageStore.step sameText) MessageStore.initial twoSent = some store ∧
        Runs.run (step sameText 1 .backward) (started store) (.page 1 :: readBack) = some final ∧
        final.done = true ∧ final.received.map MessageOut.seq = [2, 1] :=
    ⟨_, _, rfl, rfl, rfl, rfl⟩
  have complete := (pages_complete sameText 1 twoSent store ran).1 1 readBack final paged
  exact ⟨store, final, ran, paged, numbers, complete.2.1 done⟩

end RunnerupChat.MessagePages
