import Mathlib.Data.List.Basic
import Mathlib.Data.List.Nodup
import Mathlib.Data.List.Range
import RunnerupChat.UniqueKeys

/-!
Logs numbered per key. A transaction takes the next number of a key, holds the
key until it ends, draws an id from a counter that is never given back, and
appends its entry when it commits. The numbers of a key are dense in any
interleaving, and its entries appear in the order of both their numbers and
their ids.
-/

namespace RunnerupChat.SequencedLog

open UniqueKeys

structure Entry (Key : Type) where
  id : Nat
  key : Key
  seq : Nat

/-- A number taken by an open transaction, and the id once it is drawn. -/
structure Hold (Key : Type) where
  key : Key
  seq : Nat
  drawn : Option Nat

structure Log (Key Tx : Type) where
  last : Key → Option Nat
  entries : List (Entry Key)
  lastId : Nat
  holds : Tx → Option (Hold Key)

variable {Key Tx : Type} [DecidableEq Key] [DecidableEq Tx]

def initial : Log Key Tx :=
  { last := fun _ => none, entries := [], lastId := 0, holds := fun _ => none }

inductive Step (log : Log Key Tx) : Log Key Tx → Prop where
  | create (key : Key) (fresh : log.last key = none) :
      Step log { log with last := assign log.last key (some 0) }
  | take (tx : Tx) (key : Key) (seq : Nat) (current : log.last key = some seq)
      (free : ∀ other hold, log.holds other = some hold → hold.key ≠ key) :
      Step log { log with holds := assign log.holds tx (some ⟨key, seq + 1, none⟩) }
  | draw (tx : Tx) (key : Key) (seq : Nat) (held : log.holds tx = some ⟨key, seq, none⟩) :
      Step log { log with
        lastId := log.lastId + 1
        holds := assign log.holds tx (some ⟨key, seq, some (log.lastId + 1)⟩) }
  | append (tx : Tx) (key : Key) (seq id : Nat) (held : log.holds tx = some ⟨key, seq, some id⟩) :
      Step log { log with
        last := assign log.last key (some seq)
        entries := log.entries ++ [⟨id, key, seq⟩]
        holds := assign log.holds tx none }
  | drop (tx : Tx) : Step log { log with holds := assign log.holds tx none }

/-- The id an open transaction has drawn. -/
def drawnId (holds : Tx → Option (Hold Key)) (tx : Tx) : Option Nat := (holds tx).bind Hold.drawn

def numbers (entries : List (Entry Key)) (key : Key) : List Nat :=
  (entries.filter fun entry => decide (entry.key = key)).map Entry.seq

structure Inv (log : Log Key Tx) : Prop where
  taken : ∀ tx hold, log.holds tx = some hold →
    ∃ seq, log.last hold.key = some seq ∧ hold.seq = seq + 1
  exclusive : ∀ tx other hold held, log.holds tx = some hold → log.holds other = some held →
    hold.key = held.key → tx = other
  dense : ∀ key seq, log.last key = some seq → numbers log.entries key = List.range' 1 seq
  homed : ∀ entry ∈ log.entries, (log.last entry.key).isSome = true
  ids : Unique (log.entries.map Entry.id) (List.range' 1 log.lastId) (drawnId log.holds)
  above : ∀ tx hold id, log.holds tx = some hold → hold.drawn = some id →
    ∀ entry ∈ log.entries, entry.key = hold.key → entry.id < id
  ordered : log.entries.Pairwise fun earlier later => earlier.key = later.key →
    earlier.id < later.id

omit [DecidableEq Tx] in
theorem initial_inv : Inv (initial : Log Key Tx) where
  taken := by simp [initial]
  exclusive := by simp [initial]
  dense := by simp [initial]
  homed := by simp [initial]
  ids := ⟨by simp [initial], by simp [initial], by simp [initial, drawnId],
    by simp [initial, drawnId], by simp [initial, drawnId]⟩
  above := by simp [initial]
  ordered := List.Pairwise.nil

section Steps
variable {log : Log Key Tx}

omit [DecidableEq Tx] in
theorem numbers_absent (inv : Inv log) {key : Key} (absent : log.last key = none) :
    numbers log.entries key = [] := by
  unfold numbers
  rw [List.map_eq_nil_iff, List.filter_eq_nil_iff]
  intro entry member same
  have some := inv.homed entry member
  rw [of_decide_eq_true same, absent] at some
  cases some

omit [DecidableEq Tx] in
theorem create_inv (inv : Inv log) {key : Key} (fresh : log.last key = none) :
    Inv { log with last := assign log.last key (some 0) } where
  taken := by
    intro tx hold held
    obtain ⟨seq, current, next⟩ := inv.taken tx hold held
    have distinct : hold.key ≠ key := by
      intro same
      rw [same, fresh] at current
      cases current
    exact ⟨seq, (assign_other _ _ distinct).trans current, next⟩
  exclusive := inv.exclusive
  dense := by
    intro other seq current
    rcases assign_cases current with ⟨rfl, started⟩ | ⟨_, current⟩
    · rw [← Option.some.inj started]
      exact numbers_absent inv fresh
    · exact inv.dense other seq current
  homed := by
    intro entry member
    by_cases same : entry.key = key
    · simp [same]
    · exact (congrArg _ (assign_other _ _ same)).trans (inv.homed entry member)
  ids := inv.ids
  above := inv.above
  ordered := inv.ordered

omit [DecidableEq Key] in
theorem drawn_assign (holds : Tx → Option (Hold Key)) (tx : Tx) (hold : Option (Hold Key)) :
    drawnId (assign holds tx hold) = assign (drawnId holds) tx (hold.bind Hold.drawn) :=
  assign_bind holds tx hold Hold.drawn

theorem drop_inv (inv : Inv log) (tx : Tx) :
    Inv { log with holds := assign log.holds tx none } where
  taken := fun other hold held => inv.taken other hold (assign_none_kept held).2
  exclusive := fun left right hold held one another =>
    inv.exclusive left right hold held (assign_none_kept one).2 (assign_none_kept another).2
  dense := inv.dense
  homed := inv.homed
  ids := by
    simp only [drawn_assign]
    exact unique_drop inv.ids tx
  above := fun other hold id held => inv.above other hold id (assign_none_kept held).2
  ordered := inv.ordered

theorem take_inv (inv : Inv log) (tx : Tx) {key : Key} {seq : Nat}
    (current : log.last key = some seq)
    (free : ∀ other hold, log.holds other = some hold → hold.key ≠ key) :
    Inv { log with holds := assign log.holds tx (some ⟨key, seq + 1, none⟩) } where
  taken := by
    intro other hold held
    rcases assign_cases held with ⟨_, new⟩ | ⟨_, held⟩
    · obtain rfl := Option.some.inj new
      exact ⟨seq, current, rfl⟩
    · exact inv.taken other hold held
  exclusive := by
    intro left right hold held first second same
    rcases assign_cases first with ⟨rfl, new⟩ | ⟨_, one⟩
    · obtain rfl := Option.some.inj new
      rcases assign_cases second with ⟨rfl, _⟩ | ⟨_, another⟩
      · rfl
      · exact absurd same.symm (free right held another)
    · rcases assign_cases second with ⟨rfl, new⟩ | ⟨_, another⟩
      · obtain rfl := Option.some.inj new
        exact absurd same (free left hold one)
      · exact inv.exclusive left right hold held one another same
  dense := inv.dense
  homed := inv.homed
  ids := by
    simp only [drawn_assign, Option.bind_some]
    exact unique_drop inv.ids tx
  above := by
    intro other hold id held drawn
    rcases assign_cases held with ⟨_, new⟩ | ⟨_, held⟩
    · obtain rfl := Option.some.inj new
      cases drawn
    · exact inv.above other hold id held drawn
  ordered := inv.ordered

theorem draw_inv (inv : Inv log) {tx : Tx} {key : Key} {seq : Nat}
    (held : log.holds tx = some ⟨key, seq, none⟩) :
    Inv { log with
      lastId := log.lastId + 1
      holds := assign log.holds tx (some ⟨key, seq, some (log.lastId + 1)⟩) } where
  taken := by
    intro other hold found
    rcases assign_cases found with ⟨_, new⟩ | ⟨_, found⟩
    · obtain rfl := Option.some.inj new
      exact inv.taken tx ⟨key, seq, none⟩ held
    · exact inv.taken other hold found
  exclusive := by
    intro left right hold other first second same
    rcases assign_cases first with ⟨rfl, new⟩ | ⟨_, one⟩
    · obtain rfl := Option.some.inj new
      rcases assign_cases second with ⟨rfl, _⟩ | ⟨_, another⟩
      · rfl
      · exact inv.exclusive left right _ other held another same
    · rcases assign_cases second with ⟨rfl, new⟩ | ⟨_, another⟩
      · obtain rfl := Option.some.inj new
        exact inv.exclusive left right hold _ one held same
      · exact inv.exclusive left right hold other one another same
  dense := inv.dense
  homed := inv.homed
  ids := by
    have fresh : log.lastId + 1 ∉ List.range' 1 log.lastId := by
      rw [List.mem_range'_1]
      omega
    simp only [drawn_assign, Option.bind_some]
    apply unique_widen (unique_draw inv.ids tx fresh)
    intro id member
    simp only [List.mem_cons, List.mem_range'_1] at member ⊢
    omega
  above := by
    intro other hold id found drawn entry member same
    rcases assign_cases found with ⟨_, new⟩ | ⟨_, found⟩
    · obtain rfl := Option.some.inj new
      rw [← Option.some.inj drawn]
      have bound := List.mem_range'_1.mp (inv.ids.drawnKeys _ (List.mem_map_of_mem member))
      omega
    · exact inv.above other hold id found drawn entry member same
  ordered := inv.ordered

omit [DecidableEq Tx] in
theorem numbers_append (entries : List (Entry Key)) (id : Nat) (key other : Key) (seq : Nat) :
    numbers (entries ++ [⟨id, key, seq⟩]) other =
      if key = other then numbers entries other ++ [seq] else numbers entries other := by
  unfold numbers
  rw [List.filter_append, List.map_append]
  by_cases same : key = other
  · simp [same]
  · simp [same]

theorem append_inv (inv : Inv log) {tx : Tx} {key : Key} {seq id : Nat}
    (held : log.holds tx = some ⟨key, seq, some id⟩) :
    Inv { log with
      last := assign log.last key (some seq)
      entries := log.entries ++ [⟨id, key, seq⟩]
      holds := assign log.holds tx none } := by
  obtain ⟨before, current, next⟩ := inv.taken tx _ held
  obtain rfl : seq = before + 1 := next
  have apart : ∀ other hold, other ≠ tx → log.holds other = some hold → hold.key ≠ key :=
    fun other hold distinct found same =>
      distinct (inv.exclusive other tx hold _ found held same)
  exact {
    taken := by
      intro other hold found
      obtain ⟨distinct, found⟩ := assign_none_kept found
      obtain ⟨last, known, follows⟩ := inv.taken other hold found
      exact ⟨last, (assign_other _ _ (apart other hold distinct found)).trans known, follows⟩
    exclusive := fun left right hold other one another =>
      inv.exclusive left right hold other (assign_none_kept one).2 (assign_none_kept another).2
    dense := by
      intro other last found
      simp only [numbers_append]
      rcases assign_cases found with ⟨rfl, new⟩ | ⟨distinct, found⟩
      -- the key of the hold grows by its next number, every other key is left
      · rw [if_pos rfl, inv.dense other before current, ← Option.some.inj new,
          List.range'_concat]
        simp [Nat.add_comm]
      · rw [if_neg (Ne.symm distinct)]
        exact inv.dense other last found
    homed := by
      intro entry member
      by_cases same : entry.key = key
      · simp [same]
      · rcases List.mem_append.mp member with old | new
        · exact (congrArg _ (assign_other _ _ same)).trans (inv.homed entry old)
        · rw [List.mem_singleton.mp new] at same
          exact absurd rfl same
    ids := by
      simp only [drawn_assign, Option.bind_none, List.map_append, List.map_singleton]
      exact unique_commit inv.ids (by simp [drawnId, held])
    above := by
      intro other hold drawn found known entry member same
      obtain ⟨distinct, found⟩ := assign_none_kept found
      rcases List.mem_append.mp member with old | new
      · exact inv.above other hold drawn found known entry old same
      · rw [List.mem_singleton.mp new] at same
        exact absurd same.symm (apart other hold distinct found)
    ordered := by
      apply List.pairwise_append.mpr ⟨inv.ordered, List.pairwise_singleton _ _, ?_⟩
      intro earlier member later new same
      rw [List.mem_singleton.mp new] at same ⊢
      exact inv.above tx _ id held rfl earlier member same }

theorem step_inv {next : Log Key Tx} (inv : Inv log) (stepped : Step log next) : Inv next := by
  cases stepped with
  | create key fresh => exact create_inv inv fresh
  | take tx key seq current free => exact take_inv inv tx current free
  | draw tx key seq held => exact draw_inv inv held
  | append tx key seq id held => exact append_inv inv held
  | drop tx => exact drop_inv inv tx

end Steps

section Order
variable {log : Log Key Tx}

omit [DecidableEq Tx] in
/-- Entries of one key appear in the order of their numbers and of their ids. -/
theorem appears_in_order (inv : Inv log) (key : Key) :
    (log.entries.filter fun entry => decide (entry.key = key)).Pairwise fun earlier later =>
      earlier.seq < later.seq ∧ earlier.id < later.id := by
  have byId : (log.entries.filter fun entry => decide (entry.key = key)).Pairwise
      fun earlier later => earlier.key = later.key → earlier.id < later.id :=
    inv.ordered.sublist List.filter_sublist
  have bySeq : (numbers log.entries key).Pairwise (· < ·) := by
    cases known : log.last key with
    | none =>
        rw [numbers_absent inv known]
        exact List.Pairwise.nil
    | some seq =>
        rw [inv.dense key seq known]
        exact List.pairwise_lt_range'
  refine ((List.pairwise_map.mp bySeq).and byId).imp_of_mem ?_
  intro earlier later first second both
  have left := of_decide_eq_true (List.mem_filter.mp first).2
  have right := of_decide_eq_true (List.mem_filter.mp second).2
  exact ⟨both.1, both.2 (left.trans right.symm)⟩

omit [DecidableEq Tx] in
/-- Whoever sees a number of a key sees every smaller one, with a smaller id. -/
theorem smaller_seen (inv : Inv log) {entry : Entry Key} (member : entry ∈ log.entries)
    {seq : Nat} (positive : 0 < seq) (smaller : seq < entry.seq) :
    ∃ earlier ∈ log.entries, earlier.key = entry.key ∧ earlier.seq = seq ∧
      earlier.id < entry.id := by
  obtain ⟨last, known⟩ := Option.isSome_iff_exists.mp (inv.homed entry member)
  have inside : entry ∈ log.entries.filter fun other => decide (other.key = entry.key) := by
    simp [member]
  have dense := inv.dense entry.key last known
  have bound : entry.seq ∈ List.range' 1 last := dense ▸ List.mem_map_of_mem inside
  have found : seq ∈ numbers log.entries entry.key := by
    rw [dense]
    rw [List.mem_range'_1] at bound ⊢
    omega
  obtain ⟨earlier, present, rfl⟩ := List.mem_map.mp found
  obtain ⟨here, same⟩ := List.mem_filter.mp present
  refine ⟨earlier, here, of_decide_eq_true same, rfl, ?_⟩
  have sorted := appears_in_order inv entry.key
  -- of two entries of the key, the one with the smaller number has the smaller id
  refine List.Pairwise.forall_of_forall_of_flip
    (R := fun left right : Entry Key => left.seq < right.seq → left.id < right.id)
    ?_ ?_ ?_ present inside smaller
  · intro _ _ below
    omega
  · exact sorted.imp fun both _ => both.2
  · exact sorted.imp fun both below => absurd both.1 (Nat.lt_asymm below)

end Order

end RunnerupChat.SequencedLog
