import Mathlib.Data.List.Nodup
import Mathlib.Data.List.Pairwise
import Mathlib.Data.Option.Basic

/-!
Linear chains of single-use records. Each record but the first names its
predecessor, every record but the last is spent, and all share one owner.
Spending the last record while appending its successor keeps the chain.
-/

namespace RunnerupChat.Lineage

structure Shape (Node Key Owner : Type) where
  keyOf : Node → Key
  previous : Node → Option Key
  spent : Node → Bool
  owner : Node → Owner

variable {Node Key Owner : Type} (shape : Shape Node Key Owner)

def Follows : Node → List Node → Prop
  | node, [] => shape.spent node = false
  | node, next :: rest =>
      shape.spent node = true ∧ shape.previous next = some (shape.keyOf node) ∧
        shape.owner next = shape.owner node ∧ Follows next rest

def Chain : List Node → Prop
  | [] => False
  | root :: rest => shape.previous root = none ∧ Follows shape root rest

variable {shape}

theorem follows_owner {node : Node} {rest : List Node} (chain : Follows shape node rest) :
    ∀ other ∈ rest, shape.owner other = shape.owner node := by
  induction rest generalizing node with
  | nil => simp
  | cons next rest ih =>
      obtain ⟨_, _, same, later⟩ := chain
      intro other member
      rcases List.mem_cons.mp member with rfl | deeper
      · exact same
      · exact (ih later other deeper).trans same

theorem follows_unspent {node : Node} {rest : List Node} (chain : Follows shape node rest) :
    ∃ last, (node :: rest).filter (fun other => !shape.spent other) = [last] := by
  induction rest generalizing node with
  | nil => exact ⟨node, by simp [show shape.spent node = false from chain]⟩
  | cons next rest ih =>
      obtain ⟨last, only⟩ := ih chain.2.2.2
      exact ⟨last, by rw [List.filter_cons_of_neg (by simp [chain.1]), only]⟩

/-- The predecessors named along a chain are its records in order. -/
theorem follows_previous {node : Node} {rest : List Node} (chain : Follows shape node rest) :
    rest.map shape.previous = ((node :: rest).dropLast.map shape.keyOf).map some := by
  induction rest generalizing node with
  | nil => rfl
  | cons next rest ih =>
      obtain ⟨_, named, _, later⟩ := chain
      simp [named, ih later]

theorem chain_owner {nodes : List Node} (chain : Chain shape nodes) :
    ∀ one ∈ nodes, ∀ other ∈ nodes, shape.owner one = shape.owner other := by
  cases nodes with
  | nil => simp
  | cons root rest =>
      have shared : ∀ node ∈ root :: rest, shape.owner node = shape.owner root := by
        intro node member
        rcases List.mem_cons.mp member with rfl | later
        · rfl
        · exact follows_owner chain.2 node later
      intro one member other another
      exact (shared one member).trans (shared other another).symm

theorem chain_unspent {nodes : List Node} (chain : Chain shape nodes) :
    ∃ last, nodes.filter (fun node => !shape.spent node) = [last] := by
  cases nodes with
  | nil => exact chain.elim
  | cons root rest => exact follows_unspent chain.2

theorem chain_previous_unique {nodes : List Node} (chain : Chain shape nodes)
    (distinct : (nodes.map shape.keyOf).Nodup) :
    ∀ one ∈ nodes, ∀ other ∈ nodes, shape.previous one ≠ none →
      shape.previous one = shape.previous other → one = other := by
  cases nodes with
  | nil => simp
  | cons root rest =>
      have named : (rest.map shape.previous).Nodup := by
        rw [follows_previous chain.2]
        refine (distinct.sublist ?_).map (Option.some_injective Key)
        exact (List.dropLast_sublist _).map _
      have later : ∀ node ∈ root :: rest, shape.previous node ≠ none → node ∈ rest := by
        intro node member named
        rcases List.mem_cons.mp member with rfl | deeper
        · exact absurd chain.1 named
        · exact deeper
      intro one member other another present same
      exact List.inj_on_of_nodup_map named (later one member present)
        (later other another (same ▸ present)) same

/-- The predecessor a record names is in its chain. -/
theorem chain_previous_member {nodes : List Node} (chain : Chain shape nodes) {node : Node}
    {key : Key} (member : node ∈ nodes) (named : shape.previous node = some key) :
    ∃ earlier ∈ nodes, shape.keyOf earlier = key := by
  cases nodes with
  | nil => cases member
  | cons root rest =>
      rcases List.mem_cons.mp member with rfl | deeper
      · rw [chain.1] at named
        cases named
      · have listed : some key ∈ rest.map shape.previous :=
          List.mem_map.mpr ⟨node, deeper, named⟩
        rw [follows_previous chain.2] at listed
        obtain ⟨_, inside, same⟩ := List.mem_map.mp listed
        obtain ⟨earlier, found, rfl⟩ := List.mem_map.mp inside
        exact ⟨earlier, List.dropLast_subset _ found, Option.some.inj same⟩

/-- Spending the unspent record and appending its successor. -/
theorem follows_extend {node target new : Node} {rest : List Node} (rewrite : Node → Node)
    (chain : Follows shape node rest) (member : target ∈ node :: rest)
    (unspent : shape.spent target = false)
    (kept : ∀ other, shape.keyOf (rewrite other) = shape.keyOf other ∧
      shape.previous (rewrite other) = shape.previous other ∧
      shape.owner (rewrite other) = shape.owner other)
    (spends : ∀ other ∈ node :: rest, shape.spent other = true ∨ other = target →
      shape.spent (rewrite other) = true)
    (fresh : shape.spent new = false) (named : shape.previous new = some (shape.keyOf target))
    (owned : shape.owner new = shape.owner target) :
    Follows shape (rewrite node) (rest.map rewrite ++ [new]) := by
  induction rest generalizing node with
  | nil =>
      have same : target = node := List.mem_singleton.mp member
      subst same
      exact ⟨spends target member (Or.inr rfl), by rw [named, (kept target).1],
        by rw [owned, (kept target).2.2], fresh⟩
  | cons next rest ih =>
      obtain ⟨spent, link, owner, later⟩ := chain
      have deeper : target ∈ next :: rest := by
        rcases List.mem_cons.mp member with rfl | deeper
        · simp [spent] at unspent
        · exact deeper
      refine ⟨spends node List.mem_cons_self (Or.inl spent), ?_, ?_, ?_⟩
      · rw [(kept next).2.1, (kept node).1, link]
      · rw [(kept next).2.2, (kept node).2.2, owner]
      · exact ih later deeper fun other inside => spends other (List.mem_cons_of_mem node inside)

theorem chain_extend {nodes : List Node} {target new : Node} (rewrite : Node → Node)
    (chain : Chain shape nodes) (member : target ∈ nodes)
    (unspent : shape.spent target = false)
    (kept : ∀ other, shape.keyOf (rewrite other) = shape.keyOf other ∧
      shape.previous (rewrite other) = shape.previous other ∧
      shape.owner (rewrite other) = shape.owner other)
    (spends : ∀ other ∈ nodes, shape.spent other = true ∨ other = target →
      shape.spent (rewrite other) = true)
    (fresh : shape.spent new = false) (named : shape.previous new = some (shape.keyOf target))
    (owned : shape.owner new = shape.owner target) :
    Chain shape (nodes.map rewrite ++ [new]) := by
  cases nodes with
  | nil => exact chain.elim
  | cons root rest =>
      exact ⟨by rw [(kept root).2.1, chain.1],
        follows_extend rewrite chain.2 member unspent kept spends fresh named owned⟩

/-- A rewrite that touches neither links nor spending keeps the chain. -/
theorem chain_rewrite {nodes : List Node} (rewrite : Node → Node) (chain : Chain shape nodes)
    (kept : ∀ other, shape.keyOf (rewrite other) = shape.keyOf other ∧
      shape.previous (rewrite other) = shape.previous other ∧
      shape.owner (rewrite other) = shape.owner other ∧
      shape.spent (rewrite other) = shape.spent other) :
    Chain shape (nodes.map rewrite) := by
  have follows : ∀ (rest : List Node) (node : Node), Follows shape node rest →
      Follows shape (rewrite node) (rest.map rewrite) := by
    intro rest
    induction rest with
    | nil => exact fun node unspent => (kept node).2.2.2.trans unspent
    | cons next rest ih =>
        rintro node ⟨spent, link, owner, later⟩
        refine ⟨(kept node).2.2.2.trans spent, ?_, ?_, ih next later⟩
        · rw [(kept next).2.1, (kept node).1, link]
        · rw [(kept next).2.2.1, (kept node).2.2.1, owner]
  cases nodes with
  | nil => exact chain.elim
  | cons root rest => exact ⟨(kept root).2.1.trans chain.1, follows rest root chain.2⟩

end RunnerupChat.Lineage
