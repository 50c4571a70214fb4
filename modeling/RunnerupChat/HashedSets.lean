import Mathlib.Data.List.Basic

/-!
Sets of objects that are looked up by their hash. What a class says about the
hash and the comparison of its instances decides whether they can be put into
a set at all; an instance without a hash is refused, also by an empty set.
-/

namespace RunnerupChat.HashedSets

/-- The hash and the comparison of the instances of a class. -/
structure ObjectClass (Object : Type) where
  hash : Object → Option Nat
  eq : Object → Object → Bool

inductive SetError where
  | unhashable
  deriving DecidableEq

section Sets
variable {Object : Type} (objects : ObjectClass Object) (set : List Object) (object : Object)

/-- A member that the lookup of an object with this hash takes for it. -/
def meets (code : Nat) (member : Object) : Bool :=
  objects.hash member == some code && objects.eq member object

def add : Except SetError (List Object) :=
  match objects.hash object with
  | none => .error .unhashable
  | some code => .ok (if set.any (meets objects object code) then set else set ++ [object])

def discard : Except SetError (List Object) :=
  match objects.hash object with
  | none => .error .unhashable
  | some code => .ok (set.filter fun member => !meets objects object code member)

variable {objects set object}

theorem add_unhashable (absent : objects.hash object = none) :
    add objects set object = .error .unhashable := by
  rw [add, absent]

theorem discard_unhashable (absent : objects.hash object = none) :
    discard objects set object = .error .unhashable := by
  rw [discard, absent]

end Sets

section Identity
variable {Object : Type} [DecidableEq Object]

/-- Instances that are hashed and compared as objects are. -/
def byIdentity (address : Object → Nat) : ObjectClass Object :=
  { hash := fun object => some (address object), eq := fun one other => decide (one = other) }

variable {address : Object → Nat} {set : List Object} {object : Object}

theorem meets_identity (member : Object) :
    meets (byIdentity address) object (address object) member = decide (member = object) := by
  by_cases same : member = object
  · simp [meets, byIdentity, same]
  · simp [meets, byIdentity, same]

theorem add_identity : add (byIdentity address) set object =
    .ok (if object ∈ set then set else set ++ [object]) := by
  have found : set.any (meets (byIdentity address) object (address object)) =
      decide (object ∈ set) := by
    rw [Bool.eq_iff_iff, List.any_eq_true, decide_eq_true_eq]
    constructor
    · rintro ⟨member, listed, same⟩
      rw [meets_identity, decide_eq_true_eq] at same
      exact same ▸ listed
    · intro listed
      exact ⟨object, listed, by rw [meets_identity, decide_eq_true rfl]⟩
  show Except.ok (if set.any (meets (byIdentity address) object (address object)) = true then set
    else set ++ [object]) = _
  rw [found]
  simp only [decide_eq_true_eq]

theorem discard_identity : discard (byIdentity address) set object =
    .ok (set.filter fun member => decide (member ≠ object)) := by
  show Except.ok (set.filter fun member =>
    !meets (byIdentity address) object (address object) member) = _
  congr 1
  apply List.filter_congr
  intro member _
  rw [meets_identity, decide_not]

end Identity

section Dataclasses
variable {Object : Type}

/-- The options of a dataclass that have a say in its hash. -/
structure Options where
  eq : Bool := true
  frozen : Bool := false
  unsafeHash : Bool := false

/-- What the decorator makes of a class that defines no `__hash__` itself: with
`eq` alone the inherited hash is taken away. -/
def dataclass (options : Options) (inherited fields : ObjectClass Object) : ObjectClass Object where
  hash :=
    if options.unsafeHash || (options.eq && options.frozen) then fields.hash
    else if options.eq then fun _ => none
    else inherited.hash
  eq := if options.eq then fields.eq else inherited.eq

theorem default_unhashable (inherited fields : ObjectClass Object) (object : Object) :
    (dataclass {} inherited fields).hash object = none := rfl

theorem inherited_class (fields inherited : ObjectClass Object) :
    dataclass { eq := false } inherited fields = inherited := rfl

end Dataclasses

end RunnerupChat.HashedSets
