import RunnerupChat.Storage

/-!
`probe_object`: the table of allowed types is walked in its order. The entry of
`audio/webm` is no tuple, so the walk raises as soon as it gets there.
-/

namespace RunnerupChat.Storage

open Accounts

structure Probe where
  byteSize : Nat
  detectedMime : Option String
  deriving DecidableEq

inductive ProbeFailure where
  | app (error : AppError)
  /-- An exception that is no `AppError`. -/
  | raised
  deriving DecidableEq

def fileTooLarge : ProbeFailure := .app (.validationFailed "file_too_large")

def probeObject (bytes : List UInt8) : Except ProbeFailure Probe :=
  if maxUploadBytes < bytes.length then .error fileTooLarge
  -- the range cannot be satisfied where there is no first byte
  else if bytes = [] then .error .raised
  else match detectMime (leading bytes) with
    | none => .error .raised
    | some detected => .ok ⟨bytes.length, detected⟩

/-- The bytes begin with a signature of the entry. -/
def begins (bytes : List UInt8) (entry : String × Signatures) : Bool :=
  entry.2.all.any fun signature => signature.isPrefixOf bytes

/-- The type is the first in the order of the table whose signature the bytes
begin with; there is none when they begin with no signature at all. -/
def FirstListed (bytes : List UInt8) : Option String → Prop
  | some mime => ∃ before signatures after, allowedMime = before ++ (mime, signatures) :: after ∧
      (∀ entry ∈ before, begins bytes entry = false) ∧ begins bytes (mime, signatures) = true
  | none => ∀ entry ∈ allowedMime, begins bytes entry = false

/-- What an answer of `probe_object` about an object has to be. -/
structure Identifies (bytes : List UInt8) (detected : Option String) : Prop where
  first : FirstListed (leading bytes) detected
  listed : ∀ entry ∈ allowedMime, begins bytes entry = true →
    ∃ mime ∈ allowedMime.map Prod.fst, detected = some mime

/-- Too large an object is refused; of any other the type is found. -/
def ProbedRight (bytes : List UInt8) (outcome : Except ProbeFailure Probe) : Prop :=
  (maxUploadBytes < bytes.length ∧ outcome = .error fileTooLarge) ∨
    ∃ detected, outcome = .ok ⟨bytes.length, detected⟩ ∧ Identifies bytes detected

/-- The entries that the walk reaches before the one that makes it raise. -/
def reachable : List (String × Signatures) :=
  allowedMime.takeWhile fun entry => entry.1 != "audio/webm"

section Walk
variable {bytes : List UInt8}

theorem begins_iff (entry : String × Signatures) :
    begins bytes entry = true ↔ ∃ signature ∈ entry.2.all, signature <+: bytes := by
  simp [begins]

/-- Over tuples the walk does not raise. -/
theorem detect_before (before rest : List (String × Signatures))
    (tuples : ∀ entry ∈ before, ∃ signatures, entry.2 = .tuple signatures) :
    detectIn (before ++ rest) bytes = match before.find? (begins bytes) with
      | some entry => some (some entry.1)
      | none => detectIn rest bytes := by
  induction before with
  | nil => rfl
  | cons entry before ih =>
      obtain ⟨mime, value⟩ := entry
      obtain ⟨⟨signatures, rfl⟩, others⟩ := List.forall_mem_cons.mp tuples
      rw [List.cons_append, List.find?_cons]
      change (if begins bytes (mime, .tuple signatures) then some (some mime)
        else detectIn (before ++ rest) bytes) = _
      cases begins bytes (mime, .tuple signatures) with
      | true => rfl
      | false => exact ih others

theorem reachable_tuples : ∀ entry ∈ reachable, ∃ signatures, entry.2 = .tuple signatures := by
  simp [reachable, allowedMime]

theorem table_split : ∃ rest, allowedMime =
    reachable ++ ("audio/webm", .bytes 0x1a [0x45, 0xdf, 0xa3]) :: rest :=
  ⟨[("application/pdf", .tuple [[0x25, 0x50, 0x44, 0x46, 0x2d]])], rfl⟩

/-- The whole table: what a type before `audio/webm` does not take raises. -/
theorem detect_eq : detectMime bytes = (reachable.find? (begins bytes)).map fun entry =>
    some entry.1 := by
  obtain ⟨rest, table⟩ := table_split
  unfold detectMime
  rw [table, detect_before reachable _ reachable_tuples]
  cases reachable.find? (begins bytes) with
  | none => rfl
  | some entry => rfl

/-- No signature is longer than what is read. -/
theorem begins_leading {entry : String × Signatures} (listed : entry ∈ allowedMime) :
    begins (leading bytes) entry = begins bytes entry := by
  have short : ∀ entry ∈ allowedMime, ∀ signature ∈ entry.2.all,
      signature.length ≤ magicPrefixBytes := by
    decide
  rw [Bool.eq_iff_iff, begins_iff, begins_iff]
  apply exists_congr
  intro signature
  apply and_congr_right
  intro member
  rw [leading, List.prefix_take_iff]
  exact and_iff_left (short entry listed signature member)

theorem reachable_listed {entry : String × Signatures} (reached : entry ∈ reachable) :
    entry ∈ allowedMime :=
  (List.takeWhile_sublist _).subset reached

theorem find_leading :
    reachable.find? (begins (leading bytes)) = reachable.find? (begins bytes) := by
  rw [← List.head?_filter, ← List.head?_filter]
  congr 1
  exact List.filter_congr fun _ reached => begins_leading (reachable_listed reached)

/-- `probe_object` as its table makes it. -/
theorem probe_eq (bytes : List UInt8) :
    probeObject bytes =
      if maxUploadBytes < bytes.length then .error fileTooLarge
      else match reachable.find? (begins bytes) with
        | none => .error .raised
        | some entry => .ok ⟨bytes.length, some entry.1⟩ := by
  unfold probeObject
  rw [detect_eq, find_leading]
  cases bytes with
  | nil => rfl
  | cons first rest =>
      rw [if_neg (List.cons_ne_nil first rest)]
      cases reachable.find? (begins (first :: rest)) with
      | none => rfl
      | some entry => rfl

/-- The type that the walk finds is the first. -/
theorem found_identifies {entry : String × Signatures}
    (found : reachable.find? (begins bytes) = some entry) : Identifies bytes (some entry.1) where
  first := by
    obtain ⟨started, before, after, split, missed⟩ :=
      List.find?_eq_some_iff_append.mp (find_leading.trans found)
    obtain ⟨rest, table⟩ := table_split
    have whole := table.trans (congrArg (· ++ _) split)
    rw [List.append_assoc, List.cons_append] at whole
    exact ⟨before, entry.2, _, whole, fun other member => by simpa using missed other member,
      started⟩
  listed := fun _ _ _ =>
    ⟨entry.1, List.mem_map_of_mem (reachable_listed (List.mem_of_find?_eq_some found)), rfl⟩

theorem find_reachable_iff :
    (∃ entry, reachable.find? (begins bytes) = some entry) ↔
      ∃ entry ∈ reachable, begins bytes entry = true := by
  rw [← Option.isSome_iff_exists, List.find?_isSome]

theorem probe_right_iff (bytes : List UInt8) :
    ProbedRight bytes (probeObject bytes) ↔
      maxUploadBytes < bytes.length ∨ ∃ entry ∈ reachable, begins bytes entry = true := by
  unfold ProbedRight
  rw [probe_eq, ← find_reachable_iff]
  by_cases large : maxUploadBytes < bytes.length
  · rw [if_pos large]
    exact iff_of_true (Or.inl ⟨large, rfl⟩) (Or.inl large)
  · rw [if_neg large]
    cases found : reachable.find? (begins bytes) with
    | none => simp [large]
    | some entry =>
        apply iff_of_true
        · exact Or.inr ⟨some entry.1, rfl, found_identifies found⟩
        · exact Or.inr ⟨entry, rfl⟩

/-- A PDF is refused with an exception. -/
theorem pdf_raises : ¬∀ bytes, ProbedRight bytes (probeObject bytes) := by
  intro always
  have right := (probe_right_iff _).mp (always [0x25, 0x50, 0x44, 0x46, 0x2d, 0x31, 0x2e, 0x37])
  revert right
  decide

end Walk

end RunnerupChat.Storage
