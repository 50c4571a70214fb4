import RunnerupChat.MessageStore

/-!
`services/storage.py`: the types that are allowed, what `probe_object` makes
of the leading bytes of an object, and the checks before an upload is granted.
-/

namespace RunnerupChat.Storage

open Accounts

def maxUploadBytes : Nat := 52428800

def uploadUrlTtl : Time := 300 * second

def magicPrefixBytes : Nat := 32

/-- The value of an entry of `ALLOWED_MIME`: a tuple of signatures, or, where
the comma of the tuple is missing, one `bytes` object. -/
inductive Signatures where
  | tuple (signatures : List (List UInt8))
  | bytes (first : UInt8) (rest : List UInt8)

def Signatures.all : Signatures → List (List UInt8)
  | .tuple signatures => signatures
  | .bytes first rest => [first :: rest]

def allowedMime : List (String × Signatures) :=
  [("image/jpeg", .tuple [[0xff, 0xd8, 0xff]]),
    ("image/png", .tuple [[0x89, 0x50, 0x4e, 0x47, 0x0d, 0x0a, 0x1a, 0x0a]]),
    ("image/gif", .tuple [[0x47, 0x49, 0x46, 0x38, 0x37, 0x61],
      [0x47, 0x49, 0x46, 0x38, 0x39, 0x61]]),
    ("image/webp", .tuple [[0x52, 0x49, 0x46, 0x46]]),
    ("video/mp4", .tuple [[0x00, 0x00, 0x00, 0x18, 0x66, 0x74, 0x79, 0x70],
      [0x00, 0x00, 0x00, 0x1c, 0x66, 0x74, 0x79, 0x70],
      [0x00, 0x00, 0x00, 0x20, 0x66, 0x74, 0x79, 0x70]]),
    ("audio/mpeg", .tuple [[0x49, 0x44, 0x33], [0xff, 0xfb]]),
    ("audio/ogg", .tuple [[0x4f, 0x67, 0x67, 0x53]]),
    ("audio/webm", .bytes 0x1a [0x45, 0xdf, 0xa3]),
    ("application/pdf", .tuple [[0x25, 0x50, 0x44, 0x46, 0x2d]])]

def blockedExtensions : List String :=
  ["exe", "dll", "so", "dylib", "bat", "cmd", "com", "scr", "msi", "app",
    "sh", "bash", "zsh", "ps1", "psm1", "vbs", "js", "jar", "class", "py",
    "rb", "pl", "php", "asp", "aspx", "jsp", "cgi", "html", "htm", "svg"]

/-- The bytes begin with a signature of the type. -/
def carries (mime : String) (bytes : List UInt8) : Bool :=
  allowedMime.any fun entry => entry.1 == mime && entry.2.all.any fun signature =>
    signature.isPrefixOf bytes

/-- The range `probe_object` asks for. -/
def leading (bytes : List UInt8) : List UInt8 := bytes.take magicPrefixBytes

/-- `any(prefix.startswith(sig) for sig in signatures)`. The items of a `bytes`
object are integers, for which `startswith` raises. -/
def Signatures.startsAny (signatures : Signatures) (bytes : List UInt8) : Option Bool :=
  match signatures with
  | .tuple signatures => some (signatures.any fun signature => signature.isPrefixOf bytes)
  | .bytes _ _ => none

/-- The loop of `probe_object`; `none` is an exception. -/
def detectIn : List (String × Signatures) → List UInt8 → Option (Option String)
  | [], _ => some none
  | (mime, signatures) :: rest, bytes =>
      (signatures.startsAny bytes).bind fun found =>
        if found then some (some mime) else detectIn rest bytes

def detectMime : List UInt8 → Option (Option String) := detectIn allowedMime

section Names

/-- The character tables of Python. -/
structure Characters where
  isAlnum : Char → Bool
  lower : Char → List Char

/-- The tables where no character but those of ASCII is a letter or has a lower case. -/
def asciiOnly : Characters := ⟨Char.isAlphanum, fun char => [char.toLower]⟩

variable (characters : Characters)

def isWord (char : Char) : Bool := characters.isAlnum char || char == '_'

/-- A run of dots becomes one dot. -/
def collapseDots : List Char → List Char
  | '.' :: '.' :: rest => collapseDots ('.' :: rest)
  | char :: rest => char :: collapseDots rest
  | [] => []

def stripChars (chars text : List Char) : List Char :=
  ((text.dropWhile chars.contains).reverse.dropWhile chars.contains).reverse

def isNameChar (char : Char) : Bool :=
  isWord characters char || MessageStore.isSpace char ||
    ['.', '-', '(', ')', '[', ']'].contains char

def sanitizeFilename (raw : String) : String :=
  let name := (MessageStore.strip raw).toList.filter (· != Char.ofNat 0)
  let separated := name.map fun char => if char == '\\' || char == '/' then '_' else char
  let collapsed := collapseDots separated
  let kept := collapsed.filter (isNameChar characters)
  let stripped := stripChars ['.', ' '] kept
  String.ofList ((if stripped = [] then "file".toList else stripped).take 200)

/-- What follows the last dot, in lower case. -/
def extensionOf (name : String) : String :=
  if name.toList.contains '.' then
    String.ofList ((name.toList.reverse.takeWhile (· != '.')).reverse.flatMap characters.lower)
  else ""

/-- The checks of `create_upload_grant`. -/
def createUploadGrant (declaredName declaredMime : String) (declaredSize : Nat) :
    Except AppError Unit :=
  if declaredSize = 0 ∨ maxUploadBytes < declaredSize then
    .error (.validationFailed "file_too_large")
  else if extensionOf characters declaredName ∈ blockedExtensions then
    .error (.validationFailed "file_type_not_allowed")
  else if declaredMime ∉ allowedMime.map Prod.fst then
    .error (.validationFailed "file_type_not_allowed")
  else .ok ()

end Names

/-- The loop over entries that are all tuples. -/
def detectListed (bytes : List UInt8) : Option (Option String) :=
  some ((allowedMime.find? fun entry => entry.2.all.any fun signature =>
    signature.isPrefixOf bytes).map Prod.fst)

/-- The probe returns the correct type, where it returns. -/
structure Correct (detect : List UInt8 → Option (Option String)) : Prop where
  found : ∀ bytes mime, detect bytes = some (some mime) → carries mime bytes = true
  missing : ∀ bytes, detect bytes = some none → ∀ mime, carries mime bytes = false

section Probes
variable {bytes : List UInt8} {mime : String}

theorem starts_any {signatures : Signatures} {found : Bool}
    (result : signatures.startsAny bytes = some found) :
    (signatures.all.any fun signature => signature.isPrefixOf bytes) = found := by
  cases signatures with
  | tuple signatures => exact Option.some.inj result
  | bytes first rest => cases result

theorem detect_found (entries : List (String × Signatures))
    (result : detectIn entries bytes = some (some mime)) :
    ∃ entry ∈ entries, entry.1 = mime ∧
      (entry.2.all.any fun signature => signature.isPrefixOf bytes) = true := by
  induction entries with
  | nil => cases result
  | cons entry rest ih =>
      obtain ⟨name, signatures⟩ := entry
      obtain ⟨found, started, onward⟩ := Option.bind_eq_some_iff.mp result
      cases found with
      | true =>
          cases onward
          exact ⟨(mime, signatures), List.mem_cons_self, rfl, starts_any started⟩
      | false =>
          obtain ⟨other, member, known⟩ := ih onward
          exact ⟨other, List.mem_cons_of_mem _ member, known⟩

theorem detect_missing (entries : List (String × Signatures))
    (result : detectIn entries bytes = some none) :
    ∀ entry ∈ entries,
      (entry.2.all.any fun signature => signature.isPrefixOf bytes) = false := by
  induction entries with
  | nil => exact fun _ member => absurd member List.not_mem_nil
  | cons entry rest ih =>
      obtain ⟨name, signatures⟩ := entry
      obtain ⟨found, started, onward⟩ := Option.bind_eq_some_iff.mp result
      cases found with
      | true => cases onward
      | false =>
          intro other member
          rcases List.mem_cons.mp member with rfl | later
          · exact starts_any started
          · exact ih onward other later

/-- Where it does not raise, the loop of `probe_object` is right. -/
theorem detect_correct : Correct detectMime where
  found := by
    intro bytes mime result
    obtain ⟨entry, member, name, started⟩ := detect_found allowedMime result
    exact List.any_eq_true.mpr ⟨entry, member, by simp [name, started]⟩
  missing := by
    intro bytes result mime
    refine List.any_eq_false.mpr fun entry member => ?_
    simp [detect_missing allowedMime result entry member]

theorem listed_correct : Correct detectListed where
  found := by
    intro bytes mime result
    obtain ⟨entry, found, rfl⟩ := Option.map_eq_some_iff.mp (Option.some.inj result)
    have member := List.mem_of_find?_eq_some found
    have started := List.find?_some found
    exact List.any_eq_true.mpr ⟨entry, member, by simpa using started⟩
  missing := by
    intro bytes result mime
    have absent := List.find?_eq_none.mp (Option.map_eq_none_iff.mp (Option.some.inj result))
    refine List.any_eq_false.mpr fun entry member => ?_
    rw [Bool.and_eq_true, not_and]
    exact fun _ => absent entry member

end Probes

end RunnerupChat.Storage
