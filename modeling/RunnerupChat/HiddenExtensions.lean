import RunnerupChat.FileNames
import RunnerupChat.Uploads

/-!
The extension of an upload is checked on the raw name, and the recipient sees
the display name. Where the display name has a blocked extension, the raw name
has it too, followed by what `sanitize_filename` takes away.
-/

namespace RunnerupChat.Storage

open Scanning
open MessageStore (isSpace strip)

/-- A dot of the text and an extension behind it, with which the display name
ends: nothing that stays follows, or the cut does. -/
structure ShownExtension (characters : Characters) (text front ext tail : List Char) : Prop where
  split : text = front ++ '.' :: (ext ++ tail)
  before : ∃ char ∈ front, isSolid characters char = true
  plain : ∀ char ∈ ext, char ≠ '.' ∧ isSeparator char = false
  blocked : String.ofList ((ext.filter fun char => !isDropped characters char).flatMap
    characters.lower) ∈ blockedExtensions
  last : (∀ char ∈ tail, isSolid characters char = false) ∧
      (shown characters (front ++ '.' :: ext)).length ≤ 200 ∨
    (shown characters (front ++ '.' :: ext)).length = 200

section Extensions
variable {characters : Characters}

theorem extension_eq (base : List Char) {ext : List Char} (plain : '.' ∉ ext) :
    extensionOf characters (String.ofList (base ++ '.' :: ext)) =
      String.ofList (ext.flatMap characters.lower) := by
  have behind : ∀ char ∈ ext.reverse, (char != '.') = true := by
    intro char member
    rw [bne_iff_ne]
    rintro rfl
    exact plain (List.mem_reverse.mp member)
  unfold extensionOf
  rw [String.toList_ofList, if_pos (by simp), List.reverse_append, List.reverse_cons,
    List.append_assoc, List.takeWhile_append_of_pos behind]
  simp

theorem blocked_not_empty : "" ∉ blockedExtensions := by decide

/-- A blocked extension is behind the last dot. -/
theorem blocked_split {name : String} (blocked : extensionOf characters name ∈ blockedExtensions) :
    ∃ base ext, name.toList = base ++ '.' :: ext ∧ '.' ∉ ext ∧
      String.ofList (ext.flatMap characters.lower) ∈ blockedExtensions := by
  by_cases dotted : '.' ∈ name.toList
  · obtain ⟨ext, base, split, plain⟩ := List.eq_append_cons_of_mem (List.mem_reverse.mpr dotted)
    have whole : name.toList = base.reverse ++ '.' :: ext.reverse := by
      rw [← List.reverse_inj, split]
      simp
    have clear : '.' ∉ ext.reverse := by simpa using plain
    have named : name = String.ofList (base.reverse ++ '.' :: ext.reverse) := by
      rw [← whole, String.ofList_toList]
    refine ⟨_, _, whole, clear, ?_⟩
    rw [named, extension_eq _ clear] at blocked
    exact blocked
  · have none : extensionOf characters name = "" := by
      unfold extensionOf
      rw [if_neg (by simpa using dotted)]
    exact absurd (none ▸ blocked) blocked_not_empty

/-- A character that no blocked extension has. -/
theorem blocked_chars (ascii : AsciiTables characters) {ext : List Char}
    (blocked : String.ofList (ext.flatMap characters.lower) ∈ blockedExtensions) :
    ∀ char ∈ ext, char ≠ '.' ∧ char ≠ ' ' ∧ char ≠ '_' := by
  have clean : (blockedExtensions.all fun name => !name.toList.contains '.' &&
      !name.toList.contains ' ' && !name.toList.contains '_') = true := by decide
  have here := List.all_eq_true.mp clean _ blocked
  simp only [String.toList_ofList, Bool.and_eq_true, Bool.not_eq_eq_eq_not, Bool.not_true,
    List.contains_eq_mem, decide_eq_false_iff_not, List.mem_flatMap, not_exists, not_and] at here
  intro char member
  refine ⟨?_, ?_, ?_⟩
  · rintro rfl
    exact here.1.1 '.' member (by rw [(ascii '.' (by decide)).2]; decide)
  · rintro rfl
    exact here.1.2 ' ' member (by rw [(ascii ' ' (by decide)).2]; decide)
  · rintro rfl
    exact here.2 '_' member (by rw [(ascii '_' (by decide)).2]; decide)

/-- Without dots and separators the characters that are kept are made. -/
theorem emitted_plain {ext : List Char}
    (plain : ∀ char ∈ ext, char ≠ '.' ∧ isSeparator char = false) (dotted : Bool) :
    emitted afterDot (face characters) dotted ext =
      ext.filter fun char => !isDropped characters char := by
  induction ext generalizing dotted with
  | nil => rfl
  | cons char rest ih =>
      obtain ⟨⟨other, apart⟩, others⟩ := List.forall_mem_cons.mp plain
      rw [emitted, ih others, List.filter_cons]
      cases dropped : isDropped characters char <;> simp [face, dropped, other, apart]

/-- A separator is seen as a low line. -/
theorem separator_made {ext : List Char} {char : Char} (member : char ∈ ext)
    (separator : isSeparator char = true) (dotted : Bool) :
    '_' ∈ emitted afterDot (face characters) dotted ext := by
  obtain ⟨front, tail, rfl⟩ := List.append_of_mem member
  have given : face characters (front.foldl afterDot dotted) char = some '_' := by
    simp only [isSeparator, Bool.or_eq_true, beq_iff_eq] at separator
    rcases separator with rfl | rfl <;> simp [face, isDropped, isSeparator]
  rw [(emitted_at dotted _ _ _ '_').mpr ⟨front, char, tail, rfl, rfl, given, rfl⟩]
  simp

/-- A part that a trimmed and cut text begins with is followed by what is
trimmed, or fills the room. -/
theorem cut_part {text part : List Char} {room : Nat}
    (cut : (text.rdropWhile isTrimmed).take room = part) :
    ∃ rest, text = part ++ rest ∧
      ((∀ char ∈ rest, isTrimmed char = true) ∧ part.length ≤ room ∨ part.length = room) := by
  obtain ⟨ending, whole, skipped⟩ := @rdrop_rest Char isTrimmed text
  by_cases fits : (text.rdropWhile isTrimmed).length ≤ room
  · rw [List.take_of_length_le fits] at cut
    rw [cut] at whole fits
    exact ⟨ending, whole, Or.inl ⟨skipped, fits⟩⟩
  · have length : part.length = room := by
      rw [← cut, List.length_take, Nat.min_eq_left (by omega)]
    refine ⟨(text.rdropWhile isTrimmed).drop room ++ ending, ?_, Or.inr length⟩
    rw [← cut, ← List.append_assoc, List.take_append_drop]
    exact whole

/-- The extension of a display name is found in the raw name. -/
theorem shown_of_blocked (ascii : AsciiTables characters) {text base made : List Char}
    (ends : displayed characters text = base ++ '.' :: made) (plain : '.' ∉ made)
    (blocked : String.ofList (made.flatMap characters.lower) ∈ blockedExtensions) :
    ∃ front ext tail, ShownExtension characters text front ext tail := by
  obtain ⟨front, raw, rest, split, rfl, within, given, cut, ⟨other, member, solid⟩, _⟩ :=
    (displayed_at text base made '.').mp ends
  obtain rfl := face_self (by decide) given
  have before : ∃ char ∈ front, isSolid characters char = true := by
    rcases List.mem_append.mp member with early | last
    · exact ⟨other, early, solid⟩
    · rw [List.mem_singleton.mp last, dot_not_solid] at solid
      cases solid
  obtain ⟨beyond, whole, room⟩ := cut_part cut
  obtain ⟨between, tail, rfl, first, second⟩ := emitted_split _ rest made beyond whole
  obtain ⟨dots, ext, regrouped, noDot, one, same⟩ := last_dot first plain
  have parts : front ++ dots ++ '.' :: ext = front ++ '.' :: between := by
    rw [List.append_assoc, ← regrouped]
  have clean : ∀ char ∈ ext, char ≠ '.' ∧ isSeparator char = false := by
    intro char member
    refine ⟨fun dot => noDot (dot ▸ member), ?_⟩
    cases separator : isSeparator char with
    | false => rfl
    | true =>
        have line := @separator_made characters _ _ member separator true
        rw [same] at line
        exact absurd rfl (blocked_chars ascii blocked '_' line).2.2
  have kept : ext.filter (fun char => !isDropped characters char) = made := by
    rw [← emitted_plain clean true, same]
  have length : (shown characters (front ++ dots ++ '.' :: ext)).length =
      (shown characters front).length + 1 + made.length := by
    have pieces : front ++ dots ++ '.' :: ext = front ++ (dots ++ ['.'] ++ ext) := by simp
    have state : (dots ++ ['.']).foldl afterDot false = true := by simp [afterDot]
    rw [pieces, shown_append before, dot_fresh given, emitted_append, one, state, same]
    simp [Nat.add_assoc, Nat.add_comm]
  exact ⟨front ++ dots, ext, tail, {
    split := by
      rw [split, ← List.cons_append, regrouped]
      simp
    before := solid_append before dots
    plain := clean
    blocked := kept ▸ blocked
    last := by
      rw [length]
      rcases room with ⟨trimmed, fits⟩ | full
      · left
        rw [← second] at trimmed
        exact ⟨(made_trimmed_iff tail _).mp trimmed, by omega⟩
      · right
        omega }⟩

/-- What is shown up to the extension, and the rest of the text as it is made. -/
theorem extension_shown {text front ext tail : List Char}
    (extension : ShownExtension characters text front ext tail) :
    ∃ opening beyond, shown characters (front ++ '.' :: ext) = opening ++ ['.'] ++
        ext.filter (fun char => !isDropped characters char) ∧
      (rewritten characters text).dropWhile isTrimmed = opening ++ ['.'] ++
        (ext.filter (fun char => !isDropped characters char) ++ beyond) ∧
      ((∀ char ∈ beyond, isTrimmed char = true) ↔
        ∀ char ∈ tail, isSolid characters char = false) := by
  obtain ⟨opening, ends⟩ := shown_dot extension.before
  have pieces : front ++ '.' :: ext = front ++ ['.'] ++ ext := by simp
  have dotted := solid_append extension.before ['.']
  have solid := solid_append extension.before ('.' :: ext)
  have begins : shown characters (front ++ '.' :: ext) = opening ++ ['.'] ++
      ext.filter (fun char => !isDropped characters char) := by
    rw [pieces, shown_append dotted, ends, emitted_plain extension.plain]
  have split : text = front ++ '.' :: ext ++ tail := by
    rw [extension.split]
    simp
  refine ⟨opening, _, begins, ?_,
    made_trimmed_iff tail ((front ++ '.' :: ext).foldl afterDot false)⟩
  rw [← List.append_assoc, ← begins, ← shown_append solid, ← split]
  rfl

theorem displayed_of_shown (ascii : AsciiTables characters) {text front ext tail : List Char}
    (extension : ShownExtension characters text front ext tail) :
    ∃ base, displayed characters text =
      base ++ '.' :: ext.filter fun char => !isDropped characters char := by
  obtain ⟨opening, beyond, begins, start, trimmed_iff⟩ := extension_shown extension
  have blocked := extension.blocked
  have last := extension.last
  rw [begins] at last
  generalize (ext.filter fun char => !isDropped characters char) = kept at *
  have stays : ∀ char ∈ kept, isTrimmed char = false := by
    intro char member
    have clean := blocked_chars ascii blocked char member
    simp [isTrimmed, clean.1, clean.2.1]
  have present : kept ≠ [] := by
    rintro rfl
    exact blocked_not_empty blocked
  refine ⟨opening, ?_⟩
  rw [displayed, trim_part start stays present, ← List.append_assoc]
  rcases last with ⟨trimmed, fits⟩ | full
  · rw [List.rdropWhile_eq_nil_iff.mpr (trimmed_iff.mpr trimmed), List.append_nil,
      List.take_of_length_le fits]
    simp
  · rw [List.take_append_of_le_length (Nat.le_of_eq full.symm), List.take_of_length_le
      (Nat.le_of_eq full)]
    simp

theorem sanitized_blocked_iff (ascii : AsciiTables characters) (raw : String) :
    extensionOf characters (sanitizeFilename characters raw) ∈ blockedExtensions ↔
      ∃ front ext tail, ShownExtension characters (strip raw).toList front ext tail := by
  constructor
  · intro blocked
    obtain ⟨base, made, ends, plain, extension⟩ := blocked_split blocked
    rw [sanitize_eq] at ends
    split at ends
    · have dot : '.' ∈ "file".toList := by
        rw [ends]
        simp
      exact absurd dot (by decide)
    · exact shown_of_blocked ascii ends plain extension
  · rintro ⟨front, ext, tail, extension⟩
    obtain ⟨base, ends⟩ := displayed_of_shown ascii extension
    have left : trim isTrimmed (rewritten characters (strip raw).toList) ≠ [] := by
      intro nothing
      rw [displayed, nothing] at ends
      cases base <;> cases ends
    have whole := sanitize_eq characters raw
    rw [if_neg left, ends] at whole
    have plain : '.' ∉ ext.filter fun char => !isDropped characters char :=
      fun member => (extension.plain '.' (List.mem_filter.mp member).1).1 rfl
    rw [← String.ofList_toList (s := sanitizeFilename characters raw), whole,
      extension_eq base plain]
    exact extension.blocked

end Extensions

section Requests
open Accounts Uploads
variable {characters : Characters} {state next : State} {owner id : Uuid}
  {payload : UploadRequest} {key : String}

/-- The row of an accepted request is named after the sanitized file name. -/
theorem request_row (taken : request characters state owner payload id key = some next) :
    (∃ row ∈ next.rows, row.id = id) ∧ ∀ row ∈ next.rows, row.id = id →
      row.displayName = sanitizeFilename characters payload.filename := by
  unfold request at taken
  split at taken
  · rename_i granted
    cases taken
    refine ⟨⟨newAttachment characters owner payload id key, by simp, rfl⟩, ?_⟩
    intro row member named
    rcases List.mem_append.mp member with old | new
    · exact absurd named (granted.2.2 row old).1
    · rw [List.mem_singleton.mp new]
      rfl
  · cases taken

/-- The name that is stored has a blocked extension exactly when the raw name
has one that is followed by what is taken away. -/
theorem request_extension_iff (ascii : AsciiTables characters)
    (taken : request characters state owner payload id key = some next) :
    (∀ row ∈ next.rows, row.id = id →
        extensionOf characters row.displayName ∉ blockedExtensions) ↔
      ¬∃ front ext tail,
        ShownExtension characters (strip payload.filename).toList front ext tail := by
  rw [← sanitized_blocked_iff ascii]
  obtain ⟨⟨row, member, named⟩, names⟩ := request_row taken
  constructor
  · intro clear
    rw [← names row member named]
    exact clear row member named
  · intro clear other listed same
    rw [names other listed same]
    exact clear

def photo (filename : String) : UploadRequest := ⟨5, filename, "image/png", 2048⟩

theorem photo_extension_iff :
    ∃ next, request asciiOnly {} 1 (photo "photo.png") 7 "u/1/7/0" = some next ∧
      ((∀ row ∈ next.rows, row.id = 7 →
          extensionOf asciiOnly row.displayName ∉ blockedExtensions) ↔
        ¬∃ front ext tail,
          ShownExtension asciiOnly (strip (photo "photo.png").filename).toList front ext tail) := by
  have taken : ∃ next, request asciiOnly {} 1 (photo "photo.png") 7 "u/1/7/0" = some next :=
    ⟨_, rfl⟩
  obtain ⟨next, taken⟩ := taken
  exact ⟨next, taken, request_extension_iff ascii_only_tables taken⟩

/-- A dot at the end hides the extension from the check and is trimmed after it. -/
theorem trailing_dot_hides :
    ¬∀ (state : State) (owner : Uuid) (payload : UploadRequest) (id : Uuid) (key : String)
      (next : State), request asciiOnly state owner payload id key = some next →
      ∀ row ∈ next.rows, row.id = id →
        extensionOf asciiOnly row.displayName ∉ blockedExtensions := by
  intro always
  have granted : ∃ next, request asciiOnly {} 1 (photo "evil.exe.") 7 "u/1/7/0" = some next :=
    ⟨_, rfl⟩
  obtain ⟨next, taken⟩ := granted
  obtain ⟨⟨row, member, named⟩, names⟩ := request_row taken
  apply always {} 1 _ 7 _ next taken row member named
  rw [names row member named, sanitized_blocked_iff ascii_only_tables]
  exact ⟨['e', 'v', 'i', 'l'], ['e', 'x', 'e'], ['.'], {
    split := by decide
    before := ⟨'e', by simp, rfl⟩
    plain := by simp [isSeparator]
    blocked := by decide
    last := Or.inl ⟨by simp [dot_not_solid], Nat.le_trans (shown_length _) (by decide)⟩ }⟩

end Requests

end RunnerupChat.Storage
