import RunnerupChat.AccessRules
import RunnerupChat.DirectRaces
import RunnerupChat.EventDelivery

/-!
The channel that a subscription joins. `_handle_subscribe` names it after the
text that the client sent, and a publisher after `str` of the stored id.
-/

namespace RunnerupChat.SubscribedChannel

open Accounts Authz ConnectionManager DigitOrder
open DirectRaces (uuidRange uuidText)
open EventDelivery (conversation_channel_injective)
open SocketFrames hiding digits

section Texts

def hexLetters : List Char := "0123456789abcdef".toList

/-- The text writes the id in 32 hexadecimal digits of either case, with four
hyphens at most, wherever they stand. -/
def Spells (text : String) (id : Uuid) : Prop :=
  id < uuidRange ∧ text.length ≤ 36 ∧
    (text.toList.filter fun char => char != '-').map Char.toLower =
      (digits 16 32 id).map Nat.digitChar

/-- 32 hexadecimal digits in lower case, with a hyphen after each of the first
four groups. -/
def Canonical (text : String) : Prop :=
  ∃ word, text = String.ofList (grouped '-' [8, 4, 4, 4] word) ∧ word.length = 32 ∧
    ∀ char ∈ word, char ∈ hexLetters

/-- What `uuid.UUID` and the driver make of a text with these digits. -/
def ReadsUuids (conversions : Conversions) : Prop :=
  ∀ text id, Spells text id → conversions.isUuid text = true ∧ conversions.bind text = some id

theorem hex_letters : ∀ digit < 16, Nat.digitChar digit ∈ hexLetters ∧
    hexLetters.idxOf (Nat.digitChar digit) = digit ∧
    Nat.digitChar digit ≠ '-' ∧ (Nat.digitChar digit).toLower = Nat.digitChar digit := by
  decide

theorem hex_values : ∀ char ∈ hexLetters, hexLetters.idxOf char < 16 ∧
    Nat.digitChar (hexLetters.idxOf char) = char := by
  have checked : (hexLetters.all fun char => hexLetters.idxOf char < 16 &&
      Nat.digitChar (hexLetters.idxOf char) == char) = true := by
    decide
  intro char listed
  simpa using List.all_eq_true.mp checked char listed

theorem text_canonical (id : Uuid) : Canonical (uuidText id) := by
  refine ⟨(digits 16 32 id).map Nat.digitChar, rfl, by simp, fun char member => ?_⟩
  obtain ⟨digit, listed, rfl⟩ := List.mem_map.mp member
  exact (hex_letters digit (digits_below (by decide) 32 id digit listed)).1

/-- The hyphens of a grouped word are the only ones it has. -/
theorem grouped_digits (sizes : List Nat) (word : List Char) (plain : ∀ char ∈ word, char ≠ '-') :
    (grouped '-' sizes word).filter (fun char => char != '-') = word := by
  have kept : ∀ part : List Char, (∀ char ∈ part, char ≠ '-') → part.filter (fun char => char != '-') = part :=
    fun part clean => List.filter_eq_self.mpr fun char member => bne_iff_ne.mpr (clean char member)
  induction sizes generalizing word with
  | nil => exact kept word plain
  | cons size sizes ih =>
      have front := kept (word.take size) fun char member => plain char (List.mem_of_mem_take member)
      have back := ih (word.drop size) fun char member => plain char (List.mem_of_mem_drop member)
      rw [grouped, List.filter_append, List.filter_cons, front, back]
      exact List.take_append_drop size word

theorem grouped_length (sizes : List Nat) (word : List Char) :
    (grouped '-' sizes word).length = word.length + sizes.length := by
  induction sizes generalizing word with
  | nil => rfl
  | cons size sizes ih =>
      have pieces := congrArg List.length (List.take_append_drop size word)
      rw [List.length_append] at pieces
      rw [grouped, List.length_append, List.length_cons, ih, List.length_cons]
      omega

theorem text_spells {id : Uuid} (fits : id < uuidRange) : Spells (uuidText id) id := by
  have plain : ∀ char ∈ (digits 16 32 id).map Nat.digitChar, char ≠ '-' ∧ char.toLower = char := by
    intro char member
    obtain ⟨digit, listed, rfl⟩ := List.mem_map.mp member
    exact (hex_letters digit (digits_below (by decide) 32 id digit listed)).2.2
  refine ⟨fits, ?_, ?_⟩
  · rw [← String.length_toList, uuidText, String.toList_ofList, grouped_length]
    simp
  rw [uuidText, String.toList_ofList, grouped_digits _ _ fun char member => (plain char member).1]
  exact (List.map_congr_left fun char member => (plain char member).2).trans (List.map_id _)

/-- A canonical text is that of the id it spells. -/
theorem canonical_text {text : String} (canonical : Canonical text) :
    ∃ id < uuidRange, text = uuidText id := by
  obtain ⟨word, rfl, length, letters⟩ := canonical
  have below : ∀ digit ∈ word.map hexLetters.idxOf, digit < 16 := by
    intro digit member
    obtain ⟨char, listed, rfl⟩ := List.mem_map.mp member
    exact (hex_values char (letters char listed)).1
  have width : (word.map hexLetters.idxOf).length = 32 := by rw [List.length_map, length]
  have fits := value_lt _ below
  have read := digits_value (by decide) _ below
  rw [width] at fits read
  refine ⟨value 16 (word.map hexLetters.idxOf), fits, ?_⟩
  rw [uuidText, read, List.map_map]
  have same : word.map (Nat.digitChar ∘ hexLetters.idxOf) = word :=
    (List.map_congr_left fun char member => (hex_values char (letters char member)).2).trans
      (List.map_id word)
  rw [same]

end Texts

section Subscriptions
variable {Digest : Type} {conversions : Conversions} {tables : Tables Digest} {now : Time}
  {connection : Connection} {event : List (String × Json)} {call : Option Call}
  {effects : List Effect} {text : String}

/-- The channel on which the events of a conversation are published. -/
def publishedOn (conversation : Conversation) : String :=
  conversationChannel (uuidText conversation.id)

/-- The conversation that the user of the connection is granted to read. -/
def Authorized (conversions : Conversions) (tables : Tables Digest) (now : Time)
    (connection : Connection) (text : String) (conversation : Conversation) : Prop :=
  ∃ user ∈ tables.users, conversions.bind connection.userId = some user.id ∧
    ∃ access, accessTo conversions tables now user text = some access ∧
      access.can .readMessages = true ∧ access.conversation = conversation

/-- The connection joins the channel of the conversation it was granted. -/
def JoinsItsChannel (conversions : Conversions) (tables : Tables Digest) (now : Time)
    (connection : Connection) (text : String) (call : Option Call) : Prop :=
  ∃ conversation, Authorized conversions tables now connection text conversation ∧
    call = some (.subscribe connection (publishedOn conversation))

/-- What a call that acknowledges a subscription has passed. -/
theorem subscribed_answer
    (handled : SocketFrames.handleSubscribe conversions tables now connection event = .done call effects)
    (answered : .subscribed text ∈ effects) :
    (∃ conversation, Authorized conversions tables now connection text conversation) ∧
      call = some (.subscribe connection (conversationChannel text)) := by
  simp only [SocketFrames.handleSubscribe] at handled
  split at handled
  · cases handled
    simp at answered
  · split at handled
    · cases handled
    · rename_i userId bound
      split at handled
      · cases handled
        simp at answered
      · rename_i user found
        split at handled
        · cases handled
          simp at answered
        · rename_i access resolved
          split at handled
          · cases handled
            simp at answered
          · rename_i reads
            cases handled
            cases List.mem_singleton.mp answered
            have same : user.id = userId := by simpa using List.find?_some found
            exact ⟨⟨access.conversation, user, List.mem_of_find?_eq_some found, bound.trans
              (congrArg some same.symm), access, resolved, by simpa using reads, rfl⟩, rfl⟩

/-- The id of what was granted is the one that the text was read as. -/
theorem authorized_id {conversation : Conversation}
    (authorized : Authorized conversions tables now connection text conversation) :
    conversions.bind text = some conversation.id := by
  obtain ⟨user, _, _, access, found, _, rfl⟩ := authorized
  obtain ⟨id, bound, resolved⟩ := access_resolved found
  rw [bound, (resolve_rows resolved).2.1]

/-- A subscription that is acknowledged joins the channel of its conversation
exactly if the client spelled the id as `str` does. -/
theorem joins_its_channel_iff (conversions : Conversions) (reads : ReadsUuids conversions)
    (tables : Tables Digest) (now : Time) (connection : Connection)
    (event : List (String × Json)) (call : Option Call) (effects : List Effect) (text : String)
    (handled : SocketFrames.handleSubscribe conversions tables now connection event = .done call effects)
    (answered : .subscribed text ∈ effects) :
    JoinsItsChannel conversions tables now connection text call ↔ Canonical text := by
  obtain ⟨⟨granted, authorized⟩, called⟩ := subscribed_answer handled answered
  constructor
  · rintro ⟨conversation, _, joined⟩
    have channels := (Call.subscribe.inj (Option.some.inj (called.symm.trans joined))).2
    have same : text = uuidText conversation.id := conversation_channel_injective channels
    exact same ▸ text_canonical conversation.id
  · intro canonical
    obtain ⟨id, fits, rfl⟩ := canonical_text canonical
    have bound := authorized_id authorized
    rw [(reads _ _ (text_spells fits)).2] at bound
    refine ⟨granted, authorized, ?_⟩
    rw [called, publishedOn, Option.some.inj bound]

end Subscriptions

section Reading

/-- A reader of UUIDs that passes over hyphens. -/
def readUuid (text : String) : Option Uuid :=
  let word := (text.toList.filter fun char => char != '-').map fun char =>
    hexLetters.idxOf char.toLower
  if word.length = 32 ∧ ∀ digit ∈ word, digit < 16 then some (value 16 word) else none

def reader : Conversions :=
  { render := fun _ => "", isUuid := fun text => (readUuid text).isSome, bind := readUuid }

theorem reader_reads : ReadsUuids reader := by
  intro text id spells
  obtain ⟨fits, _, letters⟩ := spells
  have word : ((text.toList.filter fun char => char != '-').map fun char =>
      hexLetters.idxOf char.toLower) = digits 16 32 id := by
    have composed : (fun char : Char => hexLetters.idxOf char.toLower) =
        (hexLetters.idxOf ·) ∘ Char.toLower := rfl
    rw [composed, ← List.map_map, letters, List.map_map]
    refine (List.map_congr_left fun digit listed => ?_).trans (List.map_id _)
    exact (hex_letters digit (digits_below (by decide) 32 id digit listed)).2.1
  have width : 16 ^ 32 = uuidRange := by decide
  have read : readUuid text = some id := by
    simp only [readUuid, word]
    rw [if_pos ⟨digits_length 16 32 id, digits_below (by decide) 32 id⟩, value_digits, width,
      Nat.mod_eq_of_lt fits]
  exact ⟨Option.isSome_iff_exists.mpr ⟨id, read⟩, read⟩

def phone : Connection := ⟨1, "00000000-0000-0000-0000-000000000004", "s", "d"⟩

/-- A user with a group whose id has a letter. -/
def tenth : Tables Nat :=
  { users := SocketFrames.reading.users
    conversations := [{ id := 10, kind := .group, createdBy := none, updatedAt := 0 }]
    members := [{ conversationId := 10, userId := 4 }] }

def asked (text : String) : List (String × Json) :=
  [("type", .string "subscribe"), ("conversation_id", .string text)]

theorem lower_case_joins :
    JoinsItsChannel reader tenth 0 phone "00000000-0000-0000-0000-00000000000a"
      (some (.subscribe phone (conversationChannel "00000000-0000-0000-0000-00000000000a"))) ↔
      Canonical "00000000-0000-0000-0000-00000000000a" :=
  joins_its_channel_iff reader reader_reads tenth 0 phone
    (asked "00000000-0000-0000-0000-00000000000a") _
    [.subscribed "00000000-0000-0000-0000-00000000000a"] _ (by rfl) (by simp)

/-- An upper case letter is acknowledged and joins a channel of its own. -/
theorem upper_case_joins_elsewhere : ¬∀ (conversions : Conversions), ReadsUuids conversions →
    ∀ (tables : Tables Nat) now connection event call effects text,
      SocketFrames.handleSubscribe conversions tables now connection event = .done call effects →
      .subscribed text ∈ effects → JoinsItsChannel conversions tables now connection text call := by
  intro claimed
  obtain ⟨conversation, authorized, joined⟩ := claimed reader reader_reads tenth 0 phone
    (asked "00000000-0000-0000-0000-00000000000A")
    (some (.subscribe phone (conversationChannel "00000000-0000-0000-0000-00000000000A")))
    [.subscribed "00000000-0000-0000-0000-00000000000A"] _ (by rfl) (List.mem_singleton_self _)
  have channels := (Call.subscribe.inj (Option.some.inj joined)).2
  have same := conversation_channel_injective channels
  have bound := authorized_id authorized
  rw [show reader.bind "00000000-0000-0000-0000-00000000000A" = some 10 by rfl] at bound
  rw [← Option.some.inj bound] at same
  exact absurd same (by decide)

end Reading

end RunnerupChat.SubscribedChannel
