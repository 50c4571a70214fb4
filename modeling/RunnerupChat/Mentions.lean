import Mathlib.Data.List.TakeWhile
import RunnerupChat.MessageFaults

/-!
Whom a message mentions. The pattern stops after 32 characters, also within a
longer run, and reads four letters outside ASCII that no username has.
-/

namespace RunnerupChat.MessageFaults

open Accounts MessageStore UniqueKeys

section Runs
variable {body rest : List Char} {username : List Char}

/-- `[a-z0-9_]`, in either case. -/
def isPlain (char : Char) : Bool := char.isAlphanum || char == '_'

def spelling (text : List Char) : List Char := text.map Char.toLower

/-- What the pattern captures behind an `@`. -/
def captured (rest : List Char) : List Char := (rest.takeWhile isHandleChar).take 32

/-- A whole run of handle characters behind an `@` is the username. -/
def Addressed (body username : List Char) : Prop :=
  ∃ rest, '@' :: rest <:+ body ∧ spelling (rest.takeWhile isPlain) = spelling username

/-- The run is longer than any username, or a shorter one is followed by a
letter outside ASCII that the pattern takes for `i`, `s` or `k`. -/
def Misread (rest : List Char) : Prop :=
  32 < (rest.takeWhile isPlain).length ∨
    ((rest.takeWhile isPlain).length < 32 ∧
      ∃ char ∈ (rest.dropWhile isPlain).head?, isHandleChar char = true)

/-- Behind some `@` the username stands and is read as it stands. -/
def ReadPlainly (body username : List Char) : Prop :=
  ∃ rest, '@' :: rest <:+ body ∧ ¬Misread rest ∧
    spelling (rest.takeWhile isPlain) = spelling username

/-- A misread run is the username. -/
def Overlooked (body username : List Char) : Prop :=
  ∃ rest, '@' :: rest <:+ body ∧ Misread rest ∧
    spelling (rest.takeWhile isPlain) = spelling username

/-- A misread run is not the username but taken for it: its first 32 characters
are, or those that follow are read in lower case. -/
def Mistaken (body username : List Char) : Prop :=
  ∃ rest, '@' :: rest <:+ body ∧ Misread rest ∧
    (captured rest).flatMap lowered = spelling username

theorem plain_read {char : Char} (plain : isPlain char = true) : isHandleChar char = true := by
  unfold isHandleChar
  rw [show (char.isAlphanum || char == '_') = true from plain]
  rfl

theorem plain_ascii {char : Char} (plain : isPlain char = true) : char.toNat < 128 := by
  change ((decide (char.val ≥ 65 ∧ char.val ≤ 90) ||
    (decide (char.val ≥ 97) && decide (char.val ≤ 122))) ||
    (decide (char.val ≥ 48) && decide (char.val ≤ 57)) || char == '_') = true at plain
  simp only [Bool.or_eq_true, Bool.and_eq_true, decide_eq_true_eq, beq_iff_eq,
    UInt32.le_iff_toNat_le, ge_iff_le] at plain
  change (((65 ≤ char.toNat ∧ char.toNat ≤ 90) ∨ (97 ≤ char.toNat ∧ char.toNat ≤ 122)) ∨
    (48 ≤ char.toNat ∧ char.toNat ≤ 57)) ∨ char = '_' at plain
  rcases plain with letters | rfl
  · omega
  · decide

theorem lower_ascii {char : Char} (ascii : char.toNat < 128) : char.toLower.toNat < 128 := by
  have checked : ∀ code < 128, (Char.ofNat code).toLower.toNat < 128 := by decide
  have lower := checked char.toNat ascii
  rwa [Char.ofNat_toNat] at lower

theorem lowered_plain {char : Char} (plain : isPlain char = true) : lowered char = [char.toLower] := by
  have ascii := plain_ascii plain
  unfold lowered
  rw [if_neg (by omega), if_neg (by omega)]

/-- Only one letter becomes two, and the second is in no username. -/
theorem lowered_length {text : List Char}
    (ascii : ∀ char ∈ text.flatMap lowered, char.toNat < 128) :
    (text.flatMap lowered).length = text.length := by
  induction text with
  | nil => rfl
  | cons char text ih =>
      rw [List.flatMap_cons] at ascii ⊢
      have rest := ih fun other member => ascii other (List.mem_append_right _ member)
      have one : (lowered char).length = 1 := by
        unfold lowered at ascii ⊢
        split
        · next dotted =>
          rw [if_pos dotted] at ascii
          exact absurd (ascii (Char.ofNat 0x307) (by simp)) (by decide)
        · split <;> rfl
      rw [List.length_append, one, rest, List.length_cons, Nat.add_comm]

theorem lowered_run {text : List Char} (plain : ∀ char ∈ text, isPlain char = true) :
    text.flatMap lowered = spelling text := by
  induction text with
  | nil => rfl
  | cons char text ih =>
      rw [List.flatMap_cons, lowered_plain (plain char List.mem_cons_self),
        ih fun other member => plain other (List.mem_cons_of_mem _ member)]
      rfl

theorem mem_handles_iff (body : List Char) (handle : String) :
    handle ∈ handlesOf body ↔ ∃ rest, '@' :: rest <:+ body ∧ 3 ≤ (captured rest).length ∧
      handle = String.ofList ((captured rest).flatMap lowered) := by
  induction body with
  | nil => simp [handlesOf]
  | cons char tail ih =>
      have split : (∃ rest, '@' :: rest <:+ char :: tail ∧ 3 ≤ (captured rest).length ∧
          handle = String.ofList ((captured rest).flatMap lowered)) ↔
          (char = '@' ∧ 3 ≤ (captured tail).length ∧
            handle = String.ofList ((captured tail).flatMap lowered)) ∨
          handle ∈ handlesOf tail := by
        rw [ih]
        constructor
        · rintro ⟨rest, suffix, long, same⟩
          rcases List.suffix_cons_iff.mp suffix with whole | later
          · obtain ⟨rfl, rfl⟩ := List.cons.inj whole
            exact Or.inl ⟨rfl, long, same⟩
          · exact Or.inr ⟨rest, later, long, same⟩
        · rintro (⟨rfl, long, same⟩ | ⟨rest, later, long, same⟩)
          · exact ⟨tail, List.suffix_rfl, long, same⟩
          · exact ⟨rest, List.suffix_cons_iff.mpr (Or.inr later), long, same⟩
      rw [split, handlesOf]
      by_cases found : char = '@' ∧ 3 ≤ (captured tail).length
      · rw [if_pos (by exact found), List.mem_cons]
        exact or_congr_left ⟨fun same => ⟨found.1, found.2, same⟩, fun both => both.2.2⟩
      · rw [if_neg (by exact found)]
        exact ⟨Or.inr, fun either => either.resolve_left fun first => found ⟨first.1, first.2.1⟩⟩

/-- The pattern goes on where the run of plain characters ends. -/
theorem wide_run (rest : List Char) : rest.takeWhile isHandleChar =
    rest.takeWhile isPlain ++ (rest.dropWhile isPlain).takeWhile isHandleChar := by
  conv_lhs => rw [← List.takeWhile_append_dropWhile (p := isPlain) (l := rest)]
  exact List.takeWhile_append_of_pos fun char member => plain_read (List.mem_takeWhile_imp member)

/-- A run that is not misread is captured whole. -/
theorem captured_plainly (sound : ¬Misread rest) : captured rest = rest.takeWhile isPlain := by
  unfold Misread at sound
  rw [not_or, not_lt, not_and] at sound
  obtain ⟨short, closed⟩ := sound
  unfold captured
  rw [wide_run]
  by_cases full : (rest.takeWhile isPlain).length = 32
  · rw [← full, List.take_left]
  · have ended : (rest.dropWhile isPlain).takeWhile isHandleChar = [] := by
      cases after : rest.dropWhile isPlain with
      | nil => rfl
      | cons char tail =>
          have outside := closed (by omega)
          rw [after] at outside
          rw [List.takeWhile_cons, if_neg]
          exact fun inside => outside ⟨char, rfl, inside⟩
    rw [ended, List.append_nil, List.take_of_length_le short]

theorem spelling_ascii (plain : ∀ char ∈ username, isPlain char = true) :
    ∀ char ∈ spelling username, char.toNat < 128 := by
  intro char member
  obtain ⟨letter, listed, rfl⟩ := List.mem_map.mp member
  exact lower_ascii (plain_ascii (plain letter listed))

theorem captured_lowered (sound : ¬Misread rest) :
    (captured rest).flatMap lowered = spelling (rest.takeWhile isPlain) := by
  rw [captured_plainly sound]
  exact lowered_run fun char member => List.mem_takeWhile_imp member

/-- Whom the pattern reads, be it rightly or not. -/
theorem read_iff (long : 3 ≤ username.length) (plain : ∀ char ∈ username, isPlain char = true) :
    String.ofList (spelling username) ∈ handlesOf body ↔
      ReadPlainly body username ∨ Mistaken body username := by
  rw [mem_handles_iff]
  constructor
  · rintro ⟨rest, place, _, same⟩
    have chars := (String.ofList_injective same).symm
    by_cases misread : Misread rest
    · exact Or.inr ⟨rest, place, misread, chars⟩
    · exact Or.inl ⟨rest, place, misread, (captured_lowered misread).symm.trans chars⟩
  · intro read
    obtain ⟨rest, place, chars⟩ : ∃ rest, '@' :: rest <:+ body ∧
        (captured rest).flatMap lowered = spelling username := by
      rcases read with ⟨rest, place, sound, same⟩ | ⟨rest, place, _, same⟩
      · exact ⟨rest, place, (captured_lowered sound).trans same⟩
      · exact ⟨rest, place, same⟩
    have ascii := spelling_ascii plain
    rw [← chars] at ascii
    have length := lowered_length ascii
    rw [chars, spelling, List.length_map] at length
    exact ⟨rest, place, by omega, by rw [chars]⟩

theorem addressed_iff : Addressed body username ↔
    ReadPlainly body username ∨ Overlooked body username := by
  constructor
  · rintro ⟨rest, place, same⟩
    by_cases misread : Misread rest
    · exact Or.inr ⟨rest, place, misread, same⟩
    · exact Or.inl ⟨rest, place, misread, same⟩
  · rintro (⟨rest, place, _, same⟩ | ⟨rest, place, _, same⟩)
    · exact ⟨rest, place, same⟩
    · exact ⟨rest, place, same⟩

end Runs

section Sends
variable {searchMatches : String → String → Bool} {state : State} {tx : TxId} {message : Message}

/-- A current member of the conversation who is not banned. -/
def Present (members : List ConversationMember) (conversation person : Uuid) : Prop :=
  ∃ row ∈ members, row.userId = person ∧ row.conversationId = conversation ∧
    row.leftAt = none ∧ row.state ≠ .banned

/-- What the column `username` admits. -/
structure UsernameSchema (usernames : List Username) : Prop where
  users : (usernames.map Username.userId).Nodup
  distinct : (usernames.map fun row => spelling row.username.toList).Nodup
  length : ∀ row ∈ usernames, 3 ≤ row.username.toList.length ∧ row.username.toList.length ≤ 32
  plain : ∀ row ∈ usernames, ∀ char ∈ row.username.toList, isPlain char = true

/-- What is left of a send once its message is inserted. -/
def closing (tx : TxId) : List Action :=
  [.resolveMentions tx, .serve (.logEvent tx), .serve (.commit tx)]

/-- The mentions are those of the members whom the body addresses, once each. -/
structure MentionsAddressed (state : State) (message : Message) (rows : List MessageMention) :
    Prop where
  once : rows.Nodup
  theirs : ∀ row ∈ rows, row.messageId = message.id
  addressed : ∀ person, ⟨message.id, person⟩ ∈ rows ↔
    Present state.store.members message.conversationId person ∧
      ∃ row ∈ state.usernames, row.userId = person ∧
        Addressed (message.body.getD "").toList row.username.toList

def mentionRows (state : State) (message : Message) : List MessageMention :=
  (resolveMentions state.usernames state.store.members message.conversationId message.body).map
    fun user => ⟨message.id, user⟩

theorem inserted_phase (found : inserted state.store tx = some message) :
    ∃ startedAt attachments sender seq, state.store.txs tx =
      some ⟨startedAt, .writing (.create message attachments sender) seq⟩ := by
  unfold inserted at found
  split at found
  · next opened =>
    cases found
    exact ⟨_, _, _, _, opened⟩
  · cases found

variable (searchMatches) in
/-- The event of a new message is always written. -/
theorem log_serves {startedAt : Time} {attachments : List Attachment} {sender : Uuid} {seq : Nat}
    (opened : state.store.txs tx =
      some ⟨startedAt, .writing (.create message attachments sender) seq⟩)
    (resolved : (state.mentioned tx).isSome = true) :
    ∃ next, step searchMatches state (.serve (.logEvent tx)) = some next ∧
      (next.mentions = state.mentions ∧ next.mentioned tx = state.mentioned tx) ∧
      ∃ write eventId, next.store.txs tx = some ⟨startedAt, .logged write seq eventId⟩ := by
  have taken : MessageStore.step searchMatches state.store (.logEvent tx) = some (enter
      { state.store with lastEventId := state.store.lastEventId + 1 } tx startedAt
        (.logged (.create message attachments sender) seq (state.store.lastEventId + 1))) := by
    simp only [MessageStore.step, logEvent, opened, Write.fits, if_true]
  have writing : isWriting (enter { state.store with lastEventId := state.store.lastEventId + 1 }
      tx startedAt (.logged (.create message attachments sender) seq
        (state.store.lastEventId + 1))) tx = true := by
    simp [isWriting, enter, assign]
  simp only [step, serve, isDue, resolved, Bool.or_true, if_true, taken, Option.map_some]
  refine ⟨_, rfl, ⟨?_, ?_⟩, _, _, assign_same _ _ _⟩
  · exact List.append_nil _
  · simp only [writing, if_true]

variable (searchMatches) in
theorem commit_serves {startedAt : Time} {write : Write} {seq eventId : Nat}
    (opened : state.store.txs tx = some ⟨startedAt, .logged write seq eventId⟩) :
    ∃ next, step searchMatches state (.serve (.commit tx)) = some next ∧
      next.mentions = state.mentions ++ (state.mentioned tx).getD [] := by
  simp only [step, serve, isDue, if_true, MessageStore.step, commit, opened, Option.map_some]
  exact ⟨_, rfl, rfl⟩

variable (searchMatches) in
/-- The mentions become visible with the message. -/
theorem closing_runs (found : inserted state.store tx = some message)
    (unresolved : state.mentioned tx = none) :
    ∃ final, Runs.run (step searchMatches) state (closing tx) = some final ∧
      final.mentions = state.mentions ++ mentionRows state message := by
  obtain ⟨startedAt, attachments, sender, seq, opened⟩ := inserted_phase found
  let resolved : State := { state with
    mentioned := assign state.mentioned tx (some (mentionRows state message)) }
  have first : step searchMatches state (.resolveMentions tx) = some resolved := by
    simp only [step, mention, found, Option.bind_some, unresolved, Option.isSome_none,
      Bool.false_eq_true, if_false]
    rfl
  have kept : resolved.mentioned tx = some (mentionRows state message) := assign_same _ _ _
  obtain ⟨logged, second, stored, write, eventId, phase⟩ := log_serves searchMatches
    (show resolved.store.txs tx = _ from opened) (by rw [kept]; rfl)
  obtain ⟨final, third, mentions⟩ := commit_serves searchMatches phase
  refine ⟨final, ?_, ?_⟩
  · simp only [closing, Runs.run, first, second, third, Option.bind_some]
  · rw [mentions, stored.1, stored.2, kept]
    rfl

theorem mem_mention_rows (message : Message) (person : Uuid) :
    ⟨message.id, person⟩ ∈ mentionRows state message ↔
      Present state.store.members message.conversationId person ∧
        ∃ row ∈ state.usernames, row.userId = person ∧
          String.ofList (spelling row.username.toList) ∈
            handlesOf (message.body.getD "").toList := by
  have present : ∀ row : Username, (state.store.members.any fun member =>
      member.userId == row.userId && member.conversationId == message.conversationId &&
        member.leftAt.isNone && member.state != .banned) = true ↔
      Present state.store.members message.conversationId row.userId := by
    intro row
    simp only [Present, List.any_eq_true, Bool.and_eq_true, beq_iff_eq, bne_iff_ne, ne_eq,
      Option.isNone_iff_eq_none, and_assoc]
  simp only [mentionRows, resolveMentions, List.mem_map, List.mem_filter, Bool.and_eq_true,
    List.contains_iff_mem, present, MessageMention.mk.injEq, true_and]
  constructor
  · rintro ⟨_, ⟨row, ⟨listed, named, here⟩, rfl⟩, rfl⟩
    exact ⟨here, row, listed, rfl, named⟩
  · rintro ⟨here, row, listed, rfl, named⟩
    exact ⟨row.userId, ⟨row, ⟨listed, named, here⟩, rfl⟩, rfl⟩

theorem mention_rows_distinct (message : Message) (schema : UsernameSchema state.usernames) :
    (mentionRows state message).Nodup := by
  unfold mentionRows resolveMentions
  exact ((schema.users.sublist (List.filter_sublist.map _))).map fun one other same =>
    (MessageMention.mk.inj same).2

/-- What the rows say of the username of a member is said of him. -/
theorem addressed_row_iff (schema : UsernameSchema state.usernames) {row : Username}
    (right : MentionsAddressed state message (mentionRows state message))
    (listed : row ∈ state.usernames)
    (here : Present state.store.members message.conversationId row.userId) :
    String.ofList (spelling row.username.toList) ∈ handlesOf (message.body.getD "").toList ↔
      Addressed (message.body.getD "").toList row.username.toList := by
  have only : ∀ other ∈ state.usernames, other.userId = row.userId → other = row :=
    fun other member same => same_row Username.userId schema.users member listed same
  have named := right.addressed row.userId
  rw [mem_mention_rows] at named
  constructor
  · intro read
    obtain ⟨_, other, member, same, addressed⟩ := named.mp ⟨here, row, listed, rfl, read⟩
    rwa [only other member same] at addressed
  · intro addressed
    obtain ⟨_, other, member, same, read⟩ := named.mpr ⟨here, row, listed, rfl, addressed⟩
    rwa [only other member same] at read

/-- A message mentions whom its body addresses exactly if each of the members
is read plainly, or mistaken for another whenever he is overlooked himself. -/
theorem mentions_addressed_iff (searchMatches : String → String → Bool) (state : State)
    (tx : TxId) (message : Message) (found : inserted state.store tx = some message)
    (unresolved : state.mentioned tx = none) (schema : UsernameSchema state.usernames) :
    (∃ final rows, Runs.run (step searchMatches) state (closing tx) = some final ∧
      final.mentions = state.mentions ++ rows ∧ MentionsAddressed state message rows) ↔
      ∀ row ∈ state.usernames,
        Present state.store.members message.conversationId row.userId →
        let body := (message.body.getD "").toList
        ReadPlainly body row.username.toList ∨
          (Mistaken body row.username.toList ↔ Overlooked body row.username.toList) := by
  obtain ⟨final, ran, written⟩ := closing_runs searchMatches found unresolved
  constructor
  · rintro ⟨other, rows, again, recorded, right⟩ row listed here
    obtain rfl := Option.some.inj (ran.symm.trans again)
    obtain rfl := List.append_cancel_left (written.symm.trans recorded)
    have agree := addressed_row_iff schema right listed here
    rw [read_iff (schema.length row listed).1 (schema.plain row listed), addressed_iff] at agree
    by_cases plainly : ReadPlainly (message.body.getD "").toList row.username.toList
    · exact Or.inl plainly
    · rw [or_iff_right plainly, or_iff_right plainly] at agree
      exact Or.inr agree
  · intro each
    refine ⟨final, mentionRows state message, ran, written, mention_rows_distinct message schema,
      ?_, fun person => ?_⟩
    · intro row member
      obtain ⟨_, _, rfl⟩ := List.mem_map.mp member
      rfl
    · rw [mem_mention_rows]
      apply and_congr_right
      intro here
      apply exists_congr
      intro row
      apply and_congr_right
      intro listed
      apply and_congr_right
      rintro rfl
      rw [read_iff (schema.length row listed).1 (schema.plain row listed), addressed_iff]
      rcases each row listed here with plainly | agree
      · exact iff_of_true (Or.inl plainly) (Or.inl plainly)
      · exact or_congr_right agree

/-- The send of a message of which only the mentions are missing. -/
def pending (body : String) : List Action :=
  [.setUsernames [⟨7, "kim"⟩, ⟨8, "user_of_thirty_two_characters_ab"⟩],
    .serve (.addConversation 1),
    .serve (.setMembers [⟨1, 7, .active, none⟩, ⟨1, 8, .active, none⟩])] ++
  (sendText 1 1 30 10 body 0).dropLast.map Action.serve

theorem pending_schema :
    UsernameSchema [⟨7, "kim"⟩, ⟨8, "user_of_thirty_two_characters_ab"⟩] where
  users := by decide
  distinct := by decide
  length := by decide
  plain := by
    have checked : (["kim", "user_of_thirty_two_characters_ab"].all fun name =>
        name.toList.all isPlain) = true := by
      decide
    intro row listed
    have named : row.username ∈ ["kim", "user_of_thirty_two_characters_ab"] :=
      List.mem_map_of_mem listed
    exact List.all_eq_true.mp (List.all_eq_true.mp checked row.username named)

set_option maxRecDepth 4000 in
theorem mentions_of_pending : ∃ state message,
    Runs.run (step sameText) initial (pending "hi @Kim") = some state ∧
    ((∃ final rows, Runs.run (step sameText) state (closing 1) = some final ∧
      final.mentions = state.mentions ++ rows ∧ MentionsAddressed state message rows) ↔
      ∀ row ∈ state.usernames,
        Present state.store.members message.conversationId row.userId →
        let body := (message.body.getD "").toList
        ReadPlainly body row.username.toList ∨
          (Mistaken body row.username.toList ↔ Overlooked body row.username.toList)) := by
  obtain ⟨state, message, reached, found, unresolved, usernames⟩ :
      ∃ state message, Runs.run (step sameText) initial (pending "hi @Kim") = some state ∧
        inserted state.store 1 = some message ∧ state.mentioned 1 = none ∧
        state.usernames = [⟨7, "kim"⟩, ⟨8, "user_of_thirty_two_characters_ab"⟩] :=
    ⟨_, _, rfl, rfl, rfl, rfl⟩
  exact ⟨state, message, reached, mentions_addressed_iff sameText state 1 message found unresolved
    (usernames ▸ pending_schema)⟩

set_option maxRecDepth 4000 in
/-- A run of 33 characters mentions the member whose username is its first 32. -/
theorem longer_run_mentions : ¬∀ (state : State) (tx : TxId) (message : Message),
    inserted state.store tx = some message → state.mentioned tx = none →
    UsernameSchema state.usernames →
    ∃ final rows, Runs.run (step sameText) state (closing tx) = some final ∧
      final.mentions = state.mentions ++ rows ∧ MentionsAddressed state message rows := by
  intro claimed
  obtain ⟨state, message, found, unresolved, usernames, here, body⟩ :
      ∃ (state : State) (message : Message), inserted state.store 1 = some message ∧
        state.mentioned 1 = none ∧
        state.usernames = [⟨7, "kim"⟩, ⟨8, "user_of_thirty_two_characters_ab"⟩] ∧
        Present state.store.members message.conversationId 8 ∧
        message.body = some "@user_of_thirty_two_characters_abc" := by
    obtain ⟨state, message, _, found, unresolved, usernames, members, place, body⟩ :
        ∃ state message, Runs.run (step sameText) initial
            (pending "@user_of_thirty_two_characters_abc") = some state ∧
          inserted state.store 1 = some message ∧ state.mentioned 1 = none ∧
          state.usernames = [⟨7, "kim"⟩, ⟨8, "user_of_thirty_two_characters_ab"⟩] ∧
          state.store.members = [⟨1, 7, .active, none⟩, ⟨1, 8, .active, none⟩] ∧
          message.conversationId = 1 ∧ message.body = some "@user_of_thirty_two_characters_abc" :=
      ⟨_, _, rfl, rfl, rfl, rfl, rfl, rfl, by decide⟩
    refine ⟨state, message, found, unresolved, usernames, ?_, body⟩
    rw [members, place]
    exact ⟨⟨1, 8, .active, none⟩, by simp, rfl, rfl, rfl, by decide⟩
  have schema : UsernameSchema state.usernames := usernames ▸ pending_schema
  obtain ⟨final, rows, ran, recorded, right⟩ := claimed state 1 message found unresolved schema
  obtain ⟨other, again, written⟩ := closing_runs sameText found unresolved
  obtain rfl := Option.some.inj (ran.symm.trans again)
  obtain rfl := List.append_cancel_left (written.symm.trans recorded)
  have listed : ⟨8, "user_of_thirty_two_characters_ab"⟩ ∈ state.usernames := by
    rw [usernames]
    exact List.mem_cons_of_mem _ (List.mem_singleton_self _)
  have addressed := (addressed_row_iff schema right listed here).mp (by rw [body]; decide)
  rw [body] at addressed
  obtain ⟨rest, suffix, same⟩ := addressed
  have apart : ∀ tail ∈ "@user_of_thirty_two_characters_abc".toList.tails,
      tail.head? = some '@' → spelling (tail.tail.takeWhile isPlain) ≠
        spelling "user_of_thirty_two_characters_ab".toList := by decide
  exact apart _ ((List.mem_tails _ _).mpr suffix) rfl same

end Sends

end RunnerupChat.MessageFaults
