import RunnerupChat.ChatPage

/-!
The list of messages that `ChatPage` displays. Pages, socket events and
confirmations all write it, and each of them may arrive late. What comes from
the server is as the server has it: an id stands for one message of one
conversation, and a page holds messages of the conversation it was asked for,
the newest first.
-/

namespace RunnerupChat.DisplayedMessages

open Accounts (Uuid)
open ChatPage Runs
open MessageStore (MessageOut)

/-- The conversation and the number of the message with an id. -/
abbrev Archive := Uuid → Uuid × Nat

def Recorded (archive : Archive) (message : MessageOut) : Prop :=
  archive message.id = (message.conversationId, message.seq)

/-- A page of a conversation, newest message first. -/
structure PageOf (archive : Archive) (id : Uuid) (page : List MessageOut) : Prop where
  recorded : ∀ message ∈ page, Recorded archive message
  inside : ∀ message ∈ page, message.conversationId = id
  descending : page.Pairwise fun message older => older.seq < message.seq

/-- What arrives comes from the server. -/
def Genuine (archive : Archive) : Action → Prop
  | .opened id page | .loadedOlder id _ page => PageOf archive id page
  | .created message | .answered _ message => Recorded archive message
  | _ => True

/-- While a conversation is open, the list holds its messages alone, none of
them twice, in the order of their numbers. -/
def Displayed (state : State) : Prop :=
  ∀ active, state.activeId = some active →
    (∀ message ∈ state.messages, message.conversationId = active) ∧
    (state.messages.map MessageOut.id).Nodup ∧
    (state.messages.map MessageOut.seq).Pairwise (· < ·)

/-- A message may be added at the end: it is there, or it belongs to the open
conversation and is newer than all that is displayed. -/
def Next (state : State) (message : MessageOut) : Prop :=
  ∀ active, state.activeId = some active →
    (∃ shown ∈ state.messages, shown.id = message.id) ∨
      message.conversationId = active ∧ ∀ shown ∈ state.messages, shown.seq < message.seq

/-- What arrives still fits the displayed list. -/
def Fits (state : State) : Action → Prop
  | .opened id page => page = [] ∨ ∀ active, state.activeId = some active → active = id
  | .loadedOlder id _ page => page = [] ∨ ∀ active, state.activeId = some active →
      active = id ∧ ∀ message ∈ page, ∀ shown ∈ state.messages, message.seq < shown.seq
  | .created message => state.activeId = some message.conversationId → Next state message
  | .answered index message => ∀ sending, state.sends[index]? = some sending →
      sending.manual = false → Next state message
  | _ => True

section Lists
variable {archive : Archive} {messages page : List MessageOut} {message : MessageOut}
  {active id : Uuid}

/-- The list of a conversation. -/
structure Listed (active : Uuid) (messages : List MessageOut) : Prop where
  inside : ∀ message ∈ messages, message.conversationId = active
  ascending : messages.Pairwise fun message newer => message.seq < newer.seq

/-- In order, no message is there twice. -/
theorem listed_iff (recorded : ∀ message ∈ messages, Recorded archive message) :
    Listed active messages ↔ (∀ message ∈ messages, message.conversationId = active) ∧
      (messages.map MessageOut.id).Nodup ∧ (messages.map MessageOut.seq).Pairwise (· < ·) := by
  rw [List.pairwise_map]
  constructor
  · intro listed
    refine ⟨listed.inside, ?_, listed.ascending⟩
    rw [List.Nodup, List.pairwise_map]
    -- an id that is there twice would have two numbers
    refine listed.ascending.imp_of_mem fun {one other} first second less same => ?_
    have records := (recorded one first).symm.trans ((congrArg archive same).trans
      (recorded other second))
    rw [(Prod.mk.inj records).2] at less
    exact Nat.lt_irrefl _ less
  · rintro ⟨inside, _, ascending⟩
    exact ⟨inside, ascending⟩

theorem page_listed (page_ : PageOf archive id page) : Listed id page.reverse where
  inside := fun message member => page_.inside message (List.mem_reverse.mp member)
  ascending := List.pairwise_reverse.mpr page_.descending

theorem add_once_cases (messages : List MessageOut) (message : MessageOut) :
    (∃ shown ∈ messages, shown.id = message.id) ∧ addOnce messages message = messages ∨
    (∀ shown ∈ messages, shown.id ≠ message.id) ∧
      addOnce messages message = messages ++ [message] := by
  unfold addOnce
  by_cases present : ∃ shown ∈ messages, shown.id = message.id
  · left
    refine ⟨present, if_pos ?_⟩
    obtain ⟨shown, member, same⟩ := present
    exact List.any_eq_true.mpr ⟨shown, member, beq_iff_eq.mpr same⟩
  · right
    refine ⟨fun shown member same => present ⟨shown, member, same⟩, if_neg fun found => ?_⟩
    obtain ⟨shown, member, same⟩ := List.any_eq_true.mp found
    exact present ⟨shown, member, beq_iff_eq.mp same⟩

theorem listed_append (front back : List MessageOut) :
    Listed active (front ++ back) ↔ Listed active front ∧ Listed active back ∧
      ∀ message ∈ front, ∀ shown ∈ back, message.seq < shown.seq := by
  constructor
  · rintro ⟨inside, ascending⟩
    obtain ⟨first, second, across⟩ := List.pairwise_append.mp ascending
    exact ⟨⟨fun message member => inside message (List.mem_append_left _ member), first⟩,
      ⟨fun message member => inside message (List.mem_append_right _ member), second⟩, across⟩
  · rintro ⟨first, second, across⟩
    refine ⟨fun message member => ?_,
      List.pairwise_append.mpr ⟨first.ascending, second.ascending, across⟩⟩
    rcases List.mem_append.mp member with front | back
    · exact first.inside message front
    · exact second.inside message back

theorem listed_nil (active : Uuid) : Listed active [] where
  inside := fun _ member => nomatch member
  ascending := List.Pairwise.nil

theorem listed_single : Listed active [message] ↔ message.conversationId = active := by
  constructor
  · exact fun listed => listed.inside message (List.mem_singleton_self message)
  · intro inside
    refine ⟨fun other member => ?_, List.pairwise_singleton _ _⟩
    rw [List.mem_singleton.mp member]
    exact inside

theorem listed_flagged (id : Uuid) : Listed active (markDeleted messages id) ↔
    Listed active messages := by
  have same : ∀ message : MessageOut,
      (if message.id = id then { message with deleted := true, body := none } else message).seq =
        message.seq ∧
      (if message.id = id then { message with deleted := true, body := none }
        else message).conversationId = message.conversationId := by
    intro message
    by_cases flagged : message.id = id
    · simp [flagged]
    · simp [flagged]
  constructor
  · rintro ⟨inside, ascending⟩
    rw [markDeleted, List.pairwise_map] at ascending
    refine ⟨fun message member => ?_, ?_⟩
    · rw [← (same message).2]
      exact inside _ (List.mem_map_of_mem member)
    · simpa only [same] using ascending
  · rintro ⟨inside, ascending⟩
    refine ⟨fun message member => ?_, ?_⟩
    · obtain ⟨source, listed, rfl⟩ := List.mem_map.mp member
      rw [(same source).2]
      exact inside source listed
    · rw [markDeleted, List.pairwise_map]
      simpa only [same] using ascending

end Lists

section Steps
variable {archive : Archive} {state next : State} {action : Action}

def Known (archive : Archive) (state : State) : Prop :=
  ∀ message ∈ state.messages, Recorded archive message

theorem displayed_iff (known : Known archive state) :
    Displayed state ↔ ∀ active, state.activeId = some active → Listed active state.messages :=
  forall₂_congr fun _ _ => (listed_iff known).symm

theorem known_once {messages : List MessageOut} {message : MessageOut}
    (recorded : Recorded archive message) (known : ∀ shown ∈ messages, Recorded archive shown) :
    ∀ shown ∈ addOnce messages message, Recorded archive shown := by
  rcases add_once_cases messages message with ⟨_, same⟩ | ⟨_, grown⟩
  · rw [same]
    exact known
  · rw [grown]
    intro shown member
    rcases List.mem_append.mp member with old | new
    · exact known shown old
    · rw [List.mem_singleton.mp new]
      exact recorded

theorem known_step (known : Known archive state) (genuine : Genuine archive action)
    (taken : step state action = some next) : Known archive next := by
  cases step_shown taken with
  | other _ _ messages _ | closes _ messages _ =>
      rw [Known, messages]
      exact known
  | opens id _ messages _ =>
      rw [Known, messages]
      exact fun message member => nomatch member
  | replaces id page _ messages _ =>
      rw [Known, messages]
      exact fun message member => genuine.recorded message (List.mem_reverse.mp member)
  | prepends id before page _ messages _ =>
      rw [Known, messages]
      intro message member
      rcases List.mem_append.mp member with new | old
      · exact genuine.recorded message (List.mem_reverse.mp new)
      · exact known message old
  | receives incoming _ _ messages _ =>
      rw [Known, messages]
      exact known_once genuine known
  | flags id _ messages _ =>
      rw [Known, messages]
      intro message member
      obtain ⟨source, listed, rfl⟩ := List.mem_map.mp member
      have recorded := known source listed
      by_cases flagged : source.id = id
      · rw [if_pos flagged]
        exact recorded
      · rw [if_neg flagged]
        exact recorded
  | confirms index sending message _ _ messages _ =>
      rw [Known, messages]
      split
      · exact known
      · exact known_once genuine known

/-- Adding a message keeps the list of the open conversation when it is next. -/
theorem once_listed {message : MessageOut}
    (active : next.activeId = state.activeId)
    (messages : next.messages = addOnce state.messages message)
    (listed : ∀ active, state.activeId = some active → Listed active state.messages)
    (newest : Next state message) (open_ : Uuid) (here : next.activeId = some open_) :
    Listed open_ next.messages := by
  rw [active] at here
  rw [messages]
  rcases add_once_cases state.messages message with ⟨_, same⟩ | ⟨absent, grown⟩
  · rw [same]
    exact listed open_ here
  · rw [grown]
    rcases newest open_ here with ⟨shown, member, same⟩ | ⟨inside, newer⟩
    · exact absurd same (absent shown member)
    · apply (listed_append _ _).mpr
      refine ⟨listed open_ here, listed_single.mpr inside, fun shown member other new => ?_⟩
      rw [List.mem_singleton.mp new]
      exact newer shown member

theorem once_next {message : MessageOut} (active : next.activeId = state.activeId)
    (messages : next.messages = addOnce state.messages message)
    (listed : ∀ active, next.activeId = some active → Listed active next.messages) :
    Next state message := by
  intro open_ here
  have after := listed open_ (active.trans here)
  rw [messages] at after
  rcases add_once_cases state.messages message with ⟨present, _⟩ | ⟨_, grown⟩
  · exact Or.inl present
  · rw [grown] at after
    obtain ⟨_, single, newer⟩ := (listed_append _ _).mp after
    exact Or.inr ⟨listed_single.mp single,
      fun shown member => newer shown member message (List.mem_singleton_self message)⟩

/-- A step that leaves the list in order was taken on something that fits. -/
theorem fits_of_displayed (genuine : Genuine archive action)
    (taken : step state action = some next)
    (listed : ∀ active, next.activeId = some active → Listed active next.messages) :
    Fits state action := by
  cases step_shown taken with
  | other quiet _ _ _ =>
      cases action with
      | created incoming => exact fun here => absurd here.symm quiet
      | _ => trivial
  | opens | closes | flags => trivial
  | replaces id page active messages _ =>
      by_cases filled : page = []
      · exact Or.inl filled
      · right
        intro open_ here
        obtain ⟨message, member⟩ := List.exists_mem_of_ne_nil page filled
        have after := listed open_ (active.trans here)
        rw [messages] at after
        rw [← after.inside message (List.mem_reverse.mpr member), genuine.inside message member]
  | prepends id before page active messages _ =>
      by_cases filled : page = []
      · exact Or.inl filled
      · right
        intro open_ here
        obtain ⟨message, member⟩ := List.exists_mem_of_ne_nil page filled
        have after := listed open_ (active.trans here)
        rw [messages, listed_append] at after
        obtain ⟨first, _, across⟩ := after
        refine ⟨?_, fun other present => across other (List.mem_reverse.mpr present)⟩
        rw [← first.inside message (List.mem_reverse.mpr member), genuine.inside message member]
  | receives incoming here active messages _ => exact fun _ => once_next active messages listed
  | confirms index sending message found active messages _ =>
      intro other same first
      rw [same] at found
      cases found
      rw [first] at messages
      exact once_next active messages listed

theorem displayed_of_fits (listed : ∀ active, state.activeId = some active →
      Listed active state.messages) (genuine : Genuine archive action) (fits : Fits state action)
    (taken : step state action = some next) :
    ∀ active, next.activeId = some active → Listed active next.messages := by
  intro open_ here
  cases step_shown taken with
  | other _ active messages _ =>
      rw [messages]
      exact listed open_ (active ▸ here)
  | opens id _ messages _ =>
      rw [messages]
      exact listed_nil open_
  | closes active _ _ =>
      rw [active] at here
      cases here
  | replaces id page active messages _ =>
      rw [messages]
      rw [active] at here
      rcases fits with rfl | same
      · exact listed_nil open_
      · rw [same open_ here]
        exact page_listed genuine
  | prepends id before page active messages _ =>
      rw [messages]
      rw [active] at here
      rcases fits with rfl | same
      · exact listed open_ here
      · obtain ⟨rfl, older⟩ := same open_ here
        apply (listed_append _ _).mpr
        exact ⟨page_listed genuine, listed open_ here,
          fun message member => older message (List.mem_reverse.mp member)⟩
  | receives incoming active_ active messages _ =>
      exact once_listed active messages listed (fits active_) open_ here
  | flags id active messages _ =>
      rw [messages]
      exact (listed_flagged id).mpr (listed open_ (active ▸ here))
  | confirms index sending message found active messages _ =>
      cases manual : sending.manual with
      | false =>
          rw [manual] at messages
          exact once_listed active messages listed (fits sending found manual) open_ here
      | true =>
          rw [manual] at messages
          rw [messages]
          exact listed open_ (active ▸ here)

end Steps

/-- The displayed list is that of the open conversation at every time exactly
when everything that arrives still fits it: a page its conversation, an older
page also the messages that are there, an added message the end of the list. -/
theorem displayed_always_iff (archive : Archive) (actions : List Action) (final : State)
    (genuine : ∀ action ∈ actions, Genuine archive action) (conversations : List Conversation)
    (ran : run step { conversations := conversations } actions = some final) :
    (∀ visited, Visits step { conversations := conversations } actions visited →
      Displayed visited) ↔
      Meets step Fits { conversations := conversations } actions := by
  have closed : Displayed { conversations := conversations } := fun active here => nomatch here
  have empty : Known archive { conversations := conversations } :=
    fun message member => nomatch member
  rw [visits_iff_takes, and_iff_right closed]
  apply takes_iff_meets (Known archive) (fun state => Known archive state ∧ Displayed state)
    (fun _ _ next => Displayed next) (Genuine archive) ran genuine
  case keeps => exact fun _ _ _ known genuine taken => known_step known genuine taken
  case needed =>
    intro state action next known genuine taken displayed
    exact fits_of_displayed genuine taken
      ((displayed_iff (known_step known genuine taken)).mp displayed)
  case sound =>
    intro state action next strong genuine fits taken
    have known := known_step strong.1 genuine taken
    have displayed := (displayed_iff known).mpr
      (displayed_of_fits ((displayed_iff strong.1).mp strong.2) genuine fits taken)
    exact ⟨⟨known, displayed⟩, displayed⟩
  case base => exact empty
  case holds => exact ⟨empty, closed⟩

def sampleMessage (id conversation seq : Nat) : MessageOut :=
  { id := id, seq := seq, conversationId := conversation, senderId := none, kind := .text
    body := some "hi", clientMsgId := id, replyToId := none, editedAt := none, deleted := false
    createdAt := 0, attachments := [] }

/-- Message 7 is the first of conversation 1, and 8 the first of conversation 2. -/
def sampleArchive : Archive := fun id => if id = 7 then (1, 1) else (2, 1)

theorem single_page {id conversation : Nat} (stored : sampleArchive id = (conversation, 1)) :
    PageOf sampleArchive conversation [sampleMessage id conversation 1] where
  recorded := by
    intro message member
    rw [List.mem_singleton.mp member]
    exact stored
  inside := by
    intro message member
    rw [List.mem_singleton.mp member]
    rfl
  descending := List.pairwise_singleton _ _

/-- A page that comes in time. -/
def reading : List Action := [.openConversation 1, .opened 1 [sampleMessage 7 1 1]]

theorem first_page_displayed : ∃ final, run step {} reading = some final ∧
    ∀ visited, Visits step {} reading visited → Displayed visited := by
  obtain ⟨final, ran⟩ : ∃ final, run step {} reading = some final := ⟨_, rfl⟩
  have genuine : ∀ action ∈ reading, Genuine sampleArchive action := by
    intro action member
    simp only [reading, List.mem_cons, List.not_mem_nil, or_false] at member
    rcases member with rfl | rfl
    · trivial
    · exact single_page rfl
  refine ⟨final, ran, (displayed_always_iff sampleArchive reading final genuine [] ran).mpr ?_⟩
  refine meets_cons rfl trivial (meets_cons rfl (Or.inr fun active here => ?_) trivial)
  cases here
  rfl

/-- The second conversation is opened before the page of the first one comes. -/
def switching : List Action :=
  [.openConversation 1, .openConversation 2, .opened 2 [sampleMessage 8 2 1],
    .opened 1 [sampleMessage 7 1 1]]

theorem switching_genuine : ∀ action ∈ switching, Genuine sampleArchive action := by
  intro action member
  simp only [switching, List.mem_cons, List.not_mem_nil, or_false] at member
  rcases member with rfl | rfl | rfl | rfl
  · trivial
  · trivial
  · exact single_page rfl
  · exact single_page rfl

/-- The page of the first conversation is displayed in the second one. -/
theorem late_page_displayed :
    ¬∀ (archive : Archive) (actions : List Action) (final : State)
      (conversations : List Conversation),
      (∀ action ∈ actions, Genuine archive action) →
      run step { conversations := conversations } actions = some final →
      ∀ visited, Visits step { conversations := conversations } actions visited →
        Displayed visited := by
  intro claim
  obtain ⟨final, ran, active, messages⟩ : ∃ final, run step {} switching = some final ∧
      final.activeId = some 2 ∧ final.messages = [sampleMessage 7 1 1] := ⟨_, rfl, rfl, rfl⟩
  have displayed := claim sampleArchive switching final [] switching_genuine ran final
    ⟨switching, [], (List.append_nil _).symm, ran⟩
  have inside := (displayed 2 active).1 (sampleMessage 7 1 1) (by rw [messages]; simp)
  exact absurd inside (by decide)

end RunnerupChat.DisplayedMessages
