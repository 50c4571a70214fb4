import RunnerupChat.DisplayedMessages

/-!
What `ChatPage` may not lose while a conversation stays open: the messages
that came in a socket event or whose send was reported, and the pending ones.
The first report of a send adds its message to the list; the report of a
manual retry removes the pending entry and adds nothing.
-/

namespace RunnerupChat.KeptMessages

open Accounts (Uuid)
open ChatPage Runs
open DisplayedMessages (add_once_cases sampleMessage)
open MessageStore (MessageOut)

/-- The page and the messages of the open conversation that it was told of
since that one became the active one. -/
structure Watch where
  page : State
  told : List Uuid := []

/-- The messages of the open conversation that an event or a report brings. -/
def tells (state : State) : Action → List Uuid
  | .created message | .answered _ message =>
      if state.activeId = some message.conversationId then [message.id] else []
  | _ => []

def step (watch : Watch) (action : Action) : Option Watch :=
  (ChatPage.step watch.page action).map fun next =>
    { page := next
      told := if next.activeId = watch.page.activeId then watch.told ++ tells watch.page action
        else [] }

def displayedIds (state : State) : List Uuid := state.messages.map MessageOut.id

/-- All that the page was told of is displayed. -/
def Kept (watch : Watch) : Prop := ∀ id ∈ watch.told, id ∈ displayedIds watch.page

/-- While a conversation is open, a pending entry leaves only when the message
that its send was answered with is displayed. -/
def Released (watch : Watch) (action : Action) (next : Watch) : Prop :=
  watch.page.activeId ≠ none → next.page.activeId = watch.page.activeId →
    ∀ id ∈ watch.page.entries, id ∉ next.page.entries →
      ∃ index sending message, action = .answered index message ∧
        watch.page.sends[index]? = some sending ∧ sending.pending.clientMsgId = id ∧
        message.id ∈ displayedIds next.page

/-- What the confirmation of a send is to be shown for: the open conversation,
or a pending entry. -/
def Awaited (state : State) (sending : Sending) (message : MessageOut) : Prop :=
  state.activeId = some message.conversationId ∨
    state.activeId ≠ none ∧ sending.pending.clientMsgId ∈ state.entries

/-- The list is emptied before the page was told of anything, a page that
replaces it contains all that the page was told of, and a manual retry is
confirmed when its message is displayed. -/
def Retains (watch : Watch) : Action → Prop
  | .openConversation id => watch.page.activeId = some id → watch.told = []
  | .opened _ page => ∀ id ∈ watch.told, id ∈ page.map MessageOut.id
  | .answered index message => ∀ sending, watch.page.sends[index]? = some sending →
      sending.manual = true → Awaited watch.page sending message →
      message.id ∈ displayedIds watch.page
  | _ => True

section Steps
variable {watch next : Watch} {action : Action}

theorem mem_once (messages : List MessageOut) (message : MessageOut) (id : Uuid) :
    id ∈ (addOnce messages message).map MessageOut.id ↔
      id ∈ messages.map MessageOut.id ∨ id = message.id := by
  rcases add_once_cases messages message with ⟨⟨shown, member, same⟩, kept⟩ | ⟨_, grown⟩
  · rw [kept]
    constructor
    · exact Or.inl
    · rintro (old | rfl)
      · exact old
      · exact List.mem_map.mpr ⟨shown, member, same⟩
  · rw [grown]
    simp

theorem flagged_ids (messages : List MessageOut) (id : Uuid) :
    (markDeleted messages id).map MessageOut.id = messages.map MessageOut.id := by
  rw [markDeleted, List.map_map]
  apply List.map_congr_left
  intro message _
  by_cases flagged : message.id = id
  · simp [flagged]
  · simp [flagged]

theorem told_same {page : State} (active : page.activeId = watch.page.activeId)
    (silent : tells watch.page action = []) :
    (if page.activeId = watch.page.activeId then watch.told ++ tells watch.page action else []) =
      watch.told := by
  rw [if_pos active, silent, List.append_nil]

theorem quiet_silent {state : State} (quiet : Quiet state action) : tells state action = [] := by
  cases action with
  | created incoming => exact if_neg (Ne.symm quiet)
  | answered index message => exact quiet.elim
  | _ => rfl

theorem kept_same {page : State}
    (told : (if page.activeId = watch.page.activeId then watch.told ++ tells watch.page action
      else []) = watch.told) (shown : ∀ id ∈ watch.told, id ∈ displayedIds page) :
    Kept { page := page
           told := if page.activeId = watch.page.activeId then
               watch.told ++ tells watch.page action
             else [] } := by
  intro id member
  rw [told] at member
  exact shown id member

/-- A confirmation tells of its message only where it is shown. -/
theorem told_confirmed {id : Uuid} {index : Nat} {message : MessageOut}
    (member : id ∈ watch.told ++ tells watch.page (.answered index message)) :
    id ∈ watch.told ∨
      watch.page.activeId = some message.conversationId ∧ id = message.id := by
  rcases List.mem_append.mp member with old | new
  · exact Or.inl old
  · rw [tells] at new
    split at new
    · rename_i here
      exact Or.inr ⟨here, List.mem_singleton.mp new⟩
    · cases new

theorem entries_same {next : Watch} (entries : next.page.entries = watch.page.entries) :
    Released watch action next := by
  intro _ _ id member gone
  rw [entries] at gone
  exact absurd member gone

theorem confirmed_retained {index : Nat} {sending : Sending} {message : MessageOut}
    (found : watch.page.sends[index]? = some sending)
    (active : next.page.activeId = watch.page.activeId)
    (told : next.told = watch.told ++ tells watch.page (.answered index message))
    (messages : next.page.messages =
      if sending.manual then watch.page.messages else addOnce watch.page.messages message)
    (entries : next.page.entries =
      watch.page.entries.filter fun id => id != sending.pending.clientMsgId)
    (kept : Kept next) (released : Released watch (.answered index message) next) :
    Retains watch (.answered index message) := by
  intro other same manual awaited
  obtain rfl := Option.some.inj (found.symm.trans same)
  -- the callback of a retry appends nothing, so what is displayed was there before
  have displayed : displayedIds next.page = displayedIds watch.page := by
    rw [displayedIds, messages, if_pos manual, displayedIds]
  rw [← displayed]
  rcases awaited with here | ⟨open_, member⟩
  · apply kept
    rw [told]
    apply List.mem_append_right
    rw [tells, if_pos here]
    exact List.mem_singleton_self _
  · have gone : sending.pending.clientMsgId ∉ next.page.entries := by
      rw [entries]
      simp
    obtain ⟨_, _, _, answer, _, _, shown⟩ := released open_ active _ member gone
    cases answer
    exact shown

theorem retains_of_kept (taken : step watch action = some next) (kept : Kept next)
    (released : Released watch action next) : Retains watch action := by
  obtain ⟨page, stepped, rfl⟩ := Option.map_eq_some_iff.mp taken
  cases step_shown stepped with
  | other quiet _ _ _ =>
      cases action with
      | _ => trivial
  | closes | prepends | receives | flags => trivial
  | opens id active messages _ =>
      intro same
      apply List.eq_nil_iff_forall_not_mem.mpr
      intro told member
      have shown := kept told (by
        show told ∈ if page.activeId = watch.page.activeId then _ else _
        rw [if_pos (active.trans same.symm)]
        exact List.mem_append_left _ member)
      rw [displayedIds, messages] at shown
      cases shown
  | replaces id list active messages _ =>
      intro told member
      have shown := kept told (by
        show told ∈ if page.activeId = watch.page.activeId then _ else _
        rw [if_pos active]
        exact List.mem_append_left _ member)
      rw [displayedIds, messages, List.map_reverse, List.mem_reverse] at shown
      exact shown
  | confirms index sending message found active messages entries =>
      exact confirmed_retained found active (if_pos active) messages entries kept released

/-- A confirmation that is awaited has its message displayed. -/
theorem confirmed_shown {index : Nat} {sending : Sending} {message : MessageOut} {page : State}
    (retains : Retains watch (.answered index message))
    (found : watch.page.sends[index]? = some sending)
    (messages : page.messages =
      if sending.manual then watch.page.messages else addOnce watch.page.messages message) :
    (∀ id ∈ displayedIds watch.page, id ∈ displayedIds page) ∧
      (Awaited watch.page sending message → message.id ∈ displayedIds page) := by
  cases manual : sending.manual with
  | false =>
      rw [manual] at messages
      rw [displayedIds, displayedIds, messages]
      exact ⟨fun id member => (mem_once _ _ id).mpr (Or.inl member),
        fun _ => (mem_once _ _ _).mpr (Or.inr rfl)⟩
  | true =>
      rw [manual] at messages
      rw [displayedIds, displayedIds, messages]
      exact ⟨fun id member => member, retains sending found manual⟩

theorem kept_of_retains (kept : Kept watch) (retains : Retains watch action)
    (taken : step watch action = some next) : Kept next ∧ Released watch action next := by
  obtain ⟨page, stepped, rfl⟩ := Option.map_eq_some_iff.mp taken
  cases step_shown stepped with
  | other quiet active messages entries =>
      refine ⟨kept_same (told_same active (quiet_silent quiet)) fun id member => ?_,
        fun _ _ id member gone => absurd (entries id member) gone⟩
      rw [displayedIds, messages]
      exact kept id member
  | opens id active messages entries =>
      refine ⟨fun told member => ?_, entries_same entries⟩
      dsimp only at member
      split at member
      · rename_i same
        have nothing := retains (same.symm.trans active)
        rw [nothing] at member
        cases member
      · cases member
  | closes active messages entries =>
      refine ⟨fun told member => ?_, entries_same entries⟩
      dsimp only at member
      split at member
      · have silent : tells watch.page .back = [] := rfl
        rw [silent, List.append_nil] at member
        rw [displayedIds, messages]
        exact kept told member
      · cases member
  | replaces id list active messages entries =>
      refine ⟨kept_same (told_same active rfl) fun told member => ?_, entries_same entries⟩
      rw [displayedIds, messages, List.map_reverse, List.mem_reverse]
      exact retains told member
  | prepends id before list active messages entries =>
      refine ⟨kept_same (told_same active rfl) fun told member => ?_, entries_same entries⟩
      rw [displayedIds, messages, List.map_append]
      exact List.mem_append_right _ (kept told member)
  | receives incoming here active messages entries =>
      refine ⟨fun told member => ?_, entries_same entries⟩
      rw [displayedIds, messages, mem_once]
      dsimp only at member
      rw [if_pos active, tells, if_pos here, List.mem_append, List.mem_singleton] at member
      exact member.imp_left (kept told)
  | flags id active messages entries =>
      refine ⟨kept_same (told_same active rfl) fun told member => ?_, entries_same entries⟩
      rw [displayedIds, messages, flagged_ids]
      exact kept told member
  | confirms index sending message found active messages entries =>
      obtain ⟨stays, shown⟩ := confirmed_shown retains found messages
      refine ⟨fun told member => ?_, fun open_ _ id member gone => ?_⟩
      · dsimp only at member
        rw [if_pos active] at member
        rcases told_confirmed member with old | ⟨here, rfl⟩
        · exact stays told (kept told old)
        · exact shown (Or.inl here)
      · have same : sending.pending.clientMsgId = id := by
          by_contra other
          apply gone
          rw [entries]
          exact List.mem_filter.mpr ⟨member, bne_iff_ne.mpr (Ne.symm other)⟩
        refine ⟨index, sending, message, rfl, found, same, shown (Or.inr ⟨open_, ?_⟩)⟩
        rw [same]
        exact member

end Steps

/-- While a conversation stays open, its messages that an event brought or
whose send was reported stay displayed, and pending entries leave for displayed
messages only, exactly when the page is opened once, its first page contains
what came before it, and a manual retry is confirmed after its message is
displayed. -/
theorem messages_kept_iff (actions : List Action) (final : Watch)
    (conversations : List Conversation)
    (ran : run step { page := { conversations := conversations } } actions = some final) :
    (∀ visited action next, Takes step { page := { conversations := conversations } } actions
      visited action next → Kept next ∧ Released visited action next) ↔
      Meets step Retains { page := { conversations := conversations } } actions := by
  have silent : Kept { page := { conversations := conversations } } :=
    fun _ member => nomatch member
  apply takes_iff_meets (fun _ => True) Kept
    (fun visited action next => Kept next ∧ Released visited action next) (fun _ => True) ran
    (fun _ _ => trivial)
  case keeps => exact fun _ _ _ _ _ _ => trivial
  case needed => exact fun _ _ _ _ _ taken good => retains_of_kept taken good.1 good.2
  case sound =>
    intro state action next kept _ retains taken
    obtain ⟨after, released⟩ := kept_of_retains kept retains taken
    exact ⟨after, after, released⟩
  case base => trivial
  case holds => exact silent

/-- A send that is confirmed at once. -/
def sending : List Action :=
  [.openConversation 1, .opened 1 [], .send 7 "hi", .answered 0 (sampleMessage 7 1 1)]

theorem first_report_kept : ∃ final, run step { page := {} } sending = some final ∧
    ∀ visited action next, Takes step { page := {} } sending visited action next →
      Kept next ∧ Released visited action next := by
  obtain ⟨final, ran⟩ : ∃ final, run step { page := {} } sending = some final := ⟨_, rfl⟩
  refine ⟨final, ran, (messages_kept_iff sending final [] ran).mpr ?_⟩
  refine meets_cons rfl (fun _ => rfl) (meets_cons rfl (fun _ member => nomatch member)
    (meets_cons rfl trivial (meets_cons rfl ?_ trivial)))
  intro other found manual
  cases found
  cases manual

/-- A send that is refused, and whose manual retry is confirmed. -/
def retrying : List Action :=
  [.openConversation 1, .opened 1 [], .send 7 "hi", .refused 0 (some 403), .retry 7,
    .answered 0 (sampleMessage 7 1 1)]

/-- The entry is gone and its message is not displayed. -/
theorem retried_message_lost :
    ¬∀ (actions : List Action) (final : Watch) (conversations : List Conversation),
      run step { page := { conversations := conversations } } actions = some final →
      ∀ visited action next, Takes step { page := { conversations := conversations } } actions
        visited action next → Kept next ∧ Released visited action next := by
  intro claim
  obtain ⟨before, final, reached, taken, told, lost⟩ : ∃ before final,
      run step { page := {} } (retrying.take 5) = some before ∧
      step before (.answered 0 (sampleMessage 7 1 1)) = some final ∧ final.told = [7] ∧
      displayedIds final.page = [] := ⟨_, _, rfl, rfl, rfl, rfl⟩
  have ran : run step { page := {} } retrying = some final :=
    (run_append_iff _ _ (retrying.take 5) _).mpr ⟨before, reached, (run_single _ _ _).mpr taken⟩
  have kept := (claim retrying final [] ran before _ final
    ⟨retrying.take 5, [], rfl, reached, taken⟩).1 7 (by rw [told]; simp)
  rw [lost] at kept
  cases kept

end RunnerupChat.KeptMessages
