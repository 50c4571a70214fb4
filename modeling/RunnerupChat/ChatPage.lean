import RunnerupChat.Outbox
import RunnerupChat.Runs

/-!
`ChatPage` of `app/chat/page.tsx` with the sends of `lib/outbox.ts`. An event
runs to its end before the next one, and the page is rendered in between, so
the callbacks read the state as it is. What was asked of the server is
answered at any later time, in any order, or not at all.
-/

namespace RunnerupChat.ChatPage

open Accounts (Uuid)
open MessageStore (MessageOut)
open Outbox (PendingMessage SendState maxAttempts)

/-- What the page changes of a `Conversation`. -/
structure Conversation where
  id : Uuid
  lastSeq : Nat
  unread : Nat
  deriving DecidableEq

/-- A `sendWithRetry` that runs. A `manual` one was started by `retry` and
reports to the callback given there. -/
structure Sending where
  pending : PendingMessage
  attempt : Nat
  manual : Bool
  sleeping : Bool

/-- The state of the component, and the calls that it waits for: those of
`chat.messages` made by `openConversation` and by `loadOlder`, and those of
`chat.markRead`. -/
structure State where
  activeId : Option Uuid := none
  conversations : List Conversation := []
  messages : List MessageOut := []
  pending : List PendingMessage := []
  opening : List Uuid := []
  older : List (Uuid × Nat) := []
  marking : List Uuid := []
  sends : List Sending := []

inductive Action where
  | openConversation (id : Uuid)
  /-- The page that opening asked for, newest message first. -/
  | opened (id : Uuid) (page : List MessageOut)
  | marked (id : Uuid)
  /-- The button `Back`. -/
  | back
  | loadOlder
  | loadedOlder (id : Uuid) (before : Nat) (page : List MessageOut)
  /-- The socket events `message.created` and `message.deleted`. -/
  | created (incoming : MessageOut)
  | deleted (id : Uuid)
  | send (clientMsgId : Uuid) (body : String)
  | retry (clientMsgId : Uuid)
  /-- What comes of the request that a `sendWithRetry` waits for. -/
  | answered (index : Nat) (message : MessageOut)
  | refused (index : Nat) (status : Option Nat)
  | woken (index : Nat)

def addOnce (current : List MessageOut) (incoming : MessageOut) : List MessageOut :=
  if current.any fun message => message.id == incoming.id then current else current ++ [incoming]

def markDeleted (current : List MessageOut) (id : Uuid) : List MessageOut :=
  current.map fun message =>
    if message.id = id then { message with deleted := true, body := none } else message

def without (pending : List PendingMessage) (clientMsgId : Uuid) : List PendingMessage :=
  pending.filter fun entry => entry.clientMsgId != clientMsgId

def updated (pending : List PendingMessage) (update : PendingMessage) : List PendingMessage :=
  pending.map fun entry => if entry.clientMsgId = update.clientMsgId then update else entry

namespace State

def openConversation (state : State) (id : Uuid) : State :=
  { state with activeId := some id, messages := [], opening := state.opening ++ [id] }

def opened (state : State) (id : Uuid) (page : List MessageOut) : Option State :=
  if id ∈ state.opening then
    some { state with
      messages := page.reverse
      opening := state.opening.erase id
      -- an empty page marks nothing as read
      marking := if page = [] then state.marking else state.marking ++ [id] }
  else none

def marked (state : State) (id : Uuid) : Option State :=
  if id ∈ state.marking then
    some { state with
      marking := state.marking.erase id
      conversations := state.conversations.map fun conversation =>
        if conversation.id = id then { conversation with unread := 0 } else conversation }
  else none

def loadOlder (state : State) : State :=
  match state.activeId, state.messages with
  | some id, oldest :: _ => { state with older := state.older ++ [(id, oldest.seq)] }
  | _, _ => state

def loadedOlder (state : State) (id : Uuid) (before : Nat) (page : List MessageOut) :
    Option State :=
  if (id, before) ∈ state.older then
    some { state with
      messages := page.reverse ++ state.messages
      older := state.older.erase (id, before) }
  else none

def created (state : State) (incoming : MessageOut) : State :=
  if some incoming.conversationId ≠ state.activeId then
    { state with
      conversations := state.conversations.map fun conversation =>
        if conversation.id = incoming.conversationId then
          { conversation with unread := conversation.unread + 1, lastSeq := incoming.seq }
        else conversation }
  else { state with messages := addOnce state.messages incoming }

/-- The callback that `send` gives to `sendWithRetry`. -/
def firstReport (state : State) (update : PendingMessage) : State :=
  match update.state, update.serverMessage with
  | .sent, some confirmed =>
      { state with
        pending := without state.pending update.clientMsgId
        messages := addOnce state.messages confirmed }
  | _, _ => { state with pending := ChatPage.updated state.pending update }

/-- The callback that `retry` gives to it. -/
def manualReport (state : State) (update : PendingMessage) : State :=
  { state with
    pending :=
      if update.state = .sent then without state.pending update.clientMsgId
      else ChatPage.updated state.pending update }

def onStateChange (state : State) (manual : Bool) (update : PendingMessage) : State :=
  if manual then state.manualReport update else state.firstReport update

def send (state : State) (clientMsgId : Uuid) (body : String) : State :=
  match state.activeId with
  | none => state
  | some id =>
      let entry : PendingMessage :=
        { clientMsgId := clientMsgId, conversationId := id, body := body, state := .sending,
          attempts := 0, serverMessage := none }
      { state with
        pending := state.pending ++ [entry]
        sends := state.sends ++ [⟨entry, 1, false, false⟩] }

def retry (state : State) (clientMsgId : Uuid) : State :=
  { state with
    -- the same id again: the server answers with the message it has stored
    sends := state.sends ++
      ((state.pending.find? fun entry => entry.clientMsgId == clientMsgId).toList.map
        fun entry => ⟨{ entry with state := .sending }, 1, true, false⟩)
    pending := state.pending.map fun entry =>
      if entry.clientMsgId = clientMsgId then { entry with state := .sending } else entry }

/-- The call ends with a report. -/
def report (state : State) (index : Nat) (sending : Sending) (update : PendingMessage) : State :=
  { state with sends := state.sends.eraseIdx index }.onStateChange sending.manual update

def answered (state : State) (index : Nat) (message : MessageOut) : Option State :=
  match state.sends[index]? with
  | some sending =>
      if sending.sleeping then none
      else some (state.report index sending
        { sending.pending with
          state := .sent, attempts := sending.attempt, serverMessage := some message })
  | none => none

def refused (state : State) (index : Nat) (status : Option Nat) : Option State :=
  match state.sends[index]? with
  | some sending =>
      let failed := { sending.pending with state := .failed, attempts := sending.attempt }
      if sending.sleeping then none
      -- a rejection on the merits is final, 429 is not one
      else if status.any fun code => decide (400 ≤ code ∧ code < 500 ∧ code ≠ 429) then
        some (state.report index sending failed)
      else if sending.attempt = maxAttempts then some (state.report index sending failed)
      else some { state with sends := state.sends.set index { sending with sleeping := true } }
  | none => none

def woken (state : State) (index : Nat) : Option State :=
  match state.sends[index]? with
  | some sending =>
      if sending.sleeping then
        some { state with
          sends := state.sends.set index
            { sending with attempt := sending.attempt + 1, sleeping := false } }
      else none
  | none => none

end State

def step (state : State) : Action → Option State
  | .openConversation id => some (state.openConversation id)
  | .opened id page => state.opened id page
  | .marked id => state.marked id
  | .back => some { state with activeId := none }
  | .loadOlder => some state.loadOlder
  | .loadedOlder id before page => state.loadedOlder id before page
  | .created incoming => some (state.created incoming)
  | .deleted id => some { state with messages := markDeleted state.messages id }
  | .send clientMsgId body => some (state.send clientMsgId body)
  | .retry clientMsgId => some (state.retry clientMsgId)
  | .answered index message => state.answered index message
  | .refused index status => state.refused index status
  | .woken index => state.woken index

/-- The actions that leave the displayed list alone. -/
def Quiet (state : State) : Action → Prop
  | .marked _ | .loadOlder | .send _ _ | .retry _ | .refused _ _ | .woken _ => True
  | .created incoming => some incoming.conversationId ≠ state.activeId
  | .openConversation _ | .opened _ _ | .back | .loadedOlder _ _ _ | .deleted _
  | .answered _ _ => False

/-- The ids of the pending messages. -/
def State.entries (state : State) : List Uuid := state.pending.map PendingMessage.clientMsgId

/-- What a step does to the conversation that is open, to its messages and to
the ids of the pending ones. -/
inductive Shown (state next : State) : Action → Prop where
  | other {action : Action} (quiet : Quiet state action) (active : next.activeId = state.activeId)
      (messages : next.messages = state.messages)
      (entries : ∀ id ∈ state.entries, id ∈ next.entries) : Shown state next action
  | opens (id : Uuid) (active : next.activeId = some id) (messages : next.messages = [])
      (entries : next.entries = state.entries) : Shown state next (.openConversation id)
  | closes (active : next.activeId = none) (messages : next.messages = state.messages)
      (entries : next.entries = state.entries) : Shown state next .back
  | replaces (id : Uuid) (page : List MessageOut) (active : next.activeId = state.activeId)
      (messages : next.messages = page.reverse) (entries : next.entries = state.entries) :
      Shown state next (.opened id page)
  | prepends (id : Uuid) (before : Nat) (page : List MessageOut)
      (active : next.activeId = state.activeId)
      (messages : next.messages = page.reverse ++ state.messages)
      (entries : next.entries = state.entries) : Shown state next (.loadedOlder id before page)
  | receives (incoming : MessageOut) (here : state.activeId = some incoming.conversationId)
      (active : next.activeId = state.activeId)
      (messages : next.messages = addOnce state.messages incoming)
      (entries : next.entries = state.entries) : Shown state next (.created incoming)
  | flags (id : Uuid) (active : next.activeId = state.activeId)
      (messages : next.messages = markDeleted state.messages id)
      (entries : next.entries = state.entries) : Shown state next (.deleted id)
  | confirms (index : Nat) (sending : Sending) (message : MessageOut)
      (found : state.sends[index]? = some sending) (active : next.activeId = state.activeId)
      (messages : next.messages =
        if sending.manual then state.messages else addOnce state.messages message)
      (entries : next.entries =
        state.entries.filter fun id => id != sending.pending.clientMsgId) :
      Shown state next (.answered index message)

section Steps
variable {state next : State}

theorem updated_entries (pending : List PendingMessage) (update : PendingMessage) :
    (updated pending update).map PendingMessage.clientMsgId =
      pending.map PendingMessage.clientMsgId := by
  rw [updated, List.map_map]
  apply List.map_congr_left
  intro entry _
  by_cases same : entry.clientMsgId = update.clientMsgId
  · simp [same]
  · simp [same]

theorem without_entries (pending : List PendingMessage) (clientMsgId : Uuid) :
    (without pending clientMsgId).map PendingMessage.clientMsgId =
      (pending.map PendingMessage.clientMsgId).filter fun id => id != clientMsgId := by
  rw [without, List.filter_map]
  rfl

/-- A failed send leaves the messages, and its entry among the pending ones. -/
theorem failed_shown {action : Action} (quiet : Quiet state action) (index : Nat)
    (sending : Sending) (update : PendingMessage) (failed : update.state = .failed) :
    Shown state (state.report index sending update) action := by
  have report : (state.report index sending update).activeId = state.activeId ∧
      (state.report index sending update).messages = state.messages ∧
      (state.report index sending update).pending = updated state.pending update := by
    cases manual : sending.manual with
    | false => simp [State.report, State.onStateChange, State.firstReport, manual, failed]
    | true => simp [State.report, State.onStateChange, State.manualReport, manual, failed]
  refine .other quiet report.1 report.2.1 fun id member => ?_
  rw [State.entries, report.2.2, updated_entries]
  exact member

theorem answered_shown {index : Nat} {message : MessageOut}
    (taken : state.answered index message = some next) :
    Shown state next (.answered index message) := by
  rw [State.answered] at taken
  split at taken
  · rename_i sending found
    split at taken
    · cases taken
    · cases taken
      cases manual : sending.manual with
      | false =>
          refine .confirms index sending message found ?_ ?_ ?_
          · simp [State.report, State.onStateChange, State.firstReport, manual]
          · simp [State.report, State.onStateChange, State.firstReport, manual]
          · simp [State.report, State.onStateChange, State.firstReport, manual, State.entries,
              without_entries]
      | true =>
          refine .confirms index sending message found ?_ ?_ ?_
          · simp [State.report, State.onStateChange, State.manualReport, manual]
          · simp [State.report, State.onStateChange, State.manualReport, manual]
          · simp [State.report, State.onStateChange, State.manualReport, manual, State.entries,
              without_entries]
  · cases taken

theorem refused_shown {index : Nat} {status : Option Nat}
    (taken : state.refused index status = some next) :
    Shown state next (.refused index status) := by
  have quiet : Quiet state (.refused index status) := trivial
  rw [State.refused] at taken
  split at taken
  · rename_i sending found
    simp only at taken
    split at taken
    · cases taken
    · split at taken
      · cases taken
        exact failed_shown quiet index sending _ rfl
      · split at taken
        · cases taken
          exact failed_shown quiet index sending _ rfl
        · cases taken
          exact .other trivial rfl rfl fun id member => member
  · cases taken

theorem step_shown {action : Action} (taken : step state action = some next) :
    Shown state next action := by
  cases action with
  | openConversation id =>
      cases taken
      exact .opens id rfl rfl rfl
  | opened id page =>
      simp only [step, State.opened] at taken
      split at taken
      · cases taken
        exact .replaces id page rfl rfl rfl
      · cases taken
  | marked id =>
      simp only [step, State.marked] at taken
      split at taken
      · cases taken
        exact .other trivial rfl rfl fun id member => member
      · cases taken
  | back =>
      cases taken
      exact .closes rfl rfl rfl
  | loadOlder =>
      cases taken
      rw [State.loadOlder]
      split
      · exact .other trivial rfl rfl fun id member => member
      · exact .other trivial rfl rfl fun id member => member
  | loadedOlder id before page =>
      simp only [step, State.loadedOlder] at taken
      split at taken
      · cases taken
        exact .prepends id before page rfl rfl rfl
      · cases taken
  | created incoming =>
      cases taken
      rw [State.created]
      split
      · rename_i elsewhere
        exact .other elsewhere rfl rfl fun id member => member
      · rename_i here
        exact .receives incoming (not_not.mp here).symm rfl rfl rfl
  | deleted id =>
      cases taken
      exact .flags id rfl rfl rfl
  | send clientMsgId body =>
      cases taken
      rw [State.send]
      split
      · exact .other trivial rfl rfl fun id member => member
      · refine .other trivial rfl rfl fun id member => ?_
        rw [State.entries, List.map_append]
        exact List.mem_append_left _ member
  | retry clientMsgId =>
      cases taken
      refine .other trivial rfl rfl fun id member => ?_
      obtain ⟨entry, listed, rfl⟩ := List.mem_map.mp member
      rw [State.entries, State.retry, List.map_map]
      refine List.mem_map.mpr ⟨entry, listed, ?_⟩
      by_cases same : entry.clientMsgId = clientMsgId
      · simp [same]
      · simp [same]
  | answered index message => exact answered_shown taken
  | refused index status => exact refused_shown taken
  | woken index =>
      simp only [step, State.woken] at taken
      split at taken
      · split at taken
        · cases taken
          exact .other trivial rfl rfl fun id member => member
        · cases taken
      · cases taken

end Steps

end RunnerupChat.ChatPage
