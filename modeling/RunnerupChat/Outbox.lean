import RunnerupChat.SendCalls
import RunnerupChat.EventOrder

/-!
`sendWithRetry` of the client's outbox, with `api` under it, against the
server. The network is free: a request reaches the server at any later time,
any number of times or not at all, and so does what comes back.
-/

namespace RunnerupChat.Outbox

open Accounts MessageStore UniqueKeys

def maxAttempts : Nat := 4

inductive SendState where
  | sending | sent | failed
  deriving DecidableEq

structure PendingMessage where
  clientMsgId : Uuid
  conversationId : Uuid
  body : String
  state : SendState
  attempts : Nat
  serverMessage : Option MessageOut

/-- A request on the wire, in the name of the account of its token. `call` is
the call of `sendWithRetry` that makes it. -/
structure Post where
  number : Nat
  call : Nat
  user : Uuid
  conversationId : Uuid
  clientMsgId : Uuid
  body : String
  deriving DecidableEq

/-- Where an attempt stands in `api`. -/
inductive Stage where
  | calling (retryOnAuthFailure : Bool)
  | requesting (post : Post) (retryOnAuthFailure : Bool)
  | refreshing
  | sleeping
  | settled

/-- A call of `sendWithRetry`. -/
structure Call where
  pending : PendingMessage
  attempt : Nat
  stage : Stage

structure World where
  server : State
  calls : List Call
  posts : List Post
  serving : TxId → Option Post
  responses : List (Post × MessageOut)
  /-- What `onStateChange` was given, each with the call that gives it. -/
  reports : List (Nat × PendingMessage)

inductive Action where
  | start (pending : PendingMessage)
  | fetch (call : Nat) (user : Uuid)
  | deliver (post : Post) (tx : TxId) (permissions : List Permission)
  | serve (action : MessageStore.Action)
  | respond (call : Nat) (message : MessageOut)
  | reject (call : Nat) (status : Option Nat)
  | refreshed (call : Nat) (ok : Bool)
  | wake (call : Nat)

section Machine
variable (searchMatches : String → String → Bool)

def initial : World :=
  { server := MessageStore.initial, calls := [], posts := [], serving := fun _ => none,
    responses := [], reports := [] }

def World.put (world : World) (index : Nat) (call : Call) : World :=
  { world with calls := world.calls.set index call }

def World.report (world : World) (index : Nat) (call : Call) (update : PendingMessage) : World :=
  { world.put index { call with stage := .settled } with reports := world.reports ++ [(index, update)] }

/-- The catch block. -/
def caught (world : World) (index : Nat) (call : Call) (status : Option Nat) : World :=
  let failed := { call.pending with state := .failed, attempts := call.attempt }
  -- a rejection on the merits is final, 429 is not one
  if status.any fun code => decide (400 ≤ code ∧ code < 500 ∧ code ≠ 429) then
    world.report index call failed
  else if call.attempt = maxAttempts then world.report index call failed
  else world.put index { call with stage := .sleeping }

def start (world : World) (pending : PendingMessage) : World :=
  { world with calls := world.calls ++ [⟨pending, 1, .calling true⟩] }

def fetch (world : World) (index : Nat) (user : Uuid) : Option World :=
  match world.calls[index]? with
  | some ⟨pending, attempt, .calling retryOnAuthFailure⟩ =>
      let post : Post := ⟨world.posts.length, index, user, pending.conversationId,
        pending.clientMsgId, pending.body⟩
      some { world.put index ⟨pending, attempt, .requesting post retryOnAuthFailure⟩ with
        posts := world.posts ++ [post] }
  | _ => none

def Post.request (post : Post) (permissions : List Permission) : Request :=
  .send ⟨post.user, post.conversationId, permissions⟩ (some post.clientMsgId) (some post.body)
    .text none []

def deliver (world : World) (post : Post) (tx : TxId) (permissions : List Permission) :
    Option World :=
  if post ∈ world.posts then
    (MessageStore.step searchMatches world.server (.receive tx (post.request permissions))).map
      fun server => { world with server := server, serving := assign world.serving tx (some post) }
  else none

/-- The responses to client requests among new entries of the journal. -/
def responsesTo (serving : TxId → Option Post) : List Entry → List (Post × MessageOut) :=
  List.filterMap fun entry =>
    match entry with
    | .answered tx (.sent message _) => (serving tx).map fun post => (post, serialize message [])
    | _ => none

/-- A request that the server takes by itself is another client's. -/
def servingAfter (serving : TxId → Option Post) : MessageStore.Action → TxId → Option Post
  | .receive tx _ => assign serving tx none
  | _ => serving

def serve (world : World) (action : MessageStore.Action) : Option World :=
  (MessageStore.step searchMatches world.server action).map fun server =>
    { world with
      server := server
      serving := servingAfter world.serving action
      responses := world.responses ++
        responsesTo world.serving (server.journal.drop world.server.journal.length) }

def respond (world : World) (index : Nat) (message : MessageOut) : Option World :=
  match world.calls[index]? with
  | some ⟨pending, attempt, .requesting post retryOnAuthFailure⟩ =>
      if (post, message) ∈ world.responses then
        some (world.report index ⟨pending, attempt, .requesting post retryOnAuthFailure⟩
          { pending with state := .sent, attempts := attempt, serverMessage := some message })
      else none
  | _ => none

/-- An error response, or none at all; the network may make up either. -/
def reject (world : World) (index : Nat) (status : Option Nat) : Option World :=
  match world.calls[index]? with
  | some ⟨pending, attempt, .requesting post retryOnAuthFailure⟩ =>
      if status = some 401 ∧ retryOnAuthFailure = true then
        some (world.put index ⟨pending, attempt, .refreshing⟩)
      else
        some (caught world index ⟨pending, attempt, .requesting post retryOnAuthFailure⟩ status)
  | _ => none

def refreshed (world : World) (index : Nat) (ok : Bool) : Option World :=
  match world.calls[index]? with
  | some ⟨pending, attempt, .refreshing⟩ =>
      if ok then some (world.put index ⟨pending, attempt, .calling false⟩)
      else some (caught world index ⟨pending, attempt, .refreshing⟩ (some 401))
  | _ => none

def wake (world : World) (index : Nat) : Option World :=
  match world.calls[index]? with
  | some ⟨pending, attempt, .sleeping⟩ =>
      some (world.put index ⟨pending, attempt + 1, .calling true⟩)
  | _ => none

def step (world : World) : Action → Option World
  | .start pending => some (start world pending)
  | .fetch call user => fetch world call user
  | .deliver post tx permissions => deliver searchMatches world post tx permissions
  | .serve action => serve searchMatches world action
  | .respond call message => respond world call message
  | .reject call status => reject world call status
  | .refreshed call ok => refreshed world call ok
  | .wake call => wake world call

end Machine

/-- The key that the server finds in the request. -/
def Post.key (post : Post) : SendKey := ⟨post.conversationId, post.user, post.clientMsgId⟩

/-- The object is the message stored under the key. -/
structure Confirms (server : State) (key : SendKey) (out : MessageOut) : Prop where
  stored : slotOf key server = some out.id
  conversation : out.conversationId = key.conversation
  sender : out.senderId = some key.sender
  clientMsgId : out.clientMsgId = key.clientMsgId

/-- The request is one of the call, with its conversation and its id. -/
structure Post.Of (post : Post) (posts : List Post) (index : Nat) (pending : PendingMessage) :
    Prop where
  posted : post ∈ posts
  call : post.call = index
  conversation : post.conversationId = pending.conversationId
  clientMsgId : post.clientMsgId = pending.clientMsgId

def Call.Ok (posts : List Post) (index : Nat) (call : Call) : Prop :=
  match call.stage with
  | .requesting post _ => post.Of posts index call.pending
  | .calling _ | .refreshing | .sleeping | .settled => True

/-- A report of a sent message carries what is stored for a request of the
call, under the account of that request. -/
def PendingMessage.Ok (server : State) (posts : List Post) (index : Nat)
    (report : PendingMessage) : Prop :=
  report.state = .sent → ∃ post : Post, post.Of posts index report ∧
    ∃ out, report.serverMessage = some out ∧ Confirms server post.key out

structure Inv (world : World) : Prop where
  server : MessageStore.Inv world.server
  keyed : Keyed world.server
  serving : ∀ tx post key, world.serving tx = some post → callOf world.server tx = some key →
    key = post.key
  responses : ∀ post out, (post, out) ∈ world.responses → Confirms world.server post.key out
  calls : ∀ (index : Nat) (call : Call), world.calls[index]? = some call → call.Ok world.posts index
  reports : ∀ (index : Nat) (report : PendingMessage), (index, report) ∈ world.reports →
    report.Ok world.server world.posts index

section Invariant
variable {searchMatches : String → String → Bool} {world next : World}

theorem initial_inv : Inv initial where
  server := MessageStore.initial_inv
  keyed := initial_keyed
  serving := by rintro tx post key ⟨⟩
  responses := by rintro post out ⟨⟩
  calls := by rintro index call ⟨⟩
  reports := by rintro index report ⟨⟩

theorem put_calls (inv : Inv world) {index : Nat} {call : Call} (ok : call.Ok world.posts index) :
    ∀ (other : Nat) (found : Call), (world.calls.set index call)[other]? = some found →
      found.Ok world.posts other := by
  intro other found listed
  rcases Runs.moved_cases listed with ⟨rfl, rfl⟩ | ⟨_, old⟩
  · exact ok
  · exact inv.calls other found old

theorem put_inv (inv : Inv world) {index : Nat} {call : Call} (ok : call.Ok world.posts index) :
    Inv (world.put index call) :=
  { inv with calls := put_calls inv ok }

theorem report_inv (inv : Inv world) (index : Nat) (call : Call) {update : PendingMessage}
    (ok : update.Ok world.server world.posts index) : Inv (world.report index call update) :=
  { inv with
    calls := put_calls inv trivial
    reports := by
      intro other report member
      rcases List.mem_append.mp member with old | new
      · exact inv.reports other report old
      · cases List.mem_singleton.mp new
        exact ok }

/-- More requests on the wire take none back. -/
theorem Post.Of.later {post : Post} {posts later : List Post} {index : Nat}
    {pending : PendingMessage} (made : post.Of posts index pending) (more : posts ⊆ later) :
    post.Of later index pending :=
  { made with posted := more made.posted }

/-- A request goes on the wire. -/
theorem posted_inv (inv : Inv world) {index : Nat} {call : Call} (post : Post)
    (ok : call.Ok (world.posts ++ [post]) index) :
    Inv { world.put index call with posts := world.posts ++ [post] } := by
  refine { inv with
    calls := fun other found listed => ?_
    reports := fun other report member sent => ?_ }
  · rcases Runs.moved_cases listed with ⟨rfl, rfl⟩ | ⟨_, old⟩
    · exact ok
    · have before := inv.calls other found old
      unfold Call.Ok at before ⊢
      split at before
      · exact before.later (List.subset_append_left _ _)
      all_goals trivial
  · obtain ⟨made, of, carried⟩ := inv.reports other report member sent
    exact ⟨made, of.later (List.subset_append_left _ _), carried⟩

theorem caught_inv (inv : Inv world) (index : Nat) (call : Call) (status : Option Nat) :
    Inv (caught world index call status) := by
  have failed : PendingMessage.Ok world.server world.posts index
      { call.pending with state := .failed, attempts := call.attempt } := by rintro ⟨⟩
  unfold caught
  dsimp only
  split
  · exact report_inv inv index call failed
  · split
    · exact report_inv inv index call failed
    · exact put_inv inv trivial

theorem confirms_step {action : MessageStore.Action} {server : State} (inv : Inv world)
    (taken : MessageStore.step searchMatches world.server action = some server) {key : SendKey}
    {out : MessageOut} (confirms : Confirms world.server key out) : Confirms server key out :=
  { confirms with stored := step_slot inv.server inv.keyed taken confirms.stored }

/-- The parts of the client after a step of the server. -/
theorem server_reports {action : MessageStore.Action} {server : State} (inv : Inv world)
    (taken : MessageStore.step searchMatches world.server action = some server) :
    ∀ (index : Nat) (report : PendingMessage), (index, report) ∈ world.reports →
      report.Ok server world.posts index := by
  intro index report member sent
  obtain ⟨post, of, out, carried, confirms⟩ := inv.reports index report member sent
  exact ⟨post, of, out, carried, confirms_step inv taken confirms⟩

theorem new_response {action : MessageStore.Action} {server : State} (inv : Inv world)
    (taken : MessageStore.step searchMatches world.server action = some server) {post : Post}
    {out : MessageOut} (told : (post, out) ∈ responsesTo world.serving
      (server.journal.drop world.server.journal.length)) : Confirms server post.key out := by
  obtain ⟨entry, member, answer⟩ := List.mem_filterMap.mp told
  split at answer
  · rename_i tx message created
    obtain ⟨served, here, same⟩ := Option.map_eq_some_iff.mp answer
    obtain ⟨rfl, rfl⟩ := Prod.mk.inj same
    obtain ⟨key, called, named, stored⟩ := sent_stored inv.server inv.keyed taken member
    obtain rfl := inv.serving tx served key here called
    obtain ⟨sender, sent, keyed⟩ := Option.map_eq_some_iff.mp named
    obtain ⟨inside, rfl, id⟩ := SendKey.mk.inj keyed
    exact ⟨stored, inside, sent, id⟩
  · cases answer

/-- An open call of the server was open before, or is received now. -/
theorem call_before {action : MessageStore.Action} {server : State} (inv : Inv world)
    (taken : MessageStore.step searchMatches world.server action = some server) {tx : TxId}
    {key : SendKey} (called : callOf server tx = some key) :
    callOf world.server tx = some key ∨
      ∃ request, action = .receive tx request ∧ request.key = some key := by
  obtain ⟨transaction, opened, held⟩ := Option.bind_eq_some_iff.mp called
  rcases lasting_before key_lasting (step_effect inv.server.phases taken) opened held with
    ⟨before, earlier, same⟩ | ⟨request, asked, _, named⟩
  · left
    rw [callOf, earlier]
    exact same
  · exact Or.inr ⟨request, asked, named⟩

theorem serve_inv {action : MessageStore.Action} (inv : Inv world)
    (taken : serve searchMatches world action = some next) : Inv next := by
  obtain ⟨server, stepped, rfl⟩ := Option.map_eq_some_iff.mp taken
  have reports := server_reports inv stepped
  constructor
  case server => exact step_inv world.server action server inv.server stepped
  case keyed => exact step_keyed inv.server inv.keyed stepped
  case calls => exact inv.calls
  case reports => exact reports
  case responses =>
    intro post out member
    rcases List.mem_append.mp member with old | new
    · exact confirms_step inv stepped (inv.responses post out old)
    · exact new_response inv stepped new
  case serving =>
    intro tx post key here called
    have kept : world.serving tx = some post := by
      cases action with
      | receive other request =>
          obtain ⟨_, old⟩ := assign_none_kept here
          exact old
      | _ => exact here
    rcases call_before inv stepped called with earlier | ⟨request, rfl, named⟩
    · exact inv.serving tx post key kept earlier
    · have dropped : assign world.serving tx none tx = some post := here
      rw [assign_same] at dropped
      cases dropped

theorem deliver_inv {post : Post} {tx : TxId} {permissions : List Permission} (inv : Inv world)
    (taken : deliver searchMatches world post tx permissions = some next) : Inv next := by
  unfold deliver at taken
  split at taken
  case isFalse => cases taken
  obtain ⟨server, stepped, rfl⟩ := Option.map_eq_some_iff.mp taken
  have reports := server_reports inv stepped
  constructor
  case server => exact step_inv world.server _ server inv.server stepped
  case keyed => exact step_keyed inv.server inv.keyed stepped
  case calls => exact inv.calls
  case reports => exact reports
  case responses =>
    intro post out member
    exact confirms_step inv stepped (inv.responses post out member)
  case serving =>
    intro other served key here called
    rcases call_before inv stepped called with earlier | ⟨request, asked, named⟩
    · rcases assign_cases here with ⟨rfl, _⟩ | ⟨_, old⟩
      · -- a transaction that is received was not open
        rw [callOf, receive_vacant stepped] at earlier
        cases earlier
      · exact inv.serving other served key old earlier
    · cases asked
      have now : assign world.serving tx (some post) tx = some served := here
      rw [assign_same] at now
      obtain rfl := Option.some.inj now
      exact (Option.some.inj named).symm

theorem step_inv (world : World) (action : Action) (next : World) (inv : Inv world)
    (taken : step searchMatches world action = some next) : Inv next := by
  cases action with
  | start pending =>
      cases taken
      refine { inv with calls := fun index call listed => ?_ }
      rcases Runs.added_cases listed with old | ⟨_, rfl⟩
      · exact inv.calls index call old
      · trivial
  | fetch index user =>
      simp only [step, fetch] at taken
      split at taken
      · cases taken
        exact posted_inv inv _ ⟨List.mem_append_right _ List.mem_cons_self, rfl, rfl, rfl⟩
      · cases taken
  | deliver post tx permissions => exact deliver_inv inv taken
  | serve action => exact serve_inv inv taken
  | respond index message =>
      simp only [step, respond] at taken
      split at taken
      · rename_i pending attempt post retry found
        split at taken
        · rename_i answered
          cases taken
          have of : post.Of world.posts index pending := inv.calls index _ found
          apply report_inv inv
          intro _
          exact ⟨post, { of with }, message, rfl, inv.responses post message answered⟩
        · cases taken
      · cases taken
  | reject index status =>
      simp only [step, reject] at taken
      split at taken
      · split at taken
        · cases taken
          exact put_inv inv trivial
        · cases taken
          exact caught_inv inv index _ status
      · cases taken
  | refreshed index ok =>
      simp only [step, refreshed] at taken
      split at taken
      · split at taken
        · cases taken
          exact put_inv inv trivial
        · cases taken
          exact caught_inv inv index _ _
      · cases taken
  | wake index =>
      simp only [step, wake] at taken
      split at taken
      · cases taken
        exact put_inv inv trivial
      · cases taken

end Invariant

/-- The messages that the server has under a key. -/
def stored (server : State) (key : SendKey) : List Message :=
  server.messages.filter fun row => row.key == some key

theorem stored_slot {server : State} (keyed : Keyed server) (key : SendKey) :
    (stored server key).map Message.id = (slotOf key server).toList := by
  rw [stored, filter_unique Message.key keyed.distinct, slotOf]
  cases server.messages.find? fun row => row.key == some key <;> rfl

/-- The server never stores two messages for one key, and a message that is
reported as sent is the one stored for a request of that call, under the
account that the request was made in the name of. -/
theorem outbox_sends_once (searchMatches : String → String → Bool) (actions : List Action)
    (world : World) (ran : Runs.run (step searchMatches) initial actions = some world) :
    (∀ key, (stored world.server key).length ≤ 1) ∧
      ∀ index report, (index, report) ∈ world.reports → report.state = .sent →
        ∃ post ∈ world.posts, post.call = index ∧ post.conversationId = report.conversationId ∧
          post.clientMsgId = report.clientMsgId ∧
          ∃ message out, stored world.server post.key = [message] ∧
            report.serverMessage = some out ∧ out.id = message.id ∧
            out.conversationId = post.conversationId ∧ out.senderId = some post.user ∧
            out.clientMsgId = post.clientMsgId := by
  have inv := Runs.run_invariant Inv step_inv ran initial_inv
  constructor
  · intro key
    have one := congrArg List.length (stored_slot inv.keyed key)
    rw [List.length_map] at one
    rw [one]
    exact Option.length_toList_le
  · intro index report member sent
    obtain ⟨post, of, out, carried, confirms⟩ := inv.reports index report member sent
    have one := stored_slot inv.keyed post.key
    rw [confirms.stored] at one
    obtain ⟨message, found, named⟩ := List.map_eq_singleton_iff.mp one
    exact ⟨post, of.posted, of.call, of.conversation, of.clientMsgId, message, out, found, carried,
      named.symm, confirms.conversation, confirms.sender, confirms.clientMsgId⟩

def greeting : PendingMessage := ⟨30, 1, "hello", .sending, 0, none⟩

def greetingPost (number : Nat) : Post := ⟨number, 0, 7, 1, 30, "hello"⟩

def greetingOut : MessageOut :=
  ⟨10, 1, 1, some 7, .text, some "hello", 30, none, none, false, 0, []⟩

/-- The first request commits and its response is lost; the second returns it. -/
def lostResponse : List Action :=
  [.serve (.addConversation 1), .start greeting, .fetch 0 7,
    .deliver (greetingPost 0) 1 everything] ++
  ([.examine 1, .enforceBudget 1 0, .enforceBudget 1 0, .proceed 1, .selectAttachments 1,
    .allocateSeq 1, .flush 1 10, .logEvent 1, .commit 1].map Action.serve) ++
  [.reject 0 none, .wake 0, .fetch 0 7, .deliver (greetingPost 1) 2 everything,
    .serve (.examine 2), .respond 0 greetingOut]

set_option maxRecDepth 4000 in
theorem lost_response_sends_once : ∃ world post message,
    Runs.run (step sameText) initial lostResponse = some world ∧
      world.reports.map (fun told => told.2.state) = [.sent] ∧ post ∈ world.posts ∧
      post.call = 0 ∧ post.user = 7 ∧ stored world.server post.key = [message] ∧
      message.id = 10 := by
  obtain ⟨world, report, ran, reports, sent, carried⟩ : ∃ world report,
      Runs.run (step sameText) initial lostResponse = some world ∧
        world.reports = [(0, report)] ∧ report.state = .sent ∧
        report.serverMessage = some greetingOut :=
    ⟨_, _, rfl, rfl, rfl, rfl⟩
  obtain ⟨post, posted, call, _, _, message, out, found, same, id, _, user, _⟩ :=
    (outbox_sends_once sameText lostResponse world ran).2 0 report (by rw [reports]; simp) sent
  obtain rfl := Option.some.inj (carried.symm.trans same)
  refine ⟨world, post, message, ran, by rw [reports, List.map_singleton, sent], posted, call, ?_,
    found, id.symm⟩
  exact (Option.some.inj user).symm

end RunnerupChat.Outbox
