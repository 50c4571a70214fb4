import RunnerupChat.ContentReads

/-!
The routes that take the id of a conversation, a message or an attachment,
each up to the access it is granted: `api/v1/conversations.py`, `uploads.py`
and `create_report`. A refused caller cannot tell an id that exists from one
that does not, exactly as long as the account check comes before the lookup.
-/

namespace RunnerupChat.Routes

open Accounts Authz RateLimit UniqueKeys
open MessageStore (Message ConversationEvent)

/-- What the routes do with an access that was granted. -/
structure Services (Digest Answer : Type) where
  listMessages : Access Digest → Except AppError Answer
  sendMessage : Access Digest → Except AppError Answer
  markRead : Access Digest → Except AppError Answer
  createInvite : Access Digest → Except AppError Answer
  requestUpload : Access Digest → Except AppError Answer
  editMessage : Message → Access Digest → Except AppError Answer
  deleteMessage : Message → Access Digest → Except AppError Answer
  toggleReaction : Message → Access Digest → Except AppError Answer
  signedDownloadUrl : String → String → String
  downloaded : DownloadOut → Answer
  reportMessage : Message → Except AppError Answer
  reportConversation : Authz.Conversation → Except AppError Answer

inductive Route where
  | listMessages | sendMessage | markRead | createInvite | requestUpload
  | editMessage | deleteMessage | toggleReaction
  | downloadUrl
  | reportMessage (reason : String) | reportConversation (reason : String)

/-- What the id of a route is the id of. -/
inductive Subject where
  | conversation | message | attachment
  deriving DecidableEq

def Route.subject : Route → Subject
  | .listMessages | .sendMessage | .markRead | .createInvite | .requestUpload
  | .reportConversation _ => .conversation
  | .editMessage | .deleteMessage | .toggleReaction | .reportMessage _ => .message
  | .downloadUrl => .attachment

def reasons : List String :=
  ["SPAM", "HARASSMENT", "SCAM", "ABUSE", "ILLEGAL_CONTENT", "IMPERSONATION", "OTHER"]

section Handlers
variable {Digest Answer : Type} (parseUuid : String → Option Uuid) (tables : Tables Digest)
  (user : User Digest) (now : Time)

def uuid (text field : String) : Except AppError Uuid :=
  match parseUuid text with
  | none => .error (.validationFailed ("invalid_" ++ field))
  | some id => .ok id

def onConversation (next : Access Digest → Except AppError Answer) (text field : String) :
    Except AppError Answer := do
  let id ← uuid parseUuid text field
  let access ← resolveAccess tables user now id
  next access

def onMessage (next : Message → Access Digest → Except AppError Answer) (text field : String) :
    Except AppError Answer := do
  let id ← uuid parseUuid text field
  let (message, access) ← resolveMessageAccess tables user now id
  next message access

/-- The checks of `create_report` before it looks at its subject. -/
def screenReport (limiter : Store) (nowMs : Nat) (reason : String) : Except AppError Unit :=
  if reason ∈ reasons then (enforceLimit limiter .reportCreateUser (toString user.id) nowMs).1
  else .error (.validationFailed "invalid_reason")

def respond (services : Services Digest Answer) (limiter : Store) (nowMs : Nat) (route : Route)
    (text : String) : Except AppError Answer :=
  match route with
  | .listMessages => onConversation parseUuid tables user now services.listMessages text "conversation"
  | .sendMessage => onConversation parseUuid tables user now services.sendMessage text "conversation"
  | .markRead => onConversation parseUuid tables user now services.markRead text "conversation"
  | .createInvite => onConversation parseUuid tables user now services.createInvite text "conversation"
  | .requestUpload =>
      onConversation parseUuid tables user now services.requestUpload text "conversation"
  | .editMessage => onMessage parseUuid tables user now services.editMessage text "message"
  | .deleteMessage => onMessage parseUuid tables user now services.deleteMessage text "message"
  | .toggleReaction => onMessage parseUuid tables user now services.toggleReaction text "message"
  | .downloadUrl =>
      (downloadUrl services.signedDownloadUrl tables user now (parseUuid text)).map
        services.downloaded
  | .reportMessage reason => do
      screenReport user limiter nowMs reason
      onMessage parseUuid tables user now (fun message _ => services.reportMessage message) text
        "subject"
  | .reportConversation reason => do
      screenReport user limiter nowMs reason
      onConversation parseUuid tables user now
        (fun access => services.reportConversation access.conversation) text "subject"

/-- The id is of the conversation, of a message of it, or of a ready
attachment of it, whichever the route takes. -/
def Names (conversation : Uuid) (route : Route) (text : String) : Prop :=
  ∃ id, parseUuid text = some id ∧
    match route.subject with
    | .conversation => id = conversation
    | .message => ∃ message ∈ tables.messages, message.id = id ∧
        message.conversationId = conversation
    | .attachment => ∃ row ∈ tables.attachments, row.id = id ∧
        row.conversationId = some conversation ∧ row.state = .ready

/-- A well-formed id that is no row's. -/
def NamesNothing (text : String) : Prop :=
  ∃ id, parseUuid text = some id ∧ id ∉ tables.conversationIds ∧
    (∀ message ∈ tables.messages, message.id ≠ id) ∧ ∀ row ∈ tables.attachments, row.id ≠ id

/-- A report that is refused before its subject is looked up. -/
def ScreenedOut (limiter : Store) (nowMs : Nat) (route : Route) : Prop :=
  match route with
  | .reportMessage reason | .reportConversation reason =>
      ∃ error, screenReport user limiter nowMs reason = .error error
  | _ => False

end Handlers

section Refusals
variable {Digest Answer : Type} {parseUuid : String → Option Uuid} {tables : Tables Digest}
  {user : User Digest} {now : Time} {limiter : Store} {nowMs : Nat}
  {services : Services Digest Answer}

/-- The one error of `resolve_access`. -/
def refusal (user : User Digest) : AppError :=
  if user.isUsable then .notVisible "not_found" else .accountUnavailable "account_unavailable"

/-- The error for an id that names nothing: a message and an attachment are
looked up before the account is. -/
def missing (user : User Digest) : Subject → AppError
  | .conversation => refusal user
  | .message | .attachment => .notVisible "not_found"

theorem resolve_error {id : Uuid} {error : AppError}
    (refused : resolveAccess tables user now id = .error error) : error = refusal user := by
  unfold refusal
  cases usable : user.isUsable with
  | true => exact resolve_refused usable refused
  | false =>
      rw [resolve_unusable usable] at refused
      cases refused
      rfl

theorem resolve_unknown {id : Uuid} (unknown : id ∉ tables.conversationIds) :
    resolveAccess tables user now id = .error (refusal user) := by
  cases resolved : resolveAccess tables user now id with
  | error error => rw [resolve_error resolved]
  | ok access =>
      obtain ⟨_, conversation, _, found, _⟩ := (resolve_ok_iff access).mp resolved
      obtain ⟨member, same, _⟩ := find_conversation_some found
      exact absurd (List.mem_map.mpr ⟨conversation, member, same⟩) unknown

theorem on_conversation_refused {next : Access Digest → Except AppError Answer}
    {text field : String} {id : Uuid} {error : AppError} (parsed : parseUuid text = some id)
    (refused : resolveAccess tables user now id = .error error) :
    onConversation parseUuid tables user now next text field = .error error := by
  simp only [onConversation, uuid, parsed, refused, bind, Except.bind]

theorem on_message_refused {next : Message → Access Digest → Except AppError Answer}
    {text field : String} {id : Uuid} {error : AppError} (parsed : parseUuid text = some id)
    (refused : resolveMessageAccess tables user now id = .error error) :
    onMessage parseUuid tables user now next text field = .error error := by
  simp only [onMessage, uuid, parsed, refused, bind, Except.bind]

theorem message_refused (distinct : (tables.messages.map Message.id).Nodup) {message : Message}
    (member : message ∈ tables.messages) {error : AppError}
    (refused : resolveAccess tables user now message.conversationId = .error error) :
    resolveMessageAccess tables user now message.id = .error error := by
  have found : tables.messages.find? (fun row => row.id == message.id) = some message :=
    find_member Message.id distinct member
  simp only [resolveMessageAccess, found, refused, bind, Except.bind]

theorem message_unknown {id : Uuid} (unknown : ∀ message ∈ tables.messages, message.id ≠ id) :
    resolveMessageAccess tables user now id = .error (.notVisible "not_found") := by
  have absent : tables.messages.find? (fun row => row.id == id) = none := by
    simpa [List.find?_eq_none] using unknown
  simp only [resolveMessageAccess, absent]

theorem download_refused (distinct : (tables.attachments.map fun row => row.id).Nodup)
    {signedDownloadUrl : String → String → String} {row : Attachment}
    (member : row ∈ tables.attachments) (ready : row.state = .ready) {conversation : Uuid}
    (place : row.conversationId = some conversation) {error : AppError}
    (refused : resolveAccess tables user now conversation = .error error) :
    downloadUrl signedDownloadUrl tables user now (some row.id) = .error error := by
  have found : readyAttachment tables row.id = some row := by
    unfold readyAttachment
    rw [find_member (fun row : Attachment => row.id) distinct member]
    simp [ready]
  simp only [downloadUrl, found, place, refused, bind, Except.bind]

theorem download_unknown {signedDownloadUrl : String → String → String} {id : Uuid}
    (unknown : ∀ row ∈ tables.attachments, row.id ≠ id) :
    downloadUrl signedDownloadUrl tables user now (some id) = .error (.notVisible "not_found") := by
  have absent : readyAttachment tables id = none := by
    unfold readyAttachment
    rw [List.find?_eq_none.mpr (by simpa using unknown)]
    rfl
  simp only [downloadUrl, absent]

theorem screened_out (parseUuid : String → Option Uuid) (tables : Tables Digest) (now : Time)
    (services : Services Digest Answer) {route : Route} (screened : ScreenedOut user limiter nowMs route) :
    ∃ error, ∀ text, respond parseUuid tables user now services limiter nowMs route text =
      .error error := by
  cases route with
  | reportMessage reason | reportConversation reason =>
      obtain ⟨error, refused⟩ := screened
      refine ⟨error, fun text => ?_⟩
      simp only [respond, refused, bind, Except.bind]
  | _ => exact screened.elim

theorem screened_in {reason : String}
    (passed : ¬∃ error, screenReport user limiter nowMs reason = .error error) :
    screenReport user limiter nowMs reason = .ok () := by
  cases screened : screenReport user limiter nowMs reason with
  | error error => exact absurd ⟨error, screened⟩ passed
  | ok _ => rfl

end Refusals

section Oracle
variable {Digest Answer : Type} {parseUuid : String → Option Uuid} {user : User Digest}
  {now : Time} {limiter : Store} {nowMs : Nat}

theorem named_refused (services : Services Digest Answer) (database : Database Digest)
    {conversation : Uuid} {error : AppError}
    (refused : resolveAccess database.toTables user now conversation = .error error)
    {route : Route} {text : String}
    (names : Names parseUuid database.toTables conversation route text)
    (passed : ¬ScreenedOut user limiter nowMs route) :
    respond parseUuid database.toTables user now services limiter nowMs route text =
      .error (refusal user) := by
  rw [resolve_error refused] at refused
  obtain ⟨id, parsed, named⟩ := names
  cases route with
  | listMessages | sendMessage | markRead | createInvite | requestUpload =>
      obtain rfl : id = conversation := named
      exact on_conversation_refused parsed refused
  | editMessage | deleteMessage | toggleReaction =>
      obtain ⟨message, member, rfl, rfl⟩ := named
      exact on_message_refused parsed (message_refused database.schema.messages member refused)
  | downloadUrl =>
      obtain ⟨row, member, rfl, place, ready⟩ := named
      simp only [respond, parsed,
        download_refused database.schema.attachments member ready place refused, Except.map]
  | reportMessage reason =>
      obtain ⟨message, member, rfl, rfl⟩ := named
      simp only [respond, screened_in passed, bind, Except.bind]
      exact on_message_refused parsed (message_refused database.schema.messages member refused)
  | reportConversation reason =>
      obtain rfl : id = conversation := named
      simp only [respond, screened_in passed, bind, Except.bind]
      exact on_conversation_refused parsed refused

theorem unnamed_refused (services : Services Digest Answer) {tables : Tables Digest}
    {route : Route} {text : String} (nothing : NamesNothing parseUuid tables text)
    (passed : ¬ScreenedOut user limiter nowMs route) :
    respond parseUuid tables user now services limiter nowMs route text =
      .error (missing user route.subject) := by
  obtain ⟨id, parsed, noConversation, noMessage, noAttachment⟩ := nothing
  cases route with
  | listMessages | sendMessage | markRead | createInvite | requestUpload =>
      exact on_conversation_refused parsed (resolve_unknown noConversation)
  | editMessage | deleteMessage | toggleReaction =>
      exact on_message_refused parsed (message_unknown noMessage)
  | downloadUrl =>
      simp only [respond, parsed, download_unknown noAttachment, Except.map]
      rfl
  | reportMessage reason =>
      simp only [respond, screened_in passed, bind, Except.bind]
      exact on_message_refused parsed (message_unknown noMessage)
  | reportConversation reason =>
      simp only [respond, screened_in passed, bind, Except.bind]
      exact on_conversation_refused parsed (resolve_unknown noConversation)

/-- The account check and the lookup of the id come in an order that shows nothing. -/
theorem refusal_is_missing_iff (user : User Digest) (subject : Subject) :
    refusal user = missing user subject ↔ user.isUsable = true ∨ subject = .conversation := by
  unfold refusal missing
  cases usable : user.isUsable <;> cases subject <;> simp [refusal, usable]

/-- Both requests fail, and with one error. -/
def SameError (left right : Except AppError Answer) : Prop :=
  ∃ error, left = .error error ∧ right = .error error

theorem no_oracle_iff (parseUuid : String → Option Uuid) (services : Services Digest Answer)
    (database : Database Digest) (user : User Digest) (now : Time) (limiter : Store) (nowMs : Nat)
    {conversation : Uuid} {error : AppError}
    (refused : resolveAccess database.toTables user now conversation = .error error)
    {route : Route} {text unknown : String}
    (names : Names parseUuid database.toTables conversation route text)
    (nothing : NamesNothing parseUuid database.toTables unknown) :
    SameError (respond parseUuid database.toTables user now services limiter nowMs route text)
        (respond parseUuid database.toTables user now services limiter nowMs route unknown) ↔
      user.isUsable = true ∨ route.subject = .conversation ∨
        ScreenedOut user limiter nowMs route := by
  by_cases screened : ScreenedOut user limiter nowMs route
  · obtain ⟨error, same⟩ := screened_out parseUuid database.toTables now services screened
    exact ⟨fun _ => Or.inr (Or.inr screened), fun _ => ⟨error, same text, same unknown⟩⟩
  · rw [named_refused services database refused names screened,
      unnamed_refused services nothing screened]
    simp only [SameError, Except.error.injEq, exists_eq_left', screened, or_false]
    rw [eq_comm, refusal_is_missing_iff]

end Oracle

/-- A restricted account beside a private group it is no member of. -/
def restrictedUser : User Nat :=
  { id := 1, phoneHash := 0, phoneLast4 := "0001", phoneCountry := "IN", displayName := "Bob",
    systemRole := .user, accountState := .restricted, deletedAt := none }

def privateGroup : Tables Nat :=
  { users := [restrictedUser,
      { restrictedUser with id := 2, displayName := "Ann", accountState := .active }]
    conversations := [{ id := 5, kind := .group, title := some "Team", createdBy := some 2,
                        lastSeq := 1, updatedAt := 10 }]
    members := [{ conversationId := 5, userId := 2, role := .owner }]
    messages := [⟨9, 5, 1, some 2, .text, some "hello", 4, none, none, 0, none, none, 10⟩] }

def strangers : Database Nat := ⟨privateGroup, by decide⟩

/-- Every service answers with nothing. -/
def silent : Services Nat Unit :=
  { listMessages := fun _ => .ok (), sendMessage := fun _ => .ok (), markRead := fun _ => .ok ()
    createInvite := fun _ => .ok (), requestUpload := fun _ => .ok ()
    editMessage := fun _ _ => .ok (), deleteMessage := fun _ _ => .ok ()
    toggleReaction := fun _ _ => .ok (), signedDownloadUrl := fun key _ => key
    downloaded := fun _ => (), reportMessage := fun _ => .ok (), reportConversation := fun _ => .ok () }

def shortIds (text : String) : Option Uuid := if text = "9" then some 9 else some 77

theorem restricted_refused : resolveAccess strangers.toTables restrictedUser 0 5 =
    .error (.accountUnavailable "account_unavailable") := rfl

theorem nine_named : Names shortIds strangers.toTables 5 .editMessage "9" :=
  ⟨9, by decide, _, List.mem_singleton_self _, rfl, rfl⟩

theorem other_unnamed : NamesNothing shortIds strangers.toTables "10" :=
  ⟨77, by decide, by decide, by decide, by decide⟩

theorem restricted_oracle :
    SameError (respond shortIds strangers.toTables restrictedUser 0 silent emptyStore 0
        .editMessage "9")
      (respond shortIds strangers.toTables restrictedUser 0 silent emptyStore 0
        .editMessage "10") ↔
      restrictedUser.isUsable = true ∨ Route.editMessage.subject = .conversation ∨
        ScreenedOut restrictedUser emptyStore 0 .editMessage :=
  no_oracle_iff shortIds silent strangers restrictedUser 0 emptyStore 0 restricted_refused
    nine_named other_unnamed

/-- A restricted account learns from the error which message ids exist. -/
theorem message_ids_leak :
    ¬∀ (parseUuid : String → Option Uuid) (services : Services Nat Unit) (database : Database Nat)
      (subject : Uuid) (user : User Nat) (now : Time) (limiter : Store) (nowMs : Nat)
      (conversation : Uuid) (error : AppError) (route : Route) (text unknown : String),
      currentPrincipal database.toTables subject = .ok user →
      resolveAccess database.toTables user now conversation = .error error →
      Names parseUuid database.toTables conversation route text →
      NamesNothing parseUuid database.toTables unknown →
      SameError (respond parseUuid database.toTables user now services limiter nowMs route text)
        (respond parseUuid database.toTables user now services limiter nowMs route unknown) := by
  intro always
  obtain ⟨error, known, unknown⟩ := always shortIds silent strangers 1 restrictedUser 0 emptyStore 0 5
    _ .editMessage "9" "10" rfl restricted_refused nine_named other_unnamed
  have shown : respond shortIds strangers.toTables restrictedUser 0 silent emptyStore 0
      .editMessage "9" = .error (.accountUnavailable "account_unavailable") := rfl
  have hidden : respond shortIds strangers.toTables restrictedUser 0 silent emptyStore 0
      .editMessage "10" = .error (.notVisible "not_found") := rfl
  rw [shown] at known
  rw [hidden, ← known] at unknown
  cases unknown

end RunnerupChat.Routes
