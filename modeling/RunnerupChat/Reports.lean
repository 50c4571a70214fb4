import RunnerupChat.CheckThenWrite
import RunnerupChat.Routes

/-!
`create_report` and `resolve_report` of `api/v1/moderation.py`, any number of
calls at once. A report is inserted without a look: a second open report of
one user on one subject is refused by a partial unique index, and the caller
is told the same. A report is resolved through a loaded copy, and only the
columns that differ from the copy are written.
-/

namespace RunnerupChat.Reports

open Accounts Authz Runs SnapshotUpdate UniqueKeys
open OtpLogin (AuditLog Detail)

inductive SubjectType where
  | user | message | conversation
  deriving DecidableEq

def SubjectType.text : SubjectType → String
  | .user => "USER"
  | .message => "MESSAGE"
  | .conversation => "CONVERSATION"

inductive ReportState where
  | isOpen | triaged | actioned | dismissed
  deriving DecidableEq

def ReportState.text : ReportState → String
  | .isOpen => "OPEN"
  | .triaged => "TRIAGED"
  | .actioned => "ACTIONED"
  | .dismissed => "DISMISSED"

structure Report where
  id : Uuid
  reporterId : Uuid
  subjectType : SubjectType
  subjectUserId : Option Uuid := none
  subjectMessageId : Option Uuid := none
  subjectConversationId : Option Uuid := none
  reason : String
  detail : Option String
  state : ReportState := .isOpen
  handledBy : Option Uuid := none
  resolution : Option String := none
  createdAt : Time
  handledAt : Option Time := none
  deriving DecidableEq

/-- What `one_open_report_per_user_subject` is on. -/
structure Key where
  reporterId : Uuid
  subjectType : SubjectType
  subject : Option Uuid
  deriving DecidableEq

def Report.key (row : Report) : Key :=
  { reporterId := row.reporterId, subjectType := row.subjectType
    subject := row.subjectUserId.or (row.subjectMessageId.or row.subjectConversationId) }

structure ReportIn where
  subjectType : SubjectType
  subjectId : String
  reason : String
  detail : Option String

/-- The pattern of the schema leaves no way to open a report again. -/
structure ResolveIn where
  state : ReportState
  resolution : Option String
  closes : state ≠ .isOpen

/-- A new report that has passed its checks. -/
structure Filing where
  report : Report
  subject : Uuid
  named : report.key.subject = some subject
  isNew : report.state = .isOpen ∧ report.handledBy = none

section Checks
variable {Digest : Type} (parseUuid : String → Option Uuid) (tables : Tables Digest)
  (user : User Digest) (now : Time)

/-- `create_report` up to its insert; the row gets the id that is drawn for it. -/
def createReport (limiter : RateLimit.Store) (nowMs : Nat) (payload : ReportIn) (id : Uuid) :
    Except AppError Filing := do
  Routes.screenReport user limiter nowMs payload.reason
  match parseUuid payload.subjectId with
  | none => .error (.validationFailed "invalid_subject")
  | some subject =>
      match payload.subjectType with
      | .message => do
          let (message, _) ← resolveMessageAccess tables user now subject
          return {
            report := { id := id, reporterId := user.id, subjectType := .message
                        subjectMessageId := some message.id
                        subjectConversationId := some message.conversationId
                        reason := payload.reason, detail := payload.detail, createdAt := now }
            subject := message.id, named := rfl, isNew := ⟨rfl, rfl⟩ }
      | .conversation => do
          let access ← resolveAccess tables user now subject
          return {
            report := { id := id, reporterId := user.id, subjectType := .conversation
                        subjectConversationId := some access.conversation.id
                        reason := payload.reason, detail := payload.detail, createdAt := now }
            subject := access.conversation.id, named := rfl, isNew := ⟨rfl, rfl⟩ }
      | .user =>
          match tables.users.find? fun row => row.id == subject with
          | none => .error (.notVisible "not_found")
          | some target =>
              if target.id = user.id then .error (.notVisible "not_found")
              else return {
                report := { id := id, reporterId := user.id, subjectType := .user
                            subjectUserId := some target.id
                            reason := payload.reason, detail := payload.detail, createdAt := now }
                subject := target.id, named := rfl, isNew := ⟨rfl, rfl⟩ }

end Checks

/-- A call of a moderator that has passed its checks. -/
structure Resolving (parseUuid : String → Option Uuid) where
  actorId : Uuid
  actorRole : SystemRole
  reportId : String
  target : Uuid
  payload : ResolveIn
  handledAt : Time
  permitted : .moderateContent ∈ systemGrants actorRole
  parsed : parseUuid reportId = some target

/-- `resolve_report` up to its read of the report. -/
def resolveReport {Digest : Type} (parseUuid : String → Option Uuid) (user : User Digest)
    (now : Time) (reportId : String) (payload : ResolveIn) :
    Except AppError (Resolving parseUuid) :=
  if permitted : .moderateContent ∈ systemGrants user.systemRole then
    match parsed : parseUuid reportId with
    | none => .error (.validationFailed "invalid_report")
    | some target =>
        .ok ⟨user.id, user.systemRole, reportId, target, payload, now, permitted, parsed⟩
  else .error (.permissionDenied "permission_denied")

section Rows
variable {parseUuid : String → Option Uuid}

/-- A column is written if it differs from the loaded copy. -/
def written {Column : Type} [DecidableEq Column] (wanted loaded current : Column) : Column :=
  if wanted = loaded then current else wanted

def Resolving.apply (call : Resolving parseUuid) (loaded current : Report) : Report :=
  { current with
    state := written call.payload.state loaded.state current.state
    handledBy := written (some call.actorId) loaded.handledBy current.handledBy
    resolution := written call.payload.resolution loaded.resolution current.resolution
    handledAt := written (some call.handledAt) loaded.handledAt current.handledAt }

def Filing.entry (showUuid : Uuid → String) (filing : Filing) : AuditLog :=
  { action := "report.created", actorId := some filing.report.reporterId
    targetType := some filing.report.subjectType.text, targetId := some (showUuid filing.subject) }

def Resolving.entry (call : Resolving parseUuid) : AuditLog :=
  { action := "report.resolved", actorId := some call.actorId, actorRole := some call.actorRole
    targetType := some "report", targetId := some call.reportId
    metadata := [("state", .text call.payload.state.text)] }

end Rows

inductive Phase (parseUuid : String → Option Uuid) where
  | filing (filing : Filing)
  | flushed (filing : Filing)
  | received (key : Key)
  | loaded (call : Resolving parseUuid) (row : Report)

structure State (parseUuid : String → Option Uuid) (Tx : Type) where
  reports : List Report
  auditLogs : List AuditLog
  drawn : List Uuid
  locks : Locks Key Tx
  phases : Tx → Option (Phase parseUuid)

inductive Action (parseUuid : String → Option Uuid) (Tx : Type) where
  | file (tx : Tx) (filing : Filing)
  | flush (tx : Tx)
  | load (tx : Tx) (call : Resolving parseUuid)
  | commit (tx : Tx)
  | finish (tx : Tx)
  | abort (tx : Tx)

def Action.tx {parseUuid : String → Option Uuid} {Tx : Type} : Action parseUuid Tx → Tx
  | .file tx _ | .flush tx | .load tx _ | .commit tx | .finish tx | .abort tx => tx

section Machine
variable {parseUuid : String → Option Uuid} {Tx : Type} [DecidableEq Tx]
  (showUuid : Uuid → String) (state : State parseUuid Tx)

/-- An open report of the key is committed. -/
def OpenReport (reports : List Report) (key : Key) : Prop :=
  ∃ row ∈ reports, row.state = .isOpen ∧ row.key = key

instance (reports : List Report) (key : Key) : Decidable (OpenReport reports key) :=
  inferInstanceAs (Decidable (∃ row ∈ reports, row.state = .isOpen ∧ row.key = key))

/-- The ids of rows are drawn once. -/
def file (tx : Tx) (filing : Filing) : Option (State parseUuid Tx) :=
  if (state.phases tx).isSome ∨ filing.report.id ∈ state.drawn then none
  else some { state with
    drawn := state.drawn ++ [filing.report.id]
    phases := assign state.phases tx (some (.filing filing)) }

/-- The insert waits for another insert of its key. -/
def flush (tx : Tx) : Option (State parseUuid Tx) :=
  match state.phases tx with
  | some (.filing filing) =>
      let key := filing.report.key
      if !available state.locks key tx then none
      else if OpenReport state.reports key then
        some { state with phases := assign state.phases tx (some (.received key)) }
      else
        some { state with
          locks := acquire state.locks key tx
          phases := assign state.phases tx (some (.flushed filing)) }
  | _ => none

def load (tx : Tx) (call : Resolving parseUuid) : Option (State parseUuid Tx) :=
  if (state.phases tx).isSome then none
  else (state.reports.find? fun row => row.id == call.target).map fun row =>
    { state with phases := assign state.phases tx (some (.loaded call row)) }

/-- The update of a report and its commit are one step: other writers of the
row wait for the commit. -/
def commit (tx : Tx) : Option (State parseUuid Tx) :=
  match state.phases tx with
  | some (.flushed filing) =>
      some { state with
        reports := state.reports ++ [filing.report]
        auditLogs := state.auditLogs ++ [filing.entry showUuid]
        locks := release state.locks tx
        phases := assign state.phases tx (some (.received filing.report.key)) }
  | some (.loaded call row) =>
      some { state with
        reports := state.reports.map fun current =>
          if current.id = row.id then call.apply row current else current
        auditLogs := state.auditLogs ++ [call.entry]
        phases := assign state.phases tx none }
  | _ => none

/-- The answer `received`. -/
def finish (tx : Tx) : Option (State parseUuid Tx) :=
  match state.phases tx with
  | some (.received _) => some { state with phases := assign state.phases tx none }
  | _ => none

def abort (tx : Tx) : Option (State parseUuid Tx) :=
  if (state.phases tx).isSome then
    some { state with locks := release state.locks tx, phases := assign state.phases tx none }
  else none

def step : Action parseUuid Tx → Option (State parseUuid Tx)
  | .file tx filing => file state tx filing
  | .flush tx => flush state tx
  | .load tx call => load state tx call
  | .commit tx => commit showUuid state tx
  | .finish tx => finish state tx
  | .abort tx => abort state tx

end Machine

section Rewriting
variable {parseUuid : String → Option Uuid}

/-- What no call undoes: who reported what and why, and that it was handled. -/
structure Follows (earlier later : Report) : Prop where
  same : { later with
    state := earlier.state, handledBy := earlier.handledBy, resolution := earlier.resolution
    handledAt := earlier.handledAt } = earlier
  closed : earlier.state ≠ .isOpen → later.state ≠ .isOpen

theorem Follows.refl (row : Report) : Follows row row := ⟨rfl, id⟩

theorem Follows.trans {first second third : Report} (left : Follows first second)
    (right : Follows second third) : Follows first third := by
  refine ⟨?_, fun closed => right.closed (left.closed closed)⟩
  have earlier := left.same
  rw [← right.same] at earlier
  exact earlier

theorem Follows.sameId {earlier later : Report} (follows : Follows earlier later) :
    later.id = earlier.id := by
  rw [← follows.same]

theorem Follows.sameKey {earlier later : Report} (follows : Follows earlier later) :
    later.key = earlier.key := by
  rw [← follows.same]
  rfl

theorem apply_follows (call : Resolving parseUuid) (loaded current : Report) :
    Follows current (call.apply loaded current) := by
  refine ⟨rfl, fun closed => ?_⟩
  simp only [Resolving.apply, written]
  split
  · exact closed
  · exact call.payload.closes

/-- A call that has read the report leaves it closed. -/
theorem apply_closed (call : Resolving parseUuid) {loaded current : Report}
    (follows : Follows loaded current) : (call.apply loaded current).state ≠ .isOpen := by
  simp only [Resolving.apply, written]
  split
  · rename_i unchanged
    exact follows.closed (unchanged ▸ call.payload.closes)
  · exact call.payload.closes

end Rewriting

section Revising
variable {parseUuid : String → Option Uuid} (call : Resolving parseUuid) (row : Report)

/-- The reports after a call has been committed. -/
def revised (reports : List Report) : List Report :=
  reports.map fun current => if current.id = row.id then call.apply row current else current

theorem revised_follows (current : Report) :
    Follows current (if current.id = row.id then call.apply row current else current) := by
  split
  · exact apply_follows call row current
  · exact Follows.refl current

theorem mem_revised {reports : List Report} {later : Report}
    (member : later ∈ revised call row reports) : ∃ current ∈ reports, Follows current later := by
  obtain ⟨current, listed, rfl⟩ := List.mem_map.mp member
  exact ⟨current, listed, revised_follows call row current⟩

theorem revised_keeps {reports : List Report} {current : Report} (member : current ∈ reports) :
    ∃ later ∈ revised call row reports, Follows current later :=
  ⟨_, List.mem_map.mpr ⟨current, member, rfl⟩, revised_follows call row current⟩

theorem revised_ids (reports : List Report) :
    (revised call row reports).map Report.id = reports.map Report.id := by
  rw [revised, List.map_map]
  exact List.map_congr_left fun current _ => (revised_follows call row current).sameId

/-- No report is opened and none changes its key. -/
theorem revised_open (reports : List Report) :
    List.Sublist (((revised call row reports).filter fun row => decide (row.state = .isOpen)).map
        Report.key)
      ((reports.filter fun row => decide (row.state = .isOpen)).map Report.key) := by
  induction reports with
  | nil => exact List.Sublist.refl _
  | cons current rest ih =>
      have follows := revised_follows call row current
      simp only [revised, List.map_cons, List.filter_cons] at ih ⊢
      by_cases still : (if current.id = row.id then call.apply row current else current).state =
          .isOpen
      · have before : current.state = .isOpen := by
          by_contra closed
          exact follows.closed closed still
        rw [if_pos (decide_eq_true still), if_pos (decide_eq_true before), List.map_cons,
          List.map_cons, follows.sameKey]
        exact ih.cons_cons _
      · rw [if_neg (by simpa using still)]
        split
        · exact ih.cons _
        · exact ih

theorem revised_not_open {reports : List Report} {key : Key} (clear : ¬OpenReport reports key) :
    ¬OpenReport (revised call row reports) key := by
  rintro ⟨later, member, still, named⟩
  obtain ⟨current, listed, follows⟩ := mem_revised call row member
  refine clear ⟨current, listed, ?_, follows.sameKey.symm.trans named⟩
  by_contra closed
  exact follows.closed closed still

end Revising

section Cases
variable {parseUuid : String → Option Uuid} {Tx : Type} [DecidableEq Tx]
  {showUuid : Uuid → String} {state next : State parseUuid Tx} {tx : Tx}

theorem file_cases {filing : Filing} (taken : file state tx filing = some next) :
    state.phases tx = none ∧ filing.report.id ∉ state.drawn ∧
      next = { state with
        drawn := state.drawn ++ [filing.report.id]
        phases := assign state.phases tx (some (.filing filing)) } := by
  unfold file at taken
  split at taken
  · cases taken
  · rename_i idle
    rw [not_or] at idle
    exact ⟨by simpa using idle.1, idle.2, (Option.some.inj taken).symm⟩

theorem flush_cases (taken : flush state tx = some next) :
    ∃ filing, state.phases tx = some (.filing filing) ∧
      available state.locks filing.report.key tx = true ∧
      (OpenReport state.reports filing.report.key ∧
          next = { state with
            phases := assign state.phases tx (some (.received filing.report.key)) } ∨
        ¬OpenReport state.reports filing.report.key ∧
          next = { state with
            locks := acquire state.locks filing.report.key tx
            phases := assign state.phases tx (some (.flushed filing)) }) := by
  unfold flush at taken
  split at taken
  · rename_i filing phase
    refine ⟨filing, phase, ?_⟩
    dsimp only at taken
    split at taken
    · cases taken
    · rename_i free
      refine ⟨by simpa using free, ?_⟩
      split at taken
      · rename_i conflict
        exact Or.inl ⟨conflict, (Option.some.inj taken).symm⟩
      · rename_i clear
        exact Or.inr ⟨clear, (Option.some.inj taken).symm⟩
  · cases taken

theorem load_cases {call : Resolving parseUuid} (taken : load state tx call = some next) :
    state.phases tx = none ∧ ∃ row ∈ state.reports, row.id = call.target ∧
      next = { state with phases := assign state.phases tx (some (.loaded call row)) } := by
  unfold load at taken
  split at taken
  · cases taken
  · rename_i idle
    obtain ⟨row, found, rfl⟩ := Option.map_eq_some_iff.mp taken
    exact ⟨by simpa using idle, row, List.mem_of_find?_eq_some found,
      by simpa using List.find?_some found, rfl⟩

theorem commit_cases (taken : commit showUuid state tx = some next) :
    (∃ filing, state.phases tx = some (.flushed filing) ∧
      next = { state with
        reports := state.reports ++ [filing.report]
        auditLogs := state.auditLogs ++ [filing.entry showUuid]
        locks := release state.locks tx
        phases := assign state.phases tx (some (.received filing.report.key)) }) ∨
    ∃ call row, state.phases tx = some (.loaded call row) ∧
      next = { state with
        reports := revised call row state.reports
        auditLogs := state.auditLogs ++ [call.entry]
        phases := assign state.phases tx none } := by
  unfold commit at taken
  split at taken
  · rename_i filing phase
    exact Or.inl ⟨filing, phase, (Option.some.inj taken).symm⟩
  · rename_i call row phase
    exact Or.inr ⟨call, row, phase, (Option.some.inj taken).symm⟩
  · cases taken

theorem commit_loaded {call : Resolving parseUuid} {row : Report}
    (phase : state.phases tx = some (.loaded call row)) :
    commit showUuid state tx = some { state with
      reports := revised call row state.reports
      auditLogs := state.auditLogs ++ [call.entry]
      phases := assign state.phases tx none } := by
  simp only [commit, phase, revised]

theorem finish_cases (taken : finish state tx = some next) :
    ∃ key, state.phases tx = some (.received key) ∧
      next = { state with phases := assign state.phases tx none } := by
  unfold finish at taken
  split at taken
  · rename_i key phase
    exact ⟨key, phase, (Option.some.inj taken).symm⟩
  · cases taken

theorem abort_cases (taken : abort state tx = some next) :
    next = { state with
      locks := release state.locks tx, phases := assign state.phases tx none } := by
  unfold abort at taken
  split at taken
  · exact (Option.some.inj taken).symm
  · cases taken

end Cases

/-- An entry of the audit log about how this report was resolved. -/
def onReport (parseUuid : String → Option Uuid) (id : Uuid) (entry : AuditLog) : Bool :=
  entry.action == "report.resolved" && entry.targetType == some "report" &&
    entry.targetId.bind parseUuid == some id

section Invariant
variable {parseUuid : String → Option Uuid} {Tx : Type} [DecidableEq Tx]

/-- A report that is on its way into the table. -/
def Files (state : State parseUuid Tx) (tx : Tx) (filing : Filing) : Prop :=
  state.phases tx = some (.filing filing) ∨ state.phases tx = some (.flushed filing)

structure Inv (state : State parseUuid Tx) : Prop where
  ids : (state.reports.map Report.id).Nodup
  drawn : ∀ row ∈ state.reports, row.id ∈ state.drawn
  oneOpen : ((state.reports.filter fun row => decide (row.state = .isOpen)).map Report.key).Nodup
  fresh : ∀ tx filing, Files state tx filing → filing.report.id ∈ state.drawn ∧
    ∀ row ∈ state.reports, row.id ≠ filing.report.id
  apart : ∀ tx other filing another, Files state tx filing → Files state other another →
    filing.report.id = another.report.id → tx = other
  flushed : ∀ tx filing, state.phases tx = some (.flushed filing) →
    state.locks filing.report.key = some tx ∧ ¬OpenReport state.reports filing.report.key
  loaded : ∀ tx call row, state.phases tx = some (.loaded call row) →
    row.id = call.target ∧ ∃ current ∈ state.reports, Follows row current
  audited : ∀ entry ∈ state.auditLogs, ∀ id, onReport parseUuid id entry = true →
    ∃ row ∈ state.reports, row.id = id

variable {showUuid : Uuid → String} {state next : State parseUuid Tx} {tx : Tx}

/-- A transaction turns to something else than filing a report. -/
theorem quiet_inv (inv : Inv state) {phase : Option (Phase parseUuid)}
    (filed : ∀ filing, phase = some (.filing filing) ∨ phase = some (.flushed filing) → False)
    (loaded : ∀ call row, phase = some (.loaded call row) →
      row.id = call.target ∧ row ∈ state.reports) :
    Inv { state with phases := assign state.phases tx phase } := by
  have kept : ∀ {other filing},
      Files { state with phases := assign state.phases tx phase } other filing →
        Files state other filing := by
    rintro other filing (found | found)
    · rcases assign_cases found with ⟨_, here⟩ | ⟨_, there⟩
      · exact absurd (Or.inl here) (filed filing)
      · exact Or.inl there
    · rcases assign_cases found with ⟨_, here⟩ | ⟨_, there⟩
      · exact absurd (Or.inr here) (filed filing)
      · exact Or.inr there
  refine ⟨inv.ids, inv.drawn, inv.oneOpen, fun other filing files => inv.fresh other filing
    (kept files), fun one other filing another first second => inv.apart one other filing another
    (kept first) (kept second), ?_, ?_, inv.audited⟩
  · intro other filing found
    rcases assign_cases found with ⟨_, here⟩ | ⟨_, there⟩
    · exact absurd (Or.inr here) (filed filing)
    · exact inv.flushed other filing there
  · intro other call row found
    rcases assign_cases found with ⟨_, here⟩ | ⟨_, there⟩
    · obtain ⟨named, member⟩ := loaded call row here
      exact ⟨named, row, member, Follows.refl row⟩
    · exact inv.loaded other call row there

theorem file_inv (inv : Inv state) {filing : Filing} (taken : file state tx filing = some next) :
    Inv next := by
  obtain ⟨idle, undrawn, rfl⟩ := file_cases taken
  have files : ∀ {other another},
      Files { state with
        drawn := state.drawn ++ [filing.report.id]
        phases := assign state.phases tx (some (.filing filing)) } other another →
      (other = tx ∧ another = filing) ∨ (other ≠ tx ∧ Files state other another) := by
    rintro other another (found | found)
    · rcases assign_cases found with ⟨same, here⟩ | ⟨apart, there⟩
      · cases here
        exact Or.inl ⟨same, rfl⟩
      · exact Or.inr ⟨apart, Or.inl there⟩
    · rcases assign_cases found with ⟨_, here⟩ | ⟨apart, there⟩
      · cases here
      · exact Or.inr ⟨apart, Or.inr there⟩
  have unseen : ∀ {other another}, Files state other another →
      another.report.id ≠ filing.report.id := by
    intro other another started same
    exact undrawn (same ▸ (inv.fresh other another started).1)
  refine ⟨inv.ids, fun row member => List.mem_append_left _ (inv.drawn row member), inv.oneOpen,
    ?_, ?_, ?_, ?_, inv.audited⟩
  · intro other another found
    rcases files found with ⟨_, rfl⟩ | ⟨_, there⟩
    · refine ⟨List.mem_append_right _ (List.mem_singleton_self _), fun row member same => ?_⟩
      exact undrawn (same ▸ inv.drawn row member)
    · obtain ⟨before, absent⟩ := inv.fresh other another there
      exact ⟨List.mem_append_left _ before, absent⟩
  · intro one other first second found also same
    rcases files found with ⟨rfl, rfl⟩ | ⟨_, there⟩
    · rcases files also with ⟨rfl, _⟩ | ⟨_, elsewhere⟩
      · rfl
      · exact absurd same.symm (unseen elsewhere)
    · rcases files also with ⟨rfl, rfl⟩ | ⟨_, elsewhere⟩
      · exact absurd same (unseen there)
      · exact inv.apart one other first second there elsewhere same
  · intro other another found
    rcases assign_cases found with ⟨_, here⟩ | ⟨_, there⟩
    · cases here
    · exact inv.flushed other another there
  · intro other call row found
    rcases assign_cases found with ⟨_, here⟩ | ⟨_, there⟩
    · cases here
    · exact inv.loaded other call row there

theorem flush_inv (inv : Inv state) (taken : flush state tx = some next) : Inv next := by
  obtain ⟨filing, phase, free, ⟨_, rfl⟩ | ⟨clear, rfl⟩⟩ := flush_cases taken
  · exact quiet_inv inv (by rintro _ (same | same) <;> cases same) (fun _ _ same => by cases same)
  · have kept : ∀ {other another},
        Files { state with
          locks := acquire state.locks filing.report.key tx
          phases := assign state.phases tx (some (.flushed filing)) } other another →
        Files state other another := by
      rintro other another (found | found)
      · rcases assign_cases found with ⟨_, here⟩ | ⟨_, there⟩
        · cases here
        · exact Or.inl there
      · rcases assign_cases found with ⟨rfl, here⟩ | ⟨_, there⟩
        · cases here
          exact Or.inl phase
        · exact Or.inr there
    refine ⟨inv.ids, inv.drawn, inv.oneOpen, fun other another files => inv.fresh other another
      (kept files), fun one other first second found also => inv.apart one other first second
      (kept found) (kept also), ?_, ?_, inv.audited⟩
    · intro other another found
      rcases assign_cases found with ⟨rfl, here⟩ | ⟨_, there⟩
      · cases here
        exact ⟨acquire_same _ _ _, clear⟩
      · obtain ⟨locked, absent⟩ := inv.flushed other another there
        exact ⟨acquire_keeps _ _ _ _ _ free locked, absent⟩
    · intro other call row found
      rcases assign_cases found with ⟨_, here⟩ | ⟨_, there⟩
      · cases here
      · exact inv.loaded other call row there

theorem load_inv (inv : Inv state) {call : Resolving parseUuid}
    (taken : load state tx call = some next) : Inv next := by
  obtain ⟨_, row, member, named, rfl⟩ := load_cases taken
  refine quiet_inv inv (by rintro _ (same | same) <;> cases same) ?_
  intro other read same
  cases same
  exact ⟨named, member⟩

theorem abort_inv (inv : Inv state) (taken : abort state tx = some next) : Inv next := by
  obtain rfl := abort_cases taken
  have kept : ∀ {other another},
      Files { state with
        locks := release state.locks tx, phases := assign state.phases tx none } other another →
      Files state other another := by
    rintro other another (found | found)
    · exact Or.inl (assign_none_kept found).2
    · exact Or.inr (assign_none_kept found).2
  refine ⟨inv.ids, inv.drawn, inv.oneOpen, fun other another files => inv.fresh other another
    (kept files), fun one other first second found also => inv.apart one other first second
    (kept found) (kept also), ?_, ?_, inv.audited⟩
  · intro other another found
    obtain ⟨apart, there⟩ := assign_none_kept found
    obtain ⟨locked, absent⟩ := inv.flushed other another there
    exact ⟨release_keeps _ _ _ _ apart locked, absent⟩
  · intro other call row found
    exact inv.loaded other call row (assign_none_kept found).2

theorem resolved_inv (inv : Inv state) {call : Resolving parseUuid} {row : Report}
    (phase : state.phases tx = some (.loaded call row)) :
    Inv { state with
      reports := revised call row state.reports
      auditLogs := state.auditLogs ++ [call.entry]
      phases := assign state.phases tx none } := by
  have kept : ∀ {other another},
      Files { state with
        reports := revised call row state.reports
        auditLogs := state.auditLogs ++ [call.entry]
        phases := assign state.phases tx none } other another → Files state other another := by
    rintro other another (found | found)
    · exact Or.inl (assign_none_kept found).2
    · exact Or.inr (assign_none_kept found).2
  refine ⟨(revised_ids call row state.reports).symm ▸ inv.ids, ?_,
    inv.oneOpen.sublist (revised_open call row state.reports), ?_,
    fun one other first second found also => inv.apart one other first second (kept found)
      (kept also), ?_, ?_, ?_⟩
  · intro later member
    obtain ⟨current, listed, follows⟩ := mem_revised call row member
    exact follows.sameId ▸ inv.drawn current listed
  · intro other another files
    obtain ⟨before, absent⟩ := inv.fresh other another (kept files)
    refine ⟨before, fun later member => ?_⟩
    obtain ⟨current, listed, follows⟩ := mem_revised call row member
    exact follows.sameId ▸ absent current listed
  · intro other another found
    obtain ⟨_, there⟩ := assign_none_kept found
    obtain ⟨locked, absent⟩ := inv.flushed other another there
    exact ⟨locked, revised_not_open call row absent⟩
  · intro other asked read found
    obtain ⟨named, current, listed, follows⟩ :=
      inv.loaded other asked read (assign_none_kept found).2
    obtain ⟨later, member, onward⟩ := revised_keeps call row listed
    exact ⟨named, later, member, follows.trans onward⟩
  · intro entry member id about
    have before : ∃ current ∈ state.reports, current.id = id := by
      rcases List.mem_append.mp member with earlier | this
      · exact inv.audited entry earlier id about
      · obtain ⟨named, current, listed, follows⟩ := inv.loaded tx call row phase
        rw [List.mem_singleton.mp this] at about
        have target : call.target = id := by simpa [onReport, Resolving.entry, call.parsed] using about
        exact ⟨current, listed, follows.sameId.trans (named.trans target)⟩
    obtain ⟨current, listed, same⟩ := before
    obtain ⟨later, present, follows⟩ := revised_keeps call row listed
    exact ⟨later, present, follows.sameId.trans same⟩

theorem created_inv (inv : Inv state) {filing : Filing}
    (phase : state.phases tx = some (.flushed filing)) :
    Inv { state with
      reports := state.reports ++ [filing.report]
      auditLogs := state.auditLogs ++ [filing.entry showUuid]
      locks := release state.locks tx
      phases := assign state.phases tx (some (.received filing.report.key)) } := by
  obtain ⟨drawn, absent⟩ := inv.fresh tx filing (Or.inr phase)
  obtain ⟨mine, clear⟩ := inv.flushed tx filing phase
  have kept : ∀ {other another},
      Files { state with
        reports := state.reports ++ [filing.report]
        auditLogs := state.auditLogs ++ [filing.entry showUuid]
        locks := release state.locks tx
        phases := assign state.phases tx (some (.received filing.report.key)) } other another →
      other ≠ tx ∧ Files state other another := by
    rintro other another (found | found)
    · rcases assign_cases found with ⟨_, here⟩ | ⟨apart, there⟩
      · cases here
      · exact ⟨apart, Or.inl there⟩
    · rcases assign_cases found with ⟨_, here⟩ | ⟨apart, there⟩
      · cases here
      · exact ⟨apart, Or.inr there⟩
  refine ⟨?_, ?_, ?_, ?_, fun one other first second found also => inv.apart one other first second
    (kept found).2 (kept also).2, ?_, ?_, ?_⟩
  · rw [List.map_append]
    refine List.nodup_append.mpr ⟨inv.ids, List.nodup_singleton _, ?_⟩
    intro one member other single same
    obtain ⟨row, listed, rfl⟩ := List.mem_map.mp member
    exact absent row listed (same.trans (List.mem_singleton.mp single))
  · intro row member
    rcases List.mem_append.mp member with before | this
    · exact inv.drawn row before
    · exact List.mem_singleton.mp this ▸ drawn
  · rw [List.filter_append, List.map_append]
    refine List.nodup_append.mpr ⟨inv.oneOpen, ?_, ?_⟩
    · exact (List.nodup_singleton filing.report.key).sublist
        (List.Sublist.map Report.key List.filter_sublist)
    · intro one member other single same
      obtain ⟨row, listed, rfl⟩ := List.mem_map.mp member
      obtain ⟨here, still⟩ := List.mem_filter.mp listed
      obtain ⟨new, found, rfl⟩ := List.mem_map.mp single
      obtain rfl := List.mem_singleton.mp (List.mem_filter.mp found).1
      exact clear ⟨row, here, of_decide_eq_true still, same⟩
  · intro other another files
    obtain ⟨apart, there⟩ := kept files
    obtain ⟨before, unlisted⟩ := inv.fresh other another there
    refine ⟨before, fun row member same => ?_⟩
    rcases List.mem_append.mp member with earlier | this
    · exact unlisted row earlier same
    · rw [List.mem_singleton.mp this] at same
      exact apart (inv.apart tx other filing another (Or.inr phase) there same).symm
  · intro other another found
    rcases assign_cases found with ⟨_, here⟩ | ⟨apart, there⟩
    · cases here
    · obtain ⟨locked, unlisted⟩ := inv.flushed other another there
      refine ⟨release_keeps _ _ _ _ apart locked, ?_⟩
      rintro ⟨row, member, still, named⟩
      rcases List.mem_append.mp member with earlier | this
      · exact unlisted ⟨row, earlier, still, named⟩
      · -- two inserts do not hold one key
        rw [List.mem_singleton.mp this] at named
        rw [← named, mine] at locked
        exact apart (Option.some.inj locked).symm
  · intro other call row found
    rcases assign_cases found with ⟨_, here⟩ | ⟨_, there⟩
    · cases here
    · obtain ⟨named, current, listed, follows⟩ := inv.loaded other call row there
      exact ⟨named, current, List.mem_append_left _ listed, follows⟩
  · intro entry member id about
    rcases List.mem_append.mp member with earlier | this
    · obtain ⟨row, listed, same⟩ := inv.audited entry earlier id about
      exact ⟨row, List.mem_append_left _ listed, same⟩
    · rw [List.mem_singleton.mp this] at about
      simp [onReport, Filing.entry] at about

theorem step_inv (inv : Inv state) {action : Action parseUuid Tx}
    (taken : step showUuid state action = some next) : Inv next := by
  cases action with
  | file tx filing => exact file_inv inv taken
  | flush tx => exact flush_inv inv taken
  | load tx call => exact load_inv inv taken
  | commit tx =>
      rcases commit_cases taken with ⟨filing, phase, rfl⟩ | ⟨call, row, phase, rfl⟩
      · exact created_inv inv phase
      · exact resolved_inv inv phase
  | finish tx =>
      obtain ⟨_, _, rfl⟩ := finish_cases taken
      exact quiet_inv inv (by rintro _ (same | same) <;> cases same) (fun _ _ same => by cases same)
  | abort tx => exact abort_inv inv taken

end Invariant

section Received
variable {parseUuid : String → Option Uuid} {Tx : Type} [DecidableEq Tx]
  {showUuid : Uuid → String} {state next : State parseUuid Tx} {tx : Tx}

/-- A transaction that takes up no new call. -/
def Continues (tx : Tx) (action : Action parseUuid Tx) : Prop :=
  (∀ filing, action ≠ .file tx filing) ∧ ∀ call, action ≠ .load tx call

theorem other_phase {action : Action parseUuid Tx} (taken : step showUuid state action = some next)
    (apart : action.tx ≠ tx) : next.phases tx = state.phases tx := by
  have mine : tx ≠ action.tx := fun same => apart same.symm
  cases action with
  | file other filing =>
      obtain ⟨_, _, rfl⟩ := file_cases taken
      exact assign_other _ _ mine
  | flush other =>
      obtain ⟨_, _, _, ⟨_, rfl⟩ | ⟨_, rfl⟩⟩ := flush_cases taken
      · exact assign_other _ _ mine
      · exact assign_other _ _ mine
  | load other call =>
      obtain ⟨_, _, _, _, rfl⟩ := load_cases taken
      exact assign_other _ _ mine
  | commit other =>
      rcases commit_cases taken with ⟨_, _, rfl⟩ | ⟨_, _, _, rfl⟩
      · exact assign_other _ _ mine
      · exact assign_other _ _ mine
  | finish other =>
      obtain ⟨_, _, rfl⟩ := finish_cases taken
      exact assign_other _ _ mine
  | abort other =>
      obtain rfl := abort_cases taken
      exact assign_other _ _ mine

theorem filing_step {action : Action parseUuid Tx} {filing : Filing}
    (files : Files state tx filing) (continues : Continues tx action)
    (taken : step showUuid state action = some next) :
    Files next tx filing ∨ next.phases tx = none ∨
      next.phases tx = some (.received filing.report.key) ∧
        (OpenReport state.reports filing.report.key ∨ OpenReport next.reports filing.report.key) := by
  by_cases own : action.tx = tx
  · subst own
    cases action with
    | file other another => exact absurd rfl (continues.1 another)
    | flush other =>
        obtain ⟨another, phase, _, ⟨conflict, rfl⟩ | ⟨_, rfl⟩⟩ := flush_cases taken
        · rcases files with held | held <;> cases phase.symm.trans held
          exact Or.inr (Or.inr ⟨assign_same _ _ _, Or.inl conflict⟩)
        · rcases files with held | held <;> cases phase.symm.trans held
          exact Or.inl (Or.inr (assign_same _ _ _))
    | load other call => exact absurd rfl (continues.2 call)
    | commit other =>
        rcases commit_cases taken with ⟨another, phase, rfl⟩ | ⟨_, _, phase, _⟩
        · rcases files with held | held <;> cases phase.symm.trans held
          refine Or.inr (Or.inr ⟨assign_same _ _ _, Or.inr ⟨filing.report, ?_, filing.isNew.1, rfl⟩⟩)
          exact List.mem_append_right _ (List.mem_singleton_self _)
        · rcases files with held | held <;> cases phase.symm.trans held
    | finish other =>
        obtain ⟨_, phase, _⟩ := finish_cases taken
        rcases files with held | held <;> cases phase.symm.trans held
    | abort other =>
        obtain rfl := abort_cases taken
        exact Or.inr (Or.inl (assign_same _ _ _))
  · left
    unfold Files
    rw [other_phase taken own]
    exact files

theorem idle_step {action : Action parseUuid Tx} (idle : state.phases tx = none)
    (continues : Continues tx action) (taken : step showUuid state action = some next) :
    next.phases tx = none := by
  by_cases own : action.tx = tx
  · subst own
    cases action with
    | file other filing => exact absurd rfl (continues.1 filing)
    | flush other =>
        obtain ⟨_, phase, _⟩ := flush_cases taken
        cases idle.symm.trans phase
    | load other call => exact absurd rfl (continues.2 call)
    | commit other =>
        rcases commit_cases taken with ⟨_, phase, _⟩ | ⟨_, _, phase, _⟩ <;>
          cases idle.symm.trans phase
    | finish other =>
        obtain ⟨_, _, rfl⟩ := finish_cases taken
        exact assign_same _ _ _
    | abort other =>
        obtain rfl := abort_cases taken
        exact assign_same _ _ _
  · exact (other_phase taken own).trans idle

theorem received_step {action : Action parseUuid Tx} {key : Key}
    (received : state.phases tx = some (.received key)) (continues : Continues tx action)
    (taken : step showUuid state action = some next) :
    next.phases tx = none ∨ next.phases tx = some (.received key) := by
  by_cases own : action.tx = tx
  · subst own
    cases action with
    | file other filing => exact absurd rfl (continues.1 filing)
    | flush other =>
        obtain ⟨_, phase, _⟩ := flush_cases taken
        cases received.symm.trans phase
    | load other call => exact absurd rfl (continues.2 call)
    | commit other =>
        rcases commit_cases taken with ⟨_, phase, _⟩ | ⟨_, _, phase, _⟩ <;>
          cases received.symm.trans phase
    | finish other =>
        obtain ⟨_, _, rfl⟩ := finish_cases taken
        exact Or.inl (assign_same _ _ _)
    | abort other =>
        obtain rfl := abort_cases taken
        exact Or.inl (assign_same _ _ _)
  · exact Or.inr ((other_phase taken own).trans received)

variable {Digest : Type} {tables : Tables Digest} {user : User Digest} {now : Time}

theorem resolved_message {id : Uuid} {found : MessageStore.Message × Access Digest}
    (resolved : resolveMessageAccess tables user now id = .ok found) : found.1.id = id := by
  unfold resolveMessageAccess at resolved
  split at resolved
  · cases resolved
  · rename_i message named
    cases granted : resolveAccess tables user now message.conversationId with
    | error error => simp [granted, bind, Except.bind] at resolved
    | ok access =>
        simp only [granted, bind, Except.bind] at resolved
        split at resolved
        · cases resolved
        · cases resolved
          simpa using List.find?_some named

theorem resolved_conversation {id : Uuid} {access : Access Digest}
    (resolved : resolveAccess tables user now id = .ok access) : access.conversation.id = id := by
  obtain ⟨_, conversation, _, found, _, rfl⟩ := (resolve_ok_iff access).mp resolved
  exact (find_conversation_some found).2.1

/-- A report is about what the payload names, in the name of its caller. -/
theorem filing_named {limiter : RateLimit.Store} {nowMs : Nat} {payload : ReportIn} {id : Uuid}
    {filing : Filing}
    (checked : createReport parseUuid tables user now limiter nowMs payload id = .ok filing) :
    ∃ subject, parseUuid payload.subjectId = some subject ∧
      filing.report.key = ⟨user.id, payload.subjectType, some subject⟩ := by
  unfold createReport at checked
  cases screened : Routes.screenReport user limiter nowMs payload.reason with
  | error error => simp [screened, bind, Except.bind] at checked
  | ok _ =>
      cases parsed : parseUuid payload.subjectId with
      | none => simp [screened, parsed, bind, Except.bind] at checked
      | some subject =>
          refine ⟨subject, rfl, ?_⟩
          simp only [screened, parsed, bind, Except.bind] at checked
          split at checked
          · rename_i kind
            cases resolved : resolveMessageAccess tables user now subject with
            | error error => simp [resolved] at checked
            | ok found =>
                simp only [resolved, pure, Except.pure, Except.ok.injEq] at checked
                rw [← checked, kind, ← resolved_message resolved]
                rfl
          · rename_i kind
            cases resolved : resolveAccess tables user now subject with
            | error error => simp [resolved] at checked
            | ok access =>
                simp only [resolved, pure, Except.pure, Except.ok.injEq] at checked
                rw [← checked, kind, ← resolved_conversation resolved]
                rfl
          · rename_i kind
            split at checked
            · cases checked
            · rename_i target named
              split at checked
              · cases checked
              · simp only [pure, Except.pure, Except.ok.injEq] at checked
                have same : target.id = subject := by simpa using List.find?_some named
                rw [← checked, kind, ← same]
                rfl

/-- Whoever is told that a report was received had an open report on that
subject at some moment between the call and the answer, be it this one or an
earlier one. -/
theorem received_open {limiter : RateLimit.Store} {nowMs : Nat} {payload : ReportIn} {id : Uuid}
    {filing : Filing} {first filed last final : State parseUuid Tx}
    {actions : List (Action parseUuid Tx)}
    (checked : createReport parseUuid tables user now limiter nowMs payload id = .ok filing)
    (called : file first tx filing = some filed)
    (ran : run (step showUuid) filed actions = some last)
    (own : ∀ action ∈ actions, Continues tx action) (answered : finish last tx = some final) :
    ∃ subject visited, parseUuid payload.subjectId = some subject ∧
      Visits (step showUuid) filed actions visited ∧
      OpenReport visited.reports ⟨user.id, payload.subjectType, some subject⟩ := by
  obtain ⟨subject, parsed, key⟩ := filing_named checked
  obtain ⟨_, _, rfl⟩ := file_cases called
  obtain ⟨other, received, _⟩ := finish_cases answered
  have ended := moment_between (fun state => Files state tx filing)
    (fun state => state.phases tx = none)
    (fun state => state.phases tx = some (.received filing.report.key))
    (fun state => OpenReport state.reports filing.report.key)
    (fun _ _ _ files continues taken => filing_step files continues taken)
    (fun _ _ _ idle continues taken => idle_step idle continues taken)
    (fun _ _ _ told continues taken => received_step told continues taken)
    ran (meets_of_all own) (Or.inl (assign_same _ _ _))
  rcases ended with files | idle | ⟨_, visited, visits, there⟩
  · rcases files with held | held <;> cases received.symm.trans held
  · cases received.symm.trans idle
  · exact ⟨subject, visited, parsed, visits, key ▸ there⟩

end Received

section Closing
variable {parseUuid : String → Option Uuid} {Tx : Type} [DecidableEq Tx]
  {showUuid : Uuid → String} {state next : State parseUuid Tx}

theorem step_keeps {action : Action parseUuid Tx} (taken : step showUuid state action = some next)
    {row : Report} (member : row ∈ state.reports) : ∃ later ∈ next.reports, Follows row later := by
  have same : next.reports = state.reports → ∃ later ∈ next.reports, Follows row later :=
    fun same => ⟨row, same ▸ member, Follows.refl row⟩
  cases action with
  | file tx filing =>
      obtain ⟨_, _, rfl⟩ := file_cases taken
      exact same rfl
  | flush tx =>
      obtain ⟨_, _, _, ⟨_, rfl⟩ | ⟨_, rfl⟩⟩ := flush_cases taken
      · exact same rfl
      · exact same rfl
  | load tx call =>
      obtain ⟨_, _, _, _, rfl⟩ := load_cases taken
      exact same rfl
  | commit tx =>
      rcases commit_cases taken with ⟨filing, _, rfl⟩ | ⟨call, loaded, _, rfl⟩
      · exact ⟨row, List.mem_append_left _ member, Follows.refl row⟩
      · exact revised_keeps call loaded member
  | finish tx =>
      obtain ⟨_, _, rfl⟩ := finish_cases taken
      exact same rfl
  | abort tx =>
      obtain rfl := abort_cases taken
      exact same rfl

theorem run_keeps {final : State parseUuid Tx} {actions : List (Action parseUuid Tx)}
    (ran : run (step showUuid) state actions = some final) {row : Report}
    (member : row ∈ state.reports) : ∃ later ∈ final.reports, Follows row later :=
  run_invariant (fun state => ∃ later ∈ state.reports, Follows row later)
    (fun _ _ _ kept taken => by
      obtain ⟨later, listed, follows⟩ := kept
      obtain ⟨last, present, onward⟩ := step_keeps taken listed
      exact ⟨last, present, follows.trans onward⟩)
    ran ⟨row, member, Follows.refl row⟩

/-- A report that a moderator has resolved stays in the table, as it was
filed, and is not open again in any later state. -/
theorem resolved_for_good {start visited final : State parseUuid Tx} {tx : Tx}
    {before after : List (Action parseUuid Tx)} {call : Resolving parseUuid} {row : Report}
    (inv : Inv start) (ran : run (step showUuid) start before = some visited)
    (phase : visited.phases tx = some (.loaded call row))
    (taken : commit showUuid visited tx = some next)
    (onward : run (step showUuid) next after = some final) :
    ∃ report ∈ final.reports, report.id = call.target ∧ report.state ≠ .isOpen ∧
      Follows row report := by
  have reached := run_invariant Inv (fun _ _ _ inv taken => step_inv inv taken) ran inv
  obtain ⟨named, current, listed, follows⟩ := reached.loaded tx call row phase
  rcases commit_cases taken with ⟨_, other, _⟩ | ⟨_, _, same, rfl⟩
  · cases phase.symm.trans other
  · cases phase.symm.trans same
    have revised : call.apply row current ∈ revised call row visited.reports :=
      List.mem_map.mpr ⟨current, listed, if_pos follows.sameId⟩
    obtain ⟨report, member, later⟩ := run_keeps onward revised
    have whole := follows.trans ((apply_follows call row current).trans later)
    exact ⟨report, member, whole.sameId.trans named, later.closed (apply_closed call follows), whole⟩

end Closing

section Accounting
variable {parseUuid : String → Option Uuid} {Tx : Type} [DecidableEq Tx]
  {showUuid : Uuid → String} {state next : State parseUuid Tx}

/-- The last entry of the audit log about how a report was resolved. -/
def lastHandling (parseUuid : String → Option Uuid) (auditLogs : List AuditLog) (id : Uuid) :
    Option AuditLog :=
  (auditLogs.filter (onReport parseUuid id)).getLast?

/-- The report and the audit log name the same state and the same handler. -/
def Accounted (parseUuid : String → Option Uuid) (auditLogs : List AuditLog) (row : Report) : Prop :=
  match lastHandling parseUuid auditLogs row.id with
  | none => row.state = .isOpen ∧ row.handledBy = none
  | some entry => entry.metadata = [("state", .text row.state.text)] ∧ entry.actorId = row.handledBy

def AllAccounted (state : State parseUuid Tx) : Prop :=
  ∀ row ∈ state.reports, Accounted parseUuid state.auditLogs row

/-- No call leaves out a column that another call has changed since the
report was read. -/
def Fresh (state : State parseUuid Tx) (action : Action parseUuid Tx) : Prop :=
  ∀ tx, action = .commit tx → ∀ call row, state.phases tx = some (.loaded call row) →
    ∀ current ∈ state.reports, current.id = row.id →
      (call.payload.state = row.state → current.state = row.state) ∧
      (some call.actorId = row.handledBy → current.handledBy = row.handledBy)

theorem text_injective {one other : ReportState} (same : one.text = other.text) : one = other := by
  revert same
  cases one <;> cases other <;> decide

theorem last_handling_append (auditLogs : List AuditLog) (entry : AuditLog) (id : Uuid) :
    lastHandling parseUuid (auditLogs ++ [entry]) id =
      if onReport parseUuid id entry = true then some entry
      else lastHandling parseUuid auditLogs id := by
  unfold lastHandling
  rw [List.filter_append, List.filter_cons, List.filter_nil]
  split
  · rw [List.getLast?_concat]
  · rw [List.append_nil]

theorem resolving_about (call : Resolving parseUuid) (id : Uuid) :
    onReport parseUuid id call.entry = true ↔ call.target = id := by
  simp [onReport, Resolving.entry, call.parsed]

theorem written_iff {Column : Type} [DecidableEq Column] (wanted loaded current : Column) :
    written wanted loaded current = wanted ↔ (wanted = loaded → current = loaded) := by
  unfold written
  split
  · rename_i same
    subst same
    simp
  · rename_i other
    simp [other]

/-- The row that is written agrees with the entry exactly when no column was
left out for a copy that was out of date. -/
theorem applied_accounted_iff (call : Resolving parseUuid) {auditLogs : List AuditLog}
    {loaded current : Report} (named : current.id = call.target) :
    Accounted parseUuid (auditLogs ++ [call.entry]) (call.apply loaded current) ↔
      (call.payload.state = loaded.state → current.state = loaded.state) ∧
        (some call.actorId = loaded.handledBy → current.handledBy = loaded.handledBy) := by
  have id : (call.apply loaded current).id = call.target := named
  have last : lastHandling parseUuid (auditLogs ++ [call.entry]) (call.apply loaded current).id =
      some call.entry := by
    rw [last_handling_append, if_pos ((resolving_about call _).mpr id.symm)]
  unfold Accounted
  rw [last]
  simp only [Resolving.entry, List.cons.injEq, Prod.mk.injEq, Detail.text.injEq, true_and, and_true]
  rw [← written_iff, ← written_iff]
  constructor
  · rintro ⟨state, actor⟩
    exact ⟨(text_injective state).symm, actor.symm⟩
  · rintro ⟨state, actor⟩
    exact ⟨congrArg ReportState.text state.symm, actor.symm⟩

theorem accounted_elsewhere {auditLogs : List AuditLog} {entry : AuditLog} {row : Report}
    (other : ¬onReport parseUuid row.id entry = true) :
    Accounted parseUuid (auditLogs ++ [entry]) row ↔ Accounted parseUuid auditLogs row := by
  unfold Accounted
  rw [last_handling_append, if_neg other]

theorem created_elsewhere (filing : Filing) (id : Uuid) :
    ¬onReport parseUuid id (filing.entry showUuid) = true := by
  simp [onReport, Filing.entry]

omit [DecidableEq Tx] in
theorem unlisted_unhandled (inv : Inv state) {id : Uuid}
    (absent : ∀ row ∈ state.reports, row.id ≠ id) :
    lastHandling parseUuid state.auditLogs id = none := by
  unfold lastHandling
  rw [List.getLast?_eq_none_iff, List.filter_eq_nil_iff]
  intro entry member about
  obtain ⟨row, listed, same⟩ := inv.audited entry member id about
  exact absent row listed same

theorem step_accounts {action : Action parseUuid Tx} (inv : Inv state)
    (accounted : AllAccounted state) (fresh : Fresh state action)
    (taken : step showUuid state action = some next) : AllAccounted next := by
  cases action with
  | file tx filing =>
      obtain ⟨_, _, rfl⟩ := file_cases taken
      exact accounted
  | flush tx =>
      obtain ⟨_, _, _, ⟨_, rfl⟩ | ⟨_, rfl⟩⟩ := flush_cases taken
      · exact accounted
      · exact accounted
  | load tx call =>
      obtain ⟨_, _, _, _, rfl⟩ := load_cases taken
      exact accounted
  | commit tx =>
      rcases commit_cases taken with ⟨filing, phase, rfl⟩ | ⟨call, loaded, phase, rfl⟩
      · intro row member
        refine (accounted_elsewhere (created_elsewhere filing row.id)).mpr ?_
        rcases List.mem_append.mp member with earlier | this
        · exact accounted row earlier
        · rw [List.mem_singleton.mp this]
          unfold Accounted
          rw [unlisted_unhandled inv (inv.fresh tx filing (Or.inr phase)).2]
          exact filing.isNew
      · intro later member
        obtain ⟨current, listed, rfl⟩ := List.mem_map.mp member
        have named := (inv.loaded tx call loaded phase).1
        by_cases this : current.id = loaded.id
        · rw [if_pos this]
          exact (applied_accounted_iff call (this.trans named)).mpr
            (fresh tx rfl call loaded phase current listed this)
        · rw [if_neg this]
          refine (accounted_elsewhere fun about => this ?_).mpr (accounted current listed)
          exact ((resolving_about call current.id).mp about).symm.trans named.symm
  | finish tx =>
      obtain ⟨_, _, rfl⟩ := finish_cases taken
      exact accounted
  | abort tx =>
      obtain rfl := abort_cases taken
      exact accounted

theorem commit_needs {action : Action parseUuid Tx} (inv : Inv state)
    (good : ∀ next, step showUuid state action = some next → AllAccounted next) :
    Fresh state action := by
  rintro tx rfl call loaded phase current listed same
  have member : call.apply loaded current ∈ revised call loaded state.reports :=
    List.mem_map.mpr ⟨current, listed, if_pos same⟩
  exact (applied_accounted_iff call (same.trans (inv.loaded tx call loaded phase).1)).mp
    (good _ (commit_loaded phase) _ member)

/-- The reports and the audit log agree on how each report was last resolved
and by whom, in every state of a run, exactly when no call leaves out a column
that another call has changed since it read the report. -/
theorem accounted_iff {start : State parseUuid Tx} (inv : Inv start)
    (accounted : AllAccounted start) (actions : List (Action parseUuid Tx)) :
    (∀ visited, Visits (step showUuid) start actions visited → AllAccounted visited) ↔
      Meets (step showUuid) Fresh start actions :=
  always_iff_meets Inv (fun state => Inv state ∧ AllAccounted state) AllAccounted actions
    (fun _ _ _ inv taken => step_inv inv taken)
    (fun _ _ inv good => commit_needs inv good)
    (fun _ _ _ known fresh taken =>
      ⟨step_inv known.1 taken, step_accounts known.1 known.2 fresh taken⟩)
    (fun _ known => known.2) inv ⟨inv, accounted⟩

end Accounting

def emptyDesk (parseUuid : String → Option Uuid) : State parseUuid Nat :=
  { reports := [], auditLogs := [], drawn := [], locks := fun _ => none, phases := fun _ => none }

theorem empty_desk_inv (parseUuid : String → Option Uuid) : Inv (emptyDesk parseUuid) where
  ids := List.nodup_nil
  drawn := fun _ member => by cases member
  oneOpen := List.nodup_nil
  fresh := fun _ _ files => by rcases files with found | found <;> cases found
  apart := fun _ _ _ _ files => by rcases files with found | found <;> cases found
  flushed := fun _ _ found => by cases found
  loaded := fun _ _ _ found => by cases found
  audited := fun _ member => by cases member

def readId (text : String) : Option Uuid :=
  if text = "two" then some 2 else if text = "thirty" then some 30 else none

def reporter : User Nat :=
  { id := 1, phoneHash := 10, phoneLast4 := "0001", phoneCountry := "91", displayName := "Ann"
    systemRole := .user, accountState := .active, deletedAt := none }

def neighbours : Tables Nat where
  users := [reporter, { reporter with id := 2, phoneHash := 20, displayName := "Bob" }]

/-- User 1 reports user 2. -/
def complaint (id : Uuid) : Filing where
  report := { id := id, reporterId := 1, subjectType := .user, subjectUserId := some 2
              reason := "SPAM", detail := none, createdAt := 10 }
  subject := 2
  named := rfl
  isNew := ⟨rfl, rfl⟩

def spam : ReportIn := { subjectType := .user, subjectId := "two", reason := "SPAM", detail := none }

theorem complaint_checked (id : Uuid) :
    createReport readId neighbours reporter 10 RateLimit.emptyStore 0 spam id =
      .ok (complaint id) := by
  have screened : Routes.screenReport reporter RateLimit.emptyStore 0 "SPAM" = .ok () := by
    unfold Routes.screenReport
    rw [if_pos (by decide)]
    rfl
  unfold createReport
  rw [show spam.reason = "SPAM" from rfl, screened]
  rfl

/-- A double tap: the second report is refused by the index and received all
the same. -/
theorem double_tap_received :
    ∃ filed last : State readId Nat,
      run (step toString) filed [.flush 1, .commit 1, .flush 2] = some last ∧
        ∃ visited, Visits (step toString) filed [.flush 1, .commit 1, .flush 2] visited ∧
          OpenReport visited.reports ⟨1, .user, some 2⟩ := by
  obtain ⟨final, ran⟩ := Option.isSome_iff_exists.mp
    (by decide : (run (step toString) (emptyDesk readId)
      [.file 1 (complaint 30), .file 2 (complaint 31), .flush 1, .commit 1, .flush 2,
        .finish 2]).isSome = true)
  obtain ⟨first, begun, rest⟩ := (run_cons_iff _ _ _ _).mp ran
  obtain ⟨filed, called, onward⟩ := (run_cons_iff _ _ _ _).mp rest
  obtain ⟨last, middle, ended⟩ := (run_append_iff filed final
    ([.flush 1, .commit 1, .flush 2] : List (Action readId Nat)) [.finish 2]).mp onward
  have answered : finish last 2 = some final := (run_single _ _ _).mp ended
  obtain ⟨subject, visited, parsed, visits, there⟩ :=
    received_open (complaint_checked 31) called middle (by simp [Continues]) answered
  cases parsed
  exact ⟨filed, last, middle, visited, visits, there⟩

/-- A moderator's call on report 30. -/
def ruling (actorId : Uuid) (state : ReportState) (closes : state ≠ .isOpen) : Resolving readId where
  actorId := actorId
  actorRole := .moderator
  reportId := "thirty"
  target := 30
  payload := ⟨state, none, closes⟩
  handledAt := 20
  permitted := by decide
  parsed := rfl

/-- The report is triaged; then one moderator confirms that from a copy that
another moderator's dismissal puts out of date. -/
def staleTriage : List (Action readId Nat) :=
  [.file 1 (complaint 30), .flush 1, .commit 1, .load 2 (ruling 7 .triaged (by decide)), .commit 2,
    .load 3 (ruling 8 .triaged (by decide)), .load 4 (ruling 9 .dismissed (by decide)), .commit 4]

theorem triage_for_good :
    ∃ visited next : State readId Nat, commit toString visited 3 = some next ∧
      ∃ report ∈ next.reports, report.id = 30 ∧ report.state ≠ .isOpen := by
  obtain ⟨visited, ran, call, row, phase, target⟩ : ∃ visited : State readId Nat,
      run (step toString) (emptyDesk readId) staleTriage = some visited ∧
        ∃ call row, visited.phases 3 = some (.loaded call row) ∧ call.target = 30 :=
    ⟨_, rfl, _, _, rfl, rfl⟩
  obtain ⟨report, member, named, closed, _⟩ :=
    resolved_for_good (empty_desk_inv readId) ran phase (commit_loaded phase)
      (rfl : run (step toString) _ [] = some _)
  exact ⟨visited, _, commit_loaded phase, report, member, named.trans target, closed⟩

theorem stale_triage_unaccounted :
    ¬∀ visited, Visits (step toString) (emptyDesk readId) (staleTriage ++ [.commit 3]) visited →
      AllAccounted visited := by
  intro always
  have meets := (accounted_iff (empty_desk_inv readId) (fun _ member => by cases member)
    (staleTriage ++ [.commit 3])).mp always
  obtain ⟨visited, ran, call, row, phase, current, listed, same, wanted, changed⟩ :
      ∃ visited : State readId Nat,
        run (step toString) (emptyDesk readId) staleTriage = some visited ∧
          ∃ call row, visited.phases 3 = some (.loaded call row) ∧ ∃ current ∈ visited.reports,
            current.id = row.id ∧ call.payload.state = row.state ∧ current.state ≠ row.state :=
    ⟨_, rfl, _, _, rfl, _, List.mem_singleton_self _, rfl, rfl, by decide⟩
  exact changed ((((meets_append_iff ran).mp meets).2.1 3 rfl call row phase current listed same).1
    wanted)

end RunnerupChat.Reports
