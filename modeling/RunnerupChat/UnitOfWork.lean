import Mathlib.Data.List.Basic

/-!
Requests over one database session. Statements change what the session sees,
`commit` makes that durable, and closing the session drops the rest. Effects
outside the database are not undone.
-/

namespace RunnerupChat.UnitOfWork

structure Session (Database Outside : Type) where
  committed : Database
  working : Database
  outside : Outside

/-- Work on a session, which may be broken off by an exception. -/
abbrev Work (Database Outside Failure : Type) :=
  ExceptT Failure (StateM (Session Database Outside))

variable {Database Outside Failure Answer Result : Type}

def perform (work : Work Database Outside Failure Answer) (session : Session Database Outside) :
    Except Failure Answer × Session Database Outside :=
  work.run.run session

def rows : Work Database Outside Failure Database := do
  return (← get).working

def execute (statement : Database → Database) : Work Database Outside Failure Unit :=
  modify fun session => { session with working := statement session.working }

def commit : Work Database Outside Failure Unit :=
  modify fun session => { session with committed := session.working }

/-- A call to another service, which may refuse. -/
def outside (call : Outside → Except Failure Answer × Outside) :
    Work Database Outside Failure Answer :=
  ExceptT.mk fun session =>
    ((call session.outside).1, { session with outside := (call session.outside).2 })

/-- The session is opened on the committed rows; an exception rolls it back,
and without one it is closed as it is. -/
def withSession (work : Work Database Outside Failure Answer) (database : Database)
    (services : Outside) : Except Failure Answer × Database × Outside :=
  let (answer, after) := perform work ⟨database, database, services⟩
  (answer, after.committed, after.outside)

section Steps
variable (session : Session Database Outside)

@[simp] theorem perform_throw (failure : Failure) :
    perform (throw failure : Work Database Outside Failure Answer) session =
      (.error failure, session) := rfl

@[simp] theorem perform_pure (answer : Answer) :
    perform (pure answer : Work Database Outside Failure Answer) session =
      (.ok answer, session) := rfl

@[simp] theorem perform_rows :
    perform (rows : Work Database Outside Failure Database) session =
      (.ok session.working, session) := rfl

@[simp] theorem perform_execute (statement : Database → Database) :
    perform (execute statement : Work Database Outside Failure Unit) session =
      (.ok (), { session with working := statement session.working }) := rfl

@[simp] theorem perform_commit :
    perform (commit : Work Database Outside Failure Unit) session =
      (.ok (), { session with committed := session.working }) := rfl

/-- Work that succeeds hands its answer and its session on. -/
theorem perform_bind_ok {work : Work Database Outside Failure Answer}
    {next : Answer → Work Database Outside Failure Result} {answer : Answer}
    {after : Session Database Outside} (done : perform work session = (.ok answer, after)) :
    perform (work >>= next) session = perform (next answer) after := by
  unfold perform at done ⊢
  rw [ExceptT.run_bind, StateT.run_bind, done]
  rfl

theorem perform_bind_error {work : Work Database Outside Failure Answer}
    {next : Answer → Work Database Outside Failure Result} {failure : Failure}
    {after : Session Database Outside} (broken : perform work session = (.error failure, after)) :
    perform (work >>= next) session = (.error failure, after) := by
  unfold perform at broken ⊢
  rw [ExceptT.run_bind, StateT.run_bind, broken]
  rfl

end Steps

/-- Work that makes nothing durable. -/
def Uncommitting (work : Work Database Outside Failure Answer) : Prop :=
  ∀ session, (perform work session).2.committed = session.committed

theorem uncommitting_bind {work : Work Database Outside Failure Answer}
    {next : Answer → Work Database Outside Failure Result} (first : Uncommitting work)
    (rest : ∀ answer, Uncommitting (next answer)) : Uncommitting (work >>= next) := by
  intro session
  rcases done : perform work session with ⟨answer, after⟩
  have kept : after.committed = session.committed := by
    have same := first session
    rwa [done] at same
  cases answer with
  | ok value => rw [perform_bind_ok session done, rest value after, kept]
  | error failure => rw [perform_bind_error session done, kept]

theorem uncommitting_pure (answer : Answer) :
    Uncommitting (pure answer : Work Database Outside Failure Answer) :=
  fun _ => rfl

theorem uncommitting_throw (failure : Failure) :
    Uncommitting (throw failure : Work Database Outside Failure Answer) :=
  fun _ => rfl

/-- A statement with a condition makes nothing durable, met or not. -/
theorem uncommitting_checked (accepted : Bool) (statement : Database → Database)
    (failure : Failure) :
    Uncommitting (if accepted then execute statement else throw failure :
      Work Database Outside Failure Unit) := by
  intro session
  cases accepted with
  | true => rfl
  | false => rfl

/-- What is executed up to the last commit is what becomes durable. -/
theorem committed_of_commit (session : Session Database Outside)
    (statement : Database → Database) {rest : Work Database Outside Failure Answer}
    (uncommitting : Uncommitting rest) :
    (perform (execute statement >>= fun _ => commit >>= fun _ => rest) session).2.committed =
      statement session.working := by
  rw [perform_bind_ok session (perform_execute session statement),
    perform_bind_ok _ (perform_commit _)]
  exact uncommitting _

/-- Work that an exception ends before it has made anything durable. -/
def Breaks (work : Work Database Outside Failure Answer) (session : Session Database Outside) :
    Prop :=
  ∃ failure after, perform work session = (.error failure, after) ∧
    after.committed = session.committed

section Breaking
variable {work : Work Database Outside Failure Answer}
  {next : Answer → Work Database Outside Failure Result} {session : Session Database Outside}

theorem breaks_throw (failure : Failure) (session : Session Database Outside) :
    Breaks (throw failure : Work Database Outside Failure Answer) session :=
  ⟨failure, session, rfl, rfl⟩

theorem breaks_bind (broken : Breaks work session) : Breaks (work >>= next) session := by
  obtain ⟨failure, after, ended, kept⟩ := broken
  exact ⟨failure, after, perform_bind_error session ended, kept⟩

theorem breaks_after {answer : Answer} {after : Session Database Outside}
    (done : perform work session = (.ok answer, after)) (kept : after.committed = session.committed)
    (broken : Breaks (next answer) after) : Breaks (work >>= next) session := by
  obtain ⟨failure, final, ended, same⟩ := broken
  exact ⟨failure, final, (perform_bind_ok session done).trans ended, same.trans kept⟩

end Breaking

/-- Work that leaves both views of the database alone. -/
def Outward (work : Work Database Outside Failure Answer) : Prop :=
  ∀ session, ∃ services, (perform work session).2 = { session with outside := services }

theorem outward_pure (answer : Answer) :
    Outward (pure answer : Work Database Outside Failure Answer) :=
  fun session => ⟨session.outside, rfl⟩

theorem outward_outside (call : Outside → Except Failure Answer × Outside) :
    Outward (outside call : Work Database Outside Failure Answer) :=
  fun session => ⟨(call session.outside).2, rfl⟩

theorem outward_bind {work : Work Database Outside Failure Answer}
    {next : Answer → Work Database Outside Failure Result} (first : Outward work)
    (rest : ∀ answer, Outward (next answer)) : Outward (work >>= next) := by
  intro session
  obtain ⟨services, same⟩ := first session
  rcases done : perform work session with ⟨answer, after⟩
  obtain rfl : after = { session with outside := services } := by rwa [done] at same
  cases answer with
  | ok value =>
      rw [perform_bind_ok session done]
      exact rest value _
  | error failure => exact ⟨services, by rw [perform_bind_error session done]⟩

/-- Work that succeeds only with an answer of this kind. -/
def Answers (right : Answer → Prop) (work : Work Database Outside Failure Answer) : Prop :=
  ∀ session answer after, perform work session = (.ok answer, after) → right answer

theorem answers_pure {right : Answer → Prop} {answer : Answer} (holds : right answer) :
    Answers right (pure answer : Work Database Outside Failure Answer) := by
  rintro session found after ⟨⟩
  exact holds

theorem answers_throw {right : Answer → Prop} (failure : Failure) :
    Answers right (throw failure : Work Database Outside Failure Answer) := by
  rintro session found after ⟨⟩

/-- The last step of work decides its answer. -/
theorem answers_bind {right : Result → Prop} {work : Work Database Outside Failure Answer}
    {next : Answer → Work Database Outside Failure Result}
    (last : ∀ answer, Answers right (next answer)) : Answers right (work >>= next) := by
  intro session result final ran
  rcases done : perform work session with ⟨answer, after⟩
  cases answer with
  | ok value =>
      rw [perform_bind_ok session done] at ran
      exact last value after result final ran
  | error failure =>
      rw [perform_bind_error session done] at ran
      cases ran

end RunnerupChat.UnitOfWork
