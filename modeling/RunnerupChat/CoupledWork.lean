import RunnerupChat.UnitOfWork

/-!
Two runs of work side by side. The databases are related and the services are
equal; work is coupled when both runs end alike and leave them so.
-/

namespace RunnerupChat.CoupledWork

open UnitOfWork

variable {Database Outside Failure Answer Other Result Final : Type}

structure Related (relation : Database → Database → Prop)
    (left right : Session Database Outside) : Prop where
  committed : relation left.committed right.committed
  working : relation left.working right.working
  outside : left.outside = right.outside

/-- Both succeed, with related answers, or both fail with one failure. -/
inductive Alike (same : Answer → Other → Prop) :
    Except Failure Answer → Except Failure Other → Prop where
  | succeeded {left : Answer} {right : Other} (related : same left right) :
      Alike same (.ok left) (.ok right)
  | failed (failure : Failure) : Alike same (.error failure) (.error failure)

theorem alike_eq {left right : Except Failure Answer} (alike : Alike Eq left right) :
    left = right := by
  cases alike with
  | succeeded related => rw [related]
  | failed failure => rfl

/-- Coupled from these two sessions. -/
def CoupledAt (relation : Database → Database → Prop) (same : Answer → Other → Prop)
    (left : Work Database Outside Failure Answer) (right : Work Database Outside Failure Other)
    (first second : Session Database Outside) : Prop :=
  Alike same (perform left first).1 (perform right second).1 ∧
    Related relation (perform left first).2 (perform right second).2

def Coupled (relation : Database → Database → Prop) (same : Answer → Other → Prop)
    (left : Work Database Outside Failure Answer) (right : Work Database Outside Failure Other) :
    Prop :=
  ∀ first second, Related relation first second → CoupledAt relation same left right first second

section Rules
variable {relation : Database → Database → Prop} {same : Answer → Other → Prop}

theorem coupled_pure {left : Answer} {right : Other} (related : same left right) :
    Coupled relation same (pure left : Work Database Outside Failure Answer) (pure right) :=
  fun _ _ sessions => ⟨.succeeded related, sessions⟩

theorem coupled_throw (failure : Failure) :
    Coupled relation same (throw failure : Work Database Outside Failure Answer)
      (throw failure) :=
  fun _ _ sessions => ⟨.failed failure, sessions⟩

theorem coupled_commit :
    Coupled relation Eq (commit : Work Database Outside Failure Unit) commit :=
  fun _ _ sessions => ⟨.succeeded rfl, sessions.working, sessions.working, sessions.outside⟩

theorem coupled_rows :
    Coupled relation relation (rows : Work Database Outside Failure Database) rows :=
  fun _ _ sessions => ⟨.succeeded sessions.working, sessions⟩

/-- Two statements that keep the relation. -/
theorem coupled_execute {left right : Database → Database}
    (keeps : ∀ first second, relation first second → relation (left first) (right second)) :
    Coupled relation Eq (execute left : Work Database Outside Failure Unit) (execute right) :=
  fun _ _ sessions =>
    ⟨.succeeded rfl, sessions.committed, keeps _ _ sessions.working, sessions.outside⟩

theorem coupled_outside (call : Outside → Except Failure Answer × Outside) :
    Coupled relation Eq (outside call : Work Database Outside Failure Answer) (outside call) := by
  intro first second sessions
  have answered : (call first.outside).1 = (call second.outside).1 := by rw [sessions.outside]
  have left : (call first.outside).2 = (call second.outside).2 := by rw [sessions.outside]
  refine ⟨?_, sessions.committed, sessions.working, left⟩
  change Alike Eq (call first.outside).1 (call second.outside).1
  rw [answered]
  cases (call second.outside).1 with
  | ok answer => exact .succeeded rfl
  | error failure => exact .failed failure

theorem coupled_bind {left : Work Database Outside Failure Answer}
    {right : Work Database Outside Failure Other} {later : Result → Final → Prop}
    {next : Answer → Work Database Outside Failure Result}
    {after : Other → Work Database Outside Failure Final}
    (begins : Coupled relation same left right)
    (rest : ∀ first second, same first second → Coupled relation later (next first) (after second)) :
    Coupled relation later (left >>= next) (right >>= after) := by
  intro first second sessions
  obtain ⟨answers, further⟩ := begins first second sessions
  rcases one : perform left first with ⟨answer, one'⟩
  rcases two : perform right second with ⟨other, two'⟩
  rw [one, two] at answers further
  unfold CoupledAt
  cases answers with
  | succeeded related =>
      rw [perform_bind_ok first one, perform_bind_ok second two]
      exact rest _ _ related _ _ further
  | failed failure =>
      rw [perform_bind_error first one, perform_bind_error second two]
      exact ⟨.failed failure, further⟩

/-- The first part of the work answers alike on both sides. -/
theorem coupled_seq {left right : Work Database Outside Failure Answer}
    {later : Result → Final → Prop} {next : Answer → Work Database Outside Failure Result}
    {after : Answer → Work Database Outside Failure Final} (begins : Coupled relation Eq left right)
    (rest : ∀ answer, Coupled relation later (next answer) (after answer)) :
    Coupled relation later (left >>= next) (right >>= after) := by
  apply coupled_bind begins
  rintro answer _ rfl
  exact rest answer

/-- Two beginnings that end alike are followed alike. -/
theorem perform_bind_same {left right : Work Database Outside Failure Answer}
    {first second : Session Database Outside} (same : perform left first = perform right second)
    (next : Answer → Work Database Outside Failure Result) :
    perform (left >>= next) first = perform (right >>= next) second := by
  rcases done : perform right second with ⟨answer, after⟩
  have ended := same.trans done
  cases answer with
  | ok value => rw [perform_bind_ok first ended, perform_bind_ok second done]
  | error failure => rw [perform_bind_error first ended, perform_bind_error second done]

/-- The two runs are closed on related databases. -/
theorem coupled_session {left right : Work Database Outside Failure Answer}
    (coupled : Coupled relation Eq left right) {first second : Database}
    (databases : relation first second) (services : Outside) :
    (withSession left first services).1 = (withSession right second services).1 ∧
      relation (withSession left first services).2.1 (withSession right second services).2.1 ∧
      (withSession left first services).2.2 = (withSession right second services).2.2 := by
  obtain ⟨answers, further⟩ :=
    coupled ⟨first, first, services⟩ ⟨second, second, services⟩ ⟨databases, databases, rfl⟩
  exact ⟨alike_eq answers, further.committed, further.outside⟩

end Rules

end RunnerupChat.CoupledWork
