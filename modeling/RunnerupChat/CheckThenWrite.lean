import Mathlib.Data.List.Chain
import RunnerupChat.Runs
import RunnerupChat.SnapshotUpdate
import RunnerupChat.UniqueKeys

/-!
Requests that look whether a row is there and then insert or delete it, under
READ COMMITTED. The look takes no lock. An insert waits for whoever holds the
key and is rejected if the row is there by then; a delete waits for the row it
saw when it started, and finds nothing if that row is deleted meanwhile.
-/

namespace RunnerupChat.CheckThenWrite

open Runs SnapshotUpdate UniqueKeys

/-- `act` says what to write once it is known whether the row is there,
`fits` which rows the table takes. -/
structure Rules (Key Request : Type) where
  target : Request → Key
  act : Request → Bool → Option Bool
  fits : Key → Bool

inductive Phase (Request : Type) where
  | decided (request : Request) (adds : Bool)
  | waiting (request : Request)
  | written (request : Request) (adds effective : Bool)
  | settled (request : Request) (present : Bool)

inductive Outcome (Request : Type) where
  | found (request : Request)
  | changed (request : Request) (adds effective : Bool)
  | rejected (request : Request)
  deriving DecidableEq

structure State (Key Request Tx : Type) where
  rows : List Key
  locks : Locks Key Tx
  phases : Tx → Option (Phase Request)
  journal : List (Outcome Request)
  told : List (Request × Bool)

inductive Action (Request Tx : Type) where
  | look (tx : Tx) (request : Request)
  | write (tx : Tx)
  | commit (tx : Tx)
  | finish (tx : Tx)
  | abort (tx : Tx)

def Action.tx {Request Tx : Type} : Action Request Tx → Tx
  | .look tx _ | .write tx | .commit tx | .finish tx | .abort tx => tx

variable {Key Request Tx : Type} [DecidableEq Key] [DecidableEq Tx]

def initial (rows : List Key) : State Key Request Tx :=
  { rows := rows, locks := fun _ => none, phases := fun _ => none, journal := [], told := [] }

section Machine
variable (rules : Rules Key Request)

/-- The rows after a commit. -/
def changedRows (request : Request) (adds effective : Bool)
    (rows : List Key) : List Key :=
  if !effective then rows
  else if adds then rows ++ [rules.target request]
  else rows.filter fun other => decide (other ≠ rules.target request)

/-- A delete that waits for a row another transaction deletes finds nothing. -/
def changedPhases (request : Request) (adds effective : Bool) (phases : Tx → Option (Phase Request)) :
    Tx → Option (Phase Request) :=
  fun tx => match phases tx with
  | some (.waiting asked) =>
      if effective && !adds && decide (rules.target asked = rules.target request) then
        some (.written asked false false)
      else some (.waiting asked)
  | phase => phase

variable (state : State Key Request Tx)


def look (tx : Tx) (request : Request) : Option (State Key Request Tx) :=
  if (state.phases tx).isSome then none
  else match rules.act request (decide (rules.target request ∈ state.rows)) with
    | none =>
        some { state with
          phases := assign state.phases tx
            (some (.settled request (decide (rules.target request ∈ state.rows))))
          journal := state.journal ++ [.found request] }
    | some adds => some { state with phases := assign state.phases tx (some (.decided request adds)) }

/-- The statement itself. An insert of a row that does not fit is rejected
without a wait; a delete starts by looking for its row. -/
def write (tx : Tx) : Option (State Key Request Tx) :=
  match state.phases tx with
  | some (.decided request true) =>
      let rejected := { state with
        phases := assign state.phases tx none, journal := state.journal ++ [.rejected request] }
      if !rules.fits (rules.target request) then some rejected
      else if !available state.locks (rules.target request) tx then none
      else if decide (rules.target request ∈ state.rows) then some rejected
      else
        some { state with
          locks := acquire state.locks (rules.target request) tx
          phases := assign state.phases tx (some (.written request true true)) }
  | some (.decided request false) =>
      let found := decide (rules.target request ∈ state.rows)
      some { state with
        phases := assign state.phases tx
          (some (if found then .waiting request else .written request false false)) }
  | some (.waiting request) =>
      if !available state.locks (rules.target request) tx then none
      else
        some { state with
          locks := acquire state.locks (rules.target request) tx
          phases := assign state.phases tx (some (.written request false true)) }
  | _ => none

def commit (tx : Tx) : Option (State Key Request Tx) :=
  match state.phases tx with
  | some (.written request adds effective) =>
      some { state with
        rows := changedRows rules request adds effective state.rows
        locks := release state.locks tx
        phases := assign (changedPhases rules request adds effective state.phases) tx
          (some (.settled request adds))
        journal := state.journal ++ [.changed request adds effective] }
  | _ => none

def finish (tx : Tx) : Option (State Key Request Tx) :=
  match state.phases tx with
  | some (.settled request present) =>
      some { state with
        phases := assign state.phases tx none, told := state.told ++ [(request, present)] }
  | _ => none

def abort (tx : Tx) : Option (State Key Request Tx) :=
  if (state.phases tx).isSome then
    some { state with locks := release state.locks tx, phases := assign state.phases tx none }
  else none

def step : Action Request Tx → Option (State Key Request Tx)
  | .look tx request => look rules state tx request
  | .write tx => write rules state tx
  | .commit tx => commit rules state tx
  | .finish tx => finish state tx
  | .abort tx => abort state tx

end Machine

/-- What became of the row of one key, change by change. -/
def effects (rules : Rules Key Request) (key : Key) (journal : List (Outcome Request)) :
    List Bool :=
  journal.filterMap fun outcome =>
    match outcome with
    | .changed request adds true => if rules.target request = key then some adds else none
    | _ => none

structure Inv (rules : Rules Key Request) (start : List Key) (state : State Key Request Tx) :
    Prop where
  distinct : state.rows.Nodup
  fitting : ∀ key ∈ state.rows, key ∈ start ∨ rules.fits key = true
  holds : ∀ tx request adds, state.phases tx = some (.written request adds true) →
    state.locks (rules.target request) = some tx ∧
      decide (rules.target request ∈ state.rows) = !adds ∧
      (adds = true → rules.fits (rules.target request) = true)
  held : ∀ key tx, state.locks key = some tx → ∃ request adds,
    state.phases tx = some (.written request adds true) ∧ rules.target request = key
  vain : ∀ tx request adds, state.phases tx = some (.written request adds false) → adds = false
  waits : ∀ tx request, state.phases tx = some (.waiting request) →
    rules.target request ∈ state.rows
  changes : ∀ key, (decide (key ∈ start) :: effects rules key state.journal).IsChain (· ≠ ·) ∧
    (decide (key ∈ start) :: effects rules key state.journal).getLast (List.cons_ne_nil _ _) =
      decide (key ∈ state.rows)

section Steps
variable {rules : Rules Key Request} {start : List Key} {state : State Key Request Tx} {tx : Tx}

/-- Everything a write can do. -/
inductive Wrote (rules : Rules Key Request) (state : State Key Request Tx) (tx : Tx)
    (request : Request) : State Key Request Tx → Prop where
  | rejected (phase : state.phases tx = some (.decided request true))
      (conflict : rules.target request ∈ state.rows ∨ rules.fits (rules.target request) = false) :
      Wrote rules state tx request
        { state with
          phases := assign state.phases tx none, journal := state.journal ++ [.rejected request] }
  | vain (phase : state.phases tx = some (.decided request false))
      (gone : rules.target request ∉ state.rows) :
      Wrote rules state tx request
        { state with phases := assign state.phases tx (some (.written request false false)) }
  | waits (phase : state.phases tx = some (.decided request false))
      (there : rules.target request ∈ state.rows) :
      Wrote rules state tx request
        { state with phases := assign state.phases tx (some (.waiting request)) }
  | locked (adds : Bool)
      (phase : state.phases tx = some (if adds then .decided request true else .waiting request))
      (free : available state.locks (rules.target request) tx = true)
      (ready : adds = true → rules.target request ∉ state.rows ∧
        rules.fits (rules.target request) = true) :
      Wrote rules state tx request
        { state with
          locks := acquire state.locks (rules.target request) tx
          phases := assign state.phases tx (some (.written request adds true)) }

theorem write_cases {next : State Key Request Tx} (taken : write rules state tx = some next) :
    ∃ request, Wrote rules state tx request next := by
  unfold write at taken
  split at taken
  · rename_i request phase
    refine ⟨request, ?_⟩
    dsimp only at taken
    split at taken
    · rename_i unfit
      cases taken
      exact .rejected phase (Or.inr (by simpa using unfit))
    · rename_i fits
      split at taken
      · cases taken
      · rename_i free
        split at taken
        · rename_i there
          cases taken
          exact .rejected phase (Or.inl (of_decide_eq_true there))
        · rename_i absent
          cases taken
          exact .locked true phase (by simpa using free)
            fun _ => ⟨of_decide_eq_false ((Bool.not_eq_true _).mp absent), by simpa using fits⟩
  · rename_i request phase
    refine ⟨request, ?_⟩
    dsimp only at taken
    by_cases there : rules.target request ∈ state.rows
    · rw [if_pos (decide_eq_true there)] at taken
      cases taken
      exact .waits phase there
    · rw [if_neg (by simpa using there)] at taken
      cases taken
      exact .vain phase there
  · rename_i request phase
    refine ⟨request, ?_⟩
    split at taken
    · cases taken
    · rename_i free
      cases taken
      exact .locked false phase (by simpa using free) fun adds => by cases adds
  · cases taken

theorem look_cases {request : Request} {next : State Key Request Tx}
    (taken : look rules state tx request = some next) :
    state.phases tx = none ∧
      ((rules.act request (decide (rules.target request ∈ state.rows)) = none ∧
          next = { state with
            phases := assign state.phases tx
              (some (.settled request (decide (rules.target request ∈ state.rows))))
            journal := state.journal ++ [.found request] }) ∨
        ∃ adds, rules.act request (decide (rules.target request ∈ state.rows)) = some adds ∧
          next = { state with
            phases := assign state.phases tx (some (.decided request adds)) }) := by
  unfold look at taken
  split at taken
  · cases taken
  · rename_i busy
    refine ⟨by simpa using busy, ?_⟩
    split at taken
    · rename_i found
      exact Or.inl ⟨found, (Option.some.inj taken).symm⟩
    · rename_i adds decided
      exact Or.inr ⟨adds, decided, (Option.some.inj taken).symm⟩

omit [DecidableEq Key] in
theorem finish_cases {next : State Key Request Tx} (taken : finish state tx = some next) :
    ∃ request present, state.phases tx = some (.settled request present) ∧
      next = { state with
        phases := assign state.phases tx none, told := state.told ++ [(request, present)] } := by
  unfold finish at taken
  split at taken
  · rename_i request present phase
    exact ⟨request, present, phase, (Option.some.inj taken).symm⟩
  · cases taken

omit [DecidableEq Key] in
theorem abort_cases {next : State Key Request Tx} (taken : abort state tx = some next) :
    next = { state with
      locks := release state.locks tx, phases := assign state.phases tx none } := by
  unfold abort at taken
  split at taken
  · exact (Option.some.inj taken).symm
  · cases taken

theorem commit_cases {next : State Key Request Tx} (taken : commit rules state tx = some next) :
    ∃ request adds effective, state.phases tx = some (.written request adds effective) ∧
      next = { state with
        rows := changedRows rules request adds effective state.rows
        locks := release state.locks tx
        phases := assign (changedPhases rules request adds effective state.phases) tx
          (some (.settled request adds))
        journal := state.journal ++ [.changed request adds effective] } := by
  unfold commit at taken
  split at taken
  · rename_i request adds effective phase
    exact ⟨request, adds, effective, phase, (Option.some.inj taken).symm⟩
  · cases taken

theorem commit_taken {request : Request} {adds effective : Bool}
    (phase : state.phases tx = some (.written request adds effective)) :
    commit rules state tx = some { state with
      rows := changedRows rules request adds effective state.rows
      locks := release state.locks tx
      phases := assign (changedPhases rules request adds effective state.phases) tx
        (some (.settled request adds))
      journal := state.journal ++ [.changed request adds effective] } := by
  simp only [commit, phase]

theorem effects_append (key : Key) (journal : List (Outcome Request)) (outcome : Outcome Request) :
    effects rules key (journal ++ [outcome]) =
      effects rules key journal ++ effects rules key [outcome] :=
  List.filterMap_append

/-- A phase that holds no row. -/
def Lockless : Option (Phase Request) → Prop
  | some (.written _ _ effective) => effective = false
  | _ => True

/-- A transaction without a lock moves on and changes no row. -/
theorem quiet_inv (inv : Inv rules start state) {phase : Option (Phase Request)}
    {journal : List (Outcome Request)} {told : List (Request × Bool)}
    (before : Lockless (state.phases tx))
    (lockless : Lockless phase)
    (vain : ∀ request adds, phase = some (.written request adds false) → adds = false)
    (waits : ∀ request, phase = some (.waiting request) → rules.target request ∈ state.rows)
    (same : ∀ key, effects rules key journal = effects rules key state.journal) :
    Inv rules start { state with
      phases := assign state.phases tx phase, journal := journal, told := told } where
  distinct := inv.distinct
  fitting := inv.fitting
  holds := by
    intro other request adds found
    rcases assign_cases found with ⟨_, here⟩ | ⟨_, there⟩
    · rw [here] at lockless
      cases lockless
    · exact inv.holds other request adds there
  held := by
    intro key other locked
    obtain ⟨request, adds, phase, named⟩ := inv.held key other locked
    have apart : other ≠ tx := by
      rintro rfl
      rw [phase] at before
      cases before
    exact ⟨request, adds, (assign_other _ _ apart).trans phase, named⟩
  vain := by
    intro other request adds found
    rcases assign_cases found with ⟨_, here⟩ | ⟨_, there⟩
    · exact vain request adds here
    · exact inv.vain other request adds there
  waits := by
    intro other request found
    rcases assign_cases found with ⟨_, here⟩ | ⟨_, there⟩
    · exact waits request here
    · exact inv.waits other request there
  changes := by
    intro key
    rw [same key]
    exact inv.changes key

theorem locked_inv (inv : Inv rules start state) {request : Request} {adds : Bool}
    (lockless : Lockless (state.phases tx))
    (free : available state.locks (rules.target request) tx = true)
    (there : decide (rules.target request ∈ state.rows) = !adds)
    (fits : adds = true → rules.fits (rules.target request) = true) :
    Inv rules start { state with
      locks := acquire state.locks (rules.target request) tx
      phases := assign state.phases tx (some (.written request adds true)) } where
  distinct := inv.distinct
  fitting := inv.fitting
  holds := by
    intro other asked wanted found
    rcases assign_cases found with ⟨rfl, here⟩ | ⟨apart, held⟩
    · injection here with here
      injection here with same added
      subst same added
      exact ⟨acquire_same _ _ _, there, fits⟩
    · obtain ⟨locked, present, rest⟩ := inv.holds other asked wanted held
      exact ⟨acquire_keeps _ _ _ _ _ free locked, present, rest⟩
  held := by
    intro key other locked
    by_cases named : key = rules.target request
    · subst named
      have mine : some tx = some other := (acquire_same _ _ _).symm.trans locked
      cases mine
      exact ⟨request, adds, assign_same _ _ _, rfl⟩
    · have before : state.locks key = some other := by simpa [acquire, named] using locked
      obtain ⟨asked, wanted, held, rest⟩ := inv.held key other before
      have apart : other ≠ tx := by
        rintro rfl
        rw [held] at lockless
        cases lockless
      exact ⟨asked, wanted, (assign_other _ _ apart).trans held, rest⟩
  vain := by
    intro other asked wanted found
    rcases assign_cases found with ⟨_, here⟩ | ⟨_, held⟩
    · cases here
    · exact inv.vain other asked wanted held
  waits := by
    intro other asked found
    rcases assign_cases found with ⟨_, here⟩ | ⟨_, held⟩
    · cases here
    · exact inv.waits other asked held
  changes := inv.changes

/-- A transaction that ends keeps no lock; what it held is free. -/
theorem released_holds (inv : Inv rules start state) {other : Tx} (apart : other ≠ tx)
    {request : Request} {adds : Bool}
    (held : state.phases other = some (.written request adds true)) :
    release state.locks tx (rules.target request) = some other :=
  release_keeps _ _ _ _ apart (inv.holds other request adds held).1

theorem released_held (inv : Inv rules start state) {key : Key} {other : Tx}
    (locked : release state.locks tx key = some other) :
    other ≠ tx ∧ ∃ request adds,
      state.phases other = some (.written request adds true) ∧ rules.target request = key := by
  unfold release at locked
  split at locked
  · cases locked
  · rename_i apart
    refine ⟨?_, inv.held key other locked⟩
    rintro rfl
    exact apart locked

theorem abort_inv (inv : Inv rules start state) :
    Inv rules start { state with
      locks := release state.locks tx, phases := assign state.phases tx none } where
  distinct := inv.distinct
  fitting := inv.fitting
  holds := by
    intro other request adds found
    obtain ⟨apart, held⟩ := assign_none_kept found
    obtain ⟨_, present, rest⟩ := inv.holds other request adds held
    exact ⟨released_holds inv apart held, present, rest⟩
  held := by
    intro key other locked
    obtain ⟨apart, request, adds, held, named⟩ := released_held inv locked
    exact ⟨request, adds, (assign_other _ _ apart).trans held, named⟩
  vain := by
    intro other request adds found
    exact inv.vain other request adds (assign_none_kept found).2
  waits := by
    intro other request found
    exact inv.waits other request (assign_none_kept found).2
  changes := inv.changes

theorem changed_here (request : Request) (adds : Bool) (rows : List Key) :
    decide (rules.target request ∈ changedRows rules request adds true rows) = adds := by
  cases adds with
  | true => simp [changedRows]
  | false => simp [changedRows]

theorem changed_elsewhere {request : Request} {key : Key} (other : key ≠ rules.target request)
    (adds effective : Bool) (rows : List Key) :
    key ∈ changedRows rules request adds effective rows ↔ key ∈ rows := by
  cases effective with
  | false => simp [changedRows]
  | true => cases adds with
    | true => simp [changedRows, other]
    | false => simp [changedRows, other]

omit [DecidableEq Tx] in
/-- The changes of a key alternate, and the last one tells whether the row is there. -/
theorem changed_changes (inv : Inv rules start state) {request : Request} {adds effective : Bool}
    (phase : state.phases tx = some (.written request adds effective)) (key : Key) :
    (decide (key ∈ start) :: effects rules key
        (state.journal ++ [.changed request adds effective])).IsChain (· ≠ ·) ∧
      (decide (key ∈ start) :: effects rules key
        (state.journal ++ [.changed request adds effective])).getLast (List.cons_ne_nil _ _) =
        decide (key ∈ changedRows rules request adds effective state.rows) := by
  obtain ⟨chain, last⟩ := inv.changes key
  rw [effects_append]
  by_cases counted : effective = true ∧ rules.target request = key
  · obtain ⟨rfl, rfl⟩ := counted
    have there := (inv.holds tx request adds phase).2.1
    have alone : effects rules (rules.target request) [.changed request adds true] = [adds] := by
      simp [effects]
    rw [alone, changed_here]
    refine ⟨?_, ?_⟩
    · rw [← List.cons_append]
      refine List.IsChain.append chain (List.isChain_singleton _) ?_
      intro before final after only
      rw [List.getLast?_eq_some_getLast (List.cons_ne_nil _ _), last, there] at final
      simp only [List.head?_cons, Option.mem_def, Option.some.injEq] at final only
      subst final only
      simp
    · simp
  · have none_here : effects rules key [.changed request adds effective] = [] := by
      cases effective with
      | false => simp [effects]
      | true =>
          have elsewhere : ¬rules.target request = key := fun same => counted ⟨rfl, same⟩
          simp [effects, elsewhere]
    rw [none_here, List.append_nil]
    refine ⟨chain, last.trans ?_⟩
    by_cases same : key = rules.target request
    · cases effective with
      | false => simp [changedRows]
      | true => exact absurd ⟨rfl, same.symm⟩ counted
    · simp only [changed_elsewhere same]

omit [DecidableEq Tx] in
theorem changed_phase_cases {request : Request} {adds effective : Bool}
    {phases : Tx → Option (Phase Request)} {phase : Phase Request}
    (found : changedPhases rules request adds effective phases tx = some phase) :
    (phases tx = some phase ∧ ∀ asked, phase = .waiting asked → effective = true → adds = false →
        rules.target asked ≠ rules.target request) ∨
      ∃ asked, phases tx = some (.waiting asked) ∧ phase = .written asked false false := by
  unfold changedPhases at found
  split at found
  · rename_i asked waiting
    split at found
    · exact Or.inr ⟨asked, waiting, (Option.some.inj found).symm⟩
    · rename_i kept
      refine Or.inl ⟨waiting.trans found, ?_⟩
      rintro other rfl rfl rfl same
      cases found
      exact kept (by simp [same])
  · rename_i elsewhere
    refine Or.inl ⟨found, ?_⟩
    rintro asked rfl
    exact absurd found (elsewhere asked)

omit [DecidableEq Tx] in
theorem changed_phase_keeps {request : Request} {adds effective : Bool}
    {phases : Tx → Option (Phase Request)} {asked : Request} {wanted done : Bool}
    (held : phases tx = some (.written asked wanted done)) :
    changedPhases rules request adds effective phases tx = some (.written asked wanted done) := by
  simp only [changedPhases, held]

theorem commit_inv (inv : Inv rules start state) {request : Request} {adds effective : Bool}
    (phase : state.phases tx = some (.written request adds effective)) :
    Inv rules start { state with
      rows := changedRows rules request adds effective state.rows
      locks := release state.locks tx
      phases := assign (changedPhases rules request adds effective state.phases) tx
        (some (.settled request adds))
      journal := state.journal ++ [.changed request adds effective] } where
  distinct := by
    cases effective with
    | false => exact inv.distinct
    | true =>
        have there := (inv.holds tx request adds phase).2.1
        cases adds with
        | true =>
            have absent : rules.target request ∉ state.rows := by simpa using there
            have apart : (state.rows ++ [rules.target request]).Nodup := by
              refine List.nodup_append.mpr ⟨inv.distinct, List.nodup_singleton _, ?_⟩
              intro one member other single same
              rw [List.mem_singleton.mp single] at same
              exact absent (same ▸ member)
            exact apart
        | false => exact inv.distinct.filter _
  fitting := by
    intro key member
    by_cases same : key = rules.target request
    · cases effective with
      | false => exact inv.fitting key member
      | true => cases adds with
        | true => exact Or.inr (same ▸ (inv.holds tx request true phase).2.2 rfl)
        | false => exact inv.fitting key (List.mem_filter.mp member).1
    · exact inv.fitting key ((changed_elsewhere same adds effective state.rows).mp member)
  holds := by
    intro other asked wanted found
    rcases assign_cases found with ⟨_, here⟩ | ⟨apart, found⟩
    · cases here
    · rcases changed_phase_cases found with ⟨held, _⟩ | ⟨_, _, turned⟩
      · obtain ⟨locked, present, rest⟩ := inv.holds other asked wanted held
        refine ⟨released_holds inv apart held, ?_, rest⟩
        by_cases same : rules.target asked = rules.target request
        · cases effective with
          | false => exact present
          | true =>
              -- two transactions do not hold one key
              have mine := (inv.holds tx request adds phase).1
              rw [← same, locked, Option.some.injEq] at mine
              exact absurd mine apart
        · simpa only [changed_elsewhere same] using present
      · cases turned
  held := by
    intro key other locked
    obtain ⟨apart, asked, wanted, held, named⟩ := released_held inv locked
    exact ⟨asked, wanted, (assign_other _ _ apart).trans (changed_phase_keeps held), named⟩
  vain := by
    intro other asked wanted found
    rcases assign_cases found with ⟨_, here⟩ | ⟨_, found⟩
    · cases here
    · rcases changed_phase_cases found with ⟨held, _⟩ | ⟨_, _, turned⟩
      · exact inv.vain other asked wanted held
      · cases turned
        rfl
  waits := by
    intro other asked found
    rcases assign_cases found with ⟨_, here⟩ | ⟨_, found⟩
    · cases here
    · rcases changed_phase_cases found with ⟨held, kept⟩ | ⟨_, _, turned⟩
      · have member := inv.waits other asked held
        by_cases same : rules.target asked = rules.target request
        · cases effective with
          | false => exact member
          | true => cases adds with
            | true => exact List.mem_append_left _ member
            | false => exact absurd same (kept asked rfl rfl rfl)
        · exact (changed_elsewhere same adds effective state.rows).mpr member
      · cases turned
  changes := changed_changes inv phase

end Steps

section Running
variable {rules : Rules Key Request} {start : List Key} {state next : State Key Request Tx}

theorem look_inv {tx : Tx} {request : Request} (inv : Inv rules start state)
    (taken : look rules state tx request = some next) : Inv rules start next := by
  obtain ⟨free, ⟨_, rfl⟩ | ⟨adds, _, rfl⟩⟩ := look_cases taken
  · refine quiet_inv inv (by rw [free]; trivial) trivial (fun _ _ same => by cases same)
      (fun _ same => by cases same) fun key => ?_
    have silent : effects rules key [Outcome.found request] = [] := rfl
    rw [effects_append, silent, List.append_nil]
  · exact quiet_inv inv (by rw [free]; trivial) trivial (fun _ _ same => by cases same)
      (fun _ same => by cases same) fun _ => rfl

theorem write_inv {tx : Tx} (inv : Inv rules start state)
    (taken : write rules state tx = some next) : Inv rules start next := by
  obtain ⟨request, wrote⟩ := write_cases taken
  cases wrote with
  | rejected phase conflict =>
      refine quiet_inv inv (by rw [phase]; trivial) trivial (fun _ _ same => by cases same)
        (fun _ same => by cases same) fun key => ?_
      have silent : effects rules key [Outcome.rejected request] = [] := rfl
      rw [effects_append, silent, List.append_nil]
  | vain phase gone =>
      refine quiet_inv inv (by rw [phase]; trivial) rfl ?_ (fun _ same => by cases same) fun _ => rfl
      intro asked wanted same
      injection same with same
      injection same with _ added
      exact added.symm
  | waits phase there =>
      refine quiet_inv inv (by rw [phase]; trivial) trivial (fun _ _ same => by cases same) ?_
        fun _ => rfl
      intro asked same
      cases same
      exact there
  | locked adds phase free ready =>
      cases adds with
      | true =>
          exact locked_inv inv (by rw [phase]; trivial) free (by simp [ready rfl])
            fun _ => (ready rfl).2
      | false =>
          have there := inv.waits tx request phase
          exact locked_inv inv (by rw [phase]; trivial) free (by simp [there])
            fun adds => by cases adds

theorem finish_inv {tx : Tx} (inv : Inv rules start state)
    (taken : finish state tx = some next) : Inv rules start next := by
  obtain ⟨request, present, phase, rfl⟩ := finish_cases taken
  exact quiet_inv inv (by rw [phase]; trivial) trivial (fun _ _ same => by cases same)
    (fun _ same => by cases same) fun _ => rfl

theorem step_inv (inv : Inv rules start state) {action : Action Request Tx}
    (taken : step rules state action = some next) : Inv rules start next := by
  cases action with
  | look tx request => exact look_inv inv taken
  | write tx => exact write_inv inv taken
  | commit tx =>
      obtain ⟨request, adds, effective, phase, rfl⟩ := commit_cases taken
      exact commit_inv inv phase
  | finish tx => exact finish_inv inv taken
  | abort tx =>
      obtain rfl := abort_cases taken
      exact abort_inv inv

omit [DecidableEq Tx] in
theorem initial_inv (distinct : start.Nodup) :
    Inv rules start (initial start : State Key Request Tx) where
  distinct := distinct
  fitting := fun key member => Or.inl member
  holds := fun _ _ _ found => by cases found
  held := fun _ _ locked => by cases locked
  vain := fun _ _ _ found => by cases found
  waits := fun _ _ found => by cases found
  changes := fun key => ⟨List.isChain_singleton _, rfl⟩

theorem run_inv (distinct : start.Nodup) {actions : List (Action Request Tx)}
    (ran : run (step rules) (initial start) actions = some next) : Inv rules start next :=
  run_invariant (Inv rules start) (fun _ _ _ inv taken => step_inv inv taken) ran
    (initial_inv distinct)

end Running

section Answers
variable {rules : Rules Key Request} {state next : State Key Request Tx} {tx : Tx}

/-- A request that has not yet had its effect, and will have this one. -/
def Pending (state : State Key Request Tx) (tx : Tx) (request : Request) (adds : Bool) : Prop :=
  state.phases tx = some (.decided request adds) ∨
    (adds = false ∧ state.phases tx = some (.waiting request)) ∨
    state.phases tx = some (.written request adds true)

/-- A request that has had its effect and is not answered yet. -/
def Passed (state : State Key Request Tx) (tx : Tx) (request : Request) (present : Bool) : Prop :=
  state.phases tx = some (.written request present false) ∨
    state.phases tx = some (.settled request present)

theorem other_phase {action : Action Request Tx} (taken : step rules state action = some next)
    (apart : action.tx ≠ tx) :
    next.phases tx = state.phases tx ∨
      ∃ asked, state.phases tx = some (.waiting asked) ∧
        next.phases tx = some (.written asked false false) ∧ rules.target asked ∉ next.rows := by
  have mine : tx ≠ action.tx := fun same => apart same.symm
  cases action with
  | look other asked =>
      obtain ⟨_, ⟨_, rfl⟩ | ⟨_, _, rfl⟩⟩ := look_cases taken
      · exact Or.inl (assign_other _ _ mine)
      · exact Or.inl (assign_other _ _ mine)
  | write other =>
      obtain ⟨asked, wrote⟩ := write_cases taken
      cases wrote with
      | rejected _ _ | vain _ _ | waits _ _ | locked _ _ _ _ => exact Or.inl (assign_other _ _ mine)
  | commit other =>
      obtain ⟨asked, adds, effective, _, rfl⟩ := commit_cases taken
      have kept : assign (changedPhases rules asked adds effective state.phases) other
          (some (.settled asked adds)) tx = changedPhases rules asked adds effective state.phases tx :=
        assign_other _ _ mine
      dsimp only
      rw [kept]
      unfold changedPhases
      split
      · rename_i waiter waiting
        split
        · rename_i woken
          simp only [Bool.and_eq_true, Bool.not_eq_true', decide_eq_true_eq] at woken
          obtain ⟨⟨rfl, rfl⟩, same⟩ := woken
          refine Or.inr ⟨waiter, waiting, rfl, ?_⟩
          simp [changedRows, same]
        · exact Or.inl waiting.symm
      · exact Or.inl rfl
  | finish other =>
      obtain ⟨_, _, _, rfl⟩ := finish_cases taken
      exact Or.inl (assign_other _ _ mine)
  | abort other =>
      obtain rfl := abort_cases taken
      exact Or.inl (assign_other _ _ mine)

/-- The three things a step can do to a pending request. -/
def Moved (rules : Rules Key Request) (state next : State Key Request Tx) (tx : Tx)
    (request : Request) (adds : Bool) : Prop :=
  Pending next tx request adds ∨ next.phases tx = none ∨
    Passed next tx request adds ∧ (decide (rules.target request ∈ state.rows) = adds ∨
      decide (rules.target request ∈ next.rows) = adds)

theorem write_moves {request : Request} {adds : Bool}
    (taken : write rules state tx = some next) (pending : Pending state tx request adds) :
    Moved rules state next tx request adds := by
  obtain ⟨asked, wrote⟩ := write_cases taken
  cases wrote with
  | rejected phase conflict => exact Or.inr (Or.inl (assign_same _ _ _))
  | vain phase gone =>
      rcases pending with held | ⟨_, held⟩ | held <;> cases phase.symm.trans held
      exact Or.inr (Or.inr ⟨Or.inl (assign_same _ _ _), Or.inl (by simp [gone])⟩)
  | waits phase there =>
      rcases pending with held | ⟨_, held⟩ | held <;> cases phase.symm.trans held
      exact Or.inl (Or.inr (Or.inl ⟨rfl, assign_same _ _ _⟩))
  | locked wanted phase free ready =>
      refine Or.inl (Or.inr (Or.inr ((assign_same _ _ _).trans ?_)))
      cases wanted with
      | true =>
          rcases pending with held | ⟨_, held⟩ | held <;> cases phase.symm.trans held
          rfl
      | false =>
          rcases pending with held | ⟨rfl, held⟩ | held <;> cases phase.symm.trans held
          rfl

theorem commit_moves {request : Request} {adds : Bool}
    (taken : commit rules state tx = some next) (pending : Pending state tx request adds) :
    Moved rules state next tx request adds := by
  obtain ⟨asked, wanted, effective, phase, rfl⟩ := commit_cases taken
  rcases pending with held | ⟨_, held⟩ | held <;> cases phase.symm.trans held
  exact Or.inr (Or.inr ⟨Or.inr (assign_same _ _ _),
    Or.inr (changed_here request adds state.rows)⟩)

/-- A pending request stays pending, or ends without an answer, or has its
effect at this step. -/
theorem step_moves {action : Action Request Tx} {request : Request} {adds : Bool}
    (taken : step rules state action = some next) (pending : Pending state tx request adds) :
    Moved rules state next tx request adds := by
  by_cases own : action.tx = tx
  · subst own
    cases action with
    | look other asked =>
        have idle := (look_cases taken).1
        rcases pending with held | ⟨_, held⟩ | held <;> cases idle.symm.trans held
    | write other => exact write_moves taken pending
    | commit other => exact commit_moves taken pending
    | finish other =>
        obtain ⟨_, _, settled, _⟩ := finish_cases taken
        rcases pending with held | ⟨_, held⟩ | held <;> cases settled.symm.trans held
    | abort other =>
        obtain rfl := abort_cases taken
        exact Or.inr (Or.inl (assign_same _ _ _))
  · rcases other_phase taken own with same | ⟨asked, waiting, turned, gone⟩
    · left
      unfold Pending
      rw [same]
      exact pending
    · rcases pending with held | ⟨rfl, held⟩ | held <;> cases waiting.symm.trans held
      exact Or.inr (Or.inr ⟨Or.inl turned, Or.inr (by simp [gone])⟩)

/-- A transaction without a request gets one by a look only. -/
theorem idle_step {action : Action Request Tx} (idle : state.phases tx = none)
    (unasked : ∀ other, action ≠ .look tx other)
    (taken : step rules state action = some next) : next.phases tx = none := by
  by_cases own : action.tx = tx
  · subst own
    cases action with
    | look other asked => exact absurd rfl (unasked asked)
    | write other =>
        obtain ⟨asked, wrote⟩ := write_cases taken
        cases wrote with
        | rejected phase _ | vain phase _ | waits phase _ => cases idle.symm.trans phase
        | locked adds phase _ _ => cases idle.symm.trans phase
    | commit other =>
        obtain ⟨_, _, _, phase, _⟩ := commit_cases taken
        cases idle.symm.trans phase
    | finish other =>
        obtain ⟨_, _, phase, _⟩ := finish_cases taken
        cases idle.symm.trans phase
    | abort other =>
        obtain rfl := abort_cases taken
        exact assign_same _ _ _
  · rcases other_phase taken own with same | ⟨asked, waiting, _, _⟩
    · exact same.trans idle
    · cases idle.symm.trans waiting

theorem passed_step {action : Action Request Tx} {request : Request} {present : Bool}
    (passed : Passed state tx request present) (unasked : ∀ other, action ≠ .look tx other)
    (taken : step rules state action = some next) :
    next.phases tx = none ∨ Passed next tx request present := by
  by_cases own : action.tx = tx
  · subst own
    cases action with
    | look other asked => exact absurd rfl (unasked asked)
    | write other =>
        obtain ⟨asked, wrote⟩ := write_cases taken
        cases wrote with
        | rejected phase _ | vain phase _ | waits phase _ =>
            rcases passed with held | held <;> cases held.symm.trans phase
        | locked adds phase _ _ =>
            cases adds <;> rcases passed with held | held <;> cases held.symm.trans phase
    | commit other =>
        obtain ⟨asked, adds, effective, phase, rfl⟩ := commit_cases taken
        rcases passed with held | held <;> cases held.symm.trans phase
        exact Or.inr (Or.inr (assign_same _ _ _))
    | finish other =>
        obtain ⟨_, _, _, rfl⟩ := finish_cases taken
        exact Or.inl (assign_same _ _ _)
    | abort other =>
        obtain rfl := abort_cases taken
        exact Or.inl (assign_same _ _ _)
  · rcases other_phase taken own with same | ⟨asked, waiting, _, _⟩
    · right
      unfold Passed
      rw [same]
      exact passed
    · rcases passed with held | held <;> cases held.symm.trans waiting

theorem pending_settled {actions : List (Action Request Tx)} {final : State Key Request Tx}
    {request answered : Request} {adds present : Bool}
    (ran : run (step rules) state actions = some final)
    (own : ∀ action ∈ actions, ∀ other, action ≠ .look tx other)
    (pending : Pending state tx request adds)
    (settled : final.phases tx = some (.settled answered present)) :
    answered = request ∧ present = adds ∧
      ∃ visited, Visits (step rules) state actions visited ∧
        decide (rules.target request ∈ visited.rows) = adds := by
  have ended := moment_between (fun state => Pending state tx request adds)
    (fun state => state.phases tx = none) (fun state => Passed state tx request adds)
    (fun state => decide (rules.target request ∈ state.rows) = adds)
    (fun _ _ _ pending _ taken => step_moves taken pending)
    (fun _ _ _ idle unasked taken => idle_step idle unasked taken)
    (fun _ _ _ passed unasked taken => passed_step passed unasked taken)
    ran (meets_of_all own) pending
  rcases ended with pending | idle | ⟨passed, moment⟩
  · rcases pending with held | ⟨_, held⟩ | held <;> cases settled.symm.trans held
  · cases settled.symm.trans idle
  · rcases passed with held | held <;> cases settled.symm.trans held
    exact ⟨rfl, rfl, moment⟩

/-- A request and its answer: the answer is what the request asks for, and the
row was as the answer says at some moment in between. -/
theorem settled_between {first looked final : State Key Request Tx}
    {actions : List (Action Request Tx)} {request answered : Request} {present : Bool}
    (asked : look rules first tx request = some looked)
    (ran : run (step rules) looked actions = some final)
    (own : ∀ action ∈ actions, ∀ other, action ≠ .look tx other)
    (settled : final.phases tx = some (.settled answered present)) :
    answered = request ∧
      (rules.act request present = none ∨ ∃ there, rules.act request there = some present) ∧
      ∃ visited, Visits (step rules) looked actions visited ∧
        decide (rules.target request ∈ visited.rows) = present := by
  obtain ⟨_, ⟨found, rfl⟩ | ⟨adds, decided, rfl⟩⟩ := look_cases asked
  · have last := guarded_invariant (fun state => state.phases tx = none ∨
        Passed state tx request (decide (rules.target request ∈ first.rows)))
      (fun _ _ _ ended unasked taken => ended.elim
        (fun idle => Or.inl (idle_step idle unasked taken))
        (fun passed => passed_step passed unasked taken)) ran
      (meets_of_all own) (Or.inr (Or.inr (assign_same _ _ _)))
    rcases last with idle | held | held <;> cases settled.symm.trans ‹_›
    exact ⟨rfl, Or.inl found, _, ⟨[], actions, rfl, rfl⟩, rfl⟩
  · obtain ⟨same, alike, visited, visits, there⟩ :=
      pending_settled ran own (Or.inl (assign_same _ _ _)) settled
    subst alike
    exact ⟨same, Or.inr ⟨_, decided⟩, visited, visits, there⟩

end Answers

end RunnerupChat.CheckThenWrite
