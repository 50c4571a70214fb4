import Mathlib.Data.List.Basic

/-!
Runs of a partial step function. A step that is not enabled answers `none`,
so a list of actions is a run exactly when every action is enabled in turn.
Each induction over a run is stated here once: a preserved property holds at
the end of a run, and a property that needs a condition on the steps holds
at the end of every run whose steps meet it.
-/

namespace RunnerupChat.Runs

variable {State Action : Type}

def run (step : State → Action → Option State) : State → List Action → Option State
  | state, [] => some state
  | state, action :: rest => (step state action).bind fun next => run step next rest

variable {step : State → Action → Option State}

theorem run_cons_iff (state final : State) (action : Action) (rest : List Action) :
    run step state (action :: rest) = some final ↔
      ∃ next, step state action = some next ∧ run step next rest = some final := by
  simp [run, Option.bind_eq_some_iff]

theorem run_append_iff (state final : State) (left right : List Action) :
    run step state (left ++ right) = some final ↔
      ∃ middle, run step state left = some middle ∧ run step middle right = some final := by
  induction left generalizing state with
  | nil => simp [run]
  | cons action rest ih =>
      simp only [List.cons_append, run_cons_iff, ih]
      constructor
      · rintro ⟨next, taken, middle, before, after⟩
        exact ⟨middle, ⟨next, taken, before⟩, after⟩
      · rintro ⟨middle, ⟨next, taken, before⟩, after⟩
        exact ⟨next, taken, middle, before, after⟩

/-- The rest of a run goes on from where its beginning has come. -/
theorem run_after {state middle final : State} {left right : List Action}
    (ran : run step state (left ++ right) = some final) (reached : run step state left = some middle) :
    run step middle right = some final := by
  obtain ⟨other, first, onward⟩ := (run_append_iff state final left right).mp ran
  rw [Option.some.inj (reached.symm.trans first)]
  exact onward

theorem run_single (state final : State) (action : Action) :
    run step state [action] = some final ↔ step state action = some final := by
  simp [run]

/-- A property preserved by every enabled step holds at the end of a run. -/
theorem run_invariant (inv : State → Prop)
    (preserved : ∀ state action next, inv state → step state action = some next → inv next)
    {state final : State} {actions : List Action}
    (ran : run step state actions = some final) (holds : inv state) : inv final := by
  induction actions generalizing state with
  | nil =>
      simp only [run, Option.some.injEq] at ran
      exact ran ▸ holds
  | cons action rest ih =>
      obtain ⟨next, taken, after⟩ := (run_cons_iff state final action rest).mp ran
      exact ih after (preserved state action next holds taken)

/-- Every step of the run is taken in a state where it meets `allowed`. -/
def Meets (step : State → Action → Option State) (allowed : State → Action → Prop) :
    State → List Action → Prop
  | _, [] => True
  | state, action :: rest =>
      allowed state action ∧ ∀ next, step state action = some next → Meets step allowed next rest

variable {allowed : State → Action → Prop}

theorem meets_cons {state next : State} {action : Action} {rest : List Action}
    (taken : step state action = some next) (here : allowed state action)
    (later : Meets step allowed next rest) : Meets step allowed state (action :: rest) := by
  refine ⟨here, fun other found => ?_⟩
  rw [Option.some.inj (found.symm.trans taken)]
  exact later

theorem meets_append_iff {state middle : State} {left right : List Action}
    (ran : run step state left = some middle) :
    Meets step allowed state (left ++ right) ↔
      Meets step allowed state left ∧ Meets step allowed middle right := by
  induction left generalizing state with
  | nil =>
      simp only [run, Option.some.injEq] at ran
      simp [Meets, ran]
  | cons action rest ih =>
      obtain ⟨next, taken, after⟩ := (run_cons_iff state middle action rest).mp ran
      simp only [List.cons_append, Meets, taken, Option.some.injEq, forall_eq']
      rw [ih after, and_assoc]

/-- The invariant rule for runs whose steps all meet a condition. -/
theorem guarded_invariant (inv : State → Prop)
    (preserved : ∀ state action next, inv state → allowed state action →
      step state action = some next → inv next)
    {state final : State} {actions : List Action}
    (ran : run step state actions = some final)
    (meets : Meets step allowed state actions) (holds : inv state) : inv final := by
  induction actions generalizing state with
  | nil =>
      simp only [run, Option.some.injEq] at ran
      exact ran ▸ holds
  | cons action rest ih =>
      obtain ⟨next, taken, after⟩ := (run_cons_iff state final action rest).mp ran
      exact ih after (meets.2 next taken) (preserved state action next holds meets.1 taken)

/-- The states a run passes through, its two ends included. -/
def Visits (step : State → Action → Option State) (state : State) (actions : List Action)
    (visited : State) : Prop :=
  ∃ before after, actions = before ++ after ∧ run step state before = some visited

/-- A condition on the steps is met as soon as every step taken from a visited
state meets it. -/
theorem meets_of_visits {state : State} {actions : List Action}
    (each : ∀ before action after, actions = before ++ action :: after →
      ∀ visited, run step state before = some visited → allowed visited action) :
    Meets step allowed state actions := by
  induction actions generalizing state with
  | nil => trivial
  | cons action rest ih =>
      refine ⟨each [] action rest rfl state rfl, fun next taken => ih ?_⟩
      intro before later after split visited ran
      exact each (action :: before) later after (by rw [split]; rfl) visited
        ((run_cons_iff state visited action before).mpr ⟨next, taken, ran⟩)

/-- A visited state lies between the two ends of the run. -/
theorem visits_between {state visited final : State} {actions : List Action}
    (ran : run step state actions = some final) (visits : Visits step state actions visited) :
    ∃ before after, run step state before = some visited ∧ run step visited after = some final := by
  obtain ⟨before, after, rfl, reached⟩ := visits
  exact ⟨before, after, reached, run_after ran reached⟩

/-- What the rest of a run passes through, the run passes through. -/
theorem visits_later {state next visited : State} {action : Action} {rest : List Action}
    (taken : step state action = some next) (visits : Visits step next rest visited) :
    Visits step state (action :: rest) visited := by
  obtain ⟨before, after, rfl, reached⟩ := visits
  exact ⟨action :: before, after, rfl,
    (run_cons_iff state visited action before).mpr ⟨next, taken, reached⟩⟩

theorem visits_cons_iff {state next visited : State} {action : Action} {rest : List Action}
    (taken : step state action = some next) :
    Visits step state (action :: rest) visited ↔ visited = state ∨ Visits step next rest visited := by
  constructor
  · rintro ⟨before, after, split, reached⟩
    cases before with
    | nil => exact Or.inl (Option.some.inj reached).symm
    | cons first before =>
        cases split
        obtain ⟨other, first, onward⟩ := (run_cons_iff _ _ _ _).mp reached
        cases taken.symm.trans first
        exact Or.inr ⟨before, after, rfl, onward⟩
  · rintro (rfl | visits)
    · exact ⟨[], action :: rest, rfl, rfl⟩
    · exact visits_later taken visits

/-- What is pending at the start of a run is pending at its end, or is lost, or
has passed and there was a moment for it. -/
theorem moment_between (pending lost passed moment : State → Prop)
    (moves : ∀ state action next, pending state → allowed state action →
      step state action = some next →
      pending next ∨ lost next ∨ passed next ∧ (moment state ∨ moment next))
    (loses : ∀ state action next, lost state → allowed state action →
      step state action = some next → lost next)
    (passes : ∀ state action next, passed state → allowed state action →
      step state action = some next → lost next ∨ passed next)
    {state final : State} {actions : List Action} (ran : run step state actions = some final)
    (meets : Meets step allowed state actions) (holds : pending state) :
    pending final ∨ lost final ∨
      passed final ∧ ∃ visited, Visits step state actions visited ∧ moment visited := by
  induction actions generalizing state with
  | nil =>
      cases ran
      exact Or.inl holds
  | cons action rest ih =>
      obtain ⟨next, taken, after⟩ := (run_cons_iff state final action rest).mp ran
      have later := meets.2 next taken
      rcases moves state action next holds meets.1 taken with still | gone | ⟨past, here⟩
      · rcases ih after later still with still | gone | ⟨past, visited, visits, there⟩
        · exact Or.inl still
        · exact Or.inr (Or.inl gone)
        · exact Or.inr (Or.inr ⟨past, visited, visits_later taken visits, there⟩)
      · exact Or.inr (Or.inl (guarded_invariant lost loses after later gone))
      · have ended := guarded_invariant (fun state => lost state ∨ passed state)
          (fun state action next ended allowed taken => ended.elim
            (fun gone => Or.inl (loses state action next gone allowed taken))
            (fun past => passes state action next past allowed taken)) after later (Or.inr past)
        refine Or.inr (ended.imp id fun past => ⟨past, ?_⟩)
        rcases here with before | now
        · exact ⟨state, ⟨[], action :: rest, rfl, rfl⟩, before⟩
        · exact ⟨next, visits_later taken ⟨[], rest, rfl, rfl⟩, now⟩

/-- A property holds in every visited state exactly when every step meets a
condition, once each step that keeps the property is known to meet it. -/
theorem always_iff_meets (inv strong good : State → Prop) {state : State} (actions : List Action)
    (keeps : ∀ state action next, inv state → step state action = some next → inv next)
    (needed : ∀ state action, inv state →
      (∀ next, step state action = some next → good next) → allowed state action)
    (sound : ∀ state action next, strong state → allowed state action →
      step state action = some next → strong next)
    (implied : ∀ state, strong state → good state) (base : inv state) (holds : strong state) :
    (∀ visited, Visits step state actions visited → good visited) ↔
      Meets step allowed state actions := by
  constructor
  · intro always
    apply meets_of_visits
    intro before action after split visited reached
    apply needed visited action (run_invariant inv keeps reached base)
    intro next taken
    refine always next ⟨before ++ [action], after, by simp [split], ?_⟩
    exact (run_append_iff _ _ _ _).mpr
      ⟨visited, reached, (run_single visited next action).mpr taken⟩
  · rintro meets visited ⟨before, after, rfl, reached⟩
    exact implied visited
      (guarded_invariant strong sound reached ((meets_append_iff reached).mp meets).1 holds)

/-- A condition on the actions alone is enough. -/
theorem meets_of_actions {state : State} {actions : List Action} {admitted : Action → Prop}
    (enough : ∀ state action, admitted action → allowed state action)
    (only : ∀ action ∈ actions, admitted action) : Meets step allowed state actions := by
  induction actions generalizing state with
  | nil => trivial
  | cons action rest ih =>
      refine ⟨enough state action (only action List.mem_cons_self), fun next _ => ?_⟩
      exact ih fun later member => only later (List.mem_cons_of_mem action member)

theorem meets_of_all {state : State} {actions : List Action} {admitted : Action → Prop}
    (only : ∀ action ∈ actions, admitted action) :
    Meets step (fun _ action => admitted action) state actions :=
  meets_of_actions (fun _ _ admits => admits) only

theorem meets_and {state : State} {actions : List Action} {other : State → Action → Prop}
    (first : Meets step other state actions) (second : Meets step allowed state actions) :
    Meets step (fun state action => other state action ∧ allowed state action) state actions := by
  induction actions generalizing state with
  | nil => trivial
  | cons action rest ih =>
      exact ⟨⟨first.1, second.1⟩, fun next taken => ih (first.2 next taken) (second.2 next taken)⟩

/-- A step that is taken somewhere in a run. -/
def Takes (step : State → Action → Option State) (state : State) (actions : List Action)
    (visited : State) (action : Action) (next : State) : Prop :=
  ∃ before after, actions = before ++ action :: after ∧ run step state before = some visited ∧
    step visited action = some next

/-- The visited states are the first one and those that a step leads to. -/
theorem visits_iff_takes (good : State → Prop) {state : State} {actions : List Action} :
    (∀ visited, Visits step state actions visited → good visited) ↔
      good state ∧
        ∀ visited action next, Takes step state actions visited action next → good next := by
  constructor
  · intro always
    refine ⟨always state ⟨[], actions, rfl, rfl⟩, ?_⟩
    rintro visited action next ⟨before, after, rfl, reached, taken⟩
    refine always next ⟨before ++ [action], after, by simp, ?_⟩
    exact (run_append_iff _ _ _ _).mpr
      ⟨visited, reached, (run_single visited next action).mpr taken⟩
  · rintro ⟨first, later⟩ visited ⟨before, after, rfl, reached⟩
    rcases List.eq_nil_or_concat before with rfl | ⟨before, action, rfl⟩
    · cases reached
      exact first
    · rw [List.concat_eq_append] at reached
      obtain ⟨middle, earlier, last⟩ := (run_append_iff _ _ _ _).mp reached
      exact later middle action visited
        ⟨before, after, by simp, earlier, (run_single _ _ _).mp last⟩

/-- Every step of a run does what it should exactly when every step meets a
condition, once a step that does it is known to meet the condition. `admitted`
is what is known of the actions of the run. -/
theorem takes_iff_meets (inv strong : State → Prop) (good : State → Action → State → Prop)
    (admitted : Action → Prop) {state final : State} {actions : List Action}
    (ran : run step state actions = some final) (only : ∀ action ∈ actions, admitted action)
    (keeps : ∀ state action next, inv state → admitted action →
      step state action = some next → inv next)
    (needed : ∀ state action next, inv state → admitted action → step state action = some next →
      good state action next → allowed state action)
    (sound : ∀ state action next, strong state → admitted action → allowed state action →
      step state action = some next → strong next ∧ good state action next)
    (base : inv state) (holds : strong state) :
    (∀ visited action next, Takes step state actions visited action next →
      good visited action next) ↔ Meets step allowed state actions := by
  constructor
  · intro each
    apply meets_of_visits
    rintro before action after rfl visited reached
    obtain ⟨next, taken, _⟩ := (run_cons_iff _ _ _ _).mp (run_after ran reached)
    have known : inv visited := guarded_invariant inv keeps reached
      (meets_of_all fun other member => only other (List.mem_append_left _ member)) base
    exact needed visited action next known (only action (by simp)) taken
      (each visited action next ⟨before, after, rfl, reached, taken⟩)
  · rintro meets visited action next ⟨before, after, rfl, reached, taken⟩
    obtain ⟨earlier, here⟩ := (meets_append_iff reached).mp (meets_and (meets_of_all only) meets)
    have arrived : strong visited := guarded_invariant strong
      (fun state action next good allowed taken =>
        (sound state action next good allowed.1 allowed.2 taken).1) reached earlier holds
    exact (sound visited action next arrived here.1.1 here.1.2 taken).2

/-- What a run shows, step by step. -/
def observed {Out : Type} (step : State → Action → Option State)
    (observe : State → Action → State → List Out) : State → List Action → List Out
  | _, [] => []
  | state, action :: rest =>
      match step state action with
      | none => []
      | some next => observe state action next ++ observed step observe next rest

section Observed
variable {Out : Type} {observe : State → Action → State → List Out}

theorem observed_cons {state next : State} {action : Action} (rest : List Action)
    (taken : step state action = some next) :
    observed step observe state (action :: rest) =
      observe state action next ++ observed step observe next rest := by
  simp only [observed, taken]

theorem observed_from (inv : List Action → State → List Out → Prop)
    (preserved : ∀ done state seen action next, inv done state seen → allowed state action →
      step state action = some next → inv (done ++ [action]) next (seen ++ observe state action next))
    {state final : State} {done actions : List Action} {seen : List Out}
    (ran : run step state actions = some final) (meets : Meets step allowed state actions)
    (holds : inv done state seen) :
    inv (done ++ actions) final (seen ++ observed step observe state actions) := by
  induction actions generalizing state done seen with
  | nil =>
      simp only [run, Option.some.injEq] at ran
      simpa [observed, ran] using holds
  | cons action rest ih =>
      obtain ⟨next, taken, after⟩ := (run_cons_iff state final action rest).mp ran
      have here := preserved done state seen action next holds meets.1 taken
      have later := ih after (meets.2 next taken) here
      rw [observed_cons rest taken]
      simpa using later

/-- The invariant rule for what was done and what was shown. -/
theorem observed_invariant (inv : List Action → State → List Out → Prop)
    (observe : State → Action → State → List Out)
    (preserved : ∀ done state seen action next, inv done state seen → allowed state action →
      step state action = some next → inv (done ++ [action]) next (seen ++ observe state action next))
    {state final : State} {actions : List Action} (ran : run step state actions = some final)
    (meets : Meets step allowed state actions) (holds : inv [] state []) :
    inv actions final (observed step observe state actions) :=
  observed_from inv preserved ran meets holds

end Observed

/-- When every step that misses the condition shows something, a run that
never shows it meets the condition. -/
theorem meets_of_observed {Out : Type} {observe : State → Action → State → List Out} {out : Out}
    (shows : ∀ state action next, step state action = some next → ¬allowed state action →
      out ∈ observe state action next)
    {state final : State} {actions : List Action} (ran : run step state actions = some final)
    (absent : out ∉ observed step observe state actions) : Meets step allowed state actions := by
  induction actions generalizing state with
  | nil => trivial
  | cons action rest ih =>
      obtain ⟨next, taken, after⟩ := (run_cons_iff state final action rest).mp ran
      rw [observed_cons rest taken, List.mem_append, not_or] at absent
      apply meets_cons taken
      · by_contra broken
        exact absent.1 (shows state action next taken broken)
      · exact ih after absent.2

/-- Two states of a run, the earlier one first. -/
def Passes (step : State → Action → Option State) (state : State) (actions : List Action)
    (earlier later : State) : Prop :=
  ∃ before middle after, actions = before ++ (middle ++ after) ∧
    run step state before = some earlier ∧ run step earlier middle = some later

theorem passes_step {state earlier next : State} {before : List Action} {action : Action}
    (after : List Action) (reached : run step state before = some earlier)
    (taken : step earlier action = some next) :
    Passes step state (before ++ action :: after) earlier earlier ∧
      Passes step state (before ++ action :: after) earlier next ∧
      Passes step state (before ++ action :: after) next next := by
  have further : run step state (before ++ [action]) = some next :=
    (run_append_iff _ _ _ _).mpr ⟨earlier, reached, (run_single earlier next action).mpr taken⟩
  refine ⟨⟨before, [], action :: after, rfl, reached, rfl⟩, ?_, ?_⟩
  · exact ⟨before, [action], after, rfl, reached, (run_single earlier next action).mpr taken⟩
  · exact ⟨before ++ [action], [], after, by simp, further, rfl⟩

/-- A relation holds of every earlier and later state of a run exactly when
every step meets a condition, once each step that keeps the relation is known
to meet it. `admitted` is what is known of the actions of the run. -/
theorem pairs_iff_meets (inv strong : State → Prop) (related : State → State → Prop)
    (admitted : Action → Prop) {state final : State} {actions : List Action}
    (ran : run step state actions = some final) (only : ∀ action ∈ actions, admitted action)
    (keeps : ∀ state action next, inv state → step state action = some next → inv next)
    (needed : ∀ state action next, inv state → step state action = some next →
      related state state → related state next → related next next → allowed state action)
    (sound : ∀ state action next, strong state → admitted action → allowed state action →
      step state action = some next → strong next)
    (implied : ∀ state, strong state → related state state)
    (carried : ∀ earlier state action next, strong state → admitted action →
      allowed state action → step state action = some next →
      related earlier state → related earlier next)
    (base : inv state) (holds : strong state) :
    (∀ earlier later, Passes step state actions earlier later → related earlier later) ↔
      Meets step allowed state actions := by
  constructor
  · intro always
    apply meets_of_visits
    rintro before action after rfl visited reached
    obtain ⟨next, taken, _⟩ := (run_cons_iff _ _ _ _).mp (run_after ran reached)
    obtain ⟨here, across, there⟩ := passes_step after reached taken
    exact needed visited action next (run_invariant inv keeps reached base) taken
      (always _ _ here) (always _ _ across) (always _ _ there)
  · rintro meets earlier later ⟨before, middle, after, rfl, reached, onward⟩
    obtain ⟨first, second⟩ := (meets_append_iff reached).mp (meets_and (meets_of_all only) meets)
    have arrived : strong earlier := guarded_invariant strong
      (fun state action next good allowed => sound state action next good allowed.1 allowed.2)
      reached first holds
    have both : strong later ∧ related earlier later := guarded_invariant
      (fun later => strong later ∧ related earlier later)
      (fun state action next good allowed taken =>
        ⟨sound state action next good.1 allowed.1 allowed.2 taken,
          carried earlier state action next good.1 allowed.1 allowed.2 taken good.2⟩)
      onward ((meets_append_iff onward).mp second).1 ⟨arrived, implied earlier arrived⟩
    exact both.2

section Parties
variable {Party : Type} {parties : List Party} {index other : Nat} {changed added found : Party}

/-- One party of a list has moved: it is that one, or it is as before. -/
theorem moved_cases (listed : (parties.set index changed)[other]? = some found) :
    other = index ∧ found = changed ∨ other ≠ index ∧ parties[other]? = some found := by
  rw [List.getElem?_set] at listed
  by_cases same : index = other
  · rw [if_pos same] at listed
    split at listed
    · exact Or.inl ⟨same.symm, (Option.some.inj listed).symm⟩
    · cases listed
  · rw [if_neg same] at listed
    exact Or.inr ⟨Ne.symm same, listed⟩

theorem added_cases (listed : (parties ++ [added])[index]? = some found) :
    parties[index]? = some found ∨ index = parties.length ∧ found = added := by
  rw [List.getElem?_append] at listed
  split at listed
  · exact Or.inl listed
  · rw [List.getElem?_singleton] at listed
    split at listed
    · exact Or.inr ⟨by omega, (Option.some.inj listed).symm⟩
    · cases listed

end Parties

end RunnerupChat.Runs
