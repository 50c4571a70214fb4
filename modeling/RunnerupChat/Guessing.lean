import Mathlib.Data.Finset.Card

/-!
Guessing games. A player puts queries to a system that holds a secret and
chooses each query from the answers so far. A query may test one candidate;
one that misses the secret must answer alike for every secret it misses, and
each test is paid from a budget.
-/

namespace RunnerupChat.Guessing

structure Game (Secret State Query Answer : Type) where
  respond : State → Query → Answer × State
  tested : State → Query → Option Secret
  budget : State → Nat

variable {Secret State Query Answer : Type}

/-- What a query leaves to the queries after it. -/
def Game.after (game : Game Secret State Query Answer) (state : State) (query : Query) : State :=
  (game.respond state query).2

def Game.answer (game : Game Secret State Query Answer) (state : State) (query : Query) : Answer :=
  (game.respond state query).1

/-- The player tests the secret in one of the next rounds. -/
def found [DecidableEq Secret] (game : Game Secret State Query Answer)
    (strategy : List Answer → Query) (secret : Secret) : Nat → State → List Answer → Bool
  | 0, _, _ => false
  | rounds + 1, state, answers =>
      game.tested state (strategy answers) == some secret ||
        found game strategy secret rounds (game.after state (strategy answers))
          (answers ++ [game.answer state (strategy answers)])

/-- Two states that hold two secrets stay alike until one of them is tested. -/
structure Hides (game : Game Secret State Query Answer) (allowed : Query → Prop)
    (alike : Secret → Secret → State → State → Prop) : Prop where
  tested : ∀ {first second left right}, alike first second left right →
    ∀ query, allowed query → game.tested left query = game.tested right query
  missed : ∀ {first second left right}, alike first second left right →
    ∀ query, allowed query → game.tested left query ≠ some first →
      game.tested left query ≠ some second →
      game.answer left query = game.answer right query ∧
        alike first second (game.after left query) (game.after right query)
  kept : ∀ {first second left right}, alike first second left right →
    ∀ query, allowed query → game.budget (game.after left query) ≤ game.budget left
  spent : ∀ {first second left right}, alike first second left right →
    ∀ query, allowed query → (game.tested left query).isSome →
      game.budget (game.after left query) < game.budget left

/-- These secrets are still open: their systems have answered alike. -/
structure Open (game : Game Secret State Query Answer)
    (alike : Secret → Secret → State → State → Prop) (secrets : Finset Secret)
    (held : Secret → State) (budget : Nat) : Prop where
  alike : ∀ first ∈ secrets, ∀ second ∈ secrets, alike first second (held first) (held second)
  within : ∀ secret ∈ secrets, game.budget (held secret) ≤ budget

section Bounds
variable {game : Game Secret State Query Answer} {allowed : Query → Prop}
  {alike : Secret → Secret → State → State → Prop}

theorem open_subset {secrets fewer : Finset Secret} {held : Secret → State} {budget : Nat}
    (part : fewer ⊆ secrets) (still : Open game alike secrets held budget) :
    Open game alike fewer held budget :=
  ⟨fun first one second two => still.alike first (part one) second (part two),
    fun secret member => still.within secret (part member)⟩

variable (hides : Hides game allowed alike)

include hides in
/-- The secrets that a query misses stay open, and answer it alike. -/
theorem missed_open {secrets : Finset Secret} {held : Secret → State} {budget left : Nat}
    (still : Open game alike secrets held budget) {query : Query} (permitted : allowed query)
    (misses : ∀ secret ∈ secrets, ∀ other ∈ secrets,
      game.tested (held secret) query ≠ some other)
    (paid : ∀ secret ∈ secrets, game.budget (game.after (held secret) query) ≤ left) :
    Open game alike secrets (fun secret => game.after (held secret) query) left ∧
      ∀ first ∈ secrets, ∀ second ∈ secrets,
        game.answer (held first) query = game.answer (held second) query := by
  have step := fun first one second two => hides.missed (still.alike first one second two) query
    permitted (misses first one first one) (misses first one second two)
  exact ⟨⟨fun first one second two => (step first one second two).2, paid⟩,
    fun first one second two => (step first one second two).1⟩

variable [DecidableEq Secret] {strategy : List Answer → Query}
  (admissible : ∀ answers, allowed (strategy answers))

include hides admissible in
/-- However the queries are chosen, the secrets that are found are no more
than the budget. -/
theorem found_bounded (rounds : Nat) (answers : List Answer) {secrets : Finset Secret}
    {held : Secret → State} {budget : Nat} (still : Open game alike secrets held budget) :
    (secrets.filter fun secret => found game strategy secret rounds (held secret) answers).card ≤
      budget := by
  induction rounds generalizing answers secrets held budget with
  | zero => simp [found]
  | succ rounds ih =>
      rcases secrets.eq_empty_or_nonempty with rfl | ⟨one, present⟩
      · simp
      have permitted := admissible answers
      have tests : ∀ secret ∈ secrets, game.tested (held secret) (strategy answers) =
          game.tested (held one) (strategy answers) := fun secret member =>
        hides.tested (still.alike secret member one present) _ permitted
      cases guess : game.tested (held one) (strategy answers) with
      | none =>
          obtain ⟨further, same⟩ := missed_open hides still permitted
            (fun secret member other _ => by simp [tests secret member, guess])
            (fun secret member => Nat.le_trans
              (hides.kept (still.alike secret member secret member) _ permitted)
              (still.within secret member))
          have later := ih (answers ++ [game.answer (held one) (strategy answers)]) further
          refine Nat.le_trans (Finset.card_le_card ?_) later
          intro secret listed
          obtain ⟨member, tried⟩ := Finset.mem_filter.mp listed
          rw [found, tests secret member, guess, same secret member one present] at tried
          exact Finset.mem_filter.mpr ⟨member, by simpa using tried⟩
      | some candidate =>
          have costs : ∀ secret ∈ secrets,
              game.budget (game.after (held secret) (strategy answers)) < budget := by
            intro secret member
            have spent := hides.spent (still.alike secret member secret member) _ permitted
              (by rw [tests secret member, guess]; rfl)
            exact Nat.lt_of_lt_of_le spent (still.within secret member)
          have some_left : 0 < budget := Nat.zero_lt_of_lt (costs one present)
          have fewer := Finset.erase_subset candidate secrets
          -- all but the candidate go on, with one test less
          obtain ⟨further, same⟩ := missed_open hides (open_subset fewer still) permitted
            (fun secret member other unlike => by
              rw [tests secret (fewer member), guess]
              exact fun equal => Finset.ne_of_mem_erase unlike (Option.some.inj equal).symm)
            (fun secret member => Nat.le_sub_one_of_lt (costs secret (fewer member)))
          obtain ⟨answer, common⟩ : ∃ answer, ∀ secret ∈ secrets.erase candidate,
              game.answer (held secret) (strategy answers) = answer := by
            rcases (secrets.erase candidate).eq_empty_or_nonempty with none_left | ⟨other, remains⟩
            · exact ⟨game.answer (held one) (strategy answers), by simp [none_left]⟩
            · exact ⟨_, fun secret member => same secret member other remains⟩
          have later := ih (answers ++ [answer]) further
          have split : (secrets.filter fun secret =>
              found game strategy secret (rounds + 1) (held secret) answers) ⊆
              insert candidate ((secrets.erase candidate).filter fun secret =>
                found game strategy secret rounds (game.after (held secret) (strategy answers))
                  (answers ++ [answer])) := by
            intro secret listed
            obtain ⟨member, tried⟩ := Finset.mem_filter.mp listed
            by_cases hit : secret = candidate
            · exact Finset.mem_insert.mpr (Or.inl hit)
            · have remains := Finset.mem_erase.mpr ⟨hit, member⟩
              rw [found, tests secret member, guess, common secret remains] at tried
              have missed : ¬candidate = secret := fun equal => hit equal.symm
              refine Finset.mem_insert_of_mem (Finset.mem_filter.mpr ⟨remains, ?_⟩)
              simpa [missed] using tried
          have counted := Finset.card_insert_le candidate
            ((secrets.erase candidate).filter fun secret =>
              found game strategy secret rounds (game.after (held secret) (strategy answers))
                (answers ++ [answer]))
          have most := Finset.card_le_card split
          omega

end Bounds

end RunnerupChat.Guessing
