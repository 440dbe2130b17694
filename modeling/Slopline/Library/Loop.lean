import Mathlib.Data.Nat.Notation

/-! Loops whose body either goes round again or leaves with a result.

A `for (;;)` loop is its body here: a function on the loop's state. A measure
that drops on every further round makes the loop total, so that running it needs
no fuel argument and no default result.
-/

set_option autoImplicit false

namespace Library

inductive Loop (σ ρ : Type) where
  | again (state : σ)
  | done (result : ρ)

namespace Loop

variable {σ ρ : Type}

def iterate (body : σ → Loop σ ρ) : Nat → σ → Option ρ
  | 0, _ => none
  | fuel + 1, state =>
    match body state with
    | .again next => iterate body fuel next
    | .done result => some result

inductive Reaches (body : σ → Loop σ ρ) : σ → σ → Prop where
  | refl (state : σ) : Reaches body state state
  | next {state next final : σ} : body state = .again next → Reaches body next final →
      Reaches body state final

variable {body : σ → Loop σ ρ}

theorem Reaches.trans {first middle last : σ} (head : Reaches body first middle)
    (tail : Reaches body middle last) : Reaches body first last := by
  induction head with
  | refl state => exact tail
  | next step _ ih => exact .next step (ih tail)

theorem iterate_isSome {measure : σ → Nat}
    (drops : ∀ state next, body state = .again next → measure next < measure state)
    (fuel : Nat) (state : σ) (enough : measure state < fuel) : (iterate body fuel state).isSome := by
  induction fuel generalizing state with
  | zero => exact absurd enough (Nat.not_lt_zero _)
  | succ fuel ih =>
    cases round : body state with
    | done result => simp [iterate, round]
    | again next =>
      have less := drops state next round
      simpa [iterate, round] using ih next (by omega)

theorem iterate_mono {fuel more : Nat} {state : σ} {result : ρ}
    (found : iterate body fuel state = some result) (le : fuel ≤ more) :
    iterate body more state = some result := by
  induction fuel generalizing state more with
  | zero => simp [iterate] at found
  | succ fuel ih =>
    obtain ⟨more, rfl⟩ : ∃ n, more = n + 1 := ⟨more - 1, by omega⟩
    cases round : body state with
    | done value => simpa [iterate, round] using found
    | again next =>
      simp only [iterate, round] at found ⊢
      exact ih found (by omega)

variable (measure : σ → Nat)
  (drops : ∀ state next, body state = .again next → measure next < measure state)

def run (state : σ) : ρ :=
  (iterate body (measure state + 1) state).get
    (iterate_isSome drops _ _ (Nat.lt_succ_self _))

theorem iterate_run {fuel : Nat} {state : σ} (enough : measure state < fuel) :
    iterate body fuel state = some (run measure drops state) := by
  have here : iterate body (measure state + 1) state = some (run measure drops state) := by
    simp [run]
  exact iterate_mono here enough

theorem run_done {state : σ} {result : ρ} (round : body state = .done result) :
    run measure drops state = result := by
  simp [run, iterate, round]

theorem run_again {state next : σ} (round : body state = .again next) :
    run measure drops state = run measure drops next := by
  have less := drops state next round
  have here := iterate_run measure drops (Nat.lt_succ_self (measure state))
  simp only [iterate, round] at here
  exact (Option.some.inj ((iterate_run measure drops less).symm.trans here)).symm

include drops in
/-- To show something of every state, show it of a state whose next one has it. -/
theorem rounds_induction {motive : σ → Prop}
    (round : ∀ state, (∀ next, body state = .again next → motive next) → motive state) (state : σ) :
    motive state := by
  generalize bound : measure state = n
  induction n using Nat.strongRecOn generalizing state with
  | ind n ih => exact round state fun next step => ih _ (bound ▸ drops state next step) next rfl

/-- To show something of a loop's result, show it where the loop leaves and carry
it back over one round. -/
theorem run_induction {motive : σ → ρ → Prop}
    (leaves : ∀ state result, body state = .done result → motive state result)
    (round : ∀ state next result, body state = .again next → motive next result → motive state result)
    (state : σ) : motive state (run measure drops state) := by
  generalize bound : measure state = n
  induction n using Nat.strongRecOn generalizing state with
  | ind n ih =>
    cases step : body state with
    | done result =>
      rw [run_done measure drops step]
      exact leaves state result step
    | again next =>
      rw [run_again measure drops step]
      exact round state next _ step (ih _ (bound ▸ drops state next step) next rfl)

/-- An invariant of the rounds holds wherever the loop leaves. -/
theorem run_invariant (inv : σ → Prop) (post : ρ → Prop)
    (keeps : ∀ state next, inv state → body state = .again next → inv next)
    (leaves : ∀ state result, inv state → body state = .done result → post result)
    {state : σ} (start : inv state) : post (run measure drops state) := by
  have goal : inv state → post (run measure drops state) := by
    refine run_induction measure drops (motive := fun state result => inv state → post result) ?_ ?_ state
    · exact fun state result step holds => leaves state result holds step
    · exact fun state next result step later holds => later (keeps state next holds step)
  exact goal start

theorem run_last (state : σ) :
    ∃ last, Reaches body state last ∧ body last = .done (run measure drops state) := by
  refine run_induction measure drops
    (motive := fun state result => ∃ last, Reaches body state last ∧ body last = .done result) ?_ ?_ state
  · exact fun state result step => ⟨state, .refl _, step⟩
  · rintro state next result step ⟨last, reaches, leaves⟩
    exact ⟨last, .next step reaches, leaves⟩

theorem run_reaches {first last : σ} (reaches : Reaches body first last) :
    run measure drops first = run measure drops last := by
  induction reaches with
  | refl _ => rfl
  | next step _ ih => exact (run_again measure drops step).trans ih

/-- A loop simulates a coarser one when several of its rounds do what one round of the
other does, and it ends well wherever the other leaves. -/
theorem run_simulates {τ ω : Type} {spec : τ → Loop τ ω} (specMeasure : τ → Nat)
    (specDrops : ∀ state next, spec state = .again next → specMeasure next < specMeasure state)
    (related : σ → τ → Prop) (post : ρ → ω → Prop)
    (round : ∀ state abstract next, related state abstract → spec abstract = .again next →
      ∃ reached, Reaches body state reached ∧ related reached next)
    (leaves : ∀ state abstract result, related state abstract → spec abstract = .done result →
      post (run measure drops state) result)
    {state : σ} {abstract : τ} (start : related state abstract) :
    post (run measure drops state) (run specMeasure specDrops abstract) := by
  have goal : ∀ state, related state abstract → post (run measure drops state)
      (run specMeasure specDrops abstract) := by
    refine run_induction specMeasure specDrops
      (motive := fun abstract result => ∀ state, related state abstract → post (run measure drops state) result)
      ?_ ?_ abstract
    · exact fun abstract result step state relates => leaves state abstract result relates step
    · intro abstract next result step ih state relates
      obtain ⟨reached, reaches, relates'⟩ := round state abstract next relates step
      rw [run_reaches measure drops reaches]
      exact ih reached relates'
  exact goal state start

end Loop

end Library
