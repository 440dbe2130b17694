import Slopline.Library.Loop

/-! Ghost state beside a loop.

What a loop does is recorded round by round in a state of its own. The rounds do not read it, so
that the loop ends where it ends without the record.
-/

set_option autoImplicit false

namespace Library.Loop

variable {σ ρ γ : Type} {body : σ → Loop σ ρ}

/-- The loop with a mark made at every further round. -/
def watch (body : σ → Loop σ ρ) (mark : σ → γ → γ) (watched : σ × γ) : Loop (σ × γ) (ρ × γ) :=
  match body watched.1 with
  | .again next => .again (next, mark watched.1 watched.2)
  | .done result => .done (result, watched.2)

variable (mark : σ → γ → γ)

theorem watch_again {state next : σ} (round : body state = .again next) (ghost : γ) :
    watch body mark (state, ghost) = .again (next, mark state ghost) := by
  rw [watch, round]

theorem watch_done {state : σ} {result : ρ} (round : body state = .done result) (ghost : γ) :
    watch body mark (state, ghost) = .done (result, ghost) := by
  rw [watch, round]

variable (measure : σ → Nat)
  (drops : ∀ state next, body state = .again next → measure next < measure state)

include drops in
theorem watch_drops (watched next : σ × γ) (round : watch body mark watched = .again next) :
    measure next.1 < measure watched.1 := by
  obtain ⟨state, ghost⟩ := watched
  cases step : body state with
  | again reached =>
    rw [watch_again mark step] at round
    cases round
    exact drops state reached step
  | done result =>
    rw [watch_done mark step] at round
    cases round

def runWatched (state : σ) (ghost : γ) : ρ × γ :=
  run (fun watched => measure watched.1) (watch_drops mark measure drops) (state, ghost)

theorem runWatched_again {state next : σ} (round : body state = .again next) (ghost : γ) :
    runWatched mark measure drops state ghost = runWatched mark measure drops next (mark state ghost) :=
  run_again _ _ (watch_again mark round ghost)

theorem runWatched_done {state : σ} {result : ρ} (round : body state = .done result) (ghost : γ) :
    runWatched mark measure drops state ghost = (result, ghost) :=
  run_done _ _ (watch_done mark round ghost)

theorem runWatched_fst (state : σ) (ghost : γ) :
    (runWatched mark measure drops state ghost).1 = run measure drops state := by
  refine run_induction measure drops
    (motive := fun state result => ∀ ghost, (runWatched mark measure drops state ghost).1 = result)
    ?_ ?_ state ghost
  · intro state result round ghost
    rw [runWatched_done mark measure drops round]
  · intro state next result round ih ghost
    rw [runWatched_again mark measure drops round]
    exact ih _

/-- What the rounds keep of the state and the record holds where the loop leaves. -/
theorem runWatched_invariant (inv : σ → γ → Prop) (post : ρ → γ → Prop)
    (keeps : ∀ state next ghost, inv state ghost → body state = .again next → inv next (mark state ghost))
    (leaves : ∀ state result ghost, inv state ghost → body state = .done result → post result ghost)
    {state : σ} {ghost : γ} (start : inv state ghost) :
    post (run measure drops state) (runWatched mark measure drops state ghost).2 := by
  rw [← runWatched_fst mark measure drops state ghost]
  apply run_invariant (fun watched => measure watched.1) (watch_drops mark measure drops)
    (fun watched : σ × γ => inv watched.1 watched.2) (fun final : ρ × γ => post final.1 final.2) _ _ start
  · intro watched next holds round
    cases step : body watched.1 with
    | again reached =>
      rw [watch, step] at round
      cases round
      exact keeps _ _ _ holds step
    | done result =>
      rw [watch, step] at round
      cases round
  · intro watched final holds round
    cases step : body watched.1 with
    | again reached =>
      rw [watch, step] at round
      cases round
    | done result =>
      rw [watch, step] at round
      cases round
      exact leaves _ _ _ holds step

end Library.Loop
