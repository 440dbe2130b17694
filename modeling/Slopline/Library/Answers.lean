import Slopline.Library.Checked

/-! Machines whose operations have preconditions, and when one of them is another one in disguise. -/

set_option autoImplicit false

namespace Library.Checked

variable {ε α β γ δ σ τ ι κ ω : Type}

/-- Both end alike, and with related values where they have one. -/
def Related (related : α → β → Prop) : Checked ε α → Checked ε β → Prop
  | .value result, .value result' => related result result'
  | .error reason, .error reason' => reason = reason'
  | .fault, .fault => True
  | _, _ => False

theorem Related.bind {related : α → β → Prop} {further : γ → δ → Prop} {first : Checked ε α} {first' : Checked ε β}
    {next : α → Checked ε γ} {next' : β → Checked ε δ} (start : Related related first first')
    (steps : ∀ result result', first' = .value result' → related result result' →
      Related further (next result) (next' result')) :
    Related further (first >>= next) (first' >>= next') := by
  cases first' with
  | value result' =>
    cases first with
    | value result => exact steps result result' rfl start
    | error reason => exact start.elim
    | fault => exact start.elim
  | error reason' =>
    cases first with
    | value result => exact start.elim
    | error reason => exact start
    | fault => exact start.elim
  | fault =>
    cases first with
    | value result => exact start.elim
    | error reason => exact start.elim
    | fault => trivial

/-- The answers to a sequence of operations, and the state behind them. -/
def answers (perform : σ → ι → Checked ε (ω × σ)) : σ → List ι → Checked ε (List ω × σ)
  | state, [] => return ([], state)
  | state, op :: ops => do
    let (answer, state) ← perform state op
    let (others, state) ← answers perform state ops
    return (answer :: others, state)

def Throughout (perform : σ → ι → Checked ε (ω × σ)) (asked : σ → Prop) : σ → List ι → Prop
  | _, [] => True
  | state, op :: ops =>
    ∀ answer next, perform state op = .value (answer, next) → asked next ∧ Throughout perform asked next ops

/-- Each operation of the one machine is answered as that of the other one. -/
def Refines (perform : σ → ι → Checked ε (ω × σ)) (spec : τ → κ → Checked ε (ω × τ)) (view : ι → κ)
    (asked : τ → Prop) (related : σ → τ → Prop) : Prop :=
  ∀ state state' op, related state state' →
    (∀ answer next, spec state' (view op) = .value (answer, next) → asked next) →
    Related (fun left right => left.1 = right.1 ∧ related left.2 right.2) (perform state op) (spec state' (view op))

theorem Refines.answers {perform : σ → ι → Checked ε (ω × σ)} {spec : τ → κ → Checked ε (ω × τ)} {view : ι → κ}
    {asked : τ → Prop} {related : σ → τ → Prop} (refines : Refines perform spec view asked related)
    (ops : List ι) {state : σ} {state' : τ} (start : related state state')
    (all : Throughout spec asked state' (ops.map view)) :
    Related (fun left right => left.1 = right.1 ∧ related left.2 right.2) (answers perform state ops)
      (answers spec state' (ops.map view)) := by
  induction ops generalizing state state' with
  | nil => exact ⟨rfl, start⟩
  | cons op ops ih =>
    have step := refines state state' op start fun answer next performed => (all answer next performed).1
    refine step.bind fun reached result performed related => ?_
    obtain ⟨same, kept⟩ := related
    refine (ih kept (all result.1 result.2 performed).2).bind fun others others' _ rest => ?_
    exact ⟨congrArg₂ List.cons same rest.1, rest.2⟩

end Library.Checked
