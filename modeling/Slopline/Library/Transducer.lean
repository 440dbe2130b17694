import Mathlib.Data.List.Basic

/-! Machines that answer every operation, and when two of them cannot be told apart. -/

set_option autoImplicit false

namespace Library

variable {σ τ ι ω : Type}

def outputs (perform : σ → ι → ω × σ) : σ → List ι → List ω
  | _, [] => []
  | state, op :: ops => (perform state op).1 :: outputs perform (perform state op).2 ops

def Lockstep (perform : σ → ι → ω × σ) (perform' : τ → ι → ω × τ) (related : σ → τ → Prop) : Prop :=
  ∀ state state' op, related state state' →
    (perform state op).1 = (perform' state' op).1 ∧ related (perform state op).2 (perform' state' op).2

theorem Lockstep.outputs_eq {perform : σ → ι → ω × σ} {perform' : τ → ι → ω × τ} {related : σ → τ → Prop}
    (steps : Lockstep perform perform' related) {state : σ} {state' : τ} (start : related state state')
    (ops : List ι) : outputs perform state ops = outputs perform' state' ops := by
  induction ops generalizing state state' with
  | nil => rfl
  | cons op ops ih =>
    have same := steps state state' op start
    rw [outputs, outputs, same.1, ih same.2]

end Library
