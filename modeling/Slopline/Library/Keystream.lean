import Mathlib.Data.List.Basic

/-! Synchronous stream ciphers: a generator advanced once for each symbol.

The generator never looks at the symbols, so a receiver that starts in the sender's
state ends in it, and undoes the combination symbol by symbol.
-/

set_option autoImplicit false

namespace Library.Keystream

variable {σ κ α : Type}

def apply (next : σ → κ × σ) (combine : κ → α → α) : σ → List α → List α × σ
  | state, [] => ([], state)
  | state, symbol :: rest =>
    let (key, state) := next state
    let (out, state) := apply next combine state rest
    (combine key symbol :: out, state)

variable (next : σ → κ × σ) (combine : κ → α → α)

@[simp] theorem length_apply (state : σ) (buffer : List α) :
    (apply next combine state buffer).1.length = buffer.length := by
  induction buffer generalizing state with
  | nil => rfl
  | cons symbol rest ih => simp [apply, ih]

/-- The same generator state undoes the combination, and moves on as the sender's did. -/
theorem apply_apply {next : σ → κ × σ} {combine : κ → α → α}
    (undo : ∀ key symbol, combine key (combine key symbol) = symbol) (state : σ) (buffer : List α) :
    apply next combine state (apply next combine state buffer).1 =
      (buffer, (apply next combine state buffer).2) := by
  induction buffer generalizing state with
  | nil => rfl
  | cons symbol rest ih => simp [apply, ih, undo]

theorem apply_append (state : σ) (buffer more : List α) :
    apply next combine state (buffer ++ more) =
      ((apply next combine state buffer).1 ++ (apply next combine (apply next combine state buffer).2 more).1,
        (apply next combine (apply next combine state buffer).2 more).2) := by
  induction buffer generalizing state with
  | nil => rfl
  | cons symbol rest ih => simp [apply, ih]

/-- Generators that make the same key symbols in related states make the same of a buffer. -/
theorem apply_related {τ : Type} {next : σ → κ × σ} {next' : τ → κ × τ} (related : σ → τ → Prop)
    (step : ∀ state state', related state state' →
      (next state).1 = (next' state').1 ∧ related (next state).2 (next' state').2)
    {state : σ} {state' : τ} (start : related state state') (buffer : List α) :
    (apply next combine state buffer).1 = (apply next' combine state' buffer).1 ∧
      related (apply next combine state buffer).2 (apply next' combine state' buffer).2 := by
  induction buffer generalizing state state' with
  | nil => exact ⟨rfl, start⟩
  | cons symbol rest ih =>
    have same := step state state' start
    have later := ih same.2
    constructor
    · simp only [apply, same.1, later.1]
    · exact later.2

end Library.Keystream
