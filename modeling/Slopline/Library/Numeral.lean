import Mathlib.Data.Nat.Notation

/-! Numerals: texts of digits, their value and how a number is printed. -/

set_option autoImplicit false

namespace Library

def digitValue (digit : Char) : Option ℕ :=
  if '0' ≤ digit ∧ digit ≤ '9' then some (digit.toNat - '0'.toNat)
  else if 'a' ≤ digit ∧ digit ≤ 'f' then some (digit.toNat - 'a'.toNat + 10)
  else if 'A' ≤ digit ∧ digit ≤ 'F' then some (digit.toNat - 'A'.toNat + 10)
  else none

def numeralFrom (base : ℕ) (value : ℕ) (text : List Char) : ℕ :=
  text.foldl (fun value digit => base * value + (digitValue digit).getD 0) value

structure Numeral (base : ℕ) (text : List Char) (value : ℕ) : Prop where
  nonempty : text ≠ []
  digits : ∀ digit ∈ text, ∃ d < base, digitValue digit = some d
  denotes : numeralFrom base 0 text = value

variable {base : ℕ}

theorem le_numeralFrom (positive : 0 < base) (value : ℕ) (text : List Char) :
    value ≤ numeralFrom base value text := by
  induction text generalizing value with
  | nil => exact Nat.le_refl _
  | cons digit text ih =>
    have grows : value ≤ base * value := Nat.le_mul_of_pos_left value positive
    exact Nat.le_trans (Nat.le_trans grows (Nat.le_add_right _ _)) (ih _)

theorem digitValue_digitChar {d : ℕ} (small : d < 16) : digitValue d.digitChar = some d := by
  revert d
  decide

theorem Numeral.digitChar {d : ℕ} (small : d < base) (supported : base ≤ 16) :
    Numeral base [d.digitChar] d := by
  have value := digitValue_digitChar (Nat.lt_of_lt_of_le small supported)
  constructor
  · exact List.cons_ne_nil _ _
  · intro digit inside
    rw [List.mem_singleton.mp inside]
    exact ⟨d, small, value⟩
  · simp [numeralFrom, value]

theorem Numeral.append {text : List Char} {value d : ℕ} {digit : Char} (numeral : Numeral base text value)
    (small : d < base) (same : digitValue digit = some d) :
    Numeral base (text ++ [digit]) (base * value + d) := by
  constructor
  · simp
  · intro other inside
    rcases List.mem_append.mp inside with front | back
    · exact numeral.digits other front
    · rw [List.mem_singleton.mp back]
      exact ⟨d, small, same⟩
  · have denotes := numeral.denotes
    rw [numeralFrom] at denotes ⊢
    rw [List.foldl_append, denotes, List.foldl_cons, List.foldl_nil, same, Option.getD_some]

/-- A printed number is a numeral of itself. -/
theorem numeral_toDigits (wide : 1 < base) (supported : base ≤ 16) (value : ℕ) :
    Numeral base (Nat.toDigits base value) value := by
  induction value using Nat.strongRecOn with
  | ind value ih =>
    by_cases small : value < base
    · rw [Nat.toDigits_of_lt_base small]
      exact .digitChar small supported
    · have positive : 0 < value := by omega
      have digit : value % base < base := Nat.mod_lt _ (by omega)
      rw [Nat.toDigits_of_base_le wide (Nat.le_of_not_lt small)]
      have whole := (ih _ (Nat.div_lt_self positive wide)).append digit
        (digitValue_digitChar (Nat.lt_of_lt_of_le digit supported))
      rwa [Nat.div_add_mod] at whole

end Library
