import Mathlib.Algebra.Group.Nat.Defs
import Mathlib.Data.Nat.Notation

/-! Numbers as a fixed count of base-256 digits, in either order. -/

set_option autoImplicit false

namespace Library

def little : ℕ → ℕ → List UInt8
  | 0, _ => []
  | count + 1, value => UInt8.ofNat value :: little count (value / 256)

def big (count value : ℕ) : List UInt8 := (little count value).reverse

@[simp] theorem length_little (count value : ℕ) : (little count value).length = count := by
  induction count generalizing value with
  | zero => rfl
  | succ count ih => simp [little, ih]

@[simp] theorem length_big (count value : ℕ) : (big count value).length = count := by
  rw [big, List.length_reverse, length_little]

theorem little_add (low high value : ℕ) :
    little (low + high) value = little low value ++ little high (value / 256 ^ low) := by
  induction low generalizing value with
  | zero => simp [little]
  | succ low ih =>
    have shift : value / 256 / 256 ^ low = value / 256 ^ (low + 1) := by
      rw [Nat.div_div_eq_div_mul, Nat.pow_succ, Nat.mul_comm]
    rw [Nat.succ_add, little, ih, shift]
    rfl

theorem little_mod (count value : ℕ) : little count (value % 256 ^ count) = little count value := by
  induction count generalizing value with
  | zero => rfl
  | succ count ih =>
    have divides : 256 ∣ 256 ^ (count + 1) := Nat.dvd_mul_left 256 (256 ^ count)
    have first : value % 256 ^ (count + 1) % 256 = value % 256 := Nat.mod_mod_of_dvd value divides
    have rest : value % 256 ^ (count + 1) / 256 = value / 256 % 256 ^ count := by
      rw [Nat.pow_succ, Nat.mul_comm, Nat.mod_mul_right_div_self]
    rw [little, little, rest, ih]
    congr 1
    apply UInt8.toNat_inj.mp
    rw [UInt8.toNat_ofNat', UInt8.toNat_ofNat', first]

theorem little_append {count low : ℕ} (fits : low < 256 ^ count) (more high : ℕ) :
    little count low ++ little more high = little (count + more) (low + 256 ^ count * high) := by
  have positive : 0 < 256 ^ count := Nat.pow_pos (by decide)
  rw [little_add, ← little_mod count (low + _), Nat.add_mul_mod_self_left, Nat.mod_eq_of_lt fits,
    Nat.add_mul_div_left _ _ positive, Nat.div_eq_of_lt fits, Nat.zero_add]

theorem digit_masked (value : ℕ) : value % 256 &&& 255 = value % 256 := by
  rw [Nat.and_two_pow_sub_one_eq_mod _ 8]
  exact Nat.mod_mod value 256

end Library
