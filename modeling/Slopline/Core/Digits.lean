import Slopline.Core.Endian
import Slopline.Library.Positional

/-! The integers of the codecs as base-256 digits. -/

set_option autoImplicit false

namespace Slopline.Endian

open Library

theorem writeU16be_eq_big (value : UInt16) : writeU16be value = big 2 value.toNat := by
  simp [writeU16be, big, little, ← UInt8.toNat_inj, Nat.shiftRight_eq_div_pow, digit_masked]

theorem writeU32be_eq_big (value : UInt32) : writeU32be value = big 4 value.toNat := by
  simp [writeU32be, big, little, ← UInt8.toNat_inj, Nat.shiftRight_eq_div_pow, digit_masked,
    Nat.div_div_eq_div_mul]

theorem writeU32le_eq_little (value : UInt32) : writeU32le value = little 4 value.toNat := by
  simp [writeU32le, little, ← UInt8.toNat_inj, Nat.shiftRight_eq_div_pow, digit_masked,
    Nat.div_div_eq_div_mul]

end Slopline.Endian
