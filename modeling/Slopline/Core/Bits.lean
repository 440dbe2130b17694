import Slopline.Core.Endian

/-! Bit-array access (`appwarrior/core/bits.h`): bit `index` lives in byte `index / 8` at position
`7 - index % 8`, so that bit 0 is the most significant one of the first byte.

The helpers ask of their caller that the span holds the byte; the lemmas about writing ask for it too.
-/

set_option autoImplicit false

namespace Slopline.Bits

def getBit (data : Bytes) (index : UInt32) : Bool :=
  let byte := (data.getD (index >>> 3).toNat 0).toUInt32
  ((byte >>> (7 - (index &&& 7))) &&& 1) != 0

def setBit (data : Bytes) (index : UInt32) : Bytes :=
  data.set (index >>> 3).toNat
    (data.getD (index >>> 3).toNat 0 ||| ((1 : UInt32) <<< (7 - (index &&& 7))).toUInt8)

def clearBit (data : Bytes) (index : UInt32) : Bytes :=
  data.set (index >>> 3).toNat
    (data.getD (index >>> 3).toNat 0 &&& (~~~((1 : UInt32) <<< (7 - (index &&& 7)))).toUInt8)

/-- The overload of `set_bit` that takes the value. -/
def setBitTo (data : Bytes) (index : UInt32) (value : Bool) : Bytes :=
  if value then setBit data index else clearBit data index

@[simp] theorem length_setBitTo (data : Bytes) (index : UInt32) (value : Bool) :
    (setBitTo data index value).length = data.length := by
  cases value <;> simp [setBitTo, setBit, clearBit]

theorem byteOf (index : UInt32) : (index >>> 3).toNat = index.toNat / 8 := by
  simp [Nat.shiftRight_eq_div_pow]

theorem bitOf (index : UInt32) : (7 - (index &&& 7)).toNat = 7 - index.toNat % 8 := by
  have low : (index &&& 7).toNat = index.toNat % 8 := by
    simpa using Nat.and_two_pow_sub_one_eq_mod index.toNat 3
  have le : index &&& 7 ≤ 7 := by
    apply UInt32.le_iff_toNat_le.mpr
    rw [low]
    exact Nat.le_of_lt_succ (Nat.mod_lt _ (by decide))
  rw [UInt32.toNat_sub_of_le _ _ le, low]
  rfl

section
variable {amount : UInt32} (small : amount.toNat < 8)
include small

theorem testBit_shifted (byte : UInt8) :
    (((byte.toUInt32 >>> amount) &&& 1) != 0) = byte.toBitVec.getLsbD amount.toNat := by
  apply Bool.eq_iff_iff.mpr
  rw [bne_iff_ne, ne_eq, ← UInt32.toNat_inj, ← BitVec.testBit_toNat]
  have within : amount.toNat % 32 = amount.toNat := Nat.mod_eq_of_lt (by omega)
  simp [Nat.testBit, Nat.and_comm, within]

theorem shiftedOne {i : Nat} (inside : i < 8) :
    ((1 : UInt32) <<< amount).toUInt8.toBitVec.getLsbD i = decide (i = amount.toNat) := by
  have within : amount.toNat % 32 = amount.toNat := Nat.mod_eq_of_lt (by omega)
  simp only [UInt32.toBitVec_toUInt8, UInt32.toBitVec_shiftLeft, BitVec.getLsbD_setWidth]
  simp [within]
  grind

theorem shiftedAway {i : Nat} (inside : i < 8) :
    (~~~((1 : UInt32) <<< amount)).toUInt8.toBitVec.getLsbD i = !decide (i = amount.toNat) := by
  have kept : (~~~((1 : UInt32) <<< amount)).toUInt8 = ~~~((1 : UInt32) <<< amount).toUInt8 := by
    simp
  rw [kept, UInt8.toBitVec_not, BitVec.getLsbD_not, shiftedOne small inside]
  simp [inside]

end

theorem getBit_eq (data : Bytes) (index : UInt32) :
    getBit data index = (data.getD (index.toNat / 8) 0).toBitVec.getLsbD (7 - index.toNat % 8) := by
  have small : (7 - (index &&& 7)).toNat < 8 := by
    rw [bitOf]
    omega
  rw [getBit, testBit_shifted small, byteOf, bitOf]

theorem setBitTo_eq (data : Bytes) (index : UInt32) (value : Bool) :
    ∃ byte : UInt8, setBitTo data index value = data.set (index.toNat / 8) byte ∧
      ∀ i < 8, byte.toBitVec.getLsbD i =
        if i = 7 - index.toNat % 8 then value else (data.getD (index.toNat / 8) 0).toBitVec.getLsbD i := by
  have small : (7 - (index &&& 7)).toNat < 8 := by
    rw [bitOf]
    omega
  cases value with
  | true =>
    refine ⟨_, congrArg (data.set · _) (byteOf index), ?_⟩
    intro i inside
    rw [UInt8.toBitVec_or, BitVec.getLsbD_or, shiftedOne small inside, bitOf, byteOf]
    split <;> simp_all
  | false =>
    refine ⟨_, congrArg (data.set · _) (byteOf index), ?_⟩
    intro i inside
    rw [UInt8.toBitVec_and, BitVec.getLsbD_and, shiftedAway small inside, bitOf, byteOf]
    split <;> simp_all

theorem getBit_setBitTo {data : Bytes} {index : UInt32} (inside : index.toNat / 8 < data.length)
    (value : Bool) (other : UInt32) :
    getBit (setBitTo data index value) other = if other = index then value else getBit data other := by
  obtain ⟨byte, written, bits⟩ := setBitTo_eq data index value
  have same : other = index ↔ other.toNat = index.toNat := UInt32.toNat_inj.symm
  rw [getBit_eq, getBit_eq, written, List.getD_eq_getElem?_getD, List.getElem?_set]
  by_cases here : index.toNat / 8 = other.toNat / 8
  · rw [if_pos here, if_pos inside, Option.getD_some, bits _ (by omega), here]
    -- In one byte, the positions tell the indices apart.
    have position : 7 - other.toNat % 8 = 7 - index.toNat % 8 ↔ other = index := by
      rw [same]
      omega
    simp only [position]
  · have apart : other ≠ index := by
      rintro rfl
      exact here rfl
    rw [if_neg here, if_neg apart, List.getD_eq_getElem?_getD]

theorem eq_of_getBit {data other : Bytes} {size : Nat} (length : data.length = size)
    (otherLength : other.length = size) (addressable : 8 * size ≤ 2 ^ 32)
    (bits : ∀ index : UInt32, index.toNat < 8 * size → getBit data index = getBit other index) :
    data = other := by
  apply List.ext_getElem (length.trans otherLength.symm)
  intro byte inside inside'
  apply UInt8.eq_of_toBitVec_eq
  apply BitVec.eq_of_getLsbD_eq
  intro i bound
  have index : (UInt32.ofNat (8 * byte + (7 - i))).toNat = 8 * byte + (7 - i) := by
    apply UInt32.toNat_ofNat_of_lt'
    simp only [UInt32.size]
    omega
  have bit := bits (UInt32.ofNat (8 * byte + (7 - i))) (by omega)
  have at_ : (8 * byte + (7 - i)) / 8 = byte := by omega
  have position : 7 - (8 * byte + (7 - i)) % 8 = i := by omega
  rw [getBit_eq, getBit_eq, index, at_, position] at bit
  simpa [List.getD_eq_getElem?_getD, inside, inside'] using bit

end Slopline.Bits
