import Slopline.Core.Bits
import Slopline.Protocol.Payload

/-! The privilege mask (`hotline/protocol/payload.h`) against the bit array it is on the wire.

Both are a set of privileges: the 64-bit value tests and writes its bit `63 - p`, the array the bit
`p` in the order of `Slopline.Core.Bits`.
-/

set_option autoImplicit false

namespace Slopline.Protocol

open Library Endian Bits

theorem AccessPrivilege.index_lt (privilege : AccessPrivilege) : privilege.index.toNat < 64 := by
  simpa [index] using UInt8.lt_iff_toNat_lt.mp privilege.inMask

theorem AccessPrivilege.index_inj {first second : AccessPrivilege} :
    first.index = second.index ↔ first = second := by
  constructor
  · intro same
    have value : first.value = second.value := by
      simpa [index, ← UInt8.toNat_inj, ← UInt32.toNat_inj] using same
    cases first
    cases second
    simpa using value
  · intro same
    rw [same]

/-- The amount every operation shifts by. -/
theorem AccessPrivilege.shift (privilege : AccessPrivilege) :
    (63 - privilege.index).toUInt64.toNat = 63 - privilege.index.toNat := by
  have le : privilege.index ≤ 63 := UInt32.le_iff_toNat_le.mpr (Nat.le_of_lt_succ privilege.index_lt)
  rw [UInt32.toNat_toUInt64, UInt32.toNat_sub_of_le _ _ le]
  rfl

section
variable {amount : UInt64} (small : amount.toNat < 64)
include small

theorem testBit_word (word : UInt64) :
    (((word >>> amount) &&& 1) != 0) = word.toBitVec.getLsbD amount.toNat := by
  apply Bool.eq_iff_iff.mpr
  rw [bne_iff_ne, ne_eq, ← UInt64.toNat_inj, ← BitVec.testBit_toNat]
  simp [Nat.testBit, Nat.and_comm, Nat.mod_eq_of_lt small]

theorem shiftedOne_word (i : Nat) :
    ((1 : UInt64) <<< amount).toBitVec.getLsbD i = decide (i = amount.toNat) := by
  simp only [UInt64.toBitVec_shiftLeft]
  simp [Nat.mod_eq_of_lt small]
  grind

end

namespace AccessMask

theorem has_eq (mask : AccessMask) (privilege : AccessPrivilege) :
    mask.has privilege = mask.bits.toBitVec.getLsbD (63 - privilege.index.toNat) := by
  have shift := privilege.shift
  rw [has, testBit_word (by omega), shift]

theorem has_set (mask : AccessMask) (privilege : AccessPrivilege) (value : Bool) (other : AccessPrivilege) :
    (mask.set privilege value).has other = if other = privilege then value else mask.has other := by
  have shift := privilege.shift
  have one := @shiftedOne_word (63 - privilege.index).toUInt64 (by omega) (63 - other.index.toNat)
  have position : 63 - other.index.toNat = 63 - privilege.index.toNat ↔ other = privilege := by
    have := privilege.index_lt
    have := other.index_lt
    rw [← AccessPrivilege.index_inj, ← UInt32.toNat_inj]
    omega
  have width : 63 - other.index.toNat < 64 := by omega
  rw [shift] at one
  rw [has_eq, has_eq]
  cases value with
  | true =>
    simp only [set, if_true, UInt64.toBitVec_or, BitVec.getLsbD_or, one, position]
    by_cases same : other = privilege
    · simp only [same, decide_true, Bool.or_true, if_true]
    · simp only [same, decide_false, Bool.or_false, if_false]
  | false =>
    simp only [set, Bool.false_eq_true, if_false, UInt64.toBitVec_and, UInt64.toBitVec_not, BitVec.getLsbD_and,
      BitVec.getLsbD_not, one, position, width]
    by_cases same : other = privilege
    · simp only [same, decide_true, Bool.not_true, Bool.and_false, if_true]
    · simp only [same, decide_true, decide_false, Bool.not_false, Bool.and_true, if_false]

@[simp] theorem has_clear (mask : AccessMask) (privilege : AccessPrivilege) :
    mask.clear.has privilege = false := by
  rw [has_eq]
  exact BitVec.getLsbD_zero

@[simp] theorem has_fill (mask : AccessMask) (privilege : AccessPrivilege) :
    mask.fill.has privilege = true := by
  have width : 63 - privilege.index.toNat < 64 := by omega
  have ones : (mask.fill).bits.toBitVec = BitVec.allOnes 64 := rfl
  rw [has_eq, ones, BitVec.getLsbD_allOnes, decide_eq_true width]

end AccessMask

@[simp] theorem length_encodeAccessMask (mask : AccessMask) :
    (encodeAccessMask mask).length = kAccessMaskSize := length_writeU64be _

theorem writeU64be_byte (value : UInt64) {i : Nat} (inside : i < 8) :
    ((writeU64be value).getD i 0).toBitVec = (value.toBitVec >>> (56 - 8 * i)).setWidth 8 := by
  apply BitVec.eq_of_getLsbD_eq
  intro j bound
  -- The masks are all ones.
  have byteOnes : (255#8)[j] = true := BitVec.getElem_allOnes j bound
  have wordOnes (k : Nat) (inWord : k < 32) : (4294967295#32)[k] = true := BitVec.getElem_allOnes k inWord
  have inWord : 24 + j < 32 ∧ 16 + j < 32 ∧ 8 + j < 32 ∧ j < 32 := by omega
  interval_cases i <;> simp [writeU64be, writeU32be, byteOnes, wordOnes, bound, inWord, ← Nat.add_assoc]

theorem getBit_encodeAccessMask (mask : AccessMask) (privilege : AccessPrivilege) :
    getBit (encodeAccessMask mask) privilege.index = mask.has privilege := by
  have inside := privilege.index_lt
  have position : 56 - 8 * (privilege.index.toNat / 8) + (7 - privilege.index.toNat % 8) =
      63 - privilege.index.toNat := by omega
  have small : 7 - privilege.index.toNat % 8 < 8 := by omega
  rw [getBit_eq, encodeAccessMask, writeU64be_byte _ (by omega), BitVec.getLsbD_setWidth, decide_eq_true small,
    Bool.true_and, BitVec.getLsbD_ushiftRight, position, AccessMask.has_eq]

theorem decodeAccessMask_encode (mask : AccessMask) : decodeAccessMask (encodeAccessMask mask) = mask := by
  have read := readU64be_writeU64be mask.bits []
  rw [List.append_nil] at read
  rw [decodeAccessMask, encodeAccessMask, read]

theorem tryDecodeAccessMask_encode (mask : AccessMask) :
    tryDecodeAccessMask (encodeAccessMask mask) = .value mask := by
  have size := length_encodeAccessMask mask
  rw [tryDecodeAccessMask, if_neg (by omega), if_neg (by omega), Span.first, if_pos (by omega),
    List.take_of_length_le (by omega)]
  exact congrArg Checked.value (decodeAccessMask_encode mask)

/-! Operations on either. -/

inductive AccessOp where
  | set (privilege : AccessPrivilege) (value : Bool)
  | clear
  | fill

def AccessOp.onMask (mask : AccessMask) : AccessOp → AccessMask
  | set privilege value => mask.set privilege value
  | clear => mask.clear
  | fill => mask.fill

/-- The same to the bits: for all privileges, to each bit. -/
def AccessOp.onBits (data : Bytes) : AccessOp → Bytes
  | set privilege value => setBitTo data privilege.index value
  | clear => (List.range 64).foldl (fun data index => clearBit data (UInt32.ofNat index)) data
  | fill => (List.range 64).foldl (fun data index => setBit data (UInt32.ofNat index)) data

/-- What the operations mean for the set of privileges. -/
def AccessOp.onPrivileges (granted : AccessPrivilege → Bool) : AccessOp → AccessPrivilege → Bool
  | set privilege value => fun other => if other = privilege then value else granted other
  | clear => fun _ => false
  | fill => fun _ => true

theorem has_onMask (mask : AccessMask) (op : AccessOp) :
    (op.onMask mask).has = op.onPrivileges mask.has := by
  funext other
  cases op with
  | set privilege value => exact AccessMask.has_set mask privilege value other
  | clear => exact AccessMask.has_clear mask other
  | fill => exact AccessMask.has_fill mask other

theorem writeAll (value : Bool) (data : Bytes) {count : Nat} (inside : count ≤ 8 * data.length)
    (addressable : 8 * data.length ≤ 2 ^ 32) :
    let written := (List.range count).foldl (fun data index => setBitTo data (UInt32.ofNat index) value) data
    written.length = data.length ∧ ∀ index : UInt32, index.toNat < 8 * data.length →
      getBit written index = if index.toNat < count then value else getBit data index := by
  induction count with
  | zero => simp
  | succ count ih =>
    obtain ⟨length, bits⟩ := ih (by omega)
    have last : (UInt32.ofNat count).toNat = count := by
      apply UInt32.toNat_ofNat_of_lt'
      simp only [UInt32.size]
      omega
    simp only [List.range_succ, List.foldl_append, List.foldl_cons, List.foldl_nil]
    constructor
    · rw [length_setBitTo, length]
    · intro index within
      rw [getBit_setBitTo (by omega), bits index within]
      have here : index = UInt32.ofNat count ↔ index.toNat = count := by rw [← UInt32.toNat_inj, last]
      simp only [here]
      grind

theorem length_onBits {data : Bytes} (size : data.length = kAccessMaskSize) (op : AccessOp) :
    (op.onBits data).length = kAccessMaskSize := by
  have room : 64 ≤ 8 * data.length := by
    rw [size]
    decide
  have addressable : 8 * data.length ≤ 2 ^ 32 := by
    rw [size]
    decide
  cases op with
  | set privilege value => exact (length_setBitTo data privilege.index value).trans size
  | clear => exact (writeAll false data room addressable).1.trans size
  | fill => exact (writeAll true data room addressable).1.trans size

theorem getBit_onBits {data : Bytes} (size : data.length = kAccessMaskSize) (op : AccessOp)
    (privilege : AccessPrivilege) :
    getBit (op.onBits data) privilege.index =
      op.onPrivileges (fun other => getBit data other.index) privilege := by
  have bits : 8 * data.length = 64 := by
    rw [size]
    rfl
  have inside := privilege.index_lt
  cases op with
  | set written value =>
    have writtenInside := written.index_lt
    rw [AccessOp.onBits, getBit_setBitTo (by omega)]
    simp only [AccessOp.onPrivileges, AccessPrivilege.index_inj]
  | clear =>
    have cleared := (writeAll false data bits.ge (by omega)).2 privilege.index (by omega)
    rwa [if_pos inside] at cleared
  | fill =>
    have filled := (writeAll true data bits.ge (by omega)).2 privilege.index (by omega)
    rwa [if_pos inside] at filled

theorem AccessPrivilege.exists_index {index : UInt32} (inside : index.toNat < 64) :
    ∃ privilege : AccessPrivilege, privilege.index = index := by
  have small : index.toUInt8.toNat = index.toNat := by
    rw [UInt32.toNat_toUInt8]
    exact Nat.mod_eq_of_lt (by omega)
  refine ⟨⟨index.toUInt8, ?_⟩, ?_⟩
  · apply UInt8.lt_iff_toNat_lt.mpr
    rw [small]
    exact inside
  · apply UInt32.toNat_inj.mp
    rw [AccessPrivilege.index, UInt8.toNat_toUInt32, small]

theorem onBits_encode (mask : AccessMask) (op : AccessOp) :
    op.onBits (encodeAccessMask mask) = encodeAccessMask (op.onMask mask) := by
  have size := length_encodeAccessMask mask
  apply eq_of_getBit (length_onBits size op) (length_encodeAccessMask _) (by decide)
  intro index inside
  obtain ⟨privilege, rfl⟩ := AccessPrivilege.exists_index inside
  rw [getBit_onBits size, getBit_encodeAccessMask, has_onMask]
  simp only [getBit_encodeAccessMask]

/-- Mask and bytes stay the same set of privileges over any sequence of operations. -/
theorem accessMask_agrees (start : AccessMask) (ops : List AccessOp) :
    encodeAccessMask (ops.foldl AccessOp.onMask start) = ops.foldl AccessOp.onBits (encodeAccessMask start) ∧
      encodeAccessMask {} = List.replicate kAccessMaskSize 0 ∧
      (∀ privilege, (ops.foldl AccessOp.onMask start).has privilege =
        getBit (ops.foldl AccessOp.onBits (encodeAccessMask start)) privilege.index) ∧
      (∀ privilege value other, ((ops.foldl AccessOp.onMask start).set privilege value).has other =
        if other = privilege then value else (ops.foldl AccessOp.onMask start).has other) ∧
      decodeAccessMask (encodeAccessMask (ops.foldl AccessOp.onMask start)) =
        ops.foldl AccessOp.onMask start := by
  have bytes : encodeAccessMask (ops.foldl AccessOp.onMask start) =
      ops.foldl AccessOp.onBits (encodeAccessMask start) :=
    (List.foldl_hom encodeAccessMask onBits_encode).symm
  refine ⟨bytes, rfl, ?_, AccessMask.has_set _, decodeAccessMask_encode _⟩
  intro privilege
  rw [← bytes, getBit_encodeAccessMask]

end Slopline.Protocol
