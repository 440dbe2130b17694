import Mathlib.Tactic.IntervalCases

/-! Byte-order helpers (`appwarrior/core/endian.h`).

A span of a fixed extent is a list here; the readers take the bytes they need from
its front. Each value is written by shifts and read back by shifts, as the source
does on every host.
-/

set_option autoImplicit false

namespace Slopline

abbrev Bytes := List UInt8

namespace Endian

def readU16be (bytes : Bytes) : UInt16 :=
  ((bytes.getD 0 0).toUInt16 <<< 8) ||| (bytes.getD 1 0).toUInt16

def readU32be (bytes : Bytes) : UInt32 :=
  ((bytes.getD 0 0).toUInt32 <<< 24) ||| ((bytes.getD 1 0).toUInt32 <<< 16) |||
    ((bytes.getD 2 0).toUInt32 <<< 8) ||| (bytes.getD 3 0).toUInt32

def readU64be (bytes : Bytes) : UInt64 :=
  ((readU32be bytes).toUInt64 <<< 32) ||| (readU32be (bytes.drop 4)).toUInt64

def readU32le (bytes : Bytes) : UInt32 :=
  (bytes.getD 0 0).toUInt32 ||| ((bytes.getD 1 0).toUInt32 <<< 8) |||
    ((bytes.getD 2 0).toUInt32 <<< 16) ||| ((bytes.getD 3 0).toUInt32 <<< 24)

def writeU16be (value : UInt16) : Bytes :=
  [((value >>> 8) &&& 0xFF).toUInt8, (value &&& 0xFF).toUInt8]

def writeU32be (value : UInt32) : Bytes :=
  [((value >>> 24) &&& 0xFF).toUInt8, ((value >>> 16) &&& 0xFF).toUInt8,
    ((value >>> 8) &&& 0xFF).toUInt8, (value &&& 0xFF).toUInt8]

def writeU64be (value : UInt64) : Bytes :=
  writeU32be (value >>> 32).toUInt32 ++ writeU32be (value &&& 0xFFFFFFFF).toUInt32

def writeU32le (value : UInt32) : Bytes :=
  [(value &&& 0xFF).toUInt8, ((value >>> 8) &&& 0xFF).toUInt8,
    ((value >>> 16) &&& 0xFF).toUInt8, ((value >>> 24) &&& 0xFF).toUInt8]

/-- A FourCC tag as the big-endian integer it is on the wire. -/
def fourCc (c0 c1 c2 c3 : Char) : UInt32 :=
  (c0.toUInt8.toUInt32 <<< 24) ||| (c1.toUInt8.toUInt32 <<< 16) |||
    (c2.toUInt8.toUInt32 <<< 8) ||| c3.toUInt8.toUInt32

@[simp] theorem length_writeU16be (value : UInt16) : (writeU16be value).length = 2 := by
  simp only [writeU16be, List.length_cons, List.length_nil]

@[simp] theorem length_writeU32be (value : UInt32) : (writeU32be value).length = 4 := by
  simp only [writeU32be, List.length_cons, List.length_nil]

@[simp] theorem length_writeU32le (value : UInt32) : (writeU32le value).length = 4 := by
  simp only [writeU32le, List.length_cons, List.length_nil]

@[simp] theorem length_writeU64be (value : UInt64) : (writeU64be value).length = 8 := by
  simp only [writeU64be, List.length_append, length_writeU32be]

-- The shifts are compared bit by bit; no lemma about shifts and masks covers all of them.
@[simp] theorem readU16be_writeU16be (value : UInt16) (rest : Bytes) :
    readU16be (writeU16be value ++ rest) = value := by
  apply UInt16.eq_of_toBitVec_eq
  apply BitVec.eq_of_getLsbD_eq
  intro i bound
  simp only [readU16be, writeU16be, List.cons_append, List.getD_cons_zero, List.getD_cons_succ,
    UInt16.toBitVec_or, UInt16.toBitVec_shiftLeft, UInt8.toBitVec_toUInt16,
    UInt16.toBitVec_toUInt8, UInt16.toBitVec_and, UInt16.toBitVec_shiftRight, BitVec.getLsbD_or]
  interval_cases i <;> simp

@[simp] theorem readU32be_writeU32be (value : UInt32) (rest : Bytes) :
    readU32be (writeU32be value ++ rest) = value := by
  apply UInt32.eq_of_toBitVec_eq
  apply BitVec.eq_of_getLsbD_eq
  intro i bound
  simp only [readU32be, writeU32be, List.cons_append, List.getD_cons_zero, List.getD_cons_succ,
    UInt32.toBitVec_or, UInt32.toBitVec_shiftLeft, UInt8.toBitVec_toUInt32,
    UInt32.toBitVec_toUInt8, UInt32.toBitVec_and, UInt32.toBitVec_shiftRight, BitVec.getLsbD_or]
  interval_cases i <;> simp

/-! Little-endian is big-endian with the bytes in reverse. -/

theorem writeU32le_eq_reverse (value : UInt32) : writeU32le value = (writeU32be value).reverse := rfl

theorem readU32le_eq_reverse (first second third fourth : UInt8) (rest : Bytes) :
    readU32le (first :: second :: third :: fourth :: rest) = readU32be [fourth, third, second, first] := by
  have turned (a b c d : UInt32) : a ||| b ||| c ||| d = d ||| c ||| b ||| a := by
    rw [UInt32.or_comm _ d, UInt32.or_comm _ c, UInt32.or_comm a b, ← UInt32.or_assoc, ← UInt32.or_assoc]
  exact turned _ _ _ _

@[simp] theorem readU32le_writeU32le (value : UInt32) (rest : Bytes) :
    readU32le (writeU32le value ++ rest) = value := by
  rw [writeU32le, List.cons_append, List.cons_append, List.cons_append, List.cons_append, readU32le_eq_reverse]
  exact readU32be_writeU32be value []

@[simp] theorem readU64be_writeU64be (value : UInt64) (rest : Bytes) :
    readU64be (writeU64be value ++ rest) = value := by
  have high : readU32be (writeU64be value ++ rest) = (value >>> 32).toUInt32 := by
    rw [writeU64be, List.append_assoc, readU32be_writeU32be]
  have low : readU32be ((writeU64be value ++ rest).drop 4) = (value &&& 0xFFFFFFFF).toUInt32 :=
    readU32be_writeU32be _ rest
  apply UInt64.eq_of_toBitVec_eq
  apply BitVec.eq_of_getLsbD_eq
  intro i bound
  simp only [readU64be, high, low, UInt64.toBitVec_or, UInt64.toBitVec_shiftLeft, UInt32.toBitVec_toUInt64,
    UInt64.toBitVec_toUInt32, UInt64.toBitVec_and, UInt64.toBitVec_shiftRight, BitVec.getLsbD_or]
  interval_cases i <;> simp

-- The other way round: two (four) bytes are what the integer read from them is written as.
theorem writeU16be_readU16be {bytes : Bytes} (size : bytes.length = 2) :
    writeU16be (readU16be bytes) = bytes := by
  match bytes, size with
  | [high, low], _ =>
    simp only [writeU16be, readU16be, List.getD_cons_zero, List.getD_cons_succ, List.cons.injEq, and_true]
    constructor <;>
    · apply UInt8.eq_of_toBitVec_eq
      apply BitVec.eq_of_getLsbD_eq
      intro i bound
      simp only [UInt16.toBitVec_toUInt8, UInt16.toBitVec_and, UInt16.toBitVec_shiftRight,
        UInt16.toBitVec_or, UInt16.toBitVec_shiftLeft, UInt8.toBitVec_toUInt16]
      interval_cases i <;> simp

theorem writeU32be_readU32be {bytes : Bytes} (size : bytes.length = 4) :
    writeU32be (readU32be bytes) = bytes := by
  match bytes, size with
  | [first, second, third, fourth], _ =>
    simp only [writeU32be, readU32be, List.getD_cons_zero, List.getD_cons_succ, List.cons.injEq, and_true]
    refine ⟨?_, ?_, ?_, ?_⟩ <;>
    · apply UInt8.eq_of_toBitVec_eq
      apply BitVec.eq_of_getLsbD_eq
      intro i bound
      simp only [UInt32.toBitVec_toUInt8, UInt32.toBitVec_and, UInt32.toBitVec_shiftRight,
        UInt32.toBitVec_or, UInt32.toBitVec_shiftLeft, UInt8.toBitVec_toUInt32]
      interval_cases i <;> simp

theorem writeU32le_readU32le {bytes : Bytes} (size : bytes.length = 4) :
    writeU32le (readU32le bytes) = bytes := by
  match bytes, size with
  | [first, second, third, fourth], _ =>
    rw [readU32le_eq_reverse, writeU32le_eq_reverse, writeU32be_readU32be rfl]
    rfl

end Endian

end Slopline
