import Slopline.Crypto.DigestPadding
import Slopline.Core.Digits

/-! The legacy MD5 (`audit/UDigest.cpp.utf8`): a digest fed call by call.

Its transformation is 64 calls written out, each naming the register it changes. The modern loop
computes what they spell out and moves the registers along instead.
-/

set_option autoImplicit false

namespace Slopline.Legacy.MD5

open Crypto Endian Library

/-- The four words, `mState[0]` to `mState[3]` or `aa` to `dd`. -/
abbrev Words := Md5.State

/-- `_FF`, `_GG`, `_HH` and `_II`. -/
inductive Transformation where
  | ff
  | gg
  | hh
  | ii
  deriving DecidableEq

def Transformation.basic (xx yy zz : UInt32) : Transformation → UInt32
  | ff => (xx &&& yy) ||| (~~~xx &&& zz)
  | gg => (xx &&& zz) ||| (yy &&& ~~~zz)
  | hh => xx ^^^ yy ^^^ zz
  | ii => yy ^^^ (xx ||| ~~~zz)

def rotateLeft (xx nn : UInt32) : UInt32 := (xx <<< nn) ||| (xx >>> (32 - nn))

def Transformation.apply (transformation : Transformation) (aa bb cc dd xx ss ac : UInt32) : UInt32 :=
  let aa := aa + (transformation.basic bb cc dd + xx + ac)
  let aa := rotateLeft aa ss
  aa + bb

inductive Register where
  | aa
  | bb
  | cc
  | dd
  deriving DecidableEq

/-- One line of `Transform`: the transformation, the register it changes, the index into `xx`, the shift and
the constant. The other registers follow the first in their order. -/
structure Call where
  transformation : Transformation
  register : Register
  xx : Nat
  ss : UInt32
  ac : UInt32
  deriving DecidableEq

def Call.run (xx : List UInt32) (w : Words) (call : Call) : Words :=
  let apply (aa bb cc dd : UInt32) := call.transformation.apply aa bb cc dd (xx.getD call.xx 0) call.ss call.ac
  match call.register with
  | .aa => { w with a := apply w.a w.b w.c w.d }
  | .dd => { w with d := apply w.d w.a w.b w.c }
  | .cc => { w with c := apply w.c w.d w.a w.b }
  | .bb => { w with b := apply w.b w.c w.d w.a }

def calls : List Call := [
  ⟨.ff, .aa, 0, 7, 0xd76aa478⟩, ⟨.ff, .dd, 1, 12, 0xe8c7b756⟩,
  ⟨.ff, .cc, 2, 17, 0x242070db⟩, ⟨.ff, .bb, 3, 22, 0xc1bdceee⟩,
  ⟨.ff, .aa, 4, 7, 0xf57c0faf⟩, ⟨.ff, .dd, 5, 12, 0x4787c62a⟩,
  ⟨.ff, .cc, 6, 17, 0xa8304613⟩, ⟨.ff, .bb, 7, 22, 0xfd469501⟩,
  ⟨.ff, .aa, 8, 7, 0x698098d8⟩, ⟨.ff, .dd, 9, 12, 0x8b44f7af⟩,
  ⟨.ff, .cc, 10, 17, 0xffff5bb1⟩, ⟨.ff, .bb, 11, 22, 0x895cd7be⟩,
  ⟨.ff, .aa, 12, 7, 0x6b901122⟩, ⟨.ff, .dd, 13, 12, 0xfd987193⟩,
  ⟨.ff, .cc, 14, 17, 0xa679438e⟩, ⟨.ff, .bb, 15, 22, 0x49b40821⟩,
  ⟨.gg, .aa, 1, 5, 0xf61e2562⟩, ⟨.gg, .dd, 6, 9, 0xc040b340⟩,
  ⟨.gg, .cc, 11, 14, 0x265e5a51⟩, ⟨.gg, .bb, 0, 20, 0xe9b6c7aa⟩,
  ⟨.gg, .aa, 5, 5, 0xd62f105d⟩, ⟨.gg, .dd, 10, 9, 0x02441453⟩,
  ⟨.gg, .cc, 15, 14, 0xd8a1e681⟩, ⟨.gg, .bb, 4, 20, 0xe7d3fbc8⟩,
  ⟨.gg, .aa, 9, 5, 0x21e1cde6⟩, ⟨.gg, .dd, 14, 9, 0xc33707d6⟩,
  ⟨.gg, .cc, 3, 14, 0xf4d50d87⟩, ⟨.gg, .bb, 8, 20, 0x455a14ed⟩,
  ⟨.gg, .aa, 13, 5, 0xa9e3e905⟩, ⟨.gg, .dd, 2, 9, 0xfcefa3f8⟩,
  ⟨.gg, .cc, 7, 14, 0x676f02d9⟩, ⟨.gg, .bb, 12, 20, 0x8d2a4c8a⟩,
  ⟨.hh, .aa, 5, 4, 0xfffa3942⟩, ⟨.hh, .dd, 8, 11, 0x8771f681⟩,
  ⟨.hh, .cc, 11, 16, 0x6d9d6122⟩, ⟨.hh, .bb, 14, 23, 0xfde5380c⟩,
  ⟨.hh, .aa, 1, 4, 0xa4beea44⟩, ⟨.hh, .dd, 4, 11, 0x4bdecfa9⟩,
  ⟨.hh, .cc, 7, 16, 0xf6bb4b60⟩, ⟨.hh, .bb, 10, 23, 0xbebfbc70⟩,
  ⟨.hh, .aa, 13, 4, 0x289b7ec6⟩, ⟨.hh, .dd, 0, 11, 0xeaa127fa⟩,
  ⟨.hh, .cc, 3, 16, 0xd4ef3085⟩, ⟨.hh, .bb, 6, 23, 0x04881d05⟩,
  ⟨.hh, .aa, 9, 4, 0xd9d4d039⟩, ⟨.hh, .dd, 12, 11, 0xe6db99e5⟩,
  ⟨.hh, .cc, 15, 16, 0x1fa27cf8⟩, ⟨.hh, .bb, 2, 23, 0xc4ac5665⟩,
  ⟨.ii, .aa, 0, 6, 0xf4292244⟩, ⟨.ii, .dd, 7, 10, 0x432aff97⟩,
  ⟨.ii, .cc, 14, 15, 0xab9423a7⟩, ⟨.ii, .bb, 5, 21, 0xfc93a039⟩,
  ⟨.ii, .aa, 12, 6, 0x655b59c3⟩, ⟨.ii, .dd, 3, 10, 0x8f0ccc92⟩,
  ⟨.ii, .cc, 10, 15, 0xffeff47d⟩, ⟨.ii, .bb, 1, 21, 0x85845dd1⟩,
  ⟨.ii, .aa, 8, 6, 0x6fa87e4f⟩, ⟨.ii, .dd, 15, 10, 0xfe2ce6e0⟩,
  ⟨.ii, .cc, 6, 15, 0xa3014314⟩, ⟨.ii, .bb, 13, 21, 0x4e0811a1⟩,
  ⟨.ii, .aa, 4, 6, 0xf7537e82⟩, ⟨.ii, .dd, 11, 10, 0xbd3af235⟩,
  ⟨.ii, .cc, 2, 15, 0x2ad7d2bb⟩, ⟨.ii, .bb, 9, 21, 0xeb86d391⟩]

def decode (inData : Bytes) : List UInt32 :=
  (List.range 16).map fun i =>
    let j := 4 * i
    (inData.getD j 0).toUInt32 ||| ((inData.getD (j + 1) 0).toUInt32 <<< 8) |||
      ((inData.getD (j + 2) 0).toUInt32 <<< 16) ||| ((inData.getD (j + 3) 0).toUInt32 <<< 24)

-- Irreducible, so that comparing two scans does not unfold the calls.
@[irreducible] def transform (mState : Words) (inBlock : Bytes) : Words :=
  let w := calls.foldl (Call.run (decode inBlock)) mState
  { a := mState.a + w.a, b := mState.b + w.b, c := mState.c + w.c, d := mState.d + w.d }

/-- The bytes of one call to `Update`. With at most 2^31 of them no index overflows. -/
structure Chunk where
  bytes : Bytes
  bound : bytes.length ≤ 2 ^ 31

def Chunk.size (chunk : Chunk) : UInt32 := UInt32.ofNat chunk.bytes.length

theorem Chunk.toNat_size (chunk : Chunk) : chunk.size.toNat = chunk.bytes.length := by
  have bound := chunk.bound
  exact UInt32.toNat_ofNat_of_lt' (by change chunk.bytes.length < 2 ^ 32; omega)

structure Scan (chunk : Chunk) where
  words : Words
  i : UInt32
  inside : i.toNat ≤ chunk.bytes.length

namespace Scan

variable {chunk : Chunk}

/-- The condition `i + 63 < inDataSize` of 32-bit integers. -/
theorem more_iff (scan : Scan chunk) : scan.i + 63 < chunk.size ↔ scan.i.toNat + 63 < chunk.bytes.length := by
  have inside := scan.inside
  have bound := chunk.bound
  rw [UInt32.lt_iff_toNat_lt, UInt32.toNat_add, chunk.toNat_size]
  change (scan.i.toNat + 63) % 2 ^ 32 < chunk.bytes.length ↔ _
  rw [Nat.mod_eq_of_lt (by omega)]

theorem toNat_next (scan : Scan chunk) : (scan.i + 64).toNat = scan.i.toNat + 64 := by
  have inside := scan.inside
  have bound := chunk.bound
  rw [UInt32.toNat_add]
  change (scan.i.toNat + 64) % 2 ^ 32 = scan.i.toNat + 64
  omega

def step (scan : Scan chunk) : Loop (Scan chunk) (Scan chunk) :=
  if more : scan.i + 63 < chunk.size then
    .again {
      words := transform scan.words (chunk.bytes.drop scan.i.toNat)
      i := scan.i + 64
      inside := by
        have more := scan.more_iff.mp more
        rw [scan.toNat_next]
        omega }
  else .done scan

theorem step_drops (scan next : Scan chunk) (round : scan.step = .again next) :
    chunk.bytes.length - next.i.toNat < chunk.bytes.length - scan.i.toNat := by
  unfold step at round
  split at round
  case isTrue more =>
    have more := scan.more_iff.mp more
    have next_i : next.i.toNat = scan.i.toNat + 64 := by
      rw [← Loop.again.inj round, scan.toNat_next]
    omega
  case isFalse => cases round

def run : Scan chunk → Scan chunk :=
  Loop.run (fun scan => chunk.bytes.length - scan.i.toNat) step_drops

end Scan

/-- `UMemory::Copy` into the buffer. -/
def copyTo (mBuffer : Bytes) (index : Nat) (inData : Bytes) : Bytes :=
  mBuffer.take index ++ inData ++ mBuffer.drop (index + inData.length)

/-- The class `_MD5`. -/
structure Context where
  mState : Words
  mCount : UInt32 × UInt32
  mBuffer : Bytes

def init : Context where
  mState := { a := 0x67452301, b := 0xefcdab89, c := 0x98badcfe, d := 0x10325476 }
  mCount := (0, 0)
  mBuffer := .replicate 64 0

def addBits (mCount : UInt32 × UInt32) (inDataSize : UInt32) : UInt32 × UInt32 :=
  let low := mCount.1 + (inDataSize <<< 3)
  let high := if low < inDataSize <<< 3 then mCount.2 + 1 else mCount.2
  (low, high + (inDataSize >>> 29))

/-- The bytes in the buffer, by the count. -/
def Context.index (m : Context) : UInt32 := (m.mCount.1 >>> 3) &&& 0x3F

/-- Whole blocks, the first of them completed in the buffer: the words, the buffer, `i` and `index` after them. -/
def Context.takeBlocks (m : Context) (chunk : Chunk) : Words × Bytes × UInt32 × UInt32 :=
  let partLen := 64 - m.index
  if enough : partLen ≤ chunk.size then
    let mBuffer := copyTo m.mBuffer m.index.toNat (chunk.bytes.take partLen.toNat)
    let scan := Scan.run {
      words := transform m.mState mBuffer
      i := partLen
      inside := by
        rw [← chunk.toNat_size]
        exact UInt32.le_iff_toNat_le.mp enough }
    (scan.words, mBuffer, scan.i, 0)
  else (m.mState, m.mBuffer, 0, m.index)

def Context.update (m : Context) (chunk : Chunk) : Context :=
  let (mState, mBuffer, i, index) := m.takeBlocks chunk
  { mState
    mCount := addBits m.mCount chunk.size
    mBuffer := if chunk.size - i = 0 then mBuffer else copyTo mBuffer index.toNat (chunk.bytes.drop i.toNat) }

def padding : Bytes := 0x80 :: .replicate 63 0

/-- The padding `Report` feeds, from 1 to 64 bytes of it. -/
def paddingChunk (index : UInt32) : Chunk where
  bytes :=
    let padLen := if index < 56 then 56 - index else 120 - index
    padding.take padLen.toNat
  bound := Nat.le_trans (List.length_take_le' _ padding) (by decide)

def bitsChunk (mCount : UInt32 × UInt32) : Chunk where
  bytes := writeU32le mCount.1 ++ writeU32le mCount.2
  bound := by
    rw [List.length_append, length_writeU32le, length_writeU32le]
    omega

def Context.report (m : Context) : Bytes :=
  let bits := bitsChunk m.mCount
  let m := m.update (paddingChunk m.index)
  let m := m.update bits
  writeU32le m.mState.a ++ writeU32le m.mState.b ++ writeU32le m.mState.c ++ writeU32le m.mState.d

/-! The 64 calls are the 64 rounds. -/

def callOf (i : Nat) : Call where
  transformation := if i < 16 then .ff else if i < 32 then .gg else if i < 48 then .hh else .ii
  register := if i % 4 = 0 then .aa else if i % 4 = 1 then .dd else if i % 4 = 2 then .cc else .bb
  xx := (Md5.select {} i).2
  ss := Md5.kShift.getD i 0
  ac := Md5.kK.getD i 0

theorem calls_eq : calls = (List.range 64).map callOf := by
  decide

/-- The registers as the loop holds them before round `i`. -/
def turned (i : Nat) (w : Words) : Words :=
  if i % 4 = 0 then w
  else if i % 4 = 1 then { a := w.d, b := w.a, c := w.b, d := w.c }
  else if i % 4 = 2 then { a := w.c, b := w.d, c := w.a, d := w.b }
  else { a := w.b, b := w.c, c := w.d, d := w.a }

theorem select_eq (s : Words) (i : Nat) :
    Md5.select s i = ((callOf i).transformation.basic s.b s.c s.d, (callOf i).xx) := by
  by_cases first : i < 16
  · simp only [Md5.select, callOf, first, if_true, Transformation.basic]
  · by_cases second : i < 32
    · simp only [Md5.select, callOf, first, second, if_true, if_false, Transformation.basic, UInt32.and_comm]
    · by_cases third : i < 48
      · simp only [Md5.select, callOf, first, second, third, if_true, if_false, Transformation.basic]
      · simp only [Md5.select, callOf, first, second, third, if_false, Transformation.basic]

/-- A round changes one word, by the call's transformation, and moves the others along. -/
theorem round_eq (xx : List UInt32) (s : Words) (i : Nat) :
    Md5.round xx s i = {
      a := s.d
      b := (callOf i).transformation.apply s.a s.b s.c s.d (xx.getD (callOf i).xx 0) (callOf i).ss (callOf i).ac
      c := s.b
      d := s.c } := by
  have sum (f k m : UInt32) : s.a + (f + m + k) = s.a + f + k + m := by
    simp only [UInt32.add_assoc, UInt32.add_comm m k]
  rw [Md5.round, select_eq]
  simp only [Transformation.apply, sum, UInt32.add_comm _ s.b]
  rfl

theorem round_turned (xx : List UInt32) (w : Words) (i : Nat) :
    Md5.round xx (turned i w) i = turned (i + 1) ((callOf i).run xx w) := by
  have quarter : i % 4 = 0 ∨ i % 4 = 1 ∨ i % 4 = 2 ∨ i % 4 = 3 := by omega
  rw [round_eq]
  rcases quarter with zero | one | two | three
  · have next : (i + 1) % 4 = 1 := by omega
    have register : (callOf i).register = .aa := by simp [callOf, zero]
    simp [turned, Call.run, register, zero, next]
  · have next : (i + 1) % 4 = 2 := by omega
    have register : (callOf i).register = .dd := by simp [callOf, one]
    simp [turned, Call.run, register, one, next]
  · have next : (i + 1) % 4 = 3 := by omega
    have register : (callOf i).register = .cc := by simp [callOf, two]
    simp [turned, Call.run, register, two, next]
  · have next : (i + 1) % 4 = 0 := by omega
    have register : (callOf i).register = .bb := by simp [callOf, three]
    simp [turned, Call.run, register, three, next]

theorem rounds_turned (xx : List UInt32) (w : Words) (count : Nat) :
    (List.range count).foldl (Md5.round xx) w =
      turned count (((List.range count).map callOf).foldl (Call.run xx) w) := by
  induction count with
  | zero => rfl
  | succ count ih =>
    simp only [List.range_succ, List.map_append, List.foldl_append, ih, List.map_cons, List.map_nil,
      List.foldl_cons, List.foldl_nil, round_turned]

theorem word_take (bytes : Bytes) {i : Nat} (inside : i < 16) :
    Md5.word (bytes.take kBlockSize) i = Md5.word bytes i := by
  have bound (j : Nat) (less : j < 4) : i * 4 + j < 64 := by omega
  have front : i * 4 < 64 := bound 0 (by decide)
  simp [Md5.word, List.getD_eq_getElem?_getD, kBlockSize, front, bound 1, bound 2, bound 3]

/-- The transformation is the modern one of the block that begins at the pointer. -/
theorem transform_eq (mState : Words) (inBlock : Bytes) :
    transform mState inBlock = Md5.processBlock mState (inBlock.take kBlockSize) := by
  have words : decode inBlock = (List.range 16).map (Md5.word (inBlock.take kBlockSize)) := by
    apply List.map_congr_left
    intro i inside
    rw [word_take _ (List.mem_range.mp inside), Md5.word, Nat.mul_comm]
  have rounds := rounds_turned ((List.range 16).map (Md5.word (inBlock.take kBlockSize))) mState 64
  have home (w : Words) : turned 64 w = w := rfl
  rw [← calls_eq, home] at rounds
  unfold transform Md5.processBlock
  simp only [words, rounds]

end Slopline.Legacy.MD5
