import Slopline.Crypto.Digest

/-! MD5 (`appwarrior/crypto/md5.h`, `md5.cpp`). -/

set_option autoImplicit false

namespace Slopline.Crypto.Md5

def kK : List UInt32 := [
  0xd76aa478, 0xe8c7b756, 0x242070db, 0xc1bdceee, 0xf57c0faf, 0x4787c62a, 0xa8304613, 0xfd469501,
  0x698098d8, 0x8b44f7af, 0xffff5bb1, 0x895cd7be, 0x6b901122, 0xfd987193, 0xa679438e, 0x49b40821,
  0xf61e2562, 0xc040b340, 0x265e5a51, 0xe9b6c7aa, 0xd62f105d, 0x02441453, 0xd8a1e681, 0xe7d3fbc8,
  0x21e1cde6, 0xc33707d6, 0xf4d50d87, 0x455a14ed, 0xa9e3e905, 0xfcefa3f8, 0x676f02d9, 0x8d2a4c8a,
  0xfffa3942, 0x8771f681, 0x6d9d6122, 0xfde5380c, 0xa4beea44, 0x4bdecfa9, 0xf6bb4b60, 0xbebfbc70,
  0x289b7ec6, 0xeaa127fa, 0xd4ef3085, 0x04881d05, 0xd9d4d039, 0xe6db99e5, 0x1fa27cf8, 0xc4ac5665,
  0xf4292244, 0x432aff97, 0xab9423a7, 0xfc93a039, 0x655b59c3, 0x8f0ccc92, 0xffeff47d, 0x85845dd1,
  0x6fa87e4f, 0xfe2ce6e0, 0xa3014314, 0x4e0811a1, 0xf7537e82, 0xbd3af235, 0x2ad7d2bb, 0xeb86d391]

def kShift : List UInt32 := [
  7, 12, 17, 22, 7, 12, 17, 22, 7, 12, 17, 22, 7, 12, 17, 22,
  5, 9, 14, 20, 5, 9, 14, 20, 5, 9, 14, 20, 5, 9, 14, 20,
  4, 11, 16, 23, 4, 11, 16, 23, 4, 11, 16, 23, 4, 11, 16, 23,
  6, 10, 15, 21, 6, 10, 15, 21, 6, 10, 15, 21, 6, 10, 15, 21]

structure State where
  a : UInt32 := 0x67452301
  b : UInt32 := 0xefcdab89
  c : UInt32 := 0x98badcfe
  d : UInt32 := 0x10325476
  deriving DecidableEq, Repr

def word (block : Bytes) (i : Nat) : UInt32 :=
  let at_ := i * 4
  (block.getD at_ 0).toUInt32 ||| ((block.getD (at_ + 1) 0).toUInt32 <<< 8) |||
    ((block.getD (at_ + 2) 0).toUInt32 <<< 16) ||| ((block.getD (at_ + 3) 0).toUInt32 <<< 24)

def select (s : State) (i : Nat) : UInt32 × Nat :=
  if i < 16 then ((s.b &&& s.c) ||| (~~~s.b &&& s.d), i)
  else if i < 32 then ((s.d &&& s.b) ||| (~~~s.d &&& s.c), (5 * i + 1) % 16)
  else if i < 48 then (s.b ^^^ s.c ^^^ s.d, (3 * i + 5) % 16)
  else (s.c ^^^ (s.b ||| ~~~s.d), (7 * i) % 16)

def round (m : List UInt32) (s : State) (i : Nat) : State :=
  let (f, g) := select s i
  { a := s.d
    b := s.b + rotateLeft (s.a + f + kK.getD i 0 + m.getD g 0) (kShift.getD i 0)
    c := s.b
    d := s.c }

def processBlock (state : State) (block : Bytes) : State :=
  let m := (List.range 16).map (word block)
  let s := (List.range 64).foldl (round m) state
  { a := state.a + s.a, b := state.b + s.b, c := state.c + s.c, d := state.d + s.d }

def lengthBytes (bitLength : UInt64) : Bytes :=
  (List.range 8).map fun i => ((bitLength >>> UInt64.ofNat (8 * i)) &&& 0xFF).toUInt8

def emitWord (value : UInt32) : Bytes :=
  (List.range 4).map fun i => ((value >>> UInt32.ofNat (8 * i)) &&& 0xFF).toUInt8

def emit (state : State) : Bytes :=
  emitWord state.a ++ emitWord state.b ++ emitWord state.c ++ emitWord state.d

def blockHash : BlockHash State := { start := {}, processBlock, lengthBytes, emit }

def digest (message : Bytes) : Bytes := blockHash.digest message

end Slopline.Crypto.Md5

namespace Slopline.Crypto

def md5 : MessageDigest where
  blockSize := kBlockSize
  digestSize := 16
  digest := Md5.digest
  blockSize_pos := kBlockSize_pos
  digestSize_le := by decide
  length_digest _ := rfl

example : md5.digest [] = [0xd4, 0x1d, 0x8c, 0xd9, 0x8f, 0x00, 0xb2, 0x04,
    0xe9, 0x80, 0x09, 0x98, 0xec, 0xf8, 0x42, 0x7e] := by decide +kernel

end Slopline.Crypto
