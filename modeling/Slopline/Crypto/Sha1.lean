import Slopline.Crypto.Digest

/-! SHA-1 (`appwarrior/crypto/sha1.h`, `sha1.cpp`). -/

set_option autoImplicit false

namespace Slopline.Crypto.Sha1

open Endian

structure State where
  h0 : UInt32 := 0x67452301
  h1 : UInt32 := 0xEFCDAB89
  h2 : UInt32 := 0x98BADCFE
  h3 : UInt32 := 0x10325476
  h4 : UInt32 := 0xC3D2E1F0
  deriving DecidableEq, Repr

def schedule (block : Bytes) : List UInt32 :=
  (List.range 64).foldl
    (fun w j =>
      let i := j + 16
      w ++ [rotateLeft (w.getD (i - 3) 0 ^^^ w.getD (i - 8) 0 ^^^ w.getD (i - 14) 0 ^^^ w.getD (i - 16) 0) 1])
    ((List.range 16).map fun i => readU32be (block.drop (i * 4)))

def select (s : State) (i : Nat) : UInt32 × UInt32 :=
  if i < 20 then ((s.h1 &&& s.h2) ||| (~~~s.h1 &&& s.h3), 0x5A827999)
  else if i < 40 then (s.h1 ^^^ s.h2 ^^^ s.h3, 0x6ED9EBA1)
  else if i < 60 then ((s.h1 &&& s.h2) ||| (s.h1 &&& s.h3) ||| (s.h2 &&& s.h3), 0x8F1BBCDC)
  else (s.h1 ^^^ s.h2 ^^^ s.h3, 0xCA62C1D6)

def round (w : List UInt32) (s : State) (i : Nat) : State :=
  let (f, k) := select s i
  { h0 := rotateLeft s.h0 5 + f + s.h4 + k + w.getD i 0
    h1 := s.h0
    h2 := rotateLeft s.h1 30
    h3 := s.h2
    h4 := s.h3 }

def processBlock (state : State) (block : Bytes) : State :=
  let s := (List.range 80).foldl (round (schedule block)) state
  { h0 := state.h0 + s.h0, h1 := state.h1 + s.h1, h2 := state.h2 + s.h2, h3 := state.h3 + s.h3
    h4 := state.h4 + s.h4 }

def lengthBytes (bitLength : UInt64) : Bytes :=
  (List.range 8).map fun i => ((bitLength >>> UInt64.ofNat (8 * (7 - i))) &&& 0xFF).toUInt8

def emitWord (value : UInt32) : Bytes :=
  (List.range 4).map fun i => ((value >>> UInt32.ofNat (8 * (3 - i))) &&& 0xFF).toUInt8

def emit (state : State) : Bytes :=
  emitWord state.h0 ++ emitWord state.h1 ++ emitWord state.h2 ++ emitWord state.h3 ++ emitWord state.h4

def blockHash : BlockHash State := { start := {}, processBlock, lengthBytes, emit }

def digest (message : Bytes) : Bytes := blockHash.digest message

end Slopline.Crypto.Sha1

namespace Slopline.Crypto

def sha1 : MessageDigest where
  blockSize := kBlockSize
  digestSize := 20
  digest := Sha1.digest
  blockSize_pos := kBlockSize_pos
  digestSize_le := by decide
  length_digest _ := rfl

example : sha1.digest [] = [0xda, 0x39, 0xa3, 0xee, 0x5e, 0x6b, 0x4b, 0x0d, 0x32, 0x55,
    0xbf, 0xef, 0x95, 0x60, 0x18, 0x90, 0xaf, 0xd8, 0x07, 0x09] := by decide +kernel

end Slopline.Crypto
