import Slopline.Core.Endian
import Slopline.Crypto.BlowfishTables
import Slopline.Library.Keystream

/-! Blowfish and its OFB-64 stream (`appwarrior/crypto/blowfish.h`, `blowfish.cpp`). -/

set_option autoImplicit false

namespace Slopline.Crypto

open Endian Library

abbrev kBlowfishBlockSize : Nat := 8

abbrev Block := Vector UInt8 kBlowfishBlockSize

namespace Blowfish

structure Schedule where
  p : Vector UInt32 18 := .replicate 18 0
  s : Vector (Vector UInt32 256) 4 := .replicate 4 (.replicate 256 0)
  deriving DecidableEq

/-- The entry of a box for a byte of the word, which is below 256 as it is. -/
def Schedule.box (key : Schedule) (i : Fin 4) (byte : UInt8) : UInt32 := (key.s.get i).get byte.toFin

def roundFunction (x : UInt32) (key : Schedule) : UInt32 :=
  let a := ((x >>> 24) &&& 0xFF).toUInt8
  let b := ((x >>> 16) &&& 0xFF).toUInt8
  let c := ((x >>> 8) &&& 0xFF).toUInt8
  let d := (x &&& 0xFF).toUInt8
  ((key.box 0 a + key.box 1 b) ^^^ key.box 2 c) + key.box 3 d

/-- One Feistel round with the subkey at `i`, its halves swapped. -/
def feistel (key : Schedule) (words : UInt32 × UInt32) (i : Fin 18) : UInt32 × UInt32 :=
  let l := words.1 ^^^ key.p.get i
  (roundFunction l key ^^^ words.2, l)

def encryptWords (l r : UInt32) (key : Schedule) : UInt32 × UInt32 :=
  let words := ((List.finRange 18).take 16).foldl (feistel key) (l, r)
  -- The last swap is undone before the closing subkeys.
  (words.2 ^^^ key.p.get 17, words.1 ^^^ key.p.get 16)

def decryptWords (l r : UInt32) (key : Schedule) : UInt32 × UInt32 :=
  let words := ((List.finRange 18).drop 2).reverse.foldl (feistel key) (l, r)
  (words.2 ^^^ key.p.get 0, words.1 ^^^ key.p.get 1)

/-- The next four key bytes as a word, and where the key goes on. The header requires a
key that is not empty. -/
def keyWord (key : Bytes) (k : Nat) : UInt32 × Nat :=
  (List.range 4).foldl
    (fun (word, k) _ => ((word <<< 8) ||| (key.getD k 0).toUInt32, (k + 1) % key.length)) (0, k)

def xorKey (key : Bytes) (p : Vector UInt32 18) : Vector UInt32 18 :=
  ((List.finRange 18).foldl
    (fun (p, k) i => (p.set i.val (p.get i ^^^ (keyWord key k).1) i.isLt, (keyWord key k).2)) (p, 0)).1

abbrev Filling := Schedule × UInt32 × UInt32

def fillP (state : Filling) (i : Fin 9) : Filling :=
  let (out, l, r) := state
  let (nl, nr) := encryptWords l r out
  let p := (out.p.set (2 * i.val) nl (by omega)).set (2 * i.val + 1) nr (by omega)
  ({ out with p }, nl, nr)

def fillS (box : Fin 4) (state : Filling) (j : Fin 128) : Filling :=
  let (out, l, r) := state
  let (nl, nr) := encryptWords l r out
  let entries := ((out.s.get box).set (2 * j.val) nl (by omega)).set (2 * j.val + 1) nr (by omega)
  ({ out with s := out.s.set box.val entries box.isLt }, nl, nr)

-- Irreducible, so that comparing two ciphers does not unfold the boxes.
@[irreducible] def expandKey (key : Bytes) : Schedule :=
  let out : Schedule := { p := xorKey key kParrayPi, s := #v[kSbox0, kSbox1, kSbox2, kSbox3] }
  let filled := (List.finRange 9).foldl fillP (out, 0, 0)
  ((List.finRange 4).foldl (fun state box => (List.finRange 128).foldl (fillS box) state) filled).1

def blockOf (words : UInt32 × UInt32) : Block := ⟨(writeU32be words.1 ++ writeU32be words.2).toArray, rfl⟩

def encryptBlock (key : Schedule) (block : Block) : Block :=
  blockOf (encryptWords (readU32be block.toList) (readU32be (block.toList.drop 4)) key)

def decryptBlock (key : Schedule) (block : Block) : Block :=
  blockOf (decryptWords (readU32be block.toList) (readU32be (block.toList.drop 4)) key)

structure Ofb64 where
  iv : Block
  offset : Fin 8
  deriving DecidableEq

namespace Ofb64

def reset : Ofb64 := { iv := .replicate 8 0, offset := 0 }

/-- One byte of keystream. The offset wraps at 8, the source's `& 0x7U`. -/
def next (schedule : Schedule) (stream : Ofb64) : UInt8 × Ofb64 :=
  let iv := if stream.offset = 0 then encryptBlock schedule stream.iv else stream.iv
  (iv.get stream.offset, { iv, offset := stream.offset + 1 })

def process (schedule : Schedule) (stream : Ofb64) (buffer : Bytes) : Bytes × Ofb64 :=
  Keystream.apply (next schedule) (fun key byte => byte ^^^ key) stream buffer

variable (schedule : Schedule) (stream : Ofb64)

@[simp] theorem length_process (buffer : Bytes) : (process schedule stream buffer).1.length = buffer.length :=
  Keystream.length_apply _ _ _ _

@[simp] theorem process_process (buffer : Bytes) :
    process schedule stream (process schedule stream buffer).1 = (buffer, (process schedule stream buffer).2) :=
  Keystream.apply_apply (fun key byte => by rw [UInt8.xor_assoc, UInt8.xor_self, UInt8.xor_zero]) _ _

end Ofb64

end Blowfish

/-- A cipher has a schedule for each direction; both streams encrypt their feedback. -/
structure Blowfish where
  encodeKey : Blowfish.Schedule := {}
  decodeKey : Blowfish.Schedule := {}

namespace Blowfish

def setEncodeKey (key : Bytes) (cipher : Blowfish) : Blowfish := { cipher with encodeKey := expandKey key }

def setDecodeKey (key : Bytes) (cipher : Blowfish) : Blowfish := { cipher with decodeKey := expandKey key }

/-- One block under the encode schedule, the public overload of `encrypt_block`. -/
def encryptOneBlock (cipher : Blowfish) (block : Block) : Block := encryptBlock cipher.encodeKey block

def decryptOneBlock (cipher : Blowfish) (block : Block) : Block := decryptBlock cipher.decodeKey block

def encodeStream (cipher : Blowfish) (stream : Ofb64) (buffer : Bytes) : Bytes × Ofb64 :=
  stream.process cipher.encodeKey buffer

def decodeStream (cipher : Blowfish) (stream : Ofb64) (buffer : Bytes) : Bytes × Ofb64 :=
  stream.process cipher.decodeKey buffer

end Blowfish

end Slopline.Crypto
