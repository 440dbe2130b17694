import Slopline.Core.Endian
import Slopline.Library.Loop

/-! Digests and the HMAC over them (`appwarrior/crypto/hmac.h`).

MD5 and SHA-1 differ in their compression and in the order of the bytes of a word;
how they cut a message into blocks and pad the last one is the same code twice.
-/

set_option autoImplicit false

namespace Slopline.Crypto

open Library

/-- The concept `message_digest`. -/
structure MessageDigest where
  blockSize : Nat
  digestSize : Nat
  digest : Bytes → Bytes
  blockSize_pos : 0 < blockSize
  /-- What `hmac` copies into an array of one block; the concept does not ask for it. -/
  digestSize_le : digestSize ≤ blockSize
  length_digest : ∀ message, (digest message).length = digestSize

def hmacBlock (H : MessageDigest) (key : Bytes) : Bytes :=
  let key := if H.blockSize < key.length then H.digest key else key
  key ++ List.replicate (H.blockSize - key.length) 0

@[simp] theorem length_hmacBlock (H : MessageDigest) (key : Bytes) : (hmacBlock H key).length = H.blockSize := by
  have fits := H.digestSize_le
  unfold hmacBlock
  split
  · simp only [List.length_append, List.length_replicate, H.length_digest]
    omega
  · simp only [List.length_append, List.length_replicate]
    omega

def hmac (H : MessageDigest) (key message : Bytes) : Bytes :=
  let inner := (hmacBlock H key).map (· ^^^ 0x36)
  let outer := (hmacBlock H key).map (· ^^^ 0x5C)
  H.digest (outer ++ H.digest (inner ++ message))

@[simp] theorem length_hmac (H : MessageDigest) (key message : Bytes) :
    (hmac H key message).length = H.digestSize := H.length_digest _

def kBlockSize : Nat := 64

theorem kBlockSize_pos : 0 < kBlockSize := by decide

theorem length_filledUp {written : Bytes} {limit : Nat} (most : written.length ≤ limit) :
    (written ++ List.replicate (limit - written.length) (0 : UInt8)).length = limit := by
  rw [List.length_append, List.length_replicate]
  omega

/-- What MD5 and SHA-1 do not share. -/
structure BlockHash (σ : Type) where
  start : σ
  processBlock : σ → Bytes → σ
  lengthBytes : UInt64 → Bytes
  emit : σ → Bytes

namespace BlockHash

structure Progress (σ : Type) where
  state : σ
  bytes : UInt64 := 0
  rest : Bytes

variable {σ : Type} (h : BlockHash σ)

def absorbStep (p : Progress σ) : Loop (Progress σ) (Progress σ) :=
  if p.rest.length < kBlockSize then .done p
  else .again {
    state := h.processBlock p.state (p.rest.take kBlockSize)
    bytes := p.bytes + UInt64.ofNat kBlockSize
    rest := p.rest.drop kBlockSize }

theorem absorbStep_drops (p next : Progress σ) (step : h.absorbStep p = .again next) :
    next.rest.length < p.rest.length := by
  unfold absorbStep at step
  split at step
  · cases step
  · cases step
    simp only [List.length_drop, kBlockSize] at *
    omega

def absorb : Progress σ → Progress σ :=
  Loop.run (fun p : Progress σ => p.rest.length) h.absorbStep_drops

/-- The last blocks: what is left, 0x80, zeroes and the length in bits. -/
def finish (p : Progress σ) : σ :=
  let bitLength := (p.bytes + UInt64.ofNat p.rest.length) * 8
  let tail := p.rest ++ [0x80]
  if 56 < tail.length then
    let state := h.processBlock p.state (tail ++ List.replicate (kBlockSize - tail.length) 0)
    h.processBlock state (List.replicate 56 0 ++ h.lengthBytes bitLength)
  else h.processBlock p.state (tail ++ List.replicate (56 - tail.length) 0 ++ h.lengthBytes bitLength)

def digest (message : Bytes) : Bytes :=
  h.emit (h.finish (h.absorb { state := h.start, rest := message }))

end BlockHash

def rotateLeft (value amount : UInt32) : UInt32 := (value <<< amount) ||| (value >>> (32 - amount))

end Slopline.Crypto
