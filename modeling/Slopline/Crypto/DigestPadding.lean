import Slopline.Crypto.DigestBuffer
import Slopline.Crypto.Md5
import Slopline.Crypto.Sha1
import Slopline.Library.Blocks
import Slopline.Library.Positional

/-! The digests as folds over the blocks of the padded message. -/

set_option autoImplicit false

namespace Slopline.Crypto

open Library Endian

/-- The least number of zeroes after 0x80 that makes the length 56 modulo 64. -/
def paddingZeroes (length : Nat) : Nat :=
  Nat.find (p := fun count => (length + 1 + count) % 64 = 56) ⟨63 * (length + 1) + 56, by omega⟩

def padded (lengthField : Nat → Bytes) (message : Bytes) : Bytes :=
  message ++ [0x80] ++ .replicate (paddingZeroes message.length) 0 ++ lengthField (8 * message.length)

theorem paddingZeroes_eq (length : Nat) : paddingZeroes length = (119 - length % 64) % 64 := by
  rw [paddingZeroes, Nat.find_eq_iff]
  constructor
  · omega
  · intro count less
    omega

theorem paddingZeroes_congr {length length' : Nat} (same : length % kBlockSize = length' % kBlockSize) :
    paddingZeroes length = paddingZeroes length' := by
  have same : length % 64 = length' % 64 := same
  rw [paddingZeroes_eq, paddingZeroes_eq, same]

namespace BlockHash

variable {σ : Type} {h : BlockHash σ}

def process (h : BlockHash σ) (state : σ) (stream : Bytes) : σ :=
  (blocks kBlockSize stream).foldl h.processBlock state

theorem process_append (state : σ) (stream more : Bytes) :
    h.process state (stream ++ more) = h.process (h.process state stream) (residue kBlockSize stream ++ more) := by
  rw [process, blocks_append kBlockSize_pos, List.foldl_append]
  rfl

theorem process_short (state : σ) {stream : Bytes} (short : stream.length < kBlockSize) :
    h.process state stream = state := by
  rw [process, blocks_short short]
  rfl

theorem process_step (state : σ) {stream : Bytes} (enough : kBlockSize ≤ stream.length) :
    h.process state stream =
      h.process (h.processBlock state (stream.take kBlockSize)) (stream.drop kBlockSize) := by
  rw [process, blocks_step kBlockSize_pos enough]
  rfl

theorem process_block (state : σ) {block : Bytes} (size : block.length = kBlockSize) (more : Bytes) :
    h.process state (block ++ more) = h.process (h.processBlock state block) more := by
  have enough : kBlockSize ≤ (block ++ more).length := by
    rw [List.length_append, size]
    exact Nat.le_add_right _ _
  rw [process_step state enough, List.take_left' size, List.drop_left' size]

theorem process_one (state : σ) {block : Bytes} (size : block.length = kBlockSize) :
    h.process state block = h.processBlock state block := by
  rw [process, blocks_one kBlockSize_pos size]
  rfl

theorem absorb_eq (p : Progress σ) :
    h.absorb p = {
      state := h.process p.state p.rest
      bytes := p.bytes + UInt64.ofNat (kBlockSize * (p.rest.length / kBlockSize))
      rest := residue kBlockSize p.rest } := by
  obtain ⟨state, bytes, rest⟩ := p
  induction rest using block_induction kBlockSize_pos generalizing state bytes with
  | short rest less =>
    have stops : h.absorbStep { state, bytes, rest } = .done { state, bytes, rest } := if_pos less
    rw [absorb, Loop.run_done _ _ stops, process_short state less, residue_short less, Nat.div_eq_of_lt less]
    simp
  | block rest enough ih =>
    have goes : h.absorbStep { state, bytes, rest } = .again {
        state := h.processBlock state (rest.take kBlockSize)
        bytes := bytes + UInt64.ofNat kBlockSize
        rest := rest.drop kBlockSize } := if_neg (Nat.not_lt_of_le enough)
    have later := ih (h.processBlock state (rest.take kBlockSize)) (bytes + UInt64.ofNat kBlockSize)
    have count : bytes + UInt64.ofNat kBlockSize +
        UInt64.ofNat (kBlockSize * ((rest.drop kBlockSize).length / kBlockSize)) =
        bytes + UInt64.ofNat (kBlockSize * (rest.length / kBlockSize)) := by
      rw [length_div kBlockSize_pos enough, Nat.mul_succ, Nat.add_comm (kBlockSize * _), UInt64.ofNat_add,
        UInt64.add_assoc]
    rw [absorb, Loop.run_again _ _ goes]
    rw [absorb] at later
    rw [later, count, process_step state enough, residue_step kBlockSize_pos enough]

theorem finish_eq_process {p : Progress σ} (short : p.rest.length < kBlockSize)
    (lengths : ∀ bitLength, (h.lengthBytes bitLength).length = 8) :
    h.finish p = h.process p.state
      (p.rest ++ [0x80] ++ .replicate (paddingZeroes p.rest.length) 0 ++
        h.lengthBytes ((p.bytes + UInt64.ofNat p.rest.length) * 8)) := by
  have less : p.rest.length < 64 := short
  have marked : (p.rest ++ [0x80]).length = p.rest.length + 1 := List.length_append
  have zeroes := paddingZeroes_eq p.rest.length
  by_cases second : 56 < (p.rest ++ [0x80]).length
  · have split : paddingZeroes p.rest.length = (kBlockSize - (p.rest ++ [0x80]).length) + 56 := by
      rw [zeroes, marked, kBlockSize]
      omega
    have first : (p.rest ++ ([0x80] : Bytes) ++
        List.replicate (kBlockSize - (p.rest ++ [0x80]).length) (0 : UInt8)).length = kBlockSize :=
      length_filledUp (marked ▸ short)
    have last (bitLength : UInt64) :
        (List.replicate 56 (0 : UInt8) ++ h.lengthBytes bitLength).length = kBlockSize := by
      rw [List.length_append, List.length_replicate, lengths]
      rfl
    rw [finish, if_pos second, split, List.replicate_add, ← List.append_assoc,
      List.append_assoc _ (List.replicate 56 0), process_block _ first, process_one _ (last _)]
  · have split : paddingZeroes p.rest.length = 56 - (p.rest ++ [0x80]).length := by
      rw [zeroes, marked]
      omega
    have block (bitLength : UInt64) : (p.rest ++ ([0x80] : Bytes) ++
        List.replicate (56 - (p.rest ++ [0x80]).length) (0 : UInt8) ++ h.lengthBytes bitLength).length = kBlockSize := by
      rw [List.length_append, length_filledUp (Nat.le_of_not_lt second), lengths]
      rfl
    rw [finish, if_neg second, split, process_one _ (block _)]

/-- The digest of a message is that of the blocks of the padded message. -/
theorem digest_eq_process {lengthField : Nat → Bytes} (lengths : ∀ value, (lengthField value).length = 8)
    (field : ∀ value, h.lengthBytes (UInt64.ofNat value) = lengthField value) (message : Bytes) :
    h.digest message = h.emit (h.process h.start (padded lengthField message)) := by
  have short : (residue kBlockSize message).length < kBlockSize := residue_lt kBlockSize_pos message
  have size : (residue kBlockSize message).length = message.length % kBlockSize := length_residue message
  have eight (bitLength : UInt64) : (h.lengthBytes bitLength).length = 8 := by
    rw [← UInt64.ofNat_toNat (x := bitLength), field, lengths]
  have zeroes : paddingZeroes (residue kBlockSize message).length = paddingZeroes message.length := by
    apply paddingZeroes_congr
    rw [size, Nat.mod_mod]
  have bits : (0 + UInt64.ofNat (kBlockSize * (message.length / kBlockSize)) +
      UInt64.ofNat (residue kBlockSize message).length) * 8 = UInt64.ofNat (8 * message.length) := by
    rw [UInt64.zero_add, ← UInt64.ofNat_add, size, Nat.div_add_mod, Nat.mul_comm 8, UInt64.ofNat_mul]
    rfl
  have finished := finish_eq_process (h := h) (p := {
    state := h.process h.start message
    bytes := 0 + UInt64.ofNat (kBlockSize * (message.length / kBlockSize))
    rest := residue kBlockSize message }) short eight
  calc h.digest message
      = h.emit (h.finish (h.absorb { state := h.start, rest := message })) := rfl
    _ = h.emit (h.process (h.process h.start message) (residue kBlockSize message ++
          ([0x80] ++ .replicate (paddingZeroes message.length) 0 ++ lengthField (8 * message.length)))) := by
      rw [absorb_eq, finished, zeroes, bits, field]
      simp only [List.append_assoc]
    _ = h.emit (h.process h.start (padded lengthField message)) := by
      rw [← process_append, padded]
      simp only [List.append_assoc]

end BlockHash

/-- With pointer and tail buffer the digest is the one of the plain lists, and nothing faults. -/
theorem BufferHash.digest_eq {σ : Type} (h : BufferHash σ) (message : Bytes) :
    h.digest message = .value (h.toBlockHash.digest message) := by
  have start : Stands message { state := h.start, remaining := message.length }
      { state := h.start, rest := message } := ⟨rfl, rfl, rfl, rfl⟩
  obtain ⟨c, absorbed, view, left, state, bytes⟩ := absorb_stands start
  have short : (h.toBlockHash.absorb { state := h.start, rest := message }).rest.length < kBlockSize := by
    rw [BlockHash.absorb_eq]
    exact residue_lt kBlockSize_pos message
  rw [digest, absorbed, Checked.value_bind, finish_eq view left short, Checked.value_bind, state, bytes]
  rfl

theorem element_block {view : Bytes} (enough : kBlockSize ≤ view.length) {i : Nat} (inside : i < kBlockSize) :
    (Span.element i view : Checked Empty UInt8) = .value ((view.take kBlockSize).getD i 0) := by
  have bound : i < view.length := Nat.lt_of_lt_of_le inside enough
  simp [Span.element, List.getD_eq_getElem?_getD, inside, bound]

theorem element_word {view : Bytes} (enough : kBlockSize ≤ view.length) {i : Nat} (inside : i ∈ List.range 16) :
    (Span.element (i * 4) view : Checked Empty UInt8) = .value ((view.take kBlockSize).getD (i * 4) 0) ∧
      ∀ j < 4, (Span.element (i * 4 + j) view : Checked Empty UInt8) =
        .value ((view.take kBlockSize).getD (i * 4 + j) 0) := by
  have bound : i < 16 := List.mem_range.mp inside
  have within (j : Nat) (less : j < 4) : i * 4 + j < kBlockSize := by
    rw [kBlockSize]
    omega
  exact ⟨element_block enough (within 0 (by decide)), fun j less => element_block enough (within j less)⟩

namespace Md5

def wordAt (block : Bytes) (i : Nat) : Checked Empty UInt32 := do
  let at_ := i * 4
  return (← Span.element at_ block).toUInt32 ||| ((← Span.element (at_ + 1) block).toUInt32 <<< 8) |||
    ((← Span.element (at_ + 2) block).toUInt32 <<< 16) ||| ((← Span.element (at_ + 3) block).toUInt32 <<< 24)

def processBlockAt (state : State) (block : Bytes) : Checked Empty State := do
  let m ← (List.range 16).mapM (wordAt block)
  let s := (List.range 64).foldl (round m) state
  return { a := state.a + s.a, b := state.b + s.b, c := state.c + s.c, d := state.d + s.d }

theorem processBlockAt_eq (state : State) (view : Bytes) (enough : kBlockSize ≤ view.length) :
    processBlockAt state view = .value (processBlock state (view.take kBlockSize)) := by
  have words (i : Nat) (inside : i ∈ List.range 16) : wordAt view i = .value (word (view.take kBlockSize) i) := by
    obtain ⟨front, byte⟩ := element_word enough inside
    simp only [wordAt, front, byte 1 (by decide), byte 2 (by decide), byte 3 (by decide), Checked.value_bind]
    rfl
  rw [processBlockAt, Checked.mapM_value _ words]
  rfl

def bufferHash : BufferHash State where
  toBlockHash := blockHash
  processBlockAt
  lengthByte bitLength i := ((bitLength >>> UInt64.ofNat (8 * i)) &&& 0xFF).toUInt8
  reads_block := processBlockAt_eq
  lengthBytes_eq _ := rfl

theorem lengthBytes_ofNat (value : Nat) : lengthBytes (UInt64.ofNat value) = little 8 value := by
  simp [lengthBytes, List.range_succ, little, ← UInt8.toNat_inj, Nat.shiftRight_eq_div_pow, digit_masked,
    Nat.div_div_eq_div_mul]
  omega

/-- `Md5::digest`, with its reads and stores. -/
def digestAt (message : Bytes) : Checked Empty Bytes := bufferHash.digest message

end Md5

namespace Sha1

def wordAt (block : Bytes) (i : Nat) : Checked Empty UInt32 := do
  let at_ := i * 4
  return ((← Span.element at_ block).toUInt32 <<< 24) ||| ((← Span.element (at_ + 1) block).toUInt32 <<< 16) |||
    ((← Span.element (at_ + 2) block).toUInt32 <<< 8) ||| (← Span.element (at_ + 3) block).toUInt32

def expand (words : List UInt32) : List UInt32 :=
  (List.range 64).foldl
    (fun w j =>
      let i := j + 16
      w ++ [rotateLeft (w.getD (i - 3) 0 ^^^ w.getD (i - 8) 0 ^^^ w.getD (i - 14) 0 ^^^ w.getD (i - 16) 0) 1])
    words

def processBlockAt (state : State) (block : Bytes) : Checked Empty State := do
  let w ← (List.range 16).mapM (wordAt block)
  let s := (List.range 80).foldl (round (expand w)) state
  return { h0 := state.h0 + s.h0, h1 := state.h1 + s.h1, h2 := state.h2 + s.h2, h3 := state.h3 + s.h3
           h4 := state.h4 + s.h4 }

theorem processBlockAt_eq (state : State) (view : Bytes) (enough : kBlockSize ≤ view.length) :
    processBlockAt state view = .value (processBlock state (view.take kBlockSize)) := by
  have words (i : Nat) (inside : i ∈ List.range 16) :
      wordAt view i = .value (readU32be ((view.take kBlockSize).drop (i * 4))) := by
    obtain ⟨front, byte⟩ := element_word enough inside
    simp only [wordAt, front, byte 1 (by decide), byte 2 (by decide), byte 3 (by decide), Checked.value_bind]
    simp [readU32be, List.getD_eq_getElem?_getD]
  rw [processBlockAt, Checked.mapM_value _ words]
  rfl

def bufferHash : BufferHash State where
  toBlockHash := blockHash
  processBlockAt
  lengthByte bitLength i := ((bitLength >>> UInt64.ofNat (8 * (7 - i))) &&& 0xFF).toUInt8
  reads_block := processBlockAt_eq
  lengthBytes_eq _ := rfl

theorem lengthBytes_ofNat (value : Nat) : lengthBytes (UInt64.ofNat value) = big 8 value := by
  simp [lengthBytes, List.range_succ, big, little, ← UInt8.toNat_inj, Nat.shiftRight_eq_div_pow, digit_masked,
    Nat.div_div_eq_div_mul]
  omega

/-- `Sha1::digest`, with its reads and stores. -/
def digestAt (message : Bytes) : Checked Empty Bytes := bufferHash.digest message

end Sha1

/-- For every message: no read and no store is out of bounds, and the digest is the fold of `process_block`
over the blocks of the message with 0x80, the least number of zeroes and the low 64 bits of its length in bits. -/
theorem digests_pad (message : Bytes) :
    Md5.digestAt message =
        .value (Md5.emit ((blocks 64 (padded (little 8) message)).foldl Md5.processBlock {})) ∧
      Sha1.digestAt message =
        .value (Sha1.emit ((blocks 64 (padded (big 8) message)).foldl Sha1.processBlock {})) := by
  constructor
  · have padding := BlockHash.digest_eq_process (h := Md5.blockHash) (length_little 8) Md5.lengthBytes_ofNat message
    exact (Md5.bufferHash.digest_eq message).trans (congrArg Checked.value padding)
  · have padding := BlockHash.digest_eq_process (h := Sha1.blockHash) (length_big 8) Sha1.lengthBytes_ofNat message
    exact (Sha1.bufferHash.digest_eq message).trans (congrArg Checked.value padding)

end Slopline.Crypto
