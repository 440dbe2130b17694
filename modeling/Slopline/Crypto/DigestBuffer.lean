import Slopline.Crypto.Digest
import Slopline.Library.Checked

/-! `Md5::digest` and `Sha1::digest` with their pointer into the message and their tail buffer.

A read through the pointer or a store into the tail outside of them is a fault. There is none, and
the digest is the one of the plain lists.
-/

set_option autoImplicit false

namespace Slopline.Crypto

open Library

/-- A digest whose `process_block` reads through a pointer: of what is there it needs one block. -/
structure BufferHash (σ : Type) extends BlockHash σ where
  processBlockAt : σ → Bytes → Checked Empty σ
  lengthByte : UInt64 → Nat → UInt8
  reads_block : ∀ (state : σ) (view : Bytes), kBlockSize ≤ view.length →
    processBlockAt state view = .value (processBlock state (view.take kBlockSize))
  lengthBytes_eq : ∀ bitLength, lengthBytes bitLength = (List.range 8).map (lengthByte bitLength)

namespace BufferHash

variable {σ : Type} (h : BufferHash σ)

/-- The state with its count of bytes, `at` as an offset into the message, and `remaining`. -/
structure Cursor (σ : Type) where
  state : σ
  bytes : UInt64 := 0
  offset : Nat := 0
  remaining : Nat

def absorbStep (message : Bytes) (c : Cursor σ) : Loop (Cursor σ) (Checked Empty (Cursor σ)) :=
  if c.remaining < kBlockSize then .done (.value c)
  else match h.processBlockAt c.state (message.drop c.offset) with
    | .value state => .again {
        state
        bytes := c.bytes + UInt64.ofNat kBlockSize
        offset := c.offset + kBlockSize
        remaining := c.remaining - kBlockSize }
    | .error reason => .done (.error reason)
    | .fault => .done .fault

theorem absorbStep_drops (message : Bytes) (c next : Cursor σ) (step : h.absorbStep message c = .again next) :
    next.remaining < c.remaining := by
  unfold absorbStep at step
  split at step
  · cases step
  · split at step
    · cases step
      simp only [kBlockSize] at *
      omega
    · cases step
    · cases step

def absorb (message : Bytes) : Cursor σ → Checked Empty (Cursor σ) :=
  Loop.run (fun c : Cursor σ => c.remaining) (h.absorbStep_drops message)

structure Tail where
  bytes : Bytes
  n : Nat

namespace Tail

def push (byte : UInt8) (tail : Tail) : Checked Empty Tail := do
  return { bytes := ← Span.store tail.n byte tail.bytes, n := tail.n + 1 }

def copy (view : Bytes) (remaining : Nat) (tail : Tail) : Checked Empty Tail :=
  (List.range remaining).foldlM (fun tail i => do push (← Span.element i view) tail) tail

/-- `while (n < limit)`, a zero each time. -/
def zeroUpTo (limit : Nat) (tail : Tail) : Checked Empty Tail :=
  (List.range (limit - tail.n)).foldlM (fun tail _ => push 0 tail) tail

end Tail

def storeLength (bitLength : UInt64) (bytes : Bytes) : Checked Empty Bytes :=
  (List.range 8).foldlM (fun bytes i => Span.store (56 + i) (h.lengthByte bitLength i) bytes) bytes

def mark (view : Bytes) (remaining : Nat) : Checked Empty Tail := do
  let tail ← Tail.copy view remaining { bytes := .replicate 128 0, n := 0 }
  tail.push 0x80

def close (state : σ) (bitLength : UInt64) (tail : Tail) : Checked Empty σ := do
  let tail ← tail.zeroUpTo 56
  h.processBlockAt state (← h.storeLength bitLength tail.bytes)

def finish (message : Bytes) (c : Cursor σ) : Checked Empty σ := do
  let bitLength := (c.bytes + UInt64.ofNat c.remaining) * 8
  let tail ← mark (message.drop c.offset) c.remaining
  if 56 < tail.n then
    let tail ← tail.zeroUpTo kBlockSize
    let state ← h.processBlockAt c.state tail.bytes
    -- The same array once more, with all its stale bytes.
    h.close state bitLength { tail with n := 0 }
  else h.close c.state bitLength tail

def digest (message : Bytes) : Checked Empty Bytes := do
  let c ← h.absorb message { state := h.start, remaining := message.length }
  return h.emit (← h.finish message c)

/-! The tail, from what is written and what is stale behind it. -/

namespace Tail

def filled (written stale : Bytes) : Tail := { bytes := written ++ stale, n := written.length }

@[simp] theorem bytes_filled (written stale : Bytes) : (filled written stale).bytes = written ++ stale := rfl

@[simp] theorem n_filled (written stale : Bytes) : (filled written stale).n = written.length := rfl

theorem push_filled (byte old : UInt8) (written stale : Bytes) :
    push byte (filled written (old :: stale)) = .value (filled (written ++ [byte]) stale) := by
  have stored : (Span.store written.length byte (written ++ old :: stale) : Checked Empty Bytes) =
      .value (written ++ byte :: stale) := Span.store_append byte old rfl
  rw [push, filled, stored, Checked.value_bind, filled, List.append_assoc, List.length_append]
  rfl

variable {written stale : Bytes}

theorem copy_filled {view : Bytes} (room : view.length ≤ stale.length) :
    copy view view.length (filled written stale) =
      .value (filled (written ++ view) (stale.drop view.length)) := by
  have whole : (List.range view.length).map (view.getD · 0) = view := by
    apply List.ext_getElem
    · simp
    · intro i _ inside
      simp [inside]
  have copied : copy view view.length (filled written stale) =
      .value (filled (written ++ (List.range view.length).map (view.getD · 0)) (stale.drop view.length)) := by
    apply Span.foldlM_stores filled
    · intro i before old after inside _
      have item : (Span.element i view : Checked Empty UInt8) = .value (view.getD i 0) := by
        simp [Span.element, inside]
      rw [item, Checked.value_bind, push_filled]
    · exact room
  rw [copied, whole]

theorem zeroUpTo_filled {limit : Nat} (room : limit - written.length ≤ stale.length) :
    zeroUpTo limit (filled written stale) =
      .value (filled (written ++ .replicate (limit - written.length) 0) (stale.drop (limit - written.length))) := by
  have zeroes : (List.range (limit - written.length)).map (fun _ => (0 : UInt8)) =
      .replicate (limit - written.length) 0 := by
    rw [List.map_const', List.length_range]
  rw [zeroUpTo, ← zeroes]
  apply Span.foldlM_stores filled
  · intro _ before old after _ _
    exact push_filled 0 old before after
  · exact room

end Tail

variable {h : BufferHash σ}

theorem processBlockAt_block (state : σ) {block : Bytes} (size : block.length = kBlockSize) (behind : Bytes) :
    h.processBlockAt state (block ++ behind) = .value (h.processBlock state block) := by
  have enough : kBlockSize ≤ (block ++ behind).length := by
    rw [List.length_append, size]
    exact Nat.le_add_right _ _
  rw [h.reads_block state _ enough, List.take_left' size]

theorem storeLength_eq (bitLength : UInt64) {written stale : Bytes} (size : written.length = 56)
    (room : 8 ≤ stale.length) :
    h.storeLength bitLength (written ++ stale) = .value (written ++ h.lengthBytes bitLength ++ stale.drop 8) := by
  rw [h.lengthBytes_eq]
  apply Span.foldlM_stores (· ++ ·) (h.lengthByte bitLength)
  · intro i before old after _ place
    rw [List.append_assoc]
    apply Span.store_append
    rw [place, size]
  · exact room

@[simp] theorem length_lengthBytes (bitLength : UInt64) : (h.lengthBytes bitLength).length = 8 := by
  rw [h.lengthBytes_eq, List.length_map, List.length_range]

theorem close_filled (state : σ) (bitLength : UInt64) {written stale : Bytes} (most : written.length ≤ 56)
    (room : kBlockSize ≤ written.length + stale.length) :
    h.close state bitLength (Tail.filled written stale) =
      .value (h.processBlock state (written ++ .replicate (56 - written.length) 0 ++ h.lengthBytes bitLength)) := by
  have space : 64 ≤ written.length + stale.length := room
  have zeroes : 56 - written.length ≤ stale.length := by omega
  have size := length_filledUp most
  have behind : 8 ≤ (stale.drop (56 - written.length)).length := by
    rw [List.length_drop]
    omega
  have block : (written ++ .replicate (56 - written.length) 0 ++ h.lengthBytes bitLength).length = kBlockSize := by
    rw [List.length_append, size, length_lengthBytes]
    rfl
  rw [close, Tail.zeroUpTo_filled zeroes, Checked.value_bind, Tail.filled, storeLength_eq bitLength size behind,
    Checked.value_bind, processBlockAt_block state block]

theorem mark_eq {view : Bytes} (short : view.length < kBlockSize) :
    mark view view.length = .value (Tail.filled (view ++ [0x80]) (.replicate (127 - view.length) 0)) := by
  have less : view.length < 64 := short
  have room : view.length ≤ (List.replicate 128 (0 : UInt8)).length := by
    rw [List.length_replicate]
    omega
  have behind : (List.replicate 128 (0 : UInt8)).drop view.length = 0 :: .replicate (127 - view.length) 0 := by
    rw [List.drop_replicate, ← List.replicate_succ]
    congr 1
    omega
  have copied := @Tail.copy_filled [] _ _ room
  rw [behind] at copied
  calc mark view view.length
      = (Tail.filled ([] ++ view) (0 :: .replicate (127 - view.length) 0)).push 0x80 :=
        congrArg (· >>= Tail.push 0x80) copied
    _ = .value (Tail.filled (view ++ [0x80]) (.replicate (127 - view.length) 0)) := Tail.push_filled 0x80 0 view _

/-- With the tail buffer the last blocks are what they are without it. -/
theorem finish_eq {message rest : Bytes} {c : Cursor σ} (view : message.drop c.offset = rest)
    (left : rest.length = c.remaining) (short : rest.length < kBlockSize) :
    h.finish message c = .value (h.toBlockHash.finish { state := c.state, bytes := c.bytes, rest }) := by
  have less : rest.length < 64 := short
  have marked : (rest ++ [0x80]).length = rest.length + 1 := List.length_append
  rw [finish, view, ← left, mark_eq short, Checked.value_bind, Tail.n_filled]
  by_cases second : 56 < (rest ++ [0x80]).length
  · have zeroes : kBlockSize - (rest ++ [0x80]).length ≤ (List.replicate (127 - rest.length) (0 : UInt8)).length := by
      rw [List.length_replicate, marked, kBlockSize]
      omega
    have first : (rest ++ ([0x80] : Bytes) ++
        List.replicate (kBlockSize - (rest ++ [0x80]).length) (0 : UInt8)).length = kBlockSize :=
      length_filledUp (marked ▸ short)
    have again (bytes : Bytes) : ({ bytes, n := 0 } : Tail) = Tail.filled [] bytes := rfl
    have whole (stale : Bytes) (size : stale.length = kBlockSize) (behind : Bytes) :
        kBlockSize ≤ ([] : Bytes).length + (stale ++ behind).length := by
      rw [List.length_append, size, List.length_nil]
      omega
    have nothing : ([] : Bytes).length ≤ 56 := Nat.zero_le 56
    rw [if_pos second, Tail.zeroUpTo_filled zeroes, Checked.value_bind, Tail.bytes_filled, processBlockAt_block _ first,
      Checked.value_bind, again, close_filled _ _ nothing (whole _ first _), BlockHash.finish, if_pos second]
    rfl
  · have most : (rest ++ [0x80]).length ≤ 56 := Nat.le_of_not_lt second
    have room : kBlockSize ≤ (rest ++ [0x80]).length + (List.replicate (127 - rest.length) (0 : UInt8)).length := by
      rw [List.length_replicate, marked, kBlockSize]
      omega
    rw [if_neg second, close_filled _ _ most room, BlockHash.finish, if_neg second]

/-- A cursor stands where a progress through the message's list does. -/
def Stands (message : Bytes) (c : Cursor σ) (p : BlockHash.Progress σ) : Prop :=
  message.drop c.offset = p.rest ∧ p.rest.length = c.remaining ∧ c.state = p.state ∧ c.bytes = p.bytes

theorem absorbStep_stands {message : Bytes} {c : Cursor σ} {p next : BlockHash.Progress σ}
    (stands : Stands message c p) (round : h.toBlockHash.absorbStep p = .again next) :
    ∃ c', h.absorbStep message c = .again c' ∧ Stands message c' next := by
  obtain ⟨view, left, state, bytes⟩ := stands
  by_cases short : p.rest.length < kBlockSize
  · rw [BlockHash.absorbStep, if_pos short] at round
    cases round
  · have enough : kBlockSize ≤ p.rest.length := Nat.le_of_not_lt short
    rw [BlockHash.absorbStep, if_neg short] at round
    rw [absorbStep, if_neg (left ▸ short), view, h.reads_block c.state _ enough]
    cases round
    refine ⟨_, rfl, ?_, ?_, ?_, ?_⟩
    · rw [← List.drop_drop, view]
    · simp only [List.length_drop, left]
    · rw [state]
    · rw [bytes]

/-- The loop never faults, and ends where the loop over the list ends. -/
theorem absorb_stands {message : Bytes} {c : Cursor σ} {p : BlockHash.Progress σ} (stands : Stands message c p) :
    ∃ c', h.absorb message c = .value c' ∧ Stands message c' (h.toBlockHash.absorb p) := by
  apply Loop.run_simulates (fun c : Cursor σ => c.remaining) (h.absorbStep_drops message) _
    h.toBlockHash.absorbStep_drops (Stands message)
    (fun result final => ∃ c', result = .value c' ∧ Stands message c' final)
  · intro c p next stands round
    obtain ⟨c', step, stands'⟩ := absorbStep_stands stands round
    exact ⟨c', .next step (.refl c'), stands'⟩
  · intro c p final stands leaves
    by_cases short : p.rest.length < kBlockSize
    · rw [BlockHash.absorbStep, if_pos short] at leaves
      cases leaves
      have step : h.absorbStep message c = .done (.value c) := by
        rw [absorbStep, if_pos (stands.2.1 ▸ short)]
      exact ⟨c, Loop.run_done _ _ step, stands⟩
    · rw [BlockHash.absorbStep, if_neg short] at leaves
      cases leaves
  · exact stands

end BufferHash

end Slopline.Crypto
