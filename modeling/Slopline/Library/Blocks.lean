import Mathlib.Data.List.Basic

/-! Streams cut into blocks of one size, and what stays behind the complete ones.

A machine that takes a stream in pieces needs of what came before only the incomplete block.
-/

set_option autoImplicit false

namespace Library

variable {α : Type} (size : Nat)

def blocks (stream : List α) : List (List α) :=
  (List.range (stream.length / size)).map fun i => (stream.drop (size * i)).take size

def residue (stream : List α) : List α := stream.drop (size * (stream.length / size))

variable {size} (positive : 0 < size)
include positive

omit positive in
theorem length_residue (stream : List α) : (residue size stream).length = stream.length % size := by
  rw [residue, List.length_drop, Nat.mod_eq_sub]

theorem residue_lt (stream : List α) : (residue size stream).length < size := by
  rw [length_residue]
  exact Nat.mod_lt _ positive

omit positive in
theorem blocks_short {stream : List α} (short : stream.length < size) : blocks size stream = [] := by
  rw [blocks, Nat.div_eq_of_lt short]
  rfl

omit positive in
theorem residue_short {stream : List α} (short : stream.length < size) : residue size stream = stream := by
  rw [residue, Nat.div_eq_of_lt short, Nat.mul_zero, List.drop_zero]

theorem length_div {stream : List α} (enough : size ≤ stream.length) :
    stream.length / size = (stream.drop size).length / size + 1 := by
  rw [List.length_drop, Nat.div_eq_sub_div positive enough]

theorem blocks_step {stream : List α} (enough : size ≤ stream.length) :
    blocks size stream = stream.take size :: blocks size (stream.drop size) := by
  rw [blocks, length_div positive enough, List.range_succ_eq_map, List.map_cons, List.map_map]
  congr 1
  apply List.map_congr_left
  intro i _
  rw [Function.comp_apply, List.drop_drop, Nat.mul_succ, Nat.add_comm]

theorem residue_step {stream : List α} (enough : size ≤ stream.length) :
    residue size stream = residue size (stream.drop size) := by
  rw [residue, length_div positive enough, residue, List.drop_drop, Nat.mul_succ, Nat.add_comm]

theorem block_induction {motive : List α → Prop} (short : ∀ stream, stream.length < size → motive stream)
    (block : ∀ stream, size ≤ stream.length → motive (stream.drop size) → motive stream) (stream : List α) :
    motive stream := by
  generalize bound : stream.length = n
  induction n using Nat.strongRecOn generalizing stream with
  | ind n ih =>
    by_cases enough : size ≤ stream.length
    · have less : (stream.drop size).length < n := by
        rw [List.length_drop]
        omega
      exact block stream enough (ih _ less _ rfl)
    · exact short stream (Nat.lt_of_not_le enough)

/-- The blocks of a longer stream: those it had, and those of what was left with what came behind it. -/
theorem blocks_append (stream more : List α) :
    blocks size (stream ++ more) = blocks size stream ++ blocks size (residue size stream ++ more) := by
  induction stream using block_induction positive with
  | short stream less => rw [blocks_short less, residue_short less, List.nil_append]
  | block stream enough ih =>
    have longer : size ≤ (stream ++ more).length := by
      rw [List.length_append]
      omega
    rw [blocks_step positive longer, List.take_append_of_le_length enough, List.drop_append_of_le_length enough, ih,
      blocks_step positive enough, residue_step positive enough, List.cons_append]

theorem residue_append (stream more : List α) :
    residue size (stream ++ more) = residue size (residue size stream ++ more) := by
  induction stream using block_induction positive with
  | short stream less => rw [residue_short less]
  | block stream enough ih =>
    have longer : size ≤ (stream ++ more).length := by
      rw [List.length_append]
      omega
    rw [residue_step positive longer, List.drop_append_of_le_length enough, ih, residue_step positive enough]

theorem blocks_one {block : List α} (exact_ : block.length = size) : blocks size block = [block] := by
  have nothing : block.drop size = [] := List.drop_eq_nil_of_le (Nat.le_of_eq exact_)
  rw [blocks_step positive (Nat.le_of_eq exact_.symm), nothing, List.take_of_length_le (Nat.le_of_eq exact_),
    blocks_short positive]

end Library
