import Slopline.Core.Span

/-! The memory manager below the legacy code (`audit/UMemory.h.utf8`), and the rounding of what it is asked for.

There are only declarations of the manager, so that it is a parameter. A block or a handle is the
list of what it holds. What new memory holds is not known, and may differ from call to call; a call
that asks for something beyond the end of a block or a handle is a fault. There is always enough
memory.
-/

set_option autoImplicit false

namespace Slopline.Legacy

open Library

def roundUp8 (value : UInt32) : UInt32 := (value + 7) / 8 * 8

def roundUp4 (value : UInt32) : UInt32 := (value + 3) / 4 * 4

theorem toNat_roundUp8 {value : UInt32} (small : value.toNat + 7 < 2 ^ 32) :
    (roundUp8 value).toNat = (value.toNat + 7) / 8 * 8 := by
  have sum : (value + 7).toNat = value.toNat + 7 := by
    rw [UInt32.toNat_add]
    exact Nat.mod_eq_of_lt small
  rw [roundUp8, UInt32.toNat_mul, UInt32.toNat_div, sum]
  exact Nat.mod_eq_of_lt (by simp only [UInt32.reduceToNat]; omega)

theorem toNat_roundUp4 {value : UInt32} (small : value.toNat + 3 < 2 ^ 32) :
    (roundUp4 value).toNat = (value.toNat + 3) / 4 * 4 := by
  have sum : (value + 3).toNat = value.toNat + 3 := by
    rw [UInt32.toNat_add]
    exact Nat.mod_eq_of_lt small
  rw [roundUp4, UInt32.toNat_mul, UInt32.toNat_div, sum]
  exact Nat.mod_eq_of_lt (by simp only [UInt32.reduceToNat]; omega)

namespace UMemory

variable {ε α : Type}

/-- `New` and `Reallocate` of a block, in entries. -/
structure Blocks (α : Type) where
  new : Nat → List α
  reallocate : Nat → List α → List α
  length_new : ∀ count, (new count).length = count
  length_reallocate : ∀ count block, (reallocate count block).length = count
  reallocate_keeps : ∀ count block, block.take count <+: reallocate count block

/-- The calls that make, resize and edit a handle. `Reallocate` does not keep what is there. -/
structure Handles (ε : Type) where
  newHandle : UInt32 → Bytes
  setSize : UInt32 → Bytes → Bytes
  reallocate : UInt32 → Bytes → Bytes
  replace : Nat → Nat → Bytes → Bytes → Checked ε Bytes
  length_newHandle : ∀ size, (newHandle size).length = size.toNat
  length_setSize : ∀ size h, (setSize size h).length = size.toNat
  setSize_keeps : ∀ size h, h.take size.toNat <+: setSize size h
  length_reallocate : ∀ size h, (reallocate size h).length = size.toNat
  replace_inside : ∀ offset existing data h, offset + existing ≤ h.length →
    h.length - existing + data.length < 2 ^ 32 →
    replace offset existing data h = .value (h.take offset ++ (data ++ h.drop (offset + existing)))
  replace_size : ∀ offset existing data h result, replace offset existing data h = .value result →
    result.length < 2 ^ 32

theorem Blocks.reallocate_append (blocks : Blocks α) {count : Nat} {kept : List α} (rest : List α)
    (fits : kept.length ≤ count) :
    ∃ rest', blocks.reallocate count (kept ++ rest) = kept ++ rest' ∧ rest'.length = count - kept.length := by
  obtain ⟨more, split⟩ := blocks.reallocate_keeps count (kept ++ rest)
  rw [List.take_append, List.take_of_length_le fits, List.append_assoc] at split
  have length := blocks.length_reallocate count (kept ++ rest)
  rw [← split, List.length_append] at length
  exact ⟨rest.take (count - kept.length) ++ more, split.symm, by omega⟩

namespace Handles

variable (handles : Handles ε)

def insert (offset : Nat) (data h : Bytes) : Checked ε Bytes := handles.replace offset 0 data h

def remove (offset size : Nat) (h : Bytes) : Checked ε Bytes := handles.replace offset size [] h

def append (h data : Bytes) : Checked ε Bytes := handles.replace h.length 0 data h

theorem replace_at {left right : Bytes} (old data : Bytes) {offset existing : Nat} (place : offset = left.length)
    (size : existing = old.length) (fits : (left ++ (data ++ right)).length < 2 ^ 32) :
    handles.replace offset existing data (left ++ (old ++ right)) = .value (left ++ (data ++ right)) := by
  subst place size
  simp only [List.length_append] at fits
  rw [handles.replace_inside _ _ _ _ (by simp only [List.length_append]; omega)
    (by simp only [List.length_append]; omega), List.take_left, ← List.drop_drop, List.drop_left, List.drop_left]

theorem append_fits {h data : Bytes} (fits : h.length + data.length < 2 ^ 32) :
    handles.append h data = .value (h ++ data) := by
  rw [append, handles.replace_inside _ _ _ _ (Nat.le_refl _) fits, List.take_length, Nat.add_zero, List.drop_length,
    List.append_nil]

theorem setSize_grown {h : Bytes} {more : Nat} (fits : h.length + more < 2 ^ 32) :
    ∃ room, handles.setSize (UInt32.ofNat (h.length + more)) h = h ++ room ∧ room.length = more := by
  have size : (UInt32.ofNat (h.length + more)).toNat = h.length + more := UInt32.toNat_ofNat_of_lt' fits
  obtain ⟨room, split⟩ := handles.setSize_keeps (UInt32.ofNat (h.length + more)) h
  have length := handles.length_setSize (UInt32.ofNat (h.length + more)) h
  rw [size, List.take_of_length_le (Nat.le_add_right _ _)] at split
  rw [← split, List.length_append, size] at length
  exact ⟨room, split.symm, Nat.add_left_cancel length⟩

end Handles

def getSize (h : Bytes) : Nat := h.length % 2 ^ 32

def newHandleClear (size : UInt32) : Bytes := List.replicate size.toNat 0

/-! Accesses to what a block or a handle holds, through a pointer or by `Read`, `Write` and `Copy`. -/

def read (offset size : Nat) (h : Bytes) : Checked ε Bytes := Span.slice offset size h

def write (offset : Nat) (data h : Bytes) : Checked ε Bytes :=
  if offset + data.length ≤ h.length then
    .value (h.take offset ++ (data ++ h.drop (offset + data.length)))
  else .fault

/-- `UMemory::Copy` inside a block, whose parts may overlap. -/
def move (dest source count : Nat) (block : List α) : Checked ε (List α) :=
  if source + count ≤ block.length ∧ dest + count ≤ block.length then
    .value (block.take dest ++ ((block.drop source).take count ++ block.drop (dest + count)))
  else .fault

theorem read_at {left right : Bytes} (data : Bytes) {offset size : Nat} (place : offset = left.length)
    (enough : size ≤ data.length) :
    (read offset size (left ++ (data ++ right)) : Checked ε Bytes) = .value (data.take size) := by
  subst place
  rw [read, Span.slice, if_pos (by simp only [List.length_append]; omega), List.drop_left,
    List.take_append_of_le_length enough]

theorem write_at {left right : Bytes} (old data : Bytes) {offset : Nat} (place : offset = left.length)
    (size : data.length = old.length) :
    (write offset data (left ++ (old ++ right)) : Checked ε Bytes) = .value (left ++ (data ++ right)) := by
  subst place
  rw [write, if_pos (by simp only [List.length_append]; omega), List.take_left, size, ← List.drop_drop,
    List.drop_left, List.drop_left]

theorem move_eq {block before part after : List α} {dest source count : Nat}
    (split : block = before ++ (part ++ after)) (place : before.length = source) (amount : part.length = count)
    (inside : dest + count ≤ block.length) :
    (move dest source count block : Checked ε (List α)) =
      .value (block.take dest ++ (part ++ block.drop (dest + count))) := by
  have reaches : source + count ≤ block.length := by
    rw [split, List.length_append, List.length_append]
    omega
  have taken : (block.drop source).take count = part := by
    rw [split, List.drop_left' place, List.take_left' amount]
  rw [move, if_pos ⟨reaches, inside⟩, taken]

/-! A manager that leaves the given entries in new memory. -/

/-- Entries up to a count, those from the end of the given ones on being `junk`. -/
def filledUp (junk : Nat → α) (count : Nat) (block : List α) : List α :=
  block.take count ++ (List.range (count - block.length)).map junk

theorem length_filledUp (junk : Nat → α) (count : Nat) (block : List α) :
    (filledUp junk count block).length = count := by
  rw [filledUp, List.length_append, List.length_take, List.length_map, List.length_range]
  omega

def Blocks.leaving (junk : Nat → α) : Blocks α where
  new count := filledUp junk count []
  reallocate := filledUp junk
  length_new count := length_filledUp junk count []
  length_reallocate := length_filledUp junk
  reallocate_keeps _ _ := List.prefix_append _ _

def Handles.leaving (junk : Nat → UInt8) : Handles ε where
  newHandle size := filledUp junk size.toNat []
  setSize size := filledUp junk size.toNat
  reallocate size _ := filledUp junk size.toNat []
  replace offset existing data h :=
    if offset + existing ≤ h.length ∧ h.length - existing + data.length < 2 ^ 32 then
      .value (h.take offset ++ (data ++ h.drop (offset + existing)))
    else .fault
  length_newHandle size := length_filledUp junk size.toNat []
  length_setSize size := length_filledUp junk size.toNat
  setSize_keeps _ _ := List.prefix_append _ _
  length_reallocate size _ := length_filledUp junk size.toNat []
  replace_inside _ _ _ _ inside fits := if_pos ⟨inside, fits⟩
  replace_size offset existing data h result replaced := by
    split at replaced
    next both =>
      cases replaced
      simp only [List.length_append, List.length_take, List.length_drop]
      omega
    next => cases replaced

end UMemory

end Slopline.Legacy
