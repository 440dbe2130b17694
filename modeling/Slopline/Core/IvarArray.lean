import Slopline.Core.Span

/-! The `IVA1` flattened ID-var-array decoder (`appwarrior/core/ivar_array.h`, `ivar_array.cpp`). -/

set_option autoImplicit false

namespace Slopline.Ivar

open Library Endian

def kFormatTag : UInt32 := fourCc 'I' 'V' 'A' '1'
def kMinSize : Nat := 24

inductive DecodeError where
  | truncated
  | wrongFormatTag
  | impossibleItemCount
  | offsetOutOfRange
  deriving DecidableEq, Repr

structure Item where
  id : UInt32 := 0
  data : Bytes := []
  deriving DecidableEq, Repr

structure Array where
  textEncoding : UInt32 := 0
  items : List Item := []
  deriving DecidableEq, Repr

/-- The difference of two sizes as the machine computes it: below zero it wraps. -/
def sizeDifference (stop start : Nat) : Nat := (stop + 2 ^ 64 - start) % 2 ^ 64

/-- The first pass, from entry `index` on: each offset is checked against the one before it. -/
def collectOffsets (table data : Bytes) : Nat → Nat → UInt32 → Checked DecodeError (List UInt32)
  | 0, _, _ => .value []
  | remaining + 1, index, previousOffset => do
    let entry ← Span.slice (index * 8) 8 table
    let offset ← u32beAt 4 entry
    if offset < previousOffset ∨ data.length < offset.toNat then .error .offsetOutOfRange else
    let offsets ← collectOffsets table data remaining (index + 1) offset
    return offset :: offsets

def sliceItems (table data : Bytes) (offsets : List UInt32) :
    Nat → Nat → Checked DecodeError (List Item)
  | 0, _ => .value []
  | remaining + 1, index => do
    let id ← u32beAt (index * 8) table
    let start ← Span.element index offsets
    let stop ← Span.element (index + 1) offsets
    -- Offsets that fell would make the difference wrap here.
    let itemBytes ← Span.slice start.toNat (sizeDifference stop.toNat start.toNat) data
    let items ← sliceItems table data offsets remaining (index + 1)
    return { id, data := itemBytes } :: items

def decode (bytes : Bytes) : Checked DecodeError Array := do
  if bytes.length < kMinSize then .error .truncated else
  let tag ← u32beAt 0 bytes
  if tag ≠ kFormatTag then .error .wrongFormatTag else
  let itemCount ← u32beAt 12 bytes
  if itemCount &&& 0xFF000000 ≠ 0 then .error .impossibleItemCount else
  let tableSize := (itemCount.toNat + 1) * 8
  let headerAndTable := 16 + tableSize
  if bytes.length < headerAndTable then .error .truncated else
  let table ← Span.slice 16 tableSize bytes
  let data ← Span.subspan headerAndTable bytes
  let offsets ← collectOffsets table data (itemCount.toNat + 1) 0 0
  let textEncoding ← u32beAt 8 bytes
  let items ← sliceItems table data offsets itemCount.toNat 0
  return { textEncoding, items }

def find (array : Array) (id : UInt32) : Option Item := array.items.find? fun item => item.id = id

def itemData (array : Array) (id : UInt32) : Bytes :=
  match find array id with
  | some item => item.data
  | none => []

inductive Climbs (limit : Nat) : Nat → List UInt32 → Prop where
  | nil (floor : Nat) : Climbs limit floor []
  | cons {floor : Nat} {offset : UInt32} {offsets : List UInt32} : floor ≤ offset.toNat →
      offset.toNat ≤ limit → Climbs limit offset.toNat offsets → Climbs limit floor (offset :: offsets)

theorem Climbs.step {limit floor index : Nat} {offsets : List UInt32} (climbs : Climbs limit floor offsets)
    (inside : index + 1 < offsets.length) :
    (offsets[index]).toNat ≤ (offsets[index + 1]).toNat ∧ (offsets[index + 1]).toNat ≤ limit := by
  induction climbs generalizing index with
  | nil floor => simp at inside
  | @cons floor offset offsets above below rest ih =>
    match index with
    | 0 =>
      cases rest with
      | nil => simp at inside
      | cons next within _ => exact ⟨next, within⟩
    | index + 1 => exact ih (by simpa using inside)

theorem sizeDifference_eq {stop start : Nat} (ordered : start ≤ stop) (small : stop < 2 ^ 64) :
    sizeDifference stop start = stop - start := by
  rw [sizeDifference, Nat.add_comm, Nat.add_sub_assoc ordered, Nat.add_mod_left]
  exact Nat.mod_eq_of_lt (by omega)

-- The first pass leaves one offset per round, and they climb within the data.
theorem collectOffsets_post (table data : Bytes) (remaining index : Nat) (previousOffset : UInt32)
    (covered : (index + remaining) * 8 ≤ table.length) :
    (collectOffsets table data remaining index previousOffset).Post fun offsets =>
      offsets.length = remaining ∧ Climbs data.length previousOffset.toNat offsets := by
  induction remaining generalizing index previousOffset with
  | zero => exact ⟨rfl, .nil _⟩
  | succ remaining ih =>
    simp only [collectOffsets, Checked.post_bind, Span.post_slice, post_u32beAt, Checked.post_ite,
      Checked.post_error, implies_true, true_and, Checked.pure_eq, Checked.post_value]
    refine ⟨by omega, ?_, fun offset _ inRange => ?_⟩
    · rw [List.length_take, List.length_drop]
      omega
    · rw [not_or, UInt32.not_lt, UInt32.le_iff_toNat_le, Nat.not_lt] at inRange
      refine (ih (index + 1) offset (by omega)).mono ?_
      rintro offsets ⟨length, climbs⟩
      exact ⟨by rw [List.length_cons, length], .cons inRange.1 inRange.2 climbs⟩

theorem sliceItems_inBounds (table data : Bytes) (offsets : List UInt32) (remaining index : Nat)
    (covered : (index + remaining) * 8 ≤ table.length) (count : index + remaining < offsets.length)
    (climbs : Climbs data.length 0 offsets) : (sliceItems table data offsets remaining index).InBounds := by
  induction remaining generalizing index with
  | zero => trivial
  | succ remaining ih =>
    simp only [Checked.InBounds, sliceItems, Checked.post_bind, Span.post_slice, post_u32beAt,
      Span.post_element, Checked.pure_eq, Checked.post_value]
    obtain ⟨ordered, within⟩ := climbs.step (by omega : index + 1 < offsets.length)
    have small : (offsets[index + 1]).toNat < 2 ^ 64 := Nat.lt_trans (UInt32.toNat_lt _) (by decide)
    refine ⟨by omega, fun _ _ => ⟨by omega, by omega, ?_, ih (index + 1) (by omega) (by omega)⟩⟩
    rw [sizeDifference_eq ordered small]
    omega

theorem decode_inBounds (bytes : Bytes) : (decode bytes).InBounds := by
  simp only [Checked.InBounds, decode, Checked.post_bind, Checked.post_ite, Checked.post_error,
    Span.post_slice, Span.post_subspan, post_u32beAt, Checked.pure_eq, Checked.post_value, implies_true,
    true_and]
  have size : kMinSize = 24 := rfl
  refine fun enough => ⟨by omega, fun _ _ _ => ⟨by omega, fun itemCount _ _ whole => ?_⟩⟩
  have table : ((bytes.drop 16).take ((itemCount.toNat + 1) * 8)).length = (itemCount.toNat + 1) * 8 :=
    length_take_drop (by omega)
  refine ⟨by omega, by omega, (collectOffsets_post _ _ _ 0 0 (by omega)).mono ?_⟩
  rintro offsets ⟨length, climbs⟩
  refine ⟨by omega, fun _ _ => sliceItems_inBounds _ _ _ _ 0 (by omega) (by omega) climbs⟩

end Slopline.Ivar
