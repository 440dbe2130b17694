import Slopline.Core.Endian
import Slopline.Library.SelfDelimiting

/-! Integers read through a span: `read_u16be(bytes.subspan(offset).first<2>())` and its kind.

The two steps ask for the same as one part of fixed extent at that offset.
-/

set_option autoImplicit false

namespace Slopline

open Library Endian

variable {ε : Type}

def u16beAt (offset : Nat) (bytes : Bytes) : Checked ε UInt16 := do
  return readU16be (← Span.slice offset 2 bytes)

def u32beAt (offset : Nat) (bytes : Bytes) : Checked ε UInt32 := do
  return readU32be (← Span.slice offset 4 bytes)

def u32leAt (offset : Nat) (bytes : Bytes) : Checked ε UInt32 := do
  return readU32le (← Span.slice offset 4 bytes)

theorem toNat_ofNat_u16 {size : Nat} (fits : size ≤ 65535) : (UInt16.ofNat size).toNat = size :=
  UInt16.toNat_ofNat_of_lt' (Nat.lt_succ_of_le fits)

theorem toNat_ofNat_u8 {size : Nat} (fits : size ≤ 255) : (UInt8.ofNat size).toNat = size :=
  UInt8.toNat_ofNat_of_lt' (Nat.lt_succ_of_le fits)

theorem length_take_drop {offset count : Nat} {bytes : Bytes} (inside : offset + count ≤ bytes.length) :
    ((bytes.drop offset).take count).length = count := by
  rw [List.length_take, List.length_drop]
  omega

theorem take_drop_append (offset count : Nat) (bytes : Bytes) :
    bytes.drop offset = (bytes.drop offset).take count ++ bytes.drop (offset + count) := by
  rw [← List.drop_drop, List.take_append_drop]

section
variable {offset : Nat} {bytes before after : Bytes}

theorem split_u16be (inside : offset + 2 ≤ bytes.length) :
    bytes.drop offset = writeU16be (readU16be ((bytes.drop offset).take 2)) ++ bytes.drop (offset + 2) := by
  have size : ((bytes.drop offset).take 2).length = 2 := length_take_drop inside
  rw [writeU16be_readU16be size, ← List.drop_drop, List.take_append_drop]

theorem split_u32be (inside : offset + 4 ≤ bytes.length) :
    bytes.drop offset = writeU32be (readU32be ((bytes.drop offset).take 4)) ++ bytes.drop (offset + 4) := by
  have size : ((bytes.drop offset).take 4).length = 4 := length_take_drop inside
  rw [writeU32be_readU32be size, ← List.drop_drop, List.take_append_drop]

theorem split_u32le (inside : offset + 4 ≤ bytes.length) :
    bytes.drop offset = writeU32le (readU32le ((bytes.drop offset).take 4)) ++ bytes.drop (offset + 4) := by
  have size : ((bytes.drop offset).take 4).length = 4 := length_take_drop inside
  rw [writeU32le_readU32le size, ← List.drop_drop, List.take_append_drop]

-- An integer is read where the span goes on with what it is written as.
@[simp] theorem post_u16beAt (post : UInt16 → Prop) :
    (u16beAt offset bytes : Checked ε UInt16).Post post ↔ offset + 2 ≤ bytes.length ∧
      ∀ value, bytes.drop offset = writeU16be value ++ bytes.drop (offset + 2) → post value := by
  simp only [u16beAt, Checked.post_bind, Span.post_slice, Checked.pure_eq, Checked.post_value]
  refine and_congr_right fun inside => ⟨fun holds value same => ?_, fun all => all _ (split_u16be inside)⟩
  rw [same, List.take_append_of_le_length (by simp), List.take_of_length_le (by simp)] at holds
  simpa using (readU16be_writeU16be value []) ▸ holds

@[simp] theorem post_u32beAt (post : UInt32 → Prop) :
    (u32beAt offset bytes : Checked ε UInt32).Post post ↔ offset + 4 ≤ bytes.length ∧
      ∀ value, bytes.drop offset = writeU32be value ++ bytes.drop (offset + 4) → post value := by
  simp only [u32beAt, Checked.post_bind, Span.post_slice, Checked.pure_eq, Checked.post_value]
  refine and_congr_right fun inside => ⟨fun holds value same => ?_, fun all => all _ (split_u32be inside)⟩
  rw [same, List.take_append_of_le_length (by simp), List.take_of_length_le (by simp)] at holds
  simpa using (readU32be_writeU32be value []) ▸ holds

@[simp] theorem post_u32leAt (post : UInt32 → Prop) :
    (u32leAt offset bytes : Checked ε UInt32).Post post ↔
      offset + 4 ≤ bytes.length ∧ post (readU32le ((bytes.drop offset).take 4)) := by
  simp [u32leAt]

@[simp] theorem u16beAt_skip (inside : before.length ≤ offset) :
    (u16beAt offset (before ++ after) : Checked ε UInt16) = u16beAt (offset - before.length) after := by
  simp only [u16beAt, Span.slice_skip inside]

@[simp] theorem u32beAt_skip (inside : before.length ≤ offset) :
    (u32beAt offset (before ++ after) : Checked ε UInt32) = u32beAt (offset - before.length) after := by
  simp only [u32beAt, Span.slice_skip inside]

@[simp] theorem u32leAt_skip (inside : before.length ≤ offset) :
    (u32leAt offset (before ++ after) : Checked ε UInt32) = u32leAt (offset - before.length) after := by
  simp only [u32leAt, Span.slice_skip inside]

@[simp] theorem u16beAt_write (value : UInt16) :
    (u16beAt 0 (writeU16be value ++ after) : Checked ε UInt16) = .value value := by
  have read := readU16be_writeU16be value []
  rw [List.append_nil] at read
  simp only [u16beAt, Span.slice_append (length_writeU16be value), Checked.value_bind, read,
    Checked.pure_eq]

@[simp] theorem u32beAt_write (value : UInt32) :
    (u32beAt 0 (writeU32be value ++ after) : Checked ε UInt32) = .value value := by
  have read := readU32be_writeU32be value []
  rw [List.append_nil] at read
  simp only [u32beAt, Span.slice_append (length_writeU32be value), Checked.value_bind, read,
    Checked.pure_eq]

@[simp] theorem u32leAt_write (value : UInt32) :
    (u32leAt 0 (writeU32le value ++ after) : Checked ε UInt32) = .value value := by
  have read := readU32le_writeU32le value []
  rw [List.append_nil] at read
  simp only [u32leAt, Span.slice_append (length_writeU32le value), Checked.value_bind, read,
    Checked.pure_eq]

end

section
variable {short : ε} {cut whole : Bytes} (shorter : Shorter cut whole) (offset : Nat)
include shorter

theorem Cut.u16beAt : Cut short (Both Eq) (u16beAt offset cut) (u16beAt offset whole) :=
  Cut.bind (Cut.slice shorter offset 2) fun _ _ same => .value ⟨_, rfl, congrArg readU16be same⟩

theorem Cut.u32beAt : Cut short (Both Eq) (u32beAt offset cut) (u32beAt offset whole) :=
  Cut.bind (Cut.slice shorter offset 4) fun _ _ same => .value ⟨_, rfl, congrArg readU32be same⟩

end

end Slopline
