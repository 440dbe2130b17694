import Mathlib.Data.List.Induction
import Slopline.Legacy.IdVarEdit

/-! What the offset table and the data of an ID-var-array hold.

The entries of a table are settled by the items and the place their data begins at. The loops over
the table turn the table of some items into the table of others.
-/

set_option autoImplicit false

namespace Slopline.Legacy.SIDVarArray

open Library

def blob (items : List Ivar.Item) : Bytes := items.flatMap Ivar.Item.data

def entriesOf : Nat → List Ivar.Item → List SIVAOffsetTabEntry
  | _, [] => []
  | base, item :: items => { id := item.id, offset := UInt32.ofNat base } :: entriesOf (base + item.data.length) items

/-- The same with the extra entry. -/
def tableOf (base : Nat) (items : List Ivar.Item) : List SIVAOffsetTabEntry :=
  entriesOf base items ++ [{ id := 0, offset := UInt32.ofNat (base + (blob items).length) }]

@[simp] theorem blob_nil : blob [] = [] := rfl

@[simp] theorem blob_cons (item : Ivar.Item) (items : List Ivar.Item) :
    blob (item :: items) = item.data ++ blob items :=
  rfl

@[simp] theorem blob_append (items more : List Ivar.Item) : blob (items ++ more) = blob items ++ blob more :=
  List.flatMap_append

@[simp] theorem length_entriesOf (base : Nat) (items : List Ivar.Item) :
    (entriesOf base items).length = items.length := by
  induction items generalizing base with
  | nil => rfl
  | cons item items ih => simp [entriesOf, ih]

@[simp] theorem length_tableOf (base : Nat) (items : List Ivar.Item) :
    (tableOf base items).length = items.length + 1 := by
  simp [tableOf]

theorem tableOf_cons (base : Nat) (item : Ivar.Item) (items : List Ivar.Item) :
    tableOf base (item :: items) =
      { id := item.id, offset := UInt32.ofNat base } :: tableOf (base + item.data.length) items := by
  simp [tableOf, entriesOf, Nat.add_assoc]

theorem tableOf_append (base : Nat) (items more : List Ivar.Item) :
    tableOf base (items ++ more) = entriesOf base items ++ tableOf (base + (blob items).length) more := by
  induction items generalizing base with
  | nil => rfl
  | cons item items ih =>
    rw [List.cons_append, tableOf_cons, ih, entriesOf, List.cons_append, blob_cons, List.length_append, Nat.add_assoc]

def moved (move : UInt32 → UInt32) (entry : SIVAOffsetTabEntry) : SIVAOffsetTabEntry :=
  { entry with offset := move entry.offset }

theorem entriesOf_moved {move : UInt32 → UInt32} {base base' : Nat}
    (moves : ∀ more, move (UInt32.ofNat (base + more)) = UInt32.ofNat (base' + more)) (items : List Ivar.Item) :
    (entriesOf base items).map (moved move) = entriesOf base' items := by
  induction items generalizing base base' with
  | nil => rfl
  | cons item items ih =>
    have here : move (UInt32.ofNat base) = UInt32.ofNat base' := moves 0
    have behind (more : Nat) : move (UInt32.ofNat (base + item.data.length + more)) =
        UInt32.ofNat (base' + item.data.length + more) := by
      rw [Nat.add_assoc, Nat.add_assoc]
      exact moves _
    rw [entriesOf, List.map_cons, entriesOf, ih behind]
    simp only [moved, here]

theorem tableOf_moved {move : UInt32 → UInt32} {base base' : Nat}
    (moves : ∀ more, move (UInt32.ofNat (base + more)) = UInt32.ofNat (base' + more)) (items : List Ivar.Item) :
    (tableOf base items).map (moved move) = tableOf base' items := by
  rw [tableOf, List.map_append, entriesOf_moved moves, tableOf, List.map_singleton, moved, moves]

theorem add_moves (base size more : Nat) :
    UInt32.ofNat (base + more) + UInt32.ofNat size = UInt32.ofNat (base + size + more) := by
  rw [← UInt32.ofNat_add]
  congr 1
  omega

theorem sub_moves (base size more : Nat) :
    UInt32.ofNat (base + size + more) - UInt32.ofNat size = UInt32.ofNat (base + more) := by
  rw [← add_moves, UInt32.add_sub_cancel]

/-! The loops over the table, which is known piece by piece. -/

section

variable {ε : Type} {front rest : List SIVAOffsetTabEntry}

theorem element_at (entry : SIVAOffsetTabEntry) {i : Nat} (place : i = front.length) :
    (Span.element i (front ++ entry :: rest) : Checked ε SIVAOffsetTabEntry) = .value entry := by
  subst place
  simp [Span.element]

theorem store_at (entry new : SIVAOffsetTabEntry) {i : Nat} (place : i = front.length) :
    (Span.store i new (front ++ entry :: rest) : Checked ε (List SIVAOffsetTabEntry)) =
      .value (front ++ new :: rest) := by
  subst place
  simp [Span.store]

variable (front rest)

theorem moveOffsets_eq (move : UInt32 → UInt32) (block : List SIVAOffsetTabEntry) {i : Nat}
    (place : i = front.length) :
    moveOffsets move block.length i (front ++ (block ++ rest)) =
      .value (front ++ (block.map (moved move) ++ rest)) := by
  induction block generalizing front i with
  | nil => rfl
  | cons entry block ih =>
    rw [List.length_cons, moveOffsets, List.cons_append, element_at entry place, Checked.value_bind,
      store_at entry _ place, Checked.value_bind]
    have further := ih (front ++ [moved move entry]) (i := i + 1) (by simp [place])
    simp only [List.append_assoc, List.cons_append, List.nil_append] at further
    exact further

/-- Each entry of a block, from the last one down, goes one place up. -/
theorem openGap_eq (size : UInt32) (block : List SIVAOffsetTabEntry) (slot : SIVAOffsetTabEntry) :
    openGap size block.length (front.length + block.length) (front ++ (block ++ slot :: rest)) =
      .value (front ++ (block.headD slot :: (block.map (moved (· + size)) ++ rest))) := by
  induction block using List.reverseRecOn generalizing rest slot with
  | nil => rfl
  | append_singleton block last ih =>
    have tab : front ++ (block ++ [last] ++ slot :: rest) = front ++ block ++ last :: slot :: rest := by simp
    have beyond : front ++ block ++ last :: slot :: rest = front ++ block ++ [last] ++ slot :: rest := by simp
    rw [List.length_append, List.length_singleton, ← Nat.add_assoc, openGap, tab,
      element_at last (List.length_append ..).symm, Checked.value_bind, beyond,
      store_at slot _ (by simp [Nat.add_assoc]), Checked.value_bind]
    have further := ih (moved (· + size) last :: rest) last
    have same : front ++ block ++ [last] ++ moved (· + size) last :: rest =
        front ++ (block ++ last :: moved (· + size) last :: rest) := by simp
    rw [show ({ last with offset := last.offset + size } : SIVAOffsetTabEntry) = moved (· + size) last from rfl, same,
      further]
    cases block <;> simp

theorem closeGap_eq (size : UInt32) (slot : SIVAOffsetTabEntry) (block : List SIVAOffsetTabEntry) {i : Nat}
    (place : i = front.length) :
    ∃ left, closeGap size block.length i (front ++ slot :: (block ++ rest)) =
      .value (front ++ (block.map (moved (· - size)) ++ left :: rest)) := by
  induction block generalizing front slot i with
  | nil => exact ⟨slot, rfl⟩
  | cons entry block ih =>
    have beyond : front ++ slot :: (entry :: block ++ rest) = front ++ [slot] ++ entry :: (block ++ rest) := by simp
    obtain ⟨left, further⟩ := ih (front ++ [moved (· - size) entry]) entry (i := i + 1) (by simp [place])
    refine ⟨left, ?_⟩
    rw [List.length_cons, closeGap, beyond, element_at entry (by simp [place]), Checked.value_bind, ← beyond,
      store_at slot _ place, Checked.value_bind]
    simp only [List.append_assoc, List.cons_append, List.nil_append] at further
    exact further

end

end Slopline.Legacy.SIDVarArray
