import Slopline.Core.IvarLayout
import Slopline.Library.BinarySearch

/-! Flattened ID-var-arrays of the legacy library (`audit/UIDVarArray.cpp.utf8`).

A pointer into the flattened data is an offset here, and a read behind the data is a fault.
-/

set_option autoImplicit false

namespace Slopline.Legacy

open Library Endian

abbrev SIVAOffsetTabEntry := Ivar.Entry

structure SIDVarArray where
  itemCount : UInt32 := 0
  /-- The extra entry included. -/
  offsetTabAllocCount : UInt32 := 0
  offsetTab : List SIVAOffsetTabEntry := []
  dataHdl : Bytes := []
  lastSearchID : UInt32 := 0
  lastSearchIndex : UInt32 := 0
  deriving DecidableEq, Repr

/-- An item is where the table says; the size is a difference of `Uint32`s. -/
def SIDVarArray.item (ref : SIDVarArray) (i : Nat) : Ivar.Item :=
  let entry := ref.offsetTab.getD i {}
  let next := ref.offsetTab.getD (i + 1) {}
  { id := entry.id, data := (ref.dataHdl.drop entry.offset.toNat).take (next.offset - entry.offset).toNat }

def SIDVarArray.items (ref : SIDVarArray) : List Ivar.Item := (List.range ref.itemCount.toNat).map ref.item

namespace UIDVarArray

/-- `error_FormatUnknown` and `error_Corrupt`. -/
inductive Failure where
  | formatUnknown
  | corrupt
  deriving DecidableEq, Repr

def formatTag : UInt32 := fourCc 'I' 'V' 'A' '1'
def tabEntrySize : UInt32 := 8
def headerSize : UInt32 := 16
def minDataSize : UInt32 := headerSize + tabEntrySize

/-- The `while (cd--)` loop of `Unflatten`, and behind it the extra entry. -/
def extractEntries (inData : Bytes) (arrayDataSize prevOffset : UInt32) :
    Nat → Nat → UInt32 → Checked Failure (List SIVAOffsetTabEntry)
  | 0, lp, _ => do
    let offset ← u32beAt (lp + 4) inData
    if offset < prevOffset ∨ arrayDataSize < offset then .error .corrupt else
    return [{ id := 0, offset }]
  | cd + 1, lp, prevID => do
    let id ← u32beAt lp inData
    if id ≤ prevID then .error .corrupt else
    let offset ← u32beAt (lp + 4) inData
    if offset < prevOffset ∨ arrayDataSize < offset then .error .corrupt else
    -- the ID read becomes the previous one, the offset does not
    let entries ← extractEntries inData arrayDataSize prevOffset cd (lp + 8) id
    return { id, offset } :: entries

def unflatten (inData : Bytes) (inDataSize : UInt32) : Checked Failure SIDVarArray := do
  if inDataSize < minDataSize then .error .corrupt else
  let format ← u32beAt 0 inData
  if format ≠ formatTag then .error .formatUnknown else
  let itemCount ← u32beAt 12 inData
  if itemCount &&& 0xFF000000 ≠ 0 then .error .corrupt else
  let offsetTabSize := (itemCount + 1) * tabEntrySize
  let arrayDataOffset := headerSize + offsetTabSize
  if inDataSize < arrayDataOffset then .error .corrupt else
  let arrayDataSize := inDataSize - arrayDataOffset
  let dataHdl ← Span.slice arrayDataOffset.toNat arrayDataSize.toNat inData
  let offsetTab ← extractEntries inData arrayDataSize 0 itemCount.toNat headerSize.toNat 0
  return { itemCount, offsetTabAllocCount := itemCount + 1, offsetTab, dataHdl }

/-! The binary search of the static `GetItem`. -/

def offsetTabId (inData : Bytes) (i : UInt32) : Checked Failure UInt32 :=
  u32beAt (headerSize.toNat + i.toNat * tabEntrySize.toNat) inData

def offsetTabOffset (inData : Bytes) (i : UInt32) : Checked Failure UInt32 :=
  u32beAt (headerSize.toNat + i.toNat * tabEntrySize.toNat + 4) inData

/-- The indices `l` to `r` are still open; the first entry was looked at before. -/
structure Cursor where
  l : UInt32
  r : UInt32
  placed : 0 < l.toNat
  bounded : r.toNat < 2 ^ 24

theorem succ_toNat {i : UInt32} (bounded : i.toNat < 2 ^ 24) : (i + 1).toNat = i.toNat + 1 := by
  rw [UInt32.toNat_add, UInt32.toNat_one, Nat.mod_eq_of_lt (by omega)]

theorem pred_toNat {i : UInt32} (placed : 0 < i.toNat) : (i - 1).toNat = i.toNat - 1 :=
  UInt32.toNat_sub_of_le _ _ (UInt32.le_iff_toNat_le.mpr placed)

namespace Cursor

def i (s : Cursor) : UInt32 := (s.l + s.r) >>> 1

variable {s : Cursor} (opened : s.l ≤ s.r)
include opened

theorem i_toNat : s.i.toNat = (s.l.toNat + s.r.toNat) / 2 := by
  have bounded := s.bounded
  rw [UInt32.le_iff_toNat_le] at opened
  rw [i, UInt32.toNat_shiftRight, UInt32.toNat_add, Nat.mod_eq_of_lt (by omega)]
  rfl

theorem i_inside : s.l.toNat ≤ s.i.toNat ∧ s.i.toNat ≤ s.r.toNat := by
  have middle := i_toNat opened
  rw [UInt32.le_iff_toNat_le] at opened
  omega

theorem i_placed : 0 < s.i.toNat := Nat.lt_of_lt_of_le s.placed (i_inside opened).1

theorem i_bounded : s.i.toNat < 2 ^ 24 := Nat.lt_of_le_of_lt (i_inside opened).2 s.bounded

theorem pred_bounded : (s.i - 1).toNat < 2 ^ 24 := by
  rw [pred_toNat (i_placed opened)]
  exact Nat.lt_of_le_of_lt (Nat.sub_le _ _) (i_bounded opened)

theorem succ_placed : 0 < (s.i + 1).toNat := by
  rw [succ_toNat (i_bounded opened)]
  exact Nat.succ_pos _

end Cursor

def round (inData : Bytes) (inID : UInt32) (s : Cursor) : Loop Cursor (Checked Failure (Option UInt32)) :=
  if opened : s.l ≤ s.r then
    match offsetTabId inData s.i with
    | .value id =>
      if inID = id then .done (.value (some s.i))
      else if inID < id then .again { s with r := s.i - 1, bounded := Cursor.pred_bounded opened }
      else .again { s with l := s.i + 1, placed := Cursor.succ_placed opened }
    | .error reason => .done (.error reason)
    | .fault => .done .fault
  else .done (.value none)

theorem round_drops (inData : Bytes) (inID : UInt32) (s next : Cursor) (again : round inData inID s = .again next) :
    next.r.toNat + 1 - next.l.toNat < s.r.toNat + 1 - s.l.toNat := by
  unfold round at again
  split at again
  · rename_i opened
    have inside := Cursor.i_inside opened
    split at again
    · split at again
      · cases again
      · split at again
        · cases again
          have less := pred_toNat (Cursor.i_placed opened)
          have placed := s.placed
          dsimp only
          omega
        · cases again
          have more := succ_toNat (Cursor.i_bounded opened)
          dsimp only
          omega
    · cases again
    · cases again
  · cases again

def narrow (inData : Bytes) (inID : UInt32) (s : Cursor) : Checked Failure (Option UInt32) :=
  Loop.run (fun s : Cursor => s.r.toNat + 1 - s.l.toNat) (round_drops inData inID) s

theorem last_bounded {itemCount : UInt32} (given : itemCount ≠ 0) (possible : itemCount &&& 0xFF000000 = 0) :
    (itemCount - 1).toNat < 2 ^ 24 := by
  have some : itemCount.toNat ≠ 0 := fun none => given (UInt32.toNat_inj.mp none)
  rw [pred_toNat (Nat.pos_of_ne_zero some)]
  exact Nat.lt_of_le_of_lt (Nat.sub_le _ _) (Ivar.lt_of_possible possible)

def search (inData : Bytes) (inID itemCount : UInt32) (given : itemCount ≠ 0)
    (possible : itemCount &&& 0xFF000000 = 0) : Checked Failure (Option UInt32) := do
  let id ← offsetTabId inData 0
  if inID = id then return some 0 else
  if inID < id then return none else
  narrow inData inID {
    l := 1
    r := itemCount - 1
    placed := Nat.one_pos
    bounded := last_bounded given possible }

/-- The part of `GetItem` behind its label: the bytes copied to the caller's buffer, of which the
source returns how many. -/
def found (inData : Bytes) (arrayDataOffset arrayDataSize inMaxSize i : UInt32) : Checked Failure Bytes := do
  let offset ← offsetTabOffset inData i
  let endOffset ← offsetTabOffset inData (i + 1)
  if endOffset ≤ offset ∨ arrayDataSize < endOffset then return [] else
  let size := endOffset - offset
  let inMaxSize := if size < inMaxSize then size else inMaxSize
  Span.slice (arrayDataOffset.toNat + offset.toNat) inMaxSize.toNat inData

def getItem (inData : Bytes) (inDataSize inID inMaxSize : UInt32) : Checked Failure Bytes := do
  if inID = 0 ∨ inDataSize < minDataSize then return [] else
  let format ← u32beAt 0 inData
  if format ≠ formatTag then return [] else
  let itemCount ← u32beAt 12 inData
  if given : itemCount = 0 then return [] else
  if possible : itemCount &&& 0xFF000000 = 0 then
    let arrayDataOffset := headerSize + (itemCount + 1) * tabEntrySize
    if inDataSize < arrayDataOffset then return [] else
    let arrayDataSize := inDataSize - arrayDataOffset
    match ← search inData inID itemCount given possible with
    | none => return []
    | some i => found inData arrayDataOffset arrayDataSize inMaxSize i
  else return []

end UIDVarArray

end Slopline.Legacy
