import Slopline.Legacy.IdVarArray
import Slopline.Legacy.UMemory

/-! The operations of the legacy ID-var-array (`audit/UIDVarArray.cpp.utf8`).

A pointer into the offset table is an index here, and an access behind the table or the data is
a fault. A handle that was never made is an empty one, a table that was never made has no entries.
-/

set_option autoImplicit false

namespace Slopline.Legacy

open Library

namespace SIDVarArray

/-- `errorType_Requirement`, `error_ItemAlreadyExists` and `error_NoSuchItem`. -/
inductive Failure where
  | requirement
  | itemAlreadyExists
  | noSuchItem
  deriving DecidableEq, Repr

/-- The memory manager during a call. -/
structure Memory where
  table : UMemory.Blocks SIVAOffsetTabEntry
  data : UMemory.Handles Empty

/-- An operation that fails leaves a reference behind all the same. -/
abbrev Reply (α : Type) := Except Failure α × SIDVarArray

def new : SIDVarArray := {}

/-! `_IVASearchItemList`. -/

def probe (lookupTab : List SIVAOffsetTabEntry) (inID : UInt32) (s : BinarySearch.Window UInt32) :
    Loop (BinarySearch.Window UInt32) (Checked Empty (Bool × Nat)) :=
  if s.l ≤ s.r then
    let i := (s.l + s.r) / 2
    match lookupTab[i]? with
    | some entry =>
      if inID = entry.id then .done (.value (true, i))
      else if inID < entry.id then .again { s with r := i - 1, i, id := entry.id }
      else .again { s with l := i + 1, i, id := entry.id, placed := Nat.succ_pos i }
    | none => .done .fault
  else .done (.value (false, if s.id < inID then s.i + 1 else s.i))

theorem probe_drops (lookupTab : List SIVAOffsetTabEntry) (inID : UInt32) (s next : BinarySearch.Window UInt32)
    (again : probe lookupTab inID s = .again next) : next.r + 1 - next.l < s.r + 1 - s.l := by
  have placed := s.placed
  unfold probe at again
  split at again
  · simp only at again
    split at again
    · split at again
      · cases again
      · split at again
        · cases again
          dsimp only
          omega
        · cases again
          dsimp only
          omega
    · cases again
  · cases again

def probes (lookupTab : List SIVAOffsetTabEntry) (inID : UInt32) (s : BinarySearch.Window UInt32) :
    Checked Empty (Bool × Nat) :=
  Loop.run (fun s : BinarySearch.Window UInt32 => s.r + 1 - s.l) (probe_drops lookupTab inID) s

def lookupItem (inID : UInt32) (ref : SIDVarArray) : Checked Empty (Bool × Nat) := do
  let r := ref.itemCount.toNat
  let first ← Span.element 0 ref.offsetTab
  if inID = first.id then return (true, 0)
  else if inID < first.id then return (false, 0)
  else if r - 1 < 1 then return (false, 1)
  else probes ref.offsetTab inID { l := 1, r := r - 1, i := 0, id := first.id, placed := Nat.one_pos }

/-- Whether there is such an item, and its index or the one it would have. -/
def searchItemList (inID : UInt32) (ref : SIDVarArray) : Checked Empty ((Bool × Nat) × SIDVarArray) :=
  if inID = 0 ∨ ref.itemCount = 0 then .value ((false, 0), ref)
  else if inID = ref.lastSearchID then .value ((true, ref.lastSearchIndex.toNat), ref)
  else do
    let answer ← ref.lookupItem inID
    if answer.1 then
      return (answer, { ref with lastSearchID := inID, lastSearchIndex := UInt32.ofNat answer.2 })
    else return (answer, ref)

/-! The operations. -/

def extent (i : Nat) (ref : SIDVarArray) : Checked Empty (Nat × UInt32) := do
  let entry ← Span.element i ref.offsetTab
  let next ← Span.element (i + 1) ref.offsetTab
  return (entry.offset.toNat, next.offset - entry.offset)

/-- The second loop of `SetItem`, from entry `i` on. -/
def moveOffsets (move : UInt32 → UInt32) : Nat → Nat → List SIVAOffsetTabEntry →
    Checked Empty (List SIVAOffsetTabEntry)
  | 0, _, offsetTab => .value offsetTab
  | cd + 1, i, offsetTab => do
    let entry ← Span.element i offsetTab
    let offsetTab ← Span.store i { entry with offset := move entry.offset } offsetTab
    moveOffsets move cd (i + 1) offsetTab

def setItem (memory : Memory) (inID : UInt32) (inData : Bytes) (ref : SIDVarArray) : Checked Empty (Reply Unit) := do
  let (answer, ref) ← ref.searchItemList inID
  if answer.1 then
    let i := answer.2
    let (offset, oldSize) ← ref.extent i
    let dataHdl ← memory.data.replace offset oldSize.toNat inData ref.dataHdl
    let inDataSize := UInt32.ofNat inData.length
    let cd := ref.itemCount.toNat + 1 - (i + 1)
    let offsetTab ←
      if inDataSize = oldSize then pure ref.offsetTab
      else if oldSize < inDataSize then moveOffsets (· + (inDataSize - oldSize)) cd (i + 1) ref.offsetTab
      else moveOffsets (· - (oldSize - inDataSize)) cd (i + 1) ref.offsetTab
    return (.ok (), { ref with dataHdl, offsetTab })
  else return (.error .noSuchItem, ref)

/-- How many entries are in memory for so many of them, the size of which is a `Uint32`. -/
def entryCount (nac : UInt32) : Nat := (nac * UIDVarArray.tabEntrySize).toNat / UIDVarArray.tabEntrySize.toNat

def makeRoom (memory : Memory) (ref : SIDVarArray) : SIDVarArray :=
  if ref.offsetTab.isEmpty then
    { ref with offsetTab := (memory.table.new 8).set 0 { id := 0, offset := 0 }, offsetTabAllocCount := 8 }
  else if ref.offsetTabAllocCount < ref.itemCount + 2 then
    let nac := roundUp8 (ref.offsetTabAllocCount + 4)
    { ref with offsetTab := memory.table.reallocate (entryCount nac) ref.offsetTab, offsetTabAllocCount := nac }
  else ref

/-- The loop of `AddItem`, down from an entry, each of them filled from the one before it. -/
def openGap (inDataSize : UInt32) : Nat → Nat → List SIVAOffsetTabEntry → Checked Empty (List SIVAOffsetTabEntry)
  | 0, _, offsetTab => .value offsetTab
  | _ + 1, 0, _ => .fault
  | cd + 1, entry + 1, offsetTab => do
    let before ← Span.element entry offsetTab
    let offsetTab ← Span.store (entry + 1) { before with offset := before.offset + inDataSize } offsetTab
    openGap inDataSize cd entry offsetTab

/-- The part of `AddItem` behind the search. -/
def insertItem (memory : Memory) (inID : UInt32) (inData : Bytes) (i : Nat) (ref : SIDVarArray) :
    Checked Empty SIDVarArray := do
  let ref := ref.makeRoom memory
  let entry ← Span.element i ref.offsetTab
  let dataHdl ← memory.data.insert entry.offset.toNat inData ref.dataHdl
  let itemCount := ref.itemCount + 1
  let offsetTab ←
    openGap (UInt32.ofNat inData.length) (itemCount.toNat - i) itemCount.toNat ref.offsetTab
  let entry ← Span.element i offsetTab
  let offsetTab ← Span.store i { entry with id := inID } offsetTab
  let lastSearchIndex :=
    if ref.lastSearchID ≠ 0 ∧ i ≤ ref.lastSearchIndex.toNat then ref.lastSearchIndex + 1 else ref.lastSearchIndex
  return { ref with itemCount, offsetTab, dataHdl, lastSearchIndex }

def addItem (memory : Memory) (inID : UInt32) (inData : Bytes) (replaceIfExists : Bool)
    (ref : SIDVarArray) : Checked Empty (Reply Unit) := do
  if inID = 0 then return (.error .requirement, ref) else
  let (answer, ref) ← ref.searchItemList inID
  if answer.1 then
    if replaceIfExists then ref.setItem memory inID inData else return (.error .itemAlreadyExists, ref)
  else
    let ref ← ref.insertItem memory inID inData answer.2
    return (.ok (), ref)

/-- The loop of `RemoveItem`, up from an entry, each of them filled from the one behind it. -/
def closeGap (size : UInt32) : Nat → Nat → List SIVAOffsetTabEntry → Checked Empty (List SIVAOffsetTabEntry)
  | 0, _, offsetTab => .value offsetTab
  | cd + 1, entry, offsetTab => do
    let behind ← Span.element (entry + 1) offsetTab
    let offsetTab ← Span.store entry { behind with offset := behind.offset - size } offsetTab
    closeGap size cd (entry + 1) offsetTab

def giveRoom (memory : Memory) (ref : SIDVarArray) : SIDVarArray :=
  if 32 < ref.offsetTabAllocCount - ref.itemCount then
    let nac := roundUp4 (ref.itemCount + 4)
    { ref with offsetTab := memory.table.reallocate (entryCount nac) ref.offsetTab, offsetTabAllocCount := nac }
  else ref

def forget (i : Nat) (ref : SIDVarArray) : SIDVarArray :=
  if ref.lastSearchID = 0 then ref
  else if ref.lastSearchIndex.toNat = i then { ref with lastSearchID := 0 }
  else if i < ref.lastSearchIndex.toNat then { ref with lastSearchIndex := ref.lastSearchIndex - 1 }
  else ref

def removeItem (memory : Memory) (inID : UInt32) (ref : SIDVarArray) : Checked Empty (Reply Unit) := do
  let (answer, ref) ← ref.searchItemList inID
  if answer.1 then
    let i := answer.2
    let (offset, size) ← ref.extent i
    let dataHdl ← memory.data.remove offset size.toNat ref.dataHdl
    let offsetTab ← closeGap size (ref.itemCount.toNat - i) i ref.offsetTab
    let ref := forget i { ref with dataHdl, offsetTab, itemCount := ref.itemCount - 1 }
    return (.ok (), ref.giveRoom memory)
  else return (.ok (), ref)

def getItemCount (ref : SIDVarArray) : UInt32 := ref.itemCount

def itemExists (inID : UInt32) (ref : SIDVarArray) : Checked Empty (Reply Bool) := do
  let (answer, ref) ← ref.searchItemList inID
  return (.ok answer.1, ref)

/-- The bytes copied to the caller's buffer, of which the source returns how many. -/
def getItem (inID inMaxSize : UInt32) (ref : SIDVarArray) : Checked Empty (Reply Bytes) := do
  let (answer, ref) ← ref.searchItemList inID
  if answer.1 then
    let (offset, size) ← ref.extent answer.2
    let data ← UMemory.read offset (min inMaxSize.toNat size.toNat) ref.dataHdl
    return (.ok data, ref)
  else return (.ok [], ref)

def getItemSize (inID : UInt32) (ref : SIDVarArray) : Checked Empty (Reply UInt32) := do
  let (answer, ref) ← ref.searchItemList inID
  if answer.1 then
    let (_, size) ← ref.extent answer.2
    return (.ok size, ref)
  else return (.ok 0, ref)

def readItem (inID inOffset inMaxSize : UInt32) (ref : SIDVarArray) : Checked Empty (Reply Bytes) := do
  let (answer, ref) ← ref.searchItemList inID
  if answer.1 then
    let (offset, size) ← ref.extent answer.2
    if inOffset < size then
      -- The sum is one of `Uint32`s.
      let inMaxSize := if size < inOffset + inMaxSize then size - inOffset else inMaxSize
      let data ← UMemory.read (offset + inOffset.toNat) inMaxSize.toNat ref.dataHdl
      return (.ok data, ref)
    else return (.ok [], ref)
  else return (.ok [], ref)

def writeItem (inID inOffset : UInt32) (inData : Bytes) (ref : SIDVarArray) : Checked Empty (Reply UInt32) := do
  let (answer, ref) ← ref.searchItemList inID
  if answer.1 then
    let (offset, size) ← ref.extent answer.2
    if size ≤ inOffset then return (.ok 0, ref) else
    let inDataSize := UInt32.ofNat inData.length
    let inDataSize := if size < inOffset + inDataSize then size - inOffset else inDataSize
    let dataHdl ← UMemory.write (offset + inOffset.toNat) (inData.take inDataSize.toNat) ref.dataHdl
    return (.ok inDataSize, { ref with dataHdl })
  else return (.error .noSuchItem, ref)

/-- `GetItemPtr`: what is at the pointer it returns, as much as it says there is. -/
def getItemPtr (inID : UInt32) (ref : SIDVarArray) : Checked Empty (Reply Bytes) := do
  let (answer, ref) ← ref.searchItemList inID
  if answer.1 then
    let (offset, size) ← ref.extent answer.2
    let data ← UMemory.read offset size.toNat ref.dataHdl
    return (.ok data, ref)
  else return (.error .noSuchItem, ref)

open Endian in
def writeEntry (entry : SIVAOffsetTabEntry) : Bytes := writeU32be entry.id ++ writeU32be entry.offset

open Endian in
def flattened (itemCount : UInt32) (offsetTab : List SIVAOffsetTabEntry) (dataHdl : Bytes) : Bytes :=
  writeU32be UIDVarArray.formatTag ++ (writeU32be 0 ++ (writeU32be 0 ++ (writeU32be itemCount ++
    (offsetTab.flatMap writeEntry ++ dataHdl))))

def flattenToHandle (handles : UMemory.Handles Empty) (ref : SIDVarArray) : Checked Empty Bytes := do
  let offsetTabSize := (ref.itemCount + 1) * UIDVarArray.tabEntrySize
  let s := UIDVarArray.headerSize + offsetTabSize + UInt32.ofNat ref.dataHdl.length
  -- Without items there need not be a table.
  let offsetTab ←
    if ref.itemCount = 0 then pure [{ id := 0, offset := 0 }]
    else Span.first (ref.itemCount + 1).toNat ref.offsetTab
  UMemory.write 0 (flattened ref.itemCount offsetTab ref.dataHdl) (handles.newHandle s)

end SIDVarArray

end Slopline.Legacy
