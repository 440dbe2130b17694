import Slopline.Legacy.UMemory
import Slopline.Library.BinarySearch
import Slopline.Library.HeapSort
import Slopline.Protocol.FieldList

/-! Field data of a legacy peer (`audit/UFieldData.cpp.utf8`).

A handle is the bytes it holds; a null handle or table is `none`. Sizes are `Uint32` in the
source, so that the size of a handle is taken modulo 2^32. A read or a write outside a
handle or a table is a fault.
-/

set_option autoImplicit false

namespace Slopline.Legacy

open Library Endian Protocol

/-- `Fail` and `Require`. -/
inductive Failure where
  | required
  | limitReached
  deriving DecidableEq, Repr

structure SFDEntry where
  id : UInt16 := 0
  index : UInt16 := 0
  deriving DecidableEq, Repr, Inhabited

structure SFieldData where
  h : Option Bytes := none
  headerSize : Nat := 0
  offsetTable : Option (Array Nat) := none
  lookupTable : Option (Array SFDEntry) := none
  tableSize : Nat := 0
  lastSearchIndex : Nat := 0
  lastSearchID : UInt16 := 0
  deriving DecidableEq, Repr

namespace UFieldData

def new (inData : Option Bytes) (inHeaderSize : Nat) : SFieldData :=
  { h := inData, headerSize := inHeaderSize }

def dumpTables (ref : SFieldData) : SFieldData :=
  if ref.offsetTable.isSome then
    { ref with offsetTable := none, lookupTable := none, tableSize := 0, lastSearchID := 0 }
  else ref

section
variable (handles : UMemory.Handles Failure)

/-- The first field makes the handle; each further one makes room behind what is there. -/
def addField (ref : SFieldData) (inID : UInt16) (inData : Bytes) : Checked Failure SFieldData :=
  if inID = 0 then .error .required else
  if inData.length = 0 then .value ref else
  if 65535 < inData.length then .error .limitReached else
  match ref.h with
  | none => do
    let s := inData.length + 6
    let p := ref.headerSize
    let h := handles.newHandle (UInt32.ofNat (ref.headerSize + s))
    let h ← UMemory.write p (writeU16be 1) h
    let h ← UMemory.write (p + 2) (writeU16be inID) h
    let h ← UMemory.write (p + 4) (writeU16be (UInt16.ofNat inData.length)) h
    let h ← UMemory.write (p + 6) inData h
    return dumpTables { ref with h := some h }
  | some h => do
    let s := inData.length + 4
    let n := UMemory.getSize h
    let h := handles.setSize (UInt32.ofNat (n + s)) h
    let count ← u16beAt ref.headerSize h
    let h ← UMemory.write ref.headerSize (writeU16be (count + 1)) h
    let h ← UMemory.write n (writeU16be inID) h
    let h ← UMemory.write (n + 2) (writeU16be (UInt16.ofNat inData.length)) h
    let h ← UMemory.write (n + 4) inData h
    return dumpTables { ref with h := some h }

def addInteger (ref : SFieldData) (inID : UInt16) (inInteger : Int32) : Checked Failure SFieldData :=
  if inInteger.toUInt32 &&& 0xFFFF0000 ≠ 0 then addField handles ref inID (writeU32be inInteger.toUInt32)
  else addField handles ref inID (writeU16be inInteger.toUInt32.toUInt16)

end

end UFieldData

structure PString where
  text : Bytes
  size : text.length ≤ 255

structure CString where
  text : Bytes
  ends : 0 ∉ text

namespace UFieldData

section
variable (handles : UMemory.Handles Failure)

def addPString (ref : SFieldData) (inID : UInt16) (inPString : PString) : Checked Failure SFieldData :=
  addField handles ref inID inPString.text

def addCString (ref : SFieldData) (inID : UInt16) (inCString : CString) : Checked Failure SFieldData :=
  addField handles ref inID inCString.text

end

def getDataHandle (ref : SFieldData) : Bytes × SFieldData :=
  match ref.h with
  | some h => (h, ref)
  | none =>
    let h := UMemory.newHandleClear (UInt32.ofNat (ref.headerSize + 2))
    (h, { ref with h := some h })

/-! The tables. -/

/-- The loop of `_FDBuildTables`: offset and entry of each field from `p` on, and where it stops. -/
def scanFields (h : Bytes) (ep sp : Nat) : Nat → Nat → Nat → List (Nat × SFDEntry) × Nat
  | 0, _, p => ([], p)
  | c + 1, i, p =>
    if ep < p + 4 then ([], p) else
    let s := (readU16be (h.drop (p + 2))).toNat
    if ep < p + 4 + s then ([], p) else
    let rest := scanFields h ep sp c (i + 1) (p + (s + 4))
    ((p - sp, { id := readU16be (h.drop p), index := UInt16.ofNat i }) :: rest.1, rest.2)

def filled {α : Type} [Inhabited α] (size : Nat) (entries : List α) : Array α :=
  (entries ++ List.replicate (size - entries.length) default).toArray

def fdSortLookupTable (ref : SFieldData) : SFieldData :=
  { ref with lookupTable := ref.lookupTable.map (HeapSort.heapSort (·.id.toNat) ref.tableSize) }

def fdBuildTables (ref : SFieldData) : SFieldData :=
  match ref.h with
  | none => ref
  | some h =>
    let ep := UMemory.getSize h
    let sp := ref.headerSize
    let dataSize := ep - sp
    let c := if dataSize ≤ 2 then 0 else (readU16be (h.drop sp)).toNat
    let scan := scanFields h ep sp c 0 (sp + 2)
    fdSortLookupTable {
      ref with
      offsetTable := some (filled (c + 1) (scan.1.map (·.1) ++ [scan.2 - sp]))
      lookupTable := if c ≠ 0 then some (filled c (scan.1.map (·.2))) else none
      tableSize := scan.1.length
      lastSearchID := 0 }

def fdSearchLookupTable (ref : SFieldData) (inID : UInt16) : (Bool × Nat) × SFieldData :=
  if inID = 0 then ((false, 0), ref) else
  if ref.lastSearchID = inID then ((true, ref.lastSearchIndex), ref) else
  match ref.lookupTable with
  | none => ((false, 0), ref)
  | some lookupTab =>
    let answer := BinarySearch.search (fun i => (lookupTab.getD i default).id.toNat) inID.toNat ref.tableSize
    if answer.1 then (answer, { ref with lastSearchID := inID, lastSearchIndex := answer.2 })
    else (answer, ref)

def fdGetFieldOffset (ref : SFieldData) (inID : UInt16) : Checked Failure (Option Nat × SFieldData) :=
  if inID = 0 then .value (none, ref) else
  let ref := if ref.lookupTable.isNone then fdBuildTables ref else ref
  let ((found, i), ref) := fdSearchLookupTable ref inID
  if found then do
    let entry ← Span.element i (ref.lookupTable.getD #[]).toList
    let offset ← Span.element entry.index.toNat (ref.offsetTable.getD #[]).toList
    return (some (ref.headerSize + offset), ref)
  else .value (none, ref)

/-- The bytes copied to the caller's buffer; the source returns how many. -/
def readField (ref : SFieldData) (inID : UInt16) (inOffset inMaxSize : UInt32) :
    Checked Failure (Bytes × SFieldData) := do
  let (offset, ref) ← fdGetFieldOffset ref inID
  match offset, ref.h with
  | none, _ => return ([], ref)
  | some _, none => .fault
  | some ofs, some h =>
    let s := (← u16beAt (ofs + 2) h).toUInt32
    let p := ofs + 4
    if inOffset < s then
      let inMaxSize := if s < inOffset + inMaxSize then s - inOffset else inMaxSize
      let outData ← Span.slice (p + inOffset.toNat) inMaxSize.toNat h
      return (outData, ref)
    else return ([], ref)

def getField (ref : SFieldData) (inID : UInt16) (inMaxSize : UInt32) : Checked Failure (Bytes × SFieldData) :=
  readField ref inID 0 inMaxSize

/-- The switch of `GetInteger` on how many bytes were read. -/
def bufferInteger (buf : Bytes) : UInt32 :=
  match buf.length with
  | 1 => (buf.getD 0 0).toUInt32
  | 2 => (readU16be buf).toUInt32
  | 4 => readU32be buf
  | _ => 0

def getInteger (ref : SFieldData) (inID : UInt16) : Checked Failure (Int32 × SFieldData) := do
  let (buf, ref) ← readField ref inID 0 4
  return ((bufferInteger buf).toInt32, ref)

/-- `inBufSize` counts the length byte. -/
def getPString (ref : SFieldData) (inID : UInt16) (inBufSize : UInt32) : Checked Failure (Bytes × SFieldData) :=
  readField ref inID 0 (inBufSize - 1)

end UFieldData

end Slopline.Legacy
