import Slopline.Legacy.UMemory

/-! The legacy tree of pointers (`audit/CPtrTree.h.utf8`).

The items lie in one array, each behind its parent and in front of its next sibling; the levels tell
them apart. A pointer is an `Option`, `nil` is `none`. An access behind the array is a fault, and there
are as many entries as fit into the bytes that the memory manager is asked for. Indexes into the array
count from zero, those of the interface from one.
-/

set_option autoImplicit false

namespace Slopline.Legacy

open Library

structure STreeItem (α : Type) where
  nItemLevel : UInt16
  nChildCount : UInt32
  pItem : Option α
  deriving DecidableEq, Repr

/-- `sizeof(STreeItem)`, with pointers of four bytes. -/
def kTreeItemSize : UInt32 := 12

structure CPtrTree (α : Type) where
  mPtrTree : Option (List (STreeItem α)) := none
  mTreeCount : UInt32 := 0
  mRootCount : UInt32 := 0
  mMaxCount : UInt32 := 0
  deriving DecidableEq, Repr

namespace CPtrTree

variable {α : Type}

def items (tree : CPtrTree α) : List (STreeItem α) := tree.mPtrTree.getD []

/-- `mPtrTree[index]`. -/
def item (index : Nat) (tree : CPtrTree α) : Checked Empty (STreeItem α) := Span.element index tree.items

def store (index : Nat) (item : STreeItem α) (tree : CPtrTree α) : Checked Empty (CPtrTree α) := do
  return { tree with mPtrTree := some (← Span.store index item tree.items) }

def move (dest source count : Nat) (tree : CPtrTree α) : Checked Empty (CPtrTree α) := do
  return { tree with mPtrTree := some (← UMemory.move dest source count tree.items) }

/-- The entries in `maxCount * sizeof(STreeItem)` bytes. -/
def room (maxCount : UInt32) : Nat := (maxCount * kTreeItemSize).toNat / kTreeItemSize.toNat

def reallocate (blocks : UMemory.Blocks (STreeItem α)) (maxCount : UInt32) (tree : CPtrTree α) : CPtrTree α :=
  { tree with mPtrTree := some (blocks.reallocate (room maxCount) tree.items), mMaxCount := maxCount }

def grow (blocks : UMemory.Blocks (STreeItem α)) (tree : CPtrTree α) : CPtrTree α :=
  if tree.mMaxCount ≤ tree.mTreeCount then tree.reallocate blocks (roundUp8 (tree.mTreeCount + 8)) else tree

def clear (_ : CPtrTree α) : CPtrTree α := {}

def shrink (blocks : UMemory.Blocks (STreeItem α)) (tree : CPtrTree α) : CPtrTree α :=
  if tree.mTreeCount = 0 then tree.clear
  else if 32 < tree.mMaxCount - tree.mTreeCount then tree.reallocate blocks (roundUp8 (tree.mTreeCount + 8))
  else tree

/-- The first entry from `index` on, of the `left` ones that are in use, that is not deeper. -/
def skip (level : Nat) (tree : CPtrTree α) : Nat → Nat → Checked Empty Nat
  | 0, index => return index
  | left + 1, index => do
    let item ← tree.item index
    if level < item.nItemLevel.toNat then skip level tree left (index + 1) else return index

/-- The last entry up to `index` that is not deeper, or the first one of all. -/
def above (level : Nat) (tree : CPtrTree α) : Nat → Checked Empty Nat
  | 0 => return 0
  | index + 1 => do
    let item ← tree.item (index + 1)
    if level < item.nItemLevel.toNat then above level tree index else return index + 1

def spread (index : Nat) (tree : CPtrTree α) : Checked Empty (CPtrTree α) :=
  if index = tree.mTreeCount.toNat then return tree
  else tree.move (index + 1) index (tree.mTreeCount.toNat - index)

/-- The end of the operations that add. -/
def put (index : Nat) (nParentLevel : UInt16) (inPtr : Option α) (tree : CPtrTree α) :
    Checked Empty (UInt32 × CPtrTree α) := do
  let tree ← tree.store index { nItemLevel := nParentLevel + 1, nChildCount := 0, pItem := inPtr }
  return (UInt32.ofNat index + 1, { tree with mTreeCount := tree.mTreeCount + 1 })

def addItem (blocks : UMemory.Blocks (STreeItem α)) (inParentIndex : UInt32) (inPtr : Option α) (tree : CPtrTree α) :
    Checked Empty (UInt32 × CPtrTree α) :=
  if tree.mTreeCount < inParentIndex ∨ inPtr = none then return (0, tree)
  else if tree.mPtrTree.isSome then do
    let tree := tree.grow blocks
    if inParentIndex ≠ 0 then
      let parent ← tree.item (inParentIndex.toNat - 1)
      let tree ← tree.store (inParentIndex.toNat - 1) { parent with nChildCount := parent.nChildCount + 1 }
      let nIndex ← tree.skip parent.nItemLevel.toNat (tree.mTreeCount.toNat - inParentIndex.toNat) inParentIndex.toNat
      let tree ← tree.spread nIndex
      tree.put nIndex parent.nItemLevel inPtr
    else
      ({ tree with mRootCount := tree.mRootCount + 1 } : CPtrTree α).put tree.mTreeCount.toNat 0 inPtr
  else
    let tree := { tree with
      mPtrTree := some (blocks.new (room 8)), mMaxCount := 8, mRootCount := tree.mRootCount + 1 }
    tree.put 0 0 inPtr

/-- The loop of `InsertItem`. -/
def skipChildren (level : Nat) (inIndex : UInt32) (tree : CPtrTree α) : Nat → UInt32 → Nat → Checked Empty Nat
  | 0, _, nIndex => return nIndex
  | left + 1, nCount, nIndex => do
    let item ← tree.item nIndex
    if level < item.nItemLevel.toNat then
      if item.nItemLevel.toNat = level + 1 then
        if inIndex ≤ nCount + 1 then return nIndex
        else skipChildren level inIndex tree left (nCount + 1) (nIndex + 1)
      else skipChildren level inIndex tree left nCount (nIndex + 1)
    else return nIndex

/-- In `InsertItem`: the parent, or the tree, counts one more. It gives the level of the parent. -/
def countMore (inParentIndex : UInt32) (tree : CPtrTree α) : Checked Empty (UInt16 × CPtrTree α) :=
  if inParentIndex ≠ 0 then do
    let parent ← tree.item (inParentIndex.toNat - 1)
    let tree ← tree.store (inParentIndex.toNat - 1) { parent with nChildCount := parent.nChildCount + 1 }
    return (parent.nItemLevel, tree)
  else return (0, { tree with mRootCount := tree.mRootCount + 1 })

def insertItem (blocks : UMemory.Blocks (STreeItem α)) (inParentIndex inIndex : UInt32) (inPtr : Option α)
    (tree : CPtrTree α) : Checked Empty (UInt32 × CPtrTree α) :=
  if tree.mTreeCount < inParentIndex ∨ inPtr = none then return (0, tree)
  else if tree.mPtrTree.isNone then tree.addItem blocks 0 inPtr
  else do
    let tree := tree.grow blocks
    let (nParentLevel, tree) ← tree.countMore inParentIndex
    let nIndex ← tree.skipChildren nParentLevel.toNat inIndex (tree.mTreeCount.toNat - inParentIndex.toNat) 0
      inParentIndex.toNat
    let tree ← tree.spread nIndex
    tree.put nIndex nParentLevel inPtr

def raise (level : Nat) : Nat → Nat → CPtrTree α → Checked Empty (CPtrTree α)
  | 0, _, tree => return tree
  | left + 1, nNextIndex, tree => do
    let item ← tree.item nNextIndex
    if level < item.nItemLevel.toNat then do
      let tree ← tree.store nNextIndex { item with nItemLevel := item.nItemLevel - 1 }
      raise level left (nNextIndex + 1) tree
    else return tree

/-- Where the parent of an item is that has a level of two or more. -/
def parentOf (inIndex : UInt32) (nParentLevel : UInt32) (tree : CPtrTree α) : Checked Empty Nat :=
  tree.above nParentLevel.toNat (inIndex - 2).toNat

def countLess (inIndex nItemLevel : UInt32) (tree : CPtrTree α) : Checked Empty (CPtrTree α) :=
  let nParentLevel := nItemLevel - 1
  if nParentLevel ≠ 0 then do
    let nParentIndex ← tree.parentOf inIndex nParentLevel
    let parent ← tree.item nParentIndex
    tree.store nParentIndex { parent with nChildCount := parent.nChildCount - 1 }
  else return { tree with mRootCount := tree.mRootCount - 1 }

def closeGap (index nNextIndex : Nat) (tree : CPtrTree α) : Checked Empty (CPtrTree α) :=
  if nNextIndex = tree.mTreeCount.toNat then return tree
  else tree.move index nNextIndex (tree.mTreeCount.toNat - nNextIndex)

def removeItem (blocks : UMemory.Blocks (STreeItem α)) (inIndex : UInt32) (inRemoveChild : Bool) (tree : CPtrTree α) :
    Checked Empty (Option α × CPtrTree α) :=
  if inIndex = 0 ∨ tree.mTreeCount < inIndex then return (none, tree)
  else do
    let removed ← tree.item (inIndex.toNat - 1)
    let nItemLevel := removed.nItemLevel.toUInt32
    if inRemoveChild ∨ removed.nChildCount = 0 then
      let tree ← tree.countLess inIndex nItemLevel
      let nNextIndex ← tree.skip nItemLevel.toNat (tree.mTreeCount.toNat - inIndex.toNat) inIndex.toNat
      let tree ← tree.closeGap (inIndex.toNat - 1) nNextIndex
      let nTreeCount := tree.mTreeCount - (UInt32.ofNat nNextIndex - inIndex + 1)
      return (removed.pItem, ({ tree with mTreeCount := nTreeCount } : CPtrTree α).shrink blocks)
    else
      let nChildLevel := nItemLevel + 1
      let tree ← raise nChildLevel.toNat (tree.mTreeCount.toNat - (inIndex.toNat + 1)) (inIndex.toNat + 1) tree
      let child ← tree.item inIndex.toNat
      let tree ← tree.store inIndex.toNat
        { child with nItemLevel := removed.nItemLevel, nChildCount := child.nChildCount + (removed.nChildCount - 1) }
      let tree ← tree.closeGap (inIndex.toNat - 1) inIndex.toNat
      return (removed.pItem, ({ tree with mTreeCount := tree.mTreeCount - 1 } : CPtrTree α).shrink blocks)

def removeChildTree (blocks : UMemory.Blocks (STreeItem α)) (inParentIndex : UInt32) (tree : CPtrTree α) :
    Checked Empty (Bool × CPtrTree α) :=
  if inParentIndex = 0 ∨ tree.mTreeCount < inParentIndex then return (false, tree)
  else do
    let parent ← tree.item (inParentIndex.toNat - 1)
    if parent.nChildCount = 0 then return (true, tree)
    else
      let tree ← tree.store (inParentIndex.toNat - 1) { parent with nChildCount := 0 }
      let nNextIndex ← tree.skip parent.nItemLevel.toNat (tree.mTreeCount.toNat - inParentIndex.toNat)
        inParentIndex.toNat
      let tree ← tree.closeGap inParentIndex.toNat nNextIndex
      let nTreeCount := tree.mTreeCount - (UInt32.ofNat nNextIndex - inParentIndex)
      return (true, ({ tree with mTreeCount := nTreeCount } : CPtrTree α).shrink blocks)

def setItem (inIndex : UInt32) (inPtr : Option α) (tree : CPtrTree α) : Checked Empty (Bool × CPtrTree α) :=
  if inIndex = 0 ∨ tree.mTreeCount < inIndex then return (false, tree)
  else do
    let item ← tree.item (inIndex.toNat - 1)
    return (true, ← tree.store (inIndex.toNat - 1) { item with pItem := inPtr })

def getItem (inIndex : UInt32) (tree : CPtrTree α) : Checked Empty (Option α) :=
  if inIndex = 0 ∨ tree.mTreeCount < inIndex then return none
  else do return (← tree.item (inIndex.toNat - 1)).pItem

/-- What `SetParentItem`, `GetParentItem` and `GetParentIndex` begin with: where the parent is. -/
def findParent (inChildIndex : UInt32) (tree : CPtrTree α) : Checked Empty (Option Nat) :=
  if inChildIndex = 0 ∨ tree.mTreeCount < inChildIndex then return none
  else do
    let nParentLevel := (← tree.item (inChildIndex.toNat - 1)).nItemLevel.toUInt32 - 1
    if nParentLevel = 0 then return none
    else return some (← tree.parentOf inChildIndex nParentLevel)

def setParentItem (inChildIndex : UInt32) (inPtr : Option α) (tree : CPtrTree α) :
    Checked Empty (Bool × CPtrTree α) := do
  match ← tree.findParent inChildIndex with
  | some nParentIndex =>
    let item ← tree.item nParentIndex
    return (true, ← tree.store nParentIndex { item with pItem := inPtr })
  | none => return (false, tree)

/-- The item, and what goes to `outParentIndex`. -/
def getParentItem (inChildIndex : UInt32) (tree : CPtrTree α) : Checked Empty (Option (Option α × UInt32)) := do
  match ← tree.findParent inChildIndex with
  | some nParentIndex => return some ((← tree.item nParentIndex).pItem, UInt32.ofNat nParentIndex + 1)
  | none => return none

def getParentIndex (inChildIndex : UInt32) (tree : CPtrTree α) : Checked Empty UInt32 := do
  match ← tree.findParent inChildIndex with
  | some nParentIndex => return UInt32.ofNat nParentIndex + 1
  | none => return 0

def getItemLevel (inIndex : UInt32) (tree : CPtrTree α) : Checked Empty UInt32 :=
  if inIndex = 0 ∨ tree.mTreeCount < inIndex then return 0
  else do return (← tree.item (inIndex.toNat - 1)).nItemLevel.toUInt32

def getTreeCount (tree : CPtrTree α) : UInt32 := tree.mTreeCount

def getRootCount (tree : CPtrTree α) : UInt32 := tree.mRootCount

def getChildTreeCount (inParentIndex : UInt32) (tree : CPtrTree α) : Checked Empty UInt32 :=
  if inParentIndex = 0 then return tree.mRootCount
  else if tree.mTreeCount < inParentIndex then return 0
  else do return (← tree.item (inParentIndex.toNat - 1)).nChildCount

/-- The item and its index, where there is a next one. -/
def getNext (ioIndex : UInt32) (inSameParent : Bool) (tree : CPtrTree α) :
    Checked Empty (Option (Option α × UInt32)) :=
  if tree.mTreeCount ≤ ioIndex then return none
  else if inSameParent ∧ ioIndex ≠ 0 then do
    let nItemLevel := (← tree.item (ioIndex.toNat - 1)).nItemLevel
    let nIndex ← tree.skip nItemLevel.toNat (tree.mTreeCount.toNat - ioIndex.toNat) ioIndex.toNat
    if nIndex = tree.mTreeCount.toNat then return none
    else
      let next ← tree.item nIndex
      if next.nItemLevel = nItemLevel then return some (next.pItem, UInt32.ofNat nIndex + 1) else return none
  else do return some ((← tree.item ioIndex.toNat).pItem, ioIndex + 1)

def getPrev (ioIndex : UInt32) (inSameParent : Bool) (tree : CPtrTree α) :
    Checked Empty (Option (Option α × UInt32)) :=
  if ioIndex ≤ 1 ∨ tree.mTreeCount + 1 < ioIndex then return none
  else if inSameParent ∧ ioIndex ≤ tree.mTreeCount then do
    let nItemLevel := (← tree.item (ioIndex.toNat - 1)).nItemLevel
    let nIndex ← tree.above nItemLevel.toNat (ioIndex - 2).toNat
    let previous ← tree.item nIndex
    if previous.nItemLevel = nItemLevel then return some (previous.pItem, UInt32.ofNat nIndex + 1) else return none
  else do return some ((← tree.item (ioIndex - 2).toNat).pItem, ioIndex - 1)

/-! By pointer. -/

variable [DecidableEq α]

/-- The loop of `GetTreeItem`: the index, counted from one. -/
def search (inPtr : Option α) (tree : CPtrTree α) : Nat → Nat → Checked Empty (Option UInt32)
  | 0, _ => return none
  | left + 1, i => do
    let item ← tree.item i
    if item.pItem = inPtr then return some (UInt32.ofNat i + 1) else search inPtr tree left (i + 1)

def getTreeItem (inPtr : Option α) (tree : CPtrTree α) : Checked Empty (Option UInt32) :=
  if inPtr = none then return none else tree.search inPtr tree.mTreeCount.toNat 0

def getItemIndex (inPtr : Option α) (tree : CPtrTree α) : Checked Empty UInt32 := do
  return (← tree.getTreeItem inPtr).getD 0

def isInList (inPtr : Option α) (tree : CPtrTree α) : Checked Empty Bool := do
  return (← tree.getTreeItem inPtr).isSome

/-- `RemoveItem` of a pointer. -/
def removePtr (blocks : UMemory.Blocks (STreeItem α)) (inPtr : Option α) (inRemoveChild : Bool) (tree : CPtrTree α) :
    Checked Empty (UInt32 × CPtrTree α) := do
  match ← tree.getTreeItem inPtr with
  | some nIndex =>
    let (_, tree) ← tree.removeItem blocks nIndex inRemoveChild
    return (nIndex, tree)
  | none => return (0, tree)

/-- `RemoveChildTree` of a pointer. -/
def removePtrChildTree (blocks : UMemory.Blocks (STreeItem α)) (inParentPtr : Option α) (tree : CPtrTree α) :
    Checked Empty (Bool × CPtrTree α) := do
  match ← tree.getTreeItem inParentPtr with
  | some nParentIndex => tree.removeChildTree blocks nParentIndex
  | none => return (false, tree)

/-- `GetParentItem` of a pointer. -/
def getPtrParentItem (inChildPtr : Option α) (tree : CPtrTree α) :
    Checked Empty (Option (Option α × UInt32)) := do
  match ← tree.getTreeItem inChildPtr with
  | some nChildIndex => tree.getParentItem nChildIndex
  | none => return none

/-- `GetParentIndex` of a pointer. -/
def getPtrParentIndex (inChildPtr : Option α) (tree : CPtrTree α) : Checked Empty UInt32 := do
  match ← tree.getTreeItem inChildPtr with
  | some nChildIndex => tree.getParentIndex nChildIndex
  | none => return 0

/-- `GetItemLevel` of a pointer. -/
def getPtrLevel (inPtr : Option α) (tree : CPtrTree α) : Checked Empty UInt32 := do
  match ← tree.getTreeItem inPtr with
  | some nIndex => tree.getItemLevel nIndex
  | none => return 0

/-- `GetChildTreeCount` of a pointer. -/
def getPtrChildTreeCount (inParentPtr : Option α) (tree : CPtrTree α) : Checked Empty UInt32 :=
  if inParentPtr = none then return tree.mRootCount
  else do
    match ← tree.getTreeItem inParentPtr with
    | some nParentIndex => tree.getChildTreeCount nParentIndex
    | none => return 0

end CPtrTree

end Slopline.Legacy
