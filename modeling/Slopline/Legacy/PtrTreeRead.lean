import Slopline.Legacy.PtrTreeRemove

/-! The operations of the tree of pointers that look something up, and those that exchange a pointer. -/

set_option autoImplicit false

namespace Slopline.Legacy

open Library

variable {α : Type}

namespace PtrForest

def exchange (inPtr : Option α) (spot : Forest.Spot (Option α)) : Forest (Option α) :=
  spot.place.plug (.cons inPtr spot.children spot.rest)

def setItem (inIndex : UInt32) (inPtr : Option α) (forest : Forest (Option α)) : Bool × Forest (Option α) :=
  match spot inIndex forest with
  | some spot => (true, exchange inPtr spot)
  | none => (false, forest)

def getItem (inIndex : UInt32) (forest : Forest (Option α)) : Option α :=
  match spot inIndex forest with
  | some spot => spot.item
  | none => none

def parent (inChildIndex : UInt32) (forest : Forest (Option α)) : Option (Forest.Spot (Option α)) := do
  let spot ← spot inChildIndex forest
  forest.locate (← spot.place.parent)

def setParentItem (inChildIndex : UInt32) (inPtr : Option α) (forest : Forest (Option α)) :
    Bool × Forest (Option α) :=
  match parent inChildIndex forest with
  | some parent => (true, exchange inPtr parent)
  | none => (false, forest)

def getParentItem (inChildIndex : UInt32) (forest : Forest (Option α)) : Option (Option α × UInt32) :=
  (parent inChildIndex forest).map fun parent => (parent.item, UInt32.ofNat (parent.place.index + 1))

def getParentIndex (inChildIndex : UInt32) (forest : Forest (Option α)) : UInt32 :=
  match parent inChildIndex forest with
  | some parent => UInt32.ofNat (parent.place.index + 1)
  | none => 0

def getItemLevel (inIndex : UInt32) (forest : Forest (Option α)) : UInt32 :=
  match spot inIndex forest with
  | some spot => UInt32.ofNat (spot.place.depth + 1)
  | none => 0

def getChildTreeCount (inParentIndex : UInt32) (forest : Forest (Option α)) : UInt32 :=
  match forest.childrenOf inParentIndex.toNat with
  | some (_, children) => UInt32.ofNat children.roots
  | none => 0

def getNext (ioIndex : UInt32) (inSameParent : Bool) (forest : Forest (Option α)) : Option (Option α × UInt32) :=
  if inSameParent ∧ ioIndex ≠ 0 then
    match spot ioIndex forest with
    | some spot =>
      match spot.rest with
      | .cons item _ _ => some (item, UInt32.ofNat (ioIndex.toNat + spot.children.size + 1))
      | .nil => none
    | none => none
  else (forest.locate ioIndex.toNat).map fun spot => (spot.item, ioIndex + 1)

def getPrev (ioIndex : UInt32) (inSameParent : Bool) (forest : Forest (Option α)) : Option (Option α × UInt32) :=
  if ioIndex ≤ 1 then none
  else if inSameParent ∧ ioIndex.toNat ≤ forest.size then
    match spot ioIndex forest with
    | some spot =>
      spot.place.earlier.lastRoot.map fun last =>
        (last.2, UInt32.ofNat (ioIndex.toNat - 1 - spot.place.earlier.size + last.1 + 1))
    | none => none
  else (forest.locate (ioIndex.toNat - 2)).map fun spot => (spot.item, ioIndex - 1)

def items (forest : Forest (Option α)) : List (Option α) := (forest.rows 0).map Forest.Row.item

def getTreeItem [DecidableEq α] (inPtr : Option α) (forest : Forest (Option α)) : Option UInt32 :=
  if inPtr = none then none
  else ((items forest).findIdx? (· = inPtr)).map fun index => UInt32.ofNat (index + 1)

end PtrForest

namespace CPtrTree

variable {tree : CPtrTree α} {forest : Forest (Option α)}

theorem spot_inside (represents : tree.Represents forest) {inIndex : UInt32} {spot : Forest.Spot (Option α)}
    (located : PtrForest.spot inIndex forest = some spot) :
    ∃ index, inIndex.toNat = index + 1 ∧ forest.locate index = some spot ∧
      ¬ (inIndex = 0 ∨ tree.mTreeCount < inIndex) := by
  obtain ⟨index, start, found, -⟩ := PtrForest.spot_eq_some located
  refine ⟨index, start, found, ?_⟩
  rw [outside_iff represents, located]
  exact Option.some_ne_none spot

/-! Exchanging a pointer. -/

theorem represents_exchange (represents : tree.Represents forest) {spot : Forest.Spot (Option α)} {index : Nat}
    (found : forest.locate index = some spot) (inPtr : Option α) (fits : PtrForestFits (PtrForest.exchange inPtr spot)) :
    ∃ next, tree.store index { STreeItem.ofRow spot.row with pItem := inPtr } = .value next ∧
      next.Represents (PtrForest.exchange inPtr spot) := by
  obtain ⟨whole, position⟩ := Forest.locate_eq_some found
  obtain ⟨spare, items⟩ := represents.items
  have split := items.trans (cells_spot found spare)
  have place : (cells (spot.place.before 0 (spot.rest.roots + 1))).length = index := by
    rw [length_cells, Forest.Place.length_before, position]
  refine ⟨_, store_eq split place _, ?_⟩
  have size : (PtrForest.exchange inPtr spot).size = forest.size := by
    rw [← whole, PtrForest.exchange, Forest.Place.size_plug, Forest.Place.size_plug]
    rfl
  constructor
  · exact represents.count.trans size.symm
  · show tree.mRootCount.toNat = _
    rw [represents.rootCount, ← whole, PtrForest.exchange, Forest.Place.roots_plug, Forest.Place.roots_plug]
    rfl
  · rw [← represents.capacity, split]
    simp only [CPtrTree.items, Option.getD_some, List.length_append, List.length_cons]
  · refine ⟨spare, ?_⟩
    show _ ++ _ = _
    rw [PtrForest.exchange, Forest.Place.rows_plug, Nat.zero_add, Forest.roots, Forest.rows]
    simp only [cells_append, cells_cons, List.append_assoc, List.cons_append]
    rfl
  · exact fits

theorem setItem_agrees (represents : tree.Represents forest) (inIndex : UInt32) (inPtr : Option α)
    (fits : PtrForestFits (PtrForest.setItem inIndex inPtr forest).2) :
    Agrees (tree.setItem inIndex inPtr) (PtrForest.setItem inIndex inPtr forest) := by
  cases located : PtrForest.spot inIndex forest with
  | none =>
    rw [setItem, if_pos ((outside_iff represents inIndex).mpr located), PtrForest.setItem, located]
    exact ⟨tree, rfl, represents⟩
  | some spot =>
    obtain ⟨index, start, found, inside⟩ := spot_inside represents located
    rw [PtrForest.setItem, located] at fits ⊢
    obtain ⟨next, stored, kept⟩ := represents_exchange represents found inPtr fits
    refine ⟨next, ?_, kept⟩
    rw [setItem, if_neg inside, start, Nat.add_sub_cancel, item_spot represents found, Checked.value_bind, stored]
    rfl

/-! Looking things up. -/

theorem getItem_eq (represents : tree.Represents forest) (inIndex : UInt32) :
    tree.getItem inIndex = .value (PtrForest.getItem inIndex forest) := by
  cases located : PtrForest.spot inIndex forest with
  | none =>
    rw [getItem, if_pos ((outside_iff represents inIndex).mpr located), PtrForest.getItem, located]
    rfl
  | some spot =>
    obtain ⟨index, start, found, inside⟩ := spot_inside represents located
    rw [getItem, if_neg inside, start, Nat.add_sub_cancel, item_spot represents found, PtrForest.getItem, located]
    rfl

theorem getItemLevel_eq (represents : tree.Represents forest) (inIndex : UInt32) :
    tree.getItemLevel inIndex = .value (PtrForest.getItemLevel inIndex forest) := by
  cases located : PtrForest.spot inIndex forest with
  | none =>
    rw [getItemLevel, if_pos ((outside_iff represents inIndex).mpr located), PtrForest.getItemLevel, located]
    rfl
  | some spot =>
    obtain ⟨index, start, found, inside⟩ := spot_inside represents located
    have level := toNat_level_spot represents.fits found
    have small := level_spot represents.fits found
    rw [getItemLevel, if_neg inside, start, Nat.add_sub_cancel, item_spot represents found, PtrForest.getItemLevel,
      located]
    refine congrArg Checked.value (UInt32.toNat_inj.mp ?_)
    rw [UInt32.toNat_ofNat_of_lt' (show spot.place.depth + 1 < 2 ^ 32 by omega)]
    exact level

theorem getRootCount_eq (represents : tree.Represents forest) : tree.getRootCount = UInt32.ofNat forest.roots := by
  rw [getRootCount, ← represents.rootCount, UInt32.ofNat_toNat]

theorem getTreeCount_eq (represents : tree.Represents forest) : tree.getTreeCount = UInt32.ofNat forest.size := by
  rw [getTreeCount, ← represents.count, UInt32.ofNat_toNat]

theorem getChildTreeCount_eq (represents : tree.Represents forest) (inParentIndex : UInt32) :
    tree.getChildTreeCount inParentIndex = .value (PtrForest.getChildTreeCount inParentIndex forest) := by
  by_cases zero : inParentIndex = 0
  · rw [getChildTreeCount, if_pos zero, zero]
    exact congrArg Checked.value (getRootCount_eq represents)
  · cases located : PtrForest.spot inParentIndex forest with
    | none =>
      have outside := (outside_iff represents inParentIndex).mpr located
      have beyond := outside.resolve_left zero
      rw [getChildTreeCount, if_neg zero, if_pos beyond, PtrForest.getChildTreeCount]
      rw [UInt32.lt_iff_toNat_lt, represents.count] at beyond
      rw [Forest.childrenOf_eq_none.mpr beyond]
      rfl
    | some spot =>
      obtain ⟨index, start, found, inside⟩ := spot_inside represents located
      rw [getChildTreeCount, if_neg zero, if_neg (not_or.mp inside).2, PtrForest.getChildTreeCount, start,
        Nat.add_sub_cancel, item_spot represents found, childrenOf_spot found]
      rfl

theorem findParent_eq (represents : tree.Represents forest) (inChildIndex : UInt32) :
    tree.findParent inChildIndex =
      .value ((PtrForest.parent inChildIndex forest).map fun parent => parent.place.index) := by
  cases located : PtrForest.spot inChildIndex forest with
  | none =>
    rw [findParent, if_pos ((outside_iff represents inChildIndex).mpr located), PtrForest.parent, located]
    rfl
  | some spot =>
    obtain ⟨index, start, found, inside⟩ := spot_inside represents located
    obtain ⟨whole, position⟩ := Forest.locate_eq_some found
    obtain ⟨spare, items⟩ := represents.items
    have level := toNat_level_spot represents.fits found
    have nParentLevel : ((STreeItem.ofRow spot.row).nItemLevel.toUInt32 - 1).toNat = spot.place.depth :=
      toNat_parentLevel level
    rw [findParent, if_neg inside, start, Nat.add_sub_cancel, item_spot represents found, Checked.value_bind,
      PtrForest.parent, located]
    cases above : spot.place.parent with
    | none =>
      have top : (STreeItem.ofRow spot.row).nItemLevel.toUInt32 - 1 = 0 := by
        rw [Forest.Place.parent_eq_none above] at nParentLevel
        exact UInt32.toNat_inj.mp nParentLevel
      simp only [top, if_true, Option.bind_eq_bind, Option.bind_some, above, Option.bind_none, Option.map_none,
        Checked.pure_eq]
    | some upper =>
      obtain ⟨deep, -⟩ := Forest.Place.before_below 0 above
      have inner : (STreeItem.ofRow spot.row).nItemLevel.toUInt32 - 1 ≠ 0 := by
        intro zero
        rw [zero] at nParentLevel
        exact absurd nParentLevel.symm (Nat.ne_of_gt deep)
      have small := level_spot represents.fits found
      have heights := spot.place.height_earlier (.cons spot.item spot.children spot.rest)
      rw [whole] at heights
      obtain ⟨item, parent, here, -⟩ := parentOf_eq above (by omega) (heights.trans represents.fits.height)
        (items.trans (cells_spot found spare)) (start.trans (congrArg (· + 1) position.symm)) nParentLevel
      have known : upper < forest.size := by
        have before := Forest.Place.parent_lt_index above
        have size := size_spot found
        omega
      obtain ⟨parentSpot, located⟩ := Forest.exists_locate known
      simp only [inner, if_false, parent, Checked.value_bind, Option.bind_eq_bind, Option.bind_some, above, located,
        Option.map_some, (Forest.locate_eq_some located).2, Checked.pure_eq]

theorem locate_parent {inChildIndex : UInt32} {parent : Forest.Spot (Option α)}
    (found : PtrForest.parent inChildIndex forest = some parent) :
    forest.locate parent.place.index = some parent := by
  obtain ⟨spot, -, rest⟩ := Option.bind_eq_some_iff.mp found
  obtain ⟨index, -, located⟩ := Option.bind_eq_some_iff.mp rest
  rwa [(Forest.locate_eq_some located).2]

theorem setParentItem_agrees (represents : tree.Represents forest) (inChildIndex : UInt32) (inPtr : Option α)
    (fits : PtrForestFits (PtrForest.setParentItem inChildIndex inPtr forest).2) :
    Agrees (tree.setParentItem inChildIndex inPtr) (PtrForest.setParentItem inChildIndex inPtr forest) := by
  rw [setParentItem, findParent_eq represents, Checked.value_bind]
  cases found : PtrForest.parent inChildIndex forest with
  | none =>
    rw [PtrForest.setParentItem, found]
    exact ⟨tree, rfl, represents⟩
  | some parent =>
    rw [PtrForest.setParentItem, found] at fits ⊢
    have located := locate_parent found
    obtain ⟨next, stored, kept⟩ := represents_exchange represents located inPtr fits
    refine ⟨next, ?_, kept⟩
    simp only [Option.map_some, item_spot represents located, Checked.value_bind, stored, Checked.pure_eq]

theorem getParentItem_eq (represents : tree.Represents forest) (inChildIndex : UInt32) :
    tree.getParentItem inChildIndex = .value (PtrForest.getParentItem inChildIndex forest) := by
  rw [getParentItem, findParent_eq represents, Checked.value_bind, PtrForest.getParentItem]
  cases found : PtrForest.parent inChildIndex forest with
  | none => rfl
  | some parent =>
    simp only [Option.map_some, item_spot represents (locate_parent found), Checked.value_bind, Checked.pure_eq,
      ofNat_next]
    rfl

theorem getParentIndex_eq (represents : tree.Represents forest) (inChildIndex : UInt32) :
    tree.getParentIndex inChildIndex = .value (PtrForest.getParentIndex inChildIndex forest) := by
  rw [getParentIndex, findParent_eq represents, Checked.value_bind, PtrForest.getParentIndex]
  cases found : PtrForest.parent inChildIndex forest with
  | none => rfl
  | some parent => simp only [Option.map_some, ofNat_next, Checked.pure_eq]

/-! Going through the items. -/

theorem item_locate (represents : tree.Represents forest) {index : Nat} {spot : Forest.Spot (Option α)}
    (found : forest.locate index = some spot) (next : UInt32) :
    (do return some ((← tree.item index).pItem, next) : Checked Empty (Option (Option α × UInt32))) =
      .value (some (spot.item, next)) := by
  rw [item_spot represents found]
  rfl

section
variable {spot : Forest.Spot (Option α)} {index : Nat} {ioIndex : UInt32}

theorem behind_spot (represents : tree.Represents forest) (found : forest.locate index = some spot) :
    tree.skip (spot.place.depth + 1) (forest.size - (index + 1)) (index + 1) =
        .value (index + 1 + spot.children.size) ∧
      ∃ front spare, front.length = index + 1 + spot.children.size ∧
        tree.items = front ++ (cells (spot.rest.rows spot.place.depth ++ spot.place.after 0) ++ spare) := by
  obtain ⟨spare, items⟩ := represents.items
  let front := cells (spot.place.before 0 (spot.rest.roots + 1)) ++ [STreeItem.ofRow spot.row]
  have split : tree.items = front ++ (cells (spot.children.rows (spot.place.depth + 1)) ++
      (cells (spot.rest.rows spot.place.depth ++ spot.place.after 0) ++ spare)) := by
    rw [items, cells_spot found, List.append_assoc, List.singleton_append]
  have length : front.length = index + 1 := by
    rw [List.length_append, length_cells, Forest.Place.length_before, (Forest.locate_eq_some found).2,
      List.length_singleton]
  refine ⟨skip_spot represents.fits found length split,
    front ++ cells (spot.children.rows (spot.place.depth + 1)), spare, ?_, ?_⟩
  · rw [List.length_append, length, length_cells, Forest.length_rows]
  · exact split.trans (List.append_assoc ..).symm

/-- Behind an item and what is below it comes the next one that lies as deep, -/
theorem next_sibling (represents : tree.Represents forest) (found : forest.locate index = some spot) {item : Option α}
    {below others : Forest (Option α)} (rest : spot.rest = .cons item below others) :
    index + 1 + spot.children.size ≠ forest.size ∧
      tree.item (index + 1 + spot.children.size) =
        .value (.ofRow ⟨spot.place.depth + 1, below.roots, item⟩) := by
  obtain ⟨-, front, spare, reached, behind⟩ := behind_spot represents found
  have size := size_spot found
  rw [rest, Forest.rows, List.cons_append] at behind size
  rw [List.length_cons] at size
  rw [cells_cons, List.cons_append] at behind
  exact ⟨by omega, item_eq behind reached⟩

/-- or one that lies higher, or nothing. -/
theorem next_higher (represents : tree.Represents forest) (found : forest.locate index = some spot)
    (rest : spot.rest = .nil) (inner : index + 1 + spot.children.size ≠ forest.size) :
    ∃ next, tree.item (index + 1 + spot.children.size) = .value next ∧ next.nItemLevel.toNat ≤ spot.place.depth := by
  obtain ⟨-, front, spare, reached, behind⟩ := behind_spot represents found
  have size := size_spot found
  rw [rest, Forest.rows, List.nil_append] at behind size
  cases after : spot.place.after 0 with
  | nil =>
    rw [after, List.length_nil, Nat.add_zero] at size
    exact absurd size.symm inner
  | cons row others =>
    rw [after, cells_cons, List.cons_append] at behind
    refine ⟨_, item_eq behind reached, ?_⟩
    have small : (STreeItem.ofRow row).nItemLevel.toNat ≤ row.level := Nat.mod_le _ _
    have shallow := Forest.Place.level_head_after after
    omega

/-- The item behind another one and what is below it, if that lies as deep. -/
theorem getNext_same (represents : tree.Represents forest) (start : ioIndex.toNat = index + 1)
    (found : forest.locate index = some spot) :
    (do
      let nItemLevel := (← tree.item (ioIndex.toNat - 1)).nItemLevel
      let nIndex ← tree.skip nItemLevel.toNat (tree.mTreeCount.toNat - ioIndex.toNat) ioIndex.toNat
      if nIndex = tree.mTreeCount.toNat then return none
      else
        let next ← tree.item nIndex
        if next.nItemLevel = nItemLevel then return some (next.pItem, UInt32.ofNat nIndex + 1) else return none :
      Checked Empty (Option (Option α × UInt32))) =
    .value (match spot.rest with
      | .cons item _ _ => some (item, UInt32.ofNat (ioIndex.toNat + spot.children.size + 1))
      | .nil => none) := by
  have level : (STreeItem.ofRow spot.row).nItemLevel.toNat = spot.place.depth + 1 :=
    toNat_level_spot represents.fits found
  simp only [start, Nat.add_sub_cancel, item_spot represents found, Checked.value_bind, level, represents.count,
    (behind_spot represents found).1]
  cases rest : spot.rest with
  | cons item below others =>
    obtain ⟨inner, next⟩ := next_sibling represents found rest
    have deep : (STreeItem.ofRow ⟨spot.place.depth + 1, below.roots, item⟩).nItemLevel =
        (STreeItem.ofRow spot.row).nItemLevel := rfl
    simp only [if_neg inner, next, Checked.value_bind, if_pos deep, Checked.pure_eq, ofNat_next]
    rfl
  | nil =>
    by_cases last : index + 1 + spot.children.size = forest.size
    · rw [if_pos last]
      rfl
    · obtain ⟨next, here, shallow⟩ := next_higher represents found rest last
      have less : next.nItemLevel ≠ (STreeItem.ofRow spot.row).nItemLevel := by
        intro same
        rw [same] at shallow
        omega
      simp only [if_neg last, here, Checked.value_bind, if_neg less, Checked.pure_eq]

end

theorem getNext_eq (represents : tree.Represents forest) (ioIndex : UInt32) (inSameParent : Bool) :
    tree.getNext ioIndex inSameParent = .value (PtrForest.getNext ioIndex inSameParent forest) := by
  by_cases last : tree.mTreeCount ≤ ioIndex
  · rw [getNext, if_pos last]
    rw [UInt32.le_iff_toNat_le, represents.count] at last
    rw [PtrForest.getNext, Forest.locate_eq_none.mpr last]
    split
    · cases located : PtrForest.spot ioIndex forest with
      | none => rfl
      | some spot =>
        -- The last item of all has nothing behind it.
        obtain ⟨index, start, found, -⟩ := PtrForest.spot_eq_some located
        have size := size_spot found
        have none : spot.rest = .nil := by
          rw [List.length_append, Forest.length_rows] at size
          exact Forest.size_eq_zero.mp (by omega)
        simp only [none]
        rfl
    · rfl
  · by_cases same : inSameParent ∧ ioIndex ≠ 0
    · rw [getNext, if_neg last, if_pos same, PtrForest.getNext, if_pos same]
      cases located : PtrForest.spot ioIndex forest with
      | none =>
        have inside := UInt32.lt_iff_toNat_lt.mp (UInt32.not_le.mp last)
        rw [represents.count] at inside
        rcases PtrForest.spot_eq_none located with zero | beyond
        · exact absurd zero same.2
        · omega
      | some spot =>
        obtain ⟨index, start, found, -⟩ := PtrForest.spot_eq_some located
        exact getNext_same represents start found
    · have inside : ioIndex.toNat < forest.size := by
        rw [UInt32.le_iff_toNat_le, represents.count] at last
        omega
      obtain ⟨spot, found⟩ := Forest.exists_locate inside
      rw [getNext, if_neg last, if_neg same, PtrForest.getNext, if_neg same, found]
      exact item_locate represents found _

section
variable {spot : Forest.Spot (Option α)} {index : Nat} {ioIndex : UInt32}

/-- The trees in front of an item, and what is in front of them. -/
theorem earlier_split (represents : tree.Represents forest) (found : forest.locate index = some spot) :
    ∃ front tail, tree.items = cells front ++ (cells (spot.place.earlier.rows spot.place.depth) ++ tail) ∧
      front.length + spot.place.earlier.size = index ∧
      (front = [] ∨ ∃ others row, front = others ++ [row] ∧ row.level = spot.place.depth) := by
  obtain ⟨spare, items⟩ := represents.items
  obtain ⟨front, before, parent⟩ := spot.place.before_split 0 (spot.rest.roots + 1)
  rw [Nat.zero_add] at before parent
  have split := items.trans (cells_spot found spare)
  rw [before, cells_append, List.append_assoc] at split
  have rows := congrArg List.length before
  rw [Forest.Place.length_before, List.length_append, Forest.length_rows, (Forest.locate_eq_some found).2] at rows
  exact ⟨front, _, split, rows.symm, parent⟩

/-- The walk back from an item stops at the last of the roots in front of it, -/
theorem above_sibling (represents : tree.Represents forest) (found : forest.locate index = some spot)
    {last : Nat × Option α} (sibling : spot.place.earlier.lastRoot = some last) :
    let position := index - spot.place.earlier.size + last.1
    tree.above (spot.place.depth + 1) (index - 1) = .value position ∧
      ∃ count, tree.item position = .value (.ofRow ⟨spot.place.depth + 1, count, last.2⟩) := by
  intro position
  obtain ⟨front, tail, split, length, -⟩ := earlier_split represents found
  obtain ⟨others, count, behind, rows, place, deeper⟩ := Forest.rows_lastRoot spot.place.depth sibling
  have siblings : spot.place.earlier.size = others.length + (behind.length + 1) := by
    rw [← Forest.length_rows spot.place.depth, rows, List.length_append, List.length_cons]
  have parts : tree.items = cells (front ++ others) ++ STreeItem.ofRow ⟨spot.place.depth + 1, count, last.2⟩ ::
      (cells behind ++ tail) := by
    rw [split, rows]
    simp only [cells_append, cells_cons, List.append_assoc, List.cons_append]
  have here : (cells (front ++ others)).length = position := by
    rw [length_cells, List.length_append]
    show _ = index - spot.place.earlier.size + last.1
    omega
  have level : (STreeItem.ofRow ⟨spot.place.depth + 1, count, last.2⟩).nItemLevel.toNat = spot.place.depth + 1 :=
    toNat_level_spot represents.fits found
  have heights := spot.place.height_earlier (.cons spot.item spot.children spot.rest)
  rw [(Forest.locate_eq_some found).1] at heights
  have small := represents.fits.height
  have reached := above_eq parts (fun row inside => by
    have bounds := deeper row inside
    omega) (Nat.le_of_eq level)
  have back : index - 1 = position + behind.length := by
    show _ = index - spot.place.earlier.size + last.1 + behind.length
    omega
  rw [here, ← back] at reached
  exact ⟨reached, count, item_eq parts here⟩

/-- or at something that lies higher. -/
theorem above_none (represents : tree.Represents forest) (found : forest.locate index = some spot)
    (alone : spot.place.earlier = .nil) (inner : 0 < index) :
    ∃ position entry, tree.above (spot.place.depth + 1) (index - 1) = .value position ∧
      tree.item position = .value entry ∧ entry.nItemLevel.toNat ≤ spot.place.depth := by
  obtain ⟨front, tail, split, length, parent⟩ := earlier_split represents found
  rw [alone, Forest.rows] at split
  rw [alone, Forest.size] at length
  rcases parent with rfl | ⟨others, row, rfl, shallow⟩
  · rw [List.length_nil] at length
    omega
  · have parts : tree.items = cells others ++ STreeItem.ofRow row :: (cells [] ++ tail) := by
      rw [split]
      simp only [cells_append, cells_cons, cells_nil, List.append_assoc, List.cons_append, List.nil_append]
    have low : (STreeItem.ofRow row).nItemLevel.toNat ≤ spot.place.depth := by
      rw [← shallow]
      exact Nat.mod_le _ _
    have reached := above_eq parts (fun row inside => by cases inside) (Nat.le_succ_of_le low)
    have back : index - 1 = (cells others).length + ([] : List (Forest.Row (Option α))).length := by
      rw [List.length_append, List.length_singleton] at length
      rw [length_cells, List.length_nil]
      omega
    rw [← back] at reached
    exact ⟨_, _, reached, item_eq parts rfl, low⟩

/-- The last of the items in front that lie as deep, below the same item. -/
theorem getPrev_same (represents : tree.Represents forest) (start : ioIndex.toNat = index + 1)
    (second : ¬ ioIndex ≤ 1) (found : forest.locate index = some spot) :
    (do
      let nItemLevel := (← tree.item (ioIndex.toNat - 1)).nItemLevel
      let nIndex ← tree.above nItemLevel.toNat (ioIndex - 2).toNat
      let previous ← tree.item nIndex
      if previous.nItemLevel = nItemLevel then return some (previous.pItem, UInt32.ofNat nIndex + 1) else return none :
      Checked Empty (Option (Option α × UInt32))) =
    .value (spot.place.earlier.lastRoot.map fun last =>
      (last.2, UInt32.ofNat (ioIndex.toNat - 1 - spot.place.earlier.size + last.1 + 1))) := by
  have level : (STreeItem.ofRow spot.row).nItemLevel.toNat = spot.place.depth + 1 :=
    toNat_level_spot represents.fits found
  rw [UInt32.le_iff_toNat_le, start, UInt32.toNat_one] at second
  have two : (ioIndex - 2).toNat = index - 1 := by
    have some : (2 : UInt32) ≤ ioIndex := by
      rw [UInt32.le_iff_toNat_le, start]
      exact Nat.succ_le_of_lt (Nat.lt_of_not_le second)
    rw [UInt32.toNat_sub_of_le _ _ some, start]
    rfl
  simp only [start, Nat.add_sub_cancel, item_spot represents found, Checked.value_bind, level, two]
  cases sibling : spot.place.earlier.lastRoot with
  | some last =>
    obtain ⟨reached, count, here⟩ := above_sibling represents found sibling
    have deep : (STreeItem.ofRow ⟨spot.place.depth + 1, count, last.2⟩).nItemLevel =
        (STreeItem.ofRow spot.row).nItemLevel := rfl
    simp only [reached, here, Checked.value_bind, if_pos deep, ofNat_next, Option.map_some, Checked.pure_eq]
    rfl
  | none =>
    obtain ⟨position, entry, reached, here, shallow⟩ :=
      above_none represents found (Forest.lastRoot_eq_none.mp sibling) (by omega)
    have less : entry.nItemLevel ≠ (STreeItem.ofRow spot.row).nItemLevel := by
      intro same
      rw [same] at shallow
      omega
    simp only [reached, here, Checked.value_bind, if_neg less, Option.map_none, Checked.pure_eq]

end

theorem getPrev_eq (represents : tree.Represents forest) (ioIndex : UInt32) (inSameParent : Bool) :
    tree.getPrev ioIndex inSameParent = .value (PtrForest.getPrev ioIndex inSameParent forest) := by
  have small := represents.fits.size
  have next : (tree.mTreeCount + 1).toNat = forest.size + 1 := by
    rw [UInt32.toNat_add, represents.count]
    exact Nat.mod_eq_of_lt (by simp; omega)
  by_cases first : ioIndex ≤ 1
  · rw [getPrev, if_pos (.inl first), PtrForest.getPrev, if_pos first]
    rfl
  have two : (ioIndex - 2).toNat = ioIndex.toNat - 2 := by
    have some : (2 : UInt32) ≤ ioIndex := UInt32.le_iff_toNat_le.mpr
      (Nat.succ_le_of_lt (UInt32.lt_iff_toNat_lt.mp (UInt32.not_le.mp first)))
    rw [UInt32.toNat_sub_of_le _ _ some]
    rfl
  rw [PtrForest.getPrev, if_neg first]
  by_cases beyond : tree.mTreeCount + 1 < ioIndex
  · rw [getPrev, if_pos (.inr beyond)]
    rw [UInt32.lt_iff_toNat_lt, next] at beyond
    have behind : forest.size ≤ ioIndex.toNat - 2 := by omega
    rw [if_neg (fun same => by omega), Forest.locate_eq_none.mpr behind]
    rfl
  · rw [getPrev, if_neg (not_or.mpr ⟨first, beyond⟩)]
    have bound : ioIndex ≤ tree.mTreeCount ↔ ioIndex.toNat ≤ forest.size := by
      rw [UInt32.le_iff_toNat_le, represents.count]
    by_cases same : inSameParent ∧ ioIndex ≤ tree.mTreeCount
    · rw [if_pos same, if_pos ⟨same.1, bound.mp same.2⟩]
      cases located : PtrForest.spot ioIndex forest with
      | none =>
        rcases PtrForest.spot_eq_none located with rfl | outside
        · exact absurd (by decide) first
        · exact absurd (bound.mp same.2) (Nat.not_le.mpr outside)
      | some spot =>
        obtain ⟨index, start, found, -⟩ := PtrForest.spot_eq_some located
        exact getPrev_same represents start first found
    · rw [if_neg same, if_neg (fun both => same ⟨both.1, bound.mpr both.2⟩), two]
      have inside : ioIndex.toNat - 2 < forest.size := by
        rw [UInt32.lt_iff_toNat_lt, next] at beyond
        rw [UInt32.le_iff_toNat_le, UInt32.toNat_one] at first
        omega
      obtain ⟨spot, found⟩ := Forest.exists_locate inside
      rw [found]
      exact item_locate represents found _

/-! Finding a pointer. -/

section
variable [DecidableEq α]

theorem search_eq {front rest : List (STreeItem α)} (inPtr : Option α) {rows : List (Forest.Row (Option α))}
    (split : tree.items = front ++ (cells rows ++ rest)) :
    tree.search inPtr rows.length front.length =
      .value (((rows.map Forest.Row.item).findIdx? (· = inPtr)).map fun index =>
        UInt32.ofNat (front.length + index + 1)) := by
  induction rows generalizing front with
  | nil => rfl
  | cons row rows ih =>
    rw [cells_cons, List.cons_append] at split
    have shift : tree.items = (front ++ [STreeItem.ofRow row]) ++ (cells rows ++ rest) := by
      rw [split, List.append_assoc, List.singleton_append]
    rw [List.length_cons, search, item_eq split rfl, Checked.value_bind, List.map_cons, List.findIdx?_cons]
    by_cases here : row.item = inPtr
    · have same : (STreeItem.ofRow row).pItem = inPtr := here
      simp only [if_pos same, here, decide_true, if_true, Option.map_some, Nat.add_zero, ofNat_next, Checked.pure_eq]
    · have other : (STreeItem.ofRow row).pItem ≠ inPtr := here
      have step := ih shift
      rw [List.length_append, List.length_singleton] at step
      simp only [if_neg other, here, decide_false, Bool.false_eq_true, if_false, step, Option.map_map]
      congr 2
      funext index
      simp only [Function.comp_apply, Nat.add_assoc, Nat.add_comm 1]

theorem getTreeItem_eq (represents : tree.Represents forest) (inPtr : Option α) :
    tree.getTreeItem inPtr = .value (PtrForest.getTreeItem inPtr forest) := by
  by_cases none : inPtr = none
  · rw [getTreeItem, if_pos none, PtrForest.getTreeItem, if_pos none]
    rfl
  · obtain ⟨spare, split⟩ := represents.items
    have searched : tree.search inPtr (forest.rows 0).length ([] : List (STreeItem α)).length = _ :=
      search_eq inPtr split
    rw [Forest.length_rows, ← represents.count] at searched
    rw [getTreeItem, if_neg none, PtrForest.getTreeItem, if_neg none]
    simpa only [List.length_nil, Nat.zero_add, PtrForest.items] using searched

end

end CPtrTree

end Slopline.Legacy
