import Slopline.Legacy.PtrForest

/-! `RemoveItem` and `RemoveChildTree` of the tree of pointers. -/

set_option autoImplicit false

namespace Slopline.Legacy

open Library

variable {α : Type}

namespace PtrForest

/-- The first of some trees in the place of the item above them, with the others below it. -/
def promote : Forest (Option α) → Forest (Option α) → Forest (Option α)
  | .nil, rest => rest
  | .cons item children others, rest => .cons item (children.append others) rest

/-- What `RemoveItem` does to the forest. -/
def removeItem (inIndex : UInt32) (inRemoveChild : Bool) (forest : Forest (Option α)) :
    Option α × Forest (Option α) :=
  match spot inIndex forest with
  | some spot =>
    (spot.item, spot.place.plug (if inRemoveChild then spot.rest else promote spot.children spot.rest))
  | none => (none, forest)

def removeChildTree (inParentIndex : UInt32) (forest : Forest (Option α)) : Bool × Forest (Option α) :=
  match spot inParentIndex forest with
  | some spot => (true, spot.place.plug (.cons spot.item .nil spot.rest))
  | none => (false, forest)

end PtrForest

namespace CPtrTree

variable {tree : CPtrTree α} {forest : Forest (Option α)}

theorem Represents.shrink (represents : tree.Represents forest) (blocks : UMemory.Blocks (STreeItem α)) :
    (tree.shrink blocks).Represents forest := by
  by_cases empty : tree.mTreeCount = 0
  · have none : forest = .nil := by
      apply Forest.size_eq_zero.mp
      rw [← represents.count, empty]
      rfl
    rw [CPtrTree.shrink, if_pos empty, none]
    exact represents_new
  · by_cases large : 32 < tree.mMaxCount - tree.mTreeCount
    · obtain ⟨block, same, length, ⟨spare, split⟩, -⟩ := reallocate_eq represents blocks
      rw [CPtrTree.shrink, if_neg empty, if_pos large, same]
      exact {
        count := represents.count
        rootCount := represents.rootCount
        capacity := length
        items := ⟨spare, split.symm⟩
        fits := represents.fits }
    · rw [CPtrTree.shrink, if_neg empty, if_neg large]
      exact represents

section
variable {front gone entries spare : List (STreeItem α)} {index next : Nat}

theorem closeGap_eq (block : tree.mPtrTree = some (front ++ (gone ++ (entries ++ spare))))
    (place : front.length = index) (reached : index + gone.length = next)
    (count : tree.mTreeCount.toNat = next + entries.length) :
    ∃ left, left.length = gone.length + spare.length ∧
      tree.closeGap index next = .value { tree with mPtrTree := some (front ++ (entries ++ left)) } := by
  have split : tree.items = front ++ (gone ++ (entries ++ spare)) := by
    rw [items, block]
    rfl
  by_cases last : next = tree.mTreeCount.toNat
  · have none : entries = [] := List.eq_nil_of_length_eq_zero (by omega)
    subst none
    refine ⟨gone ++ spare, List.length_append, ?_⟩
    rw [closeGap, if_pos last, List.nil_append, ← List.nil_append spare, ← block]
    rfl
  · have amount : entries.length = tree.mTreeCount.toNat - next := by omega
    rw [closeGap, if_neg last]
    exact move_over split place reached amount

/-- The end of the operations that remove: what is left moves over what goes, and the tree shrinks. -/
theorem closeGap_shrink {ω : Type} {left : Forest (Option α)} {removed : UInt32}
    (block : tree.mPtrTree = some (front ++ (gone ++ (entries ++ spare))))
    (capacity : tree.items.length = tree.mMaxCount.toNat) (place : front.length = index)
    (reached : index + gone.length = next) (count : tree.mTreeCount.toNat = next + entries.length)
    (rows : front ++ entries = cells (left.rows 0)) (roots : tree.mRootCount.toNat = left.roots)
    (fits : PtrForestFits left) (amount : removed.toNat = gone.length) (blocks : UMemory.Blocks (STreeItem α))
    (answer : ω) :
    Agrees (do
      let tree ← tree.closeGap index next
      return (answer, ({ tree with mTreeCount := tree.mTreeCount - removed } : CPtrTree α).shrink blocks))
      (answer, left) := by
  obtain ⟨behind, length, closed⟩ := closeGap_eq block place reached count
  have size : index + entries.length = left.size := by
    have all := congrArg List.length rows
    rwa [List.length_append, length_cells, Forest.length_rows, place] at all
  have few : removed ≤ tree.mTreeCount := by
    rw [UInt32.le_iff_toNat_le, amount, count]
    omega
  have represents : Represents { tree with
      mPtrTree := some (cells (left.rows 0) ++ behind), mTreeCount := tree.mTreeCount - removed } left := by
    constructor
    · show (tree.mTreeCount - removed).toNat = _
      rw [UInt32.toNat_sub_of_le _ _ few, amount, count]
      omega
    · exact roots
    · show (cells (left.rows 0) ++ behind).length = tree.mMaxCount.toNat
      have split : tree.items = front ++ (gone ++ (entries ++ spare)) := by
        rw [items, block]
        rfl
      rw [← capacity, split, ← rows]
      simp only [List.length_append]
      omega
    · exact ⟨behind, rfl⟩
    · exact fits
  refine ⟨_, ?_, represents.shrink blocks⟩
  rw [closed, Checked.value_bind, ← List.append_assoc, rows]
  rfl

end

/-! One tree less at a place. -/

section
variable {place : Forest.Place (Option α)} {tail : List (STreeItem α)} {count : Nat}

theorem parentOf_eq {position : Nat} (above : place.parent = some position) (small : place.depth ≤ 65535)
    (heights : place.depth + place.earlier.height ≤ 65535)
    (split : tree.items = cells (place.before 0 (count + 1)) ++ tail) {inIndex : UInt32}
    (start : inIndex.toNat = place.index + 1) {nParentLevel : UInt32} (level : nParentLevel.toNat = place.depth) :
    ∃ item : Option α, tree.parentOf inIndex nParentLevel = .value position ∧
      tree.item position = .value (.ofRow ⟨place.depth, place.earlier.roots + (count + 1), item⟩) ∧
      tree.store position (.ofRow ⟨place.depth, place.earlier.roots + count, item⟩) =
        .value { tree with mPtrTree := some (cells (place.before 0 count) ++ tail) } := by
  obtain ⟨-, front, item, length, before⟩ := Forest.Place.before_below 0 above
  simp only [Nat.zero_add] at before
  have size : place.index = position + (place.earlier.size + 1) := by
    have rows := congrArg List.length (before 0)
    rw [Forest.Place.length_before, List.length_append, List.length_cons, Forest.length_rows, length] at rows
    exact rows
  have here : (cells front).length = position := by rw [length_cells, length]
  rw [before, cells_append, cells_cons, List.append_assoc, List.cons_append] at split
  refine ⟨item, ?_, item_eq split here, ?_⟩
  · have behind : (inIndex - 2).toNat = (cells front).length + (place.earlier.rows place.depth).length := by
      have two : (2 : UInt32) ≤ inIndex := by
        rw [UInt32.le_iff_toNat_le, start, size]
        exact Nat.succ_le_succ (Nat.le_trans (Nat.succ_le_succ (Nat.zero_le _)) (Nat.le_add_left _ _))
      rw [UInt32.toNat_sub_of_le _ _ two, start, size, here, Forest.length_rows]
      exact Nat.add_sub_assoc (Nat.le_add_left 1 _) position
    rw [parentOf, level, behind, above_eq split ?_ ?_, here]
    · intro row inside
      have bounds := Forest.level_of_mem inside
      omega
    · exact (toNat_level small).le
  · rw [store_eq split here, before, cells_append, cells_cons, List.append_assoc, List.cons_append]

end

section
variable {spot : Forest.Spot (Option α)} {index : Nat} {tail : List (STreeItem α)} {inIndex : UInt32}

theorem countLess_eq (represents : tree.Represents forest) (found : forest.locate index = some spot)
    (block : tree.mPtrTree = some (cells (spot.place.before 0 (spot.rest.roots + 1)) ++ tail))
    (start : inIndex.toNat = index + 1) {nItemLevel : UInt32} (level : nItemLevel.toNat = spot.place.depth + 1) :
    ∃ mRootCount : UInt32, mRootCount.toNat = spot.place.roots spot.rest.roots ∧
      tree.countLess inIndex nItemLevel = .value { tree with
        mPtrTree := some (cells (spot.place.before 0 spot.rest.roots) ++ tail), mRootCount } := by
  obtain ⟨whole, position⟩ := Forest.locate_eq_some found
  have nParentLevel : (nItemLevel - 1).toNat = spot.place.depth := toNat_parentLevel level
  have roots : tree.mRootCount.toNat = spot.place.roots (spot.rest.roots + 1) := by
    rw [represents.rootCount, ← whole, Forest.Place.roots_plug, Forest.roots]
  cases above : spot.place.parent with
  | none =>
    have top := Forest.Place.parent_eq_none above
    rw [top] at block roots ⊢
    have level : nItemLevel - 1 = 0 := by
      rw [top] at nParentLevel
      exact UInt32.toNat_inj.mp nParentLevel
    refine ⟨tree.mRootCount - 1, ?_, ?_⟩
    · have one : (1 : UInt32) ≤ tree.mRootCount := by
        rw [UInt32.le_iff_toNat_le, roots]
        exact Nat.le_add_left 1 _
      rw [UInt32.toNat_sub_of_le _ _ one, roots]
      rfl
    · simp only [countLess, level, ne_eq, not_true_eq_false, if_false, Checked.pure_eq]
      rw [block]
      rfl
  | some upper =>
    obtain ⟨deep, -⟩ := Forest.Place.before_below 0 above
    have small := level_spot represents.fits found
    have heights := spot.place.height_earlier (.cons spot.item spot.children spot.rest)
    rw [whole] at heights
    have split : tree.items = cells (spot.place.before 0 (spot.rest.roots + 1)) ++ tail := by
      rw [items, block]
      rfl
    obtain ⟨item, parent, here, stored⟩ := parentOf_eq above (by omega) (heights.trans represents.fits.height) split
      (start.trans (congrArg (· + 1) position.symm)) nParentLevel
    have inner : nItemLevel - 1 ≠ 0 := by
      intro zero
      rw [zero] at nParentLevel
      exact absurd nParentLevel.symm (Nat.ne_of_gt deep)
    have less : { STreeItem.ofRow ⟨spot.place.depth, spot.place.earlier.roots + (spot.rest.roots + 1), item⟩ with
        nChildCount := UInt32.ofNat (spot.place.earlier.roots + (spot.rest.roots + 1)) - 1 } =
        STreeItem.ofRow ⟨spot.place.depth, spot.place.earlier.roots + spot.rest.roots, item⟩ := by
      rw [STreeItem.ofRow, STreeItem.ofRow, ← Nat.add_assoc, ← ofNat_next, UInt32.add_sub_cancel]
    refine ⟨tree.mRootCount, roots.trans (Forest.Place.roots_fixed above _ _), ?_⟩
    simp only [countLess, inner, ne_eq, not_false_eq_true, if_true, parent, here, Checked.value_bind]
    exact (congrArg (tree.store upper) less).trans stored

theorem toNat_gap (represents : tree.Represents forest) {amount next : Nat} (apart : next = inIndex.toNat + amount)
    (inside : next ≤ forest.size) : (UInt32.ofNat next - inIndex).toNat = amount := by
  have small := represents.fits.size
  have whole : (UInt32.ofNat next).toNat = next := UInt32.toNat_ofNat_of_lt' (by show next < 2 ^ 32; omega)
  have behind : inIndex ≤ UInt32.ofNat next := by
    rw [UInt32.le_iff_toNat_le, whole, apart]
    exact Nat.le_add_right _ _
  rw [UInt32.toNat_sub_of_le _ _ behind, whole, apart, Nat.add_sub_cancel_left]

/-- What is below an item goes, and what lies right in front of it as far as that is to go too. -/
theorem remove_below {ω : Type} (represents : tree.Represents forest) (found : forest.locate index = some spot)
    (start : inIndex.toNat = index + 1) {current : CPtrTree α} (count : current.mTreeCount = tree.mTreeCount)
    (capacity : current.items.length = current.mMaxCount.toNat) {front above spare : List (STreeItem α)}
    (block : current.mPtrTree = some (front ++ (above ++ (cells (spot.children.rows (spot.place.depth + 1)) ++
      (cells (spot.rest.rows spot.place.depth ++ spot.place.after 0) ++ spare)))))
    (ahead : front.length + above.length = index + 1) {left : Forest (Option α)}
    (rows : front ++ cells (spot.rest.rows spot.place.depth ++ spot.place.after 0) = cells (left.rows 0))
    (roots : current.mRootCount.toNat = left.roots) (fits : PtrForestFits left)
    (blocks : UMemory.Blocks (STreeItem α)) (answer : ω) :
    Agrees (do
      let nNextIndex ← current.skip (spot.place.depth + 1) (current.mTreeCount.toNat - inIndex.toNat) inIndex.toNat
      let tree ← current.closeGap front.length nNextIndex
      let removed := UInt32.ofNat nNextIndex - inIndex + UInt32.ofNat above.length
      return (answer, ({ tree with mTreeCount := tree.mTreeCount - removed } : CPtrTree α).shrink blocks))
      (answer, left) := by
  have size := size_spot found
  have small := represents.fits.size
  have items : current.items = (front ++ above) ++ (cells (spot.children.rows (spot.place.depth + 1)) ++
      (cells (spot.rest.rows spot.place.depth ++ spot.place.after 0) ++ spare)) := by
    rw [CPtrTree.items, block, List.append_assoc]
    rfl
  have next := skip_spot represents.fits found (by rw [List.length_append, ahead]) items
  have gap : (UInt32.ofNat (index + 1 + spot.children.size) - inIndex).toNat = spot.children.size :=
    toNat_gap represents (by rw [start]) (by omega)
  have gone : (above ++ cells (spot.children.rows (spot.place.depth + 1))).length =
      above.length + spot.children.size := by rw [List.length_append, length_cells, Forest.length_rows]
  have amount : (UInt32.ofNat (index + 1 + spot.children.size) - inIndex + UInt32.ofNat above.length).toNat =
      (above ++ cells (spot.children.rows (spot.place.depth + 1))).length := by
    rw [UInt32.toNat_add, gap, UInt32.toNat_ofNat_of_lt' (by show above.length < 2 ^ 32; omega), gone]
    omega
  rw [count, represents.count, start, next, Checked.value_bind]
  refine closeGap_shrink (by rw [block, List.append_assoc]) capacity rfl (by rw [gone]; omega) ?_ rows roots fits amount
    blocks answer
  rw [count, represents.count, size, length_cells]

theorem removeItem_all (represents : tree.Represents forest) (blocks : UMemory.Blocks (STreeItem α))
    (found : forest.locate index = some spot) (start : inIndex.toNat = index + 1) {nItemLevel : UInt32}
    (level : nItemLevel.toNat = spot.place.depth + 1) (fits : PtrForestFits (spot.place.plug spot.rest)) :
    Agrees (do
      let tree ← tree.countLess inIndex nItemLevel
      let nNextIndex ← tree.skip nItemLevel.toNat (tree.mTreeCount.toNat - inIndex.toNat) inIndex.toNat
      let tree ← tree.closeGap (inIndex.toNat - 1) nNextIndex
      let nTreeCount := tree.mTreeCount - (UInt32.ofNat nNextIndex - inIndex + 1)
      return (spot.item, ({ tree with mTreeCount := nTreeCount } : CPtrTree α).shrink blocks))
      (spot.item, spot.place.plug spot.rest) := by
  obtain ⟨spare, items⟩ := represents.items
  have split := items.trans (cells_spot found spare)
  obtain ⟨mRootCount, roots, counted⟩ := countLess_eq represents found (block_eq split) start level
  let front := cells (spot.place.before 0 spot.rest.roots)
  let smaller : CPtrTree α := { tree with
    mPtrTree := some (front ++ ([.ofRow spot.row] ++ (cells (spot.children.rows (spot.place.depth + 1)) ++
      (cells (spot.rest.rows spot.place.depth ++ spot.place.after 0) ++ spare)))), mRootCount }
  have length : front.length = index := by
    rw [length_cells, Forest.Place.length_before, (Forest.locate_eq_some found).2]
  have capacity : smaller.items.length = smaller.mMaxCount.toNat := by
    rw [← represents.capacity, split]
    simp only [smaller, front, CPtrTree.items, Option.getD_some, List.length_append, length_cells,
      Forest.Place.length_before, List.length_cons, List.length_nil]
    omega
  have rows : front ++ cells (spot.rest.rows spot.place.depth ++ spot.place.after 0) =
      cells ((spot.place.plug spot.rest).rows 0) := by
    rw [Forest.Place.rows_plug, Nat.zero_add]
    exact (cells_append _ _).symm
  have removed := remove_below represents found start (show smaller.mTreeCount = _ from rfl) capacity rfl
    (by rw [length]; rfl) rows (roots.trans (Forest.Place.roots_plug _ _).symm) fits blocks spot.item
  rw [length, start] at removed
  rw [counted, Checked.value_bind, level, start, Nat.add_sub_cancel]
  exact removed

end

/-! The first child in the place of its parent. -/

theorem raise_eq {front rest : List (STreeItem α)} {rows : List (Forest.Row (Option α))} {level left : Nat}
    (block : tree.mPtrTree = some (front ++ (cells (rows.map fun row => { row with level := row.level + 1 }) ++ rest)))
    (deeper : ∀ row ∈ rows, level ≤ row.level ∧ row.level + 1 ≤ 65535) (stops : Stops level left rest) :
    raise level (rows.length + left) front.length tree =
      .value { tree with mPtrTree := some (front ++ (cells rows ++ rest)) } := by
  induction rows generalizing front tree with
  | nil =>
    have same : tree = { tree with mPtrTree := some (front ++ ([] ++ rest)) } := by
      cases tree
      cases block
      rfl
    have split : tree.items = front ++ rest := by
      rw [items, block]
      rfl
    rcases stops with rfl | ⟨entry, others, rfl, shallow⟩
    · exact congrArg Checked.value same
    · cases left with
      | zero => exact congrArg Checked.value same
      | succ left =>
        rw [List.length_nil, Nat.zero_add, raise, item_eq split rfl, Checked.value_bind,
          if_neg (Nat.not_lt.mpr shallow)]
        exact congrArg Checked.value same
  | cons row rows ih =>
    have here := deeper row List.mem_cons_self
    let lower : Forest.Row (Option α) := { row with level := row.level + 1 }
    have deep : (STreeItem.ofRow lower).nItemLevel.toNat = row.level + 1 := toNat_level here.2
    have next : (row :: rows).length + left = rows.length + left + 1 := by
      rw [List.length_cons]
      omega
    have split : tree.items = front ++ STreeItem.ofRow lower ::
        (cells (rows.map fun row => { row with level := row.level + 1 }) ++ rest) := by
      rw [items, block]
      rfl
    have up : { STreeItem.ofRow lower with nItemLevel := (STreeItem.ofRow lower).nItemLevel - 1 } = .ofRow row := by
      rw [STreeItem.ofRow, STreeItem.ofRow, UInt16.ofNat_add]
      exact congrArg (fun level => STreeItem.mk level _ _) (UInt16.add_sub_cancel _ _)
    have shift : ({ tree with mPtrTree := some (front ++ STreeItem.ofRow row ::
        (cells (rows.map fun row => { row with level := row.level + 1 }) ++ rest)) } : CPtrTree α).mPtrTree =
        some ((front ++ [STreeItem.ofRow row]) ++
          (cells (rows.map fun row => { row with level := row.level + 1 }) ++ rest)) := by
      rw [List.append_assoc, List.singleton_append]
    have step := ih shift fun other inside => deeper other (List.mem_cons_of_mem _ inside)
    rw [List.length_append, List.length_singleton] at step
    rw [next, raise, item_eq split rfl, Checked.value_bind, deep, if_pos (Nat.lt_succ_of_le here.1), up,
      store_eq split rfl, Checked.value_bind, step, List.append_assoc, List.singleton_append]
    rfl

section
variable {spot : Forest.Spot (Option α)} {index : Nat} {inIndex : UInt32}

/-- What is below the first child comes up to the level of the other children. -/
theorem raise_below (represents : tree.Represents forest) (found : forest.locate index = some spot)
    {first : Option α} {below others : Forest (Option α)} (children : spot.children = .cons first below others)
    {spare : List (STreeItem α)} (items : tree.items = cells (forest.rows 0) ++ spare) :
    raise (spot.place.depth + 2) (forest.size - (index + 2)) (index + 2) tree = .value { tree with
      mPtrTree := some (cells (spot.place.before 0 (spot.rest.roots + 1)) ++ ([.ofRow spot.row] ++
        (.ofRow ⟨spot.place.depth + 2, below.roots, first⟩ :: cells ((below.append others).rows (spot.place.depth + 1) ++
          (spot.rest.rows spot.place.depth ++ spot.place.after 0)) ++ spare))) } := by
  have depth := level_spot represents.fits found
  simp only [children, Forest.height] at depth
  -- The array: what is in front up to the first child, what is below that, and what is behind.
  let front := cells (spot.place.before 0 (spot.rest.roots + 1)) ++
    [.ofRow spot.row, .ofRow ⟨spot.place.depth + 2, below.roots, first⟩]
  let behind := cells (others.rows (spot.place.depth + 1) ++
    (spot.rest.rows spot.place.depth ++ spot.place.after 0)) ++ spare
  have block : tree.mPtrTree = some (front ++
      (cells ((below.rows (spot.place.depth + 1)).map fun row => { row with level := row.level + 1 }) ++ behind)) := by
    rw [block_eq (items.trans (cells_spot found spare)), children, Forest.rows, ← Forest.rows_succ]
    simp only [front, behind, cells_append, cells_cons, List.append_assoc, List.cons_append, List.nil_append]
  have length : front.length = index + 2 := by
    rw [List.length_append, length_cells, Forest.Place.length_before, (Forest.locate_eq_some found).2]
    rfl
  have left : forest.size - (index + 2) = (below.rows (spot.place.depth + 1)).length +
      (others.rows (spot.place.depth + 1) ++ (spot.rest.rows spot.place.depth ++ spot.place.after 0)).length := by
    have size := size_spot found
    simp only [children, Forest.size] at size
    rw [Forest.length_rows, List.length_append, Forest.length_rows]
    omega
  have stops : Stops (spot.place.depth + 2) (others.rows (spot.place.depth + 1) ++
      (spot.rest.rows spot.place.depth ++ spot.place.after 0)).length behind := by
    have after := stops_after ((spot.place.extend spot.item spot.rest).extend first others) spare
    simpa only [Forest.Place.depth_extend, Forest.Place.after_extend, Nat.zero_add] using after
  have raised := raise_eq block (fun row inside => by
    have bounds := Forest.level_of_mem inside
    omega) stops
  rw [← left, length] at raised
  rw [raised]
  simp only [front, behind, Forest.rows_append, cells_append, List.append_assoc, List.cons_append, List.nil_append]

/-- The first child at its parent's level, with the other children counted among its own. -/
theorem promoted_entry {first : Option α} {below others : Forest (Option α)}
    (children : spot.children = .cons first below others) (child : STreeItem α)
    (entry : child = .ofRow ⟨spot.place.depth + 2, below.roots, first⟩) :
    { child with
        nItemLevel := (STreeItem.ofRow spot.row).nItemLevel
        nChildCount := child.nChildCount + ((STreeItem.ofRow spot.row).nChildCount - 1) } =
      STreeItem.ofRow ⟨spot.place.depth + 1, (below.append others).roots, first⟩ := by
  subst entry
  have less : (STreeItem.ofRow spot.row).nChildCount - 1 = UInt32.ofNat others.roots := by
    show UInt32.ofNat spot.children.roots - 1 = _
    rw [children, Forest.roots, ← ofNat_next, UInt32.add_sub_cancel]
  rw [less, Forest.roots_append]
  show STreeItem.mk _ (UInt32.ofNat below.roots + UInt32.ofNat others.roots) _ = _
  rw [← UInt32.ofNat_add]
  rfl

theorem removeItem_promote (represents : tree.Represents forest) (blocks : UMemory.Blocks (STreeItem α))
    (found : forest.locate index = some spot) (start : inIndex.toNat = index + 1) {first : Option α}
    {below others : Forest (Option α)} (children : spot.children = .cons first below others)
    (fits : PtrForestFits (spot.place.plug (.cons first (below.append others) spot.rest))) :
    let removed := STreeItem.ofRow spot.row
    Agrees (do
      let tree ← raise (removed.nItemLevel.toUInt32 + 1).toNat (tree.mTreeCount.toNat - (inIndex.toNat + 1))
        (inIndex.toNat + 1) tree
      let child ← tree.item inIndex.toNat
      let tree ← tree.store inIndex.toNat
        { child with nItemLevel := removed.nItemLevel, nChildCount := child.nChildCount + (removed.nChildCount - 1) }
      let tree ← tree.closeGap (inIndex.toNat - 1) inIndex.toNat
      return (removed.pItem, ({ tree with mTreeCount := tree.mTreeCount - 1 } : CPtrTree α).shrink blocks))
      (spot.item, spot.place.plug (.cons first (below.append others) spot.rest)) := by
  intro removed
  obtain ⟨whole, position⟩ := Forest.locate_eq_some found
  obtain ⟨spare, items⟩ := represents.items
  -- The array, with an entry for the first child: what is in front, the item, and what lies behind the two.
  let front := cells (spot.place.before 0 (spot.rest.roots + 1))
  let behind := cells ((below.append others).rows (spot.place.depth + 1) ++
    (spot.rest.rows spot.place.depth ++ spot.place.after 0))
  let block (child : STreeItem α) : CPtrTree α :=
    { tree with mPtrTree := some (front ++ ([removed] ++ (child :: behind ++ spare))) }
  let child : STreeItem α := .ofRow ⟨spot.place.depth + 2, below.roots, first⟩
  let promoted : STreeItem α := .ofRow ⟨spot.place.depth + 1, (below.append others).roots, first⟩
  have length : front.length = index := by rw [length_cells, Forest.Place.length_before, position]
  have one : (front ++ [removed]).length = index + 1 := by
    rw [List.length_append, length]
    rfl
  have split (entry : STreeItem α) : (block entry).items = (front ++ [removed]) ++ entry :: (behind ++ spare) := by
    rw [List.append_assoc]
    rfl
  have nChildLevel : (removed.nItemLevel.toUInt32 + 1).toNat = spot.place.depth + 2 := by
    have depth := level_spot represents.fits found
    simp only [children, Forest.height] at depth
    rw [UInt32.toNat_add, toNat_level_spot represents.fits found]
    exact Nat.mod_eq_of_lt (by simp; omega)
  have raised : raise (spot.place.depth + 2) (forest.size - (index + 1 + 1)) (index + 1 + 1) tree =
      .value (block child) := raise_below represents found children items
  have stored : (block child).store (index + 1) promoted = .value (block promoted) := by
    rw [store_eq (split child) one, List.append_assoc]
    rfl
  have size := size_spot found
  simp only [children, Forest.size, List.length_append, Forest.length_rows] at size
  have capacity : (block promoted).items.length = (block promoted).mMaxCount.toNat := by
    rw [← represents.capacity, split, items]
    simp only [behind, List.length_append, one, List.length_cons, length_cells, Forest.length_rows, Forest.size_append]
    omega
  have count : (block promoted).mTreeCount.toNat = index + 1 + (promoted :: behind).length := by
    show tree.mTreeCount.toNat = _
    rw [represents.count, size, List.length_cons, length_cells]
    simp only [List.length_append, Forest.length_rows, Forest.size_append]
    omega
  have rows : front ++ (promoted :: behind) =
      cells ((spot.place.plug (.cons first (below.append others) spot.rest)).rows 0) := by
    rw [Forest.Place.rows_plug, Nat.zero_add, Forest.roots, Forest.rows]
    simp only [front, promoted, behind, cells_append, cells_cons, List.append_assoc, List.cons_append]
  have roots : (block promoted).mRootCount.toNat =
      (spot.place.plug (.cons first (below.append others) spot.rest)).roots := by
    show tree.mRootCount.toNat = _
    rw [represents.rootCount, ← whole, Forest.Place.roots_plug, Forest.Place.roots_plug, Forest.roots, Forest.roots]
  have closed := closeGap_shrink (show (block promoted).mPtrTree = _ from rfl) capacity length rfl count rows roots fits
    (show (1 : UInt32).toNat = [removed].length from rfl) blocks removed.pItem
  rw [nChildLevel, start, represents.count, raised, Checked.value_bind, item_eq (split child) one, Checked.value_bind,
    promoted_entry children child rfl, stored, Checked.value_bind, Nat.add_sub_cancel]
  exact closed

end

theorem removeItem_agrees (represents : tree.Represents forest) (blocks : UMemory.Blocks (STreeItem α))
    (inIndex : UInt32) (inRemoveChild : Bool)
    (fits : PtrForestFits (PtrForest.removeItem inIndex inRemoveChild forest).2) :
    Agrees (tree.removeItem blocks inIndex inRemoveChild) (PtrForest.removeItem inIndex inRemoveChild forest) := by
  cases located : PtrForest.spot inIndex forest with
  | none =>
    rw [removeItem, if_pos ((outside_iff represents inIndex).mpr located), PtrForest.removeItem, located]
    exact ⟨tree, rfl, represents⟩
  | some spot =>
    obtain ⟨index, start, found, -⟩ := PtrForest.spot_eq_some located
    have inside : ¬ (inIndex = 0 ∨ tree.mTreeCount < inIndex) := by
      rw [outside_iff represents, located]
      exact Option.some_ne_none spot
    have level := toNat_level_spot represents.fits found
    have count := toNat_children represents.fits found
    have here : tree.item (inIndex.toNat - 1) = .value (.ofRow spot.row) := by
      rw [start, Nat.add_sub_cancel, item_spot represents found]
    rw [PtrForest.removeItem, located] at fits ⊢
    rw [removeItem, if_neg inside, here, Checked.value_bind]
    by_cases all : inRemoveChild = true ∨ (STreeItem.ofRow spot.row).nChildCount = 0
    · have same : (if inRemoveChild then spot.rest else PtrForest.promote spot.children spot.rest) = spot.rest := by
        rcases all with all | none
        · rw [if_pos all]
        · have childless : spot.children = .nil := by
            rw [none] at count
            exact Forest.roots_eq_zero.mp count.symm
          rw [childless]
          exact ite_self _
      simp only [same] at fits ⊢
      rw [if_pos all]
      exact removeItem_all represents blocks found start level fits
    · rw [if_neg all]
      obtain ⟨keep, some⟩ := not_or.mp all
      simp only [keep] at fits ⊢
      cases children : spot.children with
      | nil =>
        rw [children] at count
        exact absurd (UInt32.toNat_inj.mp count) some
      | cons first below others =>
        rw [children] at fits
        exact removeItem_promote represents blocks found start children fits

section
variable {spot : Forest.Spot (Option α)} {index : Nat} {inParentIndex : UInt32}

theorem removeChildTree_some (represents : tree.Represents forest) (blocks : UMemory.Blocks (STreeItem α))
    (found : forest.locate index = some spot) (start : inParentIndex.toNat = index + 1)
    (fits : PtrForestFits (spot.place.plug (.cons spot.item .nil spot.rest))) :
    let parent := STreeItem.ofRow spot.row
    Agrees (do
      let tree ← tree.store (inParentIndex.toNat - 1) { parent with nChildCount := 0 }
      let nNextIndex ← tree.skip parent.nItemLevel.toNat (tree.mTreeCount.toNat - inParentIndex.toNat)
        inParentIndex.toNat
      let tree ← tree.closeGap inParentIndex.toNat nNextIndex
      let nTreeCount := tree.mTreeCount - (UInt32.ofNat nNextIndex - inParentIndex)
      return (true, ({ tree with mTreeCount := nTreeCount } : CPtrTree α).shrink blocks))
      (true, spot.place.plug (.cons spot.item .nil spot.rest)) := by
  intro parent
  obtain ⟨whole, position⟩ := Forest.locate_eq_some found
  obtain ⟨spare, items⟩ := represents.items
  have split := items.trans (cells_spot found spare)
  have level : parent.nItemLevel.toNat = spot.place.depth + 1 :=
    toNat_level (Nat.le_trans (Nat.le_add_right _ _) (level_spot represents.fits found))
  let front := cells (spot.place.before 0 (spot.rest.roots + 1)) ++ [.ofRow ⟨spot.place.depth + 1, 0, spot.item⟩]
  let childless : CPtrTree α := { tree with
    mPtrTree := some (front ++ ([] ++ (cells (spot.children.rows (spot.place.depth + 1)) ++
      (cells (spot.rest.rows spot.place.depth ++ spot.place.after 0) ++ spare)))) }
  have length : front.length = index + 1 := by
    rw [List.length_append, length_cells, Forest.Place.length_before, position]
    rfl
  have stored : tree.store index { parent with nChildCount := 0 } = .value childless := by
    rw [store_eq split (by rw [length_cells, Forest.Place.length_before, position])]
    simp only [childless, front, List.append_assoc, List.singleton_append, List.nil_append]
    rfl
  have capacity : childless.items.length = childless.mMaxCount.toNat := by
    rw [← represents.capacity, split]
    simp only [childless, front, CPtrTree.items, Option.getD_some, List.length_append, List.length_cons, List.length_nil]
    omega
  have rows : front ++ cells (spot.rest.rows spot.place.depth ++ spot.place.after 0) =
      cells ((spot.place.plug (.cons spot.item .nil spot.rest)).rows 0) := by
    rw [Forest.Place.rows_plug, Nat.zero_add, Forest.roots, Forest.rows, Forest.rows, Forest.roots]
    simp only [front, cells_append, cells_cons, List.append_assoc, List.cons_append, List.nil_append]
  have roots : childless.mRootCount.toNat = (spot.place.plug (.cons spot.item .nil spot.rest)).roots := by
    rw [Forest.Place.roots_plug, Forest.roots]
    show tree.mRootCount.toNat = _
    rw [represents.rootCount, ← whole, Forest.Place.roots_plug, Forest.roots]
  have removed := remove_below represents found start (show childless.mTreeCount = _ from rfl) capacity rfl
    (by rw [length]; rfl) rows roots fits blocks true
  rw [length, start] at removed
  have none : UInt32.ofNat ([] : List (STreeItem α)).length = 0 := rfl
  simp only [none, UInt32.add_zero] at removed
  rw [start, Nat.add_sub_cancel, stored, Checked.value_bind, level]
  exact removed

end

theorem removeChildTree_agrees (represents : tree.Represents forest) (blocks : UMemory.Blocks (STreeItem α))
    (inParentIndex : UInt32) (fits : PtrForestFits (PtrForest.removeChildTree inParentIndex forest).2) :
    Agrees (tree.removeChildTree blocks inParentIndex) (PtrForest.removeChildTree inParentIndex forest) := by
  cases located : PtrForest.spot inParentIndex forest with
  | none =>
    rw [removeChildTree, if_pos ((outside_iff represents inParentIndex).mpr located), PtrForest.removeChildTree,
      located]
    exact ⟨tree, rfl, represents⟩
  | some spot =>
    obtain ⟨index, start, found, -⟩ := PtrForest.spot_eq_some located
    have inside : ¬ (inParentIndex = 0 ∨ tree.mTreeCount < inParentIndex) := by
      rw [outside_iff represents, located]
      exact Option.some_ne_none spot
    have count := toNat_children represents.fits found
    have here : tree.item (inParentIndex.toNat - 1) = .value (.ofRow spot.row) := by
      rw [start, Nat.add_sub_cancel, item_spot represents found]
    rw [PtrForest.removeChildTree, located] at fits ⊢
    rw [removeChildTree, if_neg inside, here, Checked.value_bind]
    by_cases none : (STreeItem.ofRow spot.row).nChildCount = 0
    · have childless : spot.children = .nil := by
        rw [none] at count
        exact Forest.roots_eq_zero.mp count.symm
      have same : spot.place.plug (.cons spot.item .nil spot.rest) = forest := by
        rw [← childless]
        exact (Forest.locate_eq_some found).1
      rw [if_pos none]
      simp only [same]
      exact ⟨tree, rfl, represents⟩
    · rw [if_neg none]
      exact removeChildTree_some represents blocks found start fits

end CPtrTree

end Slopline.Legacy
