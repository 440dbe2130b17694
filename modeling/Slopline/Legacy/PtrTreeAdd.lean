import Slopline.Legacy.PtrForest

/-! `AddItem` and `InsertItem` of the tree of pointers: one more tree among those below an item. -/

set_option autoImplicit false

namespace Slopline.Legacy

open Library

variable {α : Type}

namespace PtrForest

/-- What `AddItem` does to the forest. -/
def addItem (inParentIndex : UInt32) (inPtr : Option α) (forest : Forest (Option α)) : UInt32 × Forest (Option α) :=
  match forest.childrenOf inParentIndex.toNat with
  | some (place, children) =>
    if inPtr = none then (0, forest)
    else (UInt32.ofNat (inParentIndex.toNat + children.size + 1), place.plug (children.append (.leaf inPtr)))
  | none => (0, forest)

def insertItem (inParentIndex inIndex : UInt32) (inPtr : Option α) (forest : Forest (Option α)) :
    UInt32 × Forest (Option α) :=
  match forest.childrenOf inParentIndex.toNat with
  | some (place, children) =>
    if inPtr = none then (0, forest)
    else (UInt32.ofNat (inParentIndex.toNat + children.rowsBefore (inIndex.toNat - 1) + 1),
      place.plug (children.insert (inIndex.toNat - 1) inPtr))
  | none => (0, forest)

end PtrForest

namespace CPtrTree

variable {tree : CPtrTree α} {forest : Forest (Option α)}

/-! Room for one more. -/

theorem exists_spare {β : Type} {entries block : List β} (starts : entries <+: block)
    (longer : entries.length < block.length) : ∃ spare entry, block = entries ++ entry :: spare := by
  obtain ⟨rest, rfl⟩ := starts
  cases rest with
  | nil => simp at longer
  | cons entry spare => exact ⟨spare, entry, rfl⟩

theorem grow_eq (represents : tree.Represents forest) (blocks : UMemory.Blocks (STreeItem α)) :
    ∃ (block : List (STreeItem α)) (maxCount : UInt32),
      tree.grow blocks = { tree with mPtrTree := some block, mMaxCount := maxCount } ∧ block.length = maxCount.toNat ∧
      ∃ spare entry, block = cells (forest.rows 0) ++ entry :: spare := by
  by_cases full : tree.mMaxCount ≤ tree.mTreeCount
  · obtain ⟨block, grown, length, starts, longer⟩ := reallocate_eq represents blocks
    refine ⟨block, _, ?_, length, exists_spare starts ?_⟩
    · rw [grow, if_pos full, grown]
    · rwa [length_cells, Forest.length_rows]
  · obtain ⟨spare, split⟩ := represents.items
    have space := UInt32.lt_iff_toNat_lt.mp (UInt32.not_le.mp full)
    rw [represents.count, ← represents.capacity] at space
    cases tree with
    | mk mPtrTree mTreeCount mRootCount mMaxCount =>
      cases mPtrTree with
      | none => exact absurd space (Nat.not_lt_zero _)
      | some block =>
        refine ⟨block, mMaxCount, if_neg full, represents.capacity, exists_spare ⟨spare, split.symm⟩ ?_⟩
        rwa [length_cells, Forest.length_rows]

section
variable {place : Forest.Place (Option α)} {children more : Forest (Option α)} {index offset : Nat} {inPtr : Option α}

structure OneMore (children more : Forest (Option α)) (offset : Nat) (inPtr : Option α) : Prop where
  inside : offset ≤ children.size
  roots : more.roots = children.roots + 1
  rows : ∀ depth, more.rows depth =
    (children.rows depth).take offset ++ ⟨depth + 1, 0, inPtr⟩ :: (children.rows depth).drop offset

theorem oneMore_insert (children : Forest (Option α)) (position : Nat) (inPtr : Option α) :
    OneMore children (children.insert position inPtr) (children.rowsBefore position) inPtr where
  inside := Forest.rowsBefore_le position children
  roots := Forest.roots_insert position inPtr children
  rows depth := Forest.rows_insert depth position inPtr children

theorem oneMore_append (children : Forest (Option α)) (inPtr : Option α) :
    OneMore children (children.append (.leaf inPtr)) children.size inPtr where
  inside := Nat.le_refl _
  roots := Forest.roots_append _ _
  rows depth := by
    have all : children.size = (children.rows depth).length := (Forest.length_rows _ _).symm
    rw [Forest.rows_append, all, List.take_length, List.drop_length]
    rfl

theorem OneMore.size (added : OneMore children more offset inPtr) : more.size = children.size + 1 := by
  have inside := added.inside
  have length := congrArg List.length (added.rows 0)
  simp only [Forest.length_rows, List.length_append, List.length_take, List.length_cons, List.length_drop] at length
  omega

theorem spread_put_eq (found : forest.childrenOf index = some (place, children))
    (added : OneMore children more offset inPtr) {entry : STreeItem α} {spare : List (STreeItem α)}
    (split : tree.items = cells (place.before 0 (children.roots + 1)) ++
      (cells (children.rows place.depth) ++ (cells (place.after 0) ++ entry :: spare)))
    (count : tree.mTreeCount.toNat = forest.size) :
    (do let tree ← tree.spread (index + offset)
        tree.put (index + offset) (UInt16.ofNat place.depth) inPtr : Checked Empty (UInt32 × CPtrTree α)) =
      .value (UInt32.ofNat (index + offset) + 1, { tree with
        mPtrTree := some (cells ((place.plug more).rows 0) ++ spare), mTreeCount := tree.mTreeCount + 1 }) := by
  have inside := added.inside
  have length := (Forest.childrenOf_eq_some found).2.1
  have parts : tree.items = (cells (place.before 0 (children.roots + 1)) ++
      cells ((children.rows place.depth).take offset)) ++
      (cells ((children.rows place.depth).drop offset ++ place.after 0) ++ entry :: spare) := by
    conv_lhs => rw [split, ← List.take_append_drop offset (children.rows place.depth)]
    simp only [cells_append, List.append_assoc]
  have front : (cells (place.before 0 (children.roots + 1)) ++
      cells ((children.rows place.depth).take offset)).length = index + offset := by
    rw [List.length_append, length_cells, length_cells, Forest.Place.length_before, length, List.length_take,
      Forest.length_rows, Nat.min_eq_left inside]
  have behind : tree.mTreeCount.toNat = (cells (place.before 0 (children.roots + 1)) ++
      cells ((children.rows place.depth).take offset)).length +
      (cells ((children.rows place.depth).drop offset ++ place.after 0)).length := by
    rw [front, length_cells, List.length_append, List.length_drop, Forest.length_rows, count, size_below found]
    omega
  have whole : cells ((place.plug more).rows 0) ++ spare = (cells (place.before 0 (children.roots + 1)) ++
      cells ((children.rows place.depth).take offset)) ++
      { nItemLevel := UInt16.ofNat place.depth + 1, nChildCount := 0, pItem := inPtr } ::
        (cells ((children.rows place.depth).drop offset ++ place.after 0) ++ spare) := by
    have entry : STreeItem.ofRow ⟨place.depth + 1, 0, inPtr⟩ =
        { nItemLevel := UInt16.ofNat place.depth + 1, nChildCount := 0, pItem := inPtr } := by
      rw [STreeItem.ofRow, UInt16.ofNat_add]
      rfl
    rw [Forest.Place.rows_plug, Nat.zero_add, added.rows, added.roots, ← entry]
    simp only [cells_append, cells_cons, List.append_assoc, List.cons_append]
  rw [spread_put inPtr (UInt16.ofNat place.depth) parts front behind, whole]

theorem represents_more (represents : tree.Represents forest)
    (found : forest.childrenOf index = some (place, children)) (added : OneMore children more offset inPtr)
    (fits : PtrForestFits (place.plug more)) {block spare : List (STreeItem α)} {mRootCount maxCount : UInt32}
    {entry : STreeItem α} (room : (cells (forest.rows 0) ++ entry :: spare).length = maxCount.toNat)
    (split : block = cells ((place.plug more).rows 0) ++ spare)
    (rootCount : mRootCount.toNat = place.roots (children.roots + 1)) :
    Represents { mPtrTree := some block, mTreeCount := tree.mTreeCount + 1, mRootCount, mMaxCount := maxCount }
      (place.plug more) := by
  have small := represents.fits.size
  have size : (place.plug more).size = forest.size + 1 := by
    obtain ⟨whole, length, -⟩ := Forest.childrenOf_eq_some found
    have rows := congrArg List.length (Forest.Place.rows_plug 0 place more)
    simp only [Forest.length_rows, List.length_append, Forest.Place.length_before, length, added.size] at rows
    have before := size_below found
    omega
  constructor
  · rw [size, UInt32.toNat_add, represents.count]
    exact Nat.mod_eq_of_lt (by simp; omega)
  · rw [rootCount, Forest.Place.roots_plug, added.roots]
  · rw [← room]
    simp only [CPtrTree.items, Option.getD_some, split, List.length_append, List.length_cons, length_cells,
      Forest.length_rows, size]
    omega
  · exact ⟨spare, split⟩
  · exact fits

theorem bump_eq {above : Nat} (found : forest.childrenOf (above + 1) = some (place, children))
    {tail : List (STreeItem α)} (split : tree.items = cells (place.before 0 children.roots) ++ tail) :
    ∃ parent, tree.item above = .value parent ∧ parent.nItemLevel = UInt16.ofNat place.depth ∧
      tree.store above { parent with nChildCount := parent.nChildCount + 1 } =
        .value { tree with mPtrTree := some (cells (place.before 0 (children.roots + 1)) ++ tail) } := by
  obtain ⟨item, here, stored⟩ := item_above found split
  refine ⟨_, here, rfl, ?_⟩
  have more : { STreeItem.ofRow ⟨place.depth, children.roots, item⟩ with
      nChildCount := (STreeItem.ofRow ⟨place.depth, children.roots, item⟩).nChildCount + 1 } =
      STreeItem.ofRow ⟨place.depth, children.roots + 1, item⟩ := by
    rw [STreeItem.ofRow, STreeItem.ofRow, UInt32.ofNat_add]
    rfl
  rw [more, stored]

end

section
variable {place : Forest.Place (Option α)} {children : Forest (Option α)} {block spare : List (STreeItem α)}
  {maxCount : UInt32} {entry : STreeItem α}

theorem beyond_iff (represents : tree.Represents forest) (inParentIndex : UInt32) :
    tree.mTreeCount < inParentIndex ↔ forest.childrenOf inParentIndex.toNat = none := by
  rw [UInt32.lt_iff_toNat_lt, represents.count]
  exact Forest.childrenOf_eq_none.symm

theorem toNat_depth {index : Nat} (fits : PtrForestFits forest)
    (found : forest.childrenOf index = some (place, children)) :
    (UInt16.ofNat place.depth).toNat = place.depth :=
  UInt16.toNat_ofNat_of_lt' (Nat.lt_succ_of_le (Nat.le_trans (Nat.le_add_right _ _) (levels_below fits found)))

/-- Below an item, once there is room. -/
theorem addItem_below (represents : tree.Represents forest) {inParentIndex : UInt32} (inside : inParentIndex ≠ 0)
    (found : forest.childrenOf inParentIndex.toNat = some (place, children)) (capacity : block.length = maxCount.toNat)
    (split : block = cells (forest.rows 0) ++ entry :: spare) (inPtr : Option α)
    (fits : PtrForestFits (place.plug (children.append (.leaf inPtr)))) :
    let grown : CPtrTree α := { tree with mPtrTree := some block, mMaxCount := maxCount }
    Agrees (do
      let parent ← grown.item (inParentIndex.toNat - 1)
      let tree ← grown.store (inParentIndex.toNat - 1) { parent with nChildCount := parent.nChildCount + 1 }
      let nIndex ← tree.skip parent.nItemLevel.toNat (tree.mTreeCount.toNat - inParentIndex.toNat) inParentIndex.toNat
      let tree ← tree.spread nIndex
      tree.put nIndex parent.nItemLevel inPtr)
      (UInt32.ofNat (inParentIndex.toNat + children.size + 1), place.plug (children.append (.leaf inPtr))) := by
  intro grown
  obtain ⟨above, next⟩ : ∃ above, inParentIndex.toNat = above + 1 :=
    Nat.exists_eq_succ_of_ne_zero fun zero => inside (UInt32.toNat_inj.mp zero)
  rw [next] at found ⊢
  have items : grown.items = cells (place.before 0 children.roots) ++
      (cells (children.rows place.depth) ++ (cells (place.after 0) ++ entry :: spare)) :=
    split.trans (cells_below found _)
  obtain ⟨parent, here, level, stored⟩ := bump_eq found items
  obtain ⟨-, length, -, -, parentOf⟩ := Forest.childrenOf_eq_some found
  have depth := toNat_depth represents.fits found
  have front : (cells (place.before 0 (children.roots + 1))).length = above + 1 := by
    rw [length_cells, Forest.Place.length_before, length]
  let bumped : CPtrTree α := { grown with mPtrTree := some (cells (place.before 0 (children.roots + 1)) ++
    (cells (children.rows place.depth) ++ (cells (place.after 0) ++ entry :: spare))) }
  have bump : grown.store above { parent with nChildCount := parent.nChildCount + 1 } = .value bumped := stored
  have ending := skip_below represents.fits found front (show bumped.items = _ from rfl)
  have added := oneMore_append children inPtr
  have filled := spread_put_eq found added (show bumped.items = _ from rfl) represents.count
  have count : bumped.mTreeCount.toNat = forest.size := represents.count
  have rootCount : tree.mRootCount.toNat = place.roots (children.roots + 1) := by
    rw [represents.rootCount, ← (Forest.childrenOf_eq_some found).1, Forest.Place.roots_plug]
    exact Forest.Place.roots_fixed (parentOf above rfl) _ _
  refine ⟨_, ?_, represents_more represents found added fits (split ▸ capacity) rfl rootCount⟩
  rw [Nat.add_sub_cancel, here, Checked.value_bind, bump, Checked.value_bind, level, depth, count, ending,
    Checked.value_bind, filled, ofNat_next]

end

theorem toNat_root_succ (represents : tree.Represents forest) :
    (tree.mRootCount + 1).toNat = forest.roots + 1 := by
  have few := forest.roots_le_size
  have small := represents.fits.size
  rw [UInt32.toNat_add, represents.rootCount]
  exact Nat.mod_eq_of_lt (by simp; omega)

theorem addItem_root (represents : tree.Represents forest) {block spare : List (STreeItem α)} {maxCount : UInt32}
    {entry : STreeItem α} (capacity : block.length = maxCount.toNat)
    (split : block = cells (forest.rows 0) ++ entry :: spare) (inPtr : Option α)
    (fits : PtrForestFits (forest.append (.leaf inPtr))) :
    Agrees (({ tree with mPtrTree := some block, mMaxCount := maxCount, mRootCount := tree.mRootCount + 1 } :
        CPtrTree α).put tree.mTreeCount.toNat 0 inPtr)
      (UInt32.ofNat (forest.size + 1), forest.append (.leaf inPtr)) := by
  let counted : CPtrTree α :=
    { tree with mPtrTree := some block, mMaxCount := maxCount, mRootCount := tree.mRootCount + 1 }
  let top : Forest.Place (Option α) := .among .nil
  have found : forest.childrenOf 0 = some (top, forest) := rfl
  have added := oneMore_append forest inPtr
  have items : counted.items = cells (top.before 0 (forest.roots + 1)) ++
      (cells (forest.rows top.depth) ++ (cells (top.after 0) ++ entry :: spare)) := split
  have filled := spread_put_eq found added items represents.count
  have last : 0 + forest.size = counted.mTreeCount.toNat := by
    rw [Nat.zero_add]
    exact represents.count.symm
  rw [spread, if_pos last, Checked.pure_eq, Checked.value_bind, Nat.zero_add] at filled
  have roots : (tree.mRootCount + 1).toNat = top.roots (forest.roots + 1) :=
    (toNat_root_succ represents).trans (Nat.zero_add _).symm
  refine ⟨_, ?_, represents_more represents found added fits (split ▸ capacity) rfl roots⟩
  rw [represents.count, ← ofNat_next]
  exact filled

theorem empty_of_none (represents : tree.Represents forest) (block : tree.mPtrTree = none) :
    forest = .nil ∧ ∀ index ≤ tree.mTreeCount, index = 0 := by
  obtain ⟨spare, split⟩ := represents.items
  rw [items, block, Option.getD_none] at split
  have rows := congrArg List.length split
  rw [List.length_nil, List.length_append, length_cells, Forest.length_rows] at rows
  have none : forest.size = 0 := Nat.eq_zero_of_add_eq_zero_right rows.symm
  refine ⟨Forest.size_eq_zero.mp none, fun index inside => ?_⟩
  rw [UInt32.le_iff_toNat_le, represents.count, none] at inside
  exact UInt32.toNat_inj.mp (Nat.le_zero.mp inside)

theorem addItem_agrees (represents : tree.Represents forest) (blocks : UMemory.Blocks (STreeItem α))
    (inParentIndex : UInt32) (inPtr : Option α)
    (fits : PtrForestFits (PtrForest.addItem inParentIndex inPtr forest).2) :
    Agrees (tree.addItem blocks inParentIndex inPtr) (PtrForest.addItem inParentIndex inPtr forest) := by
  cases found : forest.childrenOf inParentIndex.toNat with
  | none =>
    rw [PtrForest.addItem, found, addItem, if_pos (.inl ((beyond_iff represents _).mpr found))]
    exact ⟨tree, rfl, represents⟩
  | some below =>
    obtain ⟨place, children⟩ := below
    have inside : ¬ tree.mTreeCount < inParentIndex := by simp [beyond_iff represents, found]
    rw [PtrForest.addItem, found] at fits ⊢
    by_cases none : inPtr = none
    · rw [addItem, if_pos (.inr none)]
      simp only [none, if_true]
      exact ⟨tree, rfl, represents⟩
    simp only [none, if_false] at fits ⊢
    rw [addItem, if_neg (not_or.mpr ⟨inside, none⟩)]
    cases block : tree.mPtrTree with
    | some old =>
      obtain ⟨block, maxCount, grown, capacity, spare, entry, split⟩ := grow_eq represents blocks
      simp only [Option.isSome_some, if_true, grown]
      by_cases root : inParentIndex = 0
      · subst root
        cases found
        simp only [ne_eq, not_true_eq_false, if_false]
        have zero : (0 : UInt32).toNat + forest.size + 1 = forest.size + 1 := by
          rw [UInt32.toNat_zero, Nat.zero_add]
        rw [zero]
        exact addItem_root represents capacity split inPtr fits
      · simp only [ne_eq, root, not_false_eq_true, if_true]
        exact addItem_below represents root found capacity split inPtr fits
    | none =>
      obtain ⟨rfl, root⟩ := empty_of_none represents block
      have first := root _ (UInt32.not_lt.mp inside)
      subst first
      cases found
      have capacity : (blocks.new (room 8)).length = (8 : UInt32).toNat := blocks.length_new _
      obtain ⟨entry, spare, new⟩ := List.exists_cons_of_length_pos (l := blocks.new (room 8)) (capacity ▸ by decide)
      have split : blocks.new (room 8) = cells ((.nil : Forest (Option α)).rows 0) ++ entry :: spare := new
      have added := addItem_root represents capacity split inPtr fits
      rw [represents.count] at added
      exact added

/-! Before a given child. -/

section
variable {front rest : List (STreeItem α)} {level left : Nat} {inIndex nCount : UInt32}

theorem skipChildren_deep {rows : List (Forest.Row (Option α))} (split : tree.items = front ++ (cells rows ++ rest))
    (deep : ∀ row ∈ rows, level + 1 < row.level ∧ row.level ≤ 65535) :
    tree.skipChildren level inIndex (rows.length + left) nCount front.length =
      tree.skipChildren level inIndex left nCount (front.length + rows.length) := by
  induction rows generalizing front with
  | nil => rw [List.length_nil, Nat.zero_add, Nat.add_zero]
  | cons row rows ih =>
    have here := deep row List.mem_cons_self
    have next : (row :: rows).length + left = rows.length + left + 1 := by
      rw [List.length_cons]
      omega
    have shift : tree.items = (front ++ [STreeItem.ofRow row]) ++ (cells rows ++ rest) := by
      rw [split, cells_cons, List.append_assoc, List.cons_append, List.singleton_append]
    have step := ih shift fun other inside => deep other (List.mem_cons_of_mem _ inside)
    rw [List.length_append, List.length_singleton] at step
    rw [next, skipChildren, item_eq split rfl, Checked.value_bind, toNat_level here.2,
      if_pos (by omega), if_neg (by omega), step, List.length_cons]
    congr 1
    omega

theorem skipChildren_eq {children : Forest (Option α)}
    (split : tree.items = front ++ (cells (children.rows level) ++ rest)) (small : level + children.height ≤ 65535)
    (few : nCount.toNat + children.roots < 2 ^ 32) (stops : Stops level left rest) :
    tree.skipChildren level inIndex (children.size + left) nCount front.length =
      .value (front.length + children.rowsBefore (inIndex.toNat - 1 - nCount.toNat)) := by
  induction children generalizing front nCount with
  | nil =>
    rcases stops with rfl | ⟨entry, others, rfl, shallow⟩
    · rfl
    · cases left with
      | zero => rfl
      | succ left =>
        rw [Forest.size, Nat.zero_add, skipChildren, item_eq split rfl, Checked.value_bind,
          if_neg (Nat.not_lt.mpr shallow)]
        rfl
  | cons item below others _ ih =>
    simp only [Forest.height] at small
    simp only [Forest.roots] at few
    have next : (nCount + 1).toNat = nCount.toNat + 1 := by
      rw [UInt32.toNat_add]
      exact Nat.mod_eq_of_lt (by simp; omega)
    have length : (Forest.cons item below others).size + left = below.size + (others.size + left) + 1 := by
      rw [Forest.size]
      omega
    rw [Forest.rows, cells_cons, cells_append, List.cons_append, List.append_assoc] at split
    have within : level + 1 ≤ 65535 := by omega
    have here : (STreeItem.ofRow ⟨level + 1, below.roots, item⟩).nItemLevel.toNat = level + 1 := toNat_level within
    rw [length, skipChildren, item_eq split rfl, Checked.value_bind, here, if_pos (Nat.lt_succ_self level), if_pos rfl]
    by_cases reached : inIndex ≤ nCount + 1
    · have first : inIndex.toNat - 1 - nCount.toNat = 0 := by
        rw [UInt32.le_iff_toNat_le, next] at reached
        omega
      rw [if_pos reached, first]
      rfl
    · obtain ⟨position, further⟩ : ∃ position, inIndex.toNat - 1 - nCount.toNat = position + 1 := by
        rw [UInt32.le_iff_toNat_le, next] at reached
        exact ⟨inIndex.toNat - 1 - nCount.toNat - 1, by omega⟩
      have passed : tree.items = (front ++ [STreeItem.ofRow ⟨level + 1, below.roots, item⟩]) ++
          (cells (below.rows (level + 1)) ++ (cells (others.rows level) ++ rest)) := by
        rw [split, List.append_assoc, List.singleton_append]
      have deep : ∀ row ∈ below.rows (level + 1), level + 1 < row.level ∧ row.level ≤ 65535 := by
        intro row inside
        have bounds := Forest.level_of_mem inside
        omega
      have after : tree.items = (front ++ STreeItem.ofRow ⟨level + 1, below.roots, item⟩ ::
          cells (below.rows (level + 1))) ++ (cells (others.rows level) ++ rest) := by
        rw [split, List.append_assoc, List.cons_append]
      have past : tree.skipChildren level inIndex ((below.rows (level + 1)).length + (others.size + left))
          (nCount + 1) _ = _ := skipChildren_deep passed deep
      have count : (nCount + 1).toNat + others.roots < 2 ^ 32 := by omega
      have others := ih after (by omega) count
      rw [Forest.length_rows, List.length_append, List.length_singleton] at past
      rw [List.length_append, List.length_cons, length_cells, Forest.length_rows, next] at others
      rw [if_neg reached, past, further, Forest.rowsBefore, Nat.add_right_comm, Nat.add_assoc front.length, others]
      have behind : inIndex.toNat - 1 - (nCount.toNat + 1) = position := by omega
      rw [behind]
      congr 1
      omega

end

theorem countMore_eq {index : UInt32} {place : Forest.Place (Option α)} {children : Forest (Option α)}
    (represents : tree.Represents forest) (found : forest.childrenOf index.toNat = some (place, children))
    {block tail : List (STreeItem α)} {maxCount : UInt32}
    (split : block = cells (place.before 0 children.roots) ++ tail) :
    let grown : CPtrTree α := { tree with mPtrTree := some block, mMaxCount := maxCount }
    ∃ mRootCount : UInt32, mRootCount.toNat = place.roots (children.roots + 1) ∧
      grown.countMore index = .value (UInt16.ofNat place.depth, { grown with
        mPtrTree := some (cells (place.before 0 (children.roots + 1)) ++ tail), mRootCount }) := by
  intro grown
  by_cases root : index = 0
  · subst root split
    cases found
    exact ⟨tree.mRootCount + 1, (toNat_root_succ represents).trans (Nat.zero_add _).symm, rfl⟩
  · obtain ⟨above, next⟩ : ∃ above, index.toNat = above + 1 :=
      Nat.exists_eq_succ_of_ne_zero fun zero => root (UInt32.toNat_inj.mp zero)
    rw [next] at found
    obtain ⟨whole, -, -, -, parentOf⟩ := Forest.childrenOf_eq_some found
    obtain ⟨parent, here, level, stored⟩ := bump_eq found (show grown.items = _ from split)
    refine ⟨tree.mRootCount, ?_, ?_⟩
    · rw [represents.rootCount, ← whole, Forest.Place.roots_plug]
      exact Forest.Place.roots_fixed (parentOf above rfl) _ _
    · rw [countMore, if_pos root, next, Nat.add_sub_cancel, here, Checked.value_bind, stored, Checked.value_bind, level]
      rfl

section
variable {place : Forest.Place (Option α)} {children : Forest (Option α)} {block spare : List (STreeItem α)}
  {maxCount inParentIndex : UInt32} {entry : STreeItem α}

/-- The loop of `InsertItem` over what is below an item. -/
theorem skipChildren_below (represents : tree.Represents forest)
    (found : forest.childrenOf inParentIndex.toNat = some (place, children)) {bumped : CPtrTree α}
    (split : bumped.items = cells (place.before 0 (children.roots + 1)) ++
      (cells (children.rows place.depth) ++ (cells (place.after 0) ++ spare))) (inIndex : UInt32) :
    bumped.skipChildren place.depth inIndex (forest.size - inParentIndex.toNat) 0 inParentIndex.toNat =
      .value (inParentIndex.toNat + children.rowsBefore (inIndex.toNat - 1)) := by
  have size := size_below found
  have left : forest.size - inParentIndex.toNat = children.size + (place.after 0).length := by omega
  have few : (0 : UInt32).toNat + children.roots < 2 ^ 32 := by
    have roots := children.roots_le_size
    have small := represents.fits.size
    rw [UInt32.toNat_zero]
    omega
  have front : (cells (place.before 0 (children.roots + 1))).length = inParentIndex.toNat := by
    rw [length_cells, Forest.Place.length_before, (Forest.childrenOf_eq_some found).2.1]
  have passed : bumped.skipChildren place.depth inIndex _ 0 _ = _ :=
    skipChildren_eq split (levels_below represents.fits found) few (stops_after place spare)
  rwa [front, UInt32.toNat_zero, Nat.sub_zero, ← left] at passed

/-- Among the children of an item, or among the roots, once there is room. -/
theorem insertItem_below (represents : tree.Represents forest)
    (found : forest.childrenOf inParentIndex.toNat = some (place, children)) (capacity : block.length = maxCount.toNat)
    (split : block = cells (forest.rows 0) ++ entry :: spare) (inIndex : UInt32) (inPtr : Option α)
    (fits : PtrForestFits (place.plug (children.insert (inIndex.toNat - 1) inPtr))) :
    let grown : CPtrTree α := { tree with mPtrTree := some block, mMaxCount := maxCount }
    Agrees (do
      let (nParentLevel, tree) ← grown.countMore inParentIndex
      let nIndex ← tree.skipChildren nParentLevel.toNat inIndex (tree.mTreeCount.toNat - inParentIndex.toNat) 0
        inParentIndex.toNat
      let tree ← tree.spread nIndex
      tree.put nIndex nParentLevel inPtr)
      (UInt32.ofNat (inParentIndex.toNat + children.rowsBefore (inIndex.toNat - 1) + 1),
        place.plug (children.insert (inIndex.toNat - 1) inPtr)) := by
  intro grown
  obtain ⟨mRootCount, roots, counted⟩ := countMore_eq represents found (split.trans (cells_below found _))
  let bumped : CPtrTree α := { tree with
    mPtrTree := some (cells (place.before 0 (children.roots + 1)) ++
      (cells (children.rows place.depth) ++ (cells (place.after 0) ++ entry :: spare))), mRootCount,
    mMaxCount := maxCount }
  have count : bumped.mTreeCount.toNat = forest.size := represents.count
  have passed := skipChildren_below represents found (show bumped.items = _ from rfl) inIndex
  have added := oneMore_insert children (inIndex.toNat - 1) inPtr
  have filled := spread_put_eq found added (show bumped.items = _ from rfl) count
  refine ⟨_, ?_, represents_more represents found added fits (split ▸ capacity) rfl roots⟩
  rw [counted, Checked.value_bind]
  calc (do
        let nIndex ← bumped.skipChildren (UInt16.ofNat place.depth).toNat inIndex
          (bumped.mTreeCount.toNat - inParentIndex.toNat) 0 inParentIndex.toNat
        let tree ← bumped.spread nIndex
        tree.put nIndex (UInt16.ofNat place.depth) inPtr : Checked Empty (UInt32 × CPtrTree α))
      = _ := by
        rw [toNat_depth represents.fits found, count, passed, Checked.value_bind, filled, ofNat_next]

end

theorem insertItem_agrees (represents : tree.Represents forest) (blocks : UMemory.Blocks (STreeItem α))
    (inParentIndex inIndex : UInt32) (inPtr : Option α)
    (fits : PtrForestFits (PtrForest.insertItem inParentIndex inIndex inPtr forest).2) :
    Agrees (tree.insertItem blocks inParentIndex inIndex inPtr)
      (PtrForest.insertItem inParentIndex inIndex inPtr forest) := by
  cases found : forest.childrenOf inParentIndex.toNat with
  | none =>
    rw [PtrForest.insertItem, found, insertItem, if_pos (.inl ((beyond_iff represents _).mpr found))]
    exact ⟨tree, rfl, represents⟩
  | some below =>
    obtain ⟨place, children⟩ := below
    have inside : ¬ tree.mTreeCount < inParentIndex := by simp [beyond_iff represents, found]
    rw [PtrForest.insertItem, found] at fits ⊢
    by_cases none : inPtr = none
    · rw [insertItem, if_pos (.inr none)]
      simp only [none, if_true]
      exact ⟨tree, rfl, represents⟩
    simp only [none, if_false] at fits ⊢
    rw [insertItem, if_neg (not_or.mpr ⟨inside, none⟩)]
    cases block : tree.mPtrTree with
    | some old =>
      obtain ⟨block, maxCount, grown, capacity, spare, entry, split⟩ := grow_eq represents blocks
      simp only [Option.isNone_some, Bool.false_eq_true, if_false, grown]
      exact insertItem_below represents found capacity split inIndex inPtr fits
    | none =>
      obtain ⟨rfl, root⟩ := empty_of_none represents block
      have first := root _ (UInt32.not_lt.mp inside)
      subst first
      cases found
      have added := addItem_agrees represents blocks 0 inPtr
      simp only [PtrForest.addItem, UInt32.toNat_zero, Forest.childrenOf, none, if_false] at added
      exact added fits

end CPtrTree

end Slopline.Legacy
