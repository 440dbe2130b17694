import Mathlib.Data.List.Induction
import Slopline.Library.Forest
import Slopline.Legacy.PtrTree

/-! The forest in the array of a tree of pointers, and what the loops over the array find in it. -/

set_option autoImplicit false

namespace Slopline.Legacy

open Library

variable {α : Type}

def STreeItem.ofRow (row : Forest.Row (Option α)) : STreeItem α :=
  { nItemLevel := UInt16.ofNat row.level, nChildCount := UInt32.ofNat row.children, pItem := row.item }

def cells (rows : List (Forest.Row (Option α))) : List (STreeItem α) := rows.map STreeItem.ofRow

@[simp] theorem cells_nil : cells ([] : List (Forest.Row (Option α))) = [] := rfl

@[simp] theorem cells_cons (row : Forest.Row (Option α)) (rows : List (Forest.Row (Option α))) :
    cells (row :: rows) = .ofRow row :: cells rows := rfl

@[simp] theorem cells_append (rows others : List (Forest.Row (Option α))) :
    cells (rows ++ others) = cells rows ++ cells others := List.map_append

@[simp] theorem length_cells (rows : List (Forest.Row (Option α))) : (cells rows).length = rows.length :=
  List.length_map _

/-- The levels fit into their 16 bits, and the size of the array in bytes into its 32 bits. -/
structure PtrForestFits (forest : Forest (Option α)) : Prop where
  height : forest.height ≤ 65535
  size : (forest.size + 15) * 12 < 2 ^ 32

namespace CPtrTree

structure Represents (tree : CPtrTree α) (forest : Forest (Option α)) : Prop where
  count : tree.mTreeCount.toNat = forest.size
  rootCount : tree.mRootCount.toNat = forest.roots
  capacity : tree.items.length = tree.mMaxCount.toNat
  items : ∃ spare, tree.items = cells (forest.rows 0) ++ spare
  fits : PtrForestFits forest

variable {tree : CPtrTree α} {forest : Forest (Option α)}

theorem represents_new : Represents ({} : CPtrTree α) .nil :=
  { count := rfl
    rootCount := rfl
    capacity := rfl
    items := ⟨[], rfl⟩
    fits := { height := Nat.zero_le _, size := by simp [Forest.size] } }

/-- What is asked of an operation: the answer of the forest, and an array for the forest that is left. -/
def Agrees {ω : Type} (outcome : Checked Empty (ω × CPtrTree α)) (expected : ω × Forest (Option α)) : Prop :=
  ∃ next, outcome = .value (expected.1, next) ∧ next.Represents expected.2

theorem ofNat_next (index : Nat) : UInt32.ofNat index + 1 = UInt32.ofNat (index + 1) := by
  rw [UInt32.ofNat_add]
  rfl

/-! A new array. -/

theorem room_eq {maxCount : UInt32} (small : maxCount.toNat * 12 < 2 ^ 32) : room maxCount = maxCount.toNat := by
  have product : (maxCount * kTreeItemSize).toNat = maxCount.toNat * 12 := by
    rw [UInt32.toNat_mul]
    exact Nat.mod_eq_of_lt small
  rw [room, product]
  exact Nat.mul_div_cancel _ (by decide)

theorem toNat_newCount (represents : tree.Represents forest) :
    (roundUp8 (tree.mTreeCount + 8)).toNat = (forest.size + 15) / 8 * 8 := by
  have small := represents.fits.size
  have sum : (tree.mTreeCount + 8).toNat = forest.size + 8 := by
    rw [UInt32.toNat_add, represents.count]
    exact Nat.mod_eq_of_lt (by simp; omega)
  rw [toNat_roundUp8 (by omega), sum]

theorem reallocate_eq (represents : tree.Represents forest) (blocks : UMemory.Blocks (STreeItem α)) :
    ∃ block, tree.reallocate blocks (roundUp8 (tree.mTreeCount + 8)) =
        { tree with mPtrTree := some block, mMaxCount := roundUp8 (tree.mTreeCount + 8) } ∧
      block.length = (roundUp8 (tree.mTreeCount + 8)).toNat ∧ cells (forest.rows 0) <+: block ∧
      forest.size < block.length := by
  have small := represents.fits.size
  have newCount := toNat_newCount represents
  have newRoom : room (roundUp8 (tree.mTreeCount + 8)) = (roundUp8 (tree.mTreeCount + 8)).toNat :=
    room_eq (by omega)
  obtain ⟨spare, split⟩ := represents.items
  have length := blocks.length_reallocate (room (roundUp8 (tree.mTreeCount + 8))) tree.items
  rw [newRoom] at length
  have kept := blocks.reallocate_keeps (room (roundUp8 (tree.mTreeCount + 8))) tree.items
  refine ⟨_, rfl, newRoom ▸ length, ?_, ?_⟩
  · refine List.IsPrefix.trans (List.prefix_take_iff.mpr ⟨⟨spare, split.symm⟩, ?_⟩) kept
    rw [length_cells, Forest.length_rows, newRoom]
    omega
  · rw [newRoom, length]
    omega

/-! The array, piece by piece. -/

section
variable {front rest : List (STreeItem α)} {entry : STreeItem α} {index : Nat}

theorem item_eq (split : tree.items = front ++ entry :: rest) (place : front.length = index) :
    tree.item index = .value entry := by
  rw [item, split, Span.element_skip place.le, place, Nat.sub_self]
  rfl

theorem store_eq (split : tree.items = front ++ entry :: rest) (place : front.length = index)
    (next : STreeItem α) :
    tree.store index next = .value { tree with mPtrTree := some (front ++ next :: rest) } := by
  rw [store, split, Span.store_append next entry place.symm]
  rfl

theorem items_eq_some (tree : CPtrTree α) (entries : List (STreeItem α)) :
    ({ tree with mPtrTree := some entries } : CPtrTree α).items = entries := rfl

theorem spread_put {entries : List (STreeItem α)} {spare : STreeItem α} (inPtr : Option α) (nParentLevel : UInt16)
    (split : tree.items = front ++ (entries ++ spare :: rest)) (place : front.length = index)
    (count : tree.mTreeCount.toNat = front.length + entries.length) :
    (do let tree ← tree.spread index
        tree.put index nParentLevel inPtr : Checked Empty (UInt32 × CPtrTree α)) =
      .value (UInt32.ofNat index + 1, { tree with
        mPtrTree := some (front ++
          { nItemLevel := nParentLevel + 1, nChildCount := 0, pItem := inPtr } :: (entries ++ rest))
        mTreeCount := tree.mTreeCount + 1 }) := by
  cases entries with
  | nil =>
    have last : index = tree.mTreeCount.toNat := by
      rw [count, List.length_nil, place, Nat.add_zero]
    rw [spread, if_pos last, Checked.pure_eq, Checked.value_bind, put, store_eq split place]
    rfl
  | cons first others =>
    have inner : index ≠ tree.mTreeCount.toNat := by
      rw [count, List.length_cons]
      omega
    have moved : (UMemory.move (index + 1) index (tree.mTreeCount.toNat - index) tree.items :
        Checked Empty (List (STreeItem α))) = .value (front ++ first :: ((first :: others) ++ rest)) := by
      have amount : tree.mTreeCount.toNat - index = others.length + 1 := by
        rw [count, List.length_cons]
        omega
      have opened : tree.items = (front ++ [first]) ++ (others ++ spare :: rest) := by
        rw [split, List.append_assoc, List.cons_append, List.singleton_append]
      have closed : tree.items = (front ++ (first :: others ++ [spare])) ++ rest := by
        rw [split, List.append_assoc, List.append_assoc, List.singleton_append]
      have inside : index + 1 + (tree.mTreeCount.toNat - index) ≤ tree.items.length := by
        rw [amount, split]
        simp only [List.length_append, List.length_cons]
        omega
      rw [UMemory.move_eq split place amount.symm inside, amount]
      have kept : tree.items.take (index + 1) = front ++ [first] := by
        rw [opened, List.take_left' (by rw [List.length_append, List.length_singleton, place])]
      have dropped : tree.items.drop (index + 1 + (others.length + 1)) = rest := by
        rw [closed, List.drop_left']
        simp only [List.length_append, List.length_cons, List.length_nil]
        omega
      rw [kept, dropped, List.append_assoc, List.singleton_append]
    rw [spread, if_neg inner, move, moved]
    simp only [Checked.value_bind, Checked.pure_eq, put]
    rw [store_eq (items_eq_some _ _) place]
    rfl

theorem block_eq (split : tree.items = front ++ entry :: rest) : tree.mPtrTree = some (front ++ entry :: rest) := by
  rw [items] at split
  cases block : tree.mPtrTree with
  | none =>
    rw [block] at split
    have none := congrArg List.length split
    simp at none
  | some entries =>
    rw [block] at split
    exact congrArg some split

theorem move_over {gone entries spare : List (STreeItem α)} {source count : Nat}
    (split : tree.items = front ++ (gone ++ (entries ++ spare))) (place : front.length = index)
    (next : index + gone.length = source) (amount : entries.length = count) :
    ∃ left, left.length = gone.length + spare.length ∧
      tree.move index source count = .value { tree with mPtrTree := some (front ++ (entries ++ left)) } := by
  have whole : tree.items = (front ++ gone) ++ (entries ++ spare) := by rw [split, List.append_assoc]
  have size : tree.items.length = index + gone.length + entries.length + spare.length := by
    simp only [whole, List.length_append]
    omega
  refine ⟨tree.items.drop (index + count), ?_, ?_⟩
  · rw [List.length_drop, size]
    omega
  · have start : (front ++ gone).length = source := by rw [List.length_append, place, next]
    have kept : tree.items.take index = front := by rw [split, List.take_left' place]
    rw [move, UMemory.move_eq whole start amount (by omega), kept]
    rfl

end

/-! The loops. -/

theorem toNat_level {row : Forest.Row (Option α)} (small : row.level ≤ 65535) :
    (STreeItem.ofRow row).nItemLevel.toNat = row.level :=
  UInt16.toNat_ofNat_of_lt' (Nat.lt_succ_of_le small)

/-- What follows is not deeper, or there is nothing in use that follows. -/
def Stops (level left : Nat) (rest : List (STreeItem α)) : Prop :=
  left = 0 ∨ ∃ entry others, rest = entry :: others ∧ entry.nItemLevel.toNat ≤ level

theorem skip_eq {front rest : List (STreeItem α)} {rows : List (Forest.Row (Option α))} {level left : Nat}
    (split : tree.items = front ++ (cells rows ++ rest))
    (deeper : ∀ row ∈ rows, level < row.level ∧ row.level ≤ 65535) (stops : Stops level left rest) :
    tree.skip level (rows.length + left) front.length = .value (front.length + rows.length) := by
  induction rows generalizing front with
  | nil =>
    rcases stops with rfl | ⟨entry, others, rfl, shallow⟩
    · rfl
    · cases left with
      | zero => rfl
      | succ left =>
        simp only [List.length_nil, skip, item_eq split rfl, Checked.value_bind,
          Nat.not_lt.mpr shallow, if_false, Checked.pure_eq, Nat.add_zero]
  | cons row rows ih =>
    have here := deeper row List.mem_cons_self
    have level := toNat_level here.2
    have next : (row :: rows).length + left = rows.length + left + 1 := by
      rw [List.length_cons]
      omega
    have shift : tree.items = (front ++ [STreeItem.ofRow row]) ++ (cells rows ++ rest) := by
      rw [split, cells_cons, List.append_assoc, List.cons_append, List.singleton_append]
    have step := ih shift fun other inside => deeper other (List.mem_cons_of_mem _ inside)
    rw [List.length_append, List.length_singleton] at step
    rw [next, skip, item_eq split rfl, Checked.value_bind, level, if_pos here.1, step, List.length_cons]
    congr 1
    omega

theorem above_eq {front rest : List (STreeItem α)} {entry : STreeItem α} {rows : List (Forest.Row (Option α))}
    {level : Nat} (split : tree.items = front ++ entry :: (cells rows ++ rest))
    (deeper : ∀ row ∈ rows, level < row.level ∧ row.level ≤ 65535) (shallow : entry.nItemLevel.toNat ≤ level) :
    tree.above level (front.length + rows.length) = .value front.length := by
  induction rows using List.reverseRecOn generalizing rest with
  | nil =>
    cases length : front.length with
    | zero => rfl
    | succ index =>
      rw [List.length_nil, Nat.add_zero, above, item_eq split length, Checked.value_bind,
        if_neg (Nat.not_lt.mpr shallow)]
      rfl
  | append_singleton rows row ih =>
    have here := deeper row (List.mem_append_right _ (List.mem_singleton_self row))
    have shift : tree.items = (front ++ entry :: cells rows) ++ STreeItem.ofRow row :: rest := by
      rw [split, cells_append, cells_cons, cells_nil, List.append_assoc, List.append_assoc, List.cons_append,
        List.nil_append, List.cons_append]
    have place : (front ++ entry :: cells rows).length = front.length + rows.length + 1 := by
      simp only [List.length_append, List.length_cons, length_cells]
      omega
    have earlier : tree.items = front ++ entry :: (cells rows ++ STreeItem.ofRow row :: rest) := by
      rw [shift, List.append_assoc, List.cons_append]
    have back := ih earlier fun other inside => deeper other (List.mem_append_left _ inside)
    rw [List.length_append, List.length_singleton, ← Nat.add_assoc, above, item_eq shift place, Checked.value_bind,
      toNat_level here.2, if_pos here.1, back]

/-! A place in the forest, in the array. -/

section
variable {place : Forest.Place (Option α)} {children : Forest (Option α)} {index : Nat}

theorem cells_below (found : forest.childrenOf index = some (place, children)) (tail : List (STreeItem α)) :
    cells (forest.rows 0) ++ tail = cells (place.before 0 children.roots) ++
      (cells (children.rows place.depth) ++ (cells (place.after 0) ++ tail)) := by
  rw [← (Forest.childrenOf_eq_some found).1, Forest.Place.rows_plug, Nat.zero_add]
  simp only [cells_append, List.append_assoc]

theorem size_below (found : forest.childrenOf index = some (place, children)) :
    forest.size = index + (children.size + (place.after 0).length) := by
  obtain ⟨whole, length, -⟩ := Forest.childrenOf_eq_some found
  have rows := congrArg List.length (Forest.Place.rows_plug 0 place children)
  simp only [whole, Forest.length_rows, List.length_append, Forest.Place.length_before, length] at rows
  exact rows

theorem stops_after (place : Forest.Place (Option α)) (spare : List (STreeItem α)) :
    Stops place.depth (place.after 0).length (cells (place.after 0) ++ spare) := by
  cases next : place.after 0 with
  | nil => exact .inl rfl
  | cons row others =>
    refine .inr ⟨.ofRow row, cells others ++ spare, rfl, ?_⟩
    have level := Forest.Place.level_head_after next
    have small : (STreeItem.ofRow row).nItemLevel.toNat ≤ row.level := Nat.mod_le _ _
    omega

theorem levels_below (fits : PtrForestFits forest) (found : forest.childrenOf index = some (place, children)) :
    place.depth + children.height ≤ 65535 := by
  obtain ⟨whole, -⟩ := Forest.childrenOf_eq_some found
  have higher := place.height_plug children
  rw [whole] at higher
  exact higher.trans fits.height

theorem skip_below {front spare : List (STreeItem α)} (fits : PtrForestFits forest)
    (found : forest.childrenOf index = some (place, children)) (length : front.length = index)
    (split : tree.items = front ++ (cells (children.rows place.depth) ++ (cells (place.after 0) ++ spare))) :
    tree.skip place.depth (forest.size - index) index = .value (index + children.size) := by
  have left : forest.size - index = (children.rows place.depth).length + (place.after 0).length := by
    rw [size_below found, Forest.length_rows]
    omega
  have small := levels_below fits found
  have reached := skip_eq split (fun row inside => ?_) (stops_after place spare)
  · rw [left, ← length, reached, Forest.length_rows]
  · have bounds := Forest.level_of_mem inside
    omega

theorem item_above {tail : List (STreeItem α)} {above : Nat}
    (found : forest.childrenOf (above + 1) = some (place, children))
    (split : tree.items = cells (place.before 0 children.roots) ++ tail) :
    ∃ item : Option α, tree.item above = .value (.ofRow ⟨place.depth, children.roots, item⟩) ∧
      ∀ count, tree.store above (.ofRow ⟨place.depth, count, item⟩) =
        .value { tree with mPtrTree := some (cells (place.before 0 count) ++ tail) } := by
  obtain ⟨-, -, alone, -, parent⟩ := Forest.childrenOf_eq_some found
  obtain ⟨-, front, item, length, before⟩ := Forest.Place.before_below 0 (parent above rfl)
  simp only [alone, Forest.rows, Forest.roots, Nat.zero_add] at before
  rw [before, cells_append, List.append_assoc, cells_cons, cells_nil, List.singleton_append] at split
  have here : (cells front).length = above := by rw [length_cells, length]
  refine ⟨item, item_eq split here, fun count => ?_⟩
  rw [store_eq split here, before, cells_append, List.append_assoc, cells_cons, cells_nil, List.singleton_append]

end

/-! An item, in the array. -/

section
variable {spot : Forest.Spot (Option α)} {index : Nat}

theorem childrenOf_spot (found : forest.locate index = some spot) :
    forest.childrenOf (index + 1) = some (spot.place.extend spot.item spot.rest, spot.children) := by
  rw [Forest.childrenOf, found, Option.map_some]

theorem cells_spot (found : forest.locate index = some spot) (tail : List (STreeItem α)) :
    cells (forest.rows 0) ++ tail = cells (spot.place.before 0 (spot.rest.roots + 1)) ++
      .ofRow spot.row :: (cells (spot.children.rows (spot.place.depth + 1)) ++
        (cells (spot.rest.rows spot.place.depth ++ spot.place.after 0) ++ tail)) := by
  rw [Forest.rows_locate found]
  simp only [cells_append, cells_cons, List.append_assoc, List.cons_append]

theorem size_spot (found : forest.locate index = some spot) :
    forest.size = index + 1 + spot.children.size + (spot.rest.rows spot.place.depth ++ spot.place.after 0).length := by
  have rows := congrArg List.length (Forest.rows_locate found)
  simp only [Forest.length_rows, List.length_append, List.length_cons, Forest.Place.length_before,
    (Forest.locate_eq_some found).2] at rows ⊢
  omega

theorem level_spot (fits : PtrForestFits forest) (found : forest.locate index = some spot) :
    spot.place.depth + 1 + spot.children.height ≤ 65535 := by
  have small := levels_below fits (childrenOf_spot found)
  rwa [Forest.Place.depth_extend] at small

theorem toNat_level_spot (fits : PtrForestFits forest) (found : forest.locate index = some spot) :
    (STreeItem.ofRow spot.row).nItemLevel.toUInt32.toNat = spot.place.depth + 1 :=
  toNat_level (Nat.le_trans (Nat.le_add_right _ _) (level_spot fits found))

theorem toNat_parentLevel {nItemLevel : UInt32} {depth : Nat} (level : nItemLevel.toNat = depth + 1) :
    (nItemLevel - 1).toNat = depth := by
  have one : (1 : UInt32) ≤ nItemLevel := by
    rw [UInt32.le_iff_toNat_le, level]
    exact Nat.le_add_left 1 _
  rw [UInt32.toNat_sub_of_le _ _ one, level]
  rfl

theorem skip_spot {front spare : List (STreeItem α)} (fits : PtrForestFits forest)
    (found : forest.locate index = some spot) (length : front.length = index + 1)
    (split : tree.items = front ++ (cells (spot.children.rows (spot.place.depth + 1)) ++
      (cells (spot.rest.rows spot.place.depth ++ spot.place.after 0) ++ spare))) :
    tree.skip (spot.place.depth + 1) (forest.size - (index + 1)) (index + 1) =
      .value (index + 1 + spot.children.size) := by
  have below := childrenOf_spot found
  have after := Forest.Place.after_extend 0 spot.item spot.rest spot.place
  rw [Nat.zero_add] at after
  rw [← after, ← Forest.Place.depth_extend spot.item spot.rest] at split
  have reached := skip_below fits below length split
  rwa [Forest.Place.depth_extend] at reached

theorem item_spot (represents : tree.Represents forest) (found : forest.locate index = some spot) :
    tree.item index = .value (.ofRow spot.row) := by
  obtain ⟨spare, items⟩ := represents.items
  have split := items.trans (cells_spot found spare)
  exact item_eq split (by rw [length_cells, Forest.Place.length_before, (Forest.locate_eq_some found).2])

theorem toNat_children (fits : PtrForestFits forest) (found : forest.locate index = some spot) :
    (STreeItem.ofRow spot.row).nChildCount.toNat = spot.children.roots := by
  have few := spot.children.roots_le_size
  have size := size_spot found
  have small := fits.size
  exact UInt32.toNat_ofNat_of_lt' (by show spot.children.roots < 2 ^ 32; omega)

end

end CPtrTree

namespace PtrForest

/-- An item, counted from one. -/
def spot (inIndex : UInt32) (forest : Forest (Option α)) : Option (Forest.Spot (Option α)) :=
  if inIndex = 0 then none else forest.locate (inIndex.toNat - 1)

variable {inIndex : UInt32} {forest : Forest (Option α)}

theorem spot_eq_some {found : Forest.Spot (Option α)} (located : spot inIndex forest = some found) :
    ∃ index, inIndex.toNat = index + 1 ∧ forest.locate index = some found ∧ inIndex ≠ 0 ∧
      inIndex.toNat ≤ forest.size := by
  by_cases zero : inIndex = 0
  · rw [spot, if_pos zero] at located
    cases located
  · obtain ⟨index, next⟩ : ∃ index, inIndex.toNat = index + 1 :=
      Nat.exists_eq_succ_of_ne_zero fun none => zero (UInt32.toNat_inj.mp none)
    rw [spot, if_neg zero, next] at located
    have inside : ¬ forest.size ≤ index := by
      intro beyond
      rw [Nat.add_sub_cancel, Forest.locate_eq_none.mpr beyond] at located
      cases located
    exact ⟨index, next, located, zero, by omega⟩

theorem spot_eq_none (missing : spot inIndex forest = none) : inIndex = 0 ∨ forest.size < inIndex.toNat := by
  by_cases zero : inIndex = 0
  · exact .inl zero
  · rw [spot, if_neg zero, Forest.locate_eq_none] at missing
    have some : inIndex.toNat ≠ 0 := fun none => zero (UInt32.toNat_inj.mp none)
    exact .inr (by omega)

end PtrForest

namespace CPtrTree

theorem outside_iff {tree : CPtrTree α} {forest : Forest (Option α)} (represents : tree.Represents forest)
    (inIndex : UInt32) :
    inIndex = 0 ∨ tree.mTreeCount < inIndex ↔ PtrForest.spot inIndex forest = none := by
  rw [UInt32.lt_iff_toNat_lt, represents.count]
  constructor
  · intro outside
    cases located : PtrForest.spot inIndex forest with
    | none => rfl
    | some found =>
      obtain ⟨-, -, -, positive, inside⟩ := PtrForest.spot_eq_some located
      rcases outside with zero | beyond
      · exact absurd zero positive
      · exact absurd beyond (Nat.not_lt.mpr inside)
  · exact PtrForest.spot_eq_none

end CPtrTree

end Slopline.Legacy
