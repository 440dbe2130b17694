import Slopline.Library.Loop
import Mathlib.Order.Lattice
import Mathlib.Tactic.Common

/-! Heap sort in place, over members with a key.

Positions count from one, so that the children of `j` are `2 * j` and `2 * j + 1`. The
first phase makes a heap of ever more parents, from the last one down; the second takes the
root off, puts it behind the heap, and repairs the heap that is left.
-/

set_option autoImplicit false

namespace Library.HeapSort

variable {α κ : Type} [Inhabited α] [LinearOrder κ] (key : α → κ)

def member (table : Array α) (position : Nat) : α := table.getD (position - 1) default

def exchange (table : Array α) (first second : Nat) : Array α :=
  table.swapIfInBounds (first - 1) (second - 1)

/-- The child of a parent that has its first one at `left`: the second one where it is larger. -/
def largerChild (table : Array α) (r left : Nat) : Nat :=
  if left < r ∧ key (member table left) < key (member table (left + 1)) then left + 1 else left

structure Sift (α : Type) where
  table : Array α
  j : Nat
  placed : 0 < j

theorem le_largerChild (table : Array α) (r left : Nat) : left ≤ largerChild key table r left := by
  unfold largerChild
  split <;> omega

theorem largerChild_le {table : Array α} {r left : Nat} (inside : left ≤ r) :
    largerChild key table r left ≤ r := by
  unfold largerChild
  split <;> omega

theorem half_largerChild (table : Array α) (r j : Nat) : largerChild key table r (j * 2) / 2 = j := by
  unfold largerChild
  split <;> omega

/-- One round of the inner loop: down to the larger child, while that is larger. -/
def siftRound (r : Nat) (s : Sift α) : Loop (Sift α) (Array α) :=
  if s.j * 2 ≤ r then
    let child := largerChild key s.table r (s.j * 2)
    if key (member s.table s.j) < key (member s.table child) then
      .again {
        table := exchange s.table s.j child
        j := child
        placed := Nat.lt_of_lt_of_le (Nat.mul_pos s.placed Nat.two_pos) (le_largerChild key s.table r _) }
    else .done s.table
  else .done s.table

theorem siftRound_again {r : Nat} {s next : Sift α} (round : siftRound key r s = .again next) :
    ∃ child, child = largerChild key s.table r (s.j * 2) ∧ s.j * 2 ≤ r ∧
      key (member s.table s.j) < key (member s.table child) ∧
      next.table = exchange s.table s.j child ∧ next.j = child := by
  unfold siftRound at round
  split at round
  · rename_i child
    simp only at round
    split at round
    · rename_i larger
      cases round
      exact ⟨_, rfl, child, larger, rfl, rfl⟩
    · cases round
  · cases round

theorem siftRound_done {r : Nat} {s : Sift α} {table : Array α} (round : siftRound key r s = .done table) :
    table = s.table ∧ (s.j * 2 ≤ r →
      key (member s.table (largerChild key s.table r (s.j * 2))) ≤ key (member s.table s.j)) := by
  unfold siftRound at round
  split at round
  · simp only at round
    split at round
    · cases round
    · rename_i larger
      cases round
      exact ⟨rfl, fun _ => le_of_not_gt larger⟩
  · rename_i leaf
    cases round
    exact ⟨rfl, fun child => absurd child leaf⟩

theorem siftRound_drops (r : Nat) (s next : Sift α) (round : siftRound key r s = .again next) :
    r - next.j < r - s.j := by
  obtain ⟨child, rfl, inside, _, _, same⟩ := siftRound_again key round
  have below := le_largerChild key s.table r (s.j * 2)
  have placed := s.placed
  have bound : largerChild key s.table r (s.j * 2) ≤ r := largerChild_le key inside
  omega

def sift (r : Nat) (table : Array α) (j : Nat) (placed : 0 < j) : Array α :=
  Loop.run (fun s : Sift α => r - s.j) (siftRound_drops key r) { table, j, placed }

structure Phase (α : Type) where
  table : Array α
  l : Nat
  r : Nat
  placed : 0 < l
  many : 2 ≤ r

def sortRound (s : Phase α) : Loop (Phase α) (Array α) :=
  if first : 1 < s.l then
    .again {
      s with
      table := sift key s.r s.table (s.l - 1) (Nat.sub_pos_of_lt first)
      l := s.l - 1
      placed := Nat.sub_pos_of_lt first }
  else
    let table := exchange s.table s.l s.r
    if last : s.r - 1 = 1 then .done table
    else
      .again {
        s with
        table := sift key (s.r - 1) table s.l s.placed
        r := s.r - 1
        many := by have := s.many; omega }

theorem sortRound_drops (s next : Phase α) (round : sortRound key s = .again next) :
    next.l + next.r < s.l + s.r := by
  have many := s.many
  unfold sortRound at round
  split at round
  · cases round
    simp only
    omega
  · simp only at round
    split at round
    · cases round
    · cases round
      simp only
      omega

/-- The first `count` members in the order of their keys. -/
def heapSort (count : Nat) (table : Array α) : Array α :=
  if many : count < 2 then table
  else Loop.run (fun s : Phase α => s.l + s.r) (sortRound_drops key)
    { table, l := count / 2 + 1, r := count, placed := Nat.succ_pos _, many := Nat.le_of_not_lt many }

/-! Exchanging two members. -/

section
variable {table : Array α} {first second position : Nat}

theorem member_eq (inside : position - 1 < table.size) : member table position = table[position - 1] := by
  simp [member, inside]

omit [Inhabited α] in
@[simp] theorem size_exchange : (exchange table first second).size = table.size := by
  simp only [exchange, Array.size_swapIfInBounds]

theorem member_exchange (at_first : 0 < first ∧ first ≤ table.size)
    (at_second : 0 < second ∧ second ≤ table.size) (placed : 0 < position) :
    member (exchange table first second) position =
      if position = first then member table second
      else if position = second then member table first
      else member table position := by
  have inFirst : first - 1 < table.size := by omega
  have inSecond : second - 1 < table.size := by omega
  by_cases inside : position - 1 < table.size
  · have onFirst : position - 1 = first - 1 ↔ position = first := by omega
    have onSecond : position - 1 = second - 1 ↔ position = second := by omega
    rw [member_eq (by simpa using inside)]
    simp only [exchange, Array.getElem_swapIfInBounds, inFirst, inSecond, and_true, onFirst, onSecond,
      member_eq inFirst, member_eq inSecond, member_eq inside]
    split_ifs <;> rfl
  · have notFirst : position ≠ first := by omega
    have notSecond : position ≠ second := by omega
    simp [member, exchange, inside, notFirst, notSecond]

omit [Inhabited α] in
theorem exchange_perm (table : Array α) (first second : Nat) : (exchange table first second).Perm table := by
  simp only [exchange, Array.swapIfInBounds_def]
  split
  · split
    · exact Array.swap_perm _ _
    · exact .refl _
  · exact .refl _

structure Rearranged (r : Nat) (before after : Array α) : Prop where
  perm : after.Perm before
  beyond : ∀ x, r < x → member after x = member before x
  within : ∀ x, 0 < x → x ≤ r → ∃ y, 0 < y ∧ y ≤ r ∧ member after x = member before y

variable {r more : Nat} {before between after : Array α}

theorem Rearranged.refl (r : Nat) (table : Array α) : Rearranged r table table where
  perm := .refl _
  beyond _ _ := rfl
  within x placed inside := ⟨x, placed, inside, rfl⟩

theorem Rearranged.trans (left : Rearranged r before between) (right : Rearranged r between after) :
    Rearranged r before after where
  perm := right.perm.trans left.perm
  beyond x behind := (right.beyond x behind).trans (left.beyond x behind)
  within x placed inside := by
    obtain ⟨y, placed, inside, same⟩ := right.within x placed inside
    obtain ⟨z, placed, inside, same'⟩ := left.within y placed inside
    exact ⟨z, placed, inside, same.trans same'⟩

theorem Rearranged.wider (rearranged : Rearranged r before after) (le : r ≤ more) :
    Rearranged more before after where
  perm := rearranged.perm
  beyond x behind := rearranged.beyond x (by omega)
  within x placed inside := by
    by_cases moved : x ≤ r
    · obtain ⟨y, placed, inside, same⟩ := rearranged.within x placed moved
      exact ⟨y, placed, by omega, same⟩
    · exact ⟨x, placed, inside, rearranged.beyond x (by omega)⟩

theorem Rearranged.size (rearranged : Rearranged r before after) : after.size = before.size :=
  rearranged.perm.size_eq

theorem Rearranged.exchange (inside : r ≤ table.size) (at_first : 0 < first ∧ first ≤ r)
    (at_second : 0 < second ∧ second ≤ r) : Rearranged r table (exchange table first second) where
  perm := exchange_perm table first second
  beyond x behind := by
    rw [member_exchange ⟨at_first.1, by omega⟩ ⟨at_second.1, by omega⟩ (by omega),
      if_neg (by omega), if_neg (by omega)]
  within x placed within := by
    rw [member_exchange ⟨at_first.1, by omega⟩ ⟨at_second.1, by omega⟩ placed]
    split
    · exact ⟨second, at_second.1, at_second.2, rfl⟩
    · split
      · exact ⟨first, at_first.1, at_first.2, rfl⟩
      · exact ⟨x, placed, within, rfl⟩

end

/-! The inner loop makes a heap of one parent more. -/

/-- Parents from `l` on are no smaller than their children among the first `r` members. -/
def Heap (table : Array α) (l r : Nat) : Prop :=
  ∀ child, child ≤ r → l ≤ child / 2 → key (member table child) ≤ key (member table (child / 2))

/-- A heap but for the parent at `j`, whose own parent is no smaller than its children. -/
structure HeapBut (table : Array α) (l r j : Nat) : Prop where
  others : ∀ child, child ≤ r → l ≤ child / 2 → child / 2 ≠ j →
    key (member table child) ≤ key (member table (child / 2))
  above : ∀ child, child ≤ r → child / 2 = j → l ≤ j / 2 →
    key (member table child) ≤ key (member table (j / 2))

variable {key}

theorem largerChild_max {table : Array α} {r j child : Nat} (inside : child ≤ r) (parent : child / 2 = j) :
    key (member table child) ≤ key (member table (largerChild key table r (j * 2))) := by
  have which : child = j * 2 ∨ child = j * 2 + 1 := by omega
  unfold largerChild
  split
  · rename_i second
    rcases which with rfl | rfl
    · exact second.2.le
    · exact le_rfl
  · rename_i first
    rcases which with rfl | rfl
    · exact le_rfl
    · exact le_of_not_gt fun larger => first ⟨by omega, larger⟩

variable {table : Array α} {l r j child : Nat}

theorem HeapBut.down (heap : HeapBut key table l r j) (first : 0 < l) (placed : 0 < j) (size : r ≤ table.size)
    (inside : j * 2 ≤ r) (chosen : child = largerChild key table r (j * 2))
    (larger : key (member table j) < key (member table child)) :
    HeapBut key (exchange table j child) l r child := by
  have parent : child / 2 = j := by
    rw [chosen]
    exact half_largerChild key table r j
  have bound : child ≤ r := by
    rw [chosen]
    exact largerChild_le key inside
  have atJ : member (exchange table j child) j = member table child := by
    rw [member_exchange ⟨placed, by omega⟩ ⟨by omega, by omega⟩ placed, if_pos rfl]
  have atChild : member (exchange table j child) child = member table j := by
    rw [member_exchange ⟨placed, by omega⟩ ⟨by omega, by omega⟩ (by omega), if_neg (by omega), if_pos rfl]
  have elsewhere : ∀ x, 0 < x → x ≠ j → x ≠ child → member (exchange table j child) x = member table x := by
    intro x position notJ notChild
    rw [member_exchange ⟨placed, by omega⟩ ⟨by omega, by omega⟩ position, if_neg notJ, if_neg notChild]
  constructor
  · intro x within heaped other
    by_cases sibling : x / 2 = j
    · rw [sibling, atJ]
      by_cases same : x = child
      · rw [same, atChild]
        exact larger.le
      · rw [elsewhere x (by omega) (by omega) same, chosen]
        exact largerChild_max within sibling
    · by_cases same : x = j
      · rw [same] at heaped ⊢
        rw [atJ, elsewhere (j / 2) (by omega) (by omega) (by omega)]
        exact heap.above child bound parent heaped
      · rw [elsewhere x (by omega) same (by omega), elsewhere (x / 2) (by omega) sibling other]
        exact heap.others x within heaped sibling
  · intro x within hole heaped
    rw [parent, atJ, elsewhere x (by omega) (by omega) (by omega)]
    have ordered := heap.others x within (by omega) (by omega)
    rwa [hole] at ordered

theorem HeapBut.settled (heap : HeapBut key table l r j)
    (largest : j * 2 ≤ r → key (member table (largerChild key table r (j * 2))) ≤ key (member table j)) :
    Heap key table l r := by
  intro x within heaped
  by_cases hole : x / 2 = j
  · calc
      key (member table x) ≤ key (member table (largerChild key table r (j * 2))) := largerChild_max within hole
      _ ≤ key (member table j) := largest (by omega)
      _ = key (member table (x / 2)) := by rw [hole]
  · exact heap.others x within heaped hole

theorem sift_spec (first : 0 < l) (size : r ≤ table.size) (start : l ≤ r)
    (heap : Heap key table (l + 1) r) :
    Rearranged r table (sift key r table l first) ∧ Heap key (sift key r table l first) l r := by
  refine Loop.run_invariant _ _
    (fun s => s.j ≤ r ∧ Rearranged r table s.table ∧ HeapBut key s.table l r s.j)
    (fun result => Rearranged r table result ∧ Heap key result l r) ?_ ?_ ?_
  · rintro s next ⟨inside, rearranged, heap⟩ round
    obtain ⟨child, chosen, children, larger, sameTable, sameJ⟩ := siftRound_again key round
    have bound : child ≤ r := by
      rw [chosen]
      exact largerChild_le key children
    have below : s.j * 2 ≤ child := by
      rw [chosen]
      exact le_largerChild key s.table r _
    have size' : r ≤ s.table.size := by rwa [rearranged.size]
    rw [sameTable, sameJ]
    have placed := s.placed
    exact ⟨bound, rearranged.trans (.exchange size' ⟨placed, inside⟩ ⟨by omega, bound⟩),
      heap.down first placed size' children chosen larger⟩
  · rintro s result ⟨_, rearranged, heap⟩ round
    obtain ⟨rfl, largest⟩ := siftRound_done key round
    exact ⟨rearranged, heap.settled largest⟩
  · refine ⟨start, .refl r table, ?_, ?_⟩
    · exact fun x within heaped other => heap x within (by simp only at other; omega)
    · intro x _ _ heaped
      simp only at heaped
      omega

theorem Heap.root (heap : Heap key table 1 r) (x : Nat) (placed : 0 < x) (inside : x ≤ r) :
    key (member table x) ≤ key (member table 1) := by
  induction x using Nat.strongRecOn with
  | ind x ih =>
    by_cases root : x = 1
    · rw [root]
    · calc
        key (member table x) ≤ key (member table (x / 2)) := heap x inside (by omega)
        _ ≤ key (member table 1) := ih (x / 2) (by omega) (by omega) (by omega)

/-! The outer loop. -/

def Settled (key : α → κ) (table : Array α) (r count : Nat) : Prop :=
  ∀ x y, 0 < x → x ≤ y → r < y → y ≤ count → key (member table x) ≤ key (member table y)

theorem Settled.rearranged {after : Array α} {count : Nat} (settled : Settled key table r count)
    (rearranged : Rearranged r table after) : Settled key after r count := by
  intro x y placed le behind inside
  rw [rearranged.beyond y behind]
  by_cases moved : x ≤ r
  · obtain ⟨z, first, within, same⟩ := rearranged.within x placed moved
    rw [same]
    exact settled z y first (by omega) behind inside
  · rw [rearranged.beyond x (by omega)]
    exact settled x y placed le behind inside

structure Sorting (key : α → κ) (count : Nat) (before : Array α) (s : Phase α) : Prop where
  rearranged : Rearranged count before s.table
  inside : s.r ≤ count
  start : s.l ≤ s.r + 1
  heap : Heap key s.table s.l s.r
  settled : Settled key s.table s.r count

def Sorted (key : α → κ) (count : Nat) (table : Array α) : Prop :=
  ∀ x y, 0 < x → x ≤ y → y ≤ count → key (member table x) ≤ key (member table y)

theorem Heap.take_root {count : Nat} (heap : Heap key table 1 r) (settled : Settled key table r count)
    (many : 2 ≤ r) (size : r ≤ table.size) :
    Heap key (exchange table 1 r) 2 (r - 1) ∧ Settled key (exchange table 1 r) (r - 1) count := by
  have moved : ∀ x, 0 < x → member (exchange table 1 r) x =
      if x = 1 then member table r else if x = r then member table 1 else member table x :=
    fun x placed => member_exchange ⟨by omega, by omega⟩ ⟨by omega, by omega⟩ placed
  constructor
  · intro child within heaped
    rw [moved child (by omega), moved (child / 2) (by omega), if_neg (by omega), if_neg (by omega),
      if_neg (by omega), if_neg (by omega)]
    exact heap child (by omega) (by omega)
  · have swapped : Rearranged r table (exchange table 1 r) :=
      .exchange size ⟨by omega, by omega⟩ ⟨by omega, by omega⟩
    intro x y placed le behind inside
    by_cases last : y = r
    · subst last
      obtain ⟨z, first, within, same⟩ := swapped.within x placed le
      rw [same, moved y (by omega), if_neg (by omega), if_pos rfl]
      exact heap.root z first within
    · exact settled.rearranged swapped x y placed le (by omega) inside

theorem Sorting.round {count : Nat} {before : Array α} {s next : Phase α} (size : count ≤ before.size)
    (sorting : Sorting key count before s) (round : sortRound key s = .again next) :
    Sorting key count before next := by
  obtain ⟨rearranged, inside, start, heap, settled⟩ := sorting
  have many := s.many
  have placed := s.placed
  have within : s.r ≤ s.table.size := by
    rw [rearranged.size]
    omega
  unfold sortRound at round
  split at round
  · rename_i building
    cases round
    have heap' : Heap key s.table (s.l - 1 + 1) s.r := by rwa [Nat.sub_add_cancel placed]
    obtain ⟨moved, heaped⟩ := sift_spec (Nat.sub_pos_of_lt building) within (by omega) heap'
    exact ⟨rearranged.trans (moved.wider inside), inside, by simp only; omega, heaped, settled.rearranged moved⟩
  · rename_i built
    obtain ⟨table, l, r, placed, many⟩ := s
    obtain rfl : l = 1 := by simp only at built placed; omega
    simp only at round rearranged inside start heap settled within many
    split at round
    · cases round
    · rename_i notLast
      cases round
      obtain ⟨heap', settled'⟩ := heap.take_root settled many within
      have within' : r - 1 ≤ (exchange table 1 r).size := by
        rw [size_exchange]
        omega
      obtain ⟨moved, heaped⟩ := sift_spec placed within' (by omega) heap'
      refine ⟨?_, by simp only; omega, by simp only; omega, heaped, settled'.rearranged moved⟩
      have swapped : Rearranged r table (exchange table 1 r) :=
        .exchange within ⟨by omega, by omega⟩ ⟨by omega, by omega⟩
      exact rearranged.trans ((swapped.wider inside).trans (moved.wider (by omega)))

theorem Sorting.leave {count : Nat} {before result : Array α} {s : Phase α} (size : count ≤ before.size)
    (sorting : Sorting key count before s) (round : sortRound key s = .done result) :
    Rearranged count before result ∧ Sorted key count result := by
  obtain ⟨rearranged, inside, start, heap, settled⟩ := sorting
  unfold sortRound at round
  split at round
  · cases round
  · rename_i built
    obtain ⟨table, l, r, placed, many⟩ := s
    obtain rfl : l = 1 := by simp only at built placed; omega
    simp only at round rearranged inside start heap settled
    split at round
    · rename_i last
      cases round
      have within : r ≤ table.size := by
        rw [rearranged.size]
        omega
      obtain ⟨_, settled'⟩ := heap.take_root settled many within
      have swapped : Rearranged r table (exchange table 1 r) :=
        .exchange within ⟨by omega, by omega⟩ ⟨by omega, by omega⟩
      refine ⟨rearranged.trans (swapped.wider inside), ?_⟩
      intro x y first le inside
      by_cases behind : 1 < y
      · exact settled' x y first le (by omega) inside
      · obtain rfl : x = y := by omega
        exact le_rfl
    · cases round

variable (key)

/-- The sort puts the first `count` members in order and leaves the others alone. -/
theorem heapSort_spec {count : Nat} (size : count ≤ table.size) :
    Rearranged count table (heapSort key count table) ∧ Sorted key count (heapSort key count table) := by
  unfold heapSort
  split
  · rename_i few
    refine ⟨.refl count table, fun x y first le inside => ?_⟩
    obtain rfl : x = y := by omega
    exact le_rfl
  · rename_i many
    refine Loop.run_invariant _ _ (Sorting key count table)
      (fun result => Rearranged count table result ∧ Sorted key count result)
      (fun _ _ sorting => sorting.round size) (fun _ _ sorting => sorting.leave size) ?_
    refine ⟨.refl count table, Nat.le_refl _, by simp only; omega, ?_, ?_⟩
    · intro child within heaped
      simp only at within heaped
      omega
    · intro x y _ _ behind inside
      simp only at behind
      omega

end Library.HeapSort
