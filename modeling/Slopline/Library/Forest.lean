import Mathlib.Data.List.Basic
import Mathlib.Tactic.Common

/-! Ordered forests, and how they lie in one row: each tree as its item, the trees below it, and
then the trees behind it.

A row knows how deep it lies and how many trees are below it. A place is a forest with room for
another one in it; what a change at a place does to the row of the whole is said once for all changes.
-/

set_option autoImplicit false

namespace Library

inductive Forest (α : Type) where
  | nil
  | cons (item : α) (children rest : Forest α)
  deriving DecidableEq, Repr

namespace Forest

variable {α β : Type}

structure Row (α : Type) where
  /-- Counted from one. -/
  level : Nat
  children : Nat
  item : α
  deriving DecidableEq, Repr

def leaf (item : α) : Forest α := .cons item .nil .nil

def roots : Forest α → Nat
  | nil => 0
  | cons _ _ rest => rest.roots + 1

def size : Forest α → Nat
  | nil => 0
  | cons _ children rest => children.size + rest.size + 1

def height : Forest α → Nat
  | nil => 0
  | cons _ children rest => max (children.height + 1) rest.height

def append : Forest α → Forest α → Forest α
  | nil, other => other
  | cons item children rest, other => cons item children (rest.append other)

/-- The row of a forest that lies `depth` levels deep. -/
def rows (depth : Nat) : Forest α → List (Row α)
  | nil => []
  | cons item children rest =>
    ⟨depth + 1, children.roots, item⟩ :: (children.rows (depth + 1) ++ rest.rows depth)

def insert : Nat → α → Forest α → Forest α
  | _, item, nil => leaf item
  | 0, item, cons other children rest => cons item nil (cons other children rest)
  | position + 1, item, cons other children rest => cons other children (rest.insert position item)
termination_by structural _ _ forest => forest

def rowsBefore : Nat → Forest α → Nat
  | _, nil => 0
  | 0, cons _ _ _ => 0
  | position + 1, cons _ children rest => children.size + 1 + rest.rowsBefore position
termination_by structural _ forest => forest

def lastRoot : Forest α → Option (Nat × α)
  | nil => none
  | cons item children rest =>
    match rest.lastRoot with
    | some (index, last) => some (children.size + 1 + index, last)
    | none => some (0, item)

@[simp] theorem roots_append (forest other : Forest α) : (forest.append other).roots = forest.roots + other.roots := by
  induction forest with
  | nil => simp [append, roots]
  | cons item children rest _ ih =>
    simp only [append, roots, ih]
    omega

@[simp] theorem size_append (forest other : Forest α) : (forest.append other).size = forest.size + other.size := by
  induction forest with
  | nil => simp [append, size]
  | cons item children rest _ ih =>
    simp only [append, size, ih]
    omega

@[simp] theorem rows_append (depth : Nat) (forest other : Forest α) :
    (forest.append other).rows depth = forest.rows depth ++ other.rows depth := by
  induction forest with
  | nil => rfl
  | cons item children rest _ ih => simp only [append, rows, ih, List.cons_append, List.append_assoc]

@[simp] theorem length_rows (depth : Nat) (forest : Forest α) : (forest.rows depth).length = forest.size := by
  induction forest generalizing depth with
  | nil => rfl
  | cons item children rest first second =>
    simp only [rows, size, List.length_cons, List.length_append, first, second]

theorem roots_le_size (forest : Forest α) : forest.roots ≤ forest.size := by
  induction forest with
  | nil => exact Nat.le_refl 0
  | cons item children rest _ ih =>
    simp only [roots, size]
    omega

theorem roots_eq_zero {forest : Forest α} : forest.roots = 0 ↔ forest = nil := by
  cases forest <;> simp [roots]

theorem size_eq_zero {forest : Forest α} : forest.size = 0 ↔ forest = nil := by
  cases forest <;> simp [size]

@[simp] theorem height_append (forest other : Forest α) :
    (forest.append other).height = max forest.height other.height := by
  induction forest with
  | nil => simp [append, height]
  | cons item children rest _ ih => simp only [append, height, ih, Nat.max_assoc]

theorem rows_succ (depth : Nat) (forest : Forest α) :
    forest.rows (depth + 1) = (forest.rows depth).map fun row => { row with level := row.level + 1 } := by
  induction forest generalizing depth with
  | nil => rfl
  | cons item children rest first second =>
    simp only [rows, first, second, List.map_cons, List.map_append]

theorem level_of_mem {depth : Nat} {forest : Forest α} {row : Row α} (inside : row ∈ forest.rows depth) :
    depth < row.level ∧ row.level ≤ depth + forest.height := by
  induction forest generalizing depth with
  | nil => cases inside
  | cons item children rest first second =>
    rw [rows, List.mem_cons, List.mem_append] at inside
    simp only [height]
    rcases inside with rfl | inside | inside
    · dsimp only
      omega
    · have bounds := first inside
      omega
    · have bounds := second inside
      omega

/-! Inserting among the roots. -/

theorem roots_insert (position : Nat) (item : α) (forest : Forest α) :
    (forest.insert position item).roots = forest.roots + 1 := by
  induction forest generalizing position with
  | nil => rfl
  | cons other children rest _ ih =>
    cases position with
    | zero => rfl
    | succ position => simp only [insert, roots, ih]

theorem rowsBefore_le (position : Nat) (forest : Forest α) : forest.rowsBefore position ≤ forest.size := by
  induction forest generalizing position with
  | nil => exact Nat.le_refl 0
  | cons other children rest _ ih =>
    cases position with
    | zero => exact Nat.zero_le _
    | succ position =>
      have few := ih position
      simp only [rowsBefore, size]
      omega

theorem rows_insert (depth position : Nat) (item : α) (forest : Forest α) :
    (forest.insert position item).rows depth =
      (forest.rows depth).take (forest.rowsBefore position) ++
        ⟨depth + 1, 0, item⟩ :: (forest.rows depth).drop (forest.rowsBefore position) := by
  induction forest generalizing position with
  | nil => rfl
  | cons other children rest _ ih =>
    cases position with
    | zero => rfl
    | succ position =>
      have below : (children.rows (depth + 1)).length = children.size := length_rows _ _
      have reached : children.size + 1 + rest.rowsBefore position =
          (children.rows (depth + 1)).length + rest.rowsBefore position + 1 := by omega
      simp only [insert, rows, rowsBefore, ih, reached, List.take_succ_cons, List.drop_succ_cons,
        List.take_length_add_append, List.drop_length_add_append, List.cons_append, List.append_assoc]

theorem lastRoot_eq_none {forest : Forest α} : forest.lastRoot = none ↔ forest = nil := by
  cases forest with
  | nil => simp [lastRoot]
  | cons item children rest => cases last : rest.lastRoot <;> simp [lastRoot, last]

theorem rows_lastRoot (depth : Nat) {index : Nat} {forest : Forest α} {item : α}
    (last : forest.lastRoot = some (index, item)) :
    ∃ front children behind, forest.rows depth = front ++ ⟨depth + 1, children, item⟩ :: behind ∧
      front.length = index ∧ ∀ row ∈ behind, depth + 1 < row.level ∧ row.level ≤ depth + forest.height := by
  induction forest generalizing index with
  | nil => cases last
  | cons other children rest _ ih =>
    rw [lastRoot] at last
    cases found : rest.lastRoot with
    | some inner =>
      rw [found] at last
      cases last
      obtain ⟨front, count, behind, split, length, deeper⟩ := ih found
      refine ⟨⟨depth + 1, children.roots, other⟩ :: (children.rows (depth + 1) ++ front), count, behind, ?_, ?_, ?_⟩
      · rw [rows, split, List.cons_append, List.append_assoc]
      · rw [List.length_cons, List.length_append, length_rows, length]
        omega
      · intro row inside
        have bounds := deeper row inside
        simp only [height]
        omega
    | none =>
      rw [found] at last
      cases last
      obtain rfl := lastRoot_eq_none.mp found
      refine ⟨[], children.roots, children.rows (depth + 1), ?_, rfl, ?_⟩
      · simp only [rows, List.append_nil, List.nil_append]
      · intro row inside
        have bounds := level_of_mem inside
        simp only [height]
        omega

/-! Places. -/

/-- Behind some trees, or below an item that is itself behind some trees. -/
inductive Place (α : Type) where
  | among (earlier : Forest α)
  | under (earlier : Forest α) (item : α) (inside : Place α) (later : Forest α)
  deriving DecidableEq, Repr

namespace Place

def plug : Place α → Forest α → Forest α
  | among earlier, forest => earlier.append forest
  | under earlier item inside later, forest => earlier.append (.cons item (inside.plug forest) later)

def depth : Place α → Nat
  | among _ => 0
  | under _ _ inside _ => inside.depth + 1

def index : Place α → Nat
  | among earlier => earlier.size
  | under earlier _ inside _ => earlier.size + 1 + inside.index

def roots : Place α → Nat → Nat
  | among earlier, count => earlier.roots + count
  | under earlier _ _ later, _ => earlier.roots + (later.roots + 1)

def earlier : Place α → Forest α
  | among earlier => earlier
  | under _ _ inside _ => inside.earlier

def parent : Place α → Option Nat
  | among _ => none
  | under earlier _ inside _ =>
    match inside.parent with
    | some index => some (earlier.size + 1 + index)
    | none => some earlier.size

def before (depth : Nat) : Place α → Nat → List (Row α)
  | among earlier, _ => earlier.rows depth
  | under earlier item inside _, count =>
    earlier.rows depth ++ ⟨depth + 1, inside.roots count, item⟩ :: inside.before (depth + 1) count

def after (depth : Nat) : Place α → List (Row α)
  | among _ => []
  | under _ _ inside later => inside.after (depth + 1) ++ later.rows depth

def behind (item : α) (children : Forest α) : Place α → Place α
  | among earlier => among (.cons item children earlier)
  | under earlier other inside later => under (.cons item children earlier) other inside later

@[simp] theorem roots_plug (place : Place α) (forest : Forest α) :
    (place.plug forest).roots = place.roots forest.roots := by
  cases place with
  | among earlier => rw [plug, roots_append, roots]
  | under earlier item inside later => rw [plug, roots_append, Forest.roots, roots]

theorem rows_plug (depth : Nat) (place : Place α) (forest : Forest α) :
    (place.plug forest).rows depth =
      place.before depth forest.roots ++ (forest.rows (depth + place.depth) ++ place.after depth) := by
  induction place generalizing depth with
  | among earlier => simp only [plug, rows_append, before, Place.depth, after, Nat.add_zero, List.append_nil]
  | under earlier item inside later ih =>
    have deeper : depth + 1 + inside.depth = depth + (inside.depth + 1) := by omega
    simp only [plug, rows_append, rows, roots_plug, ih, before, Place.depth, after, deeper, List.append_assoc,
      List.cons_append]

theorem height_plug (place : Place α) (forest : Forest α) :
    place.depth + forest.height ≤ (place.plug forest).height := by
  induction place with
  | among earlier =>
    rw [plug, height_append, Place.depth]
    omega
  | under earlier item inside later ih =>
    rw [plug, height_append, height, Place.depth]
    omega

theorem height_earlier (place : Place α) (forest : Forest α) :
    place.depth + place.earlier.height ≤ (place.plug forest).height := by
  induction place with
  | among earlier =>
    rw [plug, height_append, Place.depth, Place.earlier]
    omega
  | under earlier item inside later ih =>
    rw [plug, height_append, height, Place.depth, Place.earlier]
    omega

@[simp] theorem length_before (depth count : Nat) (place : Place α) :
    (place.before depth count).length = place.index := by
  induction place generalizing depth with
  | among earlier => rw [before, index, length_rows]
  | under earlier item inside later ih =>
    rw [before, index, List.length_append, List.length_cons, length_rows, ih]
    omega

theorem size_plug (place : Place α) (forest : Forest α) :
    (place.plug forest).size = place.index + (forest.size + (place.after 0).length) := by
  have length := congrArg List.length (rows_plug 0 place forest)
  simpa only [length_rows, List.length_append, length_before] using length

theorem level_head_after {depth : Nat} {place : Place α} {row : Row α} {others : List (Row α)}
    (next : place.after depth = row :: others) : row.level ≤ depth + place.depth := by
  induction place generalizing depth others with
  | among earlier => cases next
  | under earlier item inside later ih =>
    rw [after] at next
    rw [Place.depth]
    cases behind : inside.after (depth + 1) with
    | cons first rest =>
      rw [behind, List.cons_append] at next
      cases next
      have level := ih behind
      omega
    | nil =>
      rw [behind, List.nil_append] at next
      cases later with
      | nil => cases next
      | cons other children rest =>
        rw [rows] at next
        cases next
        dsimp only
        omega

theorem parent_eq_none {place : Place α} (top : place.parent = none) : place = among place.earlier := by
  cases place with
  | among earlier => rfl
  | under earlier item inside later =>
    rw [parent] at top
    cases inner : inside.parent <;> simp [inner] at top

theorem roots_fixed {position : Nat} {place : Place α} (above : place.parent = some position) (count other : Nat) :
    place.roots count = place.roots other := by
  cases place with
  | among earlier => cases above
  | under earlier item inside later => rfl

theorem before_below (depth : Nat) {position : Nat} {place : Place α} (above : place.parent = some position) :
    0 < place.depth ∧ ∃ front item, front.length = position ∧ ∀ count, place.before depth count =
      front ++ ⟨depth + place.depth, place.earlier.roots + count, item⟩ ::
        place.earlier.rows (depth + place.depth) := by
  induction place generalizing depth position with
  | among earlier => cases above
  | under earlier item inside later ih =>
    refine ⟨Nat.succ_pos _, ?_⟩
    rw [parent] at above
    have deeper : depth + 1 + inside.depth = depth + (inside.depth + 1) := by omega
    cases inner : inside.parent with
    | some index =>
      rw [inner] at above
      obtain ⟨_, front, other, length, split⟩ := ih (depth + 1) inner
      refine ⟨earlier.rows depth ++ ⟨depth + 1, inside.roots 0, item⟩ :: front, other, ?_, ?_⟩
      · rw [List.length_append, List.length_cons, length_rows, length]
        have same := Option.some.inj above
        omega
      · intro count
        have same : inside.roots count = inside.roots 0 := roots_fixed inner count 0
        rw [before, same, split, deeper, Place.depth, Place.earlier, List.append_assoc, List.cons_append]
    | none =>
      rw [inner] at above
      refine ⟨earlier.rows depth, item, (length_rows _ _).trans (Option.some.inj above), ?_⟩
      intro count
      rw [parent_eq_none inner]
      rfl

theorem parent_lt_index {position : Nat} {place : Place α} (above : place.parent = some position) :
    position < place.index := by
  obtain ⟨-, front, item, length, before⟩ := before_below 0 above
  rw [← length_before 0 0, before, List.length_append, List.length_cons, length]
  omega

theorem before_split (depth count : Nat) (place : Place α) :
    ∃ front, place.before depth count = front ++ place.earlier.rows (depth + place.depth) ∧
      (front = [] ∨ ∃ others row, front = others ++ [row] ∧ row.level = depth + place.depth) := by
  cases above : place.parent with
  | none =>
    rw [parent_eq_none above]
    exact ⟨[], rfl, .inl rfl⟩
  | some position =>
    obtain ⟨-, front, item, -, before⟩ := before_below depth above
    let row : Row α := ⟨depth + place.depth, place.earlier.roots + count, item⟩
    refine ⟨front ++ [row], (before count).trans ?_, .inr ⟨front, row, rfl, rfl⟩⟩
    rw [List.append_assoc, List.singleton_append]

theorem plug_behind (item : α) (children : Forest α) (place : Place α) (forest : Forest α) :
    (place.behind item children).plug forest = .cons item children (place.plug forest) := by
  cases place <;> rfl

theorem index_behind (item : α) (children : Forest α) (place : Place α) :
    (place.behind item children).index = children.size + 1 + place.index := by
  cases place with
  | among earlier =>
    simp only [behind, index, size]
    omega
  | under earlier other inside later =>
    simp only [behind, index, size]
    omega

def extend (item : α) (later : Forest α) : Place α → Place α
  | among earlier => under earlier item (among nil) later
  | under earlier other inside others => under earlier other (inside.extend item later) others

@[simp] theorem plug_extend (item : α) (later : Forest α) (place : Place α) (forest : Forest α) :
    (place.extend item later).plug forest = place.plug (.cons item forest later) := by
  induction place with
  | among earlier => rfl
  | under earlier other inside others ih => rw [extend, plug, ih, plug]

@[simp] theorem index_extend (item : α) (later : Forest α) (place : Place α) :
    (place.extend item later).index = place.index + 1 := by
  induction place with
  | among earlier => rfl
  | under earlier other inside others ih =>
    rw [extend, index, ih, index]
    omega

@[simp] theorem depth_extend (item : α) (later : Forest α) (place : Place α) :
    (place.extend item later).depth = place.depth + 1 := by
  induction place with
  | among earlier => rfl
  | under earlier other inside others ih => rw [extend, Place.depth, ih, Place.depth]

theorem after_extend (depth : Nat) (item : α) (later : Forest α) (place : Place α) :
    (place.extend item later).after depth = later.rows (depth + place.depth) ++ place.after depth := by
  induction place generalizing depth with
  | among earlier => rw [extend, after, after, after, Place.depth, List.nil_append, List.append_nil, Nat.add_zero]
  | under earlier other inside others ih =>
    rw [extend, after, ih, after, Place.depth, List.append_assoc, Nat.add_assoc, Nat.add_comm 1]

@[simp] theorem earlier_extend (item : α) (later : Forest α) (place : Place α) :
    (place.extend item later).earlier = nil := by
  induction place with
  | among earlier => rfl
  | under earlier other inside others ih => exact ih

@[simp] theorem parent_extend (item : α) (later : Forest α) (place : Place α) :
    (place.extend item later).parent = some place.index := by
  induction place with
  | among earlier => rfl
  | under earlier other inside others ih => rw [extend, parent, ih, index]

end Place

structure Spot (α : Type) where
  place : Place α
  item : α
  children : Forest α
  rest : Forest α

def locate : Nat → Forest α → Option (Spot α)
  | _, nil => none
  | 0, cons item children rest => some ⟨.among nil, item, children, rest⟩
  | index + 1, cons item children rest =>
    if index < children.size then
      (children.locate index).map fun spot => { spot with place := .under nil item spot.place rest }
    else (rest.locate (index - children.size)).map fun spot => { spot with place := spot.place.behind item children }
termination_by structural _ forest => forest

theorem locate_eq_some {index : Nat} {forest : Forest α} {spot : Spot α} (found : forest.locate index = some spot) :
    spot.place.plug (.cons spot.item spot.children spot.rest) = forest ∧ spot.place.index = index := by
  induction forest generalizing index spot with
  | nil => cases found
  | cons item children rest first second =>
    cases index with
    | zero =>
      cases found
      exact ⟨rfl, rfl⟩
    | succ index =>
      rw [locate] at found
      split at found
      · obtain ⟨inner, located, rfl⟩ := Option.map_eq_some_iff.mp found
        obtain ⟨whole, length⟩ := first located
        constructor
        · rw [Place.plug, whole, append]
        · simp only [Place.index, size, length]
          omega
      · obtain ⟨inner, located, rfl⟩ := Option.map_eq_some_iff.mp found
        obtain ⟨whole, length⟩ := second located
        constructor
        · rw [Place.plug_behind, whole]
        · rw [Place.index_behind, length]
          omega

theorem locate_eq_none {index : Nat} {forest : Forest α} : forest.locate index = none ↔ forest.size ≤ index := by
  induction forest generalizing index with
  | nil => simp [locate, size]
  | cons item children rest first second =>
    cases index with
    | zero => simp [locate, size]
    | succ index =>
      rw [locate, size]
      split
      · rw [Option.map_eq_none_iff, first]
        omega
      · rw [Option.map_eq_none_iff, second]
        omega

theorem exists_locate {index : Nat} {forest : Forest α} (inside : index < forest.size) :
    ∃ spot, forest.locate index = some spot := by
  cases found : forest.locate index with
  | some spot => exact ⟨spot, rfl⟩
  | none =>
    have beyond := locate_eq_none.mp found
    omega

def Spot.row (spot : Spot α) : Row α := ⟨spot.place.depth + 1, spot.children.roots, spot.item⟩

theorem rows_locate {index : Nat} {forest : Forest α} {spot : Spot α} (found : forest.locate index = some spot) :
    forest.rows 0 = spot.place.before 0 (spot.rest.roots + 1) ++
      spot.row :: (spot.children.rows (spot.place.depth + 1) ++
        (spot.rest.rows spot.place.depth ++ spot.place.after 0)) := by
  rw [← (locate_eq_some found).1, Place.rows_plug, Nat.zero_add, roots, rows, List.cons_append, List.append_assoc]
  rfl

def childrenOf : Nat → Forest α → Option (Place α × Forest α)
  | 0, forest => some (.among nil, forest)
  | index + 1, forest => (forest.locate index).map fun spot => (spot.place.extend spot.item spot.rest, spot.children)

theorem childrenOf_eq_some {index : Nat} {forest children : Forest α} {place : Place α}
    (found : forest.childrenOf index = some (place, children)) :
    place.plug children = forest ∧ place.index = index ∧ place.earlier = nil ∧
      (index = 0 → place = .among nil) ∧ ∀ above, index = above + 1 → place.parent = some above := by
  cases index with
  | zero =>
    cases found
    exact ⟨rfl, rfl, rfl, fun _ => rfl, fun above next => absurd next (Nat.succ_ne_zero above).symm⟩
  | succ index =>
    obtain ⟨spot, located, same⟩ := Option.map_eq_some_iff.mp found
    cases same
    obtain ⟨whole, length⟩ := locate_eq_some located
    refine ⟨(Place.plug_extend _ _ _ _).trans whole, ?_, Place.earlier_extend _ _ _, ?_, ?_⟩
    · rw [Place.index_extend, length]
    · exact fun none => absurd none (Nat.succ_ne_zero index)
    · intro above next
      rw [Place.parent_extend, length, Nat.succ.inj next]

theorem childrenOf_eq_none {index : Nat} {forest : Forest α} :
    forest.childrenOf index = none ↔ forest.size < index := by
  cases index with
  | zero => simp [childrenOf]
  | succ index =>
    rw [childrenOf, Option.map_eq_none_iff, locate_eq_none]
    omega

end Forest

end Library
