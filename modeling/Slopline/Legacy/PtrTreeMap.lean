import Slopline.Library.Answers
import Slopline.Legacy.PtrTreeAdd
import Slopline.Legacy.PtrTreeRead

/-! The tree of pointers is an ordered forest: its operations in any order, on both. -/

set_option autoImplicit false

namespace Slopline.Legacy

open Library

variable {α : Type}

inductive TreeOp (α : Type) where
  | addItem (inParentIndex : UInt32) (inPtr : Option α)
  | insertItem (inParentIndex inIndex : UInt32) (inPtr : Option α)
  | removeItem (inIndex : UInt32) (inRemoveChild : Bool)
  | removePtr (inPtr : Option α) (inRemoveChild : Bool)
  | removeChildTree (inParentIndex : UInt32)
  | removePtrChildTree (inParentPtr : Option α)
  | clear
  | setItem (inIndex : UInt32) (inPtr : Option α)
  | getItem (inIndex : UInt32)
  | getItemIndex (inPtr : Option α)
  | setParentItem (inChildIndex : UInt32) (inPtr : Option α)
  | getParentItem (inChildIndex : UInt32)
  | getPtrParentItem (inChildPtr : Option α)
  | getParentIndex (inChildIndex : UInt32)
  | getPtrParentIndex (inChildPtr : Option α)
  | getItemLevel (inIndex : UInt32)
  | getPtrLevel (inPtr : Option α)
  | getTreeCount
  | getRootCount
  | getChildTreeCount (inParentIndex : UInt32)
  | getPtrChildTreeCount (inParentPtr : Option α)
  | getNext (ioIndex : UInt32) (inSameParent : Bool)
  | getPrev (ioIndex : UInt32) (inSameParent : Bool)
  | isInList (inPtr : Option α)

inductive TreeAnswer (α : Type) where
  | done
  | flag (value : Bool)
  | number (value : UInt32)
  | pointer (value : Option α)
  /-- What is stored through the arguments, if there is something. -/
  | entry (value : Option (Option α × UInt32))
  deriving DecidableEq, Repr

variable [DecidableEq α]

namespace PtrForest

/-- What an operation by pointer does with the item it finds. -/
def byPtr {ω : Type} (inPtr : Option α) (forest : Forest (Option α)) (found : UInt32 → ω) (missing : ω) : ω :=
  match getTreeItem inPtr forest with
  | some index => found index
  | none => missing

def perform (forest : Forest (Option α)) : TreeOp α → TreeAnswer α × Forest (Option α)
  | .addItem inParentIndex inPtr => (addItem inParentIndex inPtr forest).map .number id
  | .insertItem inParentIndex inIndex inPtr => (insertItem inParentIndex inIndex inPtr forest).map .number id
  | .removeItem inIndex inRemoveChild => (removeItem inIndex inRemoveChild forest).map .pointer id
  | .removePtr inPtr inRemoveChild =>
    byPtr inPtr forest (fun index => (.number index, (removeItem index inRemoveChild forest).2)) (.number 0, forest)
  | .removeChildTree inParentIndex => (removeChildTree inParentIndex forest).map .flag id
  | .removePtrChildTree inParentPtr =>
    byPtr inParentPtr forest (fun index => (removeChildTree index forest).map .flag id) (.flag false, forest)
  | .clear => (.done, .nil)
  | .setItem inIndex inPtr => (setItem inIndex inPtr forest).map .flag id
  | .getItem inIndex => (.pointer (getItem inIndex forest), forest)
  | .getItemIndex inPtr => (.number ((getTreeItem inPtr forest).getD 0), forest)
  | .setParentItem inChildIndex inPtr => (setParentItem inChildIndex inPtr forest).map .flag id
  | .getParentItem inChildIndex => (.entry (getParentItem inChildIndex forest), forest)
  | .getPtrParentItem inChildPtr =>
    (.entry (byPtr inChildPtr forest (fun index => getParentItem index forest) none), forest)
  | .getParentIndex inChildIndex => (.number (getParentIndex inChildIndex forest), forest)
  | .getPtrParentIndex inChildPtr =>
    (.number (byPtr inChildPtr forest (fun index => getParentIndex index forest) 0), forest)
  | .getItemLevel inIndex => (.number (getItemLevel inIndex forest), forest)
  | .getPtrLevel inPtr => (.number (byPtr inPtr forest (fun index => getItemLevel index forest) 0), forest)
  | .getTreeCount => (.number (UInt32.ofNat forest.size), forest)
  | .getRootCount => (.number (UInt32.ofNat forest.roots), forest)
  | .getChildTreeCount inParentIndex => (.number (getChildTreeCount inParentIndex forest), forest)
  | .getPtrChildTreeCount inParentPtr =>
    (.number (if inParentPtr = none then UInt32.ofNat forest.roots
      else byPtr inParentPtr forest (fun index => getChildTreeCount index forest) 0), forest)
  | .getNext ioIndex inSameParent => (.entry (getNext ioIndex inSameParent forest), forest)
  | .getPrev ioIndex inSameParent => (.entry (getPrev ioIndex inSameParent forest), forest)
  | .isInList inPtr => (.flag (getTreeItem inPtr forest).isSome, forest)

/-- On a forest an operation has no way to fail. -/
def answer (forest : Forest (Option α)) (op : TreeOp α) : Checked Empty (TreeAnswer α × Forest (Option α)) :=
  .value (perform forest op)

theorem throughout_cons {asked : Forest (Option α) → Prop} (forest : Forest (Option α)) (op : TreeOp α)
    (ops : List (TreeOp α)) (next : asked (perform forest op).2)
    (all : Checked.Throughout answer asked (perform forest op).2 ops) :
    Checked.Throughout answer asked forest (op :: ops) := by
  intro result left performed
  have same : perform forest op = (result, left) := Checked.value.inj performed
  rw [same] at next all
  exact ⟨next, all⟩

theorem answers_total (forest : Forest (Option α)) (ops : List (TreeOp α)) :
    ∃ answers left, Checked.answers answer forest ops = .value (answers, left) := by
  induction ops generalizing forest with
  | nil => exact ⟨[], forest, rfl⟩
  | cons op ops ih =>
    obtain ⟨others, left, rest⟩ := ih (perform forest op).2
    refine ⟨(perform forest op).1 :: others, left, ?_⟩
    simp only [Checked.answers, answer, Checked.value_bind, rest, Checked.pure_eq]

end PtrForest

namespace CPtrTree

def perform (blocks : UMemory.Blocks (STreeItem α)) (tree : CPtrTree α) :
    TreeOp α → Checked Empty (TreeAnswer α × CPtrTree α)
  | .addItem inParentIndex inPtr => do
    let (answer, tree) ← tree.addItem blocks inParentIndex inPtr
    return (.number answer, tree)
  | .insertItem inParentIndex inIndex inPtr => do
    let (answer, tree) ← tree.insertItem blocks inParentIndex inIndex inPtr
    return (.number answer, tree)
  | .removeItem inIndex inRemoveChild => do
    let (answer, tree) ← tree.removeItem blocks inIndex inRemoveChild
    return (.pointer answer, tree)
  | .removePtr inPtr inRemoveChild => do
    let (answer, tree) ← tree.removePtr blocks inPtr inRemoveChild
    return (.number answer, tree)
  | .removeChildTree inParentIndex => do
    let (answer, tree) ← tree.removeChildTree blocks inParentIndex
    return (.flag answer, tree)
  | .removePtrChildTree inParentPtr => do
    let (answer, tree) ← tree.removePtrChildTree blocks inParentPtr
    return (.flag answer, tree)
  | .clear => return (.done, tree.clear)
  | .setItem inIndex inPtr => do
    let (answer, tree) ← tree.setItem inIndex inPtr
    return (.flag answer, tree)
  | .getItem inIndex => do return (.pointer (← tree.getItem inIndex), tree)
  | .getItemIndex inPtr => do return (.number (← tree.getItemIndex inPtr), tree)
  | .setParentItem inChildIndex inPtr => do
    let (answer, tree) ← tree.setParentItem inChildIndex inPtr
    return (.flag answer, tree)
  | .getParentItem inChildIndex => do return (.entry (← tree.getParentItem inChildIndex), tree)
  | .getPtrParentItem inChildPtr => do return (.entry (← tree.getPtrParentItem inChildPtr), tree)
  | .getParentIndex inChildIndex => do return (.number (← tree.getParentIndex inChildIndex), tree)
  | .getPtrParentIndex inChildPtr => do return (.number (← tree.getPtrParentIndex inChildPtr), tree)
  | .getItemLevel inIndex => do return (.number (← tree.getItemLevel inIndex), tree)
  | .getPtrLevel inPtr => do return (.number (← tree.getPtrLevel inPtr), tree)
  | .getTreeCount => return (.number tree.getTreeCount, tree)
  | .getRootCount => return (.number tree.getRootCount, tree)
  | .getChildTreeCount inParentIndex => do return (.number (← tree.getChildTreeCount inParentIndex), tree)
  | .getPtrChildTreeCount inParentPtr => do return (.number (← tree.getPtrChildTreeCount inParentPtr), tree)
  | .getNext ioIndex inSameParent => do return (.entry (← tree.getNext ioIndex inSameParent), tree)
  | .getPrev ioIndex inSameParent => do return (.entry (← tree.getPrev ioIndex inSameParent), tree)
  | .isInList inPtr => do return (.flag (← tree.isInList inPtr), tree)

variable {tree : CPtrTree α} {forest : Forest (Option α)}

omit [DecidableEq α] in
theorem agrees_answer {ω : Type} (represents : tree.Represents forest) {outcome : Checked Empty ω} {expected : ω}
    (same : outcome = .value expected) (answer : ω → TreeAnswer α) :
    Agrees (do return (answer (← outcome), tree)) (answer expected, forest) := by
  rw [same]
  exact ⟨tree, rfl, represents⟩

omit [DecidableEq α] in
theorem agrees_map {ω : Type} {outcome : Checked Empty (ω × CPtrTree α)} {expected : ω × Forest (Option α)}
    (agrees : Agrees outcome expected) (answer : ω → TreeAnswer α) :
    Agrees (do
      let (value, tree) ← outcome
      return (answer value, tree)) (expected.map answer id) := by
  obtain ⟨next, same, represents⟩ := agrees
  rw [same]
  exact ⟨next, rfl, represents⟩

theorem byPtr_eq {ω : Type} (represents : tree.Represents forest) (inPtr : Option α) {find : UInt32 → Checked Empty ω}
    {found : UInt32 → ω} (each : ∀ index, find index = .value (found index)) (missing : ω) :
    (do match ← tree.getTreeItem inPtr with
      | some index => find index
      | none => return missing : Checked Empty ω) = .value (PtrForest.byPtr inPtr forest found missing) := by
  rw [getTreeItem_eq represents, Checked.value_bind, PtrForest.byPtr]
  cases PtrForest.getTreeItem inPtr forest with
  | some index => exact each index
  | none => rfl

theorem removePtr_agrees (represents : tree.Represents forest) (blocks : UMemory.Blocks (STreeItem α))
    (inPtr : Option α) (inRemoveChild : Bool)
    (fits : PtrForestFits (PtrForest.perform forest (.removePtr inPtr inRemoveChild)).2) :
    Agrees (tree.perform blocks (.removePtr inPtr inRemoveChild))
      (PtrForest.perform forest (.removePtr inPtr inRemoveChild)) := by
  rw [perform, removePtr, getTreeItem_eq represents, Checked.value_bind]
  rw [PtrForest.perform, PtrForest.byPtr] at fits ⊢
  cases found : PtrForest.getTreeItem inPtr forest with
  | some index =>
    rw [found] at fits
    obtain ⟨next, same, kept⟩ := removeItem_agrees represents blocks index inRemoveChild fits
    refine ⟨next, ?_, kept⟩
    simp only [same, Checked.value_bind, Checked.pure_eq]
  | none => exact ⟨tree, rfl, represents⟩

theorem removePtrChildTree_agrees (represents : tree.Represents forest) (blocks : UMemory.Blocks (STreeItem α))
    (inParentPtr : Option α) (fits : PtrForestFits (PtrForest.perform forest (.removePtrChildTree inParentPtr)).2) :
    Agrees (tree.perform blocks (.removePtrChildTree inParentPtr))
      (PtrForest.perform forest (.removePtrChildTree inParentPtr)) := by
  rw [perform, removePtrChildTree, getTreeItem_eq represents, Checked.value_bind]
  rw [PtrForest.perform, PtrForest.byPtr] at fits ⊢
  cases found : PtrForest.getTreeItem inParentPtr forest with
  | some index =>
    rw [found] at fits
    exact agrees_map (removeChildTree_agrees represents blocks index fits) _
  | none => exact ⟨tree, rfl, represents⟩

theorem perform_agrees (represents : tree.Represents forest) (blocks : UMemory.Blocks (STreeItem α)) (op : TreeOp α)
    (fits : PtrForestFits (PtrForest.perform forest op).2) :
    Agrees (tree.perform blocks op) (PtrForest.perform forest op) := by
  cases op with
  | addItem inParentIndex inPtr => exact agrees_map (addItem_agrees represents blocks inParentIndex inPtr fits) _
  | insertItem inParentIndex inIndex inPtr =>
    exact agrees_map (insertItem_agrees represents blocks inParentIndex inIndex inPtr fits) _
  | removeItem inIndex inRemoveChild =>
    exact agrees_map (removeItem_agrees represents blocks inIndex inRemoveChild fits) _
  | removePtr inPtr inRemoveChild => exact removePtr_agrees represents blocks inPtr inRemoveChild fits
  | removeChildTree inParentIndex => exact agrees_map (removeChildTree_agrees represents blocks inParentIndex fits) _
  | removePtrChildTree inParentPtr => exact removePtrChildTree_agrees represents blocks inParentPtr fits
  | clear => exact ⟨{}, rfl, represents_new⟩
  | setItem inIndex inPtr => exact agrees_map (setItem_agrees represents inIndex inPtr fits) _
  | getItem inIndex => exact agrees_answer represents (getItem_eq represents inIndex) _
  | getItemIndex inPtr =>
    have found : tree.getItemIndex inPtr = .value ((PtrForest.getTreeItem inPtr forest).getD 0) := by
      rw [getItemIndex, getTreeItem_eq represents]
      rfl
    exact agrees_answer represents found _
  | setParentItem inChildIndex inPtr =>
    exact agrees_map (setParentItem_agrees represents inChildIndex inPtr fits) _
  | getParentItem inChildIndex => exact agrees_answer represents (getParentItem_eq represents inChildIndex) _
  | getPtrParentItem inChildPtr =>
    exact agrees_answer represents (byPtr_eq represents inChildPtr (getParentItem_eq represents) none) _
  | getParentIndex inChildIndex => exact agrees_answer represents (getParentIndex_eq represents inChildIndex) _
  | getPtrParentIndex inChildPtr =>
    exact agrees_answer represents (byPtr_eq represents inChildPtr (getParentIndex_eq represents) 0) _
  | getItemLevel inIndex => exact agrees_answer represents (getItemLevel_eq represents inIndex) _
  | getPtrLevel inPtr => exact agrees_answer represents (byPtr_eq represents inPtr (getItemLevel_eq represents) 0) _
  | getTreeCount => exact agrees_answer represents (congrArg Checked.value (getTreeCount_eq represents)) _
  | getRootCount => exact agrees_answer represents (congrArg Checked.value (getRootCount_eq represents)) _
  | getChildTreeCount inParentIndex => exact agrees_answer represents (getChildTreeCount_eq represents inParentIndex) _
  | getPtrChildTreeCount inParentPtr =>
    refine agrees_answer represents ?_ _
    by_cases all : inParentPtr = none
    · rw [getPtrChildTreeCount, if_pos all, if_pos all]
      exact congrArg Checked.value (getRootCount_eq represents)
    · rw [getPtrChildTreeCount, if_neg all, if_neg all]
      exact byPtr_eq represents inParentPtr (getChildTreeCount_eq represents) 0
  | getNext ioIndex inSameParent => exact agrees_answer represents (getNext_eq represents ioIndex inSameParent) _
  | getPrev ioIndex inSameParent => exact agrees_answer represents (getPrev_eq represents ioIndex inSameParent) _
  | isInList inPtr =>
    have found : tree.isInList inPtr = .value (PtrForest.getTreeItem inPtr forest).isSome := by
      rw [isInList, getTreeItem_eq represents]
      rfl
    exact agrees_answer represents found _

/-- An operation, with the memory manager at that time. -/
def call (tree : CPtrTree α) (call : UMemory.Blocks (STreeItem α) × TreeOp α) :
    Checked Empty (TreeAnswer α × CPtrTree α) :=
  tree.perform call.1 call.2

theorem call_refines :
    Checked.Refines (call (α := α)) PtrForest.answer Prod.snd PtrForestFits Represents := by
  rintro tree forest ⟨blocks, op⟩ represents fits
  obtain ⟨next, same, kept⟩ := perform_agrees represents blocks op (fits _ _ rfl)
  rw [call, same]
  exact ⟨rfl, kept⟩

/-- Any operations in any order, on any array that stands for a forest, as long as each forest on the way fits: the
array never faults, gives the answers of the forest and stands for the one that is left, whatever new entries hold. -/
theorem tree_answers_as_forest (calls : List (UMemory.Blocks (STreeItem α) × TreeOp α))
    (represents : tree.Represents forest)
    (fits : Checked.Throughout PtrForest.answer PtrForestFits forest (calls.map Prod.snd)) :
    ∃ answers next left, Checked.answers call tree calls = .value (answers, next) ∧
      Checked.answers PtrForest.answer forest (calls.map Prod.snd) = .value (answers, left) ∧
      next.Represents left := by
  have related := call_refines.answers calls represents fits
  obtain ⟨answers, left, expected⟩ := PtrForest.answers_total forest (calls.map Prod.snd)
  rw [expected] at related
  cases performed : Checked.answers call tree calls with
  | value result =>
    rw [performed] at related
    exact ⟨answers, result.2, left, congrArg Checked.value (Prod.ext related.1 rfl), expected, related.2⟩
  | error reason => exact reason.elim
  | fault =>
    rw [performed] at related
    exact related.elim

/-- The item in the middle goes: its first child takes its place, the other one goes below that. -/
def promotion : List (TreeOp Nat) :=
  [.addItem 0 (some 10), .addItem 1 (some 11), .addItem 2 (some 12), .addItem 2 (some 13), .addItem 1 (some 14),
    .removeItem 2 false, .getItem 2, .getParentItem 3, .getNext 2 true, .getItemLevel 3]

def promotionCalls : List (UMemory.Blocks (STreeItem Nat) × TreeOp Nat) :=
  promotion.mapIdx fun i op => (.leaving fun k => ⟨UInt16.ofNat (i + k), 7, some k⟩, op)

theorem tree_answers_as_forest_promotion :
    ∃ answers next left,
      Checked.answers call {} promotionCalls = .value (answers, next) ∧
      Checked.answers PtrForest.answer .nil promotion = .value (answers, left) ∧ next.Represents left := by
  refine tree_answers_as_forest promotionCalls represents_new ?_
  repeat refine PtrForest.throughout_cons _ _ _ ⟨by decide, by decide⟩ ?_
  trivial

end CPtrTree

end Slopline.Legacy
