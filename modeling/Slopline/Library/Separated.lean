import Mathlib.Data.List.Infix
import Mathlib.Data.List.Count
import Mathlib.Data.List.Forall2
import Slopline.Library.Search

/-! Parts with a separator between them: `[sep].intercalate parts`, where no part holds the separator
and none is empty; and parts against what each of them denotes. -/

set_option autoImplicit false

namespace Library

open Search

variable {τ : Type} {sep : τ}

def Solid (sep : τ) (part : List τ) : Prop := part ≠ [] ∧ sep ∉ part

theorem intercalate_cons (part : List τ) (parts : List (List τ)) :
    [sep].intercalate (part :: parts) = part ++ parts.flatMap (sep :: ·) := by
  induction parts generalizing part with
  | nil => simp
  | cons next parts ih => simp [ih]

theorem intercalate_snoc (parts : List (List τ)) (last : List τ) :
    [sep].intercalate (parts ++ [last]) = parts.flatMap (· ++ [sep]) ++ last := by
  induction parts with
  | nil => simp
  | cons part parts ih =>
    rw [List.cons_append, List.intercalate_cons_of_ne_nil (by simp), ih, List.flatMap_cons]
    simp only [List.append_assoc]

theorem mem_intercalate {parts : List (List τ)} {item : τ} (inside : item ∈ [sep].intercalate parts) :
    item = sep ∨ ∃ part ∈ parts, item ∈ part := by
  cases parts with
  | nil => simp at inside
  | cons part parts =>
    rw [intercalate_cons, List.mem_append, List.mem_flatMap] at inside
    rcases inside with first | ⟨other, among, here⟩
    · exact .inr ⟨part, by simp, first⟩
    · rcases List.mem_cons.mp here with same | within
      · exact .inl same
      · exact .inr ⟨other, by simp [among], within⟩

def Spaced (sep : τ) (text : List τ) : Prop :=
  ∀ before after, text = before ++ sep :: after → ∃ other rest, after = other :: rest ∧ other ≠ sep

theorem Solid.head {part : List τ} (solid : Solid sep part) (text : List τ) :
    ∃ other rest, part ++ text = other :: rest ∧ other ≠ sep := by
  cases part with
  | nil => exact absurd rfl solid.1
  | cons other rest =>
    refine ⟨other, rest ++ text, rfl, ?_⟩
    rintro rfl
    exact solid.2 (by simp)

theorem Spaced.behind {part text : List τ} (absent : sep ∉ part) (spaced : Spaced sep text) :
    Spaced sep (part ++ text) := by
  induction part with
  | nil => exact spaced
  | cons first part ih =>
    intro before after split
    cases before with
    | nil =>
      obtain ⟨same, _⟩ := List.cons.inj split
      exact absurd (by simp [same]) absent
    | cons other before =>
      apply ih (fun inside => absent (by simp [inside])) before after
      exact (List.cons.inj split).2

theorem spaced_flatMap {parts : List (List τ)} (solid : ∀ part ∈ parts, Solid sep part) :
    Spaced sep (parts.flatMap (sep :: ·)) := by
  induction parts with
  | nil =>
    intro before after split
    simp at split
  | cons part parts ih =>
    have rest := ih fun other inside => solid other (by simp [inside])
    have here := solid part (by simp)
    intro before after split
    rw [List.flatMap_cons, List.cons_append] at split
    cases before with
    | nil =>
      obtain ⟨_, same⟩ := List.cons.inj split
      rw [← same]
      exact here.head _
    | cons other before => exact rest.behind here.2 before after (List.cons.inj split).2

theorem spaced_intercalate {parts : List (List τ)} (solid : ∀ part ∈ parts, Solid sep part) :
    Spaced sep ([sep].intercalate parts) := by
  cases parts with
  | nil =>
    intro before after split
    simp at split
  | cons part parts =>
    rw [intercalate_cons]
    exact (spaced_flatMap fun other inside => solid other (by simp [inside])).behind (solid part (by simp)).2

variable [DecidableEq τ]

theorem count_intercalate {parts : List (List τ)} (solid : ∀ part ∈ parts, Solid sep part) :
    ([sep].intercalate parts).count sep = parts.length - 1 := by
  cases parts with
  | nil => rfl
  | cons part parts =>
    have rest : (parts.flatMap (sep :: ·)).count sep = parts.length := by
      induction parts with
      | nil => rfl
      | cons next parts ih =>
        have absent := (solid next (by simp)).2
        rw [List.flatMap_cons, List.count_append, List.count_cons_self, List.count_eq_zero_of_not_mem absent]
        rw [ih (fun other inside => solid other (by simp at inside ⊢; tauto)), List.length_cons]
        omega
    rw [intercalate_cons, List.count_append, List.count_eq_zero_of_not_mem (solid part (by simp)).2, rest]
    simp

theorem find_pair_none {text : List τ} (spaced : Spaced sep text) : find [sep, sep] text = none := by
  apply find_eq_none.mpr
  intro before after split
  obtain ⟨other, rest, same, apart⟩ := spaced before (sep :: after) (by simpa using split)
  exact apart (List.cons.inj same).1.symm

theorem find_pair {text : List τ} (spaced : Spaced sep text) (after : List τ) :
    find [sep, sep] (text ++ [sep, sep] ++ after) = some text.length := by
  apply find_append
  intro i earlier
  apply Bool.eq_false_iff.mpr
  intro occurs
  obtain ⟨behind, rest⟩ := occursAt_iff.mp occurs
  rw [List.append_assoc, List.drop_append_of_le_length earlier.le, List.drop_eq_getElem_cons earlier] at rest
  obtain ⟨here, next⟩ := List.cons.inj rest
  obtain ⟨other, others, same, apart⟩ := spaced (text.take i) (text.drop (i + 1)) (by
    rw [← here, ← List.drop_eq_getElem_cons earlier, List.take_append_drop])
  rw [same] at next
  exact apart (List.cons.inj next).1

/-! Two lists, item by item. -/

section
variable {α β : Type} {R : α → β → Prop}

theorem forall₂_of_mem {items : List α} {values : List β} (each : List.Forall₂ R items values) {item : α}
    (inside : item ∈ items) : ∃ value ∈ values, R item value := by
  induction each with
  | nil => simp at inside
  | @cons first value items values here _ ih =>
    rcases List.mem_cons.mp inside with rfl | rest
    · exact ⟨value, by simp, here⟩
    · obtain ⟨other, among, there⟩ := ih rest
      exact ⟨other, by simp [among], there⟩

theorem forall₂_snoc {items : List α} {before : List β} {last : β}
    (each : List.Forall₂ R items (before ++ [last])) :
    ∃ front item, items = front ++ [item] ∧ List.Forall₂ R front before ∧ R item last := by
  induction before generalizing items with
  | nil =>
    obtain ⟨item, rest, here, none, rfl⟩ := List.forall₂_cons_right_iff.mp each
    exact ⟨[], item, by rw [List.forall₂_nil_right_iff.mp none, List.nil_append], .nil, here⟩
  | cons first before ih =>
    obtain ⟨item, rest, here, others, rfl⟩ := List.forall₂_cons_right_iff.mp each
    obtain ⟨front, final, rfl, more, there⟩ := ih others
    exact ⟨item :: front, final, rfl, .cons here more, there⟩

end

end Library
