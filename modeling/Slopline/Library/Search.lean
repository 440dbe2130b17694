import Mathlib.Data.List.Infix

/-! Searching a sequence for a part of it: the first place it occurs, and the last. -/

set_option autoImplicit false

namespace Library.Search

variable {τ : Type} [DecidableEq τ]

def occursAt (needle text : List τ) (i : Nat) : Bool := needle.isPrefixOf (text.drop i)

def find (needle text : List τ) : Option Nat := (List.range (text.length + 1)).find? (occursAt needle text)

def rfind (needle text : List τ) : Option Nat :=
  (List.range (text.length + 1)).reverse.find? (occursAt needle text)

variable {needle text : List τ} {i : Nat}

theorem occursAt_iff :
    occursAt needle text i = true ↔ ∃ after, text.drop i = needle ++ after := by
  rw [occursAt, List.isPrefixOf_iff_prefix]
  constructor
  · rintro ⟨after, rest⟩
    exact ⟨after, rest.symm⟩
  · rintro ⟨after, rest⟩
    exact ⟨after, rest.symm⟩

@[simp] theorem occursAt_length (before after : List τ) :
    occursAt needle (before ++ needle ++ after) before.length = true :=
  occursAt_iff.mpr ⟨after, by simp⟩

theorem find_eq_none : find needle text = none ↔ ∀ before after, text ≠ before ++ needle ++ after := by
  constructor
  · rintro absent before after rfl
    have here := List.find?_eq_none.mp absent before.length
      (List.mem_range.mpr (by simp only [List.length_append]; omega))
    exact here (occursAt_length before after)
  · intro absent
    apply List.find?_eq_none.mpr
    intro i _ occurs
    obtain ⟨after, rest⟩ := occursAt_iff.mp occurs
    apply absent (text.take i) after
    rw [List.append_assoc, ← rest, List.take_append_drop]

theorem find_append (before after : List τ)
    (first : ∀ i < before.length, occursAt needle (before ++ needle ++ after) i = false) :
    find needle (before ++ needle ++ after) = some before.length := by
  apply List.find?_range_eq_some.mpr
  refine ⟨occursAt_length before after, List.mem_range.mpr (by simp only [List.length_append]; omega), ?_⟩
  intro i earlier
  rw [first i earlier, Bool.not_false]

theorem find_split (found : find needle text = some i) :
    ∃ before after, text = before ++ needle ++ after ∧ before.length = i := by
  obtain ⟨occurs, inside, _⟩ := List.find?_range_eq_some.mp found
  obtain ⟨after, rest⟩ := occursAt_iff.mp occurs
  refine ⟨text.take i, after, ?_, ?_⟩
  · rw [List.append_assoc, ← rest, List.take_append_drop]
  · rw [List.length_take]
    have := List.mem_range.mp inside
    omega

/-! One element. -/

variable {c : τ}

theorem find_singleton_none : find [c] text = none ↔ c ∉ text := by
  rw [find_eq_none]
  constructor
  · intro absent inside
    obtain ⟨before, after, split⟩ := List.append_of_mem inside
    exact absent before after (by simpa using split)
  · rintro absent before after rfl
    simp at absent

theorem occursAt_singleton : occursAt [c] text i = true ↔ text[i]? = some c := by
  rw [occursAt_iff, ← List.head?_drop]
  constructor
  · rintro ⟨after, rest⟩
    rw [rest]
    rfl
  · intro head
    cases rest : text.drop i with
    | nil => simp [rest] at head
    | cons other after => exact ⟨after, by simp_all⟩

theorem find_singleton {before : List τ} (after : List τ) (absent : c ∉ before) :
    find [c] (before ++ c :: after) = some before.length := by
  have first : (∀ i < before.length, occursAt [c] (before ++ [c] ++ after) i = false) →
      find [c] (before ++ [c] ++ after) = some before.length := find_append before after
  rw [List.append_assoc, List.singleton_append] at first
  apply first
  intro i earlier
  apply Bool.eq_false_iff.mpr
  rw [ne_eq, occursAt_singleton, List.getElem?_append_left earlier]
  exact fun same => absent (List.mem_of_getElem? same)

theorem find_singleton_split (found : find [c] text = some i) :
    ∃ before after, text = before ++ c :: after ∧ c ∉ before ∧ before.length = i := by
  obtain ⟨before, after, split, length⟩ := find_split found
  refine ⟨before, after, by simpa using split, ?_, length⟩
  intro inside
  obtain ⟨front, middle, rfl, absent⟩ := List.eq_append_cons_of_mem inside
  have earlier := find_singleton (middle ++ [c] ++ after) absent
  have same : text = front ++ c :: (middle ++ [c] ++ after) := by simpa using split
  rw [← same, found] at earlier
  simp [← length] at earlier

theorem find_reverse_range {holds : Nat → Bool} {count last : Nat} (inside : last < count)
    (here : holds last = true) (later : ∀ i < count, last < i → holds i = false) :
    (List.range count).reverse.find? holds = some last := by
  induction count with
  | zero => exact absurd inside (Nat.not_lt_zero _)
  | succ count ih =>
    rw [List.range_succ, List.reverse_append, List.reverse_singleton, List.singleton_append, List.find?_cons]
    by_cases same : count = last
    · simp only [same, here]
    · rw [later count (Nat.lt_succ_self _) (by omega)]
      exact ih (by omega) fun i below => later i (by omega)

theorem rfind_singleton (before : List τ) {after : List τ} (absent : c ∉ after) :
    rfind [c] (before ++ c :: after) = some before.length := by
  apply find_reverse_range
  · rw [List.length_append]
    omega
  · apply occursAt_singleton.mpr
    simp
  · intro i _ beyond
    apply Bool.eq_false_iff.mpr
    rw [ne_eq, occursAt_singleton, List.getElem?_append_right beyond.le]
    obtain ⟨step, rest⟩ : ∃ step, i - before.length = step + 1 := ⟨i - before.length - 1, by omega⟩
    rw [rest, List.getElem?_cons_succ]
    exact fun same => absent (List.mem_of_getElem? same)

theorem rfind_singleton_none (absent : c ∉ text) : rfind [c] text = none := by
  apply List.find?_eq_none.mpr
  intro i _ occurs
  exact absent (List.mem_of_getElem? (occursAt_singleton.mp occurs))

end Library.Search
