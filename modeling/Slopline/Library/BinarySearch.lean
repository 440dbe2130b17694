import Slopline.Library.Loop
import Mathlib.Order.Lattice
import Mathlib.Tactic.Common

/-! Binary search over a table of keys, the first entry looked at on its own.

An answer is whether the target was found, and where: its index, or the one it would have.
-/

set_option autoImplicit false

namespace Library.BinarySearch

variable {κ : Type} [LinearOrder κ] (entry : Nat → κ) (target : κ)

/-- The indices `l` to `r` are still open; `i` was looked at last and held `id`. -/
structure Window (κ : Type) where
  l : Nat
  r : Nat
  i : Nat
  id : κ
  placed : 0 < l

def round (s : Window κ) : Loop (Window κ) (Bool × Nat) :=
  if s.l ≤ s.r then
    let i := (s.l + s.r) / 2
    let id := entry i
    if target = id then .done (true, i)
    else if target < id then .again { s with r := i - 1, i, id }
    else .again { s with l := i + 1, i, id, placed := Nat.succ_pos i }
  else .done (false, if s.id < target then s.i + 1 else s.i)

theorem round_again {s next : Window κ} (again : round entry target s = .again next) :
    ∃ i, s.l ≤ i ∧ i ≤ s.r ∧
      (target < entry i ∧ next.l = s.l ∧ next.r = i - 1 ∨ entry i < target ∧ next.l = i + 1 ∧ next.r = s.r) := by
  unfold round at again
  split at again
  · rename_i opened
    simp only at again
    split at again
    · cases again
    · rename_i other
      refine ⟨(s.l + s.r) / 2, by omega, by omega, ?_⟩
      split at again
      · rename_i less
        cases again
        exact .inl ⟨less, rfl, rfl⟩
      · rename_i more
        cases again
        exact .inr ⟨lt_of_le_of_ne (le_of_not_gt more) (Ne.symm other), rfl, rfl⟩
  · cases again

theorem round_done {s : Window κ} {found : Bool} {index : Nat}
    (done : round entry target s = .done (found, index)) :
    found = true ∧ s.l ≤ index ∧ index ≤ s.r ∧ entry index = target ∨ found = false ∧ s.r < s.l := by
  unfold round at done
  split at done
  · simp only at done
    split at done
    · rename_i same
      cases done
      exact .inl ⟨rfl, by omega, by omega, same.symm⟩
    · split at done <;> cases done
  · rename_i closed
    cases done
    exact .inr ⟨rfl, by omega⟩

theorem round_drops (s next : Window κ) (again : round entry target s = .again next) :
    next.r + 1 - next.l < s.r + 1 - s.l := by
  obtain ⟨i, left, right, ⟨_, sameL, sameR⟩ | ⟨_, sameL, sameR⟩⟩ := round_again entry target again
  · have placed := s.placed
    omega
  · omega

def narrow (s : Window κ) : Bool × Nat :=
  Loop.run (fun s : Window κ => s.r + 1 - s.l) (round_drops entry target) s

def search (size : Nat) : Bool × Nat :=
  if size = 0 then (false, 0)
  else if target = entry 0 then (true, 0)
  else if target < entry 0 then (false, 0)
  else if size - 1 < 1 then (false, 1)
  else narrow entry target { l := 1, r := size - 1, i := 0, id := entry 0, placed := Nat.one_pos }

variable {entry target} {size : Nat}

theorem narrow_sound {s : Window κ} (inside : s.r < size) (found : (narrow entry target s).1 = true) :
    (narrow entry target s).2 < size ∧ entry (narrow entry target s).2 = target := by
  revert found
  refine Loop.run_invariant _ _ (fun s : Window κ => s.r < size)
    (fun result : Bool × Nat => result.1 = true → result.2 < size ∧ entry result.2 = target) ?_ ?_ inside
  · intro s next inside again
    obtain ⟨i, _, right, ⟨_, _, sameR⟩ | ⟨_, _, sameR⟩⟩ := round_again entry target again
    · omega
    · omega
  · rintro s ⟨found, index⟩ inside done held
    obtain ⟨_, _, right, same⟩ | ⟨none, _⟩ := round_done entry target done
    · exact ⟨Nat.lt_of_le_of_lt right inside, same⟩
    · exact absurd (held.symm.trans none) Bool.noConfusion

/-- In an ordered table the window never loses an index that holds the target. -/
theorem narrow_complete (ordered : ∀ i j, i ≤ j → j < size → entry i ≤ entry j) {s : Window κ}
    (inside : s.r < size) {index : Nat} (left : s.l ≤ index) (right : index ≤ s.r)
    (same : entry index = target) : (narrow entry target s).1 = true := by
  refine Loop.run_invariant _ _ (fun s : Window κ => s.r < size ∧ s.l ≤ index ∧ index ≤ s.r)
    (fun result : Bool × Nat => result.1 = true) ?_ ?_ ⟨inside, left, right⟩
  · rintro s next ⟨inside, left, right⟩ again
    obtain ⟨i, notLeft, notRight, ⟨less, sameL, sameR⟩ | ⟨more, sameL, sameR⟩⟩ :=
      round_again entry target again
    · have before : index < i := by
        by_contra behind
        exact absurd (ordered i index (by omega) (by omega)) (not_le_of_gt (same ▸ less))
      omega
    · have behind : i < index := by
        by_contra before
        exact absurd (ordered index i (by omega) (by omega)) (not_le_of_gt (same ▸ more))
      omega
  · rintro s ⟨found, index'⟩ ⟨_, left, right⟩ done
    obtain ⟨held, _⟩ | ⟨_, closed⟩ := round_done entry target done
    · exact held
    · omega

theorem search_sound (found : (search entry target size).1 = true) :
    (search entry target size).2 < size ∧ entry (search entry target size).2 = target := by
  unfold search at found ⊢
  split_ifs at found ⊢ with none first less one
  · exact ⟨Nat.pos_of_ne_zero none, first.symm⟩
  · exact narrow_sound (by simp only; omega) found

theorem search_complete (ordered : ∀ i j, i ≤ j → j < size → entry i ≤ entry j) {index : Nat}
    (inside : index < size) (same : entry index = target) : (search entry target size).1 = true := by
  unfold search
  split_ifs with none first less one
  · omega
  · rfl
  · exact absurd (ordered 0 index (Nat.zero_le _) inside) (not_le_of_gt (same ▸ less))
  · obtain rfl : index = 0 := by omega
    exact absurd same.symm first
  · have notFirst : index ≠ 0 := by
      rintro rfl
      exact first same.symm
    exact narrow_complete ordered (by simp only; omega) (by simp only; omega) (by simp only; omega) same

/-- What a window keeps of a strictly ordered table: everything outside it is settled, and the entry
looked at last is next to it. -/
structure Closing (entry : Nat → κ) (target : κ) (size : Nat) (s : Window κ) : Prop where
  touching : s.l ≤ s.r + 1
  inside : s.r < size
  below : ∀ j < s.l, entry j < target
  above : ∀ j, s.r < j → j < size → target < entry j
  beside : s.id < target ∧ s.i + 1 = s.l ∨ target < s.id ∧ s.i = s.r + 1

theorem Closing.round (ordered : ∀ i j, i < j → j < size → entry i < entry j) {s next : Window κ}
    (closing : Closing entry target size s) (again : round entry target s = .again next) :
    Closing entry target size next := by
  have placed := s.placed
  have inside := closing.inside
  unfold BinarySearch.round at again
  split at again
  · rename_i opened
    simp only at again
    split at again
    · cases again
    · rename_i other
      have middle : s.l ≤ (s.l + s.r) / 2 ∧ (s.l + s.r) / 2 ≤ s.r := by omega
      split at again
      · rename_i less
        cases again
        refine ⟨by dsimp only; omega, by dsimp only; omega, closing.below, ?_, .inr ⟨less, by dsimp only; omega⟩⟩
        intro j behind within
        by_cases same : j = (s.l + s.r) / 2
        · rw [same]
          exact less
        · exact lt_trans less (ordered _ _ (by dsimp only at behind; omega) within)
      · rename_i notLess
        have more : entry ((s.l + s.r) / 2) < target := lt_of_le_of_ne (le_of_not_gt notLess) (Ne.symm other)
        cases again
        refine ⟨by dsimp only; omega, inside, ?_, closing.above, .inl ⟨more, rfl⟩⟩
        intro j before
        by_cases same : j = (s.l + s.r) / 2
        · rw [same]
          exact more
        · exact lt_trans (ordered _ _ (by dsimp only at before; omega) (by omega)) more
  · cases again

/-- In a strictly ordered table what is not found has its place: behind the smaller and before the
greater entries. -/
theorem search_place (ordered : ∀ i j, i < j → j < size → entry i < entry j)
    (missing : (search entry target size).1 = false) :
    (search entry target size).2 ≤ size ∧ (∀ j < (search entry target size).2, entry j < target) ∧
      ∀ j, (search entry target size).2 ≤ j → j < size → target < entry j := by
  unfold search at missing ⊢
  split_ifs at missing ⊢ with none first less one
  · subst none
    exact ⟨Nat.le_refl 0, by simp, by simp⟩
  · refine ⟨Nat.zero_le _, by simp, fun j _ within => ?_⟩
    by_cases zero : j = 0
    · rw [zero]
      exact less
    · exact lt_trans less (ordered 0 j (Nat.pos_of_ne_zero zero) within)
  · have more : entry 0 < target := lt_of_le_of_ne (le_of_not_gt less) (Ne.symm first)
    refine ⟨by dsimp only; omega, fun j before => ?_, fun j behind within => ?_⟩
    · obtain rfl : j = 0 := by dsimp only at before; omega
      exact more
    · dsimp only at behind
      omega
  · have more : entry 0 < target := lt_of_le_of_ne (le_of_not_gt less) (Ne.symm first)
    revert missing
    refine Loop.run_invariant _ _ (Closing entry target size)
      (fun result : Bool × Nat => result.1 = false → result.2 ≤ size ∧ (∀ j < result.2, entry j < target) ∧
        ∀ j, result.2 ≤ j → j < size → target < entry j) ?_ ?_ ?_
    · exact fun s next closing again => closing.round ordered again
    · rintro s ⟨found, index⟩ closing done notFound
      dsimp only at notFound ⊢
      have touching := closing.touching
      have inside := closing.inside
      unfold round at done
      split at done
      · simp only at done
        split at done
        · cases done
          cases notFound
        · split at done <;> cases done
      · rename_i closed
        have place : index = s.l := by
          rcases closing.beside with ⟨below, next⟩ | ⟨above, next⟩
          · rw [if_pos below] at done
            cases done
            exact next
          · rw [if_neg (lt_asymm above)] at done
            cases done
            omega
        rw [place]
        exact ⟨by omega, closing.below, fun j behind within => closing.above j (by omega) within⟩
    · refine ⟨by dsimp only; omega, by dsimp only; omega, ?_, ?_, .inl ⟨more, rfl⟩⟩
      · intro j before
        obtain rfl : j = 0 := by dsimp only at before; omega
        exact more
      · intro j behind within
        dsimp only at behind
        omega

end Library.BinarySearch
