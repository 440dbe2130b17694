import Mathlib.Data.List.Basic

/-! Feistel networks: a round mixes one half into the other and swaps them, and the two last subkeys
whiten the halves with the last swap undone. Run with its subkeys backwards, a network undoes itself.

Of the operation that mixes nothing is used but that it is associative and its own inverse.
-/

set_option autoImplicit false

namespace Library

variable {α : Type} (mix : α → α → α) (F : α → α)

def feistelRound (halves : α × α) (key : α) : α × α := (mix (F (mix halves.1 key)) halves.2, mix halves.1 key)

/-- The closing step: the halves are swapped back, each with its subkey. -/
def whiten (halves : α × α) (third last : α) : α × α := (mix halves.2 last, mix halves.1 third)

/-- A network by its subkeys. -/
def feistelNetwork : List α → α × α → α × α
  | [third, last], halves => whiten mix halves third last
  | key :: keys, halves => feistelNetwork keys (feistelRound mix F halves key)
  | [], halves => halves

theorem feistelNetwork_cons (key : α) {keys : List α} (more : 2 ≤ keys.length) (halves : α × α) :
    feistelNetwork mix F (key :: keys) halves = feistelNetwork mix F keys (feistelRound mix F halves key) := by
  match keys, more with
  | _ :: _ :: _, _ => rfl

theorem feistelNetwork_rounds (keys : List α) (third last : α) (halves : α × α) :
    feistelNetwork mix F (keys ++ [third, last]) halves =
      whiten mix (keys.foldl (feistelRound mix F) halves) third last := by
  induction keys generalizing halves with
  | nil => rfl
  | cons key keys ih =>
    have more : 2 ≤ (keys ++ [third, last]).length := by simp
    rw [List.cons_append, feistelNetwork_cons _ _ _ more, ih, List.foldl_cons]

variable {mix F}
variable (associative : ∀ a b c, mix (mix a b) c = mix a (mix b c))
variable (cancels : ∀ a b, mix a (mix a b) = b ∧ mix (mix b a) a = b)

include associative in
/-- A subkey behind the last one makes a round of the closing step, so that it takes the round back. -/
theorem feistelNetwork_snoc {keys : List α} (more : 2 ≤ keys.length) (key : α) (halves : α × α) :
    feistelNetwork mix F (keys ++ [key]) halves =
      (mix (feistelNetwork mix F keys halves).2 key,
        mix (F (feistelNetwork mix F keys halves).2) (feistelNetwork mix F keys halves).1) := by
  induction keys generalizing halves with
  | nil => simp at more
  | cons first keys ih =>
    match keys, more with
    | [second], _ =>
      simp only [feistelNetwork, List.cons_append, List.nil_append, feistelRound, whiten, associative]
    | second :: third :: keys, _ =>
      have rest := ih (by simp) (feistelRound mix F halves first)
      have more : 2 ≤ (second :: third :: keys ++ [key]).length := by simp
      rw [List.cons_append, feistelNetwork_cons _ _ _ more, rest]
      rfl

include associative cancels in
/-- Backwards, a network undoes itself. -/
theorem feistelNetwork_reverse {keys : List α} (more : 2 ≤ keys.length) (halves : α × α) :
    feistelNetwork mix F keys.reverse (feistelNetwork mix F keys halves) = halves := by
  induction keys generalizing halves with
  | nil => simp at more
  | cons first keys ih =>
    match keys, more with
    | [second], _ => simp [feistelNetwork, whiten, cancels]
    | second :: third :: keys, _ =>
      have rest := ih (by simp) (feistelRound mix F halves first)
      have more : 2 ≤ (second :: third :: keys).reverse.length := by simp
      rw [List.reverse_cons, feistelNetwork_snoc associative more, feistelNetwork_cons _ _ _ (by simp), rest]
      simp only [feistelRound, cancels]

end Library
