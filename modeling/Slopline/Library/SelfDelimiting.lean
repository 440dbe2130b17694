import Slopline.Library.Checked

/-! Decoders that can tell a cut input from a padded one.

The decoder runs on a view and on a longer view that begins with it, step beside
step. The shorter run either comes up short, or has read the same so far: a test
then goes the same way in both, and the end of the input is where they part.
-/

set_option autoImplicit false

namespace Library

variable {ε α β γ δ τ : Type}

def Shorter (cut whole : List τ) : Prop := cut <+: whole ∧ cut.length < whole.length

/-- The outcome on a cut view beside the one on the whole view: the cut run is short of
input, or both fail, or the cut run has a value and `related` says what the whole run has. -/
inductive Cut (short : ε) (related : α → Checked ε β → Prop) : Checked ε α → Checked ε β → Prop where
  | short (outcome : Checked ε β) : Cut short related (.error short) outcome
  | fault (outcome : Checked ε β) : Cut short related .fault outcome
  | errors (reason other : ε) : Cut short related (.error reason) (.error other)
  | value {result : α} {outcome : Checked ε β} : related result outcome →
      Cut short related (.value result) outcome

def Both (related : α → β → Prop) (result : α) (outcome : Checked ε β) : Prop :=
  ∃ other, outcome = .value other ∧ related result other

def Taken (cut whole : α × List τ) : Prop := cut.1 = whole.1 ∧ Shorter cut.2 whole.2

def Refused (trailing : ε) (_ : α) (outcome : Checked ε β) : Prop := outcome = .error trailing

/-- A decoder that never takes one message for another that is longer or shorter. -/
def SelfDelimiting (short trailing : ε) (decode : List τ → Checked ε α) : Prop :=
  ∀ cut whole, Shorter cut whole → Cut short (Refused trailing) (decode cut) (decode whole)

section
variable {short trailing : ε} {cut whole : List τ}

theorem Shorter.drop (shorter : Shorter cut whole) {count : Nat} (inside : count ≤ cut.length) :
    Shorter (cut.drop count) (whole.drop count) := by
  obtain ⟨⟨more, rfl⟩, longer⟩ := shorter
  constructor
  · rw [List.drop_append_of_le_length inside]
    exact List.prefix_append _ _
  · simp only [List.length_drop]
    omega

theorem Cut.bind {related : α → β → Prop} {final : γ → Checked ε δ → Prop} {first : Checked ε α}
    {other : Checked ε β} {next : α → Checked ε γ} {next' : β → Checked ε δ}
    (start : Cut short (Both related) first other)
    (go : ∀ result result', related result result' → Cut short final (next result) (next' result')) :
    Cut short final (first >>= next) (other >>= next') := by
  cases start with
  | short outcome => exact .short _
  | fault outcome => exact .fault _
  | errors reason other => exact .errors reason other
  | value both =>
    obtain ⟨result', rfl, same⟩ := both
    exact go _ _ same

theorem Cut.mono {related weaker : α → β → Prop} {first : Checked ε α} {other : Checked ε β}
    (start : Cut short (Both related) first other)
    (implies : ∀ result result', related result result' → weaker result result') :
    Cut short (Both weaker) first other := by
  cases start with
  | short outcome => exact .short _
  | fault outcome => exact .fault _
  | errors reason other => exact .errors reason other
  | value both =>
    obtain ⟨result', same, holds⟩ := both
    exact .value ⟨result', same, implies _ _ holds⟩

theorem Cut.same {final : γ → Checked ε δ → Prop} {first other : Checked ε α} {next : α → Checked ε γ}
    {next' : α → Checked ε δ} (start : Cut short (Both Eq) first other)
    (go : ∀ result, Cut short final (next result) (next' result)) :
    Cut short final (first >>= next) (other >>= next') := by
  refine Cut.bind start fun result result' same => ?_
  subst same
  exact go result

theorem Cut.needs {related : α → Checked ε β → Prop} {count : Nat} {yes : Checked ε α}
    {yes' : Checked ε β} (shorter : Shorter cut whole)
    (go : count ≤ cut.length → Cut short related yes yes') :
    Cut short related (if cut.length < count then .error short else yes)
      (if whole.length < count then .error short else yes') := by
  by_cases enough : cut.length < count
  · rw [if_pos enough]
    exact .short _
  · have := shorter.2
    rw [if_neg enough, if_neg (by omega)]
    exact go (by omega)

theorem Cut.test {related : α → Checked ε β → Prop} {condition : Prop} [Decidable condition]
    {yes no : Checked ε α} {yes' no' : Checked ε β} (holds : condition → Cut short related yes yes')
    (fails : ¬ condition → Cut short related no no') :
    Cut short related (if condition then yes else no) (if condition then yes' else no') := by
  by_cases test : condition
  · simpa only [if_pos test] using holds test
  · simpa only [if_neg test] using fails test

theorem Cut.refl {related : α → α → Prop} (outcome : Checked ε α) (same : ∀ result, related result result) :
    Cut short (Both related) outcome outcome := by
  cases outcome with
  | value result => exact .value ⟨result, rfl, same result⟩
  | error reason => exact .errors reason reason
  | fault => exact .fault _

/-- The whole view is refused for what follows, whatever the cut one gives. -/
theorem Cut.refused (outcome : Checked ε α) :
    Cut short (Refused (β := β) trailing) outcome (.error trailing) := by
  cases outcome with
  | value result => exact .value rfl
  | error reason => exact .errors reason trailing
  | fault => exact .fault _

-- The cut view is a prefix of the whole one: what lies inside the cut view is the same in both.
theorem Cut.first (shorter : Shorter cut whole) (count : Nat) :
    Cut short (Both Eq) (Span.first count cut) (Span.first count whole) := by
  by_cases inside : count ≤ cut.length
  · obtain ⟨more, rfl⟩ := shorter.1
    have reaches : count ≤ (cut ++ more).length := by simp only [List.length_append]; omega
    simp only [Span.first, if_pos inside, if_pos reaches]
    exact .value ⟨_, rfl, (List.take_append_of_le_length inside).symm⟩
  · rw [Span.first, if_neg inside]
    exact .fault _

theorem Cut.slice (shorter : Shorter cut whole) (offset count : Nat) :
    Cut short (Both Eq) (Span.slice offset count cut) (Span.slice offset count whole) := by
  by_cases inside : offset + count ≤ cut.length
  · obtain ⟨more, rfl⟩ := shorter.1
    have reaches : offset + count ≤ (cut ++ more).length := by simp only [List.length_append]; omega
    simp only [Span.slice, if_pos inside, if_pos reaches]
    refine .value ⟨_, rfl, ?_⟩
    rw [List.drop_append_of_le_length (by omega),
      List.take_append_of_le_length (by simp only [List.length_drop]; omega)]
  · rw [Span.slice, if_neg inside]
    exact .fault _

theorem Cut.element (shorter : Shorter cut whole) (index : Nat) :
    Cut short (Both Eq) (Span.element index cut) (Span.element index whole) := by
  by_cases inside : index < cut.length
  · obtain ⟨more, rfl⟩ := shorter.1
    rw [Span.element, Span.element, List.getElem?_append_left inside]
    exact Cut.refl _ fun _ => rfl
  · rw [Span.element, List.getElem?_eq_none (by omega)]
    exact .fault _

theorem Cut.subspan_length (shorter : Shorter cut whole) (offset : Nat) :
    Cut short (Both fun rest rest' => Shorter rest rest' ∧ offset + rest.length = cut.length)
      (Span.subspan offset cut) (Span.subspan offset whole) := by
  by_cases inside : offset ≤ cut.length
  · have reaches : offset ≤ whole.length := by have := shorter.2; omega
    rw [Span.subspan, Span.subspan, if_pos inside, if_pos reaches]
    refine .value ⟨_, rfl, shorter.drop inside, ?_⟩
    rw [List.length_drop]
    omega
  · rw [Span.subspan, if_neg inside]
    exact .fault _

theorem Cut.subspan (shorter : Shorter cut whole) (offset : Nat) :
    Cut short (Both Shorter) (Span.subspan offset cut) (Span.subspan offset whole) :=
  (Cut.subspan_length shorter offset).mono fun _ _ both => both.1

theorem Cut.times {body : List τ → Checked ε (α × List τ)}
    (round : ∀ cut whole, Shorter cut whole → Cut short (Both Taken) (body cut) (body whole))
    (count : Nat) (shorter : Shorter cut whole) :
    Cut short (Both Taken) (Checked.times body count cut) (Checked.times body count whole) := by
  induction count generalizing cut whole with
  | zero => exact .value ⟨_, rfl, rfl, shorter⟩
  | succ count ih =>
    refine Cut.bind (round cut whole shorter) fun taken taken' ⟨item, rest⟩ => ?_
    refine Cut.bind (ih rest) fun others others' ⟨items, final⟩ => ?_
    exact .value ⟨_, rfl, by rw [item, items], final⟩

/-- The last check of a decoder that reads to the end: the whole view still has something left. -/
theorem Cut.ends {result result' : α} (shorter : Shorter cut whole) :
    Cut short (Refused trailing) (if cut ≠ [] then .error trailing else .value result)
      (if whole ≠ [] then .error trailing else .value result') := by
  have left : whole ≠ [] := List.ne_nil_of_length_pos (by have := shorter.2; omega)
  rw [if_pos left]
  by_cases empty : cut = []
  · rw [if_neg (not_not_intro empty)]
    exact .value rfl
  · rw [if_pos empty]
    exact .errors _ _

/-- The two checks of a decoder that knows the size of its message from what it has read:
whatever it does with a view of that size, a longer one is refused. -/
theorem Cut.exact {total : Nat} {yes yes' : Checked ε α} (shorter : Shorter cut whole) :
    Cut short (Refused trailing)
      (if cut.length < total then .error short else if total < cut.length then .error trailing else yes)
      (if whole.length < total then .error short
        else if total < whole.length then .error trailing else yes') := by
  refine Cut.needs shorter fun enough => ?_
  have longer : total < whole.length := by have := shorter.2; omega
  rw [if_pos longer]
  split
  · exact .errors _ _
  · cases yes with
    | value result => exact .value rfl
    | error reason => exact .errors _ _
    | fault => exact .fault _

end

namespace SelfDelimiting

variable {short trailing : ε} {decode : List τ → Checked ε α} {message : List τ} {result : α}

/-- A message that is accepted is short wherever it is cut. -/
theorem cut (delimits : SelfDelimiting short trailing decode)
    (inBounds : ∀ span, (decode span).InBounds) (accepted : decode message = .value result) {piece : List τ}
    (start : piece <+: message) (proper : piece ≠ message) : decode piece = .error short := by
  have shorter : Shorter piece message := by
    have distinct : piece.length ≠ message.length := fun same => proper (start.eq_of_length same)
    exact ⟨start, Nat.lt_of_le_of_ne start.length_le distinct⟩
  have inside := inBounds piece
  have beside := delimits piece message shorter
  rw [accepted] at beside
  generalize decode piece = outcome at beside inside
  cases beside with
  | short => rfl
  | fault => exact inside.elim
  | value refused => cases refused

/-- Whatever follows a message that is accepted is refused. -/
theorem followed (delimits : SelfDelimiting short trailing decode) (accepted : decode message = .value result)
    {more : List τ} (something : more ≠ []) : decode (message ++ more) = .error trailing := by
  have shorter : Shorter message (message ++ more) := by
    have := List.length_pos_iff.mpr something
    exact ⟨List.prefix_append _ _, by simp only [List.length_append]; omega⟩
  have beside := delimits message (message ++ more) shorter
  rw [accepted] at beside
  cases beside with
  | value refused => exact refused

end SelfDelimiting

end Library
