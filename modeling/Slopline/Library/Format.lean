import Slopline.Library.Checked

/-! Formats as relations between values and the elements they are laid out as.

A layout may leave freedom (reserved or padding elements), so it is a relation and
not a function. A reader takes one laid-out value off the front of a view; a
decoder accepts a whole view.
-/

set_option autoImplicit false

namespace Library

variable {ε α τ : Type}

/-- `read` takes a laid-out value off the front, and nothing but one. -/
structure Reads (read : List τ → Checked ε (α × List τ)) (laid : α → List τ → Prop) : Prop where
  complete : ∀ item used rest, laid item used → read (used ++ rest) = .value (item, rest)
  sound : ∀ span, (read span).Post fun taken => ∃ used, laid taken.1 used ∧ span = used ++ taken.2

/-- `decode` accepts the laid-out views and returns what they lay out. -/
def Decodes (decode : List τ → Checked ε α) (laid : α → List τ → Prop) : Prop :=
  ∀ span item, decode span = .value item ↔ laid item span

inductive Series (laid : α → List τ → Prop) : List α → List τ → Prop where
  | nil : Series laid [] []
  | cons {item : α} {items : List α} {used more : List τ} : laid item used → Series laid items more →
      Series laid (item :: items) (used ++ more)

variable {read : List τ → Checked ε (α × List τ)} {laid : α → List τ → Prop}

theorem series_iff {fits : α → Prop} {encode : α → List τ}
    (functional : ∀ item used, laid item used ↔ fits item ∧ used = encode item) (items : List α)
    (used : List τ) :
    Series laid items used ↔ (∀ item ∈ items, fits item) ∧ used = items.flatMap encode := by
  induction items generalizing used with
  | nil =>
    constructor
    · rintro ⟨⟩
      simp
    · rintro ⟨_, rfl⟩
      exact .nil
  | cons item items ih =>
    constructor
    · rintro (_ | ⟨first, rest⟩)
      obtain ⟨fit, rfl⟩ := (functional _ _).mp first
      obtain ⟨fits, rfl⟩ := (ih _).mp rest
      simpa using ⟨fit, fits⟩
    · rintro ⟨fits, rfl⟩
      refine .cons ((functional _ _).mpr ⟨fits item (by simp), rfl⟩) ((ih _).mpr ⟨?_, rfl⟩)
      exact fun other inside => fits other (by simp [inside])

theorem Reads.inBounds (reads : Reads read laid) (span : List τ) : (read span).InBounds :=
  (reads.sound span).inBounds

/-! When a step of an encoder succeeds. -/

theorem bind_eq_ok {β : Type} {first : Except ε α} {next : α → Except ε β} {result : β} :
    (first >>= next) = .ok result ↔ ∃ item, first = .ok item ∧ next item = .ok result := by
  cases first with
  | error reason =>
    constructor
    · rintro ⟨⟩
    · rintro ⟨_, ⟨⟩, _⟩
  | ok item =>
    constructor
    · exact fun same => ⟨item, rfl, same⟩
    · rintro ⟨_, ⟨⟩, same⟩
      exact same

theorem unless_eq_ok {refused : Prop} [Decidable refused] {reason : ε} {next : Except ε α} {result : α} :
    (if refused then .error reason else next) = .ok result ↔ ¬ refused ∧ next = .ok result := by
  split <;> simp_all

theorem if_eq_ok {allowed : Prop} [Decidable allowed] {reason : ε} {next : Except ε α} {result : α} :
    (if allowed then next else .error reason) = .ok result ↔ allowed ∧ next = .ok result := by
  split <;> simp_all

theorem foldlM_append {fits : α → Prop} [DecidablePred fits] {encode : α → List τ} {reason : ε}
    {append : List τ → α → Except ε (List τ)}
    (round : ∀ out item, append out item = if fits item then .ok (out ++ encode item) else .error reason)
    (items : List α) (out : List τ) :
    items.foldlM append out =
      if ∀ item ∈ items, fits item then .ok (out ++ items.flatMap encode) else .error reason := by
  induction items generalizing out with
  | nil => simp [pure, Except.pure]
  | cons item items ih =>
    rw [List.foldlM_cons, round]
    by_cases fit : fits item
    · rw [if_pos fit]
      change items.foldlM append (out ++ encode item) = _
      rw [ih]
      simp only [List.mem_cons, forall_eq_or_imp, fit, true_and, List.flatMap_cons, List.append_assoc]
    · rw [if_neg fit, if_neg fun all => fit (all item (by simp))]
      rfl

theorem Series.times (complete : ∀ item used rest, laid item used → read (used ++ rest) = .value (item, rest))
    {items : List α} {used : List τ} (series : Series laid items used) (rest : List τ) :
    Checked.times read items.length (used ++ rest) = .value (items, rest) := by
  induction series with
  | nil => rfl
  | @cons item items used more first _ ih =>
    rw [List.append_assoc, List.length_cons, Checked.times, complete _ _ _ first]
    simp only [Checked.value_bind, ih, Checked.pure_eq]

theorem times_flatMap {fits : α → Prop} {encode : α → List τ}
    (complete : ∀ item rest, fits item → read (encode item ++ rest) = .value (item, rest))
    {items : List α} (all : ∀ item ∈ items, fits item) (rest : List τ) :
    Checked.times read items.length (items.flatMap encode ++ rest) = .value (items, rest) := by
  have series : Series (fun item used => fits item ∧ used = encode item) items (items.flatMap encode) :=
    (series_iff (fun _ _ => Iff.rfl) _ _).mpr ⟨all, rfl⟩
  refine series.times (fun item used rest laid => ?_) rest
  rw [laid.2]
  exact complete item rest laid.1

theorem Reads.times (reads : Reads read laid) (count : Nat) :
    Reads (Checked.times read count) fun items used => items.length = count ∧ Series laid items used := by
  constructor
  · rintro items used rest ⟨rfl, series⟩
    exact series.times reads.complete rest
  · intro span
    induction count generalizing span with
    | zero => exact ⟨[], ⟨rfl, .nil⟩, rfl⟩
    | succ count ih =>
      simp only [Checked.times, Checked.post_bind, Checked.pure_eq, Checked.post_value]
      refine (reads.sound span).mono ?_
      rintro taken ⟨used, first, split⟩
      refine (ih taken.2).mono ?_
      rintro others ⟨more, ⟨length, series⟩, tail⟩
      refine ⟨used ++ more, ⟨by simp [length], .cons first series⟩, ?_⟩
      rw [split, tail, List.append_assoc]

/-! Both ways at once. -/

/-- What the encoder lets out, the decoder takes back. -/
def RoundTrips {δ : Type} (encode : α → Except δ (List τ)) (decode : List τ → Checked ε α) (item : α) : Prop :=
  ∀ span, encode item = .ok span → decode span = .value item

/-- The encoder takes what fits and the decoder gives it back; what the decoder accepts is
written again in its canonical form. -/
structure Codec {δ : Type} (encode : α → Except δ (List τ)) (decode : List τ → Checked ε α)
    (fits : α → Prop) (canonical : List τ → List τ) : Prop where
  succeeds : ∀ item, (∃ span, encode item = .ok span) ↔ fits item
  restores : ∀ item, RoundTrips encode decode item
  rewrites : ∀ span item, decode span = .value item → encode item = .ok (canonical span)

theorem Codec.of_spans {δ : Type} {encode : α → Except δ (List τ)} {decode : List τ → Checked ε α}
    {fits : α → Prop} {canonical : List τ → List τ} {spanOf : α → List τ}
    (encodes : ∀ item span, encode item = .ok span ↔ fits item ∧ span = spanOf item)
    (complete : ∀ item, fits item → decode (spanOf item) = .value item)
    (sound : ∀ span, (decode span).Post fun item => fits item ∧ canonical span = spanOf item) :
    Codec encode decode fits canonical := by
  constructor
  · intro item
    constructor
    · rintro ⟨span, same⟩
      exact ((encodes item span).mp same).1
    · intro fit
      exact ⟨spanOf item, (encodes _ _).mpr ⟨fit, rfl⟩⟩
  · intro item span same
    obtain ⟨fit, rfl⟩ := (encodes item span).mp same
    exact complete item fit
  · intro span item same
    apply (encodes item _).mpr
    exact (sound span).of_value same

end Library
