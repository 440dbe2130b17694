import Mathlib.Data.List.Forall2

/-! Reading through views whose operations have preconditions.

A view of a buffer is the list of its elements. Taking a part of it, or one
element, outside the view is not an error the code reports but a fault: nothing
is promised after it. `Checked` keeps the three endings apart, and `Post` is what
a verifier has to show: no fault, and a value that meets the post-condition.
-/

set_option autoImplicit false

namespace Library

inductive Checked (ε α : Type) where
  | value (result : α)
  | error (reason : ε)
  | fault
  deriving DecidableEq, Repr

namespace Checked

variable {ε α β σ : Type}

def bind (first : Checked ε α) (next : α → Checked ε β) : Checked ε β :=
  match first with
  | .value result => next result
  | .error reason => .error reason
  | .fault => .fault

instance : Monad (Checked ε) where
  pure := .value
  bind := bind

@[simp] theorem pure_eq (result : α) : (pure result : Checked ε α) = .value result := rfl

@[simp] theorem value_bind (result : α) (next : α → Checked ε β) :
    (Checked.value result >>= next) = next result := rfl

@[simp] theorem error_bind (reason : ε) (next : α → Checked ε β) :
    (Checked.error reason >>= next) = .error reason := rfl

@[simp] theorem fault_bind (next : α → Checked ε β) : ((Checked.fault : Checked ε α) >>= next) = .fault :=
  rfl

instance : LawfulMonad (Checked ε) where
  map_const := rfl
  id_map outcome := by cases outcome <;> rfl
  seqLeft_eq first second := by cases first <;> cases second <;> rfl
  seqRight_eq first second := by cases first <;> cases second <;> rfl
  pure_seq _ second := by cases second <;> rfl
  bind_pure_comp _ outcome := by cases outcome <;> rfl
  bind_map first _ := by cases first <;> rfl
  pure_bind _ _ := rfl
  bind_assoc outcome _ _ := by cases outcome <;> rfl

theorem bind_eq_value {first : Checked ε α} {next : α → Checked ε β} {result : β} :
    (first >>= next) = .value result ↔ ∃ middle, first = .value middle ∧ next middle = .value result := by
  cases first with
  | value middle => simp
  | error reason => simp
  | fault => simp

/-- No operation is applied outside its precondition, and a value meets `post`. -/
def Post (post : α → Prop) : Checked ε α → Prop
  | .value result => post result
  | .error _ => True
  | .fault => False

/-- No operation is applied outside its precondition. -/
abbrev InBounds (outcome : Checked ε α) : Prop := outcome.Post fun _ => True

variable {post weaker : α → Prop} {outcome : Checked ε α}

@[simp] theorem post_value (result : α) : (Checked.value result : Checked ε α).Post post ↔ post result :=
  Iff.rfl

@[simp] theorem post_error (reason : ε) : (Checked.error reason : Checked ε α).Post post ↔ True := Iff.rfl

@[simp] theorem post_fault : (Checked.fault : Checked ε α).Post post ↔ False := Iff.rfl

@[simp] theorem post_bind (post : β → Prop) (next : α → Checked ε β) :
    (outcome >>= next).Post post ↔ outcome.Post fun result => (next result).Post post := by
  cases outcome <;> rfl

@[simp] theorem post_ite (condition : Prop) [Decidable condition] (yes no : Checked ε α) :
    (if condition then yes else no).Post post ↔
      (condition → yes.Post post) ∧ (¬ condition → no.Post post) := by
  split <;> simp_all

theorem Post.mono (holds : outcome.Post post) (implies : ∀ result, post result → weaker result) :
    outcome.Post weaker := by
  cases outcome with
  | value result => exact implies result holds
  | error reason => trivial
  | fault => exact holds

theorem Post.inBounds (holds : outcome.Post post) : outcome.InBounds :=
  holds.mono fun _ _ => trivial

theorem Post.of_value {result : α} (holds : outcome.Post post) (same : outcome = .value result) :
    post result := by
  subst same
  exact holds

/-- `.value()` of a result: nothing is promised where there is none. -/
def demand {ε' : Type} : Checked ε α → Checked ε' α
  | .value result => .value result
  | _ => .fault

@[simp] theorem demand_value {ε' : Type} (result : α) :
    (demand (.value result : Checked ε α) : Checked ε' α) = .value result := rfl

@[simp] theorem post_demand {ε' : Type} :
    (demand outcome : Checked ε' α).Post post ↔ ∃ result, outcome = .value result ∧ post result := by
  cases outcome <;> simp [demand]

def times (body : σ → Checked ε (α × σ)) : Nat → σ → Checked ε (List α × σ)
  | 0, state => .value ([], state)
  | count + 1, state => do
    let (item, next) ← body state
    let (items, final) ← times body count next
    return (item :: items, final)

theorem times_post {body : σ → Checked ε (α × σ)} (each : ∀ state, (body state).Post fun read => post read.1)
    (count : Nat) (state : σ) : (times body count state).Post fun read => ∀ item ∈ read.1, post item := by
  induction count generalizing state with
  | zero =>
    intro item inside
    cases inside
  | succ count ih =>
    simp only [times, post_bind, pure_eq, post_value]
    apply (each state).mono
    intro read first
    apply (ih read.2).mono
    intro rest others
    simpa only [List.forall_mem_cons] using ⟨first, others⟩

theorem mapM_value {ι : Type} {step : ι → Checked ε α} {result : ι → α} (items : List ι)
    (values : ∀ item ∈ items, step item = .value (result item)) :
    items.mapM step = .value (items.map result) := by
  induction items with
  | nil => rfl
  | cons item items ih =>
    have first := values item List.mem_cons_self
    have rest := ih fun item inside => values item (List.mem_cons_of_mem _ inside)
    rw [List.mapM_cons, first, value_bind, rest, value_bind]
    rfl

theorem times_inBounds {body : σ → Checked ε (α × σ)} (inBounds : ∀ state, (body state).InBounds)
    (count : Nat) (state : σ) : (times body count state).InBounds := by
  have all : (times body count state).Post fun read => ∀ item ∈ read.1, (fun _ => True) item :=
    times_post inBounds count state
  exact all.inBounds

end Checked

/-! The operations on a view, each a fault outside its precondition. -/

namespace Span

variable {ε α : Type}

/-- `span.first(count)`. -/
def first (count : Nat) (span : List α) : Checked ε (List α) :=
  if count ≤ span.length then .value (span.take count) else .fault

/-- `span.subspan(offset)`: what is left from the offset on. -/
def subspan (offset : Nat) (span : List α) : Checked ε (List α) :=
  if offset ≤ span.length then .value (span.drop offset) else .fault

/-- `span.subspan(offset, count)`. -/
def slice (offset count : Nat) (span : List α) : Checked ε (List α) :=
  if offset + count ≤ span.length then .value ((span.drop offset).take count) else .fault

/-- `span[index]`. -/
def element (index : Nat) (span : List α) : Checked ε α :=
  match span[index]? with
  | some item => .value item
  | none => .fault

/-- `array[index] = item`. -/
def store (index : Nat) (item : α) (span : List α) : Checked ε (List α) :=
  if index < span.length then .value (span.set index item) else .fault

variable {span before after : List α} {offset count : Nat}

@[simp] theorem post_first (post : List α → Prop) :
    (first count span : Checked ε (List α)).Post post ↔ count ≤ span.length ∧ post (span.take count) := by
  by_cases inside : count ≤ span.length <;> simp [first, inside]

@[simp] theorem post_subspan (post : List α → Prop) :
    (subspan offset span : Checked ε (List α)).Post post ↔
      offset ≤ span.length ∧ post (span.drop offset) := by
  by_cases inside : offset ≤ span.length <;> simp [subspan, inside]

@[simp] theorem post_slice (post : List α → Prop) :
    (slice offset count span : Checked ε (List α)).Post post ↔
      offset + count ≤ span.length ∧ post ((span.drop offset).take count) := by
  by_cases inside : offset + count ≤ span.length <;> simp [slice, inside]

@[simp] theorem post_element (post : α → Prop) (index : Nat) :
    (element index span : Checked ε α).Post post ↔ ∃ inside : index < span.length, post span[index] := by
  by_cases inside : index < span.length <;> simp [element, inside]

/-! What an operation does on a view that is known piece by piece: a piece before the
place it looks at is skipped, the piece it asks for is what it gets. -/

variable (inside : before.length ≤ offset)

@[simp] theorem first_append (size : before.length = count) :
    (first count (before ++ after) : Checked ε (List α)) = .value before := by
  subst size
  simp [first]

include inside in
@[simp] theorem subspan_skip :
    (subspan offset (before ++ after) : Checked ε (List α)) = subspan (offset - before.length) after := by
  have reaches : offset ≤ (before ++ after).length ↔ offset - before.length ≤ after.length := by
    rw [List.length_append]
    omega
  simp only [subspan, reaches, List.drop_append, List.drop_eq_nil_of_le inside, List.nil_append]

@[simp] theorem subspan_zero : (subspan 0 span : Checked ε (List α)) = .value span := by
  simp [subspan]

theorem subspan_append (size : before.length = count) :
    (subspan count (before ++ after) : Checked ε (List α)) = .value after := by
  subst size
  simp [subspan]

theorem subspan_further {rest : List α} (reached : (subspan offset span : Checked ε (List α)) = .value rest)
    (more : Nat) : (subspan (offset + more) span : Checked ε (List α)) = subspan more rest := by
  by_cases within : offset ≤ span.length
  · rw [subspan, if_pos within, Checked.value.injEq] at reached
    subst reached
    have reaches : offset + more ≤ span.length ↔ more ≤ (span.drop offset).length := by
      rw [List.length_drop]
      omega
    simp only [subspan, reaches, List.drop_drop]
  · rw [subspan, if_neg within] at reached
    cases reached

include inside in
@[simp] theorem slice_skip :
    (slice offset count (before ++ after) : Checked ε (List α)) =
      slice (offset - before.length) count after := by
  have reaches : offset + count ≤ (before ++ after).length ↔
      offset - before.length + count ≤ after.length := by
    rw [List.length_append]
    omega
  simp only [slice, reaches, List.drop_append, List.drop_eq_nil_of_le inside, List.nil_append]

@[simp] theorem slice_append (size : before.length = count) :
    (slice 0 count (before ++ after) : Checked ε (List α)) = .value before := by
  subst size
  simp [slice]

@[simp] theorem slice_all (size : before.length = count) :
    (slice 0 count before : Checked ε (List α)) = .value before := by
  subst size
  simp [slice]

include inside in
@[simp] theorem element_skip :
    (element offset (before ++ after) : Checked ε α) = element (offset - before.length) after := by
  rw [element, List.getElem?_append_right inside]
  rfl

theorem element_append {index : Nat} (within : index < before.length) :
    (element index (before ++ after) : Checked ε α) = .value before[index] := by
  rw [element, List.getElem?_append_left within, List.getElem?_eq_getElem within]

theorem store_append {index : Nat} (item old : α) (next : index = before.length) :
    (store index item (before ++ old :: after) : Checked ε (List α)) = .value (before ++ item :: after) := by
  subst next
  simp [store]

theorem foldlM_stores {β : Type} {round : β → Nat → Checked ε β} (parts : List α → List α → β) (item : Nat → α)
    {count : Nat} {written stale : List α}
    (stores : ∀ i before old after, i < count → before.length = written.length + i →
      round (parts before (old :: after)) i = .value (parts (before ++ [item i]) after))
    (room : count ≤ stale.length) :
    (List.range count).foldlM round (parts written stale) =
      .value (parts (written ++ (List.range count).map item) (stale.drop count)) := by
  induction count with
  | zero => simp
  | succ count ih =>
    have earlier := ih (fun i before old after less => stores i before old after (Nat.lt_succ_of_lt less))
      (Nat.le_of_succ_le room)
    have next : stale.drop count = stale[count] :: stale.drop (count + 1) :=
      List.drop_eq_getElem_cons (Nat.lt_of_succ_le room)
    have wrote : (written ++ (List.range count).map item).length = written.length + count := by
      rw [List.length_append, List.length_map, List.length_range]
    rw [List.range_succ, List.foldlM_append, earlier, next, Checked.value_bind, List.foldlM_cons,
      stores count _ _ _ (Nat.lt_succ_self count) wrote, Checked.value_bind, List.map_append, ← List.append_assoc]
    rfl

@[simp] theorem element_cons (item : α) : (element 0 (item :: after) : Checked ε α) = .value item := rfl

end Span

end Library
