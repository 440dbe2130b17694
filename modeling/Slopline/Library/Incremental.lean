import Slopline.Library.Loop
import Mathlib.Data.List.Basic

/-! Loops that eat from a buffer which grows between runs.

`feed` appends to the buffer inside the state. A loop is incremental when a round
it can make now it makes in the same way with more bytes behind it, and when it
stops either because it waits for more or because it has halted for good. Such a
loop cannot tell how its input was cut.
-/

set_option autoImplicit false

namespace Library

structure Incremental {σ α : Type} (body : σ → Loop σ σ) (feed : List α → σ → σ)
    (halted inv : σ → Prop) : Prop where
  feed_nil : ∀ state, feed [] state = state
  feed_feed : ∀ first rest state, feed rest (feed first state) = feed (first ++ rest) state
  halted_feed : ∀ bytes state, halted (feed bytes state) ↔ halted state
  inv_feed : ∀ bytes state, inv state → inv (feed bytes state)
  inv_again : ∀ state next, inv state → body state = .again next → inv next
  inv_done : ∀ state result, inv state → body state = .done result → inv result
  again : ∀ bytes state next, inv state → body state = .again next →
    body (feed bytes state) = .again (feed bytes next)
  waits : ∀ state result, body state = .done result → ¬ halted result → result = state
  halts : ∀ bytes state result, body state = .done result → halted result →
    body (feed bytes state) = .done (feed bytes result)
  stays : ∀ state, halted state → body state = .done state

namespace Incremental

variable {σ α : Type} {body : σ → Loop σ σ} {feed : List α → σ → σ} {halted inv : σ → Prop}
  (measure : σ → Nat)
  (drops : ∀ state next, body state = .again next → measure next < measure state)

theorem inv_run (inc : Incremental body feed halted inv) {state : σ} (holds : inv state) :
    inv (Loop.run measure drops state) :=
  Loop.run_invariant measure drops inv inv inc.inv_again inc.inv_done holds

theorem run_rests (inc : Incremental body feed halted inv) (state : σ) :
    body (Loop.run measure drops state) = .done (Loop.run measure drops state) := by
  obtain ⟨last, _, leaves⟩ := Loop.run_last measure drops state
  by_cases halt : halted (Loop.run measure drops state)
  · exact inc.stays _ halt
  · have same := inc.waits _ _ leaves halt
    rwa [← same] at leaves

theorem run_feed (inc : Incremental body feed halted inv) (bytes : List α) {state : σ} (holds : inv state) :
    Loop.run measure drops (feed bytes state) =
      Loop.run measure drops (feed bytes (Loop.run measure drops state)) := by
  refine Loop.run_induction measure drops
    (motive := fun state result => inv state → Loop.run measure drops (feed bytes state) =
      Loop.run measure drops (feed bytes result)) ?_ ?_ state holds
  · intro state result step holds
    by_cases halt : halted result
    · rw [Loop.run_done measure drops (inc.halts bytes state result step halt),
        Loop.run_done measure drops (inc.stays _ ((inc.halted_feed bytes result).mpr halt))]
    · rw [inc.waits state result step halt]
  · intro state next result step ih holds
    rw [Loop.run_again measure drops (inc.again bytes state next holds step), ih (inc.inv_again state next holds step)]

open Classical in
/-- One delivery: nothing once halted, otherwise the bytes and then the loop. -/
noncomputable def deliver (halted : σ → Prop) (feed : List α → σ → σ) (run : σ → σ)
    (state : σ) (bytes : List α) : σ :=
  if halted state then state else run (feed bytes state)

theorem deliver_halted {run : σ → σ} {state : σ} (halt : halted state) (bytes : List α) :
    deliver halted feed run state bytes = state := by simp [deliver, halt]

theorem deliver_running {run : σ → σ} {state : σ} (running : ¬ halted state) (bytes : List α) :
    deliver halted feed run state bytes = run (feed bytes state) := by simp [deliver, running]

theorem foldl_deliver_halted {run : σ → σ} {state : σ} (halt : halted state) (chunks : List (List α)) :
    chunks.foldl (deliver halted feed run) state = state := by
  induction chunks with
  | nil => rfl
  | cons chunk rest ih => rw [List.foldl_cons, deliver_halted halt, ih]

/-- Any deliveries leave what one delivery of all the bytes leaves, up to the bytes
a halted loop no longer takes in. -/
theorem deliveries (inc : Incremental body feed halted inv) (chunks : List (List α)) {state : σ}
    (holds : inv state) (rests : body state = .done state) :
    ∃ tail, Loop.run measure drops (feed chunks.flatten state) =
        feed tail (chunks.foldl (deliver halted feed (Loop.run measure drops)) state) ∧
      (halted (chunks.foldl (deliver halted feed (Loop.run measure drops)) state) ∨ tail = []) := by
  induction chunks generalizing state with
  | nil =>
    refine ⟨[], ?_, .inr rfl⟩
    simp only [List.flatten_nil, inc.feed_nil, List.foldl_nil]
    exact Loop.run_done measure drops rests
  | cons chunk rest ih =>
    by_cases halt : halted state
    · refine ⟨(chunk :: rest).flatten, ?_, .inl ?_⟩
      · rw [foldl_deliver_halted halt]
        exact Loop.run_done measure drops (inc.stays _ ((inc.halted_feed _ _).mpr halt))
      · rwa [foldl_deliver_halted halt]
    · have fed := inc.inv_feed chunk state holds
      obtain ⟨tail, whole, left⟩ := ih (inc.inv_run measure drops fed) (inc.run_rests measure drops (feed chunk state))
      refine ⟨tail, ?_, ?_⟩
      · rw [List.flatten_cons, ← inc.feed_feed, inc.run_feed measure drops _ fed, whole, List.foldl_cons,
          deliver_running halt]
      · rwa [List.foldl_cons, deliver_running halt]

/-- Two ways of cutting the same bytes end in the same state, up to the bytes a
halted loop no longer takes in. -/
theorem deliveries_agree (inc : Incremental body feed halted inv) (first second : List (List α)) {state : σ}
    (holds : inv state) (rests : body state = .done state) (same : first.flatten = second.flatten) :
    let left := first.foldl (deliver halted feed (Loop.run measure drops)) state
    let right := second.foldl (deliver halted feed (Loop.run measure drops)) state
    (halted left ↔ halted right) ∧ (¬ halted left → left = right) ∧
      ∃ leftTail rightTail, feed leftTail left = feed rightTail right := by
  intro left right
  obtain ⟨leftTail, leftWhole, leftEnd⟩ := inc.deliveries measure drops first holds rests
  obtain ⟨rightTail, rightWhole, rightEnd⟩ := inc.deliveries measure drops second holds rests
  rw [same, rightWhole] at leftWhole
  have halts : halted left ↔ halted right := by
    rw [← inc.halted_feed leftTail left, ← inc.halted_feed rightTail right, ← leftWhole]
  refine ⟨halts, fun live => ?_, leftTail, rightTail, leftWhole.symm⟩
  have leftNil := leftEnd.resolve_left live
  have rightNil := rightEnd.resolve_left (fun halt => live (halts.mpr halt))
  rw [leftNil, rightNil, inc.feed_nil, inc.feed_nil] at leftWhole
  exact leftWhole.symm

end Incremental

end Library
