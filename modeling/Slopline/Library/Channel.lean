import Mathlib.Data.List.Basic

/-! Coding that moves on with what it has coded.

A letter has a head, which says how its body is coded, and the body. A receiver that starts
where the sender started undoes the coding letter by letter and ends where the sender ended.
-/

set_option autoImplicit false

namespace Library

variable {δ α φ : Type}

structure Letter (α : Type) where
  head : List α
  body : List α

/-- One direction of coding. Coding the coded symbols once more from the same state undoes it. -/
structure Channel (δ α φ : Type) where
  head : δ → List α → List α × δ
  body : δ → φ → List α → List α × δ
  flag : List α → φ
  length_head : ∀ d symbols, (head d symbols).1.length = symbols.length
  length_body : ∀ d flag symbols, (body d flag symbols).1.length = symbols.length
  head_head : ∀ d symbols, head d (head d symbols).1 = (symbols, (head d symbols).2)
  body_body : ∀ d flag symbols, body d flag (body d flag symbols).1 = (symbols, (body d flag symbols).2)

namespace Channel

variable (channel : Channel δ α φ)

def bodyOf (d : δ) (letter : Letter α) : List α × δ :=
  channel.body (channel.head d letter.head).2 (channel.flag letter.head) letter.body

def coded (d : δ) (letter : Letter α) : List α := (channel.head d letter.head).1 ++ (channel.bodyOf d letter).1

def next (d : δ) (letter : Letter α) : δ := (channel.bodyOf d letter).2

def stream : δ → List (Letter α) → List α
  | _, [] => []
  | d, letter :: letters => channel.coded d letter ++ stream (channel.next d letter) letters

def after (d : δ) (letters : List (Letter α)) : δ := letters.foldl channel.next d

@[simp] theorem stream_nil (d : δ) : channel.stream d [] = [] := rfl

@[simp] theorem after_nil (d : δ) : channel.after d [] = d := rfl

theorem stream_append (d : δ) (letters more : List (Letter α)) :
    channel.stream d (letters ++ more) = channel.stream d letters ++ channel.stream (channel.after d letters) more := by
  induction letters generalizing d with
  | nil => rfl
  | cons letter letters ih =>
    rw [List.cons_append, stream, stream, ih, List.append_assoc]
    rfl

theorem after_append (d : δ) (letters more : List (Letter α)) :
    channel.after d (letters ++ more) = channel.after (channel.after d letters) more :=
  List.foldl_append

/-- The receiver's reading of a head: the head, and what it says of the body. -/
theorem head_coded (d : δ) (letter : Letter α) :
    channel.head d (channel.head d letter.head).1 = (letter.head, (channel.head d letter.head).2) :=
  channel.head_head d letter.head

theorem body_coded (d : δ) (letter : Letter α) :
    channel.body (channel.head d letter.head).2 (channel.flag letter.head) (channel.bodyOf d letter).1 =
      (letter.body, channel.next d letter) :=
  channel.body_body _ _ letter.body

@[simp] theorem length_bodyOf (d : δ) (letter : Letter α) :
    (channel.bodyOf d letter).1.length = letter.body.length :=
  channel.length_body _ _ _

end Channel

end Library
