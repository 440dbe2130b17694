import Slopline.Library.Loop
import Slopline.Library.Numeral
import Slopline.Library.Search
import Slopline.Net.Socket

/-! IP addresses and their texts (`appwarrior/net/address.h`, `address.cpp`).

A text is the list of its characters. What the source prints through `std::format` and reads through
`std::from_chars` are the numerals of `Slopline.Library.Numeral`.
-/

set_option autoImplicit false

namespace Slopline.Net

open Library Library.Search

inductive Family where
  | ipv4
  | ipv6
  deriving DecidableEq, Repr

/-- The constructors leave what an IPv4 address does not use at zero. -/
structure IpAddress where
  family : Family
  bytes : Vector UInt8 16
  port : UInt16
  scopeId : UInt32
  unused : family = .ipv4 → bytes.toList.drop 4 = List.replicate 12 0 ∧ scopeId = 0
  deriving DecidableEq

namespace IpAddress

def ipv4 (a b c d : UInt8) (port : UInt16) : IpAddress where
  family := .ipv4
  bytes := #v[a, b, c, d, 0, 0, 0, 0, 0, 0, 0, 0, 0, 0, 0, 0]
  port := port
  scopeId := 0
  unused _ := ⟨rfl, rfl⟩

def ipv6 (bytes : Vector UInt8 16) (port : UInt16) (scopeId : UInt32) : IpAddress where
  family := .ipv6
  bytes := bytes
  port := port
  scopeId := scopeId
  unused same := Family.noConfusion same

def networkAddress (address : IpAddress) : UInt32 :=
  address.bytes[0].toUInt32 <<< 24 ||| address.bytes[1].toUInt32 <<< 16 ||| address.bytes[2].toUInt32 <<< 8 |||
    address.bytes[3].toUInt32

theorem eq_ipv4 {address : IpAddress} (family : address.family = .ipv4) :
    address = ipv4 address.bytes[0] address.bytes[1] address.bytes[2] address.bytes[3] address.port := by
  obtain ⟨_, bytes, port, scopeId, unused⟩ := address
  subst family
  obtain ⟨zeros, rfl⟩ := unused rfl
  have whole : bytes = #v[bytes[0], bytes[1], bytes[2], bytes[3], 0, 0, 0, 0, 0, 0, 0, 0, 0, 0, 0, 0] := by
    apply Vector.toList_inj.mp
    rw [← List.take_append_drop 4 bytes.toList, zeros]
    simp [List.take_add_one]
  rw [mk.injEq]
  exact ⟨rfl, whole, rfl, rfl⟩

theorem eq_ipv6 {address : IpAddress} (family : address.family = .ipv6) :
    address = ipv6 address.bytes address.port address.scopeId := by
  obtain ⟨_, bytes, port, scopeId, unused⟩ := address
  subst family
  rfl

end IpAddress

/-! Parsing. -/

/-- `std::from_chars` into 32 bits: the value of the digits in front and what is behind them. -/
def fromChars (text : List Char) : Option (UInt32 × List Char) :=
  let digits := text.takeWhile Char.isDigit
  let value := numeralFrom 10 0 digits
  if digits = [] ∨ 2 ^ 32 ≤ value then none
  else some (UInt32.ofNat value, text.dropWhile Char.isDigit)

def parsePort (text : List Char) : Option UInt32 :=
  if text = [] ∨ 5 < text.length then none
  else match fromChars text with
    | some (out, []) => if out ≤ 65535 then some out else none
    | _ => none

structure OctetScan where
  octets : List UInt8 := []
  value : Nat := 0
  inNumber : Bool := false

def OctetScan.step (scan : OctetScan) (character : Char) : Option OctetScan :=
  if character = '.' then
    if scan.inNumber = false ∨ 3 ≤ scan.octets.length then none
    else some { octets := scan.octets ++ [UInt8.ofNat scan.value], value := 0, inNumber := false }
  else if '0' ≤ character ∧ character ≤ '9' then
    let value := scan.value * 10 + (character.toNat - '0'.toNat)
    if 255 < value then none else some { scan with value, inNumber := true }
  else none

def parseIpv4Host (host : List Char) : Option (List UInt8) := do
  let scan ← host.foldlM OctetScan.step {}
  if scan.inNumber = false ∨ scan.octets.length ≠ 3 then none
  else some (scan.octets ++ [UInt8.ofNat scan.value])

def hexValue (digit : Char) : Int :=
  if '0' ≤ digit ∧ digit ≤ '9' then digit.toNat - '0'.toNat
  else if 'a' ≤ digit ∧ digit ≤ 'f' then digit.toNat - 'a'.toNat + 10
  else if 'A' ≤ digit ∧ digit ≤ 'F' then digit.toNat - 'A'.toNat + 10
  else -1

def groupDigit (value : UInt16) (digit : Char) : Option UInt16 :=
  let nibble := hexValue digit
  if nibble < 0 then none else some (value <<< 4 ||| UInt16.ofInt nibble)

def parseGroup (group : List Char) : Option UInt16 := group.foldlM groupDigit 0

structure GroupScan where
  rest : List Char
  groups : List UInt16 := []

def GroupScan.step (scan : GroupScan) : Loop GroupScan (Option (List UInt16)) :=
  let colon := find [':'] scan.rest
  let group := colon.elim scan.rest fun position => scan.rest.take position
  if group = [] ∨ 4 < group.length then .done none
  else if 8 ≤ scan.groups.length then .done none
  else match parseGroup group with
    | none => .done none
    | some value =>
      match colon with
      | none => .done (some (scan.groups ++ [value]))
      | some position =>
        -- A colon at the end, with no compression behind it.
        if scan.rest.length ≤ position + 1 then .done none
        else .again { rest := scan.rest.drop (position + 1), groups := scan.groups ++ [value] }

/-- A round that goes on has taken a group and the colon behind it. -/
theorem GroupScan.step_again {scan next : GroupScan} (step : scan.step = .again next) :
    ∃ position value, find [':'] scan.rest = some position ∧ scan.rest.take position ≠ [] ∧
      (scan.rest.take position).length ≤ 4 ∧ parseGroup (scan.rest.take position) = some value ∧
      position + 1 < scan.rest.length ∧
      next = { rest := scan.rest.drop (position + 1), groups := scan.groups ++ [value] } := by
  simp only [GroupScan.step] at step
  split at step
  · cases step
  next size =>
    split at step
    · cases step
    split at step
    · cases step
    next value parsed =>
      split at step
      · cases step
      next position found =>
        split at step
        · cases step
        next more =>
          cases step
          rw [found, Option.elim_some, not_or, Nat.not_lt] at size
          rw [found, Option.elim_some] at parsed
          exact ⟨position, value, found, size.1, size.2, parsed, Nat.lt_of_not_le more, rfl⟩

theorem GroupScan.step_drops (scan next : GroupScan) (step : scan.step = .again next) :
    next.rest.length < scan.rest.length := by
  obtain ⟨position, value, _, _, _, _, more, rfl⟩ := GroupScan.step_again step
  rw [List.length_drop]
  omega

def parseGroups (part : List Char) : Option (List UInt16) :=
  if part = [] then some []
  else Loop.run (fun scan : GroupScan => scan.rest.length) GroupScan.step_drops { rest := part }

def groupBytes (groups : List UInt16) : Vector UInt8 16 :=
  Vector.ofFn fun i : Fin 16 =>
    let group := groups.getD (i.val / 2) 0
    if i.val % 2 = 0 then (group >>> 8).toUInt8 else (group &&& 0xFF).toUInt8

def parseIpv6Host (host : List Char) : Option (Vector UInt8 16) :=
  match find [':', ':'] host with
  | none => do
    let groups ← parseGroups host
    if groups.length ≠ 8 then none else some (groupBytes groups)
  | some compression => do
    let head ← parseGroups (host.take compression)
    let tail ← parseGroups (host.drop (compression + 2))
    if 7 < head.length + tail.length then none
    else some (groupBytes (head ++ List.replicate (8 - head.length - tail.length) 0 ++ tail))

namespace IpAddress

/-- `[host]` and what is behind the bracket. -/
def fromBracketed (text : List Char) : Except NetError IpAddress :=
  match find [']'] text with
  | none => .error .invalidArgument
  | some close =>
    let host := (text.drop 1).take (close - 1)
    let remainder := text.drop (close + 1)
    let port := if remainder = [] then some 0 else if remainder.head? = some ':' then parsePort remainder.tail else none
    match port with
    | none => .error .invalidArgument
    | some port =>
      match parseIpv6Host host with
      | none => .error .invalidArgument
      | some bytes => .ok (ipv6 bytes port.toUInt16 0)

/-- The host, of either family, and the port it goes with. -/
def fromHost (host : List Char) (port : UInt32) : Except NetError IpAddress :=
  if (find ['.'] host).isSome then
    match parseIpv4Host host with
    | none => .error .invalidArgument
    | some octets =>
      .ok (ipv4 (octets.getD 0 0) (octets.getD 1 0) (octets.getD 2 0) (octets.getD 3 0) port.toUInt16)
  else
    match parseIpv6Host host with
    | none => .error .invalidArgument
    | some bytes => .ok (ipv6 bytes port.toUInt16 0)

def fromText (text : List Char) : Except NetError IpAddress :=
  if text.head? = some '[' then fromBracketed text
  else match rfind [':'] text with
    | none => fromHost text 0
    | some colon =>
      let suffix := text.drop (colon + 1)
      -- A port only where there is no other colon.
      if suffix ≠ [] ∧ suffix.all Char.isDigit ∧ find [':'] text = some colon then
        match parsePort suffix with
        | none => .error .invalidArgument
        | some port => fromHost (text.take colon) port
      else fromHost text 0

end IpAddress

/-! Printing. -/

def decimal (value : Nat) : List Char := Nat.toDigits 10 value

def hexadecimal (value : Nat) : List Char := Nat.toDigits 16 value

def groupOf (high low : UInt8) : UInt16 := high.toUInt16 <<< 8 ||| low.toUInt16

def groupsOf (bytes : Vector UInt8 16) : Vector UInt16 8 :=
  Vector.ofFn fun i : Fin 8 => groupOf bytes[i.val * 2] bytes[i.val * 2 + 1]

structure RunScan where
  runStart : Nat := 0
  bestStart : Nat := 0
  bestLength : Nat := 0

/-- The inner loop: how many groups from `start` on are zero. -/
def zeroRun (groups : Vector UInt16 8) (start : Nat) : Nat :=
  ((groups.toList.drop start).takeWhile (· = 0)).length

def RunScan.step (groups : Vector UInt16 8) (scan : RunScan) : Loop RunScan (Nat × Nat) :=
  if inside : scan.runStart < 8 then
    if groups[scan.runStart] ≠ 0 then .again { scan with runStart := scan.runStart + 1 }
    else
      let runLength := zeroRun groups scan.runStart
      if scan.bestLength < runLength then
        .again { runStart := scan.runStart + runLength, bestStart := scan.runStart, bestLength := runLength }
      else .again { scan with runStart := scan.runStart + runLength }
  else .done (if scan.bestLength < 2 then (8, 0) else (scan.bestStart, scan.bestLength))

theorem zeroRun_pos {groups : Vector UInt16 8} {start : Nat} (inside : start < 8) (zero : groups[start] = 0) :
    0 < zeroRun groups start := by
  have here : start < groups.toList.length := by simpa using inside
  rw [zeroRun, List.drop_eq_getElem_cons here, List.takeWhile_cons_of_pos (by simpa using zero)]
  exact Nat.succ_pos _

/-- A round that goes on passes one group that is not zero, or a run of zeros, which may be the best so far. -/
theorem RunScan.step_again {groups : Vector UInt16 8} {scan next : RunScan} (step : scan.step groups = .again next) :
    ∃ inside : scan.runStart < 8,
      groups[scan.runStart] ≠ 0 ∧ next = { scan with runStart := scan.runStart + 1 } ∨
      groups[scan.runStart] = 0 ∧ next.runStart = scan.runStart + zeroRun groups scan.runStart ∧
        (next.bestStart = scan.runStart ∧ next.bestLength = zeroRun groups scan.runStart ∨
          next.bestStart = scan.bestStart ∧ next.bestLength = scan.bestLength) := by
  simp only [RunScan.step] at step
  split at step
  case isFalse => cases step
  case isTrue inside =>
    refine ⟨inside, ?_⟩
    split at step
    case isTrue other =>
      cases step
      exact .inl ⟨other, rfl⟩
    case isFalse zero =>
      refine .inr ⟨Decidable.not_not.mp zero, ?_⟩
      split at step
      · cases step
        exact ⟨rfl, .inl ⟨rfl, rfl⟩⟩
      · cases step
        exact ⟨rfl, .inr ⟨rfl, rfl⟩⟩

theorem RunScan.step_done {groups : Vector UInt16 8} {scan : RunScan} {best : Nat × Nat}
    (step : scan.step groups = .done best) :
    best = if scan.bestLength < 2 then (8, 0) else (scan.bestStart, scan.bestLength) := by
  simp only [RunScan.step] at step
  split at step
  · split at step
    · cases step
    · split at step
      · cases step
      · cases step
  · cases step
    rfl

theorem RunScan.step_drops (groups : Vector UInt16 8) (scan next : RunScan)
    (step : scan.step groups = .again next) : 8 - next.runStart < 8 - scan.runStart := by
  obtain ⟨inside, ⟨_, rfl⟩ | ⟨zero, passed, _⟩⟩ := RunScan.step_again step
  · exact Nat.sub_succ_lt_self _ _ inside
  · have positive := zeroRun_pos inside zero
    omega

/-- The start and the length of the run that is collapsed; 8 and 0 if there is none. -/
def longestRun (groups : Vector UInt16 8) : Nat × Nat :=
  Loop.run (fun scan : RunScan => 8 - scan.runStart) (RunScan.step_drops groups) {}

structure Printing where
  i : Nat := 0
  text : List Char := []

def Printing.step (groups : Vector UInt16 8) (best : Nat × Nat) (printing : Printing) :
    Loop Printing (List Char) :=
  if inside : printing.i < 8 then
    if printing.i = best.1 then
      .again { i := printing.i + (best.2 - 1) + 1, text := printing.text ++ [':', ':'] }
    else
      let text := if printing.i ≠ 0 ∧ printing.i ≠ best.1 + best.2 then printing.text ++ [':'] else printing.text
      .again { i := printing.i + 1, text := text ++ hexadecimal groups[printing.i].toNat }
  else .done printing.text

theorem Printing.step_drops (groups : Vector UInt16 8) (best : Nat × Nat) (printing next : Printing)
    (step : printing.step groups best = .again next) : 8 - next.i < 8 - printing.i := by
  simp only [Printing.step] at step
  split at step
  case isFalse => cases step
  case isTrue inside =>
    split at step
    · cases step
      dsimp only
      omega
    · cases step
      exact Nat.sub_succ_lt_self _ _ inside

def hostText (groups : Vector UInt16 8) : List Char :=
  Loop.run (fun printing : Printing => 8 - printing.i) (Printing.step_drops groups (longestRun groups)) {}

def IpAddress.toText (address : IpAddress) : List Char :=
  match address.family with
  | .ipv4 =>
    decimal address.bytes[0].toNat ++ '.' :: (decimal address.bytes[1].toNat ++ '.' ::
      (decimal address.bytes[2].toNat ++ '.' :: (decimal address.bytes[3].toNat ++ ':' ::
      decimal address.port.toNat)))
  | .ipv6 => '[' :: (hostText (groupsOf address.bytes) ++ ']' :: ':' :: decimal address.port.toNat)

example : (IpAddress.fromText "2001:0db8:0:0:0:0:0:1".toList).toOption.map IpAddress.toText =
    some "[2001:db8::1]:0".toList := by decide

end Slopline.Net
