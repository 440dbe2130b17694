import Mathlib.Data.List.Induction
import Mathlib.Data.List.TakeWhile
import Slopline.Library.Positional
import Slopline.Library.Separated
import Slopline.Net.Address

/-! What the texts of hosts and ports are, apart from how they are parsed, and that the parsers take
these texts and no others. -/

set_option autoImplicit false

namespace Slopline.Net

open Library

/-! The grammar. A number's range is that of the type it is stored in. -/

def OctetText (text : List Char) (octet : UInt8) : Prop := Numeral 10 text octet.toNat

def Ipv4Text (host : List Char) (octets : List UInt8) : Prop :=
  octets.length = 4 ∧ ∃ texts, host = ['.'].intercalate texts ∧ List.Forall₂ OctetText texts octets

def PortText (text : List Char) (port : UInt16) : Prop := text.length ≤ 5 ∧ Numeral 10 text port.toNat

def GroupText (text : List Char) (group : UInt16) : Prop := text.length ≤ 4 ∧ Numeral 16 text group.toNat

def GroupsText (text : List Char) (groups : List UInt16) : Prop :=
  ∃ texts, text = [':'].intercalate texts ∧ List.Forall₂ GroupText texts groups

/-- Eight groups, or fewer around two colons that stand for the zero groups which are missing. -/
inductive Ipv6Text : List Char → List UInt16 → Prop where
  | full {text : List Char} {groups : List UInt16} : GroupsText text groups → groups.length = 8 →
      Ipv6Text text groups
  | compressed {front back : List Char} {head tail : List UInt16} : GroupsText front head →
      GroupsText back tail → head.length + tail.length ≤ 7 →
      Ipv6Text (front ++ [':', ':'] ++ back) (head ++ List.replicate (8 - head.length - tail.length) 0 ++ tail)

/-! Digits. -/

theorem digit10_iff {digit : Char} : (∃ d < 10, digitValue digit = some d) ↔ '0' ≤ digit ∧ digit ≤ '9' := by
  constructor
  · rintro ⟨d, small, same⟩
    unfold digitValue at same
    split at same
    · assumption
    · split at same
      · cases same
        omega
      · split at same
        · cases same
          omega
        · cases same
  · intro decimal
    refine ⟨digit.toNat - '0'.toNat, ?_, if_pos decimal⟩
    have high : digit.toNat ≤ '9'.toNat := decimal.2
    have nine : '9'.toNat - '0'.toNat < 10 := by decide
    omega

theorem isDigit_iff {digit : Char} : digit.isDigit = true ↔ ∃ d < 10, digitValue digit = some d := by
  rw [digit10_iff, Char.isDigit]
  simp [Char.le_def]

theorem hexValue_eq (digit : Char) :
    hexValue digit = (digitValue digit).elim (-1) fun d => (d : Int) := by
  unfold hexValue digitValue
  split
  case isTrue decimal =>
    have low : '0'.toNat ≤ digit.toNat := decimal.1
    simp only [Option.elim_some]
    omega
  case isFalse =>
    split
    case isTrue lower =>
      have low : 'a'.toNat ≤ digit.toNat := lower.1
      simp only [Option.elim_some]
      omega
    case isFalse =>
      split
      case isTrue upper =>
        have low : 'A'.toNat ≤ digit.toNat := upper.1
        simp only [Option.elim_some]
        omega
      case isFalse => rfl

theorem solid_numeral {base value : Nat} {text : List Char} (numeral : Numeral base text value) {sep : Char}
    (other : digitValue sep = none) : Solid sep text := by
  refine ⟨numeral.nonempty, fun inside => ?_⟩
  obtain ⟨d, _, same⟩ := numeral.digits sep inside
  rw [other] at same
  cases same

/-! Ports. -/

theorem numeralFrom_isDigit {text : List Char} (digits : ∀ digit ∈ text, ∃ d < 10, digitValue digit = some d) :
    text.takeWhile Char.isDigit = text ∧ text.dropWhile Char.isDigit = [] := by
  have all : ∀ digit ∈ text, digit.isDigit = true := fun digit inside => isDigit_iff.mpr (digits digit inside)
  exact ⟨List.takeWhile_eq_self_iff.mpr all, List.dropWhile_eq_nil_iff.mpr all⟩

theorem parsePort_complete {text : List Char} {port : UInt16} (portText : PortText text port) :
    parsePort text = some port.toUInt32 := by
  obtain ⟨short, numeral⟩ := portText
  obtain ⟨taken, dropped⟩ := numeralFrom_isDigit numeral.digits
  have small := port.toNat_lt
  have value : UInt32.ofNat port.toNat = port.toUInt32 := by
    apply UInt32.toNat_inj.mp
    rw [UInt32.toNat_ofNat_of_lt' (by simp only [UInt32.size]; omega), UInt16.toNat_toUInt32]
  have read : fromChars text = some (port.toUInt32, []) := by
    simp only [fromChars, taken, dropped, numeral.denotes, value]
    rw [if_neg]
    rintro (empty | large)
    · exact numeral.nonempty empty
    · omega
  have range : port.toUInt32 ≤ 65535 := by
    apply UInt32.le_iff_toNat_le.mpr
    rw [UInt16.toNat_toUInt32]
    exact Nat.le_of_lt_succ small
  have limits : ¬ (text = [] ∨ 5 < text.length) := by
    rintro (empty | long)
    · exact numeral.nonempty empty
    · omega
  rw [parsePort, if_neg limits, read]
  exact if_pos range

theorem parsePort_sound {text : List Char} {port : UInt32} (parsed : parsePort text = some port) :
    PortText text port.toUInt16 := by
  unfold parsePort at parsed
  split at parsed
  · cases parsed
  rename_i limits
  split at parsed
  case h_2 => cases parsed
  case h_1 out read =>
    split at parsed
    case isFalse => cases parsed
    case isTrue range =>
      cases parsed
      simp only [fromChars] at read
      split at read
      · cases read
      rename_i fits
      obtain ⟨rfl, rest⟩ := Prod.mk.inj (Option.some.inj read)
      have all := List.dropWhile_eq_nil_iff.mp rest
      have digits : ∀ digit ∈ text, ∃ d < 10, digitValue digit = some d :=
        fun digit inside => isDigit_iff.mp (all digit inside)
      rw [not_or, Nat.not_le] at fits
      rw [(numeralFrom_isDigit digits).1] at fits range ⊢
      have value : (UInt32.ofNat (numeralFrom 10 0 text)).toNat = numeralFrom 10 0 text :=
        UInt32.toNat_ofNat_of_lt' fits.2
      have small := UInt32.le_iff_toNat_le.mp range
      rw [value] at small
      refine ⟨by omega, fits.1, digits, ?_⟩
      rw [UInt32.toNat_toUInt16, value]
      exact (Nat.mod_eq_of_lt (Nat.lt_succ_of_le small)).symm

/-! IPv4 hosts. -/

theorem octetScan_digit {scan : OctetScan} {digit : Char} {d : Nat} (small : d < 10)
    (same : digitValue digit = some d) :
    scan.step digit = if 255 < 10 * scan.value + d then none
      else some { scan with value := 10 * scan.value + d, inNumber := true } := by
  have decimal := digit10_iff.mp ⟨d, small, same⟩
  have dot : digit ≠ '.' := by
    rintro rfl
    exact absurd decimal (by decide)
  have value : d = digit.toNat - '0'.toNat := by
    rw [digitValue, if_pos decimal] at same
    exact (Option.some.inj same).symm
  rw [OctetScan.step, if_neg dot, if_pos decimal, Nat.mul_comm 10, value]

theorem octetScan_dot {scan : OctetScan} :
    scan.step '.' = if scan.inNumber = false ∨ 3 ≤ scan.octets.length then none
      else some { octets := scan.octets ++ [UInt8.ofNat scan.value] } := rfl

/-- The digits of a number up to 255 are read to its end: on the way the value only grows. -/
theorem octetScan_digits {text : List Char} (digits : ∀ digit ∈ text, ∃ d < 10, digitValue digit = some d)
    (scan : OctetScan) (range : numeralFrom 10 scan.value text ≤ 255) :
    text.foldlM OctetScan.step scan =
      some { scan with value := numeralFrom 10 scan.value text, inNumber := scan.inNumber || !text.isEmpty } := by
  induction text generalizing scan with
  | nil => simp [numeralFrom]
  | cons digit text ih =>
    obtain ⟨d, small, same⟩ := digits digit (by simp)
    have value : numeralFrom 10 scan.value (digit :: text) = numeralFrom 10 (10 * scan.value + d) text := by
      simp [numeralFrom, same]
    have below := le_numeralFrom (by decide : 0 < 10) (10 * scan.value + d) text
    rw [value] at range ⊢
    rw [List.foldlM_cons, octetScan_digit small same, if_neg (by omega)]
    change text.foldlM OctetScan.step _ = _
    rw [ih (fun other inside => digits other (by simp [inside])) _ range]
    simp

def Scanned (host : List Char) (scan : OctetScan) : Prop :=
  ∃ texts text, host = texts.flatMap (· ++ ['.']) ++ text ∧ List.Forall₂ OctetText texts scan.octets ∧
    (∀ digit ∈ text, ∃ d < 10, digitValue digit = some d) ∧ scan.value = numeralFrom 10 0 text ∧
    scan.value ≤ 255 ∧ scan.inNumber = !text.isEmpty

theorem octetText_of_scanned {text : List Char} {value : Nat} (started : text ≠ [])
    (digits : ∀ digit ∈ text, ∃ d < 10, digitValue digit = some d) (denotes : value = numeralFrom 10 0 text)
    (range : value ≤ 255) : OctetText text (UInt8.ofNat value) := by
  refine ⟨started, digits, ?_⟩
  rw [UInt8.toNat_ofNat_of_lt' (Nat.lt_succ_of_le range), denotes]

theorem Scanned.step {host : List Char} {scan next : OctetScan} {character : Char} (scanned : Scanned host scan)
    (step : scan.step character = some next) : Scanned (host ++ [character]) next := by
  obtain ⟨texts, text, split, octets, digits, value, range, started⟩ := scanned
  by_cases dot : character = '.'
  · rw [dot, octetScan_dot] at step
    split at step
    · cases step
    rename_i allowed
    cases step
    have nonempty : text ≠ [] := by
      rintro rfl
      exact allowed (.inl started)
    refine ⟨texts ++ [text], [], ?_, ?_, by simp, rfl, Nat.zero_le _, rfl⟩
    · simp [split, dot]
    · exact List.rel_append octets (.cons (octetText_of_scanned nonempty digits value range) .nil)
  · by_cases decimal : '0' ≤ character ∧ character ≤ '9'
    · obtain ⟨d, small, same⟩ := digit10_iff.mpr decimal
      rw [octetScan_digit small same] at step
      split at step
      · cases step
      rename_i inRange
      cases step
      refine ⟨texts, text ++ [character], by simp [split], octets, ?_, ?_, Nat.le_of_not_lt inRange, by simp⟩
      · intro digit inside
        rcases List.mem_append.mp inside with before | last
        · exact digits digit before
        · rw [List.mem_singleton.mp last]
          exact ⟨d, small, same⟩
      · simp only [numeralFrom, List.foldl_append, List.foldl_cons, List.foldl_nil, same, Option.getD_some]
        rw [value, numeralFrom]
    · rw [OctetScan.step, if_neg dot, if_neg decimal] at step
      cases step

theorem scanned_of_foldlM {host : List Char} {scan : OctetScan}
    (read : host.foldlM OctetScan.step {} = some scan) : Scanned host scan := by
  induction host using List.reverseRecOn generalizing scan with
  | nil =>
    cases read
    exact ⟨[], [], rfl, .nil, by simp, rfl, Nat.zero_le _, rfl⟩
  | append_singleton host character ih =>
    rw [List.foldlM_append] at read
    obtain ⟨before, front, last⟩ := Option.bind_eq_some_iff.mp read
    have step : before.step character = some scan := by simpa using last
    exact (ih front).step step

theorem parseIpv4Host_sound {host : List Char} {octets : List UInt8} (parsed : parseIpv4Host host = some octets) :
    Ipv4Text host octets := by
  obtain ⟨scan, read, ended⟩ := Option.bind_eq_some_iff.mp parsed
  obtain ⟨texts, text, split, whole, digits, value, range, started⟩ := scanned_of_foldlM read
  split at ended
  · cases ended
  rename_i complete
  rw [not_or, Decidable.not_not] at complete
  cases ended
  have nonempty : text ≠ [] := by
    rintro rfl
    exact complete.1 started
  refine ⟨by simp [complete.2], texts ++ [text], ?_, ?_⟩
  · rw [intercalate_snoc, split]
  · exact List.rel_append whole (.cons (octetText_of_scanned nonempty digits value range) .nil)

theorem octetScan_number {text : List Char} {octet : UInt8} (number : OctetText text octet) (octets : List UInt8) :
    text.foldlM OctetScan.step { octets } = some { octets, value := octet.toNat, inNumber := true } := by
  have range := octet.toNat_lt
  have denotes := number.denotes
  have read := octetScan_digits number.digits { octets } (by simp only [denotes]; omega)
  have started : text.isEmpty = false := List.isEmpty_eq_false_iff.mpr number.nonempty
  rw [read]
  simp only [denotes, started, Bool.not_false, Bool.or_true]

theorem octetScan_front {texts : List (List Char)} {octets : List UInt8}
    (whole : List.Forall₂ OctetText texts octets) (before : List UInt8)
    (room : before.length + octets.length ≤ 3) :
    (texts.flatMap (· ++ ['.'])).foldlM OctetScan.step { octets := before } =
      some { octets := before ++ octets } := by
  induction whole generalizing before with
  | nil => simp
  | @cons text octet texts octets number _ ih =>
    rw [List.length_cons] at room
    have dot : OctetScan.step { octets := before, value := octet.toNat, inNumber := true } '.' =
        some { octets := before ++ [octet] } := by
      rw [octetScan_dot, if_neg (by simp; omega), UInt8.ofNat_toNat]
    rw [List.flatMap_cons, List.foldlM_append, List.foldlM_append, octetScan_number number]
    have rest := ih (before ++ [octet]) (by rw [List.length_append]; simp; omega)
    simp only [Option.bind_eq_bind, Option.bind_some, List.foldlM_cons, List.foldlM_nil, dot, Option.pure_def, rest]
    simp

theorem parseIpv4Host_complete {host : List Char} {octets : List UInt8} (ipv4 : Ipv4Text host octets) :
    parseIpv4Host host = some octets := by
  obtain ⟨four, texts, rfl, whole⟩ := ipv4
  -- The last number has no dot behind it.
  obtain ⟨before, octet, rfl⟩ :=
    (List.eq_nil_or_concat' octets).resolve_left (List.ne_nil_of_length_eq_add_one four)
  obtain ⟨front, last, rfl, whole, number⟩ := forall₂_snoc whole
  have three : before.length = 3 := by simpa using four
  have read := octetScan_front whole [] (by simp [three])
  rw [parseIpv4Host, intercalate_snoc, List.foldlM_append, read]
  simp [octetScan_number number, three]

end Slopline.Net
