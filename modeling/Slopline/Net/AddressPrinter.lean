import Slopline.Core.Digits
import Slopline.Net.AddressText

/-! `to_text` prints a text that denotes the address, so that parsing it gives the address back. -/

set_option autoImplicit false

namespace Slopline.Net

open Library Endian

/-! Numbers. -/

theorem decimal_octet (octet : UInt8) : OctetText (decimal octet.toNat) octet :=
  numeral_toDigits (by decide) (by decide) octet.toNat

theorem decimal_port (port : UInt16) : PortText (decimal port.toNat) port := by
  refine ⟨?_, numeral_toDigits (by decide) (by decide) port.toNat⟩
  have small := port.toNat_lt
  exact (Nat.length_toDigits_le_iff (by decide) (by decide)).mpr (by omega)

theorem hexadecimal_group (group : UInt16) : GroupText (hexadecimal group.toNat) group := by
  refine ⟨?_, numeral_toDigits (by decide) (by decide) group.toNat⟩
  exact (Nat.length_toDigits_le_iff (by decide) (by decide)).mpr group.toNat_lt

def printGroups (groups : List UInt16) : List Char :=
  [':'].intercalate (groups.map fun group => hexadecimal group.toNat)

theorem groupsText_print (groups : List UInt16) : GroupsText (printGroups groups) groups := by
  refine ⟨_, rfl, ?_⟩
  induction groups with
  | nil => exact .nil
  | cons group groups ih => exact .cons (hexadecimal_group group) ih

/-! The run of zeros that is collapsed. -/

def ZeroRun (groups : Vector UInt16 8) (start length : Nat) : Prop :=
  start + length ≤ 8 ∧ (groups.toList.drop start).take length = List.replicate length 0

theorem zeroRun_spec (groups : Vector UInt16 8) {start : Nat} (inside : start ≤ 8) :
    ZeroRun groups start (zeroRun groups start) := by
  have front := List.takeWhile_prefix (· = (0 : UInt16)) (l := groups.toList.drop start)
  have short := front.length_le
  rw [List.length_drop, Vector.length_toList] at short
  refine ⟨by rw [zeroRun]; omega, ?_⟩
  rw [zeroRun, ← List.prefix_iff_eq_take.mp front]
  apply List.eq_replicate_iff.mpr
  refine ⟨rfl, fun group among => ?_⟩
  simpa using List.mem_takeWhile_imp among

def RunScan.Sound (groups : Vector UInt16 8) (scan : RunScan) : Prop :=
  scan.runStart ≤ 8 ∧ ZeroRun groups scan.bestStart scan.bestLength

theorem RunScan.Sound.step {groups : Vector UInt16 8} {scan next : RunScan} (sound : scan.Sound groups)
    (step : scan.step groups = .again next) : next.Sound groups := by
  obtain ⟨inside, ⟨_, rfl⟩ | ⟨_, passed, best⟩⟩ := RunScan.step_again step
  · exact ⟨inside, sound.2⟩
  · have here := zeroRun_spec groups inside.le
    refine ⟨by rw [passed]; exact here.1, ?_⟩
    rcases best with ⟨start, length⟩ | ⟨start, length⟩
    · rw [start, length]
      exact here
    · rw [start, length]
      exact sound.2

/-- Either no run is collapsed, or one of two zeros at least. -/
theorem longestRun_spec (groups : Vector UInt16 8) :
    longestRun groups = (8, 0) ∨
      2 ≤ (longestRun groups).2 ∧ ZeroRun groups (longestRun groups).1 (longestRun groups).2 := by
  refine Loop.run_invariant _ (RunScan.step_drops groups) (RunScan.Sound groups)
    (fun best => best = (8, 0) ∨ 2 ≤ best.2 ∧ ZeroRun groups best.1 best.2) ?_ ?_ ?_
  · exact fun scan next sound step => sound.step step
  · intro scan best sound step
    rw [RunScan.step_done step]
    split
    · exact .inl rfl
    next long => exact .inr ⟨Nat.le_of_not_lt long, sound.2⟩
  · exact ⟨Nat.zero_le _, Nat.zero_le _, rfl⟩

theorem ZeroRun.split {groups : Vector UInt16 8} {start length : Nat} (run : ZeroRun groups start length) :
    groups.toList =
      groups.toList.take start ++ List.replicate length 0 ++ groups.toList.drop (start + length) := by
  rw [← run.2, ← List.drop_drop, List.append_assoc, List.take_append_drop, List.take_append_drop]

/-! The loop that prints. -/

section
variable {groups : Vector UInt16 8} {best : Nat × Nat}

def runPrinting (groups : Vector UInt16 8) (best : Nat × Nat) (printing : Printing) : List Char :=
  Loop.run (fun printing : Printing => 8 - printing.i) (Printing.step_drops groups best) printing

def printMore (groups : List UInt16) : List Char := groups.flatMap fun group => ':' :: hexadecimal group.toNat

theorem printGroups_cons (group : UInt16) (groups : List UInt16) :
    printGroups (group :: groups) = hexadecimal group.toNat ++ printMore groups := by
  rw [printGroups, List.map_cons, intercalate_cons, List.flatMap_map]
  rfl

theorem printing_done {text : List Char} : runPrinting groups best { i := 8, text } = text :=
  Loop.run_done _ _ rfl

theorem printing_run {text : List Char} (inside : best.1 < 8) :
    runPrinting groups best { i := best.1, text } =
      runPrinting groups best { i := best.1 + (best.2 - 1) + 1, text := text ++ [':', ':'] } := by
  apply Loop.run_again
  simp only [Printing.step, dif_pos inside, if_true]

theorem printing_group {i : Nat} {text : List Char} (inside : i < 8) (apart : i ≠ best.1) :
    runPrinting groups best { i, text } = runPrinting groups best {
      i := i + 1
      text := (if i ≠ 0 ∧ i ≠ best.1 + best.2 then text ++ [':'] else text) ++
        hexadecimal groups[i].toNat } := by
  apply Loop.run_again
  simp only [Printing.step, dif_pos inside, if_neg apart]

theorem drop_group {i : Nat} (inside : i < 8) :
    groups.toList.drop i = groups[i] :: groups.toList.drop (i + 1) := by
  have here : i < groups.toList.length := by simpa using inside
  rw [List.drop_eq_getElem_cons here, Vector.getElem_toList]

theorem printing_more (i count : Nat) (text : List Char) (started : 0 < i) (within : i + count ≤ 8)
    (away : ∀ j, i ≤ j → j < i + count → j ≠ best.1 ∧ j ≠ best.1 + best.2) :
    runPrinting groups best { i, text } = runPrinting groups best {
      i := i + count, text := text ++ printMore ((groups.toList.drop i).take count) } := by
  induction count generalizing i text with
  | zero => simp [printMore]
  | succ count ih =>
    have inside : i < 8 := by omega
    obtain ⟨apart, notBehind⟩ := away i (Nat.le_refl i) (by omega)
    have separated : i ≠ 0 ∧ i ≠ best.1 + best.2 := ⟨by omega, notBehind⟩
    rw [printing_group inside apart, if_pos separated, ih (i + 1) _ (by omega) (by omega)
      (fun j above below => away j (by omega) (by omega)), drop_group inside]
    have step : i + 1 + count = i + (count + 1) := by omega
    simp [printMore, step]

theorem printing_groups (i count : Nat) (text : List Char) (within : i + count ≤ 8)
    (due : i = 0 ∨ i = best.1 + best.2)
    (away : ∀ j, i ≤ j → j < i + count → j ≠ best.1 ∧ (i < j → j ≠ best.1 + best.2)) :
    runPrinting groups best { i, text } = runPrinting groups best {
      i := i + count, text := text ++ printGroups ((groups.toList.drop i).take count) } := by
  cases count with
  | zero => simp [printGroups]
  | succ count =>
    have inside : i < 8 := by omega
    have none : ¬ (i ≠ 0 ∧ i ≠ best.1 + best.2) := by omega
    have step : i + 1 + count = i + (count + 1) := by omega
    rw [printing_group inside (away i (Nat.le_refl i) (by omega)).1, if_neg none,
      printing_more (i + 1) count _ (Nat.succ_pos i) (by omega)]
    · rw [step, drop_group inside, List.take_succ_cons, printGroups_cons, List.append_assoc]
    · intro j above below
      obtain ⟨apart, notBehind⟩ := away j (by omega) (by omega)
      exact ⟨apart, notBehind above⟩

theorem printing_all : runPrinting groups (8, 0) {} = printGroups groups.toList := by
  have all : (groups.toList.drop 0).take 8 = groups.toList := by
    rw [List.drop_zero, List.take_of_length_le (by simp)]
  have away : ∀ j, 0 ≤ j → j < 0 + 8 → j ≠ 8 ∧ (0 < j → j ≠ 8 + 0) := by omega
  have printed : runPrinting groups (8, 0) {} = _ := printing_groups 0 8 [] (by omega) (.inl rfl) away
  rw [printed, all]
  exact printing_done

theorem printing_compressed (long : 2 ≤ best.2) (within : best.1 + best.2 ≤ 8) :
    runPrinting groups best {} = printGroups (groups.toList.take best.1) ++ [':', ':'] ++
      printGroups (groups.toList.drop (best.1 + best.2)) := by
  have rest : (groups.toList.drop (best.1 + best.2)).take (8 - (best.1 + best.2)) =
      groups.toList.drop (best.1 + best.2) := List.take_of_length_le (by simp)
  have behind : best.1 + (best.2 - 1) + 1 = best.1 + best.2 := by omega
  have ended : best.1 + best.2 + (8 - (best.1 + best.2)) = 8 := by omega
  calc
    runPrinting groups best {} =
        runPrinting groups best { i := best.1, text := printGroups (groups.toList.take best.1) } := by
      have front : runPrinting groups best {} = _ := printing_groups 0 best.1 [] (by omega) (.inl rfl) (by omega)
      rw [front, Nat.zero_add, List.nil_append, List.drop_zero]
    _ = runPrinting groups best {
        i := best.1 + best.2, text := printGroups (groups.toList.take best.1) ++ [':', ':'] } := by
      rw [printing_run (by omega), behind]
    _ = _ := by
      rw [printing_groups _ (8 - (best.1 + best.2)) _ (by omega) (.inr rfl) (by omega), rest, ended, printing_done]

end

theorem ipv6Text_hostText (groups : Vector UInt16 8) : Ipv6Text (hostText groups) groups.toList := by
  have eight : groups.toList.length = 8 := Vector.length_toList
  have loop : hostText groups = runPrinting groups (longestRun groups) {} := rfl
  rcases longestRun_spec groups with none | ⟨long, run⟩
  · have printed : hostText groups = printGroups groups.toList := by
      rw [loop, none, printing_all]
    rw [printed]
    exact .full (groupsText_print _) eight
  · have printed : hostText groups = printGroups (groups.toList.take (longestRun groups).1) ++ [':', ':'] ++
        printGroups (groups.toList.drop ((longestRun groups).1 + (longestRun groups).2)) :=
      printing_compressed long run.1
    have within := run.1
    have missing : 8 - (groups.toList.take (longestRun groups).1).length -
        (groups.toList.drop ((longestRun groups).1 + (longestRun groups).2)).length = (longestRun groups).2 := by
      rw [List.length_take, List.length_drop, eight]
      omega
    have text := Ipv6Text.compressed (groupsText_print (groups.toList.take (longestRun groups).1))
      (groupsText_print (groups.toList.drop ((longestRun groups).1 + (longestRun groups).2)))
      (by rw [List.length_take, List.length_drop, eight]; omega)
    rw [missing, ← run.split] at text
    rw [printed]
    exact text

/-! Addresses. -/

theorem big_groupOf (high low : UInt8) : big 2 (groupOf high low).toNat = [high, low] := by
  have read : readU16be [high, low] = groupOf high low := rfl
  rw [← read, ← writeU16be_eq_big, writeU16be_readU16be rfl]

theorem toList_groupsOf (bytes : Vector UInt8 16) :
    bytes.toList = (groupsOf bytes).toList.flatMap fun group => big 2 group.toNat := by
  have whole : bytes.toList = List.ofFn fun i : Fin 16 => bytes[i] := by
    apply List.ext_getElem
    · simp
    · intro i inside inside'
      rw [List.getElem_ofFn, Vector.getElem_toList]
      rfl
  rw [whole]
  simp [groupsOf, Vector.toList_ofFn, big_groupOf, List.ofFn_succ]

namespace IpAddress

/-- What is printed denotes the address. -/
theorem addressText_toText {address : IpAddress} (global : address.scopeId = 0) :
    AddressText address.toText address := by
  cases family : address.family with
  | ipv4 =>
    have host : Ipv4Text (['.'].intercalate [decimal address.bytes[0].toNat, decimal address.bytes[1].toNat,
        decimal address.bytes[2].toNat, decimal address.bytes[3].toNat])
        [address.bytes[0], address.bytes[1], address.bytes[2], address.bytes[3]] :=
      ⟨rfl, _, rfl, .cons (decimal_octet _) (.cons (decimal_octet _) (.cons (decimal_octet _)
        (.cons (decimal_octet _) .nil)))⟩
    have text := AddressText.ipv4Port host (decimal_port address.port)
    rw [← eq_ipv4 family] at text
    simpa [toText, family] using text
  | ipv6 =>
    have host : Ipv6Host (hostText (groupsOf address.bytes)) address.bytes :=
      ⟨_, ipv6Text_hostText _, toList_groupsOf _⟩
    have text := AddressText.bracketedPort host (decimal_port address.port)
    have whole := eq_ipv6 family
    rw [global] at whole
    rw [← whole] at text
    simpa [toText, family] using text

theorem scopeId_of_denotes {text : List Char} {address : IpAddress} (denotes : AddressText text address) :
    address.scopeId = 0 := by
  cases denotes <;> rfl

/-- Printing and parsing undo each other, and what is printed is one text for each address. -/
theorem text_roundTrips :
    (∀ address : IpAddress, address.scopeId = 0 → fromText address.toText = .ok address) ∧
      ∀ text address, fromText text = .ok address → fromText address.toText = .ok address ∧
        (fromText address.toText).map toText = .ok address.toText := by
  have back (address : IpAddress) (global : address.scopeId = 0) : fromText address.toText = .ok address :=
    fromText_complete (addressText_toText global)
  refine ⟨back, ?_⟩
  intro text address read
  have again := back address (scopeId_of_denotes (fromText_sound read))
  exact ⟨again, by rw [again]; rfl⟩

end IpAddress

end Slopline.Net
