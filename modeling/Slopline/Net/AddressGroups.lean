import Slopline.Net.AddressGrammar

/-! IPv6 hosts: the parser takes the texts of the grammar, group by group. -/

set_option autoImplicit false

namespace Slopline.Net

open Library Library.Search

theorem groupText_solid {text : List Char} {group : UInt16} (number : GroupText text group) : Solid ':' text :=
  solid_numeral number.2 rfl

theorem digitValue_lt {digit : Char} {d : Nat} (same : digitValue digit = some d) : d < 16 := by
  unfold digitValue at same
  split at same
  case isTrue decimal =>
    have high : digit.toNat ≤ '9'.toNat := decimal.2
    have nine : '9'.toNat - '0'.toNat = 9 := rfl
    cases same
    omega
  case isFalse =>
    split at same
    case isTrue lower =>
      have high : digit.toNat ≤ 'f'.toNat := lower.2
      have last : 'f'.toNat - 'a'.toNat = 5 := rfl
      cases same
      omega
    case isFalse =>
      split at same
      case isTrue upper =>
        have high : digit.toNat ≤ 'F'.toNat := upper.2
        have last : 'F'.toNat - 'A'.toNat = 5 := rfl
        cases same
        omega
      case isFalse => cases same

theorem groupDigit_eq {value : UInt16} (below : value.toNat < 2 ^ 12) (digit : Char) :
    groupDigit value digit = (digitValue digit).map fun d => UInt16.ofNat (16 * value.toNat + d) := by
  rw [groupDigit, hexValue_eq]
  cases same : digitValue digit with
  | none => rfl
  | some d =>
    have small := digitValue_lt same
    have shifted : (value <<< 4 ||| UInt16.ofInt d).toNat = 16 * value.toNat + d := by
      have whole := Nat.shiftLeft_add_eq_or_of_lt (by omega : d < 2 ^ 4) value.toNat
      have amount : value.toNat <<< 4 = 16 * value.toNat := by
        rw [Nat.shiftLeft_eq, Nat.mul_comm]
      have high : (value <<< 4).toNat = value.toNat <<< 4 := by
        rw [UInt16.toNat_shiftLeft, UInt16.toNat_ofNat_of_lt (by decide)]
        exact Nat.mod_eq_of_lt (by rw [amount]; omega)
      have low : (UInt16.ofInt d).toNat = d := by
        have same : ((d : Int) % 2 ^ 16).toNat = d := by omega
        rw [UInt16.ofInt, same]
        exact UInt16.toNat_ofNat_of_lt' (by simp only [UInt16.size]; omega)
      rw [UInt16.toNat_or, high, low, ← whole, amount]
    have positive : ¬ ((some d).elim (-1) fun d => (d : Int)) < 0 := by simp
    rw [if_neg positive]
    apply congrArg some
    apply UInt16.toNat_inj.mp
    rw [UInt16.toNat_ofNat_of_lt' (by simp only [UInt16.size]; omega)]
    exact shifted

theorem parseGroup_foldlM {text : List Char} (value : UInt16) (count : Nat) (start : value.toNat < 16 ^ count)
    (room : count + text.length ≤ 4) (group : UInt16) :
    text.foldlM groupDigit value = some group ↔
      (∀ digit ∈ text, ∃ d < 16, digitValue digit = some d) ∧ numeralFrom 16 value.toNat text = group.toNat := by
  induction text generalizing value count with
  | nil => simp [numeralFrom, UInt16.toNat_inj]
  | cons digit text ih =>
    rw [List.length_cons] at room
    have below : value.toNat < 2 ^ 12 :=
      Nat.lt_of_lt_of_le start (Nat.pow_le_pow_right (by decide) (by omega : count ≤ 3))
    rw [List.foldlM_cons, groupDigit_eq below]
    cases same : digitValue digit with
    | none => simp [same]
    | some d =>
      have small := digitValue_lt same
      have next : (UInt16.ofNat (16 * value.toNat + d)).toNat = 16 * value.toNat + d :=
        UInt16.toNat_ofNat_of_lt' (by simp only [UInt16.size]; omega)
      have further := ih (UInt16.ofNat (16 * value.toNat + d)) (count + 1)
        (by rw [next, Nat.pow_succ]; omega) (by omega)
      have first : ∃ e < 16, some d = some e := ⟨d, small, rfl⟩
      rw [next] at further
      simp only [Option.map_some, Option.bind_eq_bind, Option.bind_some, further, List.mem_cons, forall_eq_or_imp,
        same, first, true_and]
      simp [numeralFrom, same]

theorem parseGroup_iff {text : List Char} {group : UInt16} :
    text ≠ [] ∧ text.length ≤ 4 ∧ parseGroup text = some group ↔ GroupText text group := by
  have parsed (short : text.length ≤ 4) :=
    parseGroup_foldlM 0 0 (by decide) (by omega : 0 + text.length ≤ 4) group
  constructor
  · rintro ⟨nonempty, short, read⟩
    obtain ⟨digits, denotes⟩ := (parsed short).mp read
    exact ⟨short, nonempty, digits, denotes⟩
  · rintro ⟨short, nonempty, digits, denotes⟩
    exact ⟨nonempty, short, (parsed short).mpr ⟨digits, denotes⟩⟩

theorem groupScan_done {scan : GroupScan} {groups : List UInt16} (step : scan.step = .done (some groups)) :
    ∃ group, GroupText scan.rest group ∧ scan.groups.length < 8 ∧ groups = scan.groups ++ [group] := by
  simp only [GroupScan.step] at step
  split at step
  · cases step
  rename_i size
  split at step
  · cases step
  rename_i room
  split at step
  · cases step
  rename_i group parsed
  split at step
  case h_2 =>
    split at step
    · cases step
    · cases step
  case h_1 last =>
    cases step
    rw [last, Option.elim_none, not_or, Nat.not_lt] at size
    rw [last, Option.elim_none] at parsed
    exact ⟨group, parseGroup_iff.mp ⟨size.1, size.2, parsed⟩, Nat.lt_of_not_le room, rfl⟩

theorem groupScan_again {scan next : GroupScan} (step : scan.step = .again next) :
    ∃ text group, scan.rest = text ++ ':' :: next.rest ∧ GroupText text group ∧
      next.groups = scan.groups ++ [group] := by
  obtain ⟨position, group, found, nonempty, short, parsed, _, rfl⟩ := GroupScan.step_again step
  obtain ⟨text, rest, split, _, length⟩ := find_singleton_split found
  have taken : scan.rest.take position = text := by
    rw [split, ← length, List.take_left']
    rfl
  have dropped : scan.rest.drop (position + 1) = rest := by
    rw [split, ← length]
    simp
  rw [taken] at nonempty short parsed
  exact ⟨text, group, by rw [dropped, split], parseGroup_iff.mp ⟨nonempty, short, parsed⟩, rfl⟩

theorem groupScan_last {text : List Char} {group : UInt16} {groups : List UInt16} (number : GroupText text group)
    (room : groups.length < 8) : GroupScan.step { rest := text, groups } = .done (some (groups ++ [group])) := by
  obtain ⟨nonempty, short, parsed⟩ := parseGroup_iff.mpr number
  have last : find [':'] text = none := find_singleton_none.mpr (groupText_solid number).2
  have size : ¬ (text = [] ∨ 4 < text.length) := by simp [nonempty, Nat.not_lt.mpr short]
  simp only [GroupScan.step, last, Option.elim_none, if_neg size, if_neg (Nat.not_le.mpr room), parsed]

theorem groupScan_more {text rest : List Char} {group : UInt16} {groups : List UInt16}
    (number : GroupText text group) (room : groups.length < 8) (more : rest ≠ []) :
    GroupScan.step { rest := text ++ ':' :: rest, groups } = .again { rest, groups := groups ++ [group] } := by
  obtain ⟨nonempty, short, parsed⟩ := parseGroup_iff.mpr number
  have found : find [':'] (text ++ ':' :: rest) = some text.length :=
    find_singleton rest (groupText_solid number).2
  have size : ¬ (text = [] ∨ 4 < text.length) := by simp [nonempty, Nat.not_lt.mpr short]
  have taken : (text ++ ':' :: rest).take text.length = text := List.take_left' rfl
  have dropped : (text ++ ':' :: rest).drop (text.length + 1) = rest := by simp
  have behind : ¬ (text ++ ':' :: rest).length ≤ text.length + 1 := by
    have := List.length_pos_of_ne_nil more
    simp
    omega
  simp only [GroupScan.step, found, Option.elim_some, taken, if_neg size, if_neg (Nat.not_le.mpr room), parsed,
    if_neg behind, dropped]

theorem groupTexts_solid {texts : List (List Char)} {groups : List UInt16}
    (numbers : List.Forall₂ GroupText texts groups) : ∀ text ∈ texts, Solid ':' text := by
  intro text inside
  obtain ⟨_, _, number⟩ := forall₂_of_mem numbers inside
  exact groupText_solid number

def runGroups (scan : GroupScan) : Option (List UInt16) :=
  Loop.run (fun scan : GroupScan => scan.rest.length) GroupScan.step_drops scan

theorem runGroups_sound (scan : GroupScan) :
    ∀ groups, runGroups scan = some groups → ∃ texts numbers, texts ≠ [] ∧
      scan.rest = [':'].intercalate texts ∧ List.Forall₂ GroupText texts numbers ∧
      groups = scan.groups ++ numbers ∧ groups.length ≤ 8 := by
  refine Loop.run_induction (fun scan : GroupScan => scan.rest.length) GroupScan.step_drops
    (motive := fun scan result => ∀ groups, result = some groups → ∃ texts numbers, texts ≠ [] ∧
      scan.rest = [':'].intercalate texts ∧ List.Forall₂ GroupText texts numbers ∧
      groups = scan.groups ++ numbers ∧ groups.length ≤ 8) ?_ ?_ scan
  · rintro scan result step groups rfl
    obtain ⟨group, number, room, rfl⟩ := groupScan_done step
    refine ⟨[scan.rest], [group], by simp, by simp, .cons number .nil, rfl, ?_⟩
    rw [List.length_append]
    exact room
  · rintro scan next result step ih groups rfl
    obtain ⟨text, group, split, number, grown⟩ := groupScan_again step
    obtain ⟨texts, numbers, nonempty, rest, more, rfl, few⟩ := ih groups rfl
    refine ⟨text :: texts, group :: numbers, by simp, ?_, .cons number more, ?_, few⟩
    · rw [List.intercalate_cons_of_ne_nil nonempty, split, rest, List.append_assoc, List.singleton_append]
    · rw [grown, List.append_assoc, List.singleton_append]

theorem runGroups_complete {texts : List (List Char)} {numbers : List UInt16}
    (each : List.Forall₂ GroupText texts numbers) (nonempty : texts ≠ []) (groups : List UInt16)
    (room : groups.length + numbers.length ≤ 8) :
    runGroups { rest := [':'].intercalate texts, groups } = some (groups ++ numbers) := by
  induction each generalizing groups with
  | nil => exact absurd rfl nonempty
  | @cons text group texts numbers number more ih =>
    rw [List.length_cons] at room
    cases more with
    | nil =>
      rw [List.intercalate_singleton]
      exact Loop.run_done _ GroupScan.step_drops (groupScan_last number (by omega))
    | @cons next other rest others first last =>
      have solid := groupTexts_solid (.cons first last) next (by simp)
      have behind : [':'].intercalate (next :: rest) ≠ [] := by
        rw [intercalate_cons]
        exact List.append_ne_nil_of_left_ne_nil solid.1 _
      have again : GroupScan.step { rest := text ++ ':' :: [':'].intercalate (next :: rest), groups } = .again _ :=
        groupScan_more number (by omega) behind
      have further := ih (by simp) (groups ++ [group]) (by rw [List.length_append, List.length_singleton]; omega)
      have joined : [':'].intercalate (text :: next :: rest) = text ++ ':' :: [':'].intercalate (next :: rest) := by
        rw [List.intercalate_cons_cons, List.append_assoc, List.singleton_append]
      rw [joined]
      calc
        _ = runGroups { rest := [':'].intercalate (next :: rest), groups := groups ++ [group] } :=
          Loop.run_again _ GroupScan.step_drops again
        _ = _ := by
          rw [further, List.append_assoc, List.singleton_append]

theorem parseGroups_iff {part : List Char} {groups : List UInt16} :
    parseGroups part = some groups ↔ GroupsText part groups ∧ groups.length ≤ 8 := by
  have nonempty {part : List Char} (some_ : part ≠ []) : parseGroups part = runGroups { rest := part } :=
    if_neg some_
  constructor
  · intro parsed
    by_cases empty : part = []
    · subst empty
      cases parsed
      exact ⟨⟨[], rfl, .nil⟩, by simp⟩
    · rw [nonempty empty] at parsed
      obtain ⟨texts, numbers, _, rest, each, rfl, few⟩ := runGroups_sound _ groups parsed
      exact ⟨⟨texts, rest, each⟩, few⟩
  · rintro ⟨⟨texts, rfl, each⟩, few⟩
    cases each with
    | nil => rfl
    | @cons text group texts numbers number more =>
      have solid := groupText_solid number
      have filled : [':'].intercalate (text :: texts) ≠ [] := by
        rw [intercalate_cons]
        exact List.append_ne_nil_of_left_ne_nil solid.1 _
      rw [nonempty filled]
      exact runGroups_complete (.cons number more) (by simp) [] (by simpa using few)

theorem groupsText_spaced {text : List Char} {groups : List UInt16} (each : GroupsText text groups) :
    Spaced ':' text := by
  obtain ⟨texts, rfl, numbers⟩ := each
  exact spaced_intercalate (groupTexts_solid numbers)

/-- What the parser of a host takes, and the bytes of the groups it reads. -/
theorem parseIpv6Host_iff {host : List Char} {bytes : Vector UInt8 16} :
    parseIpv6Host host = some bytes ↔ ∃ groups, Ipv6Text host groups ∧ bytes = groupBytes groups := by
  constructor
  · intro parsed
    unfold parseIpv6Host at parsed
    split at parsed
    case h_1 =>
      obtain ⟨groups, read, ended⟩ := Option.bind_eq_some_iff.mp parsed
      split at ended
      · cases ended
      rename_i eight
      have same := Option.some.inj ended
      subst same
      exact ⟨groups, .full (parseGroups_iff.mp read).1 (Decidable.not_not.mp eight), rfl⟩
    case h_2 compression found =>
      obtain ⟨before, after, split, length⟩ := find_split found
      have front : host.take compression = before := by
        rw [split, ← length, List.append_assoc, List.take_left' rfl]
      have back : host.drop (compression + 2) = after := by
        rw [split, ← length]
        simp
      rw [front, back] at parsed
      obtain ⟨head, readHead, further⟩ := Option.bind_eq_some_iff.mp parsed
      obtain ⟨tail, readTail, ended⟩ := Option.bind_eq_some_iff.mp further
      split at ended
      · cases ended
      rename_i few
      have same := Option.some.inj ended
      subst same
      refine ⟨_, ?_, rfl⟩
      rw [split]
      exact .compressed (parseGroups_iff.mp readHead).1 (parseGroups_iff.mp readTail).1 (Nat.le_of_not_lt few)
  · rintro ⟨groups, text, rfl⟩
    cases text with
    | full each eight =>
      have whole := find_pair_none (groupsText_spaced each)
      have read := parseGroups_iff.mpr ⟨each, eight.le⟩
      simp [parseIpv6Host, whole, read, eight]
    | @compressed front back head tail headText tailText few =>
      have found := find_pair (groupsText_spaced headText) back
      have readHead := parseGroups_iff.mpr ⟨headText, by omega⟩
      have readTail := parseGroups_iff.mpr ⟨tailText, by omega⟩
      have taken : (front ++ [':', ':'] ++ back).take front.length = front := by
        rw [List.append_assoc, List.take_left' rfl]
      have dropped : (front ++ [':', ':'] ++ back).drop (front.length + 2) = back := by simp
      simp only [parseIpv6Host, found, taken, dropped, readHead, readTail, Option.bind_eq_bind, Option.bind_some,
        if_neg (Nat.not_lt.mpr few)]

theorem big_group (group : UInt16) : big 2 group.toNat = [(group >>> 8).toUInt8, (group &&& 0xFF).toUInt8] := by
  simp [big, little, ← UInt8.toNat_inj, Nat.shiftRight_eq_div_pow, digit_masked]

theorem groupBytes_toList {groups : List UInt16} (eight : groups.length = 8) :
    (groupBytes groups).toList = groups.flatMap fun group => big 2 group.toNat := by
  simp only [big_group]
  match groups, eight with
  | [_, _, _, _, _, _, _, _], _ =>
    simp only [groupBytes, Vector.toList_ofFn, List.ofFn_succ, List.ofFn_zero]
    rfl

theorem ipv6Text_length {host : List Char} {groups : List UInt16} (text : Ipv6Text host groups) :
    groups.length = 8 := by
  cases text with
  | full _ eight => exact eight
  | compressed _ _ few =>
    simp only [List.length_append, List.length_replicate]
    omega

/-- An IPv6 host has two colons at least, and otherwise digits. -/
theorem ipv6Text_colons {host : List Char} {groups : List UInt16} (text : Ipv6Text host groups) :
    2 ≤ host.count ':' := by
  cases text with
  | full each eight =>
    obtain ⟨texts, rfl, numbers⟩ := each
    rw [count_intercalate (groupTexts_solid numbers), numbers.length_eq, eight]
    decide
  | compressed _ _ _ =>
    simp only [List.count_append]
    have : [':', ':'].count ':' = 2 := rfl
    omega

end Slopline.Net
