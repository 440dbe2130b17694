import Slopline.Legacy.FieldEmitter
import Slopline.Legacy.FieldLookup

/-! Field lists exchanged with a legacy peer.

Both directions agree as long as the encoding is shorter than 2^32 bytes. The size of a
legacy handle is a `Uint32`: one field more and the emitter stores behind its handle.
-/

set_option autoImplicit false

namespace Slopline.Legacy

open Library Endian Protocol UFieldData

/-- What the legacy calls emit is the modern encoding of the same fields, and what the legacy
lookups answer about accepted bytes is what the modern functions answer. -/
theorem fieldData_interoperates :
    (∀ calls : List Addition, calls.length ≤ 65535 →
      (∀ call ∈ calls, call.asField.id ≠ 0 ∧ call.asField.data.length ≤ 65535) →
      ∃ bytes, encodeFieldList (gathered calls) = .ok bytes ∧
        (bytes.length < 2 ^ 32 → ∀ handles, gather handles calls = .value bytes)) ∧
    (∀ (bytes : Bytes) (list : FieldList), decodeFieldList bytes = .value list → bytes.length < 2 ^ 32 →
      ∀ lookups : List Lookup, ∃ answers,
        Lookup.performAll lookups (UFieldData.new (some bytes) 0) = .value answers ∧
          List.Forall₂ (LookupAgrees list) lookups answers) := by
  constructor
  · intro calls count each
    have fits := gathered_fits (fun call inside => (each call inside).2) count
    refine ⟨_, encodeFieldList_eq_ok.mpr ⟨fits, rfl⟩, fun room handles => ?_⟩
    exact gather_eq handles (fun call inside => (each call inside).1) (fun call inside => (each call inside).2) count room
  · intro bytes list decoded small lookups
    obtain ⟨fits, rfl⟩ := (decodeFieldList_decodes bytes list).mp decoded
    exact Lookup.performAll_agrees ⟨fits, small⟩ (Ready.new _ _) lookups

/-- An integer behind a text, found again among three fields of which two share an ID. -/
theorem fieldData_interoperates_small :
    (∃ bytes, encodeFieldList (gathered [.integer 106 70000, .field 105 []]) = .ok bytes ∧
      (bytes.length < 2 ^ 32 → ∀ handles, gather handles [.integer 106 70000, .field 105 []] = .value bytes)) ∧
    (∃ answers, Lookup.performAll [.integer 106, .field 105 8]
        (UFieldData.new (some [0, 3, 0, 7, 0, 1, 9, 0, 106, 0, 2, 1, 0, 0, 7, 0, 0]) 0) = .value answers ∧
      List.Forall₂ (LookupAgrees { fields := [{ id := 7, data := [9] }, { id := 106, data := [1, 0] }, { id := 7 }] })
        [.integer 106, .field 105 8] answers) :=
  ⟨fieldData_interoperates.1 _ (by decide) (by decide), fieldData_interoperates.2 _ _ (by decide) (by decide) _⟩

/-! Beyond a handle's size. -/

variable (handles : UMemory.Handles Failure)

/-- Room that wraps around: the stores behind the old end are outside the handle. -/
theorem addField_overflow {fields : List Protocol.Field} {ref : SFieldData} {field : Protocol.Field}
    (holds : Holds fields ref) (some : fields ≠ []) (named : field.id ≠ 0) (size : 0 < field.data.length)
    (fits : field.data.length ≤ 65535) (small : (fieldListBytes { fields }).length < 2 ^ 32)
    (wraps : 2 ^ 32 ≤ (fieldListBytes { fields }).length + (field.data.length + 4)) :
    UFieldData.addField handles ref field.id field.data = .fault := by
  have there : ref.h = .some (fieldListBytes { fields }) := by rw [holds.data, if_neg some]
  generalize fieldListBytes { fields } = h at there small wraps
  have whole : UMemory.getSize h = h.length := Nat.mod_eq_of_lt small
  -- The new size wraps, and the handle shrinks.
  obtain ⟨resized, grown⟩ : ∃ resized, handles.setSize (UInt32.ofNat (h.length + (field.data.length + 4))) h = resized :=
    ⟨_, rfl⟩
  have length : resized.length = h.length + (field.data.length + 4) - 2 ^ 32 := by
    rw [← grown, handles.length_setSize, UInt32.toNat_ofNat']
    omega
  simp only [UFieldData.addField, if_neg named, if_neg (Nat.ne_of_gt size), if_neg (Nat.not_lt.mpr fits), there,
    whole, holds.header, grown]
  by_cases counted : 2 ≤ resized.length
  · have count : UMemory.write 0 (writeU16be (readU16be (resized.take 2) + 1)) resized =
        Checked.value (ε := Failure) (writeU16be (readU16be (resized.take 2) + 1) ++ resized.drop 2) := by
      simp [UMemory.write, counted]
    have outside : ∀ front : Bytes, front.length = resized.length →
        UMemory.write h.length (writeU16be field.id) front = Checked.fault (ε := Failure) := by
      intro front same
      rw [UMemory.write, if_neg]
      rw [same, length_writeU16be]
      omega
    simp only [u16beAt, Span.slice, Nat.zero_add, counted, if_true, List.drop_zero, Checked.value_bind,
      Checked.pure_eq, count]
    rw [outside _ (by simp; omega), Checked.fault_bind]
  -- Not even the count is left in the handle.
  · simp [u16beAt, Span.slice, counted]

def crowd (count size : Nat) : List Addition :=
  List.replicate count (.field 1 (List.replicate size 0)) ++ [.field 2 (List.replicate size 0)]

theorem performAll_append (calls : List Addition) (last : Addition) (ref : SFieldData) :
    (calls ++ [last]).foldlM (Addition.perform handles) ref =
      (calls.foldlM (Addition.perform handles) ref >>= last.perform handles) := by
  induction calls generalizing ref with
  | nil =>
    simp only [List.nil_append, List.foldlM_cons, List.foldlM_nil, Checked.pure_eq, Checked.value_bind]
    cases last.perform handles ref <;> rfl
  | cons call calls ih =>
    rw [List.cons_append, List.foldlM_cons, List.foldlM_cons]
    cases call.perform handles ref with
    | value next => exact ih next
    | error reason => rfl
    | fault => rfl

section
variable {count size : Nat}

theorem gathered_crowd (filled : 0 < size) :
    (gathered (crowd count size)).fields =
      List.replicate count { id := 1, data := List.replicate size 0 } ++
        [{ id := 2, data := List.replicate size 0 }] := by
  have nonempty : List.replicate size (0 : UInt8) ≠ [] := by
    rw [ne_eq, List.replicate_eq_nil_iff]
    omega
  simp [gathered, crowd, Addition.asField, nonempty, -List.reduceReplicate]

theorem length_crowdBytes (filled : 0 < size) :
    (fieldListBytes (gathered (crowd count size))).length = 2 + (count + 1) * (4 + size) := by
  rw [length_fieldListBytes, gathered_crowd filled]
  simp [-List.reduceReplicate, Nat.succ_mul]

theorem gather_crowd (some : 0 < count) (few : count + 1 ≤ 65535) (filled : 0 < size) (fits : size ≤ 65535)
    (small : 2 + count * (4 + size) < 2 ^ 32) (wraps : 2 ^ 32 ≤ 2 + (count + 1) * (4 + size)) :
    gather handles (crowd count size) = .fault := by
  have data : (List.replicate size (0 : UInt8)).length = size := List.length_replicate
  have nonempty : List.replicate size (0 : UInt8) ≠ [] := by
    rw [ne_eq, List.replicate_eq_nil_iff]
    omega
  have head : kept ((List.replicate count (Addition.field 1 (List.replicate size 0))).map Addition.asField) =
      List.replicate count { id := 1, data := List.replicate size 0 } := by
    simp [kept, Addition.asField, nonempty, -List.reduceReplicate]
  have length : (fieldListBytes
      { fields := List.replicate count { id := 1, data := List.replicate size 0 } }).length =
      2 + count * (4 + size) := by
    rw [length_fieldListBytes]
    simp [-List.reduceReplicate]
  have there : List.replicate count ({ id := 1, data := List.replicate size 0 } : Protocol.Field) ≠ [] := by
    rw [ne_eq, List.replicate_eq_nil_iff]
    omega
  -- All but the last call fill the handle, up to less than 2^32 bytes.
  obtain ⟨ref, performed, holds⟩ := performAll_holds handles
    (List.replicate count (.field 1 (List.replicate size 0))) Holds.new
    (by intro call inside; rw [List.eq_of_mem_replicate inside]; exact (by decide : (1 : UInt16) ≠ 0))
    (by intro call inside; rw [List.eq_of_mem_replicate inside]; exact data.trans_le fits)
    (by rw [List.length_nil, List.length_replicate]; omega)
    (by rw [List.nil_append, head, length]; exact small)
  rw [List.nil_append, head] at holds
  have last : (Addition.field 2 (List.replicate size 0)).perform handles ref = .fault := by
    refine @addField_overflow handles _ ref { id := 2, data := List.replicate size 0 } holds there
      (by exact (by decide : (2 : UInt16) ≠ 0)) (data.symm ▸ filled) (data.symm ▸ fits) (by rw [length]; exact small) ?_
    simp only [length, data]
    rw [Nat.succ_mul] at wraps
    omega
  rw [gather, crowd, performAll_append, performed, Checked.value_bind, last, Checked.fault_bind]

/-- A handle whose 32-bit size does not cover its first field has no fields for the lookups. -/
theorem fdBuildTables_short {h : Bytes} (short : UMemory.getSize h < 2 + 4 + (readU16be (h.drop 4)).toNat) :
    (fdBuildTables (UFieldData.new (some h) 0)).tableSize = 0 := by
  have scanned : ∀ c, (scanFields h (UMemory.getSize h) 0 c 0 2).1 = [] := by
    intro c
    cases c with
    | zero => rfl
    | succ c =>
      rw [scanFields]
      split
      · rfl
      · rw [if_pos short]
  simp [fdBuildTables, UFieldData.new, fdSortLookupTable, scanned]

theorem fdGetFieldOffset_short {h : Bytes} {inID : UInt16}
    (short : UMemory.getSize h < 2 + 4 + (readU16be (h.drop 4)).toNat) :
    ∃ next, fdGetFieldOffset (UFieldData.new (some h) 0) inID = .value (none, next) := by
  have none : (fdBuildTables (UFieldData.new (some h) 0)).tableSize = 0 := fdBuildTables_short short
  have fresh : (fdBuildTables (UFieldData.new (some h) 0)).lastSearchID = 0 := rfl
  unfold fdGetFieldOffset
  split
  · exact ⟨_, rfl⟩
  · rename_i named
    have untouched : (UFieldData.new (some h) 0).lookupTable.isNone = true := rfl
    simp only [untouched, if_true]
    generalize fdBuildTables (UFieldData.new (some h) 0) = built at none fresh ⊢
    have missed : (fdSearchLookupTable built inID).1.1 = false := by
      simp only [fdSearchLookupTable, if_neg named, fresh, none, Ne.symm named, if_false]
      cases built.lookupTable <;> rfl
    rw [missed]
    exact ⟨_, rfl⟩

theorem getField_crowd (some : 0 < count) (filled : 0 < size) (fits : size ≤ 65535)
    (small : 2 + count * (4 + size) < 2 ^ 32) (wraps : 2 ^ 32 ≤ 2 + (count + 1) * (4 + size)) (maxSize : UInt32) :
    Lookup.performAll [.field 2 maxSize]
      (UFieldData.new (.some (fieldListBytes (gathered (crowd count size)))) 0) = .value [.data []] := by
  have data : (List.replicate size (0 : UInt8)).length = size := List.length_replicate
  have short : UMemory.getSize (fieldListBytes (gathered (crowd count size))) < 2 + 4 + size := by
    rw [UMemory.getSize, length_crowdBytes filled]
    rw [Nat.succ_mul] at wraps ⊢
    omega
  have first : (readU16be ((fieldListBytes (gathered (crowd count size))).drop 4)).toNat = size := by
    obtain ⟨count, rfl⟩ : ∃ more, count = more + 1 := ⟨count - 1, by omega⟩
    have at_size : ∀ (a b : UInt16) (rest : Bytes), (writeU16be a ++ (writeU16be b ++ rest)).drop 4 = rest :=
      fun a b rest => rfl
    rw [fieldListBytes, gathered_crowd filled, List.replicate_succ, List.cons_append, List.flatMap_cons, encodeField,
      List.append_assoc, at_size, List.append_assoc, readU16be_writeU16be, data, toNat_ofNat_u16 fits]
  obtain ⟨next, missed⟩ : ∃ next, fdGetFieldOffset (UFieldData.new
      (.some (fieldListBytes (gathered (crowd count size)))) 0) 2 = .value (none, next) :=
    fdGetFieldOffset_short (by rw [first]; exact short)
  simp only [Lookup.performAll, Lookup.perform, UFieldData.getField, UFieldData.readField, missed,
    Checked.value_bind, Checked.pure_eq]

end

theorem crowd_lookup (count size : Nat) (filled : 0 < size) :
    occurrences (gathered (crowd count size)) 2 ≤ 1 ∧
      fieldData (gathered (crowd count size)) 2 = List.replicate size 0 := by
  have other : ∀ field ∈ List.replicate count ({ id := 1, data := List.replicate size 0 } : Protocol.Field),
      ¬ field.id = 2 := by
    intro field inside
    rw [List.eq_of_mem_replicate inside]
    exact (by decide : ¬ (1 : UInt16) = 2)
  have none : (List.replicate count ({ id := 1, data := List.replicate size 0 } : Protocol.Field)).filter
      (·.id = 2) = [] := by
    rw [List.filter_eq_nil_iff]
    exact fun field inside => by simpa using other field inside
  have none' : (List.replicate count ({ id := 1, data := List.replicate size 0 } : Protocol.Field)).find?
      (·.id = 2) = .none := by
    rw [List.find?_eq_none]
    exact fun field inside => by simpa using other field inside
  constructor
  · rw [occurrences, gathered_crowd filled, List.filter_append, none]
    exact List.length_filter_le _ _
  · rw [fieldData, findField, gathered_crowd filled, List.find?_append, none']
    rfl

/-- 65533 fields of the largest size, 4294967289 bytes, and one more. Its ID is looked up in vain
even where the bytes come from the modern encoder. -/
theorem fieldData_overflows :
    ((crowd 65533 65535).length ≤ 65535 ∧
      ∀ call ∈ crowd 65533 65535, call.asField.id ≠ 0 ∧ call.asField.data.length ≤ 65535) ∧
    ∃ bytes, encodeFieldList (gathered (crowd 65533 65535)) = .ok bytes ∧
      (∀ handles, gather handles (crowd 65533 65535) = .fault) ∧
      decodeFieldList bytes = .value (gathered (crowd 65533 65535)) ∧
      Lookup.performAll [.field 2 65535] (UFieldData.new (some bytes) 0) = .value [.data []] ∧
      ¬ LookupAgrees (gathered (crowd 65533 65535)) (.field 2 65535) (.data []) := by
  have count : (crowd 65533 65535).length = 65534 := by
    rw [crowd, List.length_append, List.length_replicate, List.length_singleton]
  have each : ∀ call ∈ crowd 65533 65535, call.asField.id ≠ 0 ∧ call.asField.data.length ≤ 65535 := by
    intro call inside
    obtain same | same := List.mem_append.mp inside
    · rw [List.eq_of_mem_replicate same]
      exact ⟨(by decide : (1 : UInt16) ≠ 0), List.length_replicate.le⟩
    · rw [List.mem_singleton.mp same]
      exact ⟨(by decide : (2 : UInt16) ≠ 0), List.length_replicate.le⟩
  have fits := gathered_fits (fun call inside => (each call inside).2) (count.trans_le (by decide))
  refine ⟨⟨count.trans_le (by decide), each⟩, _, encodeFieldList_eq_ok.mpr ⟨fits, rfl⟩,
    fun handles => gather_crowd handles (by decide) (by decide) (by decide) (by decide) (by decide) (by decide),
    decodeFieldList_complete fits,
    getField_crowd (by decide) (by decide) (by decide) (by decide) (by decide) 65535, fun agrees => ?_⟩
  obtain ⟨once, data⟩ := crowd_lookup 65533 65535 (by decide)
  have same := agrees (by decide) once (by rw [data]; exact List.length_replicate.le)
  rw [data, Answer.data.injEq] at same
  exact absurd (congrArg List.length same) (by rw [List.length_replicate]; decide)

end Slopline.Legacy
