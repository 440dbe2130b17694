import Slopline.Legacy.FieldData
import Slopline.Protocol.FieldListCodec

/-! What the legacy emitter appends call by call is what the encoder writes at once. -/

set_option autoImplicit false

namespace Slopline.Legacy

open Library Endian Protocol

inductive Addition where
  | field (id : UInt16) (data : Bytes)
  | integer (id : UInt16) (value : Int32)
  | pstring (id : UInt16) (text : PString)
  | cstring (id : UInt16) (text : CString)

namespace Addition

def perform (handles : UMemory.Handles Failure) (ref : SFieldData) : Addition → Checked Failure SFieldData
  | field id data => UFieldData.addField handles ref id data
  | integer id value => UFieldData.addInteger handles ref id value
  | pstring id text => UFieldData.addPString handles ref id text
  | cstring id text => UFieldData.addCString handles ref id text

def asField : Addition → Field
  | field id data => { id, data }
  | integer id value => makeIntegerField id value
  | pstring id text => makeStringField id text.text
  | cstring id text => makeStringField id text.text

end Addition

/-- The bytes of `GetDataHandle` after some calls on a fresh object. -/
def gather (handles : UMemory.Handles Failure) (calls : List Addition) : Checked Failure Bytes := do
  let ref ← calls.foldlM (Addition.perform handles) (UFieldData.new none 0)
  return (UFieldData.getDataHandle ref).1

def gathered (calls : List Addition) : FieldList :=
  { fields := (calls.map Addition.asField).filter (·.data ≠ []) }

/-! The emitter. -/

theorem mask_eq_shifts (value : UInt32) : value &&& (0xFFFF0000 : UInt32) = (value >>> 16) <<< 16 := by
  apply UInt32.eq_of_toBitVec_eq
  apply BitVec.eq_of_getLsbD_eq
  intro i bound
  simp only [UInt32.toBitVec_and, UInt32.toBitVec_shiftLeft, UInt32.toBitVec_shiftRight]
  interval_cases i <;> simp

theorem mask_eq_zero {value : UInt32} : value &&& (0xFFFF0000 : UInt32) = 0 ↔ value.toNat < 65536 := by
  rw [mask_eq_shifts, ← UInt32.toNat_inj]
  have bound := value.toNat_lt
  simp only [UInt32.toNat_shiftLeft, UInt32.toNat_shiftRight, Nat.shiftRight_eq_div_pow, Nat.shiftLeft_eq]
  simp
  omega

theorem inTwoBytes {value : Int32} : 0 ≤ value ∧ value ≤ 0xFFFF ↔ value.toUInt32.toNat < 65536 := by
  rw [Int32.le_iff_toInt_le, Int32.le_iff_toInt_le]
  have same : value.toInt = value.toUInt32.toBitVec.toInt := rfl
  have bound := value.toUInt32.toNat_lt
  rw [same, BitVec.toInt_eq_toNat_cond, UInt32.toNat_toBitVec]
  have zero : (0 : Int32).toInt = 0 := rfl
  have most : (0xFFFF : Int32).toInt = 65535 := rfl
  rw [zero, most]
  split <;> omega

variable (handles : UMemory.Handles Failure)

theorem Addition.perform_eq (ref : SFieldData) (call : Addition) :
    call.perform handles ref = UFieldData.addField handles ref call.asField.id call.asField.data := by
  cases call with
  | field id data => rfl
  | pstring id text => rfl
  | cstring id text => rfl
  | integer id value =>
    simp only [perform, asField, UFieldData.addInteger, makeIntegerField, inTwoBytes, ne_eq, mask_eq_zero]
    split_ifs <;> rfl

structure Holds (fields : List Protocol.Field) (ref : SFieldData) : Prop where
  header : ref.headerSize = 0
  data : ref.h = if fields = [] then none else some (fieldListBytes { fields })

theorem Holds.dumpTables {fields : List Field} {ref : SFieldData} (holds : Holds fields ref) :
    Holds fields (UFieldData.dumpTables ref) := by
  unfold UFieldData.dumpTables
  split
  · exact ⟨holds.header, holds.data⟩
  · exact holds

section
variable {fields : List Protocol.Field} {ref : SFieldData} {field : Protocol.Field}

theorem store_field {result : Type} {front room : Bytes} {first second third : Nat}
    (size : room.length = field.data.length + 4) (atId : first = front.length) (atSize : second = front.length + 2)
    (atData : third = front.length + 4) (next : Bytes → Checked Failure result) :
    (do
      let h ← UMemory.write first (writeU16be field.id) (front ++ room)
      let h ← UMemory.write second (writeU16be (UInt16.ofNat field.data.length)) h
      let h ← UMemory.write third field.data h
      next h) = next (front ++ encodeField field) := by
  have split : room = room.take 2 ++ ((room.drop 2).take 2 ++ ((room.drop 2).drop 2 ++ [])) := by
    rw [List.append_nil, List.take_append_drop, List.take_append_drop]
  have one : (room.take 2).length = 2 := by
    rw [List.length_take]
    omega
  have two : ((room.drop 2).take 2).length = 2 := by
    rw [List.length_take, List.length_drop]
    omega
  have three : ((room.drop 2).drop 2).length = field.data.length := by
    rw [List.length_drop, List.length_drop]
    omega
  rw [split, UMemory.write_at _ _ atId (by simp [one]), Checked.value_bind, ← List.append_assoc front,
    UMemory.write_at _ _ (by simp [atSize]) (by simp [two]), Checked.value_bind, ← List.append_assoc (front ++ _),
    UMemory.write_at _ _ (by simp [atData]) three.symm, Checked.value_bind]
  simp only [encodeField, List.append_assoc, List.append_nil]

theorem addField_first (holds : Holds [] ref) (named : field.id ≠ 0) (size : 0 < field.data.length)
    (fits : field.data.length ≤ 65535) :
    ∃ next, UFieldData.addField handles ref field.id field.data = .value next ∧ Holds [field] next := by
  obtain ⟨h, made⟩ : ∃ h, handles.newHandle (UInt32.ofNat (0 + (field.data.length + 6))) = h := ⟨_, rfl⟩
  have length : h.length = field.data.length + 6 := by
    rw [← made, handles.length_newHandle, UInt32.toNat_ofNat_of_lt' (by show _ < 2 ^ 32; omega), Nat.zero_add]
  have counted : UMemory.write 0 (writeU16be 1) h = Checked.value (ε := Failure) (writeU16be 1 ++ h.drop 2) := by
    rw [UMemory.write, if_pos (by rw [length_writeU16be]; omega)]
    rfl
  have room : (h.drop 2).length = field.data.length + 4 := by
    rw [List.length_drop]
    omega
  have none : ref.h = .none := holds.data
  simp only [UFieldData.addField, if_neg named, if_neg (Nat.ne_of_gt size), if_neg (Nat.not_lt.mpr fits), none,
    holds.header, made, counted, Checked.value_bind]
  rw [store_field room (by simp) (by simp) (by simp)]
  refine ⟨_, rfl, Holds.dumpTables ⟨rfl, ?_⟩⟩
  simp only [fieldListBytes, List.flatMap_cons, List.flatMap_nil, List.append_nil, List.cons_ne_nil, if_false]
  rfl

theorem addField_more (holds : Holds fields ref) (some : fields ≠ []) (named : field.id ≠ 0)
    (size : 0 < field.data.length)
    (fits : field.data.length ≤ 65535) (room : (fieldListBytes { fields }).length + (field.data.length + 4) < 2 ^ 32) :
    ∃ next, UFieldData.addField handles ref field.id field.data = .value next ∧ Holds (fields ++ [field]) next := by
  have there : ref.h = .some (fieldListBytes { fields }) := by rw [holds.data, if_neg some]
  have whole : UMemory.getSize (fieldListBytes { fields }) = (fieldListBytes { fields }).length :=
    Nat.mod_eq_of_lt (by omega)
  have added : UInt16.ofNat fields.length + 1 = UInt16.ofNat (fields.length + 1) :=
    (UInt16.ofNat_add fields.length 1).symm
  obtain ⟨new, grown, length⟩ := handles.setSize_grown room
  -- The count in front goes up by one, the bytes behind it stay.
  have counted : UMemory.write 0 (writeU16be (UInt16.ofNat fields.length + 1)) (fieldListBytes { fields } ++ new) =
      Checked.value (ε := Failure)
        ((writeU16be (UInt16.ofNat (fields.length + 1)) ++ fields.flatMap encodeField) ++ new) := by
    rw [fieldListBytes, List.append_assoc, List.append_assoc, ← added]
    exact @UMemory.write_at _ [] _ (writeU16be (UInt16.ofNat fields.length)) _ _ rfl rfl
  have place : (fieldListBytes { fields }).length =
      (writeU16be (UInt16.ofNat (fields.length + 1)) ++ fields.flatMap encodeField).length := by
    simp [fieldListBytes]
  have read : (u16beAt 0 (fieldListBytes { fields } ++ new) : Checked Failure UInt16) =
      .value (UInt16.ofNat fields.length) := by
    rw [fieldListBytes, List.append_assoc, u16beAt_write]
  simp only [UFieldData.addField, if_neg named, if_neg (Nat.ne_of_gt size), if_neg (Nat.not_lt.mpr fits), there,
    holds.header, whole, grown, read, counted, Checked.value_bind]
  rw [store_field length place (by rw [place]) (by rw [place])]
  refine ⟨_, rfl, Holds.dumpTables ⟨rfl, ?_⟩⟩
  rw [if_neg (by simp)]
  simp [fieldListBytes]

def kept (fields : List Protocol.Field) : List Protocol.Field := fields.filter (·.data ≠ [])

theorem perform_holds {call : Addition} (holds : Holds fields ref) (named : call.asField.id ≠ 0)
    (fits : call.asField.data.length ≤ 65535) (count : fields.length < 65535)
    (room : (fieldListBytes { fields := fields ++ kept [call.asField] }).length < 2 ^ 32) :
    ∃ next, call.perform handles ref = .value next ∧ Holds (fields ++ kept [call.asField]) next := by
  rw [call.perform_eq handles]
  generalize call.asField = field at *
  by_cases empty : field.data = []
  · have nothing : kept [field] = [] := by simp [kept, empty]
    rw [nothing, List.append_nil]
    exact ⟨ref, by simp [UFieldData.addField, named, empty], holds⟩
  · have one : kept [field] = [field] := by simp [kept, empty]
    have size : 0 < field.data.length := List.length_pos_of_ne_nil empty
    rw [one] at room ⊢
    by_cases first : fields = []
    · subst first
      exact addField_first handles holds named size fits
    · refine addField_more handles holds first named size fits ?_
      simp only [length_fieldListBytes, List.map_append, List.sum_append, List.map_cons, List.map_nil,
        List.sum_cons, List.sum_nil] at room ⊢
      omega

theorem performAll_holds (calls : List Addition) (holds : Holds fields ref)
    (named : ∀ call ∈ calls, call.asField.id ≠ 0) (fits : ∀ call ∈ calls, call.asField.data.length ≤ 65535)
    (count : fields.length + calls.length ≤ 65535)
    (room : (fieldListBytes { fields := fields ++ kept (calls.map Addition.asField) }).length < 2 ^ 32) :
    ∃ next, calls.foldlM (Addition.perform handles) ref = .value next ∧
      Holds (fields ++ kept (calls.map Addition.asField)) next := by
  induction calls generalizing fields ref with
  | nil => exact ⟨ref, rfl, by simpa [kept] using holds⟩
  | cons call calls ih =>
    have split : fields ++ kept ((call :: calls).map Addition.asField) =
        (fields ++ kept [call.asField]) ++ kept (calls.map Addition.asField) := by
      simp only [kept, List.map_cons, List.append_assoc, ← List.filter_append, List.singleton_append]
    have few : (kept [call.asField]).length ≤ 1 := List.length_filter_le _ _
    rw [split] at room ⊢
    simp only [List.length_cons] at count
    obtain ⟨between, performed, holds'⟩ := perform_holds handles holds (named call (by simp)) (fits call (by simp))
      (by omega) (by
        simp only [length_fieldListBytes, List.map_append, List.sum_append] at room ⊢
        omega)
    obtain ⟨next, rest, final⟩ := ih holds' (fun call inside => named call (List.mem_cons_of_mem _ inside))
      (fun call inside => fits call (List.mem_cons_of_mem _ inside))
      (by simp only [List.length_append]; omega) room
    exact ⟨next, by rw [List.foldlM_cons, performed]; exact rest, final⟩

end

theorem Holds.new : Holds [] (UFieldData.new none 0) := ⟨rfl, rfl⟩

theorem Holds.getDataHandle {fields : List Protocol.Field} {ref : SFieldData} (holds : Holds fields ref) :
    (UFieldData.getDataHandle ref).1 = fieldListBytes { fields } := by
  have data := holds.data
  split at data
  · rename_i empty
    simp only [UFieldData.getDataHandle, data, empty, holds.header]
    rfl
  · simp only [UFieldData.getDataHandle, data]

theorem gather_eq {calls : List Addition} (named : ∀ call ∈ calls, call.asField.id ≠ 0)
    (fits : ∀ call ∈ calls, call.asField.data.length ≤ 65535) (count : calls.length ≤ 65535)
    (room : (fieldListBytes (gathered calls)).length < 2 ^ 32) :
    gather handles calls = .value (fieldListBytes (gathered calls)) := by
  obtain ⟨ref, performed, holds⟩ := performAll_holds handles calls Holds.new named fits (by simpa using count) room
  rw [gather, performed, Checked.value_bind, holds.getDataHandle]
  rfl

theorem gathered_fits {calls : List Addition} (fits : ∀ call ∈ calls, call.asField.data.length ≤ 65535)
    (count : calls.length ≤ 65535) : FieldListFits (gathered calls) := by
  constructor
  · have fewer := List.length_filter_le (·.data ≠ []) (calls.map Addition.asField)
    rw [List.length_map] at fewer
    exact Nat.le_trans fewer count
  · intro field inside
    obtain ⟨call, there, rfl⟩ := List.mem_map.mp (List.mem_filter.mp inside).1
    exact fits call there

end Slopline.Legacy
