import Slopline.Library.Format
import Slopline.Protocol.FieldList

/-! The field-list codec as a format: the encoder and the decoder against one layout. -/

set_option autoImplicit false

namespace Slopline.Protocol

open Library Endian

def encodeField (field : Field) : Bytes :=
  writeU16be field.id ++ (writeU16be (UInt16.ofNat field.data.length) ++ field.data)

def FieldFits (field : Field) : Prop := field.data.length ≤ kMaxFieldDataSize

instance (field : Field) : Decidable (FieldFits field) :=
  inferInstanceAs (Decidable (field.data.length ≤ kMaxFieldDataSize))

/-- Its 16-bit prefixes are wide enough for the list. -/
structure FieldListFits (list : FieldList) : Prop where
  count : list.fields.length ≤ kMaxFieldCount
  sizes : ∀ field ∈ list.fields, FieldFits field

def fieldListBytes (list : FieldList) : Bytes :=
  writeU16be (UInt16.ofNat list.fields.length) ++ list.fields.flatMap encodeField

@[simp] theorem length_encodeField (field : Field) : (encodeField field).length = 4 + field.data.length := by
  simp only [encodeField, List.length_append, length_writeU16be]
  omega

theorem appendField_eq (out : Bytes) (field : Field) :
    appendField out field =
      if FieldFits field then .ok (out ++ encodeField field) else .error .elementTooLarge := by
  by_cases fits : FieldFits field
  · rw [if_pos fits, appendField, if_neg (Nat.not_lt.mpr fits)]
    simp only [encodeField, List.append_assoc]
  · rw [if_neg fits, appendField, if_pos (Nat.lt_of_not_le fits)]

theorem appendFields (fields : List Field) (out : Bytes) :
    fields.foldlM appendField out =
      if ∀ field ∈ fields, FieldFits field then .ok (out ++ fields.flatMap encodeField)
      else .error .elementTooLarge :=
  foldlM_append appendField_eq fields out

theorem encodeFieldList_many {list : FieldList} (many : kMaxFieldCount < list.fields.length) :
    encodeFieldList list = .error .countTooLarge := by
  rw [encodeFieldList, if_pos many]

theorem encodeFieldList_large {list : FieldList} (few : list.fields.length ≤ kMaxFieldCount)
    {field : Field} (inside : field ∈ list.fields) (large : kMaxFieldDataSize < field.data.length) :
    encodeFieldList list = .error .elementTooLarge := by
  rw [encodeFieldList, if_neg (Nat.not_lt.mpr few), appendFields, if_neg]
  exact fun all => absurd (all field inside) (Nat.not_le.mpr large)

/-- The encoder's result says which lists it takes and what it makes of them. -/
theorem encodeFieldList_eq_ok {list : FieldList} {bytes : Bytes} :
    encodeFieldList list = .ok bytes ↔ FieldListFits list ∧ bytes = fieldListBytes list := by
  simp only [encodeFieldList, appendFields, if_eq_ok, unless_eq_ok]
  constructor
  · rintro ⟨few, sizes, ⟨⟩⟩
    exact ⟨⟨Nat.le_of_not_lt few, sizes⟩, rfl⟩
  · rintro ⟨fits, rfl⟩
    exact ⟨Nat.not_lt.mpr fits.count, fits.sizes, rfl⟩

theorem length_fieldListBytes (list : FieldList) :
    (fieldListBytes list).length = 2 + (list.fields.map fun field => 4 + field.data.length).sum := by
  simp [fieldListBytes, List.length_flatMap]

def FieldLayout (field : Field) (used : Bytes) : Prop := FieldFits field ∧ used = encodeField field

theorem readField_reads : Reads readField FieldLayout := by
  constructor
  · rintro field used rest ⟨fits, rfl⟩
    have size := toNat_ofNat_u16 fits
    have enough : ¬ (encodeField field ++ rest).length < 4 := by
      rw [List.length_append, length_encodeField]
      omega
    rw [readField, if_neg enough]
    simp [encodeField, size]
  · intro bytes
    simp only [readField, Checked.post_ite, Checked.post_error, Checked.post_bind, post_u16beAt,
      Span.post_subspan, Span.post_first, Checked.pure_eq, Checked.post_value, implies_true, true_and]
    intro enough
    refine ⟨by omega, fun id first => ⟨by omega, fun size second => ⟨by omega, fun inside => ?_⟩⟩⟩
    have fits : ((bytes.drop 4).take size.toNat).length = size.toNat := List.length_take_of_le (by omega)
    refine ⟨by omega, by omega, _, ⟨?_, rfl⟩, ?_⟩
    · have := size.toNat_lt
      simp only [FieldFits, kMaxFieldDataSize, fits]
      omega
    · calc
        bytes = writeU16be id ++ bytes.drop 2 := first
        _ = writeU16be id ++ (writeU16be size ++ bytes.drop 4) := by rw [second]
        _ = _ := by
          simp only [encodeField, fits, UInt16.ofNat_toNat, List.append_assoc, List.take_append_drop]

theorem fieldSeries (fields : List Field) (used : Bytes) :
    Series FieldLayout fields used ↔
      (∀ field ∈ fields, FieldFits field) ∧ used = fields.flatMap encodeField :=
  series_iff (fun _ _ => Iff.rfl) fields used

theorem decodeFieldList_complete {list : FieldList} (fits : FieldListFits list) :
    decodeFieldList (fieldListBytes list) = .value list := by
  have count := toNat_ofNat_u16 fits.count
  have enough : ¬ (fieldListBytes list).length < 2 := by
    rw [length_fieldListBytes]
    omega
  have fields := (readField_reads.times list.fields.length).complete list.fields
    (list.fields.flatMap encodeField) [] ⟨rfl, (fieldSeries _ _).mpr ⟨fits.sizes, rfl⟩⟩
  rw [List.append_nil] at fields
  rw [decodeFieldList, if_neg enough]
  simp [fieldListBytes, count, fields]

theorem decodeFieldList_sound (bytes : Bytes) :
    (decodeFieldList bytes).Post fun list => FieldListFits list ∧ bytes = fieldListBytes list := by
  simp only [decodeFieldList, Checked.post_ite, Checked.post_error, Checked.post_bind, post_u16beAt,
    Span.post_subspan, Checked.pure_eq, Checked.post_value, implies_true, true_and]
  intro enough
  refine ⟨by omega, fun count first => ⟨by omega, ?_⟩⟩
  refine ((readField_reads.times count.toNat).sound _).mono ?_
  rintro ⟨fields, rest⟩ ⟨used, ⟨length, series⟩, split⟩ ended
  obtain ⟨sizes, rfl⟩ := (fieldSeries _ _).mp series
  obtain rfl : rest = [] := not_not.mp ended
  rw [List.append_nil] at split
  refine ⟨⟨?_, sizes⟩, ?_⟩
  · have := count.toNat_lt
    simp only [kMaxFieldCount, length]
    omega
  · calc
      bytes = writeU16be count ++ bytes.drop 2 := first
      _ = _ := by simp only [fieldListBytes, length, UInt16.ofNat_toNat, split]

theorem decodeFieldList_decodes :
    Decodes decodeFieldList fun list bytes => FieldListFits list ∧ bytes = fieldListBytes list := by
  intro bytes list
  constructor
  · exact (decodeFieldList_sound bytes).of_value
  · rintro ⟨fits, rfl⟩
    exact decodeFieldList_complete fits

theorem decodeFieldList_inBounds (bytes : Bytes) : (decodeFieldList bytes).InBounds :=
  (decodeFieldList_sound bytes).inBounds

theorem readField_cut (cut whole : Bytes) (shorter : Shorter cut whole) :
    Cut .truncated (Both Taken) (readField cut) (readField whole) := by
  refine Cut.needs shorter fun _ => ?_
  refine Cut.same (Cut.u16beAt shorter 0) fun id => ?_
  refine Cut.same (Cut.u16beAt shorter 2) fun size => ?_
  refine Cut.bind (Cut.subspan shorter 4) fun cut whole shorter => ?_
  refine Cut.needs shorter fun _ => ?_
  refine Cut.same (Cut.first shorter _) fun data => ?_
  refine Cut.bind (Cut.subspan shorter _) fun cut whole shorter => ?_
  exact .value ⟨_, rfl, rfl, shorter⟩

theorem decodeFieldList_delimits : SelfDelimiting .truncated .trailingBytes decodeFieldList := by
  intro cut whole shorter
  refine Cut.needs shorter fun _ => ?_
  refine Cut.same (Cut.u16beAt shorter 0) fun count => ?_
  refine Cut.bind (Cut.subspan shorter 2) fun cut whole shorter => ?_
  refine Cut.bind (Cut.times readField_cut count.toNat shorter) fun taken taken' ⟨_, left⟩ => ?_
  exact Cut.ends left

/-- The codec is a bijection between the lists that fit the wire's 16-bit prefixes and the
byte strings the decoder accepts; a list that does not fit is refused for its count first. -/
theorem fieldList_bijection (list : FieldList) (bytes : Bytes) :
    ((∃ encoded, encodeFieldList list = .ok encoded) ↔
        list.fields.length ≤ 65535 ∧ ∀ field ∈ list.fields, field.data.length ≤ 65535) ∧
      (65535 < list.fields.length → encodeFieldList list = .error .countTooLarge) ∧
      (list.fields.length ≤ 65535 → (∃ field ∈ list.fields, 65535 < field.data.length) →
        encodeFieldList list = .error .elementTooLarge) ∧
      (encodeFieldList list = .ok bytes →
        bytes.length = 2 + (list.fields.map fun field => 4 + field.data.length).sum) ∧
      (encodeFieldList list = .ok bytes ↔ decodeFieldList bytes = .value list) := by
  refine ⟨⟨?_, ?_⟩, encodeFieldList_many, ?_, ?_, ?_⟩
  · rintro ⟨encoded, same⟩
    obtain ⟨fits, _⟩ := encodeFieldList_eq_ok.mp same
    exact ⟨fits.count, fits.sizes⟩
  · rintro ⟨count, sizes⟩
    exact ⟨_, encodeFieldList_eq_ok.mpr ⟨⟨count, sizes⟩, rfl⟩⟩
  · rintro few ⟨field, inside, large⟩
    exact encodeFieldList_large few inside large
  · intro encoded
    obtain ⟨_, rfl⟩ := encodeFieldList_eq_ok.mp encoded
    exact length_fieldListBytes list
  · rw [encodeFieldList_eq_ok, decodeFieldList_decodes bytes list]

end Slopline.Protocol
