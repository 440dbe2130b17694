import Slopline.Legacy.FieldData
import Slopline.Protocol.FieldListCodec

/-! What the legacy lookups find through their sorted table is what the decoder's list holds. -/

set_option autoImplicit false

namespace Slopline.Legacy

open Library Endian Protocol UFieldData

inductive Lookup where
  | field (id : UInt16) (maxSize : UInt32)
  | integer (id : UInt16)

inductive Answer where
  | data (bytes : Bytes)
  | integer (value : Int32)
  deriving DecidableEq, Repr

namespace Lookup

def id : Lookup → UInt16
  | field id _ => id
  | integer id => id

def perform (ref : SFieldData) : Lookup → Checked Failure (Answer × SFieldData)
  | field id maxSize => do
    let (bytes, ref) ← getField ref id maxSize
    return (.data bytes, ref)
  | integer id => do
    let (value, ref) ← getInteger ref id
    return (.integer value, ref)

def performAll : List Lookup → SFieldData → Checked Failure (List Answer)
  | [], _ => .value []
  | lookup :: lookups, ref => do
    let (answer, ref) ← perform ref lookup
    let answers ← performAll lookups ref
    return answer :: answers

end Lookup

/-! The tables. -/

/-- The lookup table before it is sorted. -/
def entries (fields : List Protocol.Field) (i : Nat) : List SFDEntry :=
  match fields with
  | [] => []
  | field :: fields => { id := field.id, index := UInt16.ofNat i } :: entries fields (i + 1)

def Points (h : Bytes) (fields : List Protocol.Field) (offsets : List Nat) : Prop :=
  ∀ (k : Nat) (field : Protocol.Field), fields[k]? = some field →
    ∃ offset rest, offsets[k]? = some offset ∧ h.drop offset = encodeField field ++ rest

theorem length_entries (fields : List Protocol.Field) (i : Nat) : (entries fields i).length = fields.length := by
  induction fields generalizing i with
  | nil => rfl
  | cons field fields ih => rw [entries, List.length_cons, List.length_cons, ih]

theorem getElem?_entries (fields : List Protocol.Field) (i k : Nat) :
    (entries fields i)[k]? = fields[k]?.map fun field => { id := field.id, index := UInt16.ofNat (i + k) } := by
  induction fields generalizing i k with
  | nil => rfl
  | cons field fields ih =>
    cases k with
    | zero => rfl
    | succ k => rw [entries, List.getElem?_cons_succ, List.getElem?_cons_succ, ih, Nat.add_right_comm i 1 k]; rfl

theorem scanFields_spec (fields : List Protocol.Field) (sizes : ∀ field ∈ fields, FieldFits field)
    (front : Bytes) (i : Nat) :
    ∃ offsets, (scanFields (front ++ fields.flatMap encodeField) (front ++ fields.flatMap encodeField).length 0
        fields.length i front.length).1 = offsets.zip (entries fields i) ∧ offsets.length = fields.length ∧
      Points (front ++ fields.flatMap encodeField) fields offsets := by
  -- The front grows by each field that was scanned, so that positions stay positions in the handle.
  induction fields generalizing front i with
  | nil =>
    refine ⟨[], rfl, rfl, fun k field there => ?_⟩
    simp at there
  | cons field fields ih =>
    obtain ⟨offsets, scanned, paired, points⟩ := ih (fun field inside => sizes field (List.mem_cons_of_mem _ inside))
      (front ++ encodeField field) (i + 1)
    have size := toNat_ofNat_u16 (sizes field (List.mem_cons_self))
    have whole : (front ++ encodeField field) ++ fields.flatMap encodeField =
        front ++ (field :: fields).flatMap encodeField := by
      simp only [List.flatMap_cons, List.append_assoc]
    have here : (front ++ (field :: fields).flatMap encodeField).drop front.length =
        encodeField field ++ fields.flatMap encodeField := by
      simp only [List.drop_left, List.flatMap_cons]
    have atId : readU16be ((front ++ (field :: fields).flatMap encodeField).drop front.length) = field.id := by
      rw [here, encodeField, List.append_assoc, readU16be_writeU16be]
    have atSize : readU16be ((front ++ (field :: fields).flatMap encodeField).drop (front.length + 2)) =
        UInt16.ofNat field.data.length := by
      rw [← List.drop_drop, here, encodeField, List.append_assoc, ← length_writeU16be field.id, List.drop_left,
        List.append_assoc, readU16be_writeU16be]
    have length : (front ++ (field :: fields).flatMap encodeField).length =
        front.length + 4 + field.data.length + (fields.flatMap encodeField).length := by
      simp only [List.length_append, List.flatMap_cons, length_encodeField]
      omega
    rw [whole] at scanned points
    refine ⟨front.length :: offsets, ?_, by simp [paired], fun k other there => ?_⟩
    swap
    · cases k with
      | zero =>
        obtain rfl : field = other := by simpa using there
        exact ⟨_, _, rfl, here⟩
      | succ k => exact points k other there
    rw [List.length_cons, scanFields, if_neg (by omega)]
    simp only [atSize, size]
    rw [if_neg (by omega)]
    simp only [atId, Nat.sub_zero, entries, List.zip_cons_cons, List.cons.injEq, true_and]
    have next : front.length + (field.data.length + 4) = (front ++ encodeField field).length := by
      simp only [List.length_append, length_encodeField]
      omega
    rw [← scanned, next]

/-- Tables for these fields, sorted, and a cached index that is still right. -/
structure Built (h : Bytes) (fields : List Protocol.Field) (ref : SFieldData) (table : Array SFDEntry)
    (offsets : Array Nat) : Prop where
  lookup : ref.lookupTable = some table
  offset : ref.offsetTable = some offsets
  size : ref.tableSize = fields.length
  members : table.toList.Perm (entries fields 0)
  sorted : ∀ i j, i ≤ j → j < fields.length → (table.getD i default).id.toNat ≤ (table.getD j default).id.toNat
  points : Points h fields offsets.toList
  cached : ref.lastSearchID = 0 ∨
    ∃ entry, table[ref.lastSearchIndex]? = some entry ∧ entry.id = ref.lastSearchID

/-- Between lookups: no tables yet (and none to come where there is no field), or tables. -/
structure Ready (h : Bytes) (fields : List Protocol.Field) (ref : SFieldData) : Prop where
  data : ref.h = some h
  header : ref.headerSize = 0
  tables : ref.lookupTable = none ∧ ref.lastSearchID = 0 ∨ ∃ table offsets, Built h fields ref table offsets

section
variable {fields : List Protocol.Field} {ref : SFieldData}

theorem fdBuildTables_empty (data : ref.h = some (fieldListBytes { fields := [] })) (header : ref.headerSize = 0) :
    (fdBuildTables ref).h = ref.h ∧ (fdBuildTables ref).headerSize = 0 ∧
      (fdBuildTables ref).lookupTable = none ∧ (fdBuildTables ref).lastSearchID = 0 := by
  have length : UMemory.getSize (fieldListBytes { fields := [] }) = 2 := rfl
  simp only [fdBuildTables, data, header, length]
  exact ⟨rfl, rfl, rfl, rfl⟩

theorem filled_all {α : Type} [Inhabited α] {size : Nat} {entries : List α} (length : entries.length = size) :
    filled size entries = entries.toArray := by
  rw [filled, length, Nat.sub_self, List.replicate_zero, List.append_nil]

theorem fdBuildTables_built (fits : FieldListFits { fields }) (filled : fields ≠ [])
    (small : (fieldListBytes { fields }).length < 2 ^ 32) (data : ref.h = some (fieldListBytes { fields }))
    (header : ref.headerSize = 0) :
    (fdBuildTables ref).h = ref.h ∧ (fdBuildTables ref).headerSize = 0 ∧
      ∃ table offsets, Built (fieldListBytes { fields }) fields (fdBuildTables ref) table offsets := by
  have length : UMemory.getSize (fieldListBytes { fields }) = (fieldListBytes { fields }).length :=
    Nat.mod_eq_of_lt small
  have atLeast : ¬ (fieldListBytes { fields }).length ≤ 2 := by
    rw [length_fieldListBytes]
    cases fields with
    | nil => exact absurd rfl filled
    | cons field fields =>
      simp only [List.map_cons, List.sum_cons]
      omega
  have count : (readU16be (fieldListBytes { fields })).toNat = fields.length := by
    rw [fieldListBytes, readU16be_writeU16be, toNat_ofNat_u16 fits.count]
  have many : fields.length ≠ 0 := by simpa using filled
  obtain ⟨offsets, scanned, paired, points⟩ := scanFields_spec fields fits.sizes
    (writeU16be (UInt16.ofNat fields.length)) 0
  rw [length_writeU16be] at scanned
  change (scanFields (fieldListBytes { fields }) (fieldListBytes { fields }).length 0 fields.length 0 2).1 = _ at scanned
  have sized := length_entries fields 0
  have indices : (offsets.zip (entries fields 0)).map (·.2) = entries fields 0 :=
    List.map_snd_zip (by omega)
  have places : (offsets.zip (entries fields 0)).map (·.1) = offsets := List.map_fst_zip (by omega)
  have zipped : (offsets.zip (entries fields 0)).length = fields.length := by
    rw [List.length_zip]
    omega
  have within : fields.length ≤ (entries fields 0).toArray.size := sized.ge
  obtain ⟨rearranged, sorted⟩ := HeapSort.heapSort_spec (fun entry : SFDEntry => entry.id.toNat) within
  simp only [fdBuildTables, data, header, length, Nat.sub_zero, if_neg atLeast, List.drop_zero, count,
    Nat.zero_add, fdSortLookupTable, scanned, indices, places, zipped, ne_eq, many, not_false_eq_true, if_true,
    Option.map_some, filled_all sized]
  refine ⟨trivial, trivial, _, _, rfl, rfl, rfl, ?_, ?_, ?_, .inl rfl⟩
  · simpa using rearranged.perm.toList
  · intro i j le inside
    exact sorted (i + 1) (j + 1) (Nat.succ_pos i) (Nat.succ_le_succ le) inside
  · intro k field there
    obtain ⟨offset, rest, found, here⟩ := points k field there
    refine ⟨offset, rest, ?_, here⟩
    rw [filled_all (by simp [paired])]
    simp only [List.getElem?_append_left (List.getElem?_eq_some_iff.mp found).1, found]

structure Handle (fields : List Protocol.Field) : Prop where
  fits : FieldListFits { fields }
  small : (fieldListBytes { fields }).length < 2 ^ 32

variable {inID : UInt16}

theorem Ready.build (handle : Handle fields) (ready : Ready (fieldListBytes { fields }) fields ref) :
    Ready (fieldListBytes { fields }) fields (if ref.lookupTable.isNone then fdBuildTables ref else ref) ∧
      ((if ref.lookupTable.isNone then fdBuildTables ref else ref).lookupTable = none → fields = []) := by
  split
  · by_cases empty : fields = []
    · subst empty
      obtain ⟨data, header, lookup, search⟩ := fdBuildTables_empty ready.data ready.header
      exact ⟨⟨data.trans ready.data, header, .inl ⟨lookup, search⟩⟩, fun _ => rfl⟩
    · obtain ⟨data, header, table, offsets, built⟩ :=
        fdBuildTables_built handle.fits empty handle.small ready.data ready.header
      refine ⟨⟨data.trans ready.data, header, .inr ⟨table, offsets, built⟩⟩, fun none => ?_⟩
      exact absurd (built.lookup.symm.trans none) (Option.some_ne_none _)
  · rename_i there
    exact ⟨ready, fun none => absurd (by rw [none]; rfl) there⟩

theorem getD_eq {table : Array SFDEntry} {i : Nat} {entry : SFDEntry} (found : table[i]? = some entry) :
    table.getD i default = entry := by
  rw [Array.getD_eq_getD_getElem?, found, Option.getD_some]

section
variable {h : Bytes} {table : Array SFDEntry} {offsets : Array Nat} {i : Nat} {entry : SFDEntry}

theorem Built.length (built : Built h fields ref table offsets) : table.size = ref.tableSize := by
  rw [← Array.length_toList, built.members.length_eq, length_entries, built.size]

theorem Built.listed (built : Built h fields ref table offsets) {field : Protocol.Field} (inside : field ∈ fields) :
    ∃ (i : Nat) (entry : SFDEntry), table[i]? = some entry ∧ entry.id = field.id := by
  obtain ⟨k, there⟩ := List.getElem?_of_mem inside
  have listed : ({ id := field.id, index := UInt16.ofNat (0 + k) } : SFDEntry) ∈ table.toList := by
    rw [built.members.mem_iff, List.mem_iff_getElem?]
    exact ⟨k, by rw [getElem?_entries, there, Option.map_some]⟩
  obtain ⟨i, found⟩ := List.getElem?_of_mem listed
  exact ⟨i, _, by simpa using found, rfl⟩

theorem Built.leads (fits : FieldListFits { fields }) (built : Built h fields ref table offsets)
    (found : table[i]? = some entry) :
    ∃ field ∈ fields, entry.id = field.id ∧
      ∃ offset rest, offsets[entry.index.toNat]? = some offset ∧ h.drop offset = encodeField field ++ rest := by
  have listed : entry ∈ entries fields 0 := by
    rw [← built.members.mem_iff]
    exact Array.mem_toList_iff.mpr (Array.mem_of_getElem? found)
  obtain ⟨k, there⟩ := List.getElem?_of_mem listed
  rw [getElem?_entries, Nat.zero_add] at there
  obtain ⟨field, here, same⟩ := Option.map_eq_some_iff.mp there
  have bound := (List.getElem?_eq_some_iff.mp here).1
  have count := fits.count
  have index : entry.index.toNat = k := by
    rw [← same]
    exact toNat_ofNat_u16 (Nat.le_trans (Nat.le_of_lt bound) count)
  obtain ⟨offset, rest, at_k, header⟩ := built.points k field here
  refine ⟨field, List.mem_of_getElem? here, by rw [← same], offset, rest, ?_, header⟩
  rw [index]
  simpa using at_k

theorem Built.search (built : Built h fields ref table offsets) (named : inID ≠ 0) :
    Built h fields (fdSearchLookupTable ref inID).2 table offsets ∧
      (fdSearchLookupTable ref inID).2.h = ref.h ∧
      (fdSearchLookupTable ref inID).2.headerSize = ref.headerSize ∧
      if (fdSearchLookupTable ref inID).1.1 then
        ∃ entry, table[(fdSearchLookupTable ref inID).1.2]? = some entry ∧ entry.id = inID
      else ∀ field ∈ fields, field.id ≠ inID := by
  unfold fdSearchLookupTable
  rw [if_neg named]
  -- Either the ID is the one searched last, or the table is searched.
  split
  · rename_i cached
    refine ⟨built, rfl, rfl, ?_⟩
    obtain none | ⟨entry, there, same⟩ := built.cached
    · exact absurd (cached.symm.trans none) named
    · rw [if_pos rfl]
      exact ⟨entry, there, same.trans cached⟩
  · simp only [built.lookup]
    have sound := @BinarySearch.search_sound _ _ (fun i => (table.getD i default).id.toNat) inID.toNat ref.tableSize
    have complete : ∀ i, i < ref.tableSize → (table.getD i default).id.toNat = inID.toNat →
        (BinarySearch.search (fun i => (table.getD i default).id.toNat) inID.toNat ref.tableSize).1 = true :=
      fun i inside same => BinarySearch.search_complete (built.size ▸ built.sorted) inside same
    generalize BinarySearch.search (fun i => (table.getD i default).id.toNat) inID.toNat ref.tableSize = answer
      at sound complete ⊢
    split
    · rename_i found
      obtain ⟨inside, same⟩ := sound found
      have there := Array.getElem?_eq_getElem (Nat.lt_of_lt_of_eq inside built.length.symm)
      have held := getD_eq there ▸ same
      exact ⟨{ built with lookup := rfl, cached := .inr ⟨_, there, UInt16.toNat_inj.mp held⟩ }, rfl, rfl,
        _, there, UInt16.toNat_inj.mp held⟩
    · rename_i missed
      refine ⟨built, rfl, rfl, fun field inside same => ?_⟩
      obtain ⟨i, entry, there, id⟩ := built.listed inside
      have bound := (Array.getElem?_eq_some_iff.mp there).1
      exact missed (complete i (Nat.lt_of_lt_of_eq bound built.length) (by rw [getD_eq there, id, same]))

end

/-- The offset of a field with the ID, or none where there is no such field. -/
theorem fdGetFieldOffset_spec (inID : UInt16) (handle : Handle fields)
    (ready : Ready (fieldListBytes { fields }) fields ref) :
    ∃ offset next, fdGetFieldOffset ref inID = .value (offset, next) ∧
      Ready (fieldListBytes { fields }) fields next ∧
      match offset with
      | none => inID ≠ 0 → ∀ field ∈ fields, field.id ≠ inID
      | some offset => ∃ field ∈ fields, field.id = inID ∧
          ∃ rest, (fieldListBytes { fields }).drop offset = encodeField field ++ rest := by
  unfold fdGetFieldOffset
  split
  · rename_i unnamed
    exact ⟨none, ref, rfl, ready, fun named => absurd unnamed named⟩
  · rename_i named
    obtain ⟨ready, missing⟩ := ready.build handle
    simp only
    generalize (if ref.lookupTable.isNone = true then fdBuildTables ref else ref) = ref at ready missing ⊢
    -- Without tables there are no fields; with tables the search answers.
    obtain ⟨unbuilt, unsearched⟩ | ⟨table, offsets, built⟩ := ready.tables
    · have empty := missing unbuilt
      have uncached : ¬ ref.lastSearchID = inID := fun cached => named (cached.symm.trans unsearched)
      refine ⟨none, ref, ?_, ready, fun _ field inside => ?_⟩
      · simp [fdSearchLookupTable, named, uncached, unbuilt]
      · rw [empty] at inside
        cases inside
    · obtain ⟨built, data, header, answer⟩ := built.search named
      generalize fdSearchLookupTable ref inID = found at built data header answer ⊢
      obtain ⟨⟨found, i⟩, next⟩ := found
      simp only at built data header answer ⊢
      have ready' : Ready (fieldListBytes { fields }) fields next :=
        ⟨data.trans ready.data, header.trans ready.header, .inr ⟨table, offsets, built⟩⟩
      split at answer
      · rename_i held
        obtain ⟨entry, there, same⟩ := answer
        obtain ⟨field, inside, id, offset, rest, at_index, leads⟩ := built.leads handle.fits there
        refine ⟨some offset, next, ?_, ready', field, inside, id.symm.trans same, rest, leads⟩
        rw [if_pos held, built.lookup, built.offset, ready'.header]
        simp [Span.element, there, at_index]
      · rename_i missed
        rw [if_neg missed]
        exact ⟨none, next, rfl, ready', fun _ => answer⟩

theorem read_field {h rest : Bytes} {offset count : Nat} {field : Protocol.Field}
    (leads : h.drop offset = encodeField field ++ rest) (within : count ≤ field.data.length) :
    (u16beAt (offset + 2) h : Checked Failure UInt16) = .value (UInt16.ofNat field.data.length) ∧
      (Span.slice (offset + 4 + 0) count h : Checked Failure Bytes) = .value (field.data.take count) := by
  have inside : offset < h.length := by
    have length := congrArg List.length leads
    simp only [List.length_drop, List.length_append, length_encodeField] at length
    omega
  have front : (h.take offset).length = offset := List.length_take_of_le (Nat.le_of_lt inside)
  have split : h = h.take offset ++ (encodeField field ++ rest) := by
    rw [← leads, List.take_append_drop]
  rw [split]
  generalize h.take offset = before at front ⊢
  constructor
  · rw [u16beAt_skip (by omega), front, Nat.add_sub_cancel_left]
    simp [encodeField]
  · have room : offset + 4 + 0 + count ≤ (before ++ (encodeField field ++ rest)).length := by
      simp only [List.length_append, length_encodeField]
      omega
    have header : (writeU16be field.id ++ writeU16be (UInt16.ofNat field.data.length)).length = 4 := by simp
    rw [Span.slice, if_pos room, Nat.add_zero, ← List.drop_drop, ← front, List.drop_left, encodeField,
      ← List.append_assoc, List.append_assoc, ← header, List.drop_left, List.take_append_of_le_length within]

theorem readField_spec (inID : UInt16) (handle : Handle fields) (ready : Ready (fieldListBytes { fields }) fields ref)
    (inMaxSize : UInt32) :
    ∃ outData next, UFieldData.readField ref inID 0 inMaxSize = .value (outData, next) ∧
      Ready (fieldListBytes { fields }) fields next ∧
      (outData = [] ∧ (inID ≠ 0 → ∀ field ∈ fields, field.id ≠ inID) ∨
        ∃ field ∈ fields, field.id = inID ∧ outData = field.data.take inMaxSize.toNat) := by
  obtain ⟨offset, next, found, ready', answer⟩ := fdGetFieldOffset_spec inID handle ready
  rw [UFieldData.readField, found, Checked.value_bind]
  cases offset with
  | none => exact ⟨[], next, rfl, ready', .inl ⟨rfl, answer⟩⟩
  | some offset =>
    obtain ⟨field, inside, same, rest, leads⟩ := answer
    have size := toNat_ofNat_u16 (handle.fits.sizes field inside)
    have size' : (UInt16.ofNat field.data.length).toUInt32.toNat = field.data.length := by
      rw [UInt16.toNat_toUInt32, size]
    simp only [ready'.data]
    rw [(read_field leads (Nat.zero_le _)).1, Checked.value_bind, UInt32.zero_add, UInt32.sub_zero]
    generalize (UInt16.ofNat field.data.length).toUInt32 = s at size' ⊢
    -- A field larger than the buffer is cut, one that fits is whole, and an empty one is nothing.
    split
    · split
      · rename_i less
        have fits : s.toNat ≤ inMaxSize.toNat := Nat.le_of_lt (UInt32.lt_iff_toNat_lt.mp less)
        rw [UInt32.toNat_zero, (read_field leads (Nat.le_of_eq size')).2, Checked.value_bind]
        refine ⟨_, next, rfl, ready', .inr ⟨field, inside, same, ?_⟩⟩
        rw [List.take_of_length_le (Nat.le_of_eq size'.symm), List.take_of_length_le (by omega)]
      · rename_i more
        have within : inMaxSize.toNat ≤ field.data.length := by
          rw [← size']
          exact UInt32.le_iff_toNat_le.mp (UInt32.not_lt.mp more)
        rw [UInt32.toNat_zero, (read_field leads within).2, Checked.value_bind]
        exact ⟨_, next, rfl, ready', .inr ⟨field, inside, same, rfl⟩⟩
    · rename_i zero
      have empty : field.data = [] := by
        apply List.eq_nil_of_length_eq_zero
        rw [← size']
        exact Nat.eq_zero_of_not_pos fun positive => zero (UInt32.lt_iff_toNat_lt.mpr positive)
      exact ⟨[], next, rfl, ready', .inr ⟨field, inside, same, by rw [empty, List.take_nil]⟩⟩

end

/-! Whole runs of lookups. -/

def occurrences (list : FieldList) (id : FieldId) : Nat := (list.fields.filter (·.id = id)).length

/-- What the legacy lookup answers is what the modern functions give, for an ID that is looked
up in the list's only field with it or in vain. -/
def LookupAgrees (list : FieldList) : Lookup → Answer → Prop
  | .field id maxSize, answer =>
    id ≠ 0 → occurrences list id ≤ 1 → (fieldData list id).length ≤ maxSize.toNat →
      answer = .data (fieldData list id)
  | .integer id, answer =>
    id ≠ 0 → occurrences list id ≤ 1 → ∀ field value, findField list id = some field →
      decodeIntegerField field = .value value → answer = .integer value

theorem findField_unique {list : FieldList} {field : Protocol.Field} (inside : field ∈ list.fields)
    (once : occurrences list field.id ≤ 1) : findField list field.id = some field := by
  have listed : field ∈ list.fields.filter (·.id = field.id) := by
    simp [inside]
  have only : list.fields.filter (·.id = field.id) = [field] := by
    unfold occurrences at once
    match found : list.fields.filter (·.id = field.id) with
    | [] => rw [found] at listed; cases listed
    | [other] => rw [found, List.mem_singleton] at listed; rw [found, listed]
    | first :: second :: rest => rw [found] at once; simp at once
  rw [findField, ← List.head?_filter, only, List.head?_cons]

theorem fieldData_absent {list : FieldList} {id : FieldId} (absent : ∀ field ∈ list.fields, field.id ≠ id) :
    findField list id = none := by
  rw [findField, List.find?_eq_none]
  exact fun field inside => by simpa using absent field inside

theorem integer_agrees {field : Protocol.Field} {value : Int32} (decoded : decodeIntegerField field = .value value) :
    (bufferInteger (field.data.take 4)).toInt32 = value := by
  obtain ⟨id, data⟩ := field
  match data with
  | [] => cases decoded
  | [a] => cases decoded; rfl
  | [a, b] => cases decoded; rfl
  | [a, b, c] => cases decoded
  | [a, b, c, d] => cases decoded; rfl
  | a :: b :: c :: d :: e :: rest => simp [decodeIntegerField] at decoded

theorem Lookup.perform_agrees {fields : List Protocol.Field} {ref : SFieldData} (handle : Handle fields)
    (ready : Ready (fieldListBytes { fields }) fields ref) (lookup : Lookup) :
    ∃ answer next, lookup.perform ref = .value (answer, next) ∧
      Ready (fieldListBytes { fields }) fields next ∧ LookupAgrees { fields } lookup answer := by
  cases lookup with
  | field id maxSize =>
    obtain ⟨outData, next, found, ready', answer⟩ := readField_spec id handle ready maxSize
    refine ⟨.data outData, next, ?_, ready', fun named once enough => ?_⟩
    · simp only [perform, getField, found, Checked.value_bind, Checked.pure_eq]
    · obtain ⟨rfl, absent⟩ | ⟨field, inside, rfl, rfl⟩ := answer
      · rw [fieldData, fieldData_absent (absent named)]
      · rw [fieldData, findField_unique inside once] at enough ⊢
        rw [List.take_of_length_le enough]
  | integer id =>
    obtain ⟨outData, next, found, ready', answer⟩ := readField_spec id handle ready 4
    refine ⟨.integer (bufferInteger outData).toInt32, next, ?_, ready', fun named once => ?_⟩
    · simp only [perform, getInteger, found, Checked.value_bind, Checked.pure_eq]
    · intro field value there decoded
      obtain ⟨rfl, absent⟩ | ⟨other, inside, rfl, rfl⟩ := answer
      · rw [fieldData_absent (absent named)] at there
        cases there
      · rw [findField_unique inside once, Option.some.injEq] at there
        subst there
        exact congrArg Answer.integer (integer_agrees decoded)

theorem Lookup.performAll_agrees {fields : List Protocol.Field} {ref : SFieldData} (handle : Handle fields)
    (ready : Ready (fieldListBytes { fields }) fields ref) (lookups : List Lookup) :
    ∃ answers, performAll lookups ref = .value answers ∧ List.Forall₂ (LookupAgrees { fields }) lookups answers := by
  induction lookups generalizing ref with
  | nil => exact ⟨[], rfl, .nil⟩
  | cons lookup lookups ih =>
    obtain ⟨answer, next, found, ready', agrees⟩ := lookup.perform_agrees handle ready
    obtain ⟨answers, rest, agree⟩ := ih ready'
    refine ⟨answer :: answers, ?_, .cons agrees agree⟩
    simp only [performAll, found, rest, Checked.value_bind, Checked.pure_eq]

theorem Ready.new (h : Bytes) (fields : List Protocol.Field) : Ready h fields (UFieldData.new (some h) 0) :=
  ⟨rfl, rfl, .inl ⟨rfl, rfl⟩⟩

end Slopline.Legacy
