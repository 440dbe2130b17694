import Slopline.Legacy.IdVarMap
import Slopline.Legacy.IvarReader

/-! Flattened ID-var-arrays that are written again.

Bytes that both readers accept are an array that represents the map of their items; and the bytes
an array is flattened to are read as the items of the map it represents, by the decoder as well.
-/

set_option autoImplicit false

namespace Slopline.Legacy.SIDVarArray

open Library Endian Ivar ItemMap UIDVarArray

variable {slack count : Nat} {items : List Ivar.Item} {ref : SIDVarArray} {bytes front back : Bytes}

/-! Reading: a table of climbing offsets is the table of the items it cuts. -/

/-- The items are one behind the other, so their data is what is between the first and the last offset. -/
theorem tableOf_cut (entry : Nat → SIVAOffsetTabEntry) (data : Bytes) (remaining index : Nat)
    (climbs : ∀ i, index ≤ i → i < index + remaining → (entry i).offset.toNat ≤ (entry (i + 1)).offset.toNat)
    (within : ∀ i, index ≤ i → i ≤ index + remaining → (entry i).offset.toNat ≤ data.length) :
    tableOf (entry index).offset.toNat ((List.range' index remaining).map fun i =>
        { id := (entry i).id
          data := (data.drop (entry i).offset.toNat).take ((entry (i + 1)).offset.toNat - (entry i).offset.toNat) }) =
      (List.range' index remaining).map entry ++ [{ id := 0, offset := (entry (index + remaining)).offset }] ∧
    data.drop (entry index).offset.toNat = blob ((List.range' index remaining).map fun i =>
        { id := (entry i).id
          data := (data.drop (entry i).offset.toNat).take ((entry (i + 1)).offset.toNat - (entry i).offset.toNat) }) ++
      data.drop (entry (index + remaining)).offset.toNat := by
  induction remaining generalizing index with
  | zero => exact ⟨by simp [tableOf, entriesOf], rfl⟩
  | succ remaining ih =>
    obtain ⟨table, rest⟩ := ih (index + 1) (fun i lower upper => climbs i (by omega) (by omega))
      (fun i lower upper => within i (by omega) (by omega))
    have ordered := climbs index (Nat.le_refl _) (by omega)
    have inside := within (index + 1) (by omega) (by omega)
    have size : ((data.drop (entry index).offset.toNat).take
        ((entry (index + 1)).offset.toNat - (entry index).offset.toNat)).length =
          (entry (index + 1)).offset.toNat - (entry index).offset.toNat := length_take_drop (by omega)
    rw [List.range'_succ, List.map_cons, List.map_cons, tableOf_cons, blob_cons]
    rw [show index + (remaining + 1) = index + 1 + remaining by omega]
    constructor
    · dsimp only
      rw [size, Nat.add_sub_cancel' ordered, table, UInt32.ofNat_toNat]
      rfl
    · rw [List.append_assoc, ← rest]
      conv => lhs; rw [← List.take_append_drop
        ((entry (index + 1)).offset.toNat - (entry index).offset.toNat) (data.drop (entry index).offset.toNat)]
      rw [List.drop_drop, Nat.add_sub_cancel' ordered]

theorem rising_layoutOf (sorted : Sorted bytes count) : Rising (layoutOf bytes count).items := by
  have listed : ids (layoutOf bytes count).items = (List.range count).map fun i => (entryAt bytes i).id := by
    rw [ids, layoutOf, List.map_map]
    rfl
  constructor
  · rw [listed, List.pairwise_map]
    refine List.pairwise_lt_range.imp_of_mem fun _ inside before => ?_
    exact sorted.lt before (List.mem_range.mp inside)
  · rw [listed, List.mem_map]
    rintro ⟨i, inside, zero⟩
    exact sorted.nonZero i (List.mem_range.mp inside) zero

/-- What `Unflatten` makes of bytes holds the items that the decoder finds in them. -/
theorem holds_refOf (short : bytes.length < 2 ^ 32) (framed : Framed bytes count) (sorted : Sorted bytes count)
    (ascending : Ascending bytes count) (within : Within bytes count) :
    Holds ((dataOf bytes count).length - (blob (layoutOf bytes count).items).length) (layoutOf bytes count).items
      (refOf bytes count) := by
  have few : count < 2 ^ 24 := framed.itemCount ▸ lt_of_possible framed.possible
  obtain ⟨table, data⟩ := tableOf_cut (entryAt bytes) (dataOf bytes count) count 0
    (fun i _ inside => UInt32.le_iff_toNat_le.mp (ascending i (by omega))) (fun i _ inside => within i (by omega))
  have listed : (layoutOf bytes count).items = (List.range' 0 count).map (itemAt bytes count) := by
    rw [← List.range_eq_range']
    rfl
  change tableOf _ ((List.range' 0 count).map (itemAt bytes count)) = _ at table
  change _ = blob ((List.range' 0 count).map (itemAt bytes count)) ++ _ at data
  rw [← listed] at table data
  rw [Nat.zero_add, ← List.range_eq_range'] at table
  rw [Nat.zero_add] at data
  have first : ((dataOf bytes count).take (entryAt bytes 0).offset.toNat).length = (entryAt bytes 0).offset.toNat :=
    List.length_take_of_le (within 0 (Nat.zero_le _))
  have laid : Laid ((dataOf bytes count).take (entryAt bytes 0).offset.toNat)
      ((dataOf bytes count).drop (entryAt bytes count).offset.toNat) [] (layoutOf bytes count).items
      (refOf bytes count) := by
    constructor
    · rw [first, table, List.append_nil]
      rfl
    · rw [← data, List.take_append_drop]
      rfl
  have length : (layoutOf bytes count).items.length = count := by
    rw [layoutOf, List.length_map, List.length_range]
  have alloc : (refOf bytes count).offsetTabAllocCount.toNat = count + 1 := by
    rw [← framed.itemCount]
    exact succ_toNat (lt_of_possible framed.possible)
  have size : (blob (layoutOf bytes count).items).length ≤ (dataOf bytes count).length := by
    have parts := congrArg List.length data
    rw [List.length_append, List.length_drop] at parts
    omega
  have whole : (dataOf bytes count).length ≤ bytes.length := by
    rw [dataOf, List.length_drop]
    exact Nat.sub_le _ _
  constructor
  case laid => exact .inr ⟨_, _, _, laid⟩
  case count => rw [length]; exact framed.itemCount
  case alloc => rw [alloc, laid.table, List.append_nil, length_tableOf, length]
  case room => omega
  case rising => exact rising_layoutOf sorted
  case size => exact (Nat.sub_add_cancel size).symm
  case small => omega
  case cached => exact fun some => absurd rfl some

/-- The bytes behind the table that belong to none of the items. -/
def slackOf (bytes : Bytes) (items : List Ivar.Item) : Nat :=
  bytes.length - (16 + (items.length + 1) * 8) - (blob items).length

/-- Bytes that both readers accept are an array that represents the map of what the decoder finds. -/
theorem represents_unflatten {array : Ivar.Array} (short : bytes.length < 2 ^ 32)
    (loaded : unflatten bytes (UInt32.ofNat bytes.length) = .value ref) (decoded : decode bytes = .value array) :
    Represents (slackOf bytes array.items) (ofItems array.items) ref := by
  obtain ⟨count, framed, sorted, within, rfl⟩ := (unflatten_eq_value_iff short).mp loaded
  obtain ⟨count', framed', ascending, _, rfl⟩ := decode_eq_value_iff.mp decoded
  obtain rfl : count = count' := framed.itemCount.symm.trans framed'.itemCount
  have length : (layoutOf bytes count).items.length = count := by
    rw [layoutOf, List.length_map, List.length_range]
  have holds := holds_refOf short framed sorted ascending within
  rw [dataOf, List.length_drop] at holds
  rw [slackOf, length]
  exact ⟨_, holds, rfl⟩

/-! Writing: the entries are where a reader looks for them. -/

def header (itemCount : UInt32) : Bytes :=
  writeU32be formatTag ++ (writeU32be 0 ++ (writeU32be 0 ++ writeU32be itemCount))

theorem flattened_eq (itemCount : UInt32) (offsetTab : List SIVAOffsetTabEntry) (dataHdl : Bytes) :
    flattened itemCount offsetTab dataHdl = header itemCount ++ (offsetTab.flatMap writeEntry ++ dataHdl) := by
  simp only [flattened, header, List.append_assoc]

@[simp] theorem length_header (itemCount : UInt32) : (header itemCount).length = 16 := by simp [header]

@[simp] theorem length_writeEntry (entry : SIVAOffsetTabEntry) : (writeEntry entry).length = 8 := by simp [writeEntry]

theorem length_flattened (itemCount : UInt32) (offsetTab : List SIVAOffsetTabEntry) (dataHdl : Bytes) :
    (flattened itemCount offsetTab dataHdl).length = 16 + offsetTab.length * 8 + dataHdl.length := by
  simp [flattened_eq, Nat.add_assoc]

theorem entryAt_flattened (itemCount : UInt32) (before after : List SIVAOffsetTabEntry) (entry : SIVAOffsetTabEntry)
    (dataHdl : Bytes) {i : Nat} (place : i = before.length) :
    entryAt (flattened itemCount (before ++ entry :: after) dataHdl) i = entry := by
  have reached : (flattened itemCount (before ++ entry :: after) dataHdl).drop (16 + i * 8) =
      writeU32be entry.id ++ (writeU32be entry.offset ++ (after.flatMap writeEntry ++ dataHdl)) := by
    have split : flattened itemCount (before ++ entry :: after) dataHdl =
        (header itemCount ++ before.flatMap writeEntry) ++
        (writeU32be entry.id ++ (writeU32be entry.offset ++ (after.flatMap writeEntry ++ dataHdl))) := by
      simp [flattened_eq, writeEntry]
    rw [split]
    exact List.drop_left' (by simp [place])
  have behind : (flattened itemCount (before ++ entry :: after) dataHdl).drop (16 + i * 8 + 4) =
      writeU32be entry.offset ++ (after.flatMap writeEntry ++ dataHdl) := by
    rw [← List.drop_drop, reached]
    exact List.drop_left' (length_writeU32be _)
  rw [entryAt, reached, behind, readU32be_writeU32be, readU32be_writeU32be]

theorem possible_of_lt {itemCount : UInt32} (few : itemCount.toNat < 2 ^ 24) : itemCount &&& 0xFF000000 = 0 := by
  apply UInt32.toNat_inj.mp
  rw [UInt32.toNat_and]
  apply Nat.eq_of_testBit_eq
  intro i
  rw [Nat.testBit_and]
  by_cases low : i < 24
  · have cleared : ∀ i < 24, (0xFF000000 : UInt32).toNat.testBit i = false := by decide
    rw [cleared i low, Bool.and_false]
    exact (Nat.zero_testBit i).symm
  · have small := Nat.lt_of_lt_of_le few (Nat.pow_le_pow_right (by decide) (Nat.not_lt.mp low))
    rw [Nat.testBit_lt_two_pow small, Bool.false_and]
    exact (Nat.zero_testBit i).symm

theorem framed_flattened {itemCount : UInt32} (few : itemCount.toNat < 2 ^ 24) (offsetTab : List SIVAOffsetTabEntry)
    (dataHdl : Bytes) (size : offsetTab.length = itemCount.toNat + 1) :
    Framed (flattened itemCount offsetTab dataHdl) itemCount.toNat := by
  have counted : readU32be ((flattened itemCount offsetTab dataHdl).drop 12) = itemCount := by
    have split : flattened itemCount offsetTab dataHdl = (writeU32be formatTag ++ (writeU32be 0 ++ writeU32be 0)) ++
        (writeU32be itemCount ++ (offsetTab.flatMap writeEntry ++ dataHdl)) := by
      simp only [flattened, List.append_assoc]
    rw [split, List.drop_left' (by simp), readU32be_writeU32be]
  constructor
  case tag => exact readU32be_writeU32be _ _
  case itemCount => rw [counted]
  case possible => rw [counted, possible_of_lt few]
  case table =>
    rw [length_flattened, size]
    exact Nat.le_add_right _ _

theorem dataOf_flattened {itemCount : UInt32} {offsetTab : List SIVAOffsetTabEntry} (dataHdl : Bytes)
    (size : offsetTab.length = itemCount.toNat + 1) :
    dataOf (flattened itemCount offsetTab dataHdl) itemCount.toNat = dataHdl := by
  rw [dataOf, flattened_eq, ← List.append_assoc]
  exact List.drop_left' (by simp [size])

def flattenedItems (front back : Bytes) (items : List Ivar.Item) : Bytes :=
  flattened (UInt32.ofNat items.length) (tableOf front.length items) (front ++ (blob items ++ back))

theorem entries_at (itemCount : UInt32) (dataHdl : Bytes) (base : Nat) (before after : List Ivar.Item)
    (item : Ivar.Item) :
    entryAt (flattened itemCount (tableOf base (before ++ item :: after)) dataHdl) before.length =
      { id := item.id, offset := UInt32.ofNat (base + (blob before).length) } ∧
    (entryAt (flattened itemCount (tableOf base (before ++ item :: after)) dataHdl) (before.length + 1)).offset =
      UInt32.ofNat (base + (blob before).length + item.data.length) := by
  obtain ⟨id, rest, head⟩ := tableOf_head (base + (blob before).length + item.data.length) after
  rw [tableOf_append, tableOf_cons, head]
  constructor
  · exact entryAt_flattened _ _ _ _ _ (length_entriesOf ..).symm
  · rw [List.append_cons, entryAt_flattened _ _ rest _ _ (by simp)]

theorem split_at {i : Nat} (inside : i < items.length) :
    ∃ before item after, items = before ++ item :: after ∧ before.length = i := by
  refine ⟨items.take i, items[i], items.drop (i + 1), ?_, List.length_take_of_le (Nat.le_of_lt inside)⟩
  rw [List.getElem_cons_drop, List.take_append_drop]

section

variable (few : items.length < 2 ^ 24) (small : (front ++ (blob items ++ back)).length < 2 ^ 32)
include few

theorem count_toNat : (UInt32.ofNat items.length).toNat = items.length :=
  UInt32.toNat_ofNat_of_lt' (Nat.lt_trans few (by decide : 2 ^ 24 < 2 ^ 32))

theorem table_length : (tableOf front.length items).length = (UInt32.ofNat items.length).toNat + 1 := by
  rw [length_tableOf, count_toNat few]

theorem flattenedItems_framed : Framed (flattenedItems front back items) items.length := by
  have counted := count_toNat few
  have framed := @framed_flattened (UInt32.ofNat items.length) (by rwa [counted]) (tableOf front.length items)
    (front ++ (blob items ++ back)) (table_length few)
  rw [counted] at framed
  exact framed

theorem flattenedItems_data : dataOf (flattenedItems front back items) items.length =
    front ++ (blob items ++ back) := by
  have table : (tableOf front.length items).length = _ := table_length few
  have data := dataOf_flattened (front ++ (blob items ++ back)) table
  rw [count_toNat few] at data
  exact data

include small

theorem flattenedItems_item {before after : List Ivar.Item} {item : Ivar.Item}
    (split : items = before ++ item :: after) :
    (entryAt (flattenedItems front back items) before.length).id = item.id ∧
    (entryAt (flattenedItems front back items) before.length).offset.toNat = (front ++ blob before).length ∧
    (entryAt (flattenedItems front back items) (before.length + 1)).offset.toNat =
      (front ++ blob before).length + item.data.length ∧
    itemAt (flattenedItems front back items) items.length before.length = item := by
  have content : dataOf (flattenedItems front back items) items.length = _ := flattenedItems_data few
  have data : front ++ (blob items ++ back) = (front ++ blob before) ++ (item.data ++ (blob after ++ back)) := by
    simp [split]
  have size : front.length + (blob before).length + item.data.length < 2 ^ 32 := by
    rw [data] at small
    simp only [List.length_append] at small
    omega
  have start : (UInt32.ofNat (front.length + (blob before).length)).toNat = front.length + (blob before).length :=
    UInt32.toNat_ofNat_of_lt' (Nat.lt_of_le_of_lt (Nat.le_add_right _ _) size)
  have stop : (UInt32.ofNat (front.length + (blob before).length + item.data.length)).toNat = _ :=
    UInt32.toNat_ofNat_of_lt' size
  obtain ⟨here, next⟩ := entries_at (UInt32.ofNat items.length) (front ++ (blob items ++ back)) front.length before
    after item
  rw [← split] at here next
  change entryAt (flattenedItems front back items) _ = _ at here
  change (entryAt (flattenedItems front back items) _).offset = _ at next
  rw [itemAt, content, here, next, start, stop, data, ← List.length_append, Nat.add_sub_cancel_left, List.drop_left,
    List.take_left]
  exact ⟨rfl, rfl, rfl, rfl⟩

theorem flattenedItems_ascending : Ascending (flattenedItems front back items) items.length := by
  intro i inside
  obtain ⟨before, item, after, split, rfl⟩ := split_at inside
  obtain ⟨-, start, stop, -⟩ := flattenedItems_item few small split
  rw [UInt32.le_iff_toNat_le, start, stop]
  exact Nat.le_add_right _ _

theorem flattenedItems_within : Within (flattenedItems front back items) items.length := by
  intro i inside
  rw [flattenedItems_data few]
  -- The last offset is the one behind the last item, or the only one.
  rcases Nat.lt_or_ge i items.length with before | last
  · obtain ⟨before, item, after, split, rfl⟩ := split_at before
    obtain ⟨-, start, -, -⟩ := flattenedItems_item few small split
    rw [start, split]
    simp only [blob_append, List.length_append]
    omega
  · obtain rfl : i = items.length := Nat.le_antisymm inside last
    cases items using List.reverseRecOn with
    | nil =>
      have only : entryAt (flattenedItems front back []) 0 = { id := 0, offset := UInt32.ofNat front.length } :=
        entryAt_flattened 0 [] [] _ _ rfl
      have begins : (UInt32.ofNat front.length).toNat = front.length :=
        UInt32.toNat_ofNat_of_lt' (Nat.lt_of_le_of_lt (by simp) small)
      rw [List.length_nil, only, begins]
      simp
    | append_singleton before item =>
      have last : before ++ [item] = before ++ item :: [] := rfl
      obtain ⟨-, -, stop, -⟩ := flattenedItems_item few small last
      rw [List.length_append, List.length_singleton, stop]
      simp only [blob_append, blob_cons, List.length_append]
      omega

theorem flattenedItems_items : (layoutOf (flattenedItems front back items) items.length).items = items := by
  apply List.ext_getElem
  · rw [layoutOf, List.length_map, List.length_range]
  · intro i _ inside
    obtain ⟨before, item, after, split, rfl⟩ := split_at inside
    obtain ⟨-, -, -, same⟩ := flattenedItems_item few small split
    simp only [layoutOf, List.getElem_map, List.getElem_range, same]
    simp [split]

theorem flattenedItems_sorted (rising : Rising items) : Sorted (flattenedItems front back items) items.length := by
  have listed (i : Nat) (inside : i < items.length) : (entryAt (flattenedItems front back items) i).id = items[i].id := by
    obtain ⟨before, item, after, split, rfl⟩ := split_at inside
    obtain ⟨same, -, -, -⟩ := flattenedItems_item few small split
    rw [same]
    simp [split]
  constructor
  · intro i inside
    rw [listed i inside]
    intro zero
    exact rising.valid (zero ▸ List.mem_map_of_mem (List.getElem_mem inside))
  · intro i inside
    rw [listed i (by omega), listed (i + 1) inside]
    have rises := List.pairwise_iff_getElem.mp rising.rises i (i + 1) (by simp [ids]; omega) (by simpa [ids] using inside)
      (Nat.lt_succ_self i)
    simpa [ids] using rises

end

theorem write_whole (handles : UMemory.Handles Empty) {size : UInt32} (whole : bytes.length = size.toNat) :
    (UMemory.write 0 bytes (handles.newHandle size) : Checked Empty Bytes) = .value bytes := by
  have length := handles.length_newHandle size
  have written : (UMemory.write 0 bytes ([] ++ (handles.newHandle size ++ [])) : Checked Empty Bytes) =
      .value ([] ++ (bytes ++ [])) := UMemory.write_at _ bytes rfl (whole.trans length.symm)
  rwa [List.nil_append, List.append_nil, List.nil_append, List.append_nil] at written

theorem flatten_size (count size : UInt32) (fits : 16 + (count.toNat + 1) * 8 + size.toNat < 2 ^ 32) :
    (headerSize + (count + 1) * tabEntrySize + size).toNat = 16 + (count.toNat + 1) * 8 + size.toNat := by
  have one : (count + 1).toNat = count.toNat + 1 := by
    rw [UInt32.toNat_add, UInt32.toNat_one, Nat.mod_eq_of_lt (by omega)]
  have table : ((count + 1) * tabEntrySize).toNat = (count.toNat + 1) * 8 := by
    rw [UInt32.toNat_mul, one, show tabEntrySize.toNat = 8 from rfl, Nat.mod_eq_of_lt (by omega)]
  rw [UInt32.toNat_add, UInt32.toNat_add, table, show headerSize.toNat = 16 from rfl, Nat.mod_eq_of_lt (by omega),
    Nat.mod_eq_of_lt (by omega)]

theorem flattenToHandle_spec (holds : Holds slack items ref) (handles : UMemory.Handles Empty)
    (fits : 16 + (items.length + 1) * 8 + (slack + (blob items).length) < 2 ^ 32) :
    ∃ front back, front.length + back.length = slack ∧
      ref.flattenToHandle handles = .value (flattenedItems front back items) := by
  have data : (UInt32.ofNat ref.dataHdl.length).toNat = slack + (blob items).length := by
    rw [UInt32.toNat_ofNat_of_lt' holds.fits, holds.size]
  have size := flatten_size ref.itemCount (UInt32.ofNat ref.dataHdl.length) (by
    rw [data, holds.count]
    exact fits)
  rw [data, holds.count] at size
  have counted : UInt32.ofNat items.length = ref.itemCount := by rw [← holds.count, UInt32.ofNat_toNat]
  by_cases none : items = []
  · subst none
    have zero : ref.itemCount = 0 := UInt32.toNat_inj.mp holds.count
    have all := holds.size
    simp only [blob_nil, List.length_nil, Nat.add_zero] at all
    refine ⟨[], ref.dataHdl, by simp [all], ?_⟩
    simp only [flattenToHandle, if_pos zero, Checked.pure_eq, Checked.value_bind]
    rw [write_whole handles (by rw [length_flattened, size, all]; simp), ← counted]
    rfl
  · obtain ⟨front, back, spare, laid⟩ := holds.laid_of_ne_nil none
    have filled : ref.itemCount ≠ 0 := by
      intro zero
      have count := holds.count
      rw [zero] at count
      exact none (List.length_eq_zero_iff.mp count.symm)
    have count : (ref.itemCount + 1).toNat = (tableOf front.length items).length := by
      rw [UInt32.toNat_add, holds.count, UInt32.toNat_one, length_tableOf, Nat.mod_eq_of_lt (by omega)]
    have all := holds.size
    rw [laid.data] at all
    simp only [List.length_append] at all
    refine ⟨front, back, by omega, ?_⟩
    simp only [flattenToHandle, if_neg filled]
    rw [laid.table, Span.first_append count.symm, Checked.value_bind, write_whole handles, laid.data, ← counted]
    · rfl
    · rw [length_flattened, size, holds.size, length_tableOf, Nat.add_assoc]

/-! What is read of an array that was written. -/

theorem lookup_eq_find (items : List Ivar.Item) (id : UInt32) :
    (ofItems items).lookup id = (items.find? fun item => item.id = id).map Ivar.Item.data := by
  rw [ofItems, Finmap.dlookup_list_toFinmap]
  induction items with
  | nil => rfl
  | cons item items ih =>
    by_cases same : item.id = id
    · subst same
      rw [List.map_cons, List.find?_cons_of_pos (by simp)]
      exact List.dlookup_cons_eq _ _ _
    · rw [List.map_cons, List.find?_cons_of_neg (by simpa using same), List.dlookup_cons_ne _ (entry item) (Ne.symm same)]
      exact ih

/-- Each of the three readers finds the map in the bytes. -/
structure ReadsAs (slack : Nat) (map : ItemMap) (bytes : Bytes) : Prop where
  decoded : ∃ array, decode bytes = .value array ∧ array.textEncoding = 0 ∧ ofItems array.items = map
  loaded : ∃ ref, unflatten bytes (UInt32.ofNat bytes.length) = .value ref ∧ Represents slack map ref
  looked : ∀ inID inMaxSize, UIDVarArray.getItem bytes (UInt32.ofNat bytes.length) inID inMaxSize =
    .value (((map.lookup inID).getD []).take inMaxSize.toNat)

theorem flattenedItems_read (few : items.length < 2 ^ 24) (rising : Rising items)
    (short : (flattenedItems front back items).length < 2 ^ 32) (spread : front.length + back.length = slack) :
    ReadsAs slack (ofItems items) (flattenedItems front back items) := by
  have size : (flattenedItems front back items).length =
      16 + (items.length + 1) * 8 + (front ++ (blob items ++ back)).length := by
    rw [flattenedItems, length_flattened, length_tableOf]
  have small : (front ++ (blob items ++ back)).length < 2 ^ 32 := by omega
  have framed : Framed (flattenedItems front back items) items.length := flattenedItems_framed few
  have ascending := flattenedItems_ascending few small
  have within := flattenedItems_within few small
  have sorted := flattenedItems_sorted few small rising
  have same := flattenedItems_items few small
  have decoded := decode_eq_value_iff.mpr ⟨_, framed, ascending, within, rfl⟩
  have loaded := (unflatten_eq_value_iff short).mpr ⟨_, framed, sorted, within, rfl⟩
  constructor
  · have encoding : readU32be ((flattenedItems front back items).drop 8) = 0 := by
      have split : flattenedItems front back items = (writeU32be formatTag ++ writeU32be 0) ++ (writeU32be 0 ++
          (writeU32be (UInt32.ofNat items.length) ++ ((tableOf front.length items).flatMap writeEntry ++
            (front ++ (blob items ++ back))))) := by
        simp only [flattenedItems, flattened, List.append_assoc]
      rw [split, List.drop_left' (by simp), readU32be_writeU32be]
    exact ⟨_, decoded, encoding, by rw [same]⟩
  · have represents := represents_unflatten short loaded decoded
    have rest : slackOf (flattenedItems front back items) items = slack := by
      simp only [slackOf, size, List.length_append]
      omega
    rw [same, rest] at represents
    exact ⟨_, loaded, represents⟩
  · intro inID inMaxSize
    have found : itemData (layoutOf (flattenedItems front back items) items.length) inID =
        ((ofItems items).lookup inID).getD [] := by
      rw [itemData, find, same, lookup_eq_find]
      cases items.find? fun item => item.id = inID <;> rfl
    rw [getItem_eq short framed sorted ascending within, found]

theorem flattenToHandle_reads {map : ItemMap} (represents : Represents slack map ref)
    (handles : UMemory.Handles Empty) (few : map.keys.card < 2 ^ 24)
    (fits : 16 + (map.keys.card + 1) * 8 + (slack + total map) < 2 ^ 32) :
    ∃ bytes, ref.flattenToHandle handles = .value bytes ∧ ReadsAs slack map bytes := by
  obtain ⟨items, holds, rfl⟩ := represents
  rw [card_ofItems holds.rising] at few fits
  rw [total_ofItems holds.rising] at fits
  obtain ⟨front, back, spread, written⟩ := flattenToHandle_spec holds handles fits
  have short : (flattenedItems front back items).length < 2 ^ 32 := by
    rw [flattenedItems, length_flattened, length_tableOf]
    simp only [List.length_append]
    omega
  exact ⟨_, written, flattenedItems_read few holds.rising short spread⟩

/-- An array that is read, worked on and written again: what the calls answer and what the decoder
then finds are settled by the map that it found before. -/
theorem edited_array_decodes {array : Ivar.Array} (short : bytes.length < 2 ^ 32)
    (loaded : unflatten bytes (UInt32.ofNat bytes.length) = .value ref) (decoded : decode bytes = .value array)
    (calls : List (Memory × ArrayOp)) (handles : UMemory.Handles Empty)
    (all : Checked.Throughout ItemMap.perform (Fits (slackOf bytes array.items)) (ofItems array.items)
      (calls.map Prod.snd))
    {replies : List (Except SIDVarArray.Failure ArrayAnswer)} {map : ItemMap}
    (answered : Checked.answers ItemMap.perform (ofItems array.items) (calls.map Prod.snd) = .value (replies, map))
    (few : map.keys.card < 2 ^ 24)
    (fits : 16 + (map.keys.card + 1) * 8 + (slackOf bytes array.items + total map) < 2 ^ 32) :
    ∃ edited written, Checked.answers SIDVarArray.perform ref calls = .value (replies, edited) ∧
      edited.flattenToHandle handles = .value written ∧ ReadsAs (slackOf bytes array.items) map written := by
  have start := represents_unflatten short loaded decoded
  have related := (perform_refines _).answers calls start all
  rw [answered] at related
  cases performed : Checked.answers SIDVarArray.perform ref calls with
  | value result =>
    rw [performed] at related
    obtain ⟨same, represents⟩ := related
    obtain ⟨written, flat, reads⟩ := flattenToHandle_reads represents handles few fits
    exact ⟨result.2, written, congrArg Checked.value (Prod.ext same rfl), flat, reads⟩
  | error reason => exact reason.elim
  | fault =>
    rw [performed] at related
    exact related.elim

def twoEdits : List (Memory × ArrayOp) :=
  [(leaving {} 0, .removeItem 1), (leaving { id := 9 } 4, .addItem 7 pair false), (leaving {} 0, .getItem 2 9)]

theorem edited_array_decodes_two :
    ∃ edited written, Checked.answers SIDVarArray.perform (refOf twoItems 2) twoEdits =
        .value ([.ok .nothing, .ok .nothing, .ok (.bytes [0x6C, 0x6C, 0x6F])], edited) ∧
      edited.flattenToHandle (.leaving fun _ => 3) = .value written ∧
      ReadsAs 0 (((ofItems [{ id := 1, data := [0x68, 0x65] }, { id := 2, data := [0x6C, 0x6C, 0x6F] }]).erase 1).insert 7
        [1, 2]) written := by
  have loaded : unflatten twoItems (UInt32.ofNat twoItems.length) = .value (refOf twoItems 2) := by decide
  have decoded : decode twoItems = .value {
      items := [{ id := 1, data := [0x68, 0x65] }, { id := 2, data := [0x6C, 0x6C, 0x6F] }] } := by decide
  refine edited_array_decodes (by decide) loaded decoded twoEdits (.leaving fun _ => 3) ?_ ?_ (by decide) (by decide)
  · repeat
      intro answer map performed
      cases performed
      constructor
      · unfold Fits
        decide
    trivial
  · rfl

end Slopline.Legacy.SIDVarArray
