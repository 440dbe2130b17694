import Slopline.Core.IvarArray

/-! The layout of a flattened ID-var-array, and the decoder against it.

An array is in its bytes at places that its item count settles: a table of entries, the extra one
at the end of the last item's data included, and the data behind it. What a reader makes of the
bytes is what it asks of these entries.
-/

set_option autoImplicit false

namespace Slopline.Ivar

open Library Endian

structure Entry where
  id : UInt32 := 0
  offset : UInt32 := 0
  deriving DecidableEq, Repr

def entryAt (bytes : Bytes) (i : Nat) : Entry where
  id := readU32be (bytes.drop (16 + i * 8))
  offset := readU32be (bytes.drop (16 + i * 8 + 4))

def dataOf (bytes : Bytes) (count : Nat) : Bytes := bytes.drop (16 + (count + 1) * 8)

/-- The item whose data lies between its own offset and the next. -/
def itemAt (bytes : Bytes) (count i : Nat) : Item where
  id := (entryAt bytes i).id
  data := ((dataOf bytes count).drop (entryAt bytes i).offset.toNat).take
    ((entryAt bytes (i + 1)).offset.toNat - (entryAt bytes i).offset.toNat)

/-- The format tag, a possible item count, and all of the table. -/
structure Framed (bytes : Bytes) (count : Nat) : Prop where
  tag : readU32be bytes = kFormatTag
  itemCount : (readU32be (bytes.drop 12)).toNat = count
  possible : readU32be (bytes.drop 12) &&& 0xFF000000 = 0
  table : 16 + (count + 1) * 8 ≤ bytes.length

def Within (bytes : Bytes) (count : Nat) : Prop :=
  ∀ i ≤ count, (entryAt bytes i).offset.toNat ≤ (dataOf bytes count).length

def Ascending (bytes : Bytes) (count : Nat) : Prop :=
  ∀ i < count, (entryAt bytes i).offset ≤ (entryAt bytes (i + 1)).offset

def layoutOf (bytes : Bytes) (count : Nat) : Array where
  textEncoding := readU32be (bytes.drop 8)
  items := (List.range count).map (itemAt bytes count)

/-! Integers in their places. -/

theorem readU32be_take {count : Nat} (enough : 4 ≤ count) (bytes : Bytes) :
    readU32be (bytes.take count) = readU32be bytes := by
  have kept (i : Nat) (early : i < 4) : (bytes.take count).getD i 0 = bytes.getD i 0 := by
    rw [List.getD_eq_getElem?_getD, List.getD_eq_getElem?_getD, List.getElem?_take_of_lt (by omega)]
  simp only [readU32be, kept 0 (by decide), kept 1 (by decide), kept 2 (by decide), kept 3 (by decide)]

theorem u32beAt_inside {ε : Type} {offset : Nat} {bytes : Bytes} (inside : offset + 4 ≤ bytes.length) :
    (u32beAt offset bytes : Checked ε UInt32) = .value (readU32be (bytes.drop offset)) := by
  have part : (Span.slice offset 4 bytes : Checked ε Bytes) = .value ((bytes.drop offset).take 4) := if_pos inside
  rw [u32beAt, part, Checked.value_bind, readU32be_take (Nat.le_refl 4)]
  rfl

theorem lt_of_possible {count : UInt32} (possible : count &&& 0xFF000000 = 0) : count.toNat < 2 ^ 24 := by
  by_contra large
  -- A count of 2^24 or more has one of the bits that the mask keeps.
  obtain ⟨i, high, set⟩ := Nat.exists_ge_and_testBit_of_ge_two_pow (Nat.not_lt.mp large)
  have low : i < 32 := by
    by_contra beyond
    have small : count.toNat < 2 ^ i :=
      Nat.lt_of_lt_of_le count.toNat_lt (Nat.pow_le_pow_right (by decide) (Nat.not_lt.mp beyond))
    have none := Nat.testBit_lt_two_pow small
    exact absurd (set.symm.trans none) (by decide)
  have cleared : (count.toNat &&& 0xFF000000).testBit i = false := by
    have zero : count.toNat &&& 0xFF000000 = 0 := by
      have same := congrArg UInt32.toNat possible
      rwa [UInt32.toNat_and] at same
    rw [zero, Nat.zero_testBit]
  rw [Nat.testBit_and, set, Bool.true_and] at cleared
  interval_cases i <;> exact absurd cleared (by decide)

/-! The two passes of the decoder. -/

theorem climbs_range {limit : Nat} (offset : Nat → UInt32) (remaining index floor : Nat) :
    Climbs limit floor ((List.range' index remaining).map offset) ↔
      (0 < remaining → floor ≤ (offset index).toNat) ∧
      (∀ i, index ≤ i → i + 1 < index + remaining → (offset i).toNat ≤ (offset (i + 1)).toNat) ∧
      (∀ i, index ≤ i → i < index + remaining → (offset i).toNat ≤ limit) := by
  -- The first entry is compared with the floor, each further one with the entry before it.
  induction remaining generalizing index floor with
  | zero =>
    constructor
    · intro _
      refine ⟨by omega, ?_, ?_⟩
      · intro i above below
        omega
      · intro i above below
        omega
    · exact fun _ => .nil floor
  | succ remaining ih =>
    rw [List.range'_succ, List.map_cons]
    constructor
    · intro climbs
      cases climbs with
      | cons above below rest =>
        obtain ⟨next, later, within⟩ := (ih (index + 1) _).mp rest
        refine ⟨fun _ => above, ?_, ?_⟩
        · intro i lower upper
          by_cases first : i = index
          · subst first
            exact next (by omega)
          · exact later i (by omega) (by omega)
        · intro i lower upper
          by_cases first : i = index
          · subst first
            exact below
          · exact within i (by omega) (by omega)
    · rintro ⟨above, later, within⟩
      apply Climbs.cons (above (by omega)) (within index (by omega) (by omega))
      apply (ih (index + 1) _).mpr
      refine ⟨fun some => later index (by omega) (by omega), ?_, ?_⟩
      · exact fun i lower upper => later i (by omega) (by omega)
      · exact fun i lower upper => within i (by omega) (by omega)

/-- The first pass leaves the offsets of its entries, or reports that they do not climb. -/
theorem collectOffsets_reads {table : Bytes} {offset : Nat → UInt32} (data : Bytes) (remaining index : Nat)
    (previousOffset : UInt32) (covered : (index + remaining) * 8 ≤ table.length)
    (reads : ∀ i, index ≤ i → i < index + remaining → readU32be (table.drop (i * 8 + 4)) = offset i) :
    (Climbs data.length previousOffset.toNat ((List.range' index remaining).map offset) →
      collectOffsets table data remaining index previousOffset =
        .value ((List.range' index remaining).map offset)) ∧
    (¬ Climbs data.length previousOffset.toNat ((List.range' index remaining).map offset) →
      collectOffsets table data remaining index previousOffset = .error .offsetOutOfRange) := by
  induction remaining generalizing index previousOffset with
  | zero => exact ⟨fun _ => rfl, fun none => absurd (.nil _) none⟩
  | succ remaining ih =>
    have entry : (Span.slice (index * 8) 8 table : Checked DecodeError Bytes) =
        .value ((table.drop (index * 8)).take 8) := if_pos (by omega)
    have size : ((table.drop (index * 8)).take 8).length = 8 := length_take_drop (by omega)
    have read : (u32beAt 4 ((table.drop (index * 8)).take 8) : Checked DecodeError UInt32) = .value (offset index) := by
      rw [u32beAt_inside (by omega), List.drop_take, readU32be_take (by decide), List.drop_drop,
        reads index (Nat.le_refl _) (by omega)]
    obtain ⟨rest, none⟩ := ih (index + 1) (offset index) (by omega) fun i lower upper => reads i (by omega) (by omega)
    rw [List.range'_succ, List.map_cons, collectOffsets, entry, Checked.value_bind, read, Checked.value_bind]
    by_cases inRange : offset index < previousOffset ∨ data.length < (offset index).toNat
    · rw [if_pos inRange]
      constructor
      · intro climbs
        cases climbs with
        | cons above within _ =>
          cases inRange with
          | inl below => exact absurd (UInt32.lt_iff_toNat_lt.mp below) (Nat.not_lt.mpr above)
          | inr beyond => exact absurd beyond (Nat.not_lt.mpr within)
      · exact fun _ => rfl
    · rw [if_neg inRange]
      rw [not_or, UInt32.not_lt, UInt32.le_iff_toNat_le, Nat.not_lt] at inRange
      constructor
      · intro climbs
        cases climbs with
        | cons _ _ later =>
          rw [rest later, Checked.value_bind]
          rfl
      · intro stops
        -- A later entry stops the pass, since this one does not.
        rw [none fun later => stops (.cons inRange.1 inRange.2 later), Checked.error_bind]

theorem sliceItems_reads {table data : Bytes} {offsets : List UInt32} {entry : Nat → Entry} (remaining index : Nat)
    (covered : (index + remaining) * 8 ≤ table.length)
    (ids : ∀ i, index ≤ i → i < index + remaining → readU32be (table.drop (i * 8)) = (entry i).id)
    (listed : ∀ i, index ≤ i → i ≤ index + remaining → offsets[i]? = some (entry i).offset)
    (ascending : ∀ i, index ≤ i → i < index + remaining → (entry i).offset.toNat ≤ (entry (i + 1)).offset.toNat)
    (within : ∀ i, index ≤ i → i ≤ index + remaining → (entry i).offset.toNat ≤ data.length) :
    sliceItems table data offsets remaining index = .value ((List.range' index remaining).map fun i =>
      { id := (entry i).id
        data := (data.drop (entry i).offset.toNat).take ((entry (i + 1)).offset.toNat - (entry i).offset.toNat) }) := by
  induction remaining generalizing index with
  | zero => rfl
  | succ remaining ih =>
    have rest := ih (index + 1) (by omega) (fun i lower upper => ids i (by omega) (by omega))
      (fun i lower upper => listed i (by omega) (by omega)) (fun i lower upper => ascending i (by omega) (by omega))
      (fun i lower upper => within i (by omega) (by omega))
    have id : (u32beAt (index * 8) table : Checked DecodeError UInt32) = .value (entry index).id := by
      rw [u32beAt_inside (by omega), ids index (Nat.le_refl _) (by omega)]
    have start : (Span.element index offsets : Checked DecodeError UInt32) = .value (entry index).offset := by
      rw [Span.element, listed index (Nat.le_refl _) (by omega)]
    have stop : (Span.element (index + 1) offsets : Checked DecodeError UInt32) =
        .value (entry (index + 1)).offset := by
      rw [Span.element, listed (index + 1) (by omega) (by omega)]
    have ordered := ascending index (Nat.le_refl _) (by omega)
    have small : (entry (index + 1)).offset.toNat < 2 ^ 64 := Nat.lt_trans (UInt32.toNat_lt _) (by decide)
    have inside := within (index + 1) (by omega) (by omega)
    have sliced : (Span.slice (entry index).offset.toNat
        ((entry (index + 1)).offset.toNat - (entry index).offset.toNat) data : Checked DecodeError Bytes) = .value _ :=
      if_pos (by omega)
    rw [List.range'_succ, List.map_cons, sliceItems, id, Checked.value_bind, start, Checked.value_bind, stop,
      Checked.value_bind, sizeDifference_eq ordered small, sliced, Checked.value_bind, rest, Checked.value_bind]
    rfl

/-! The decoder. -/

theorem Framed.enough {bytes : Bytes} {count : Nat} (framed : Framed bytes count) : kMinSize ≤ bytes.length := by
  have table := framed.table
  rw [kMinSize]
  omega

theorem drop_table {bytes : Bytes} {size offset : Nat} (inside : offset + 4 ≤ size) :
    readU32be (((bytes.drop 16).take size).drop offset) = readU32be (bytes.drop (16 + offset)) := by
  rw [List.drop_take, readU32be_take (by omega), List.drop_drop]

/-- Of bytes that hold a table the decoder makes what its two passes make of it. -/
theorem decode_passes {bytes : Bytes} {count : Nat} (framed : Framed bytes count) :
    decode bytes = (do
      let table := (bytes.drop 16).take ((count + 1) * 8)
      let offsets ← collectOffsets table (dataOf bytes count) (count + 1) 0 0
      let items ← sliceItems table (dataOf bytes count) offsets count 0
      return { textEncoding := readU32be (bytes.drop 8), items }) := by
  have long := framed.table
  have enough : ¬ bytes.length < kMinSize := Nat.not_lt.mpr framed.enough
  have tag : (u32beAt 0 bytes : Checked DecodeError UInt32) = .value kFormatTag := by
    rw [u32beAt_inside (by omega), List.drop_zero, framed.tag]
  have itemCount : (u32beAt 12 bytes : Checked DecodeError UInt32) = .value (readU32be (bytes.drop 12)) :=
    u32beAt_inside (by omega)
  have textEncoding : (u32beAt 8 bytes : Checked DecodeError UInt32) = .value (readU32be (bytes.drop 8)) :=
    u32beAt_inside (by omega)
  have table : (Span.slice 16 ((count + 1) * 8) bytes : Checked DecodeError Bytes) =
      .value ((bytes.drop 16).take ((count + 1) * 8)) := if_pos framed.table
  have data : (Span.subspan (16 + (count + 1) * 8) bytes : Checked DecodeError Bytes) = .value (dataOf bytes count) :=
    if_pos framed.table
  rw [decode, if_neg enough, tag, Checked.value_bind, if_neg (not_not.mpr rfl), itemCount, Checked.value_bind,
    if_neg (not_not.mpr framed.possible)]
  simp only [framed.itemCount, if_neg (Nat.not_lt.mpr framed.table), table, data, textEncoding, Checked.value_bind]

theorem decode_framed {bytes : Bytes} {count : Nat} (framed : Framed bytes count) :
    (Ascending bytes count ∧ Within bytes count → decode bytes = .value (layoutOf bytes count)) ∧
      (¬ (Ascending bytes count ∧ Within bytes count) → decode bytes = .error .offsetOutOfRange) := by
  have size : ((bytes.drop 16).take ((count + 1) * 8)).length = (count + 1) * 8 := by
    have long := framed.table
    exact length_take_drop (by omega)
  have ordered : Climbs (dataOf bytes count).length 0
      ((List.range' 0 (count + 1)).map fun i => (entryAt bytes i).offset) ↔
        Ascending bytes count ∧ Within bytes count := by
    rw [climbs_range]
    constructor
    · rintro ⟨_, later, within⟩
      constructor
      · intro i inside
        exact UInt32.le_iff_toNat_le.mpr (later i (Nat.zero_le _) (by omega))
      · intro i inside
        exact within i (Nat.zero_le _) (by omega)
    · rintro ⟨ascending, within⟩
      refine ⟨fun _ => Nat.zero_le _, ?_, ?_⟩
      · intro i _ inside
        exact UInt32.le_iff_toNat_le.mp (ascending i (by omega))
      · intro i _ inside
        exact within i (by omega)
  have read (i : Nat) (inside : i < count + 1) :
      readU32be (((bytes.drop 16).take ((count + 1) * 8)).drop (i * 8 + 4)) = (entryAt bytes i).offset := by
    rw [drop_table (by omega), ← Nat.add_assoc]
    rfl
  have offsets := collectOffsets_reads (dataOf bytes count) (count + 1) 0 0 (by omega)
    fun i _ inside => read i (by omega)
  rw [UInt32.toNat_zero, ordered] at offsets
  rw [decode_passes framed]
  constructor
  · intro both
    -- The second pass finds its offsets where the first one has put them.
    have listed (i : Nat) (inside : i ≤ count) :
        ((List.range' 0 (count + 1)).map fun i => (entryAt bytes i).offset)[i]? = some (entryAt bytes i).offset := by
      rw [List.getElem?_map, List.getElem?_range' (by omega), Nat.zero_add, Nat.one_mul, Option.map_some]
    have ids (i : Nat) (inside : i < count) :
        readU32be (((bytes.drop 16).take ((count + 1) * 8)).drop (i * 8)) = (entryAt bytes i).id :=
      drop_table (by omega)
    have items : sliceItems _ (dataOf bytes count) _ count 0 = _ :=
      sliceItems_reads count 0 (by omega) (fun i _ inside => ids i (by omega)) (fun i _ inside => listed i (by omega))
        (fun i _ inside => UInt32.le_iff_toNat_le.mp (both.1 i (by omega))) (fun i _ inside => both.2 i (by omega))
    dsimp only
    rw [offsets.1 both, Checked.value_bind, items, Checked.value_bind, ← List.range_eq_range']
    rfl
  · intro neither
    dsimp only
    rw [offsets.2 neither, Checked.error_bind]

theorem framed_of_decode {bytes : Bytes} {array : Array} (accepted : decode bytes = .value array) :
    ∃ count, Framed bytes count := by
  by_cases enough : bytes.length < kMinSize
  · rw [decode, if_pos enough] at accepted
    cases accepted
  have header : 24 ≤ bytes.length := Nat.not_lt.mp enough
  rw [decode, if_neg enough, u32beAt_inside (by omega), List.drop_zero, Checked.value_bind] at accepted
  by_cases tag : readU32be bytes = kFormatTag
  · rw [if_neg (not_not.mpr tag), u32beAt_inside (by omega), Checked.value_bind] at accepted
    by_cases possible : readU32be (bytes.drop 12) &&& 0xFF000000 = 0
    · rw [if_neg (not_not.mpr possible)] at accepted
      by_cases table : bytes.length < 16 + ((readU32be (bytes.drop 12)).toNat + 1) * 8
      · simp only [if_pos table] at accepted
        cases accepted
      · exact ⟨_, { tag, itemCount := rfl, possible, table := Nat.not_lt.mp table }⟩
    · rw [if_pos possible] at accepted
      cases accepted
  · rw [if_pos tag] at accepted
    cases accepted

/-- What the decoder accepts is laid out as a table of climbing offsets and the data they cut. -/
theorem decode_eq_value_iff {bytes : Bytes} {array : Array} :
    decode bytes = .value array ↔
      ∃ count, Framed bytes count ∧ Ascending bytes count ∧ Within bytes count ∧ array = layoutOf bytes count := by
  constructor
  · intro accepted
    obtain ⟨count, framed⟩ := framed_of_decode accepted
    obtain ⟨holds, fails⟩ := decode_framed framed
    by_cases both : Ascending bytes count ∧ Within bytes count
    · have read := accepted.symm.trans (holds both)
      cases read
      exact ⟨count, framed, both.1, both.2, rfl⟩
    · have refused := accepted.symm.trans (fails both)
      cases refused
  · intro laid
    obtain ⟨count, framed, ascending, within, rfl⟩ := laid
    exact (decode_framed framed).1 ⟨ascending, within⟩

end Slopline.Ivar
