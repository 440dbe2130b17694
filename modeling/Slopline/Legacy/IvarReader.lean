import Slopline.Legacy.IdVarArray

/-! The array decoder against the legacy container.

Of the same bytes both ask for a whole table with its offsets in the data. The container also asks
for IDs that rise, and its lookup needs them; the decoder asks for offsets that do not fall.
-/

set_option autoImplicit false

namespace Slopline.Legacy.UIDVarArray

open Library Endian Ivar

structure Sorted (bytes : Bytes) (count : Nat) : Prop where
  nonZero : ∀ i < count, (entryAt bytes i).id ≠ 0
  rising : ∀ i, i + 1 < count → (entryAt bytes i).id < (entryAt bytes (i + 1)).id

def refOf (bytes : Bytes) (count : Nat) : SIDVarArray where
  itemCount := readU32be (bytes.drop 12)
  offsetTabAllocCount := readU32be (bytes.drop 12) + 1
  offsetTab := (List.range count).map (entryAt bytes) ++ [{ id := 0, offset := (entryAt bytes count).offset }]
  dataHdl := dataOf bytes count

/-! The pass over the table. -/

structure Passes (bytes : Bytes) (arrayDataSize : UInt32) (remaining index : Nat) (prevID : UInt32) : Prop where
  above : 0 < remaining → prevID < (entryAt bytes index).id
  rising : ∀ i, index ≤ i → i + 1 < index + remaining → (entryAt bytes i).id < (entryAt bytes (i + 1)).id
  within : ∀ i, index ≤ i → i ≤ index + remaining → (entryAt bytes i).offset ≤ arrayDataSize

section
variable {bytes : Bytes} {arrayDataSize prevID : UInt32} {remaining index count : Nat}

theorem passes_zero : Passes bytes arrayDataSize 0 index prevID ↔ (entryAt bytes index).offset ≤ arrayDataSize := by
  constructor
  · exact fun passes => passes.within index (Nat.le_refl _) (Nat.le_refl _)
  · intro within
    constructor
    · intro more
      exact absurd more (Nat.lt_irrefl 0)
    · intro i lower upper
      omega
    · intro i lower upper
      obtain rfl : i = index := by omega
      exact within

theorem passes_succ : Passes bytes arrayDataSize (remaining + 1) index prevID ↔
    prevID < (entryAt bytes index).id ∧ (entryAt bytes index).offset ≤ arrayDataSize ∧
      Passes bytes arrayDataSize remaining (index + 1) (entryAt bytes index).id := by
  constructor
  · intro passes
    refine ⟨passes.above (Nat.succ_pos _), passes.within index (Nat.le_refl _) (by omega), ?_, ?_, ?_⟩
    · intro more
      exact passes.rising index (Nat.le_refl _) (by omega)
    · intro i lower upper
      exact passes.rising i (by omega) (by omega)
    · intro i lower upper
      exact passes.within i (by omega) (by omega)
  · rintro ⟨above, within, rest⟩
    constructor
    · exact fun _ => above
    · intro i lower upper
      by_cases first : i = index
      · subst first
        exact rest.above (by omega)
      · exact rest.rising i (by omega) (by omega)
    · intro i lower upper
      by_cases first : i = index
      · subst first
        exact within
      · exact rest.within i (by omega) (by omega)

theorem extractEntries_reads (bytes : Bytes) (arrayDataSize : UInt32) (remaining index : Nat) (prevID : UInt32)
    (covered : 16 + (index + remaining + 1) * 8 ≤ bytes.length) :
    (Passes bytes arrayDataSize remaining index prevID →
      extractEntries bytes arrayDataSize 0 remaining (16 + index * 8) prevID =
        .value ((List.range' index remaining).map (entryAt bytes) ++
          [{ id := 0, offset := (entryAt bytes (index + remaining)).offset }])) ∧
    (¬ Passes bytes arrayDataSize remaining index prevID →
      extractEntries bytes arrayDataSize 0 remaining (16 + index * 8) prevID = .error .corrupt) := by
  induction remaining generalizing index prevID with
  | zero =>
    have offset : (u32beAt (16 + index * 8 + 4) bytes : Checked Failure UInt32) = .value (entryAt bytes index).offset :=
      u32beAt_inside (by omega)
    -- The extra entry: its ID is not looked at.
    rw [passes_zero, extractEntries, offset, Checked.value_bind]
    constructor
    · intro within
      rw [if_neg (by simpa using within)]
      rfl
    · intro beyond
      rw [if_pos (.inr (UInt32.not_le.mp beyond))]
  | succ remaining ih =>
    have id : (u32beAt (16 + index * 8) bytes : Checked Failure UInt32) = .value (entryAt bytes index).id :=
      u32beAt_inside (by omega)
    have offset : (u32beAt (16 + index * 8 + 4) bytes : Checked Failure UInt32) = .value (entryAt bytes index).offset :=
      u32beAt_inside (by omega)
    have next : 16 + index * 8 + 8 = 16 + (index + 1) * 8 := by omega
    obtain ⟨rest, stops⟩ := ih (index + 1) (entryAt bytes index).id (by omega)
    rw [passes_succ, extractEntries, id, Checked.value_bind, offset, Checked.value_bind, next]
    constructor
    · rintro ⟨above, within, later⟩
      rw [if_neg (UInt32.not_le.mpr above), if_neg (by simpa using within), rest later, Checked.value_bind,
        List.range'_succ, List.map_cons, Nat.add_right_comm, Nat.add_assoc]
      rfl
    · intro fails
      -- The ID is checked before the offset is read, and either may be what fails.
      by_cases above : (entryAt bytes index).id ≤ prevID
      · rw [if_pos above]
      · rw [if_neg above]
        by_cases beyond : arrayDataSize < (entryAt bytes index).offset
        · rw [if_pos (.inr beyond)]
        · rw [if_neg (by simpa using beyond)]
          rw [stops fun later => fails ⟨UInt32.not_le.mp above, UInt32.not_lt.mp beyond, later⟩, Checked.error_bind]

/-! The sizes of a flattened array, in `Uint32`s. -/

def dataOffset (bytes : Bytes) : UInt32 := headerSize + (readU32be (bytes.drop 12) + 1) * tabEntrySize

def dataSize (bytes : Bytes) : UInt32 := UInt32.ofNat bytes.length - dataOffset bytes

theorem size_toNat (short : bytes.length < 2 ^ 32) : (UInt32.ofNat bytes.length).toNat = bytes.length :=
  UInt32.toNat_ofNat_of_lt' short

theorem arrayDataOffset_toNat {itemCount : UInt32} (possible : itemCount &&& 0xFF000000 = 0) :
    (headerSize + (itemCount + 1) * tabEntrySize).toNat = 16 + (itemCount.toNat + 1) * 8 := by
  have bounded := lt_of_possible possible
  have entry : tabEntrySize.toNat = 8 := rfl
  have header : headerSize.toNat = 16 := rfl
  have table : ((itemCount + 1) * tabEntrySize).toNat = (itemCount.toNat + 1) * 8 := by
    rw [UInt32.toNat_mul, succ_toNat bounded, entry]
    exact Nat.mod_eq_of_lt (by omega)
  rw [UInt32.toNat_add, table, header]
  exact Nat.mod_eq_of_lt (by omega)

theorem whole_iff {itemCount : UInt32} (short : bytes.length < 2 ^ 32) (possible : itemCount &&& 0xFF000000 = 0) :
    UInt32.ofNat bytes.length < headerSize + (itemCount + 1) * tabEntrySize ↔
      bytes.length < 16 + (itemCount.toNat + 1) * 8 := by
  rw [UInt32.lt_iff_toNat_lt, size_toNat short, arrayDataOffset_toNat possible]

theorem minDataSize_iff (short : bytes.length < 2 ^ 32) :
    UInt32.ofNat bytes.length < minDataSize ↔ bytes.length < 24 := by
  rw [UInt32.lt_iff_toNat_lt, size_toNat short]
  rfl

theorem dataOffset_toNat (framed : Framed bytes count) : (dataOffset bytes).toNat = 16 + (count + 1) * 8 := by
  rw [dataOffset, arrayDataOffset_toNat framed.possible, framed.itemCount]

theorem dataSize_toNat (short : bytes.length < 2 ^ 32) (framed : Framed bytes count) :
    (dataSize bytes).toNat = (dataOf bytes count).length := by
  have offset := dataOffset_toNat framed
  have size := size_toNat short
  have whole : dataOffset bytes ≤ UInt32.ofNat bytes.length := by
    rw [UInt32.le_iff_toNat_le, offset, size]
    exact framed.table
  rw [dataSize, UInt32.toNat_sub_of_le _ _ whole, size, offset, dataOf, List.length_drop]

/-! The checks in front of the table, on bytes that pass them. -/

theorem format_reads (framed : Framed bytes count) : (u32beAt 0 bytes : Checked Failure UInt32) = .value formatTag := by
  have whole := framed.table
  rw [u32beAt_inside (by omega), List.drop_zero, framed.tag]
  rfl

theorem itemCount_reads (framed : Framed bytes count) :
    (u32beAt 12 bytes : Checked Failure UInt32) = .value (readU32be (bytes.drop 12)) := by
  have whole := framed.table
  exact u32beAt_inside (by omega)

theorem enough_of_framed (short : bytes.length < 2 ^ 32) (framed : Framed bytes count) :
    ¬ UInt32.ofNat bytes.length < minDataSize := by
  have whole := framed.table
  rw [minDataSize_iff short]
  omega

theorem whole_of_framed (short : bytes.length < 2 ^ 32) (framed : Framed bytes count) :
    ¬ UInt32.ofNat bytes.length < dataOffset bytes := by
  rw [dataOffset, whole_iff short framed.possible, framed.itemCount]
  exact Nat.not_lt.mpr framed.table

/-! Unflattening. -/

theorem unflatten_passes (short : bytes.length < 2 ^ 32) (framed : Framed bytes count) :
    unflatten bytes (UInt32.ofNat bytes.length) = (do
      let offsetTab ← extractEntries bytes (dataSize bytes) 0 count 16 0
      return {
        itemCount := readU32be (bytes.drop 12)
        offsetTabAllocCount := readU32be (bytes.drop 12) + 1
        offsetTab
        dataHdl := dataOf bytes count }) := by
  have whole := framed.table
  have data : (Span.slice (16 + (count + 1) * 8) (dataOf bytes count).length bytes : Checked Failure Bytes) =
      .value (dataOf bytes count) := by
    have size : (dataOf bytes count).length = bytes.length - (16 + (count + 1) * 8) := List.length_drop
    have part : (Span.slice (16 + (count + 1) * 8) (dataOf bytes count).length bytes : Checked Failure Bytes) =
        .value ((dataOf bytes count).take (dataOf bytes count).length) := if_pos (by omega)
    rw [part, List.take_length]
  rw [unflatten, if_neg (enough_of_framed short framed), format_reads framed, Checked.value_bind,
    if_neg (not_not.mpr rfl), itemCount_reads framed, Checked.value_bind, if_neg (not_not.mpr framed.possible)]
  dsimp only
  rw [← dataOffset, ← dataSize, if_neg (whole_of_framed short framed), dataOffset_toNat framed,
    dataSize_toNat short framed, framed.itemCount, data, Checked.value_bind]
  rfl

theorem passes_iff (short : bytes.length < 2 ^ 32) (framed : Framed bytes count) :
    Passes bytes (dataSize bytes) count 0 0 ↔ Sorted bytes count ∧ Within bytes count := by
  have inside (i : Nat) : (entryAt bytes i).offset ≤ dataSize bytes ↔
      (entryAt bytes i).offset.toNat ≤ (dataOf bytes count).length := by
    rw [UInt32.le_iff_toNat_le, dataSize_toNat short framed]
  constructor
  · intro passes
    have rising (i : Nat) (upper : i + 1 < count) := passes.rising i (Nat.zero_le _) (by omega)
    refine ⟨⟨?_, rising⟩, fun i upper => (inside i).mp (passes.within i (Nat.zero_le _) (by omega))⟩
    -- the first ID is above zero, each further one above an ID
    intro i upper zero
    cases i with
    | zero =>
      have above := passes.above upper
      rw [zero] at above
      exact absurd above (by decide)
    | succ i =>
      have above := rising i upper
      rw [zero, UInt32.lt_iff_toNat_lt] at above
      exact absurd above (Nat.not_lt_zero _)
  · rintro ⟨sorted, within⟩
    constructor
    · intro some
      exact UInt32.pos_iff_ne_zero.mpr (sorted.nonZero 0 some)
    · intro i _ upper
      exact sorted.rising i (by omega)
    · intro i _ upper
      exact (inside i).mpr (within i (by omega))

theorem unflatten_framed (short : bytes.length < 2 ^ 32) (framed : Framed bytes count) :
    (Sorted bytes count ∧ Within bytes count →
      unflatten bytes (UInt32.ofNat bytes.length) = .value (refOf bytes count)) ∧
    (¬ (Sorted bytes count ∧ Within bytes count) →
      unflatten bytes (UInt32.ofNat bytes.length) = .error .corrupt) := by
  have whole := framed.table
  obtain ⟨rest, stops⟩ := extractEntries_reads bytes (dataSize bytes) count 0 0 (by omega)
  rw [passes_iff short framed] at rest stops
  rw [unflatten_passes short framed]
  constructor
  · intro both
    rw [rest both, Checked.value_bind, ← List.range_eq_range', Nat.zero_add]
    rfl
  · intro neither
    rw [stops neither, Checked.error_bind]

theorem framed_of_unflatten {ref : SIDVarArray} (short : bytes.length < 2 ^ 32)
    (accepted : unflatten bytes (UInt32.ofNat bytes.length) = .value ref) : ∃ count, Framed bytes count := by
  by_cases enough : UInt32.ofNat bytes.length < minDataSize
  · rw [unflatten, if_pos enough] at accepted
    cases accepted
  have header : 24 ≤ bytes.length := Nat.not_lt.mp fun less => enough ((minDataSize_iff short).mpr less)
  rw [unflatten, if_neg enough, u32beAt_inside (by omega), List.drop_zero, Checked.value_bind] at accepted
  by_cases tag : readU32be bytes = formatTag
  · rw [if_neg (not_not.mpr tag), u32beAt_inside (by omega), Checked.value_bind] at accepted
    by_cases possible : readU32be (bytes.drop 12) &&& 0xFF000000 = 0
    · rw [if_neg (not_not.mpr possible)] at accepted
      by_cases table : UInt32.ofNat bytes.length < headerSize + (readU32be (bytes.drop 12) + 1) * tabEntrySize
      · simp only [if_pos table] at accepted
        cases accepted
      · rw [whole_iff short possible] at table
        exact ⟨_, { tag, itemCount := rfl, possible, table := Nat.not_lt.mp table }⟩
    · rw [if_pos possible] at accepted
      cases accepted
  · rw [if_pos tag] at accepted
    cases accepted

/-- What `Unflatten` accepts is laid out as a table of rising IDs and offsets in the data. -/
theorem unflatten_eq_value_iff {ref : SIDVarArray} (short : bytes.length < 2 ^ 32) :
    unflatten bytes (UInt32.ofNat bytes.length) = .value ref ↔
      ∃ count, Framed bytes count ∧ Sorted bytes count ∧ Within bytes count ∧ ref = refOf bytes count := by
  constructor
  · intro accepted
    obtain ⟨count, framed⟩ := framed_of_unflatten short accepted
    obtain ⟨holds, fails⟩ := unflatten_framed short framed
    by_cases both : Sorted bytes count ∧ Within bytes count
    · have read := accepted.symm.trans (holds both)
      cases read
      exact ⟨count, framed, both.1, both.2, rfl⟩
    · have refused := accepted.symm.trans (fails both)
      cases refused
  · intro laid
    obtain ⟨count, framed, sorted, within, rfl⟩ := laid
    exact (unflatten_framed short framed).1 ⟨sorted, within⟩

/-! The search. -/

theorem Sorted.lt {i j : Nat} (sorted : Sorted bytes count) (before : i < j) (inside : j < count) :
    (entryAt bytes i).id < (entryAt bytes j).id := by
  induction j with
  | zero => omega
  | succ j ih =>
    have last := sorted.rising j inside
    by_cases next : i = j
    · subst next
      exact last
    · exact UInt32.lt_trans (ih (by omega) (by omega)) last

theorem Sorted.ordered (sorted : Sorted bytes count) (i j : Nat) (before : i ≤ j) (inside : j < count) :
    (entryAt bytes i).id.toNat ≤ (entryAt bytes j).id.toNat := by
  by_cases same : i = j
  · subst same
    exact Nat.le_refl _
  · exact Nat.le_of_lt (UInt32.lt_iff_toNat_lt.mp (sorted.lt (by omega) inside))

theorem offsetTabId_reads {i : UInt32} (covered : 16 + (count + 1) * 8 ≤ bytes.length) (inside : i.toNat ≤ count) :
    offsetTabId bytes i = .value (entryAt bytes i.toNat).id := by
  have entry : tabEntrySize.toNat = 8 := rfl
  have header : headerSize.toNat = 16 := rfl
  rw [offsetTabId, entry, header, u32beAt_inside (by omega)]
  rfl

theorem offsetTabOffset_reads {i : UInt32} (covered : 16 + (count + 1) * 8 ≤ bytes.length) (inside : i.toNat ≤ count) :
    offsetTabOffset bytes i = .value (entryAt bytes i.toNat).offset := by
  have entry : tabEntrySize.toNat = 8 := rfl
  have header : headerSize.toNat = 16 := rfl
  rw [offsetTabOffset, entry, header, u32beAt_inside (by omega)]
  rfl

def answer (found : Bool × Nat) : Checked Failure (Option UInt32) :=
  .value (if found.1 then some (UInt32.ofNat found.2) else none)

structure Tracks (count : Nat) (s : Cursor) (window : BinarySearch.Window Nat) : Prop where
  l : s.l.toNat = window.l
  r : s.r.toNat = window.r
  inside : window.r < count

variable {inID : UInt32}

/-- A round of the loop is a round of the search over the IDs. -/
theorem round_tracks (covered : 16 + (count + 1) * 8 ≤ bytes.length) {s : Cursor} {window : BinarySearch.Window Nat}
    (tracks : Tracks count s window) :
    (∀ next, BinarySearch.round (fun i => (entryAt bytes i).id.toNat) inID.toNat window = .again next →
      ∃ reached, round bytes inID s = .again reached ∧ Tracks count reached next) ∧
    (∀ found, BinarySearch.round (fun i => (entryAt bytes i).id.toNat) inID.toNat window = .done found →
      round bytes inID s = .done (answer found)) := by
  have inside := tracks.inside
  have sameL := tracks.l
  have sameR := tracks.r
  by_cases opened : s.l ≤ s.r
  -- Below 2^24 the sum of the indices does not wrap, so that both look at one entry.
  · have middle := Cursor.i_toNat opened
    have between := Cursor.i_inside opened
    have less := pred_toNat (Cursor.i_placed opened)
    have more := succ_toNat (Cursor.i_bounded opened)
    have id := offsetTabId_reads (i := s.i) covered (by omega)
    rw [sameL, sameR] at middle
    have order := UInt32.le_iff_toNat_le.mp opened
    rw [round, dif_pos opened, BinarySearch.round, if_pos (by omega), id, ← middle]
    dsimp only
    by_cases same : inID = (entryAt bytes s.i.toNat).id
    · rw [if_pos same, if_pos (congrArg UInt32.toNat same)]
      constructor
      · intro next again
        cases again
      · intro found done
        cases done
        rw [answer, if_pos rfl, UInt32.ofNat_toNat]
    · rw [if_neg same, if_neg fun equal => same (UInt32.toNat_inj.mp equal)]
      by_cases below : inID < (entryAt bytes s.i.toNat).id
      · rw [if_pos below, if_pos (UInt32.lt_iff_toNat_lt.mp below)]
        constructor
        · intro next again
          cases again
          exact ⟨_, rfl, sameL, less, by dsimp only; omega⟩
        · intro found done
          cases done
      · rw [if_neg below, if_neg fun less => below (UInt32.lt_iff_toNat_lt.mpr less)]
        constructor
        · intro next again
          cases again
          exact ⟨_, rfl, more, sameR, inside⟩
        · intro found done
          cases done
  · have order : ¬ s.l.toNat ≤ s.r.toNat := fun below => opened (UInt32.le_iff_toNat_le.mpr below)
    rw [round, dif_neg opened, BinarySearch.round, if_neg (by omega)]
    constructor
    · intro next again
      cases again
    · intro found done
      cases done
      rfl

theorem narrow_tracks (covered : 16 + (count + 1) * 8 ≤ bytes.length) {s : Cursor} {window : BinarySearch.Window Nat}
    (tracks : Tracks count s window) :
    narrow bytes inID s = answer (BinarySearch.narrow (fun i => (entryAt bytes i).id.toNat) inID.toNat window) := by
  apply Loop.run_simulates _ _ _ _ (Tracks count) (fun result found => result = answer found) _ _ tracks
  · intro s window next tracks again
    obtain ⟨reached, round, tracks⟩ := (round_tracks covered tracks).1 next again
    exact ⟨reached, .next round (.refl _), tracks⟩
  · intro s window found tracks done
    exact Loop.run_done _ _ ((round_tracks covered tracks).2 found done)

theorem search_eq {itemCount : UInt32} (covered : 16 + (count + 1) * 8 ≤ bytes.length) (size : itemCount.toNat = count)
    (given : itemCount ≠ 0) (possible : itemCount &&& 0xFF000000 = 0) :
    search bytes inID itemCount given possible =
      answer (BinarySearch.search (fun i => (entryAt bytes i).id.toNat) inID.toNat count) := by
  have some : count ≠ 0 := by
    intro none
    rw [none] at size
    exact given (UInt32.toNat_inj.mp size)
  have first : offsetTabId bytes 0 = .value (entryAt bytes 0).id := offsetTabId_reads covered (Nat.zero_le _)
  rw [search, first, Checked.value_bind, BinarySearch.search, if_neg some]
  by_cases same : inID = (entryAt bytes 0).id
  · rw [if_pos same, if_pos (congrArg UInt32.toNat same)]
    rfl
  · rw [if_neg same, if_neg fun equal => same (UInt32.toNat_inj.mp equal)]
    by_cases below : inID < (entryAt bytes 0).id
    · rw [if_pos below, if_pos (UInt32.lt_iff_toNat_lt.mp below)]
      rfl
    · rw [if_neg below, if_neg fun less => below (UInt32.lt_iff_toNat_lt.mpr less)]
      have last : (itemCount - 1).toNat = count - 1 := by
        rw [pred_toNat (by omega), size]
      -- With a single item the source starts its loop with `l` above `r`.
      by_cases one : count - 1 < 1
      · rw [if_pos one]
        apply Loop.run_done
        rw [round, dif_neg]
        · rfl
        · dsimp only
          rw [UInt32.not_le, UInt32.lt_iff_toNat_lt, last]
          exact one
      · rw [if_neg one]
        exact narrow_tracks covered { l := rfl, r := last, inside := by dsimp only; omega }

/-! Looking an item up. -/

theorem itemData_at {i : Nat} (sorted : Sorted bytes count) (inside : i < count) :
    itemData (layoutOf bytes count) (entryAt bytes i).id = (itemAt bytes count i).data := by
  have first : (List.range count).find? (fun j => (entryAt bytes j).id = (entryAt bytes i).id) = some i := by
    rw [List.find?_range_eq_some]
    refine ⟨decide_eq_true rfl, List.mem_range.mpr inside, ?_⟩
    intro j before
    have less := sorted.lt before inside
    simpa using UInt32.ne_of_lt less
  have found : find (layoutOf bytes count) (entryAt bytes i).id = some (itemAt bytes count i) := by
    rw [find, layoutOf, List.find?_map]
    exact congrArg (Option.map (itemAt bytes count)) first
  rw [itemData, found]

theorem itemData_none {id : UInt32} (none : ∀ i < count, (entryAt bytes i).id ≠ id) :
    itemData (layoutOf bytes count) id = [] := by
  have missing : find (layoutOf bytes count) id = Option.none := by
    rw [find, List.find?_eq_none]
    intro item inside
    obtain ⟨i, below, rfl⟩ := List.mem_map.mp inside
    exact fun same => none i (List.mem_range.mp below) (of_decide_eq_true same)
  rw [itemData, missing]

theorem getItem_searches (short : bytes.length < 2 ^ 32) (framed : Framed bytes count) (inMaxSize : UInt32)
    (items : count ≠ 0) (given : inID ≠ 0) :
    getItem bytes (UInt32.ofNat bytes.length) inID inMaxSize =
      (answer (BinarySearch.search (fun i => (entryAt bytes i).id.toNat) inID.toNat count) >>=
        fun i => i.elim (.value []) (found bytes (dataOffset bytes) (dataSize bytes) inMaxSize)) := by
  have enough : ¬ (inID = 0 ∨ UInt32.ofNat bytes.length < minDataSize) :=
    not_or.mpr ⟨given, enough_of_framed short framed⟩
  have some : readU32be (bytes.drop 12) ≠ 0 := by
    intro zero
    have size := framed.itemCount
    rw [zero] at size
    exact items size.symm
  rw [getItem, if_neg enough, format_reads framed, Checked.value_bind, if_neg (not_not.mpr rfl),
    itemCount_reads framed, Checked.value_bind, dif_neg some, dif_pos framed.possible]
  dsimp only
  rw [← dataOffset, ← dataSize, if_neg (whole_of_framed short framed), search_eq framed.table framed.itemCount]
  apply congrArg
  funext i
  cases i with
  | none => rfl
  | some i => rfl

theorem getItem_nothing (short : bytes.length < 2 ^ 32) (framed : Framed bytes count) (inMaxSize : UInt32)
    (nothing : inID = 0 ∨ count = 0) : getItem bytes (UInt32.ofNat bytes.length) inID inMaxSize = .value [] := by
  by_cases zero : inID = 0
  · rw [getItem, if_pos (.inl zero)]
    rfl
  · have none : readU32be (bytes.drop 12) = 0 :=
      UInt32.toNat_inj.mp (framed.itemCount.trans (nothing.resolve_left zero))
    rw [getItem, if_neg (not_or.mpr ⟨zero, enough_of_framed short framed⟩), format_reads framed, Checked.value_bind,
      if_neg (not_not.mpr rfl), itemCount_reads framed, Checked.value_bind, dif_pos none]
    rfl

theorem found_eq {i inMaxSize : UInt32} (short : bytes.length < 2 ^ 32) (framed : Framed bytes count)
    (ascending : Ascending bytes count) (within : Within bytes count) (inside : i.toNat < count) :
    found bytes (dataOffset bytes) (dataSize bytes) inMaxSize i =
      .value ((itemAt bytes count i.toNat).data.take inMaxSize.toNat) := by
  have bounded : count < 2 ^ 24 := framed.itemCount ▸ lt_of_possible framed.possible
  have next : (i + 1).toNat = i.toNat + 1 := succ_toNat (by omega)
  have offset := offsetTabOffset_reads framed.table (Nat.le_of_lt inside)
  have endOffset := offsetTabOffset_reads (i := i + 1) framed.table (by omega)
  rw [next] at endOffset
  have ordered := ascending i.toNat inside
  have limit := within (i.toNat + 1) inside
  have size : (dataOf bytes count).length = bytes.length - (16 + (count + 1) * 8) := List.length_drop
  have limited : ¬ dataSize bytes < (entryAt bytes (i.toNat + 1)).offset := by
    rw [UInt32.lt_iff_toNat_lt, dataSize_toNat short framed]
    exact Nat.not_lt.mpr limit
  have difference := UInt32.toNat_sub_of_le _ _ ordered
  rw [UInt32.le_iff_toNat_le] at ordered
  rw [found, offset, Checked.value_bind, endOffset, Checked.value_bind, itemAt, List.take_take]
  -- An item without data is not found, and there is nothing to read of it.
  by_cases empty : (entryAt bytes (i.toNat + 1)).offset ≤ (entryAt bytes i.toNat).offset
  · rw [if_pos (.inl empty)]
    rw [UInt32.le_iff_toNat_le] at empty
    rw [Nat.sub_eq_zero_of_le empty, Nat.min_zero, List.take_zero]
    rfl
  · have shorter : (if (entryAt bytes (i.toNat + 1)).offset - (entryAt bytes i.toNat).offset < inMaxSize then
        (entryAt bytes (i.toNat + 1)).offset - (entryAt bytes i.toNat).offset else inMaxSize).toNat =
          min inMaxSize.toNat ((entryAt bytes (i.toNat + 1)).offset.toNat - (entryAt bytes i.toNat).offset.toNat) := by
      split
      · rename_i less
        rw [UInt32.lt_iff_toNat_lt, difference] at less
        rw [difference]
        omega
      · rename_i more
        rw [UInt32.lt_iff_toNat_lt, difference] at more
        omega
    have whole := framed.table
    rw [if_neg (not_or.mpr ⟨empty, limited⟩), dataOffset_toNat framed]
    dsimp only
    rw [shorter, dataOf, List.drop_drop]
    exact if_pos (by omega)

/-- Where the IDs rise and the offsets do not fall, `GetItem` reads what the decoder's lookup finds. -/
theorem getItem_eq (short : bytes.length < 2 ^ 32) (framed : Framed bytes count) (sorted : Sorted bytes count)
    (ascending : Ascending bytes count) (within : Within bytes count) (inID inMaxSize : UInt32) :
    getItem bytes (UInt32.ofNat bytes.length) inID inMaxSize =
      .value ((itemData (layoutOf bytes count) inID).take inMaxSize.toNat) := by
  by_cases nothing : inID = 0 ∨ count = 0
  · have missing : itemData (layoutOf bytes count) inID = [] := by
      apply itemData_none
      intro i inside
      cases nothing with
      | inl zero => exact zero ▸ sorted.nonZero i inside
      | inr none => omega
    rw [getItem_nothing short framed inMaxSize nothing, missing, List.take_nil]
  · obtain ⟨given, items⟩ := not_or.mp nothing
    rw [getItem_searches short framed inMaxSize items given]
    -- The search finds an entry with the ID if there is one, and there is one at most.
    cases outcome : (BinarySearch.search (fun i => (entryAt bytes i).id.toNat) inID.toNat count).1 with
    | true =>
      obtain ⟨inside, same⟩ := BinarySearch.search_sound outcome
      have bounded : count < 2 ^ 24 := framed.itemCount ▸ lt_of_possible framed.possible
      have small : (UInt32.ofNat
          (BinarySearch.search (fun i => (entryAt bytes i).id.toNat) inID.toNat count).2).toNat = _ :=
        UInt32.toNat_ofNat_of_lt' (Nat.lt_trans inside (Nat.lt_trans bounded (by decide)))
      rw [answer, if_pos outcome, Checked.value_bind, Option.elim_some,
        found_eq short framed ascending within (by rw [small]; exact inside), small,
        ← itemData_at sorted inside, UInt32.toNat_inj.mp same]
    | false =>
      have missing : itemData (layoutOf bytes count) inID = [] := by
        apply itemData_none
        intro i inside same
        have held := BinarySearch.search_complete sorted.ordered inside (congrArg UInt32.toNat same)
        exact absurd (held.symm.trans outcome) Bool.noConfusion
      rw [answer, outcome, if_neg Bool.noConfusion, Checked.value_bind, missing, List.take_nil]
      rfl

/-! One reader refines the other. -/

theorem refOf_item {i : Nat} (ascending : Ascending bytes count) (inside : i < count) :
    (refOf bytes count).item i = itemAt bytes count i := by
  have table : (refOf bytes count).offsetTab =
      (List.range count).map (entryAt bytes) ++ [{ id := 0, offset := (entryAt bytes count).offset }] := rfl
  have entry (j : Nat) (below : j < count) : (refOf bytes count).offsetTab.getD j {} = entryAt bytes j := by
    rw [table, List.getD_eq_getElem?_getD, List.getElem?_append_left (by simpa using below), List.getElem?_map,
      List.getElem?_range below]
    rfl
  have next : ((refOf bytes count).offsetTab.getD (i + 1) {}).offset = (entryAt bytes (i + 1)).offset := by
    by_cases last : i + 1 = count
    · rw [table, List.getD_eq_getElem?_getD, List.getElem?_append_right (by simp [last]), List.length_map,
        List.length_range, last, Nat.sub_self]
      rfl
    · rw [entry (i + 1) (by omega)]
  rw [SIDVarArray.item, entry i inside, next, UInt32.toNat_sub_of_le _ _ (ascending i inside)]
  rfl

theorem refOf_items (framed : Framed bytes count) (ascending : Ascending bytes count) :
    (refOf bytes count).items = (layoutOf bytes count).items := by
  have size : (refOf bytes count).itemCount.toNat = count := framed.itemCount
  rw [SIDVarArray.items, layoutOf, size]
  apply List.map_congr_left
  intro i inside
  exact refOf_item ascending (List.mem_range.mp inside)

/-- Of the same bytes the decoder makes what the container holds, and is more lenient in the rule
for IDs only. -/
structure Refined (bytes : Bytes) : Prop where
  accepts : ∀ ref, unflatten bytes (UInt32.ofNat bytes.length) = .value ref →
    ∃ array, decode bytes = .value array ∧ array.items = ref.items ∧
      ∀ inID inMaxSize, getItem bytes (UInt32.ofNat bytes.length) inID inMaxSize =
        .value ((itemData array inID).take inMaxSize.toNat)
  lenient : ∀ array, decode bytes = .value array → (∀ ref, unflatten bytes (UInt32.ofNat bytes.length) ≠ .value ref) →
    ∃ count, Framed bytes count ∧ Within bytes count ∧ ¬ Sorted bytes count
  slices : ∀ array, decode bytes = .value array →
    ∃ count, (readU32be (bytes.drop 12)).toNat = count ∧ array.items.length = count ∧
      ∀ i < count, (entryAt bytes i).offset ≤ (entryAt bytes (i + 1)).offset ∧
        (entryAt bytes (i + 1)).offset.toNat ≤ (dataOf bytes count).length ∧
        array.items[i]? = some (itemAt bytes count i)

theorem accepts_of_ascending (short : bytes.length < 2 ^ 32)
    (ascending : ∀ count, Framed bytes count → Sorted bytes count → Within bytes count → Ascending bytes count)
    (ref : SIDVarArray) (accepted : unflatten bytes (UInt32.ofNat bytes.length) = .value ref) :
    ∃ array, decode bytes = .value array ∧ array.items = ref.items ∧
      ∀ inID inMaxSize, getItem bytes (UInt32.ofNat bytes.length) inID inMaxSize =
        .value ((itemData array inID).take inMaxSize.toNat) := by
  obtain ⟨count, framed, sorted, within, rfl⟩ := (unflatten_eq_value_iff short).mp accepted
  have climbs := ascending count framed sorted within
  refine ⟨layoutOf bytes count, ?_, (refOf_items framed climbs).symm, ?_⟩
  · exact decode_eq_value_iff.mpr ⟨count, framed, climbs, within, rfl⟩
  · exact getItem_eq short framed sorted climbs within

theorem lenient_in_ids (short : bytes.length < 2 ^ 32) (array : Ivar.Array) (accepted : decode bytes = .value array)
    (refused : ∀ ref, unflatten bytes (UInt32.ofNat bytes.length) ≠ .value ref) :
    ∃ count, Framed bytes count ∧ Within bytes count ∧ ¬ Sorted bytes count := by
  obtain ⟨count, framed, _, within, _⟩ := decode_eq_value_iff.mp accepted
  refine ⟨count, framed, within, fun sorted => ?_⟩
  exact refused _ ((unflatten_eq_value_iff short).mpr ⟨count, framed, sorted, within, rfl⟩)

theorem slices_of_decode (array : Ivar.Array) (accepted : decode bytes = .value array) :
    ∃ count, (readU32be (bytes.drop 12)).toNat = count ∧ array.items.length = count ∧
      ∀ i < count, (entryAt bytes i).offset ≤ (entryAt bytes (i + 1)).offset ∧
        (entryAt bytes (i + 1)).offset.toNat ≤ (dataOf bytes count).length ∧
        array.items[i]? = some (itemAt bytes count i) := by
  obtain ⟨count, framed, ascending, within, rfl⟩ := decode_eq_value_iff.mp accepted
  refine ⟨count, framed.itemCount, ?_, ?_⟩
  · rw [layoutOf, List.length_map, List.length_range]
  · intro i inside
    refine ⟨ascending i inside, within (i + 1) inside, ?_⟩
    rw [layoutOf, List.getElem?_map, List.getElem?_range inside]
    rfl

end

/-- `Unflatten` never moves the offset that it compares with: what it accepts the decoder accepts,
unless an offset falls. -/
theorem refined_iff (bytes : Bytes) (short : bytes.length < 2 ^ 32) :
    Refined bytes ↔
      ¬ ∃ count, Framed bytes count ∧ Sorted bytes count ∧ Within bytes count ∧ ¬ Ascending bytes count := by
  constructor
  · rintro refined ⟨count, framed, sorted, within, falls⟩
    have accepted := (unflatten_eq_value_iff short).mpr ⟨count, framed, sorted, within, rfl⟩
    obtain ⟨array, decoded, _⟩ := refined.accepts _ accepted
    -- The decoder compares each offset with the one before it.
    have refused := (decode_framed framed).2 fun both => falls both.1
    rw [refused] at decoded
    cases decoded
  · intro none
    have ascending (count : Nat) (framed : Framed bytes count) (sorted : Sorted bytes count)
        (within : Within bytes count) : Ascending bytes count := by
      by_contra falls
      exact none ⟨count, framed, sorted, within, falls⟩
    exact {
      accepts := accepts_of_ascending short ascending
      lenient := lenient_in_ids short
      slices := slices_of_decode }

/-- Items 1 and 2, of two and three bytes. -/
def twoItems : Bytes :=
  [0x49, 0x56, 0x41, 0x31, 0, 0, 0, 0, 0, 0, 0, 0, 0, 0, 0, 2,
   0, 0, 0, 1, 0, 0, 0, 0, 0, 0, 0, 2, 0, 0, 0, 2, 0, 0, 0, 0, 0, 0, 0, 5, 0x68, 0x65, 0x6C, 0x6C, 0x6F]

theorem refined_twoItems : Refined twoItems := by
  apply (refined_iff twoItems (by decide)).mpr
  rintro ⟨count, framed, _, _, falls⟩
  have two : 2 = count := framed.itemCount
  subst two
  unfold Ascending at falls
  exact falls (by decide)

/-- Items 100 and 101, of which the second begins before the first. -/
def fallingOffsets : Bytes :=
  [0x49, 0x56, 0x41, 0x31, 0, 0, 0, 0, 0, 0, 0, 0, 0, 0, 0, 2,
   0, 0, 0, 0x64, 0, 0, 0, 5, 0, 0, 0, 0x65, 0, 0, 0, 3, 0, 0, 0, 0, 0, 0, 0, 5, 0x68, 0x65, 0x6C, 0x6C, 0x6F]

theorem not_refined_fallingOffsets : fallingOffsets.length < 2 ^ 32 ∧ ¬ Refined fallingOffsets := by
  refine ⟨by decide, fun refined => ?_⟩
  have accepted : unflatten fallingOffsets (UInt32.ofNat fallingOffsets.length) = .value {
      itemCount := 2
      offsetTabAllocCount := 3
      offsetTab := [{ id := 100, offset := 5 }, { id := 101, offset := 3 }, { id := 0, offset := 5 }]
      dataHdl := [0x68, 0x65, 0x6C, 0x6C, 0x6F] } := by decide
  have refused : decode fallingOffsets = .error .offsetOutOfRange := by decide
  obtain ⟨array, decoded, _⟩ := refined.accepts _ accepted
  rw [refused] at decoded
  cases decoded

end Slopline.Legacy.UIDVarArray
