import Slopline.Legacy.IdVarItems

/-! One lemma for each operation of an ID-var-array: which items it holds afterwards.

An item in its place splits the items, the table and the data alike, and each operation works at
the place where they split.
-/

set_option autoImplicit false

namespace Slopline.Legacy.SIDVarArray

open Library

variable {slack : Nat} {items before after : List Ivar.Item} {item : Ivar.Item} {ref : SIDVarArray} {front back : Bytes}
  {spare : List SIVAOffsetTabEntry} {slot : SIVAOffsetTabEntry}

/-! The IDs. -/

theorem Rising.drop_item (rising : Rising (before ++ item :: after)) : Rising (before ++ after) := by
  have sublist : (ids (before ++ after)).Sublist (ids (before ++ item :: after)) :=
    ((List.Sublist.refl before).append (List.sublist_cons_self item after)).map _
  exact ⟨rising.rises.sublist sublist, fun zero => rising.valid (sublist.subset zero)⟩

theorem Rising.set_data (rising : Rising (before ++ item :: after)) (data : Bytes) :
    Rising (before ++ { item with data } :: after) := by
  have same : ids (before ++ { item with data } :: after) = ids (before ++ item :: after) := by simp [ids]
  exact ⟨same ▸ rising.rises, same ▸ rising.valid⟩

theorem Rising.add_item (rising : Rising (before ++ after)) (given : item.id ≠ 0)
    (below : ∀ other ∈ before, other.id < item.id) (above : ∀ other ∈ after, item.id < other.id) :
    Rising (before ++ item :: after) := by
  have split : ids (before ++ after) = ids before ++ ids after := List.map_append
  have split' : ids (before ++ item :: after) = ids before ++ item.id :: ids after := List.map_append
  obtain ⟨rises, valid⟩ := rising
  rw [split, List.pairwise_append] at rises
  rw [split, List.mem_append, not_or] at valid
  obtain ⟨first, last, across⟩ := rises
  have smaller : ∀ id ∈ ids before, id < item.id := List.forall_mem_map.mpr below
  have greater : ∀ id ∈ ids after, item.id < id := List.forall_mem_map.mpr above
  constructor
  · rw [split', List.pairwise_append]
    refine ⟨first, List.pairwise_cons.mpr ⟨greater, last⟩, fun id member id' member' => ?_⟩
    cases member' with
    | head => exact smaller id member
    | tail _ behind => exact across id member id' behind
  · rw [split', List.mem_append, List.mem_cons]
    rintro (zero | zero | zero)
    · exact valid.1 zero
    · exact given zero.symm
    · exact valid.2 zero

theorem not_mem_ids {id : UInt32} (below : ∀ item ∈ before, item.id < id) (above : ∀ item ∈ after, id < item.id) :
    id ∉ ids (before ++ after) := by
  simp only [ids, List.mem_map, List.mem_append]
  rintro ⟨item, member | member, rfl⟩
  · exact UInt32.lt_irrefl _ (below item member)
  · exact UInt32.lt_irrefl _ (above item member)

/-! Where the parts of the array split at an item. -/

theorem tableOf_head (base : Nat) (items : List Ivar.Item) :
    ∃ id rest, tableOf base items = { id, offset := UInt32.ofNat base } :: rest := by
  cases items with
  | nil => exact ⟨0, [], rfl⟩
  | cons item items => exact ⟨item.id, _, tableOf_cons base item items⟩

theorem Laid.split_data (laid : Laid front back spare (before ++ item :: after) ref) :
    ref.dataHdl = (front ++ blob before) ++ (item.data ++ (blob after ++ back)) := by
  rw [laid.data, blob_append, blob_cons]
  simp only [List.append_assoc]

theorem Laid.split_table (laid : Laid front back spare (before ++ item :: after) ref) :
    ref.offsetTab = entriesOf front.length before ++
      { id := item.id, offset := UInt32.ofNat (front.length + (blob before).length) } ::
        (tableOf (front.length + (blob before).length + item.data.length) after ++ spare) := by
  rw [laid.table, tableOf_append, tableOf_cons, List.append_assoc, List.cons_append]

theorem extent_eq (laid : Laid front back spare (before ++ item :: after) ref)
    (small : ref.dataHdl.length < 2 ^ 32) :
    ref.extent before.length = .value ((front ++ blob before).length, UInt32.ofNat item.data.length) := by
  obtain ⟨id, rest, head⟩ := tableOf_head (front.length + (blob before).length + item.data.length) after
  have table := laid.split_table
  rw [head, List.cons_append] at table
  have entry : Span.element before.length ref.offsetTab =
      Checked.value (ε := Empty) ⟨item.id, UInt32.ofNat (front.length + (blob before).length)⟩ := by
    rw [table]
    exact element_at _ (length_entriesOf ..).symm
  have behind : Span.element (before.length + 1) ref.offsetTab = Checked.value (ε := Empty)
      ⟨id, UInt32.ofNat (front.length + (blob before).length + item.data.length)⟩ := by
    rw [table, List.append_cons]
    exact element_at _ (by simp)
  have size : (front ++ blob before).length < 2 ^ 32 := by
    rw [laid.split_data, List.length_append] at small
    omega
  rw [List.length_append] at size
  rw [extent, entry, Checked.value_bind, behind, Checked.value_bind]
  have difference := sub_moves 0 (front.length + (blob before).length) item.data.length
  rw [Nat.zero_add, Nat.zero_add] at difference
  simp only [Checked.pure_eq, UInt32.toNat_ofNat_of_lt' size, List.length_append, difference]

theorem Laid.size_lt (laid : Laid front back spare (before ++ item :: after) ref)
    (small : ref.dataHdl.length < 2 ^ 32) : item.data.length < 2 ^ 32 := by
  rw [laid.split_data] at small
  simp only [List.length_append] at small
  omega

theorem Holds.spread (holds : Holds slack items ref) (laid : Laid front back spare items ref) :
    front.length + back.length = slack := by
  have size := holds.size
  rw [laid.data] at size
  simp only [List.length_append] at size
  omega

theorem Holds.laid_at (holds : Holds slack (before ++ item :: after) ref) :
    ∃ front back spare, Laid front back spare (before ++ item :: after) ref :=
  holds.laid_of_ne_nil (by simp)

/-! `SetItem`. -/

theorem resize_moves {old new : Nat} (oldFits : old < 2 ^ 32) (newFits : new < 2 ^ 32) (base : Nat) :
    (UInt32.ofNat old < UInt32.ofNat new → ∀ more, UInt32.ofNat (base + old + more) +
      (UInt32.ofNat new - UInt32.ofNat old) = UInt32.ofNat (base + new + more)) ∧
    (UInt32.ofNat new < UInt32.ofNat old → ∀ more, UInt32.ofNat (base + old + more) -
      (UInt32.ofNat old - UInt32.ofNat new) = UInt32.ofNat (base + new + more)) := by
  rw [UInt32.lt_iff_toNat_lt, UInt32.lt_iff_toNat_lt, UInt32.toNat_ofNat_of_lt' oldFits,
    UInt32.toNat_ofNat_of_lt' newFits]
  constructor
  · intro grows more
    rw [← UInt32.ofNat_sub (Nat.le_of_lt grows), ← UInt32.ofNat_add]
    congr 1
    omega
  · intro shrinks more
    rw [← UInt32.ofNat_sub (Nat.le_of_lt shrinks), ← UInt32.ofNat_sub (by omega)]
    congr 1
    omega

theorem moveOffsets_laid (laid : Laid front back spare (before ++ item :: after) ref) {move : UInt32 → UInt32}
    {size : Nat} (moves : ∀ more, move (UInt32.ofNat (front.length + (blob before).length + item.data.length + more)) =
      UInt32.ofNat (front.length + (blob before).length + size + more)) :
    moveOffsets move (after.length + 1) (before.length + 1) ref.offsetTab =
      .value (entriesOf front.length before ++ ⟨item.id, UInt32.ofNat (front.length + (blob before).length)⟩ ::
        (tableOf (front.length + (blob before).length + size) after ++ spare)) := by
  have loop := moveOffsets_eq (entriesOf front.length before ++
    [⟨item.id, UInt32.ofNat (front.length + (blob before).length)⟩]) spare move
    (tableOf (front.length + (blob before).length + item.data.length) after) (i := before.length + 1) (by simp)
  rw [length_tableOf, ← List.append_cons, ← laid.split_table, tableOf_moved moves, ← List.append_cons] at loop
  exact loop

theorem offsets_laid {β : Type} (laid : Laid front back spare (before ++ item :: after) ref)
    (oldFits : item.data.length < 2 ^ 32) {data : Bytes} (newFits : data.length < 2 ^ 32)
    (rest : List SIVAOffsetTabEntry → Checked Empty β) :
    (if UInt32.ofNat data.length = UInt32.ofNat item.data.length then pure ref.offsetTab >>= rest
      else if UInt32.ofNat item.data.length < UInt32.ofNat data.length then
        moveOffsets (· + (UInt32.ofNat data.length - UInt32.ofNat item.data.length)) (after.length + 1)
          (before.length + 1) ref.offsetTab >>= rest
      else
        moveOffsets (· - (UInt32.ofNat item.data.length - UInt32.ofNat data.length)) (after.length + 1)
          (before.length + 1) ref.offsetTab >>= rest) =
      rest (tableOf front.length (before ++ { item with data } :: after) ++ spare) := by
  have table : tableOf front.length (before ++ { item with data } :: after) ++ spare =
      entriesOf front.length before ++ ⟨item.id, UInt32.ofNat (front.length + (blob before).length)⟩ ::
        (tableOf (front.length + (blob before).length + data.length) after ++ spare) := by
    rw [tableOf_append, tableOf_cons, List.append_assoc, List.cons_append]
  obtain ⟨grows, shrinks⟩ := resize_moves oldFits newFits (front.length + (blob before).length)
  by_cases equal : UInt32.ofNat data.length = UInt32.ofNat item.data.length
  · have sizes : data.length = item.data.length := by
      have sizes := congrArg UInt32.toNat equal
      rwa [UInt32.toNat_ofNat_of_lt' newFits, UInt32.toNat_ofNat_of_lt' oldFits] at sizes
    rw [if_pos equal, table, sizes, ← laid.split_table]
    rfl
  · rw [if_neg equal, table]
    by_cases more : UInt32.ofNat item.data.length < UInt32.ofNat data.length
    · rw [if_pos more, moveOffsets_laid laid (grows more), Checked.value_bind]
    · have less : UInt32.ofNat data.length < UInt32.ofNat item.data.length :=
        UInt32.lt_of_le_of_ne (UInt32.not_lt.mp more) equal
      rw [if_neg more, moveOffsets_laid laid (shrinks less), Checked.value_bind]

theorem Holds.set_data (holds : Holds slack (before ++ item :: after) ref)
    (laid : Laid front back spare (before ++ item :: after) ref) (data : Bytes)
    (fits : slack + (blob (before ++ { item with data } :: after)).length < 2 ^ 32) :
    Holds slack (before ++ { item with data } :: after) { ref with
      offsetTab := tableOf front.length (before ++ { item with data } :: after) ++ spare
      dataHdl := (front ++ blob before) ++ (data ++ (blob after ++ back)) } where
  laid := .inr ⟨front, back, spare, rfl, by simp⟩
  count := by simpa using holds.count
  alloc := by
    have alloc := holds.alloc
    rw [laid.table] at alloc
    simpa using alloc
  room := holds.room
  rising := holds.rising.set_data data
  size := by
    have size := holds.size
    rw [laid.split_data] at size
    simp only [blob_append, blob_cons, List.length_append] at size ⊢
    omega
  small := fits
  cached some := by
    have same : ids (before ++ { item with data } :: after) = ids (before ++ item :: after) := by simp [ids]
    rw [same]
    exact holds.cached some

theorem setItem_spec (holds : Holds slack items ref) (memory : Memory) (inID : UInt32) (data : Bytes)
    (fits : ∀ before item after, items = before ++ item :: after → item.id = inID →
      slack + (blob (before ++ { item with data } :: after)).length < 2 ^ 32) :
    ∃ reply ref', ref.setItem memory inID data = .value (reply, ref') ∧
      ((∃ before item after, items = before ++ item :: after ∧ item.id = inID ∧ reply = .ok () ∧
          Holds slack (before ++ { item with data } :: after) ref') ∨
        inID ∉ ids items ∧ reply = .error .noSuchItem ∧ Holds slack items ref') := by
  obtain ⟨answer, ref₁, searches, place, holds⟩ := searchItemList_spec holds inID
  unfold setItem
  rw [searches, Checked.value_bind]
  cases place with
  | here before item after split id =>
    subst split
    obtain ⟨front, back, spare, laid⟩ := holds.laid_at
    have oldFits := laid.size_lt holds.fits
    have newSmall := fits before item after rfl id
    have newFits : data.length < 2 ^ 32 := by
      simp only [blob_append, blob_cons, List.length_append] at newSmall
      omega
    have spread := holds.spread laid
    have replaced : memory.data.replace (front ++ blob before).length (UInt32.ofNat item.data.length).toNat data
        ref₁.dataHdl = Checked.value (ε := Empty) ((front ++ blob before) ++ (data ++ (blob after ++ back))) := by
      rw [laid.split_data]
      refine memory.data.replace_at item.data data rfl (UInt32.toNat_ofNat_of_lt' oldFits) ?_
      simp only [blob_append, blob_cons, List.length_append] at newSmall ⊢
      omega
    have loops : ref₁.itemCount.toNat + 1 - (before.length + 1) = after.length + 1 := by
      rw [holds.count]
      simp only [List.length_append, List.length_cons]
      omega
    simp only [if_true, extent_eq laid holds.fits, Checked.value_bind, replaced, loops]
    exact ⟨_, _, offsets_laid laid oldFits newFits _,
      .inl ⟨before, item, after, rfl, id, rfl, holds.set_data laid data newSmall⟩⟩
  | missing before after split below above =>
    exact ⟨_, ref₁, rfl, .inr ⟨split ▸ not_mem_ids below above, rfl, holds⟩⟩

/-! `AddItem`. -/

theorem entryCount_eq {nac : UInt32} (fits : nac.toNat < 2 ^ 29) : entryCount nac = nac.toNat := by
  rw [entryCount, UInt32.toNat_mul, show UIDVarArray.tabEntrySize.toNat = 8 from rfl, Nat.mod_eq_of_lt (by omega)]
  exact Nat.mul_div_cancel _ (by decide)

/-- A table made longer or shorter, the entries of the items and the extra one staying in it. -/
theorem Holds.reallocate (holds : Holds slack items ref) (laid : Laid front back spare items ref)
    (memory : Memory) (nac : UInt32) (room : nac.toNat < 2 ^ 29) (enough : items.length + 1 ≤ nac.toNat) :
    ∃ spare', spare'.length = nac.toNat - (items.length + 1) ∧
      Laid front back spare' items { ref with
        offsetTab := memory.table.reallocate (entryCount nac) ref.offsetTab, offsetTabAllocCount := nac } ∧
      Holds slack items { ref with
        offsetTab := memory.table.reallocate (entryCount nac) ref.offsetTab, offsetTabAllocCount := nac } := by
  have kept : (tableOf front.length items).length ≤ nac.toNat := by rwa [length_tableOf]
  obtain ⟨spare', table, length⟩ := memory.table.reallocate_append spare kept
  rw [length_tableOf] at length
  rw [← laid.table] at table
  rw [entryCount_eq room]
  have laid' : Laid front back spare' items { ref with
      offsetTab := memory.table.reallocate nac.toNat ref.offsetTab, offsetTabAllocCount := nac } := ⟨table, laid.data⟩
  exact ⟨spare', length, laid', .inr ⟨front, back, spare', laid'⟩, holds.count, (memory.table.length_reallocate ..).symm,
    room, holds.rising, holds.size, holds.small, holds.cached⟩

theorem new_table (memory : Memory) :
    ∃ slot spare, spare.length = 6 ∧ (memory.table.new 8).set 0 { id := 0, offset := 0 } = ⟨0, 0⟩ :: slot :: spare := by
  have eight := memory.table.length_new 8
  obtain ⟨first, rest, new⟩ := List.exists_cons_of_length_pos (l := memory.table.new 8) (by omega)
  rw [new, List.length_cons] at eight
  obtain ⟨slot, spare, rfl⟩ := List.exists_cons_of_length_pos (l := rest) (by omega)
  rw [List.length_cons] at eight
  exact ⟨slot, spare, by omega, by rw [new, List.set_cons_zero]⟩

/-- The table has room for one more entry. -/
theorem Holds.makeRoom (holds : Holds slack items ref) (memory : Memory) (fits : items.length + 13 ≤ 2 ^ 29) :
    ∃ front back slot spare, Laid front back (slot :: spare) items (ref.makeRoom memory) ∧
      Holds slack items (ref.makeRoom memory) := by
  unfold SIDVarArray.makeRoom
  rcases holds.laid with ⟨none, noTable, noData⟩ | ⟨front, back, spare, laid⟩
  · subst none
    rw [if_pos (by simp [noTable])]
    obtain ⟨slot, spare, six, new⟩ := new_table memory
    rw [new]
    have laid : Laid [] [] (slot :: spare) [] { ref with
        offsetTab := ⟨0, 0⟩ :: slot :: spare, offsetTabAllocCount := 8 } := ⟨rfl, noData⟩
    have room : (8 : UInt32).toNat < 2 ^ 29 := by decide
    have alloc : (8 : UInt32).toNat = (⟨0, 0⟩ :: slot :: spare : List SIVAOffsetTabEntry).length := by
      rw [List.length_cons, List.length_cons, six]
      rfl
    exact ⟨_, _, _, _, laid, .inr ⟨_, _, _, laid⟩, holds.count, alloc, room, holds.rising, holds.size, holds.small,
      holds.cached⟩
  · have alloc := holds.alloc
    have room := holds.room
    have length : ref.offsetTab.length = items.length + 1 + spare.length := by rw [laid.table]; simp
    rw [if_neg (by rw [laid.table]; simp [tableOf])]
    have two : (ref.itemCount + 2).toNat = items.length + 2 := by
      rw [UInt32.toNat_add, holds.count, show (2 : UInt32).toNat = 2 from rfl]
      exact Nat.mod_eq_of_lt (by omega)
    by_cases full : ref.offsetTabAllocCount < ref.itemCount + 2
    · rw [if_pos full]
      rw [UInt32.lt_iff_toNat_lt] at full
      have four : (ref.offsetTabAllocCount + 4).toNat = ref.offsetTabAllocCount.toNat + 4 := by
        rw [UInt32.toNat_add, show (4 : UInt32).toNat = 4 from rfl]
        exact Nat.mod_eq_of_lt (by omega)
      have rounded := toNat_roundUp8 (show (ref.offsetTabAllocCount + 4).toNat + 7 < 2 ^ 32 by omega)
      obtain ⟨spare', left, laid', holds'⟩ := holds.reallocate laid memory
        (roundUp8 (ref.offsetTabAllocCount + 4)) (by omega) (by omega)
      obtain ⟨slot, more, rfl⟩ := List.exists_cons_of_length_pos (l := spare') (by omega)
      exact ⟨front, back, slot, more, laid', holds'⟩
    · rw [if_neg full]
      rw [UInt32.not_lt, UInt32.le_iff_toNat_le] at full
      obtain ⟨slot, more, rfl⟩ := List.exists_cons_of_length_pos (l := spare) (by omega)
      exact ⟨front, back, slot, more, laid, holds⟩

theorem cached_add {id : UInt32} {i : Nat} (cached : (ids (before ++ after))[i]? = some id) (item : Ivar.Item) :
    (ids (before ++ item :: after))[if before.length ≤ i then i + 1 else i]? = some id := by
  have split : ids (before ++ after) = ids before ++ ids after := List.map_append
  have split' : ids (before ++ item :: after) = ids before ++ item.id :: ids after := List.map_append
  have length : (ids before).length = before.length := List.length_map _
  rw [split] at cached
  rw [split']
  by_cases behind : before.length ≤ i
  · rw [if_pos behind, List.getElem?_append_right (by omega), length, Nat.succ_sub behind, List.getElem?_cons_succ]
    rwa [List.getElem?_append_right (by omega), length] at cached
  · rw [if_neg behind, List.getElem?_append_left (by omega)]
    rwa [List.getElem?_append_left (by omega)] at cached

/-- The table with one more item, its last entry taken from what is spare. -/
theorem openGap_laid (laid : Laid front back (slot :: spare) (before ++ after) ref) (size : Nat) {count : Nat}
    (counted : count = before.length + after.length + 1) :
    ∃ id, openGap (UInt32.ofNat size) (count - before.length) count ref.offsetTab =
      .value (entriesOf front.length before ++ ⟨id, UInt32.ofNat (front.length + (blob before).length)⟩ ::
        (tableOf (front.length + (blob before).length + size) after ++ spare)) := by
  obtain ⟨id, rest, head⟩ := tableOf_head (front.length + (blob before).length) after
  have loop := openGap_eq (entriesOf front.length before) spare (UInt32.ofNat size)
    (tableOf (front.length + (blob before).length) after) slot
  have moves := add_moves (front.length + (blob before).length) size
  rw [tableOf_moved moves, ← List.append_assoc, ← tableOf_append, ← laid.table, length_tableOf, length_entriesOf, head,
    List.headD_cons] at loop
  refine ⟨id, ?_⟩
  rw [counted, show before.length + after.length + 1 - before.length = after.length + 1 by omega, Nat.add_assoc]
  exact loop

theorem cached_moves {id index : UInt32} (cached : id ≠ 0 → (ids (before ++ after))[index.toNat]? = some id)
    (small : (before ++ after).length + 1 < 2 ^ 32) (item : Ivar.Item) :
    id ≠ 0 → (ids (before ++ item :: after))[(if id ≠ 0 ∧ before.length ≤ index.toNat then index + 1
      else index).toNat]? = some id := by
  intro some
  have kept := cached_add (cached some) item
  obtain ⟨inside, -⟩ := List.getElem?_eq_some_iff.mp (cached some)
  rw [ids, List.length_map] at inside
  by_cases behind : before.length ≤ index.toNat
  · rw [if_pos behind] at kept
    rw [if_pos ⟨some, behind⟩, UInt32.toNat_add, UInt32.toNat_one, Nat.mod_eq_of_lt (by omega)]
    exact kept
  · rw [if_neg behind] at kept
    rw [if_neg fun both => behind both.2]
    exact kept

theorem insert_data (memory : Memory) (laid : Laid front back spare (before ++ after) ref) (data : Bytes)
    (fits : ref.dataHdl.length + data.length < 2 ^ 32) :
    memory.data.insert (UInt32.ofNat (front.length + (blob before).length)).toNat data ref.dataHdl =
      .value ((front ++ blob before) ++ (data ++ (blob after ++ back))) := by
  have split : ref.dataHdl = (front ++ blob before) ++ ([] ++ (blob after ++ back)) := by
    rw [laid.data, blob_append]
    simp only [List.append_assoc, List.nil_append]
  rw [split] at fits ⊢
  simp only [List.length_append, List.length_nil] at fits
  have begins : front.length + (blob before).length < 2 ^ 32 := by omega
  refine memory.data.replace_at [] data (by rw [UInt32.toNat_ofNat_of_lt' begins, List.length_append]) rfl ?_
  simp only [List.length_append]
  omega

theorem Holds.add_item (holds : Holds slack (before ++ after) ref)
    (laid : Laid front back (slot :: spare) (before ++ after) ref) (rising : Rising (before ++ item :: after))
    (fits : slack + (blob (before ++ item :: after)).length < 2 ^ 32)
    (room : (before ++ item :: after).length < 2 ^ 32) :
    Holds slack (before ++ item :: after) { ref with
      itemCount := ref.itemCount + 1
      offsetTab := tableOf front.length (before ++ item :: after) ++ spare
      dataHdl := (front ++ blob before) ++ (item.data ++ (blob after ++ back))
      lastSearchIndex := if ref.lastSearchID ≠ 0 ∧ before.length ≤ ref.lastSearchIndex.toNat then
        ref.lastSearchIndex + 1 else ref.lastSearchIndex } where
  laid := .inr ⟨front, back, spare, rfl, by simp⟩
  count := by
    have one : (before ++ item :: after).length = (before ++ after).length + 1 := by simp [Nat.add_assoc]
    rw [UInt32.toNat_add, holds.count, UInt32.toNat_one, ← one]
    exact Nat.mod_eq_of_lt room
  alloc := by
    have alloc := holds.alloc
    rw [laid.table] at alloc
    simp only [List.length_append, length_tableOf, List.length_cons] at alloc ⊢
    omega
  room := holds.room
  rising := rising
  size := by
    have spread := holds.spread laid
    simp only [blob_append, blob_cons, List.length_append]
    omega
  small := fits
  cached := by
    refine cached_moves holds.cached ?_ item
    simpa [Nat.add_assoc] using room

theorem Holds.insertItem (holds : Holds slack (before ++ after) ref) (memory : Memory) (item : Ivar.Item)
    (rising : Rising (before ++ item :: after)) (fits : slack + (blob (before ++ item :: after)).length < 2 ^ 32)
    (room : (before ++ item :: after).length + 12 ≤ 2 ^ 29) :
    ∃ ref', ref.insertItem memory item.id item.data before.length = .value ref' ∧
      Holds slack (before ++ item :: after) ref' := by
  have length : (before ++ item :: after).length = (before ++ after).length + 1 := by simp [Nat.add_assoc]
  obtain ⟨front, back, slot, spare, laid, holds⟩ := holds.makeRoom memory (by omega)
  rw [SIDVarArray.insertItem]
  generalize ref.makeRoom memory = ref at laid holds
  -- Where the new item's data begins, the data of those behind it began.
  obtain ⟨id, rest, head⟩ := tableOf_head (front.length + (blob before).length) after
  have entry : Span.element before.length ref.offsetTab = Checked.value (ε := Empty)
      ⟨id, UInt32.ofNat (front.length + (blob before).length)⟩ := by
    rw [laid.table, tableOf_append, head, List.append_assoc, List.cons_append]
    exact element_at _ (length_entriesOf ..).symm
  have inserted := insert_data memory laid item.data (by
    rw [holds.size]
    simp only [blob_append, blob_cons, List.length_append] at fits ⊢
    omega)
  have kept := holds.add_item laid rising fits (by omega)
  have count : (ref.itemCount + 1).toNat = before.length + after.length + 1 := by
    rw [kept.count, length, List.length_append]
  -- The entry for the new item has been left with the ID of the one behind it.
  obtain ⟨left, opened⟩ := openGap_laid laid item.data.length count
  have named : Span.element before.length (entriesOf front.length before ++
      ⟨left, UInt32.ofNat (front.length + (blob before).length)⟩ ::
        (tableOf (front.length + (blob before).length + item.data.length) after ++ spare)) =
      Checked.value (ε := Empty) ⟨left, UInt32.ofNat (front.length + (blob before).length)⟩ :=
    element_at _ (length_entriesOf ..).symm
  have stored : Span.store before.length ⟨item.id, UInt32.ofNat (front.length + (blob before).length)⟩
      (entriesOf front.length before ++ ⟨left, UInt32.ofNat (front.length + (blob before).length)⟩ ::
        (tableOf (front.length + (blob before).length + item.data.length) after ++ spare)) =
      Checked.value (ε := Empty) (tableOf front.length (before ++ item :: after) ++ spare) := by
    rw [tableOf_append, tableOf_cons, List.append_assoc, List.cons_append]
    exact store_at _ _ (length_entriesOf ..).symm
  simp only [entry, Checked.value_bind, inserted, opened, named, stored]
  exact ⟨_, rfl, kept⟩

/-! `RemoveItem`. -/

theorem closeGap_laid (laid : Laid front back spare (before ++ item :: after) ref) :
    ∃ left, closeGap (UInt32.ofNat item.data.length) (after.length + 1) before.length ref.offsetTab =
      .value (tableOf front.length (before ++ after) ++ left :: spare) := by
  obtain ⟨left, loop⟩ := closeGap_eq (entriesOf front.length before) spare
    (UInt32.ofNat item.data.length) ⟨item.id, UInt32.ofNat (front.length + (blob before).length)⟩
    (tableOf (front.length + (blob before).length + item.data.length) after) (i := before.length)
    (length_entriesOf ..).symm
  have moves := sub_moves (front.length + (blob before).length) item.data.length
  rw [length_tableOf, ← laid.split_table, tableOf_moved moves, ← List.append_assoc, ← tableOf_append] at loop
  exact ⟨left, loop⟩

section

variable (i : Nat) (ref : SIDVarArray)

@[simp] theorem forget_itemCount : (forget i ref).itemCount = ref.itemCount := by
  unfold forget
  split_ifs <;> rfl

@[simp] theorem forget_offsetTabAllocCount : (forget i ref).offsetTabAllocCount = ref.offsetTabAllocCount := by
  unfold forget
  split_ifs <;> rfl

@[simp] theorem forget_offsetTab : (forget i ref).offsetTab = ref.offsetTab := by
  unfold forget
  split_ifs <;> rfl

@[simp] theorem forget_dataHdl : (forget i ref).dataHdl = ref.dataHdl := by
  unfold forget
  split_ifs <;> rfl

end

theorem cached_forget
    (cached : ref.lastSearchID ≠ 0 →
      (ids (before ++ item :: after))[ref.lastSearchIndex.toNat]? = some ref.lastSearchID) :
    (forget before.length ref).lastSearchID ≠ 0 →
      (ids (before ++ after))[(forget before.length ref).lastSearchIndex.toNat]? =
        some (forget before.length ref).lastSearchID := by
  have split : ids (before ++ after) = ids before ++ ids after := List.map_append
  have split' : ids (before ++ item :: after) = ids before ++ item.id :: ids after := List.map_append
  have length : (ids before).length = before.length := List.length_map _
  rw [split]
  rw [split'] at cached
  unfold forget
  by_cases none : ref.lastSearchID = 0
  · rw [if_pos none]
    exact fun some => absurd none some
  · rw [if_neg none]
    have kept := cached none
    by_cases same : ref.lastSearchIndex.toNat = before.length
    · rw [if_pos same]
      exact fun some => absurd rfl some
    · rw [if_neg same]
      by_cases behind : before.length < ref.lastSearchIndex.toNat
      · rw [if_pos behind]
        rintro -
        obtain ⟨next, index⟩ : ∃ next, ref.lastSearchIndex.toNat = next + 1 := Nat.exists_eq_succ_of_ne_zero (by omega)
        have one : (ref.lastSearchIndex - 1).toNat = next := by
          rw [UInt32.toNat_sub_of_le _ _ (UInt32.le_iff_toNat_le.mpr (by rw [UInt32.toNat_one]; omega)), index,
            UInt32.toNat_one, Nat.add_sub_cancel]
        rw [index, List.getElem?_append_right (by omega), length, Nat.succ_sub (by omega),
          List.getElem?_cons_succ] at kept
        dsimp only
        rw [one, List.getElem?_append_right (by omega), length]
        exact kept
      · rw [if_neg behind]
        rintro -
        rw [List.getElem?_append_left (by omega)] at kept ⊢
        exact kept

theorem Holds.giveRoom (holds : Holds slack items ref) (laid : Laid front back spare items ref)
    (memory : Memory) : Holds slack items (ref.giveRoom memory) := by
  have alloc := holds.alloc
  have room := holds.room
  have count := holds.count
  rw [laid.table, List.length_append, length_tableOf] at alloc
  unfold SIDVarArray.giveRoom
  by_cases wasted : 32 < ref.offsetTabAllocCount - ref.itemCount
  · rw [if_pos wasted]
    rw [UInt32.lt_iff_toNat_lt, UInt32.toNat_sub_of_le _ _ (UInt32.le_iff_toNat_le.mpr (by omega)),
      show (32 : UInt32).toNat = 32 from rfl] at wasted
    have four : (ref.itemCount + 4).toNat = ref.itemCount.toNat + 4 := by
      rw [UInt32.toNat_add, show (4 : UInt32).toNat = 4 from rfl]
      exact Nat.mod_eq_of_lt (by omega)
    have rounded := toNat_roundUp4 (show (ref.itemCount + 4).toNat + 3 < 2 ^ 32 by omega)
    obtain ⟨spare', left, laid', holds'⟩ := holds.reallocate laid memory (roundUp4 (ref.itemCount + 4)) (by omega)
      (by omega)
    exact holds'
  · rw [if_neg wasted]
    exact holds

theorem Holds.forget_item (holds : Holds slack (before ++ item :: after) ref)
    (laid : Laid front back spare (before ++ item :: after) ref) (left : SIVAOffsetTabEntry) :
    Laid front back (left :: spare) (before ++ after) (forget before.length { ref with
      dataHdl := (front ++ blob before) ++ ([] ++ (blob after ++ back))
      offsetTab := tableOf front.length (before ++ after) ++ left :: spare
      itemCount := ref.itemCount - 1 }) ∧
    Holds slack (before ++ after) (forget before.length { ref with
      dataHdl := (front ++ blob before) ++ ([] ++ (blob after ++ back))
      offsetTab := tableOf front.length (before ++ after) ++ left :: spare
      itemCount := ref.itemCount - 1 }) := by
  have laid' : Laid front back (left :: spare) (before ++ after) (forget before.length { ref with
      dataHdl := (front ++ blob before) ++ ([] ++ (blob after ++ back))
      offsetTab := tableOf front.length (before ++ after) ++ left :: spare
      itemCount := ref.itemCount - 1 }) := ⟨by simp, by simp⟩
  have count := holds.count
  have size := holds.size
  have small := holds.small
  rw [List.length_append, List.length_cons] at count
  rw [laid.split_data] at size
  simp only [blob_append, blob_cons, List.length_append] at size small
  refine ⟨laid', .inr ⟨_, _, _, laid'⟩, ?_, ?_, ?_, holds.rising.drop_item, ?_, ?_, cached_forget holds.cached⟩
  · rw [forget_itemCount, UInt32.toNat_sub_of_le _ _ (UInt32.le_iff_toNat_le.mpr (by rw [UInt32.toNat_one]; omega)),
      UInt32.toNat_one, count, List.length_append]
    omega
  · have alloc := holds.alloc
    rw [laid.table] at alloc
    rw [forget_offsetTabAllocCount, forget_offsetTab, alloc]
    simp only [List.length_append, length_tableOf, List.length_cons]
    omega
  · rw [forget_offsetTabAllocCount]
    exact holds.room
  · rw [forget_dataHdl]
    simp only [blob_append, List.length_append, List.length_nil]
    omega
  · simp only [blob_append, List.length_append]
    omega

theorem removeItem_spec (holds : Holds slack items ref) (memory : Memory) (inID : UInt32) :
    ∃ ref', ref.removeItem memory inID = .value (.ok (), ref') ∧
      ((∃ before item after, items = before ++ item :: after ∧ item.id = inID ∧ Holds slack (before ++ after) ref') ∨
        inID ∉ ids items ∧ Holds slack items ref') := by
  obtain ⟨answer, ref₁, searches, place, holds⟩ := searchItemList_spec holds inID
  unfold removeItem
  rw [searches, Checked.value_bind]
  cases place with
  | here before item after split id =>
    subst split
    obtain ⟨front, back, spare, laid⟩ := holds.laid_at
    have removed : memory.data.remove (front ++ blob before).length (UInt32.ofNat item.data.length).toNat ref₁.dataHdl =
        Checked.value (ε := Empty) ((front ++ blob before) ++ ([] ++ (blob after ++ back))) := by
      have fits := holds.fits
      rw [laid.split_data] at fits ⊢
      refine memory.data.replace_at item.data [] rfl (UInt32.toNat_ofNat_of_lt' (laid.size_lt holds.fits)) ?_
      simp only [List.length_append, List.length_nil] at fits ⊢
      omega
    have loops : ref₁.itemCount.toNat - before.length = after.length + 1 := by
      rw [holds.count]
      simp only [List.length_append, List.length_cons]
      omega
    obtain ⟨left, closed⟩ := closeGap_laid laid
    obtain ⟨laid', holds'⟩ := holds.forget_item laid left
    simp only [if_true, extent_eq laid holds.fits, Checked.value_bind, removed, loops, closed]
    exact ⟨_, rfl, .inl ⟨before, item, after, rfl, id, holds'.giveRoom laid' memory⟩⟩
  | missing before after split below above =>
    exact ⟨ref₁, rfl, .inr ⟨split ▸ not_mem_ids below above, holds⟩⟩

end Slopline.Legacy.SIDVarArray
