import Slopline.Legacy.IdVarTable

/-! The items an ID-var-array holds, in the order of their IDs, and what its operations do to them.

An array holds items if its table is theirs, its data is theirs up to what lies in front of and
behind it, and the search result it keeps is right.
-/

set_option autoImplicit false

namespace Slopline.Legacy.SIDVarArray

open Library

/-- The table and the data of items, `front` and `back` being bytes that belong to none of them. -/
structure Laid (front back : Bytes) (spare : List SIVAOffsetTabEntry) (items : List Ivar.Item) (ref : SIDVarArray) :
    Prop where
  table : ref.offsetTab = tableOf front.length items ++ spare
  data : ref.dataHdl = front ++ (blob items ++ back)

def ids (items : List Ivar.Item) : List UInt32 := items.map Ivar.Item.id

structure Rising (items : List Ivar.Item) : Prop where
  rises : (ids items).Pairwise (· < ·)
  valid : 0 ∉ ids items

/-- So many bytes belong to no item. The offsets are `Uint32`s, and so is the size of the table. -/
structure Holds (slack : Nat) (items : List Ivar.Item) (ref : SIDVarArray) : Prop where
  laid : items = [] ∧ ref.offsetTab = [] ∧ ref.dataHdl = [] ∨ ∃ front back spare, Laid front back spare items ref
  count : ref.itemCount.toNat = items.length
  alloc : ref.offsetTabAllocCount.toNat = ref.offsetTab.length
  room : ref.offsetTabAllocCount.toNat < 2 ^ 29
  rising : Rising items
  size : ref.dataHdl.length = slack + (blob items).length
  small : slack + (blob items).length < 2 ^ 32
  cached : ref.lastSearchID ≠ 0 → (ids items)[ref.lastSearchIndex.toNat]? = some ref.lastSearchID

theorem Holds.fits {slack : Nat} {items : List Ivar.Item} {ref : SIDVarArray} (holds : Holds slack items ref) :
    ref.dataHdl.length < 2 ^ 32 := by
  rw [holds.size]
  exact holds.small

theorem holds_new : Holds 0 [] new where
  laid := .inl ⟨rfl, rfl, rfl⟩
  count := rfl
  alloc := rfl
  room := by decide
  size := rfl
  rising := ⟨List.Pairwise.nil, by simp [ids]⟩
  small := by decide
  cached some := absurd rfl some

inductive Place (items : List Ivar.Item) (id : UInt32) : Bool × Nat → Prop where
  | here (before : List Ivar.Item) (item : Ivar.Item) (after : List Ivar.Item) : items = before ++ item :: after →
      item.id = id → Place items id (true, before.length)
  | missing (before after : List Ivar.Item) : items = before ++ after → (∀ item ∈ before, item.id < id) →
      (∀ item ∈ after, id < item.id) → Place items id (false, before.length)

section

variable {slack : Nat} {items : List Ivar.Item} {ref : SIDVarArray} {front back : Bytes}
  {spare : List SIVAOffsetTabEntry}

theorem Holds.laid_of_ne_nil (holds : Holds slack items ref) (some : items ≠ []) :
    ∃ front back spare, Laid front back spare items ref :=
  holds.laid.resolve_left fun none => some none.1

theorem tableOf_get (base : Nat) (items : List Ivar.Item) (spare : List SIVAOffsetTabEntry) {i : Nat}
    (inside : i < items.length) :
    ∃ entry, (tableOf base items ++ spare)[i]? = some entry ∧ entry.id = items[i].id := by
  induction items generalizing base i with
  | nil => simp at inside
  | cons item items ih =>
    rw [tableOf_cons]
    cases i with
    | zero => exact ⟨_, rfl, rfl⟩
    | succ i => exact ih _ (by simpa using inside)

def idAt (items : List Ivar.Item) (i : Nat) : Nat := (items.getD i {}).id.toNat

theorem idAt_eq {i : Nat} (inside : i < items.length) : idAt items i = items[i].id.toNat := by
  rw [idAt, List.getD_eq_getElem?_getD, List.getElem?_eq_getElem inside]
  rfl

theorem idAt_rises (rising : Rising items) (i j : Nat) (before : i < j) (inside : j < items.length) :
    idAt items i < idAt items j := by
  rw [idAt_eq (Nat.lt_trans before inside), idAt_eq inside]
  have rises := List.pairwise_iff_getElem.mp rising.rises i j (by simp [ids]; omega) (by simpa [ids] using inside) before
  rw [UInt32.lt_iff_toNat_lt] at rises
  simpa [ids] using rises

structure Sees (s : BinarySearch.Window UInt32) (window : BinarySearch.Window Nat) : Prop where
  l : s.l = window.l
  r : s.r = window.r
  i : s.i = window.i
  id : s.id.toNat = window.id

theorem probe_sees (laid : Laid front back spare items ref) {inID : UInt32} {s : BinarySearch.Window UInt32}
    {window : BinarySearch.Window Nat} (sees : Sees s window) (inside : window.r < items.length) :
    (∀ next, BinarySearch.round (idAt items) inID.toNat window = .again next →
      ∃ reached, probe ref.offsetTab inID s = .again reached ∧ Sees reached next ∧ next.r < items.length) ∧
    (∀ answer, BinarySearch.round (idAt items) inID.toNat window = .done answer →
      probe ref.offsetTab inID s = .done (.value answer)) := by
  obtain ⟨l, r, i, id, placed⟩ := s
  obtain ⟨rfl, rfl, rfl, sameID⟩ := sees
  by_cases opened : window.l ≤ window.r
  · have middle : (window.l + window.r) / 2 < items.length := by omega
    obtain ⟨entry, found, held⟩ := tableOf_get front.length items spare middle
    have key : idAt items ((window.l + window.r) / 2) = entry.id.toNat := by rw [idAt_eq middle, held]
    rw [probe, if_pos opened, BinarySearch.round, if_pos opened, laid.table]
    simp only [found, key]
    by_cases same : inID = entry.id
    · rw [if_pos same, if_pos (congrArg UInt32.toNat same)]
      constructor
      · intro next again
        cases again
      · intro answer done
        cases done
        rfl
    · rw [if_neg same, if_neg fun equal => same (UInt32.toNat_inj.mp equal)]
      by_cases below : inID < entry.id
      · rw [if_pos below, if_pos (UInt32.lt_iff_toNat_lt.mp below)]
        constructor
        · intro next again
          cases again
          exact ⟨_, rfl, ⟨rfl, rfl, rfl, rfl⟩, by dsimp only; omega⟩
        · intro answer done
          cases done
      · rw [if_neg below, if_neg fun less => below (UInt32.lt_iff_toNat_lt.mpr less)]
        constructor
        · intro next again
          cases again
          exact ⟨_, rfl, ⟨rfl, rfl, rfl, rfl⟩, inside⟩
        · intro answer done
          cases done
  · rw [probe, if_neg opened, BinarySearch.round, if_neg opened]
    constructor
    · intro next again
      cases again
    · intro answer done
      cases done
      simp only [UInt32.lt_iff_toNat_lt, sameID]

theorem probes_sees (laid : Laid front back spare items ref) {inID : UInt32} {s : BinarySearch.Window UInt32}
    {window : BinarySearch.Window Nat} (sees : Sees s window) (inside : window.r < items.length) :
    probes ref.offsetTab inID s = .value (BinarySearch.narrow (idAt items) inID.toNat window) := by
  refine Loop.run_simulates _ (probe_drops ref.offsetTab inID) _ (BinarySearch.round_drops (idAt items) inID.toNat)
    (fun s window => Sees s window ∧ window.r < items.length) (fun result answer => result = Checked.value answer)
    ?_ ?_ ⟨sees, inside⟩
  · rintro s window next ⟨sees, inside⟩ again
    obtain ⟨reached, round, sees, inside⟩ := (probe_sees laid sees inside).1 next again
    exact ⟨reached, .next round (.refl _), sees, inside⟩
  · rintro s window answer ⟨sees, inside⟩ done
    exact Loop.run_done _ _ ((probe_sees laid sees inside).2 answer done)

theorem lookupItem_eq (laid : Laid front back spare items ref) (count : ref.itemCount.toNat = items.length)
    (some : items ≠ []) (inID : UInt32) :
    ref.lookupItem inID = .value (BinarySearch.search (idAt items) inID.toNat items.length) := by
  obtain ⟨item, rest, rfl⟩ := List.exists_cons_of_ne_nil some
  have table : ref.offsetTab = { id := item.id, offset := UInt32.ofNat front.length } ::
      (tableOf (front.length + item.data.length) rest ++ spare) := by
    rw [laid.table, tableOf_cons]
    rfl
  have key : idAt (item :: rest) 0 = item.id.toNat := rfl
  have first : (Span.element 0 ref.offsetTab : Checked Empty _) =
      .value { id := item.id, offset := UInt32.ofNat front.length } := by rw [table, Span.element_cons]
  simp only [lookupItem, first, Checked.value_bind, count, BinarySearch.search, key]
  rw [if_neg (List.length_pos_of_mem List.mem_cons_self).ne']
  by_cases same : inID = item.id
  · rw [if_pos same, if_pos (congrArg UInt32.toNat same)]
    rfl
  · rw [if_neg same, if_neg fun equal => same (UInt32.toNat_inj.mp equal)]
    by_cases below : inID < item.id
    · rw [if_pos below, if_pos (UInt32.lt_iff_toNat_lt.mp below)]
      rfl
    · rw [if_neg below, if_neg fun less => below (UInt32.lt_iff_toNat_lt.mpr less)]
      split
      · rfl
      · exact probes_sees laid ⟨rfl, rfl, rfl, rfl⟩ (by simp)

theorem place_of_getElem {id : UInt32} {i : Nat} (found : (ids items)[i]? = some id) : Place items id (true, i) := by
  obtain ⟨inside, same⟩ := List.getElem?_eq_some_iff.mp found
  have within : i < items.length := by simpa [ids] using inside
  have split : items = items.take i ++ items[i] :: items.drop (i + 1) := by
    rw [List.getElem_cons_drop, List.take_append_drop]
  have place := Place.here (items.take i) items[i] (items.drop (i + 1)) split (by simpa [ids] using same)
  rwa [List.length_take_of_le (Nat.le_of_lt within)] at place

theorem place_search (rising : Rising items) (inID : UInt32) :
    Place items inID (BinarySearch.search (idAt items) inID.toNat items.length) := by
  have ordered := idAt_rises rising
  generalize outcome : BinarySearch.search (idAt items) inID.toNat items.length = answer
  obtain ⟨found, i⟩ := answer
  cases found with
  | true =>
    have sound := @BinarySearch.search_sound _ _ (idAt items) inID.toNat items.length (by rw [outcome])
    rw [outcome] at sound
    obtain ⟨inside, same⟩ := sound
    rw [idAt_eq inside] at same
    apply place_of_getElem
    rw [ids, List.getElem?_map, List.getElem?_eq_getElem inside, Option.map_some, UInt32.toNat_inj.mp same]
  | false =>
    have missing := @BinarySearch.search_place _ _ _ inID.toNat _ ordered (by rw [outcome])
    rw [outcome] at missing
    obtain ⟨inside, below, above⟩ := missing
    have place := @Place.missing items inID (items.take i) (items.drop i) (List.take_append_drop i items).symm ?_ ?_
    · rwa [List.length_take_of_le inside] at place
    · intro item member
      obtain ⟨j, within, rfl⟩ := List.mem_iff_getElem.mp member
      have before : j < i := by simpa using Nat.lt_of_lt_of_le within (List.length_take_le i items)
      have less := below j before
      rw [idAt_eq (by omega)] at less
      rw [List.getElem_take]
      exact less
    · intro item member
      obtain ⟨j, within, rfl⟩ := List.mem_iff_getElem.mp member
      rw [List.length_drop] at within
      have more := above (i + j) (Nat.le_add_right i j) (by omega)
      rw [idAt_eq (by omega)] at more
      rw [List.getElem_drop]
      exact more

/-- The search keeps what the array holds, and all but the search result it keeps. -/
theorem searchItemList_spec (holds : Holds slack items ref) (inID : UInt32) :
    ∃ answer ref', ref.searchItemList inID = .value (answer, ref') ∧ Place items inID answer ∧
      Holds slack items ref' := by
  unfold searchItemList
  by_cases none : inID = 0 ∨ ref.itemCount = 0
  · rw [if_pos none]
    refine ⟨_, ref, rfl, ?_, holds⟩
    refine .missing [] items rfl (by simp) ?_
    intro item member
    rcases none with rfl | none
    · rw [UInt32.lt_iff_toNat_lt, UInt32.toNat_zero]
      apply Nat.pos_of_ne_zero
      intro zero
      have same : item.id = 0 := UInt32.toNat_inj.mp zero
      exact holds.rising.valid (same ▸ List.mem_map_of_mem member)
    · have count := holds.count
      rw [none] at count
      rw [List.length_eq_zero_iff.mp count.symm] at member
      cases member
  · rw [if_neg none]
    obtain ⟨given, filled⟩ := not_or.mp none
    by_cases same : inID = ref.lastSearchID
    -- The search result that is kept.
    · rw [if_pos same]
      have cached := holds.cached (same ▸ given)
      rw [← same] at cached
      refine ⟨_, ref, rfl, ?_, holds⟩
      exact place_of_getElem cached
    · rw [if_neg same]
      have some : items ≠ [] := by
        rintro rfl
        exact filled (UInt32.toNat_inj.mp holds.count)
      obtain ⟨front, back, spare, laid⟩ := holds.laid_of_ne_nil some
      have place := place_search holds.rising inID
      rw [lookupItem_eq laid holds.count some inID, Checked.value_bind]
      generalize BinarySearch.search (idAt items) inID.toNat items.length = answer at place
      cases place with
      | here before item after split id =>
        refine ⟨_, _, rfl, .here before item after split id, ?_⟩
        refine ⟨.inr ⟨front, back, spare, laid.table, laid.data⟩, holds.count, holds.alloc, holds.room, holds.rising,
          holds.size, holds.small, fun _ => ?_⟩
        have fits := holds.count
        rw [split, List.length_append] at fits
        have small := Nat.lt_of_le_of_lt (Nat.le_of_add_right_le fits.ge) ref.itemCount.toNat_lt
        rw [UInt32.toNat_ofNat_of_lt' small, split, ids, List.map_append, List.getElem?_append_right (by simp)]
        simp [id]
      | missing before after split below above =>
        exact ⟨_, ref, rfl, .missing before after split below above, holds⟩

end

end Slopline.Legacy.SIDVarArray
