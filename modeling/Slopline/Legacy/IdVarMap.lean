import Mathlib.Data.Finmap
import Slopline.Legacy.IdVarUpdate
import Slopline.Library.Answers

/-! What an ID-var-array is for: a finite map from IDs to data.

The map answers an operation without a table or a handle. An array represents a map if it holds the
map's items in the order of their IDs, and then it answers as the map does.
-/

set_option autoImplicit false

namespace Slopline.Legacy

open Library

abbrev ItemMap := Finmap fun _ : UInt32 => Bytes

namespace ItemMap

def entry (item : Ivar.Item) : Sigma fun _ : UInt32 => Bytes := ⟨item.id, item.data⟩

def ofItems (items : List Ivar.Item) : ItemMap := (items.map entry).toFinmap

def total (map : ItemMap) : Nat := (map.entries.map fun entry => entry.2.length).sum

end ItemMap

/-- The data a caller passes, the size of which is a `Uint32`. -/
structure Buffer where
  data : Bytes
  sized : data.length < 2 ^ 32
  deriving DecidableEq, Repr

inductive ArrayOp where
  | addItem (inID : UInt32) (inData : Buffer) (replaceIfExists : Bool)
  | setItem (inID : UInt32) (inData : Buffer)
  | removeItem (inID : UInt32)
  | getItemCount
  | itemExists (inID : UInt32)
  | getItem (inID inMaxSize : UInt32)
  | getItemSize (inID : UInt32)
  | readItem (inID inOffset inMaxSize : UInt32)
  | writeItem (inID inOffset : UInt32) (inData : Buffer)
  | getItemPtr (inID : UInt32)
  deriving DecidableEq, Repr

inductive ArrayAnswer where
  | nothing
  | flag (answer : Bool)
  | number (answer : UInt32)
  | bytes (answer : Bytes)
  deriving DecidableEq, Repr

/-- The call, with the memory manager at that time. -/
def SIDVarArray.perform (ref : SIDVarArray) (call : Memory × ArrayOp) :
    Checked Empty (Except SIDVarArray.Failure ArrayAnswer × SIDVarArray) :=
  let answered {α : Type} (answer : α → ArrayAnswer) (reply : SIDVarArray.Reply α) := (reply.1.map answer, reply.2)
  match call.2 with
  | .addItem inID inData replaceIfExists => do
    return answered (fun _ => .nothing) (← ref.addItem call.1 inID inData.data replaceIfExists)
  | .setItem inID inData => do return answered (fun _ => .nothing) (← ref.setItem call.1 inID inData.data)
  | .removeItem inID => do return answered (fun _ => .nothing) (← ref.removeItem call.1 inID)
  | .getItemCount => return (.ok (.number ref.getItemCount), ref)
  | .itemExists inID => do return answered .flag (← ref.itemExists inID)
  | .getItem inID inMaxSize => do return answered .bytes (← ref.getItem inID inMaxSize)
  | .getItemSize inID => do return answered .number (← ref.getItemSize inID)
  | .readItem inID inOffset inMaxSize => do return answered .bytes (← ref.readItem inID inOffset inMaxSize)
  | .writeItem inID inOffset inData => do return answered .number (← ref.writeItem inID inOffset inData.data)
  | .getItemPtr inID => do return answered .bytes (← ref.getItemPtr inID)

namespace ItemMap

def overwrite (offset : Nat) (new data : Bytes) : Bytes :=
  data.take offset ++ (new.take (data.length - offset) ++ data.drop (offset + new.length))

/-- What each call is for. A part of an item is asked for by an offset and a size, the sum of which
is a `Uint32`: where it is none, the call is not kept inside the item. -/
def perform (map : ItemMap) : ArrayOp → Checked Empty (Except SIDVarArray.Failure ArrayAnswer × ItemMap)
  | .addItem inID inData replaceIfExists =>
    if inID = 0 then .value (.error .requirement, map)
    else if (map.lookup inID).isSome ∧ ¬ replaceIfExists then .value (.error .itemAlreadyExists, map)
    else .value (.ok .nothing, map.insert inID inData.data)
  | .setItem inID inData =>
    if (map.lookup inID).isSome then .value (.ok .nothing, map.insert inID inData.data)
    else .value (.error .noSuchItem, map)
  | .removeItem inID => .value (.ok .nothing, map.erase inID)
  | .getItemCount => .value (.ok (.number (UInt32.ofNat map.keys.card)), map)
  | .itemExists inID => .value (.ok (.flag (map.lookup inID).isSome), map)
  | .getItem inID inMaxSize => .value (.ok (.bytes (((map.lookup inID).getD []).take inMaxSize.toNat)), map)
  | .getItemSize inID => .value (.ok (.number (UInt32.ofNat ((map.lookup inID).getD []).length)), map)
  | .readItem inID inOffset inMaxSize =>
    let data := (map.lookup inID).getD []
    if data.length ≤ inOffset.toNat then .value (.ok (.bytes []), map)
    else if inOffset.toNat + inMaxSize.toNat < 2 ^ 32 then
      .value (.ok (.bytes ((data.drop inOffset.toNat).take inMaxSize.toNat)), map)
    else .fault
  | .writeItem inID inOffset inData =>
    match map.lookup inID with
    | none => .value (.error .noSuchItem, map)
    | some data =>
      if data.length ≤ inOffset.toNat then .value (.ok (.number 0), map)
      else if inOffset.toNat + inData.data.length < 2 ^ 32 then
        .value (.ok (.number (UInt32.ofNat (min inData.data.length (data.length - inOffset.toNat)))),
          map.insert inID (overwrite inOffset.toNat inData.data data))
      else .fault
  | .getItemPtr inID =>
    match map.lookup inID with
    | none => .value (.error .noSuchItem, map)
    | some data => .value (.ok (.bytes data), map)

def Fits (slack : Nat) (map : ItemMap) : Prop := slack + total map < 2 ^ 32 ∧ map.keys.card + 12 ≤ 2 ^ 29

end ItemMap

namespace SIDVarArray

open ItemMap

section

variable {items before after : List Ivar.Item} {item : Ivar.Item}

theorem keys_entries (items : List Ivar.Item) : (items.map entry).keys = ids items := by
  simp [List.keys, ids, entry]

theorem lookup_ofItems_of_notMem {id : UInt32} (missing : id ∉ ids items) : (ofItems items).lookup id = none := by
  rw [ofItems, Finmap.dlookup_list_toFinmap, List.dlookup_eq_none, keys_entries]
  exact missing

theorem Rising.notMem_before (rising : Rising (before ++ item :: after)) : item.id ∉ ids before := by
  have rises := rising.rises
  rw [ids, List.map_append, List.map_cons, List.pairwise_append] at rises
  exact fun member => UInt32.lt_irrefl _ (rises.2.2 item.id member item.id List.mem_cons_self)

theorem Rising.notMem_others (rising : Rising (before ++ item :: after)) : item.id ∉ ids (before ++ after) := by
  have rises := rising.rises
  rw [ids, List.map_append, List.map_cons, List.pairwise_append, List.pairwise_cons] at rises
  rw [ids, List.map_append, List.mem_append, not_or]
  exact ⟨rising.notMem_before, fun member => UInt32.lt_irrefl _ (rises.2.1.1 item.id member)⟩

theorem lookup_ofItems_insert (new : item.id ∉ ids before) (id : UInt32) :
    (ofItems (before ++ item :: after)).lookup id =
      if id = item.id then some item.data else (ofItems (before ++ after)).lookup id := by
  simp only [ofItems, Finmap.dlookup_list_toFinmap, List.map_append, List.map_cons, List.dlookup_append]
  by_cases same : id = item.id
  · subst same
    rw [if_pos rfl, List.dlookup_eq_none.mpr (by rwa [keys_entries]), Option.none_or]
    exact List.dlookup_cons_eq _ _ _
  · rw [if_neg same, List.dlookup_cons_ne _ (entry item) same]

theorem lookup_at (rising : Rising (before ++ item :: after)) :
    (ofItems (before ++ item :: after)).lookup item.id = some item.data := by
  rw [lookup_ofItems_insert rising.notMem_before, if_pos rfl]

theorem insert_fresh (rising : Rising (before ++ item :: after)) :
    (ofItems (before ++ after)).insert item.id item.data = ofItems (before ++ item :: after) := by
  apply Finmap.ext_lookup
  intro id
  rw [lookup_ofItems_insert rising.notMem_before]
  by_cases same : id = item.id
  · rw [if_pos same, same, Finmap.lookup_insert]
  · rw [if_neg same, Finmap.lookup_insert_of_ne _ same]

theorem insert_over (rising : Rising (before ++ item :: after)) (data : Bytes) :
    (ofItems (before ++ item :: after)).insert item.id data = ofItems (before ++ { item with data } :: after) := by
  have fresh := insert_fresh (rising.set_data data)
  rw [← fresh, ← insert_fresh rising, Finmap.insert_insert]

theorem erase_at (rising : Rising (before ++ item :: after)) :
    (ofItems (before ++ item :: after)).erase item.id = ofItems (before ++ after) := by
  apply Finmap.ext_lookup
  intro id
  by_cases same : id = item.id
  · rw [same, Finmap.lookup_erase, lookup_ofItems_of_notMem rising.notMem_others]
  · rw [Finmap.lookup_erase_ne same, lookup_ofItems_insert rising.notMem_before, if_neg same]

theorem Rising.nodup_entries (rising : Rising items) : (items.map entry).NodupKeys := by
  rw [List.NodupKeys, keys_entries]
  exact rising.rises.imp UInt32.ne_of_lt

theorem dedupKeys_eq {entries : List (Sigma fun _ : UInt32 => Bytes)} (nodup : entries.NodupKeys) :
    entries.dedupKeys = entries := by
  induction entries with
  | nil => rfl
  | cons entry entries ih =>
    obtain ⟨new, nodup⟩ := List.nodupKeys_cons.mp nodup
    rw [List.dedupKeys_cons, List.kinsert_def, ih nodup, List.kerase_of_notMem_keys new]

theorem entries_ofItems (rising : Rising items) : (ofItems items).entries = ↑(items.map entry) :=
  congrArg _ (dedupKeys_eq rising.nodup_entries)

theorem total_ofItems (rising : Rising items) : total (ofItems items) = (blob items).length := by
  rw [total, entries_ofItems rising, Multiset.map_coe, Multiset.sum_coe, List.map_map, blob, List.length_flatMap]
  rfl

theorem card_ofItems (rising : Rising items) : (ofItems items).keys.card = items.length := by
  have keys : (ofItems items).keys.val = (ofItems items).entries.keys := rfl
  rw [Finset.card, keys, entries_ofItems rising, Multiset.coe_keys, Multiset.coe_card, keys_entries, ids,
    List.length_map]

end

/-- The array holds the items of the map, so many bytes of it belonging to none of them. -/
def Represents (slack : Nat) (map : ItemMap) (ref : SIDVarArray) : Prop :=
  ∃ items, Holds slack items ref ∧ map = ofItems items

theorem represents_new : Represents 0 ∅ new := ⟨[], holds_new, rfl⟩

variable {slack : Nat} {items : List Ivar.Item} {ref : SIDVarArray}

theorem found_spec (holds : Holds slack items ref) (inID : UInt32) :
    ∃ answer ref', ref.searchItemList inID = .value (answer, ref') ∧ Holds slack items ref' ∧
      ((∃ before item after front back spare, items = before ++ item :: after ∧ item.id = inID ∧
          answer = (true, before.length) ∧ Laid front back spare (before ++ item :: after) ref' ∧
          (ofItems items).lookup inID = some item.data) ∨
        answer.1 = false ∧ (ofItems items).lookup inID = none) := by
  obtain ⟨answer, ref', searches, place, holds⟩ := searchItemList_spec holds inID
  refine ⟨answer, ref', searches, holds, ?_⟩
  cases place with
  | here before item after split id =>
    subst split
    obtain ⟨front, back, spare, laid⟩ := holds.laid_at
    subst id
    exact .inl ⟨before, item, after, front, back, spare, rfl, rfl, rfl, laid, lookup_at holds.rising⟩
  | missing before after split below above =>
    refine .inr ⟨rfl, lookup_ofItems_of_notMem ?_⟩
    rw [split]
    exact not_mem_ids below above

abbrev Agree (slack : Nat) : Checked Empty (Except Failure ArrayAnswer × SIDVarArray) →
    Checked Empty (Except Failure ArrayAnswer × ItemMap) → Prop :=
  Checked.Related fun left right => left.1 = right.1 ∧ Represents slack right.2 left.2

theorem Holds.agree (holds : Holds slack items ref) (answer : Except Failure ArrayAnswer) :
    Agree slack (.value (answer, ref)) (.value (answer, ofItems items)) := ⟨rfl, items, holds, rfl⟩

/-! The calls that leave the items as they are. -/

theorem getItemCount_agree (holds : Holds slack items ref) (memory : Memory) :
    Agree slack (ref.perform (memory, .getItemCount)) ((ofItems items).perform .getItemCount) := by
  have count : UInt32.ofNat (ofItems items).keys.card = ref.itemCount := by
    rw [card_ofItems holds.rising, ← holds.count, UInt32.ofNat_toNat]
  simp only [SIDVarArray.perform, ItemMap.perform, count, getItemCount]
  exact holds.agree _

theorem itemExists_agree (holds : Holds slack items ref) (memory : Memory) (inID : UInt32) :
    Agree slack (ref.perform (memory, .itemExists inID)) ((ofItems items).perform (.itemExists inID)) := by
  obtain ⟨answer, ref', searches, holds, found⟩ := found_spec holds inID
  simp only [SIDVarArray.perform, ItemMap.perform, itemExists, searches, Checked.value_bind, Checked.pure_eq]
  rcases found with ⟨before, item, after, front, back, spare, -, -, rfl, -, held⟩ | ⟨missing, held⟩
  · rw [held]
    exact holds.agree _
  · rw [held, missing]
    exact holds.agree _

theorem getItem_agree (holds : Holds slack items ref) (memory : Memory) (inID inMaxSize : UInt32) :
    Agree slack (ref.perform (memory, .getItem inID inMaxSize)) ((ofItems items).perform (.getItem inID inMaxSize)) := by
  obtain ⟨answer, ref', searches, holds, found⟩ := found_spec holds inID
  simp only [SIDVarArray.perform, ItemMap.perform, getItem, searches, Checked.value_bind]
  rcases found with ⟨before, item, after, front, back, spare, rfl, -, rfl, laid, held⟩ | ⟨missing, held⟩
  · have size := UInt32.toNat_ofNat_of_lt' (laid.size_lt holds.fits)
    have data : UMemory.read (front ++ blob before).length (min inMaxSize.toNat item.data.length) ref'.dataHdl =
        Checked.value (ε := Empty) (item.data.take (min inMaxSize.toNat item.data.length)) := by
      rw [laid.split_data]
      exact UMemory.read_at item.data rfl (Nat.min_le_right _ _)
    simp only [if_true, extent_eq laid holds.fits, Checked.value_bind, size, data, held, Option.getD_some]
    rw [← List.take_eq_take_min]
    exact holds.agree _
  · simp only [held, missing, Option.getD_none, List.take_nil]
    exact holds.agree _

theorem getItemSize_agree (holds : Holds slack items ref) (memory : Memory) (inID : UInt32) :
    Agree slack (ref.perform (memory, .getItemSize inID)) ((ofItems items).perform (.getItemSize inID)) := by
  obtain ⟨answer, ref', searches, holds, found⟩ := found_spec holds inID
  simp only [SIDVarArray.perform, ItemMap.perform, getItemSize, searches, Checked.value_bind]
  rcases found with ⟨before, item, after, front, back, spare, rfl, -, rfl, laid, held⟩ | ⟨missing, held⟩
  · simp only [if_true, extent_eq laid holds.fits, Checked.value_bind, held, Option.getD_some]
    exact holds.agree _
  · simp only [held, missing, Option.getD_none]
    exact holds.agree _

theorem getItemPtr_agree (holds : Holds slack items ref) (memory : Memory) (inID : UInt32) :
    Agree slack (ref.perform (memory, .getItemPtr inID)) ((ofItems items).perform (.getItemPtr inID)) := by
  obtain ⟨answer, ref', searches, holds, found⟩ := found_spec holds inID
  simp only [SIDVarArray.perform, ItemMap.perform, getItemPtr, searches, Checked.value_bind]
  rcases found with ⟨before, item, after, front, back, spare, rfl, -, rfl, laid, held⟩ | ⟨missing, held⟩
  · have size := UInt32.toNat_ofNat_of_lt' (laid.size_lt holds.fits)
    have data : UMemory.read (front ++ blob before).length item.data.length ref'.dataHdl =
        Checked.value (ε := Empty) item.data := by
      rw [laid.split_data, UMemory.read_at item.data rfl (Nat.le_refl _), List.take_length]
    simp only [if_true, extent_eq laid holds.fits, Checked.value_bind, size, data, held]
    exact holds.agree _
  · simp only [held, missing]
    exact holds.agree _

theorem clamp_toNat {size offset : UInt32} (inside : offset.toNat < size.toNat) (asked : UInt32) :
    (offset.toNat + asked.toNat < 2 ^ 32 →
      (if size < offset + asked then size - offset else asked).toNat = min asked.toNat (size.toNat - offset.toNat)) ∧
    (2 ^ 32 ≤ offset.toNat + asked.toNat → (if size < offset + asked then size - offset else asked) = asked) := by
  constructor
  · intro whole
    have sum : (offset + asked).toNat = offset.toNat + asked.toNat := by
      rw [UInt32.toNat_add, Nat.mod_eq_of_lt whole]
    by_cases beyond : size < offset + asked
    · rw [if_pos beyond, UInt32.toNat_sub_of_le _ _ (UInt32.le_iff_toNat_le.mpr (Nat.le_of_lt inside))]
      rw [UInt32.lt_iff_toNat_lt, sum] at beyond
      omega
    · rw [if_neg beyond]
      rw [UInt32.lt_iff_toNat_lt, sum] at beyond
      omega
  · intro wrapped
    have small := size.toNat_lt
    have most := asked.toNat_lt
    have sum : (offset + asked).toNat = offset.toNat + asked.toNat - 2 ^ 32 := by
      rw [UInt32.toNat_add, Nat.mod_eq_sub_mod wrapped, Nat.mod_eq_of_lt (by omega)]
    rw [if_neg]
    rw [UInt32.lt_iff_toNat_lt, sum]
    omega

theorem split_part {front back : Bytes} {spare : List SIVAOffsetTabEntry} {before after : List Ivar.Item}
    {item : Ivar.Item} (laid : Laid front back spare (before ++ item :: after) ref) (offset : Nat) :
    ref.dataHdl = ((front ++ blob before) ++ item.data.take offset) ++
      (item.data.drop offset ++ (blob after ++ back)) := by
  rw [laid.split_data]
  conv => lhs; rw [← List.take_append_drop offset item.data]
  simp only [List.append_assoc]

theorem readItem_agree (holds : Holds slack items ref) (memory : Memory) (inID inOffset inMaxSize : UInt32) :
    Agree slack (ref.perform (memory, .readItem inID inOffset inMaxSize))
      ((ofItems items).perform (.readItem inID inOffset inMaxSize)) := by
  obtain ⟨answer, ref', searches, holds, found⟩ := found_spec holds inID
  simp only [SIDVarArray.perform, ItemMap.perform, readItem, searches, Checked.value_bind]
  rcases found with ⟨before, item, after, front, back, spare, rfl, -, rfl, laid, held⟩ | ⟨missing, held⟩
  · have fits := holds.fits
    have size := UInt32.toNat_ofNat_of_lt' (laid.size_lt holds.fits)
    simp only [if_true, extent_eq laid holds.fits, Checked.value_bind, held, Option.getD_some,
      UInt32.lt_iff_toNat_lt (a := inOffset), size]
    by_cases inside : inOffset.toNat < item.data.length
    · rw [if_pos inside, if_neg (Nat.not_le.mpr inside)]
      obtain ⟨cut, uncut⟩ := clamp_toNat (size ▸ inside) inMaxSize
      by_cases whole : inOffset.toNat + inMaxSize.toNat < 2 ^ 32
      · have data : UMemory.read ((front ++ blob before).length + inOffset.toNat)
            (min inMaxSize.toNat (item.data.length - inOffset.toNat)) ref'.dataHdl =
            Checked.value (ε := Empty) ((item.data.drop inOffset.toNat).take inMaxSize.toNat) := by
          rw [split_part laid inOffset.toNat, UMemory.read_at, ← List.length_drop, ← List.take_eq_take_min]
          · simp only [List.length_append, List.length_take_of_le (Nat.le_of_lt inside)]
          · rw [List.length_drop]
            exact Nat.min_le_right _ _
        simp only [if_pos whole, cut whole, size, data, Checked.value_bind]
        exact holds.agree _
      -- The part is read beyond the end of the handle.
      · have data : UMemory.read ((front ++ blob before).length + inOffset.toNat) inMaxSize.toNat ref'.dataHdl =
            Checked.fault (ε := Empty) := by
          rw [UMemory.read, Span.slice, if_neg (by omega)]
        simp only [if_neg whole, uncut (Nat.not_lt.mp whole), data, Checked.fault_bind]
        trivial
    · rw [if_neg inside, if_pos (Nat.not_lt.mp inside)]
      exact holds.agree _
  · simp only [held, missing, Option.getD_none, List.length_nil, Nat.zero_le, if_true]
    exact holds.agree _

/-! The calls that change them. -/

theorem total_insert {before after : List Ivar.Item} {item : Ivar.Item} (rising : Rising (before ++ item :: after))
    (data : Bytes) : total ((ofItems (before ++ item :: after)).insert item.id data) =
      (blob (before ++ { item with data } :: after)).length := by
  rw [insert_over rising, total_ofItems (rising.set_data data)]

theorem setItem_agree (holds : Holds slack items ref) (memory : Memory) (inID : UInt32) (inData : Buffer)
    (fits : ∀ answer map, (ofItems items).perform (.setItem inID inData) = .value (answer, map) → Fits slack map) :
    Agree slack (ref.perform (memory, .setItem inID inData)) ((ofItems items).perform (.setItem inID inData)) := by
  have rising := holds.rising
  obtain ⟨reply, ref', performed, kept⟩ := setItem_spec holds memory inID inData.data fun before item after split id => by
    subst split id
    rw [← total_insert rising]
    refine (fits (.ok .nothing) _ ?_).1
    rw [ItemMap.perform, lookup_at rising]
    rfl
  simp only [SIDVarArray.perform, ItemMap.perform, performed, Checked.value_bind]
  rcases kept with ⟨before, item, after, rfl, rfl, rfl, kept⟩ | ⟨missing, rfl, kept⟩
  · rw [lookup_at rising, Option.isSome_some, if_pos rfl, insert_over rising]
    exact kept.agree _
  · rw [lookup_ofItems_of_notMem missing]
    exact kept.agree _

theorem removeItem_agree (holds : Holds slack items ref) (memory : Memory) (inID : UInt32) :
    Agree slack (ref.perform (memory, .removeItem inID)) ((ofItems items).perform (.removeItem inID)) := by
  have rising := holds.rising
  obtain ⟨ref', performed, kept⟩ := removeItem_spec holds memory inID
  simp only [SIDVarArray.perform, ItemMap.perform, performed, Checked.value_bind]
  rcases kept with ⟨before, item, after, rfl, rfl, kept⟩ | ⟨missing, kept⟩
  · rw [erase_at rising]
    exact kept.agree _
  · have same : (ofItems items).erase inID = ofItems items := by
      apply Finmap.ext_lookup
      intro id
      by_cases this : id = inID
      · rw [this, Finmap.lookup_erase, lookup_ofItems_of_notMem missing]
      · exact Finmap.lookup_erase_ne this
    rw [same]
    exact kept.agree _

theorem addItem_agree (holds : Holds slack items ref) (memory : Memory) (inID : UInt32) (inData : Buffer)
    (replaceIfExists : Bool) (fits : ∀ answer map,
      (ofItems items).perform (.addItem inID inData replaceIfExists) = .value (answer, map) → Fits slack map) :
    Agree slack (ref.perform (memory, .addItem inID inData replaceIfExists))
      ((ofItems items).perform (.addItem inID inData replaceIfExists)) := by
  simp only [SIDVarArray.perform, ItemMap.perform, addItem] at fits ⊢
  by_cases given : inID = 0
  · rw [if_pos given, if_pos given]
    exact holds.agree _
  · rw [if_neg given] at fits
    rw [if_neg given, if_neg given]
    obtain ⟨answer, ref', searches, place, holds⟩ := searchItemList_spec holds inID
    rw [searches, Checked.value_bind]
    cases place with
    | here before item after split id =>
      subst split id
      have held := lookup_at holds.rising
      rw [held] at fits ⊢
      cases replaceIfExists with
      | true =>
        have replaced := setItem_agree holds memory item.id inData fun answer map performed => fits answer map (by
          rw [ItemMap.perform, held] at performed
          exact performed)
        rw [SIDVarArray.perform, ItemMap.perform, held] at replaced
        exact replaced
      | false => exact holds.agree _
    | missing before after split below above =>
      subst split
      have rising : Rising (before ++ { id := inID, data := inData.data } :: after) :=
        holds.rising.add_item given below above
      have held : (ofItems (before ++ after)).lookup inID = none :=
        lookup_ofItems_of_notMem (not_mem_ids below above)
      have fresh := insert_fresh rising
      dsimp only at fresh
      rw [held, fresh] at fits
      obtain ⟨small, room⟩ := fits _ _ rfl
      rw [total_ofItems rising] at small
      rw [card_ofItems rising] at room
      obtain ⟨ref'', performed, kept⟩ := holds.insertItem memory { id := inID, data := inData.data } rising small room
      simp only [performed, held, Checked.value_bind, fresh, Option.isSome_none, Bool.false_eq_true, false_and, if_false]
      exact kept.agree _

theorem length_overwrite {offset : Nat} {data : Bytes} (inside : offset < data.length) (new : Bytes) :
    (overwrite offset new data).length = data.length := by
  simp only [overwrite, List.length_append, List.length_take, List.length_drop]
  omega

theorem write_part {front back : Bytes} {spare : List SIVAOffsetTabEntry} {before after : List Ivar.Item}
    {item : Ivar.Item} (laid : Laid front back spare (before ++ item :: after) ref) {offset : Nat}
    (inside : offset < item.data.length) (new : Bytes) :
    UMemory.write ((front ++ blob before).length + offset) (new.take (min new.length (item.data.length - offset)))
        ref.dataHdl =
      Checked.value (ε := Empty)
        ((front ++ blob before) ++ (overwrite offset new item.data ++ (blob after ++ back))) := by
  have size : (new.take (min new.length (item.data.length - offset))).length =
      ((item.data.drop offset).take new.length).length := by
    simp only [List.length_take, List.length_drop]
    omega
  have data : ref.dataHdl = ((front ++ blob before) ++ item.data.take offset) ++
      ((item.data.drop offset).take new.length ++
        (item.data.drop (offset + new.length) ++ (blob after ++ back))) := by
    rw [split_part laid offset, ← List.drop_drop]
    conv => lhs; rw [← List.take_append_drop new.length (item.data.drop offset)]
    simp only [List.append_assoc]
  rw [data, UMemory.write_at _ _ _ size, overwrite, min_comm, ← List.take_eq_take_min]
  · simp only [List.append_assoc]
  · simp only [List.length_append, List.length_take_of_le (Nat.le_of_lt inside)]

theorem writeItem_agree (holds : Holds slack items ref) (memory : Memory) (inID inOffset : UInt32)
    (inData : Buffer) :
    Agree slack (ref.perform (memory, .writeItem inID inOffset inData))
      ((ofItems items).perform (.writeItem inID inOffset inData)) := by
  obtain ⟨answer, ref', searches, holds, found⟩ := found_spec holds inID
  simp only [SIDVarArray.perform, ItemMap.perform, writeItem, searches, Checked.value_bind]
  rcases found with ⟨before, item, after, front, back, spare, rfl, id, rfl, laid, held⟩ | ⟨missing, held⟩
  · have fits := holds.fits
    have size := UInt32.toNat_ofNat_of_lt' (laid.size_lt holds.fits)
    have given : (UInt32.ofNat inData.data.length).toNat = inData.data.length := UInt32.toNat_ofNat_of_lt' inData.sized
    simp only [if_true, extent_eq laid holds.fits, Checked.value_bind, held, UInt32.le_iff_toNat_le, size]
    by_cases inside : inOffset.toNat < item.data.length
    · rw [if_neg (Nat.not_le.mpr inside), if_neg (Nat.not_le.mpr inside)]
      obtain ⟨cut, uncut⟩ := clamp_toNat (size ▸ inside) (UInt32.ofNat inData.data.length)
      rw [given] at cut uncut
      by_cases summed : inOffset.toNat + inData.data.length < 2 ^ 32
      · have number := cut summed
        rw [size] at number
        have written := write_part laid inside inData.data
        have same := length_overwrite inside inData.data
        have table : tableOf front.length
            (before ++ { item with data := overwrite inOffset.toNat inData.data item.data } :: after) ++ spare =
            ref'.offsetTab := by
          rw [laid.split_table, tableOf_append, tableOf_cons, List.append_assoc, List.cons_append, same]
        have kept := holds.set_data laid (overwrite inOffset.toNat inData.data item.data) (by
          have small := holds.small
          simp only [blob_append, blob_cons, List.length_append, same] at small ⊢
          exact small)
        rw [table] at kept
        subst id
        rw [if_pos summed, insert_over holds.rising, ← number, UInt32.ofNat_toNat]
        rw [← number] at written
        simp only [written, Checked.value_bind]
        exact kept.agree _
      -- The part is written beyond the end of the handle.
      · have written : UMemory.write ((front ++ blob before).length + inOffset.toNat)
            (inData.data.take (UInt32.ofNat inData.data.length).toNat) ref'.dataHdl = Checked.fault (ε := Empty) := by
          rw [given, List.take_length, UMemory.write, if_neg (by omega)]
        simp only [if_neg summed, uncut (Nat.not_lt.mp summed), written, Checked.fault_bind]
        trivial
    · rw [if_pos (Nat.not_lt.mp inside), if_pos (Nat.not_lt.mp inside)]
      exact holds.agree _
  · simp only [held, missing]
    exact holds.agree _

/-- Each call is answered as the map answers it, and the array still represents it. -/
theorem perform_refines (slack : Nat) :
    Checked.Refines SIDVarArray.perform ItemMap.perform Prod.snd (ItemMap.Fits slack)
      fun ref map => Represents slack map ref := by
  rintro ref map ⟨memory, op⟩ ⟨items, holds, rfl⟩ fits
  cases op with
  | addItem inID inData replaceIfExists => exact addItem_agree holds memory inID inData replaceIfExists fits
  | setItem inID inData => exact setItem_agree holds memory inID inData fits
  | removeItem inID => exact removeItem_agree holds memory inID
  | getItemCount => exact getItemCount_agree holds memory
  | itemExists inID => exact itemExists_agree holds memory inID
  | getItem inID inMaxSize => exact getItem_agree holds memory inID inMaxSize
  | getItemSize inID => exact getItemSize_agree holds memory inID
  | readItem inID inOffset inMaxSize => exact readItem_agree holds memory inID inOffset inMaxSize
  | writeItem inID inOffset inData => exact writeItem_agree holds memory inID inOffset inData
  | getItemPtr inID => exact getItemPtr_agree holds memory inID

/-- Any calls, as long as what they put in fits, are answered as a finite map answers them, whatever
new memory holds during each; and the array represents the map that is left. -/
theorem array_answers_as_map {map : ItemMap} (start : Represents slack map ref)
    (calls : List (Memory × ArrayOp))
    (all : Checked.Throughout ItemMap.perform (Fits slack) map (calls.map Prod.snd)) :
    Checked.Related (fun left right => left.1 = right.1 ∧ Represents slack right.2 left.2)
      (Checked.answers SIDVarArray.perform ref calls)
      (Checked.answers ItemMap.perform map (calls.map Prod.snd)) :=
  (perform_refines slack).answers calls start all

def pair : Buffer := ⟨[1, 2], by decide⟩

def leaving (entry : SIVAOffsetTabEntry) (byte : UInt8) : Memory where
  table := .leaving fun _ => entry
  data := .leaving fun _ => byte

def someCalls : List (Memory × ArrayOp) :=
  [(leaving { id := 9 } 1, .addItem 7 pair false), (leaving { offset := 5 } 2, .addItem 3 ⟨[4, 5, 6], by decide⟩ false),
    (leaving {} 0, .writeItem 3 1 ⟨[8, 8, 8], by decide⟩), (leaving {} 3, .readItem 3 0 2), (leaving {} 0, .removeItem 3),
    (leaving {} 0, .getItem 7 9)]

theorem array_answers_as_map_some :
    Checked.Related (fun left right => left.1 = right.1 ∧ Represents 0 right.2 left.2)
      (Checked.answers SIDVarArray.perform new someCalls)
      (Checked.answers ItemMap.perform ∅ (someCalls.map Prod.snd)) := by
  refine array_answers_as_map represents_new someCalls ?_
  repeat
    intro answer map performed
    cases performed
    constructor
    · unfold Fits
      decide
  trivial

end SIDVarArray

end Slopline.Legacy
