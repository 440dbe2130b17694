import Slopline.Net.ReceiveCap

/-! Interleaved parts and the transactions they make up.

A schedule lists the parts on the wire, each under the transaction it belongs to. What
is in progress at a point of a well-formed schedule is what the partials hold there.
-/

set_option autoImplicit false

namespace Slopline.Net

open Protocol

/-- The parts on the wire, in order, each with the name of its transaction. -/
abbrev Schedule (ι : Type) := List (ι × ReceivedTransaction)

def dataOf (parts : List ReceivedTransaction) : Bytes := parts.flatMap ReceivedTransaction.data

@[simp] theorem dataOf_append (first rest : List ReceivedTransaction) :
    dataOf (first ++ rest) = dataOf first ++ dataOf rest := by simp [dataOf]

@[simp] theorem dataOf_singleton (part : ReceivedTransaction) : dataOf [part] = part.data := by simp [dataOf]

def Single (config : ConnectionConfig) (parts : List ReceivedTransaction) : Prop :=
  ∃ part, parts = [part] ∧ part.header.totalSize = part.header.dataSize ∧
    part.header.totalSize ≤ config.maxReceiveSize

structure Multi (config : ConnectionConfig) (parts : List ReceivedTransaction) : Prop where
  several : 2 ≤ parts.length
  shared : ∃ key total, (∀ part ∈ parts, TransactionHeader.key part.header = key ∧ part.header.totalSize = total) ∧
    (dataOf parts).length = total.toNat ∧ total ≤ config.maxReceiveSize

namespace Schedule

variable {ι : Type} [DecidableEq ι]

def partsOf (schedule : Schedule ι) (i : ι) : List ReceivedTransaction :=
  schedule.filterMap fun entry => if entry.1 = i then some entry.2 else none

@[simp] theorem partsOf_nil (i : ι) : partsOf ([] : Schedule ι) i = [] := rfl

@[simp] theorem partsOf_append (first rest : Schedule ι) (i : ι) :
    partsOf (first ++ rest) i = partsOf first i ++ partsOf rest i := by simp [partsOf]

@[simp] theorem partsOf_cons_self (i : ι) (part : ReceivedTransaction) (rest : Schedule ι) :
    partsOf ((i, part) :: rest) i = part :: partsOf rest i := by simp [partsOf]

theorem partsOf_cons_ne {i j : ι} (different : j ≠ i) (part : ReceivedTransaction) (rest : Schedule ι) :
    partsOf ((j, part) :: rest) i = partsOf rest i := by simp [partsOf, different]

/-- Begun and not finished, between what has come and what is to come. -/
def InProgress (before after : Schedule ι) (i : ι) : Prop := partsOf before i ≠ [] ∧ partsOf after i ≠ []

structure WellFormed (config : ConnectionConfig) (schedule : Schedule ι) : Prop where
  part : ∀ entry ∈ schedule, entry.2.data ≠ [] ∧ entry.2.header.dataSize.toNat = entry.2.data.length
  transaction : ∀ entry ∈ schedule, Single config (partsOf schedule entry.1) ∨ Multi config (partsOf schedule entry.1)
  /-- Transactions in progress at one time have different keys. -/
  distinct : ∀ before after, schedule = before ++ after → ∀ i j, InProgress before after i →
    InProgress before after j → i ≠ j → ∀ part ∈ partsOf schedule i, ∀ other ∈ partsOf schedule j,
      TransactionHeader.key part.header ≠ TransactionHeader.key other.header

/-- The transaction a part completes: it is the last part, and carries the header. -/
def completion (before : Schedule ι) (entry : ι × ReceivedTransaction) (after : Schedule ι) :
    Option ReceivedTransaction :=
  if partsOf after entry.1 = [] then some ⟨entry.2.header, dataOf (partsOf (before ++ [entry]) entry.1)⟩ else none

def dispatches (before : Schedule ι) : Schedule ι → Schedule ι → List ReceivedTransaction
  | [], _ => []
  | entry :: now, later =>
    (completion before entry (now ++ later)).toList ++ dispatches (before ++ [entry]) now later

structure Tracks (before after : Schedule ι) (partials : Partials) : Prop where
  held : ∀ i, InProgress before after i → ∀ part ∈ partsOf before i,
    ∃ header, partials.lookup (TransactionHeader.key part.header) = some { header, data := dataOf (partsOf before i) }
  only : ∀ key entry, partials.lookup key = some entry →
    ∃ i, InProgress before after i ∧ ∀ part ∈ partsOf before i, TransactionHeader.key part.header = key

theorem tracks_nil (after : Schedule ι) : Tracks [] after ∅ where
  held i progress := absurd rfl progress.1
  only key entry found := by simp at found

theorem Tracks.finished {before : Schedule ι} {partials : Partials} (tracks : Tracks before [] partials) :
    partials = ∅ := by
  refine Finmap.ext_lookup fun key => ?_
  rw [Finmap.lookup_empty]
  cases found : partials.lookup key with
  | none => rfl
  | some entry =>
    obtain ⟨i, progress, _⟩ := tracks.only key entry found
    exact absurd rfl progress.2

theorem inProgress_other {before after : Schedule ι} {i j : ι} {part : ReceivedTransaction} (different : i ≠ j) :
    InProgress (before ++ [(i, part)]) after j ↔ InProgress before ((i, part) :: after) j := by
  simp [InProgress, partsOf_cons_ne different]

theorem partsOf_other {before : Schedule ι} {i j : ι} {part : ReceivedTransaction} (different : i ≠ j) :
    partsOf (before ++ [(i, part)]) j = partsOf before j := by simp [partsOf_cons_ne different]

theorem partsOf_ne_nil_mem {schedule : Schedule ι} {i : ι} {part : ReceivedTransaction}
    (member : part ∈ partsOf schedule i) : (i, part) ∈ schedule := by
  simp only [partsOf, List.mem_filterMap] at member
  obtain ⟨⟨j, other⟩, found, same⟩ := member
  split at same
  next here => cases here; cases same; exact found
  next => cases same

section step

variable {config : ConnectionConfig} {before after : Schedule ι} {i : ι} {part : ReceivedTransaction}
  {partials : Partials}

theorem key_eq (multi : Multi config (partsOf (before ++ (i, part) :: after) i)) {piece : ReceivedTransaction}
    (member : piece ∈ partsOf (before ++ (i, part) :: after) i) :
    TransactionHeader.key piece.header = TransactionHeader.key part.header := by
  obtain ⟨_, _, same, _⟩ := multi.shared
  exact (same piece member).1.trans (same part (by simp)).1.symm

theorem single_step (single : Single config (partsOf (before ++ (i, part) :: after) i))
    (tracks : Tracks before ((i, part) :: after) partials) :
    partials.add part = (completion before (i, part) after, partials) ∧
      Tracks (before ++ [(i, part)]) after partials := by
  obtain ⟨only, alone, whole, _⟩ := single
  obtain ⟨noneBefore, rfl, noneAfter⟩ : partsOf before i = [] ∧ part = only ∧ partsOf after i = [] := by
    rw [partsOf_append, partsOf_cons_self, List.append_eq_singleton_iff] at alone
    simpa using alone
  refine ⟨?_, ?_, ?_⟩
  · simp [Partials.add, whole, completion, noneAfter, noneBefore]
  · intro j progress other member
    have different : i ≠ j := by rintro rfl; exact progress.2 noneAfter
    rw [partsOf_other different] at member ⊢
    exact tracks.held j ((inProgress_other different).mp progress) other member
  · intro key entry found
    obtain ⟨j, progress, same⟩ := tracks.only key entry found
    have different : i ≠ j := by rintro rfl; exact progress.1 noneBefore
    refine ⟨j, (inProgress_other different).mpr progress, ?_⟩
    rwa [partsOf_other different]

theorem earlier_data (wellFormed : WellFormed config (before ++ (i, part) :: after))
    (multi : Multi config (partsOf (before ++ (i, part) :: after) i))
    (tracks : Tracks before ((i, part) :: after) partials) :
    ((partials.lookup (TransactionHeader.key part.header)).getD {}).data = dataOf (partsOf before i) := by
  by_cases begun : partsOf before i = []
  · have nothing : partials.lookup (TransactionHeader.key part.header) = none := by
      cases found : partials.lookup (TransactionHeader.key part.header) with
      | none => rfl
      | some entry =>
        -- Its owner would be in progress beside this transaction once this part has come.
        obtain ⟨j, progress, owns⟩ := tracks.only _ entry found
        have different : i ≠ j := by rintro rfl; exact progress.1 begun
        have more : partsOf after i ≠ [] := by
          intro none
          have several := multi.several
          rw [partsOf_append, partsOf_cons_self, begun, none] at several
          simp at several
        obtain ⟨other, rest, parts⟩ := List.exists_cons_of_ne_nil progress.1
        refine absurd (owns other (by simp [parts])).symm (wellFormed.distinct (before ++ [(i, part)]) after
          (by simp) i j ⟨by simp, more⟩ ((inProgress_other different).mpr progress) different part (by simp) other ?_)
        simp [parts]
    rw [nothing, begun]
    rfl
  · obtain ⟨first, rest, parts⟩ := List.exists_cons_of_ne_nil begun
    obtain ⟨header, found⟩ := tracks.held i ⟨begun, by simp⟩ first (by simp [parts])
    have shared : TransactionHeader.key first.header = TransactionHeader.key part.header :=
      key_eq multi (by simp [parts])
    rw [← shared, found]
    rfl

/-- The sizes reach the total with the last part and not before. -/
theorem total_reached (wellFormed : WellFormed config (before ++ (i, part) :: after))
    (multi : Multi config (partsOf (before ++ (i, part) :: after) i)) :
    part.header.totalSize ≠ part.header.dataSize ∧
      (part.header.totalSize.toNat ≤ (dataOf (partsOf before i) ++ part.data).length ↔ partsOf after i = []) := by
  obtain ⟨key, total, same, sum, _⟩ := multi.shared
  obtain ⟨_, rfl⟩ := same part (by simp)
  have nonempty (other : ReceivedTransaction) (member : other ∈ partsOf (before ++ (i, part) :: after) i) :
      0 < other.data.length :=
    List.length_pos_iff.mpr (wellFormed.part (i, other) (partsOf_ne_nil_mem member)).1
  have size : part.header.dataSize.toNat = part.data.length := (wellFormed.part (i, part) (by simp)).2
  have here (other : ReceivedTransaction) (parts : List ReceivedTransaction) (member : other ∈ parts) :
      other.data.length ≤ (dataOf parts).length := by
    obtain ⟨left, right, rfl⟩ := List.append_of_mem member
    simp only [dataOf, List.flatMap_append, List.flatMap_cons, List.length_append]
    omega
  -- The parts before, this one and the parts behind it make up the total, and none is empty.
  have split : (dataOf (partsOf before i)).length + part.data.length + (dataOf (partsOf after i)).length =
      part.header.totalSize.toNat := by
    rw [← sum, partsOf_append, partsOf_cons_self]
    simp only [dataOf, List.flatMap_append, List.flatMap_cons, List.length_append]
    omega
  constructor
  · intro single
    rw [single] at split
    have several := multi.several
    rw [partsOf_append, partsOf_cons_self, List.length_append, List.length_cons] at several
    cases others : partsOf before i with
    | cons other rest =>
      have atLeast := here other (partsOf before i) (by simp [others])
      have filled := nonempty other (by simp [others])
      omega
    | nil =>
      obtain ⟨other, rest, parts⟩ : ∃ other rest, partsOf after i = other :: rest := by
        refine List.exists_cons_of_ne_nil fun none => ?_
        simp [others, none] at several
      have atLeast := here other (partsOf after i) (by simp [parts])
      have filled := nonempty other (by simp [parts])
      omega
  · rw [List.length_append]
    constructor
    · intro reached
      by_contra more
      obtain ⟨other, rest, parts⟩ := List.exists_cons_of_ne_nil more
      have atLeast := here other (partsOf after i) (by simp [parts])
      have filled := nonempty other (by simp [parts])
      omega
    · intro none
      rw [none] at split
      simp only [dataOf, List.flatMap_nil, List.length_nil] at split ⊢
      omega

theorem partsOf_upTo {piece : ReceivedTransaction} (member : piece ∈ partsOf (before ++ [(i, part)]) i) :
    piece ∈ partsOf (before ++ (i, part) :: after) i := by
  simp only [partsOf_append, partsOf_cons_self, partsOf_nil, List.mem_append, List.mem_singleton] at member
  rcases member with member | rfl
  · simp [member]
  · simp

theorem owner_ne (multi : Multi config (partsOf (before ++ (i, part) :: after) i)) {key : PartialKey}
    (other : key ≠ TransactionHeader.key part.header) {j : ι} (begun : partsOf before j ≠ [])
    (owns : ∀ piece ∈ partsOf before j, TransactionHeader.key piece.header = key) : i ≠ j := by
  rintro rfl
  obtain ⟨first, rest, parts⟩ := List.exists_cons_of_ne_nil begun
  refine other ((owns first (by simp [parts])).symm.trans (key_eq multi ?_))
  simp [parts]

theorem key_ne (wellFormed : WellFormed config (before ++ (i, part) :: after)) {j : ι} (different : i ≠ j)
    (progress : InProgress before ((i, part) :: after) j) (begun : partsOf before i ≠ [] ∨ partsOf after i ≠ [])
    {other : ReceivedTransaction} (member : other ∈ partsOf before j) :
    TransactionHeader.key other.header ≠ TransactionHeader.key part.header := by
  have inSchedule : other ∈ partsOf (before ++ (i, part) :: after) j := by simp [member]
  -- With an earlier part they meet before this one, with a later part behind it.
  rcases begun with begun | more
  · exact (wellFormed.distinct before ((i, part) :: after) rfl i j ⟨begun, by simp⟩ progress different
      part (by simp) other inSchedule).symm
  · exact (wellFormed.distinct (before ++ [(i, part)]) after (by simp) i j ⟨by simp, more⟩
      ((inProgress_other different).mpr progress) different part (by simp) other inSchedule).symm

section
variable {next : Partials} (tracks : Tracks before ((i, part) :: after) partials)
  (same : ∀ key, key ≠ TransactionHeader.key part.header → next.lookup key = partials.lookup key)
include tracks same

-- A part changes what is held under its own key only, and no other transaction in progress has it.
theorem held_elsewhere (wellFormed : WellFormed config (before ++ (i, part) :: after))
    (begun : partsOf before i ≠ [] ∨ partsOf after i ≠ []) {j : ι} (different : i ≠ j)
    (progress : InProgress (before ++ [(i, part)]) after j) {other : ReceivedTransaction}
    (member : other ∈ partsOf (before ++ [(i, part)]) j) :
    ∃ header, next.lookup (TransactionHeader.key other.header) =
      some { header, data := dataOf (partsOf (before ++ [(i, part)]) j) } := by
  have before_j := (inProgress_other different).mp progress
  rw [partsOf_other different] at member ⊢
  rw [same _ (key_ne wellFormed different before_j begun member)]
  exact tracks.held j before_j other member

theorem only_elsewhere (multi : Multi config (partsOf (before ++ (i, part) :: after) i)) {key : PartialKey}
    (here : key ≠ TransactionHeader.key part.header) {entry : PartialReceive} (found : next.lookup key = some entry) :
    ∃ j, InProgress (before ++ [(i, part)]) after j ∧
      ∀ piece ∈ partsOf (before ++ [(i, part)]) j, TransactionHeader.key piece.header = key := by
  rw [same key here] at found
  obtain ⟨j, progress, owns⟩ := tracks.only key entry found
  have different := owner_ne multi here progress.1 owns
  refine ⟨j, (inProgress_other different).mpr progress, ?_⟩
  rwa [partsOf_other different]

end

theorem multi_last (wellFormed : WellFormed config (before ++ (i, part) :: after))
    (multi : Multi config (partsOf (before ++ (i, part) :: after) i))
    (tracks : Tracks before ((i, part) :: after) partials) (last : partsOf after i = []) :
    (partials.add part).1 = completion before (i, part) after ∧
      Tracks (before ++ [(i, part)]) after (partials.add part).2 := by
  obtain ⟨several, reached⟩ := total_reached wellFormed multi
  have begun : partsOf before i ≠ [] := by
    intro none
    have two := multi.several
    rw [partsOf_append, partsOf_cons_self, none, last] at two
    simp at two
  have adds : partials.add part = (some ⟨part.header, dataOf (partsOf before i) ++ part.data⟩,
      partials.erase (TransactionHeader.key part.header)) := by
    simp only [Partials.add, if_neg several, earlier_data wellFormed multi tracks, if_pos (reached.mpr last)]
  rw [adds]
  refine ⟨by simp [completion, last], ?_, ?_⟩
  · intro j progress other member
    have different : i ≠ j := by rintro rfl; exact progress.2 last
    exact held_elsewhere tracks (fun key other => Finmap.lookup_erase_ne other) wellFormed (.inl begun) different
      progress member
  · intro key entry found
    by_cases here : key = TransactionHeader.key part.header
    · rw [here, Finmap.lookup_erase] at found
      cases found
    · exact only_elsewhere tracks (fun key other => Finmap.lookup_erase_ne other) multi here found

theorem multi_more (wellFormed : WellFormed config (before ++ (i, part) :: after))
    (multi : Multi config (partsOf (before ++ (i, part) :: after) i))
    (tracks : Tracks before ((i, part) :: after) partials) (more : partsOf after i ≠ []) :
    (partials.add part).1 = completion before (i, part) after ∧
      Tracks (before ++ [(i, part)]) after (partials.add part).2 := by
  obtain ⟨several, reached⟩ := total_reached wellFormed multi
  have few : ¬ part.header.totalSize.toNat ≤ (dataOf (partsOf before i) ++ part.data).length :=
    fun enough => more (reached.mp enough)
  have adds : partials.add part = (none, partials.insert (TransactionHeader.key part.header)
      { header := part.header, data := dataOf (partsOf before i) ++ part.data }) := by
    simp only [Partials.add, if_neg several, earlier_data wellFormed multi tracks, if_neg few]
  rw [adds]
  refine ⟨by simp [completion, more], ?_, ?_⟩
  · intro j progress other member
    by_cases here : i = j
    · subst here
      exact ⟨part.header, by rw [key_eq multi (partsOf_upTo member), Finmap.lookup_insert]; simp⟩
    · exact held_elsewhere tracks (fun key other => Finmap.lookup_insert_of_ne _ other) wellFormed (.inr more) here
        progress member
  · intro key entry found
    by_cases here : key = TransactionHeader.key part.header
    · exact ⟨i, ⟨by simp, more⟩, fun piece member => here ▸ key_eq multi (partsOf_upTo member)⟩
    · exact only_elsewhere tracks (fun key other => Finmap.lookup_insert_of_ne _ other) multi here found

end step

theorem add_step {config : ConnectionConfig} {before after : Schedule ι} {entry : ι × ReceivedTransaction}
    {partials : Partials} (wellFormed : WellFormed config (before ++ entry :: after))
    (tracks : Tracks before (entry :: after) partials) :
    (partials.add entry.2).1 = completion before entry after ∧
      Tracks (before ++ [entry]) after (partials.add entry.2).2 := by
  obtain ⟨i, part⟩ := entry
  rcases wellFormed.transaction (i, part) (by simp) with single | multi
  · obtain ⟨adds, kept⟩ := single_step single tracks
    rw [adds]
    exact ⟨rfl, kept⟩
  · by_cases last : partsOf after i = []
    · exact multi_last wellFormed multi tracks last
    · exact multi_more wellFormed multi tracks last

/-- Adding the parts of a well-formed schedule completes its transactions. -/
theorem addAll_dispatches {config : ConnectionConfig} (before now later : Schedule ι)
    {partials : Partials} (wellFormed : WellFormed config (before ++ (now ++ later)))
    (tracks : Tracks before (now ++ later) partials) :
    (partials.addAll (now.map Prod.snd)).1 = dispatches before now later ∧
      Tracks (before ++ now) later (partials.addAll (now.map Prod.snd)).2 := by
  induction now generalizing before partials with
  | nil => simpa [Partials.addAll, dispatches] using tracks
  | cons entry now ih =>
    obtain ⟨completed, kept⟩ := add_step wellFormed tracks
    have rest := ih (before ++ [entry]) (by simpa using wellFormed) kept
    simp only [List.map_cons, Partials.addAll, dispatches]
    rw [completed, rest.1]
    refine ⟨rfl, ?_⟩
    simpa using rest.2

end Schedule

end Slopline.Net
