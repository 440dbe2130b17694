import Slopline.Protocol.Transfer

/-! The transfer records: what an encoder writes is what its decoder reads, every read is in
bounds, and a record's end can be told from what it says. -/

set_option autoImplicit false

namespace Slopline.Protocol

open Library Endian

theorem fixedArray_toList {extent : Nat} (array : Vector UInt8 extent) :
    fixedArray extent array.toList = array := by
  ext position inside
  simp [fixedArray]

theorem fixedArray_of_length {extent : Nat} {part : Bytes} (size : part.length = extent) :
    (fixedArray extent part).toList = part := by
  apply List.ext_getElem
  · rw [Vector.length_toList, size]
  · intro position _ inside
    simp [fixedArray, inside]

/-! Flat file. -/

/-- Its size survives the cast to 32 bits. -/
def ForkFits (fork : FlatFileFork) : Prop := fork.data.length < 2 ^ 32

@[simp] theorem length_encodeFork (fork : FlatFileFork) :
    (encodeFork fork).length = kFlatFileForkHeaderSize + fork.data.length := by
  simp only [encodeFork, kFlatFileForkHeaderSize, List.length_append, length_writeU32be]
  omega

theorem length_flatFileBytes (file : FlatFile) :
    (flatFileBytes file).length = kFlatFileHeaderSize + (file.forks.flatMap encodeFork).length := by
  simp only [flatFileBytes, kFlatFileHeaderSize, List.length_append, length_writeU32be, length_writeU16be,
    List.length_replicate]
  omega

theorem readFork_complete (fork : FlatFileFork) (rest : Bytes) (fits : ForkFits fork) :
    readFork (encodeFork fork ++ rest) = .value (fork, rest) := by
  have size : (UInt32.ofNat fork.data.length).toNat = fork.data.length := UInt32.toNat_ofNat_of_lt' fits
  have enough : ¬ (encodeFork fork ++ rest).length < kFlatFileForkHeaderSize := by
    rw [List.length_append, length_encodeFork]
    omega
  rw [readFork, if_neg enough]
  simp [encodeFork, kFlatFileForkHeaderSize, size]

theorem tryDecodeFlatFile_complete {file : FlatFile} (count : file.forks.length ≤ kMaxFieldCount)
    (fits : ∀ fork ∈ file.forks, ForkFits fork) : tryDecodeFlatFile (flatFileBytes file) = .value file := by
  have forkCount := toNat_ofNat_u16 count
  have enough : ¬ (flatFileBytes file).length < kFlatFileHeaderSize := by
    rw [length_flatFileBytes]
    omega
  have forks := times_flatMap readFork_complete fits []
  rw [List.append_nil] at forks
  rw [tryDecodeFlatFile, if_neg enough]
  simp [flatFileBytes, kFlatFileHeaderSize, forkCount, forks, -List.reduceReplicate]

theorem readFork_fits (bytes : Bytes) : (readFork bytes).Post fun taken => ForkFits taken.1 := by
  simp only [readFork, Checked.post_ite, Checked.post_error, Checked.post_bind, post_u32beAt,
    Span.post_subspan, Span.post_first, Checked.pure_eq, Checked.post_value, implies_true, true_and]
  intro enough
  have header : kFlatFileForkHeaderSize = 16 := rfl
  refine ⟨by omega, fun _ _ => ⟨by omega, fun _ _ => ⟨by omega, fun dataSize _ => ⟨by omega, ?_⟩⟩⟩⟩
  intro inside
  have bound := dataSize.toNat_lt
  refine ⟨by omega, by omega, ?_⟩
  rw [ForkFits, List.length_take]
  omega

theorem tryDecodeFlatFile_fits (bytes : Bytes) :
    (tryDecodeFlatFile bytes).Post fun file => ∀ fork ∈ file.forks, ForkFits fork := by
  simp only [tryDecodeFlatFile, Checked.post_ite, Checked.post_error, Checked.post_bind, post_u32beAt,
    post_u16beAt, Span.post_subspan, Checked.pure_eq, Checked.post_value, implies_true, true_and]
  intro enough
  have header : kFlatFileHeaderSize = 24 := rfl
  refine ⟨by omega, fun _ _ _ => ⟨by omega, fun _ _ => ⟨by omega, fun forkCount _ => ⟨by omega, ?_⟩⟩⟩⟩
  apply (Checked.times_post readFork_fits forkCount.toNat _).mono
  intro taken forks _
  exact forks

theorem tryDecodeFlatFile_inBounds (bytes : Bytes) : (tryDecodeFlatFile bytes).InBounds :=
  (tryDecodeFlatFile_fits bytes).inBounds

theorem readFork_cut (cut whole : Bytes) (shorter : Shorter cut whole) :
    Cut .truncated (Both Taken) (readFork cut) (readFork whole) := by
  refine Cut.needs shorter fun _ => ?_
  refine Cut.same (Cut.u32beAt shorter 0) fun type => ?_
  refine Cut.same (Cut.u32beAt shorter 4) fun compressionType => ?_
  refine Cut.same (Cut.u32beAt shorter 12) fun dataSize => ?_
  refine Cut.bind (Cut.subspan shorter _) fun cut whole shorter => ?_
  refine Cut.needs shorter fun _ => ?_
  refine Cut.same (Cut.first shorter _) fun data => ?_
  refine Cut.bind (Cut.subspan shorter _) fun cut whole shorter => ?_
  exact .value ⟨_, rfl, rfl, shorter⟩

theorem tryDecodeFlatFile_delimits : SelfDelimiting .truncated .trailingBytes tryDecodeFlatFile := by
  intro cut whole shorter
  refine Cut.needs shorter fun _ => ?_
  refine Cut.same (Cut.u32beAt shorter 0) fun format => ?_
  refine Cut.test (fun _ => .errors _ _) fun _ => ?_
  refine Cut.same (Cut.u16beAt shorter 4) fun version => ?_
  refine Cut.same (Cut.u16beAt shorter 22) fun forkCount => ?_
  refine Cut.bind (Cut.subspan shorter _) fun cut whole shorter => ?_
  refine Cut.bind (Cut.times readFork_cut forkCount.toNat shorter) fun taken taken' ⟨_, left⟩ => ?_
  exact Cut.ends left

/-! INFO fork. -/

structure InfoForkFits (info : FlatFileInfo) : Prop where
  name : info.name.length ≤ kMaxFieldDataSize
  comment : info.comment.length ≤ kMaxFieldDataSize

@[simp] theorem length_infoForkHead (info : FlatFileInfo) :
    (infoForkHead info).length = kFlatFileInfoFixedSize := by
  simp [infoForkHead, kFlatFileInfoFixedSize, kDateTimeStampSize]

theorem length_infoForkBytes (info : FlatFileInfo) :
    (infoForkBytes info).length =
      kFlatFileInfoFixedSize + info.name.length + 2 + info.comment.length := by
  simp only [infoForkBytes, List.length_append, length_infoForkHead, length_writeU16be]
  omega

-- What the decoder finds at each of its offsets.
theorem tryDecodeInfoFork_complete {info : FlatFileInfo} (fits : InfoForkFits info) :
    tryDecodeInfoFork (infoForkBytes info) = .value info := by
  have nameSize := toNat_ofNat_u16 fits.name
  have commentSize := toNat_ofNat_u16 fits.comment
  have stamp (stamp : DateTimeStamp) : tryDecodeDateTimeStamp (encodeDateTimeStamp stamp) = .value stamp := by
    rw [tryDecodeDateTimeStamp_exact (length_encodeDateTimeStamp stamp), decodeDateTimeStamp_encode]
  have fixed : ¬ (infoForkBytes info).length < kFlatFileInfoFixedSize := by
    rw [length_infoForkBytes]
    omega
  have named : ¬ (infoForkBytes info).length < kFlatFileInfoFixedSize + info.name.length + 2 := by
    rw [length_infoForkBytes]
    omega
  have words : (u32beAt 0 (infoForkBytes info) : Checked DecodeError UInt32) = .value info.platform ∧
      (u32beAt 4 (infoForkBytes info) : Checked DecodeError UInt32) = .value info.typeSig ∧
      (u32beAt 8 (infoForkBytes info) : Checked DecodeError UInt32) = .value info.creatorSig ∧
      (u32beAt 12 (infoForkBytes info) : Checked DecodeError UInt32) = .value info.flags ∧
      (u32beAt 16 (infoForkBytes info) : Checked DecodeError UInt32) = .value info.platformFlags := by
    simp [infoForkBytes, infoForkHead]
  have reserved : (Span.slice 20 32 (infoForkBytes info) : Checked DecodeError Bytes) =
      .value info.reserved.toList := by
    simp [infoForkBytes, infoForkHead]
  have create : (Span.slice 52 8 (infoForkBytes info) : Checked DecodeError Bytes) =
      .value (encodeDateTimeStamp info.createDate) := by
    simp [infoForkBytes, infoForkHead, kDateTimeStampSize]
  have modify : (Span.slice 60 8 (infoForkBytes info) : Checked DecodeError Bytes) =
      .value (encodeDateTimeStamp info.modifyDate) := by
    simp [infoForkBytes, infoForkHead, kDateTimeStampSize]
  have script : (u16beAt 68 (infoForkBytes info) : Checked DecodeError UInt16) =
      .value info.nameScript := by
    simp [infoForkBytes, infoForkHead, kDateTimeStampSize]
  have announced : (u16beAt 70 (infoForkBytes info) : Checked DecodeError UInt16) =
      .value (UInt16.ofNat info.name.length) := by
    simp [infoForkBytes, infoForkHead, kDateTimeStampSize]
  have name : (Span.slice kFlatFileInfoFixedSize info.name.length (infoForkBytes info) :
      Checked DecodeError Bytes) = .value info.name := by
    simp [infoForkBytes]
  have behind : (u16beAt (kFlatFileInfoFixedSize + info.name.length) (infoForkBytes info) :
      Checked DecodeError UInt16) = .value (UInt16.ofNat info.comment.length) := by
    simp [infoForkBytes]
  have comment : (Span.slice (kFlatFileInfoFixedSize + info.name.length + 2) info.comment.length
      (infoForkBytes info) : Checked DecodeError Bytes) = .value info.comment := by
    have skip : kFlatFileInfoFixedSize + info.name.length + 2 - kFlatFileInfoFixedSize - info.name.length = 2 := by
      omega
    rw [infoForkBytes, Span.slice_skip (by rw [length_infoForkHead]; omega),
      Span.slice_skip (by rw [length_infoForkHead]; omega), length_infoForkHead, skip]
    simp
  rw [tryDecodeInfoFork, if_neg fixed]
  simp only [words, reserved, create, modify, stamp, script, announced, nameSize, if_neg named, name,
    behind, commentSize, comment, Checked.value_bind, Checked.demand_value, fixedArray_toList,
    Checked.pure_eq]
  rw [length_infoForkBytes, if_neg (Nat.lt_irrefl _), if_neg (Nat.lt_irrefl _)]

theorem tryDecodeInfoFork_sound (bytes : Bytes) :
    (tryDecodeInfoFork bytes).Post fun info => InfoForkFits info ∧ bytes = infoForkBytes info := by
  -- Both stamps are cut to their eight bytes, so their decoder has a value.
  have stamp (offset : Nat) (inside : offset + 8 ≤ bytes.length) :
      ((bytes.drop offset).take 8).length = kDateTimeStampSize := by
    simp only [List.length_take, List.length_drop, kDateTimeStampSize]
    omega
  simp only [tryDecodeInfoFork, Checked.post_ite, Checked.post_error, Checked.post_bind, post_u32beAt,
    post_u16beAt, Span.post_slice, Checked.post_demand, Checked.pure_eq, Checked.post_value, implies_true,
    true_and, List.drop_zero]
  intro fixed
  have size : kFlatFileInfoFixedSize = 72 := rfl
  refine ⟨by omega, fun platform first => ⟨by omega, fun typeSig second => ⟨by omega, ?_⟩⟩⟩
  refine fun creatorSig third => ⟨by omega, fun flags fourth => ⟨by omega, fun platformFlags fifth => ?_⟩⟩
  have create := tryDecodeDateTimeStamp_exact (stamp 52 (by omega))
  have modify := tryDecodeDateTimeStamp_exact (stamp 60 (by omega))
  refine ⟨by omega, by omega, by omega, _, create, _, modify, by omega, fun nameScript sixth => ?_⟩
  refine ⟨by omega, fun nameSize seventh named => ⟨by omega, by omega, fun commentSize eighth => ?_⟩⟩
  intro whole ended
  refine ⟨by omega, ?_⟩
  -- The comment is all that is left, and each part before it goes in front of what follows.
  have name : ((bytes.drop kFlatFileInfoFixedSize).take nameSize.toNat).length = nameSize.toNat :=
    length_take_drop (by omega)
  have comment : (bytes.drop (kFlatFileInfoFixedSize + nameSize.toNat + 2)).take commentSize.toNat =
      bytes.drop (kFlatFileInfoFixedSize + nameSize.toNat + 2) := by
    apply List.take_of_length_le
    rw [List.length_drop]
    omega
  have left : (bytes.drop (kFlatFileInfoFixedSize + nameSize.toNat + 2)).length = commentSize.toNat := by
    rw [List.length_drop]
    omega
  have reserved : ((bytes.drop 20).take 32).length = 32 := length_take_drop (by omega)
  have nameBound := nameSize.toNat_lt
  have commentBound := commentSize.toNat_lt
  rw [comment]
  constructor
  · constructor
    · simp only [name, kMaxFieldDataSize]
      omega
    · simp only [left, kMaxFieldDataSize]
      omega
  · simp only [infoForkBytes, infoForkHead, name, left, UInt16.ofNat_toNat, List.append_assoc,
      fixedArray_of_length reserved, encodeDateTimeStamp_decode (stamp 52 (by omega)),
      encodeDateTimeStamp_decode (stamp 60 (by omega))]
    calc
      bytes = writeU32be platform ++ bytes.drop 4 := first
      _ = writeU32be platform ++ (writeU32be typeSig ++ (writeU32be creatorSig ++ (writeU32be flags ++
            (writeU32be platformFlags ++ bytes.drop 20)))) := by rw [second, third, fourth, fifth]
      _ = writeU32be platform ++ (writeU32be typeSig ++ (writeU32be creatorSig ++ (writeU32be flags ++
            (writeU32be platformFlags ++ ((bytes.drop 20).take 32 ++ ((bytes.drop 52).take 8 ++
            ((bytes.drop 60).take 8 ++ bytes.drop 68))))))) := by
        rw [← take_drop_append 60 8, ← take_drop_append 52 8, ← take_drop_append 20 32]
      _ = _ := by
        rw [sixth, seventh, ← eighth, ← take_drop_append]
        rfl

theorem tryDecodeInfoFork_inBounds (bytes : Bytes) : (tryDecodeInfoFork bytes).InBounds :=
  (tryDecodeInfoFork_sound bytes).inBounds

theorem tryDecodeInfoFork_delimits : SelfDelimiting .truncated .trailingBytes tryDecodeInfoFork := by
  intro cut whole shorter
  refine Cut.needs shorter fun _ => ?_
  refine Cut.same (Cut.u32beAt shorter 0) fun platform => ?_
  refine Cut.same (Cut.u32beAt shorter 4) fun typeSig => ?_
  refine Cut.same (Cut.u32beAt shorter 8) fun creatorSig => ?_
  refine Cut.same (Cut.u32beAt shorter 12) fun flags => ?_
  refine Cut.same (Cut.u32beAt shorter 16) fun platformFlags => ?_
  refine Cut.same (Cut.slice shorter 20 32) fun reserved => ?_
  refine Cut.same (Cut.slice shorter 52 8) fun create => ?_
  refine Cut.same (Cut.slice shorter 60 8) fun modify => ?_
  refine Cut.same (Cut.refl _ fun _ => rfl) fun createDate => ?_
  refine Cut.same (Cut.refl _ fun _ => rfl) fun modifyDate => ?_
  refine Cut.same (Cut.u16beAt shorter 68) fun nameScript => ?_
  refine Cut.same (Cut.u16beAt shorter 70) fun nameSize => ?_
  refine Cut.needs shorter fun _ => ?_
  refine Cut.same (Cut.slice shorter _ _) fun name => ?_
  refine Cut.same (Cut.u16beAt shorter _) fun commentSize => ?_
  exact Cut.exact shorter

/-! Resume data. -/

@[simp] theorem length_encodeResumeEntry (entry : ResumeEntry) :
    (encodeResumeEntry entry).length = kResumeEntrySize := by
  simp [encodeResumeEntry, kResumeEntrySize]

theorem length_resumeEntries (entries : List ResumeEntry) :
    (entries.flatMap encodeResumeEntry).length = entries.length * kResumeEntrySize := by
  simp [List.length_flatMap, Nat.mul_comm]

theorem length_resumeDataBytes (resume : ResumeData) :
    (resumeDataBytes resume).length = kResumeDataHeaderSize + resume.entries.length * kResumeEntrySize := by
  simp only [resumeDataBytes, List.length_append, length_writeU32be, length_writeU16be,
    List.length_replicate, length_resumeEntries, kResumeDataHeaderSize]
  omega

-- Round by round: the entries before the index lie behind, the others ahead.
theorem readResumeEntries_complete {head : Bytes} (size : head.length = kResumeDataHeaderSize)
    (before entries : List ResumeEntry) :
    readResumeEntries (head ++ (before.flatMap encodeResumeEntry ++ entries.flatMap encodeResumeEntry))
      entries.length before.length = .value entries := by
  induction entries generalizing before with
  | nil => rfl
  | cons entry entries ih =>
    have behind := length_resumeEntries before
    have part : (Span.slice (kResumeDataHeaderSize + before.length * kResumeEntrySize) kResumeEntrySize
        (head ++ (before.flatMap encodeResumeEntry ++ (entry :: entries).flatMap encodeResumeEntry)) :
          Checked DecodeError Bytes) = .value (encodeResumeEntry entry) := by
      rw [Span.slice_skip (by omega), Span.slice_skip (by omega), size, behind]
      simp
    have next := ih (before ++ [entry])
    simp only [List.flatMap_append, List.flatMap_cons, List.flatMap_nil, List.append_nil,
      List.append_assoc, List.length_append, List.length_singleton] at next part ⊢
    rw [List.length_cons, readResumeEntries, part]
    simp only [Checked.value_bind, next]
    simp [encodeResumeEntry]

theorem tryDecodeResumeData_complete {resume : ResumeData} (version : resume.version = 1)
    (count : resume.entries.length ≤ kMaxFieldCount) :
    tryDecodeResumeData (resumeDataBytes resume) = .value resume := by
  have entryCount := toNat_ofNat_u16 count
  have fixed : ¬ (resumeDataBytes resume).length < kResumeDataHeaderSize := by
    rw [length_resumeDataBytes]
    omega
  have format : (u32beAt 0 (resumeDataBytes resume) : Checked DecodeError UInt32) =
      .value kResumeDataFormat := by
    simp [resumeDataBytes]
  have first : (u16beAt 4 (resumeDataBytes resume) : Checked DecodeError UInt16) = .value 1 := by
    simp [resumeDataBytes, version]
  have announced : (u16beAt 40 (resumeDataBytes resume) : Checked DecodeError UInt16) =
      .value (UInt16.ofNat resume.entries.length) := by
    simp [resumeDataBytes, -List.reduceReplicate]
  have entries : readResumeEntries (resumeDataBytes resume) resume.entries.length 0 = .value resume.entries := by
    have size : (writeU32be kResumeDataFormat ++ (writeU16be resume.version ++ (List.replicate 34 0 ++
        writeU16be (UInt16.ofNat resume.entries.length)))).length = kResumeDataHeaderSize := by
      simp [kResumeDataHeaderSize]
    have read := readResumeEntries_complete size [] resume.entries
    simpa only [resumeDataBytes, List.append_assoc, List.flatMap_nil, List.nil_append,
      List.length_nil] using read
  rw [tryDecodeResumeData, if_neg fixed]
  simp only [format, first, announced, entryCount, entries, Checked.value_bind, Checked.pure_eq, ne_eq,
    not_true_eq_false, if_false, length_resumeDataBytes, Nat.lt_irrefl]
  rw [← version]

-- Round `index` reads entry `index`; the size check has covered all of them.
theorem readResumeEntries_inBounds (bytes : Bytes) (remaining index : Nat)
    (covered : kResumeDataHeaderSize + (index + remaining) * kResumeEntrySize ≤ bytes.length) :
    (readResumeEntries bytes remaining index).InBounds := by
  induction remaining generalizing index with
  | zero => trivial
  | succ remaining ih =>
    have size : kResumeEntrySize = 16 := rfl
    have later := ih (index + 1) (by rw [Nat.add_assoc, Nat.add_comm 1]; exact covered)
    have inside : kResumeDataHeaderSize + index * kResumeEntrySize + kResumeEntrySize ≤ bytes.length := by
      simp only [kResumeEntrySize] at covered ⊢
      omega
    simp only [Checked.InBounds, readResumeEntries, Checked.post_bind, Span.post_slice, post_u32beAt,
      Checked.pure_eq, Checked.post_value]
    refine ⟨inside, ?_⟩
    rw [List.length_take, List.length_drop]
    exact ⟨by omega, fun _ _ => ⟨by omega, fun _ _ => later⟩⟩

theorem tryDecodeResumeData_inBounds (bytes : Bytes) : (tryDecodeResumeData bytes).InBounds := by
  simp only [Checked.InBounds, tryDecodeResumeData, Checked.post_ite, Checked.post_error, Checked.post_bind,
    post_u32beAt, post_u16beAt, Checked.pure_eq, Checked.post_value]
  have size : kResumeDataHeaderSize = 42 := rfl
  refine ⟨fun _ => trivial, fun fixed => ⟨by omega, fun _ _ => ⟨fun _ => trivial, fun _ => ?_⟩⟩⟩
  refine ⟨by omega, fun _ _ => ⟨fun _ => trivial, fun _ => ⟨by omega, fun count _ => ?_⟩⟩⟩
  refine ⟨fun _ => trivial, fun whole => ⟨fun _ => trivial, fun _ => ?_⟩⟩
  exact readResumeEntries_inBounds bytes count.toNat 0 (by rw [Nat.zero_add]; omega)

theorem tryDecodeResumeData_delimits : SelfDelimiting .truncated .trailingBytes tryDecodeResumeData := by
  intro cut whole shorter
  refine Cut.needs shorter fun _ => ?_
  refine Cut.same (Cut.u32beAt shorter 0) fun format => ?_
  refine Cut.test (fun _ => .errors _ _) fun _ => ?_
  refine Cut.same (Cut.u16beAt shorter 4) fun version => ?_
  refine Cut.test (fun _ => .errors _ _) fun _ => ?_
  refine Cut.same (Cut.u16beAt shorter 40) fun count => ?_
  exact Cut.exact shorter

/-! Folder-download item and resume command. -/

def encodeComponent (component : FolderPathComponent) : Bytes :=
  writeU16be component.script ++ (UInt8.ofNat component.name.length :: component.name)

def ComponentFits (component : FolderPathComponent) : Prop := component.name.length ≤ 255

instance (component : FolderPathComponent) : Decidable (ComponentFits component) :=
  inferInstanceAs (Decidable (component.name.length ≤ 255))

@[simp] theorem length_encodeComponent (component : FolderPathComponent) :
    (encodeComponent component).length = 3 + component.name.length := by
  simp only [encodeComponent, List.length_append, length_writeU16be, List.length_cons]
  omega

theorem appendComponents (components : List FolderPathComponent) (path : Bytes) :
    components.foldlM appendComponent path =
      if ∀ component ∈ components, ComponentFits component then
        .ok (path ++ components.flatMap encodeComponent)
      else .error .stringTooLong := by
  refine foldlM_append (fun out component => ?_) components path
  by_cases fits : ComponentFits component
  · rw [if_pos fits, appendComponent, if_neg (Nat.not_lt.mpr fits)]
    simp only [encodeComponent, List.append_assoc, List.singleton_append]
  · rw [if_neg fits, appendComponent, if_pos (Nat.lt_of_not_le fits)]

structure FolderItemFits (item : FolderDownloadItem) : Prop where
  names : ∀ component ∈ item.path, ComponentFits component
  size : 4 + (item.path.flatMap encodeComponent).length ≤ kMaxFieldDataSize

def folderItemBytes (item : FolderDownloadItem) : Bytes :=
  writeU16be (UInt16.ofNat (4 + (item.path.flatMap encodeComponent).length)) ++
    (writeU16be (if item.folder then 1 else 0) ++ (writeU16be (UInt16.ofNat item.path.length) ++
      item.path.flatMap encodeComponent))

theorem encodeFolderDownloadItem_eq_ok {item : FolderDownloadItem} {bytes : Bytes} :
    encodeFolderDownloadItem item = .ok bytes ↔ FolderItemFits item ∧ bytes = folderItemBytes item := by
  simp only [encodeFolderDownloadItem, appendComponents, bind_eq_ok, if_eq_ok, unless_eq_ok, List.nil_append]
  constructor
  · rintro ⟨_, ⟨names, ⟨⟩⟩, size, ⟨⟩⟩
    exact ⟨⟨names, Nat.le_of_not_lt size⟩, rfl⟩
  · rintro ⟨fits, rfl⟩
    exact ⟨_, ⟨fits.names, rfl⟩, Nat.not_lt.mpr fits.size, rfl⟩

theorem readComponent_complete (component : FolderPathComponent) (rest : Bytes)
    (fits : ComponentFits component) :
    readComponent (encodeComponent component ++ rest) = .value (component, rest) := by
  have size := toNat_ofNat_u8 fits
  have enough : ¬ (encodeComponent component ++ rest).length < 3 := by
    rw [List.length_append, length_encodeComponent]
    omega
  rw [readComponent, if_neg enough]
  have tail : (Span.subspan 3 (encodeComponent component ++ rest) : Checked DecodeError Bytes) =
      .value (component.name ++ rest) := by
    have split : encodeComponent component ++ rest =
        (writeU16be component.script ++ [UInt8.ofNat component.name.length]) ++ (component.name ++ rest) := by
      simp [encodeComponent]
    rw [split, Span.subspan_skip (by simp)]
    simp
  simp only [tail]
  simp [encodeComponent, size]

theorem readComponent_sound (path : Bytes) :
    (readComponent path).Post fun taken => ∃ used,
      (ComponentFits taken.1 ∧ used = encodeComponent taken.1) ∧ path = used ++ taken.2 := by
  simp only [readComponent, Checked.post_ite, Checked.post_error, Checked.post_bind, post_u16beAt,
    Span.post_element, Span.post_subspan, Span.post_first, Checked.pure_eq, Checked.post_value,
    implies_true, true_and]
  intro enough
  refine ⟨by omega, fun script first => ⟨by omega, by omega, fun inside => ?_⟩⟩
  have size : ((path.drop 3).take path[2].toNat).length = path[2].toNat := List.length_take_of_le (by omega)
  refine ⟨by omega, by omega, _, ⟨?_, rfl⟩, ?_⟩
  · have := path[2].toNat_lt
    simp only [ComponentFits, size]
    omega
  · calc
      path = writeU16be script ++ path.drop 2 := first
      _ = writeU16be script ++ (path[2] :: path.drop 3) := by rw [List.drop_eq_getElem_cons]
      _ = _ := by
        simp only [encodeComponent, size, UInt8.ofNat_toNat, List.append_assoc, List.cons_append,
          List.take_append_drop]

theorem readComponent_reads :
    Reads readComponent fun component used => ComponentFits component ∧ used = encodeComponent component := by
  constructor
  · rintro component used rest ⟨fits, rfl⟩
    exact readComponent_complete component rest fits
  · exact readComponent_sound

theorem length_components (components : List FolderPathComponent) :
    components.length ≤ (components.flatMap encodeComponent).length := by
  induction components with
  | nil => simp
  | cons component components ih =>
    simp only [List.length_cons, List.flatMap_cons, List.length_append, length_encodeComponent]
    omega

theorem length_folderItemBytes (item : FolderDownloadItem) :
    (folderItemBytes item).length = 2 + (4 + (item.path.flatMap encodeComponent).length) := by
  simp only [folderItemBytes, List.length_append, length_writeU16be]
  omega

theorem tryDecodeFolderDownloadItem_complete {item : FolderDownloadItem} (fits : FolderItemFits item) :
    tryDecodeFolderDownloadItem (folderItemBytes item) = .value item := by
  have size := toNat_ofNat_u16 fits.size
  have few : item.path.length ≤ 65535 := by
    have := length_components item.path
    have := fits.size
    simp only [kMaxFieldDataSize] at this
    omega
  have count := toNat_ofNat_u16 few
  have enough : ¬ (folderItemBytes item).length < 2 := by
    rw [length_folderItemBytes]
    omega
  have announced : (u16beAt 0 (folderItemBytes item) : Checked DecodeError UInt16) =
      .value (UInt16.ofNat (4 + (item.path.flatMap encodeComponent).length)) := by
    simp [folderItemBytes]
  have path := times_flatMap readComponent_complete fits.names []
  rw [List.append_nil] at path
  rw [tryDecodeFolderDownloadItem, if_neg enough, announced]
  simp only [Checked.value_bind, size, length_folderItemBytes, Nat.lt_irrefl, if_false]
  rw [if_neg (by omega)]
  simp only [Nat.add_sub_cancel_left]
  obtain ⟨folder, components⟩ := item
  cases folder <;> simp [folderItemBytes, count, path]

theorem tryDecodeFolderDownloadItem_inBounds (bytes : Bytes) :
    (tryDecodeFolderDownloadItem bytes).InBounds := by
  have path := Checked.times_inBounds readComponent_reads.inBounds
  simp only [Checked.InBounds, tryDecodeFolderDownloadItem, Checked.post_ite, Checked.post_error,
    Checked.post_bind, post_u16beAt, Span.post_slice, Checked.pure_eq, Checked.post_value, implies_true,
    and_true, path]
  grind

theorem tryDecodeFolderDownloadItem_delimits :
    SelfDelimiting .truncated .trailingBytes tryDecodeFolderDownloadItem := by
  intro cut whole shorter
  refine Cut.needs shorter fun _ => ?_
  refine Cut.same (Cut.u16beAt shorter 0) fun size => ?_
  refine Cut.test (fun _ => .short _) fun _ => ?_
  exact Cut.exact shorter

def folderResumeBytes (resume : ResumeData) : Bytes :=
  writeU16be folderDownloadActionResumeFile ++
    (writeU16be (UInt16.ofNat (resumeDataBytes resume).length) ++ resumeDataBytes resume)

structure FolderResumeFits (resume : ResumeData) : Prop where
  count : resume.entries.length ≤ kMaxFieldCount
  size : (resumeDataBytes resume).length ≤ kMaxFieldDataSize

theorem encodeResumeData_eq_ok {resume : ResumeData} {bytes : Bytes} :
    encodeResumeData resume = .ok bytes ↔
      resume.entries.length ≤ kMaxFieldCount ∧ bytes = resumeDataBytes resume := by
  rw [encodeResumeData, unless_eq_ok, Nat.not_lt, Except.ok.injEq, eq_comm (a := bytes)]

theorem encodeFolderDownloadResume_eq_ok {resume : ResumeData} {bytes : Bytes} :
    encodeFolderDownloadResume resume = .ok bytes ↔
      FolderResumeFits resume ∧ bytes = folderResumeBytes resume := by
  simp only [encodeFolderDownloadResume, bind_eq_ok, encodeResumeData_eq_ok, unless_eq_ok]
  constructor
  · rintro ⟨_, ⟨count, rfl⟩, size, ⟨⟩⟩
    exact ⟨⟨count, Nat.le_of_not_lt size⟩, rfl⟩
  · rintro ⟨fits, rfl⟩
    exact ⟨_, ⟨fits.count, rfl⟩, Nat.not_lt.mpr fits.size, rfl⟩

theorem length_folderResumeBytes (resume : ResumeData) :
    (folderResumeBytes resume).length = 4 + (resumeDataBytes resume).length := by
  simp only [folderResumeBytes, List.length_append, length_writeU16be]
  omega

/-- Behind an action and a size the decoder takes a record of that size and no other. -/
theorem tryDecodeFolderDownloadResume_sized {size : Nat} (fits : size ≤ 65535) (rflt : Bytes) :
    tryDecodeFolderDownloadResume
        (writeU16be folderDownloadActionResumeFile ++ (writeU16be (UInt16.ofNat size) ++ rflt)) =
      if rflt.length < size then .error .truncated
      else if size < rflt.length then .error .trailingBytes
      else tryDecodeResumeData rflt := by
  have length : (writeU16be folderDownloadActionResumeFile ++ (writeU16be (UInt16.ofNat size) ++ rflt)).length =
      4 + rflt.length := by
    simp only [List.length_append, length_writeU16be]
    omega
  have announced : (u16beAt 2 (writeU16be folderDownloadActionResumeFile ++
      (writeU16be (UInt16.ofNat size) ++ rflt)) : Checked DecodeError UInt16) = .value (UInt16.ofNat size) := by
    simp
  rw [tryDecodeFolderDownloadResume, length, if_neg (by omega), u16beAt_write]
  simp only [Checked.value_bind, ne_eq, not_true_eq_false, if_false, announced, toNat_ofNat_u16 fits,
    Nat.add_lt_add_iff_left]
  split
  · rfl
  split
  · rfl
  next few many =>
    have exact : rflt.length = size := by omega
    subst exact
    simp

theorem tryDecodeFolderDownloadResume_complete {resume : ResumeData} (version : resume.version = 1)
    (fits : FolderResumeFits resume) :
    tryDecodeFolderDownloadResume (folderResumeBytes resume) = .value resume := by
  rw [folderResumeBytes, tryDecodeFolderDownloadResume_sized fits.size, if_neg (Nat.lt_irrefl _),
    if_neg (Nat.lt_irrefl _)]
  exact tryDecodeResumeData_complete version fits.count

theorem tryDecodeFolderDownloadResume_inBounds (bytes : Bytes) :
    (tryDecodeFolderDownloadResume bytes).InBounds := by
  have rflt := tryDecodeResumeData_inBounds
  simp only [Checked.InBounds, tryDecodeFolderDownloadResume, Checked.post_ite, Checked.post_error,
    Checked.post_bind, post_u16beAt, Span.post_slice, implies_true, and_true, rflt]
  grind

end Slopline.Protocol
