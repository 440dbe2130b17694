import Mathlib.Data.List.Induction
import Slopline.Protocol.TransferCodec

/-! The transfer records both ways: which records an encoder and its decoder carry, and which
bytes a decoder accepts. -/

set_option autoImplicit false

namespace Slopline.Protocol

open Library Endian

/-! Flat file. A fork's size is written through a cast to 32 bits that no check guards. -/

theorem encodeFlatFile_eq_ok {file : FlatFile} {bytes : Bytes} :
    encodeFlatFile file = .ok bytes ↔ file.forks.length ≤ kMaxFieldCount ∧ bytes = flatFileBytes file := by
  rw [encodeFlatFile, unless_eq_ok, Nat.not_lt, Except.ok.injEq, eq_comm (a := bytes)]

/-- A package comes back exactly if no size is cut by the cast, or if it is refused for its count. -/
theorem flatFile_roundTrips_iff (file : FlatFile) :
    RoundTrips encodeFlatFile tryDecodeFlatFile file ↔
      65535 < file.forks.length ∨ ∀ fork ∈ file.forks, fork.data.length < 2 ^ 32 := by
  constructor
  · intro roundTrips
    by_cases many : 65535 < file.forks.length
    · exact .inl many
    · have back := roundTrips _ (encodeFlatFile_eq_ok.mpr ⟨Nat.le_of_not_lt many, rfl⟩)
      exact .inr ((tryDecodeFlatFile_fits _).of_value back)
  · intro condition bytes encoded
    obtain ⟨few, rfl⟩ := encodeFlatFile_eq_ok.mp encoded
    cases condition with
    | inl many => exact absurd few (Nat.not_le.mpr many)
    | inr small => exact tryDecodeFlatFile_complete few small

def hugeFlatFile : FlatFile where
  version := 1
  forks := [{ type := kForkTypeData, data := List.replicate (2 ^ 32) 0 }]

theorem hugeFlatFile_lost : ¬ RoundTrips encodeFlatFile tryDecodeFlatFile hugeFlatFile := by
  intro roundTrips
  have few : hugeFlatFile.forks.length ≤ kMaxFieldCount := by decide
  have back := roundTrips _ (encodeFlatFile_eq_ok.mpr ⟨few, rfl⟩)
  have fits := (tryDecodeFlatFile_fits _).of_value back _ (List.mem_singleton_self _)
  rw [ForkFits, List.length_replicate] at fits
  exact Nat.lt_irrefl _ fits

/-! Resume data. Only the decoder looks at the version. -/

/-- Where the encoder lets the record out, the decoder gives it back, and with it the size that
the transfer goes on from. -/
def Resumes (encode : ResumeData → Except EncodeError Bytes) (decode : Bytes → Checked DecodeError ResumeData)
    (resume : ResumeData) : Prop :=
  ∀ bytes, encode resume = .ok bytes →
    ∃ back, decode bytes = .value back ∧ back = resume ∧ dataResumeSize back = dataResumeSize resume

theorem resumes_iff {encode : ResumeData → Except EncodeError Bytes}
    {decode : Bytes → Checked DecodeError ResumeData} {resume : ResumeData} :
    Resumes encode decode resume ↔ RoundTrips encode decode resume := by
  constructor
  · intro resumes bytes encoded
    obtain ⟨back, same, rfl, _⟩ := resumes bytes encoded
    exact same
  · intro roundTrips bytes encoded
    exact ⟨resume, roundTrips bytes encoded, rfl, rfl⟩

theorem tryDecodeResumeData_otherVersion {resume : ResumeData} (other : resume.version ≠ 1) :
    tryDecodeResumeData (resumeDataBytes resume) = .error .unsupportedVersion := by
  have fixed : ¬ (resumeDataBytes resume).length < kResumeDataHeaderSize := by
    rw [length_resumeDataBytes]
    omega
  have format : (u32beAt 0 (resumeDataBytes resume) : Checked DecodeError UInt32) =
      .value kResumeDataFormat := by
    simp [resumeDataBytes]
  have version : (u16beAt 4 (resumeDataBytes resume) : Checked DecodeError UInt16) =
      .value resume.version := by
    simp [resumeDataBytes]
  rw [tryDecodeResumeData, if_neg fixed]
  simp only [format, version, Checked.value_bind, ne_eq, not_true_eq_false, if_false, other,
    not_false_eq_true, if_true]

theorem resumeData_roundTrips {resume : ResumeData} (version : resume.version = 1) :
    RoundTrips encodeResumeData tryDecodeResumeData resume := by
  intro bytes encoded
  obtain ⟨few, rfl⟩ := encodeResumeData_eq_ok.mp encoded
  exact tryDecodeResumeData_complete version few

theorem folderResume_roundTrips {resume : ResumeData} (version : resume.version = 1) :
    RoundTrips encodeFolderDownloadResume tryDecodeFolderDownloadResume resume := by
  intro bytes encoded
  obtain ⟨fits, rfl⟩ := encodeFolderDownloadResume_eq_ok.mp encoded
  exact tryDecodeFolderDownloadResume_complete version fits

theorem encodeFolderDownloadResume_many {resume : ResumeData} (many : kMaxFieldCount < resume.entries.length) :
    RoundTrips encodeFolderDownloadResume tryDecodeFolderDownloadResume resume := by
  intro bytes encoded
  obtain ⟨fits, _⟩ := encodeFolderDownloadResume_eq_ok.mp encoded
  exact absurd fits.count (Nat.not_le.mpr many)

theorem resumeData_lost {resume : ResumeData} (other : resume.version ≠ 1)
    (few : resume.entries.length ≤ kMaxFieldCount) : ¬ RoundTrips encodeResumeData tryDecodeResumeData resume := by
  intro roundTrips
  have back := roundTrips _ (encodeResumeData_eq_ok.mpr ⟨few, rfl⟩)
  rw [tryDecodeResumeData_otherVersion other] at back
  cases back

/-- Both records come back exactly if the version is the one the decoder takes, or if there are
too many entries for either encoder. -/
theorem resumeData_resumes_iff (resume : ResumeData) :
    (Resumes encodeResumeData tryDecodeResumeData resume ∧
        Resumes encodeFolderDownloadResume tryDecodeFolderDownloadResume resume) ↔
      resume.version = 1 ∨ 65535 < resume.entries.length := by
  rw [resumes_iff, resumes_iff]
  constructor
  · rintro ⟨data, _⟩
    by_contra neither
    rw [not_or, Nat.not_lt] at neither
    exact resumeData_lost neither.1 neither.2 data
  · intro condition
    cases condition with
    | inl version => exact ⟨resumeData_roundTrips version, folderResume_roundTrips version⟩
    | inr many =>
      constructor
      · intro bytes encoded
        exact absurd (encodeResumeData_eq_ok.mp encoded).1 (Nat.not_le.mpr many)
      · exact encodeFolderDownloadResume_many many

/-- The version a record has by default. -/
theorem defaultResume_lost : ¬ (Resumes encodeResumeData tryDecodeResumeData {} ∧
    Resumes encodeFolderDownloadResume tryDecodeFolderDownloadResume {}) := by
  rintro ⟨data, _⟩
  exact resumeData_lost (by decide) (by decide) (resumes_iff.mp data)

/-! INFO fork. -/

theorem encodeInfoFork_eq_ok {info : FlatFileInfo} {bytes : Bytes} :
    encodeInfoFork info = .ok bytes ↔ InfoForkFits info ∧ bytes = infoForkBytes info := by
  rw [encodeInfoFork, unless_eq_ok, not_or, Nat.not_lt, Nat.not_lt, Except.ok.injEq, eq_comm (a := bytes)]
  apply and_congr_left
  intro _
  exact ⟨fun both => ⟨both.1, both.2⟩, fun fits => ⟨fits.name, fits.comment⟩⟩

theorem infoFork_codec :
    Codec encodeInfoFork tryDecodeInfoFork
      (fun info => info.name.length ≤ 65535 ∧ info.comment.length ≤ 65535) id := by
  have fits (info : FlatFileInfo) :
      InfoForkFits info ↔ info.name.length ≤ 65535 ∧ info.comment.length ≤ 65535 :=
    ⟨fun fits => ⟨fits.name, fits.comment⟩, fun both => ⟨both.1, both.2⟩⟩
  apply Codec.of_spans
  · intro info bytes
    rw [encodeInfoFork_eq_ok, fits]
  · intro info both
    exact tryDecodeInfoFork_complete ((fits info).mpr both)
  · intro bytes
    apply (tryDecodeInfoFork_sound bytes).mono
    intro info read
    exact ⟨(fits info).mp read.1, read.2⟩

/-! Folder-download item. Of its type word the decoder keeps bit 0, and the encoder writes no other. -/

/-- The item with bits 1 to 15 of its type word cleared. -/
def clearTypeWord (bytes : Bytes) : Bytes :=
  bytes.take 2 ++ (writeU16be (readU16be (bytes.drop 2) &&& 1) ++ bytes.drop 4)

theorem clearTypeWord_eq {size type : UInt16} {rest : Bytes} :
    clearTypeWord (writeU16be size ++ (writeU16be type ++ rest)) =
      writeU16be size ++ (writeU16be (if type &&& 1 ≠ 0 then 1 else 0) ++ rest) := by
  have bit : type &&& 1 = if type &&& 1 ≠ 0 then 1 else 0 := by
    have parity : (type &&& 1).toNat = type.toNat % 2 := by simp
    split
    · apply UInt16.toNat_inj.mp
      have odd : (type &&& 1).toNat ≠ 0 := fun zero => by simp_all [← UInt16.toNat_inj]
      rw [UInt16.toNat_one]
      omega
    · simp_all
  have front : (writeU16be size ++ (writeU16be type ++ rest)).take 2 = writeU16be size := by
    rw [List.take_append_of_le_length (by simp), List.take_of_length_le (by simp)]
  have middle : (writeU16be size ++ (writeU16be type ++ rest)).drop 2 = writeU16be type ++ rest := rfl
  have back : (writeU16be size ++ (writeU16be type ++ rest)).drop 4 = rest := rfl
  rw [clearTypeWord, front, middle, back, readU16be_writeU16be, ← bit]

theorem tryDecodeFolderDownloadItem_sound (bytes : Bytes) :
    (tryDecodeFolderDownloadItem bytes).Post fun item =>
      FolderItemFits item ∧ clearTypeWord bytes = folderItemBytes item := by
  simp only [tryDecodeFolderDownloadItem, Checked.post_ite, Checked.post_error, Checked.post_bind,
    post_u16beAt, Span.post_slice, Checked.pure_eq, Checked.post_value, implies_true, true_and,
    List.drop_zero]
  intro two
  refine ⟨by omega, fun size first four whole ended => ⟨by omega, fun type second => ⟨by omega, ?_⟩⟩⟩
  intro pathCount third
  refine ⟨by omega, ?_⟩
  apply ((readComponent_reads.times pathCount.toNat).sound _).mono
  rintro ⟨path, rest⟩ ⟨used, ⟨count, series⟩, split⟩ done
  obtain ⟨names, rfl⟩ := (series_iff (fun _ _ => Iff.rfl) _ _).mp series
  have nothing : rest = [] := not_not.mp done
  have all : (bytes.drop 6).take (size.toNat - 4) = bytes.drop 6 := by
    apply List.take_of_length_le
    rw [List.length_drop]
    omega
  rw [all, nothing, List.append_nil] at split
  have pathSize : (path.flatMap encodeComponent).length = size.toNat - 4 := by
    rw [← split, List.length_drop]
    omega
  have bound := size.toNat_lt
  constructor
  · refine ⟨names, ?_⟩
    simp only [pathSize, kMaxFieldDataSize]
    omega
  · have written : bytes = writeU16be size ++ (writeU16be type ++ bytes.drop 4) := by
      rw [← second]
      exact first
    have folder : (if decide (type &&& 1 ≠ 0) = true then (1 : UInt16) else 0) =
        if type &&& 1 ≠ 0 then 1 else 0 := by
      simp only [decide_eq_true_eq]
    have total : 4 + (size.toNat - 4) = size.toNat := by omega
    rw [written, clearTypeWord_eq, third]
    simp only [folderItemBytes, pathSize, total, UInt16.ofNat_toNat, folder, count]
    rw [← split]

theorem folderItem_codec :
    Codec encodeFolderDownloadItem tryDecodeFolderDownloadItem
      (fun item => (∀ component ∈ item.path, component.name.length ≤ 255) ∧
        4 + (item.path.map fun component => 3 + component.name.length).sum ≤ 65535) clearTypeWord := by
  have fits (item : FolderDownloadItem) : FolderItemFits item ↔
      (∀ component ∈ item.path, component.name.length ≤ 255) ∧
        4 + (item.path.map fun component => 3 + component.name.length).sum ≤ 65535 := by
    have size : (item.path.flatMap encodeComponent).length =
        (item.path.map fun component => 3 + component.name.length).sum := by
      simp [List.length_flatMap]
    rw [← size]
    exact ⟨fun fits => ⟨fits.names, fits.size⟩, fun both => ⟨both.1, both.2⟩⟩
  apply Codec.of_spans
  · intro item bytes
    rw [encodeFolderDownloadItem_eq_ok, fits]
  · intro item both
    exact tryDecodeFolderDownloadItem_complete ((fits item).mpr both)
  · intro bytes
    apply (tryDecodeFolderDownloadItem_sound bytes).mono
    intro item read
    exact ⟨(fits item).mp read.1, read.2⟩

/-- The INFO fork and the folder item, both ways: the first exactly, the second up to the bits
of its type word that have no meaning. -/
theorem infoFork_folderItem_codecs :
    Codec encodeInfoFork tryDecodeInfoFork
        (fun info => info.name.length ≤ 65535 ∧ info.comment.length ≤ 65535) id ∧
      Codec encodeFolderDownloadItem tryDecodeFolderDownloadItem
        (fun item => (∀ component ∈ item.path, component.name.length ≤ 255) ∧
          4 + (item.path.map fun component => 3 + component.name.length).sum ≤ 65535) clearTypeWord :=
  ⟨infoFork_codec, folderItem_codec⟩

end Slopline.Protocol
