import Slopline.Core.Digits
import Slopline.Protocol.FieldListCodec
import Slopline.Protocol.Payload
import Slopline.Protocol.TransferRoundTrip

/-! The file and user entries both ways, and which payloads fit the field they go into. -/

set_option autoImplicit false

namespace Slopline.Protocol

open Library Endian

/-- The file entry as the comment in the header lays it out: the type and the creator in the order of
the legacy Intel hosts, everything else big-endian. -/
def fileInfoLayout (info : FileInfo) : Bytes :=
  little 4 info.type.toNat ++ little 4 info.creator.toNat ++ big 4 info.fileSize.toNat ++ big 4 0 ++
    big 2 info.nameScript.toNat ++ big 2 info.name.length ++ info.name

/-- The user entry; the icon's id is signed, so in two's complement. -/
def userInfoLayout (info : UserInfo) : Bytes :=
  big 2 info.id.toNat ++ big 2 (info.iconId.toInt % 65536).toNat ++ big 2 info.flags.toNat ++
    big 2 info.name.length ++ info.name

theorem fileInfoBytes_eq_layout {info : FileInfo} (fits : info.name.length ≤ kMaxFieldDataSize) :
    fileInfoBytes info = fileInfoLayout info := by
  have size := toNat_ofNat_u16 fits
  simp only [fileInfoBytes, fileInfoLayout, writeU16be_eq_big, writeU32be_eq_big, writeU32le_eq_little, size,
    UInt32.toNat_zero, List.append_assoc]

theorem toNat_iconId (iconId : Int16) : iconId.toUInt16.toNat = (iconId.toInt % 65536).toNat := by
  have small := iconId.toUInt16.toNat_lt
  rw [← Int16.toInt_toBitVec, BitVec.toInt_eq_toNat_cond, Int16.toNat_toBitVec]
  split <;> omega

theorem userInfoBytes_eq_layout {info : UserInfo} (fits : info.name.length ≤ kMaxFieldDataSize) :
    userInfoBytes info = userInfoLayout info := by
  have size := toNat_ofNat_u16 fits
  simp only [userInfoBytes, userInfoLayout, writeU16be_eq_big, toNat_iconId, size, List.append_assoc]

/-! Decoding and encoding again. -/

/-- The entry with its four reserved bytes zeroed, as the encoder writes them. -/
def clearReserved (bytes : Bytes) : Bytes := bytes.take 12 ++ (List.replicate 4 0 ++ bytes.drop 16)

theorem drop_exact {bytes : Bytes} (offset count : Nat) (size : bytes.length = offset + count) :
    (bytes.drop offset).take count = bytes.drop offset ∧ (bytes.drop offset).length = count := by
  have left : (bytes.drop offset).length = count := by
    rw [List.length_drop, size, Nat.add_sub_cancel_left]
  exact ⟨List.take_of_length_le left.le, left⟩

theorem tryDecodeFileInfo_sound (bytes : Bytes) :
    (tryDecodeFileInfo bytes).Post fun info =>
      info.name.length ≤ kMaxFieldDataSize ∧ clearReserved bytes = fileInfoBytes info := by
  simp only [tryDecodeFileInfo, Checked.post_ite, Checked.post_error, Checked.post_bind, post_u16beAt,
    post_u32beAt, post_u32leAt, Span.post_slice, Checked.pure_eq, Checked.post_value, implies_true, true_and]
  intro fixed
  have header : kFileInfoHeaderSize = 20 := rfl
  refine ⟨by omega, fun nameSize announced whole ended => ?_⟩
  refine ⟨by omega, by omega, by omega, fun fileSize third => ⟨by omega, fun nameScript fourth => ?_⟩⟩
  obtain ⟨all, length⟩ := drop_exact 20 nameSize.toNat (by omega : bytes.length = _)
  rw [header, all]
  refine ⟨by omega, length.trans_le (Nat.le_of_lt_succ nameSize.toNat_lt), ?_⟩
  have first := split_u32le (by omega : 0 + 4 ≤ bytes.length)
  have second := split_u32le (by omega : 4 + 4 ≤ bytes.length)
  generalize readU32le ((bytes.drop 0).take 4) = type at first ⊢
  generalize readU32le ((bytes.drop 4).take 4) = creator at second ⊢
  -- The reserved bytes end the front part; what is behind them stays as it is.
  have front : bytes.take 12 = writeU32le type ++ (writeU32le creator ++ writeU32be fileSize) := by
    have whole : bytes = writeU32le type ++ (writeU32le creator ++ (writeU32be fileSize ++ bytes.drop 12)) := by
      rw [← third, ← second, ← first, List.drop_zero]
    calc
      bytes.take 12 = (writeU32le type ++ (writeU32le creator ++ (writeU32be fileSize ++ bytes.drop 12))).take 12 :=
        congrArg (List.take 12) whole
      _ = _ := by simp [List.take_append, List.take_of_length_le]
  have back : bytes.drop 16 = writeU16be nameScript ++ (writeU16be nameSize ++ bytes.drop 20) := by
    rw [fourth, announced]
  calc
    clearReserved bytes = writeU32le type ++ (writeU32le creator ++ writeU32be fileSize) ++ (writeU32be 0 ++
        (writeU16be nameScript ++ (writeU16be nameSize ++ bytes.drop 20))) := by
      rw [clearReserved, front, back]
      rfl
    _ = _ := by
      simp only [fileInfoBytes, length, UInt16.ofNat_toNat, List.append_assoc]

theorem tryDecodeUserInfo_sound (bytes : Bytes) :
    (tryDecodeUserInfo bytes).Post fun info =>
      info.name.length ≤ kMaxFieldDataSize ∧ bytes = userInfoBytes info := by
  simp only [tryDecodeUserInfo, Checked.post_ite, Checked.post_error, Checked.post_bind, post_u16beAt,
    Span.post_slice, Checked.pure_eq, Checked.post_value, implies_true, true_and]
  intro fixed
  have header : kUserInfoHeaderSize = 8 := rfl
  refine ⟨by omega, fun nameSize announced whole ended => ⟨by omega, fun userId first => ?_⟩⟩
  refine ⟨by omega, fun iconId second => ⟨by omega, fun flags third => ⟨by omega, ?_⟩⟩⟩
  obtain ⟨all, length⟩ := drop_exact 8 nameSize.toNat (by omega : bytes.length = _)
  rw [header, all]
  refine ⟨length.trans_le (Nat.le_of_lt_succ nameSize.toNat_lt), ?_⟩
  calc
    bytes = writeU16be userId ++ (writeU16be iconId ++ (writeU16be flags ++ (writeU16be nameSize ++
        bytes.drop 8))) := by
      rw [← announced, ← third, ← second, ← first, List.drop_zero]
    _ = _ := by
      simp only [userInfoBytes, length, UInt16.ofNat_toNat, UInt16.toUInt16_toInt16]

theorem encodeFileInfo_eq_ok {info : FileInfo} {bytes : Bytes} :
    encodeFileInfo info = .ok bytes ↔ info.name.length ≤ kMaxFieldDataSize ∧ bytes = fileInfoBytes info := by
  rw [encodeFileInfo, unless_eq_ok, Nat.not_lt, Except.ok.injEq, eq_comm (a := bytes)]

theorem encodeUserInfo_eq_ok {info : UserInfo} {bytes : Bytes} :
    encodeUserInfo info = .ok bytes ↔ info.name.length ≤ kMaxFieldDataSize ∧ bytes = userInfoBytes info := by
  rw [encodeUserInfo, unless_eq_ok, Nat.not_lt, Except.ok.injEq, eq_comm (a := bytes)]

/-- Names that their 16-bit size holds come back, in the layout of the header's comments; what is
accepted is written again, but for the reserved bytes. -/
theorem fileInfo_userInfo_codecs :
    Codec encodeFileInfo tryDecodeFileInfo (fun info => info.name.length ≤ 65535) clearReserved ∧
      Codec encodeUserInfo tryDecodeUserInfo (fun info => info.name.length ≤ 65535) id ∧
      (∀ info : FileInfo, encodeFileInfo info =
        if info.name.length ≤ 65535 then .ok (fileInfoLayout info) else .error .stringTooLong) ∧
      ∀ info : UserInfo, encodeUserInfo info =
        if info.name.length ≤ 65535 then .ok (userInfoLayout info) else .error .stringTooLong := by
  have limit : kMaxFieldDataSize = 65535 := rfl
  refine ⟨?_, ?_, ?_, ?_⟩
  · exact .of_spans (fun _ _ => encodeFileInfo_eq_ok) (fun _ => tryDecodeFileInfo_complete) tryDecodeFileInfo_sound
  · exact .of_spans (fun _ _ => encodeUserInfo_eq_ok) (fun _ => tryDecodeUserInfo_complete) tryDecodeUserInfo_sound
  · intro info
    by_cases fits : info.name.length ≤ 65535
    · rw [if_pos fits, ← fileInfoBytes_eq_layout fits]
      exact encodeFileInfo_eq_ok.mpr ⟨fits, rfl⟩
    · rw [if_neg fits, encodeFileInfo, if_pos (by omega)]
  · intro info
    by_cases fits : info.name.length ≤ 65535
    · rw [if_pos fits, ← userInfoBytes_eq_layout fits]
      exact encodeUserInfo_eq_ok.mpr ⟨fits, rfl⟩
    · rw [if_neg fits, encodeUserInfo, if_pos (by omega)]

/-! Payloads in their fields. An encoder bounds its name or its count, the field list the payload. -/

def Encodes (fields : List Field) : Prop := ∃ bytes, encodeFieldList { fields } = .ok bytes

/-- A payload the encoder lets out goes into its field, in any list that has room for the field. -/
def FitsItsField (id : FieldId) (encoded : Except EncodeError Bytes) : Prop :=
  ∀ payload, encoded = .ok payload → ∀ before after : List Field,
    Encodes (before ++ { id, data := [] } :: after) → Encodes (before ++ { id, data := payload } :: after)

theorem encodes_iff (fields : List Field) : Encodes fields ↔ FieldListFits { fields } := by
  constructor
  · rintro ⟨bytes, encoded⟩
    exact (encodeFieldList_eq_ok.mp encoded).1
  · intro fits
    exact ⟨_, encodeFieldList_eq_ok.mpr ⟨fits, rfl⟩⟩

theorem fitsItsField_iff {id : FieldId} {encoded : Except EncodeError Bytes} {allowed : Prop} {payload : Bytes}
    (encodes : ∀ bytes, encoded = .ok bytes ↔ allowed ∧ bytes = payload) :
    FitsItsField id encoded ↔ (allowed → payload.length ≤ kMaxFieldDataSize) := by
  constructor
  · intro fits holds
    have empty : Encodes [{ id, data := [] }] := ⟨_, rfl⟩
    have alone := fits payload ((encodes payload).mpr ⟨holds, rfl⟩) [] [] empty
    exact ((encodes_iff _).mp alone).sizes { id, data := payload } (List.mem_singleton_self _)
  · intro small bytes encoded before after room
    obtain ⟨holds, rfl⟩ := (encodes bytes).mp encoded
    apply (encodes_iff _).mpr
    have fits := (encodes_iff _).mp room
    constructor
    · simpa using fits.count
    · intro field inside
      have split : field ∈ before ∨ field = { id, data := bytes } ∨ field ∈ after := by simpa using inside
      rcases split with front | same | back
      · exact fits.sizes field (by simp [front])
      · rw [same]
        exact small holds
      · exact fits.sizes field (by simp [back])

/-- The header takes its room from the name or from the entries. -/
theorem payloads_fit_iff (file : FileInfo) (user : UserInfo) (resume : ResumeData) :
    (FitsItsField .fileNameWithInfo (encodeFileInfo file) ↔
        file.name.length ≤ 65535 - 20 ∨ 65535 < file.name.length) ∧
      (FitsItsField .userNameWithInfo (encodeUserInfo user) ↔
        user.name.length ≤ 65535 - 8 ∨ 65535 < user.name.length) ∧
      (FitsItsField .fileResumeData (encodeResumeData resume) ↔
        resume.entries.length ≤ (65535 - 42) / 16 ∨ 65535 < resume.entries.length) := by
  have dataLimit : kMaxFieldDataSize = 65535 := rfl
  have countLimit : kMaxFieldCount = 65535 := rfl
  have fileHeader : kFileInfoHeaderSize = 20 := rfl
  have userHeader : kUserInfoHeaderSize = 8 := rfl
  have resumeHeader : kResumeDataHeaderSize = 42 := rfl
  have entry : kResumeEntrySize = 16 := rfl
  refine ⟨?_, ?_, ?_⟩
  · rw [fitsItsField_iff (fun _ => encodeFileInfo_eq_ok), length_fileInfoBytes]
    omega
  · rw [fitsItsField_iff (fun _ => encodeUserInfo_eq_ok), length_userInfoBytes]
    omega
  · rw [fitsItsField_iff (fun _ => encodeResumeData_eq_ok), length_resumeDataBytes, entry]
    omega

def longNamedFile : FileInfo := { name := List.replicate 65516 0 }
def longNamedUser : UserInfo := { name := List.replicate 65528 0 }
def manyEntries : ResumeData := { version := 1, entries := List.replicate 4094 {} }

theorem long_payloads_unfit :
    (∃ payload, encodeFileInfo longNamedFile = .ok payload ∧
        encodeFieldList { fields := [{ id := .fileNameWithInfo, data := payload }] } = .error .elementTooLarge) ∧
      (∃ payload, encodeUserInfo longNamedUser = .ok payload ∧
        encodeFieldList { fields := [{ id := .userNameWithInfo, data := payload }] } = .error .elementTooLarge) ∧
      ∃ payload, encodeResumeData manyEntries = .ok payload ∧
        encodeFieldList { fields := [{ id := .fileResumeData, data := payload }] } = .error .elementTooLarge := by
  have fileName : longNamedFile.name.length = 65516 := List.length_replicate
  have userName : longNamedUser.name.length = 65528 := List.length_replicate
  have entries : manyEntries.entries.length = 4094 := List.length_replicate
  refine ⟨⟨_, encodeFileInfo_eq_ok.mpr ⟨?_, rfl⟩, ?_⟩, ⟨_, encodeUserInfo_eq_ok.mpr ⟨?_, rfl⟩, ?_⟩,
    ⟨_, encodeResumeData_eq_ok.mpr ⟨?_, rfl⟩, ?_⟩⟩
  · rw [fileName]
    decide
  · apply encodeFieldList_large (by decide) (List.mem_singleton_self _)
    rw [length_fileInfoBytes, fileName]
    decide
  · rw [userName]
    decide
  · apply encodeFieldList_large (by decide) (List.mem_singleton_self _)
    rw [length_userInfoBytes, userName]
    decide
  · rw [entries]
    decide
  · apply encodeFieldList_large (by decide) (List.mem_singleton_self _)
    rw [length_resumeDataBytes, entries]
    decide

end Slopline.Protocol
