import Slopline.Core.IvarArray
import Slopline.Protocol.FieldListCodec
import Slopline.Protocol.TrackerCodec
import Slopline.Protocol.ArchiveCodec

/-! What holds of the decoders together: they stay within the bytes they are given, and the
formats that have an encoder tell a cut message from a followed one. -/

set_option autoImplicit false

namespace Slopline.Protocol

open Endian Library

def Delimits {α β : Type} (encode : α → Except EncodeError Bytes)
    (decode : Bytes → Checked DecodeError β) (domain : α → Prop) : Prop :=
  ∀ value message, domain value → encode value = .ok message →
    (∀ piece, piece <+: message → piece ≠ message → decode piece = .error .truncated) ∧
      ∀ more, more ≠ [] → decode (message ++ more) = .error .trailingBytes

theorem delimits_of_accepts {α β : Type} {encode : α → Except EncodeError Bytes}
    {decode : Bytes → Checked DecodeError β} {domain : α → Prop}
    (delimiting : SelfDelimiting .truncated .trailingBytes decode)
    (inBounds : ∀ bytes, (decode bytes).InBounds)
    (accepts : ∀ value message, domain value → encode value = .ok message →
      ∃ result, decode message = .value result) : Delimits encode decode domain := by
  intro value message inDomain encoded
  obtain ⟨result, accepted⟩ := accepts value message inDomain encoded
  constructor
  · exact fun piece => delimiting.cut inBounds accepted
  · exact fun more => delimiting.followed accepted

theorem fieldList_delimits : Delimits encodeFieldList decodeFieldList fun _ => True := by
  refine delimits_of_accepts decodeFieldList_delimits decodeFieldList_inBounds fun list message _ encoded => ?_
  obtain ⟨fits, rfl⟩ := encodeFieldList_eq_ok.mp encoded
  exact ⟨_, decodeFieldList_complete fits⟩

theorem flatFile_delimits :
    Delimits encodeFlatFile tryDecodeFlatFile fun file => ∀ fork ∈ file.forks, fork.data.length < 2 ^ 32 := by
  refine delimits_of_accepts tryDecodeFlatFile_delimits tryDecodeFlatFile_inBounds
    fun file message forks encoded => ?_
  rw [encodeFlatFile, unless_eq_ok] at encoded
  obtain ⟨count, ⟨⟩⟩ := encoded
  exact ⟨_, tryDecodeFlatFile_complete (Nat.le_of_not_lt count) forks⟩

theorem infoFork_delimits : Delimits encodeInfoFork tryDecodeInfoFork fun _ => True := by
  refine delimits_of_accepts tryDecodeInfoFork_delimits tryDecodeInfoFork_inBounds
    fun info message _ encoded => ?_
  rw [encodeInfoFork, unless_eq_ok] at encoded
  obtain ⟨sizes, ⟨⟩⟩ := encoded
  rw [not_or, Nat.not_lt, Nat.not_lt] at sizes
  exact ⟨_, tryDecodeInfoFork_complete ⟨sizes.1, sizes.2⟩⟩

theorem resumeData_delimits :
    Delimits encodeResumeData tryDecodeResumeData fun resume => resume.version = 1 := by
  refine delimits_of_accepts tryDecodeResumeData_delimits tryDecodeResumeData_inBounds
    fun resume message version encoded => ?_
  obtain ⟨count, rfl⟩ := encodeResumeData_eq_ok.mp encoded
  exact ⟨_, tryDecodeResumeData_complete version count⟩

theorem folderItem_delimits :
    Delimits encodeFolderDownloadItem tryDecodeFolderDownloadItem fun _ => True := by
  refine delimits_of_accepts tryDecodeFolderDownloadItem_delimits tryDecodeFolderDownloadItem_inBounds
    fun item message _ encoded => ?_
  obtain ⟨fits, rfl⟩ := encodeFolderDownloadItem_eq_ok.mp encoded
  exact ⟨_, tryDecodeFolderDownloadItem_complete fits⟩

/-- The command's own size delimits it, whatever version the record in it has. -/
theorem folderResume_delimits :
    Delimits encodeFolderDownloadResume tryDecodeFolderDownloadResume fun _ => True := by
  intro resume message _ encoded
  obtain ⟨fits, rfl⟩ := encodeFolderDownloadResume_eq_ok.mp encoded
  constructor
  · intro piece start proper
    by_cases few : piece.length < 4
    · rw [tryDecodeFolderDownloadResume, if_pos few]
    · -- The cut is behind the size.
      have cut := List.prefix_iff_eq_take.mp start
      have shorter : piece.length < (folderResumeBytes resume).length :=
        Nat.lt_of_le_of_ne start.length_le fun same => proper (start.eq_of_length same)
      rw [length_folderResumeBytes] at shorter
      rw [folderResumeBytes, List.take_append, List.take_append,
        List.take_of_length_le (by rw [length_writeU16be]; omega),
        List.take_of_length_le (by simp only [length_writeU16be]; omega)] at cut
      rw [cut, tryDecodeFolderDownloadResume_sized fits.size, if_pos]
      simp only [List.length_take, length_writeU16be]
      omega
  · intro more something
    have longer := List.length_pos_iff.mpr something
    rw [folderResumeBytes, List.append_assoc, List.append_assoc, tryDecodeFolderDownloadResume_sized fits.size,
      if_neg (by simp), if_pos (by simp only [List.length_append]; omega)]

theorem registration_delimits :
    Delimits (fun (message : TrackerRegistrationMessage) => encodeTrackerRegistration message.type message.registration)
      tryDecodeTrackerRegistration fun message =>
        message.type = kRegistrationTypeAdd ∨ message.type = kRegistrationTypeRemove := by
  refine delimits_of_accepts tryDecodeTrackerRegistration_delimits tryDecodeTrackerRegistration_inBounds
    fun message bytes known encoded => ?_
  obtain ⟨fits, rfl⟩ := encodeTrackerRegistration_eq_ok.mp encoded
  exact ⟨_, tryDecodeTrackerRegistration_complete known fits⟩

theorem trackerHandshake_delimits :
    Delimits
      (fun (handshake : TrackerHandshake) =>
        .ok (encodeTrackerHandshake handshake.version handshake.login handshake.password))
      tryDecodeTrackerHandshake fun handshake =>
        handshake.version = kTrackerHandshakeVersion1 ∨ handshake.version = kTrackerHandshakeVersion2 := by
  refine delimits_of_accepts tryDecodeTrackerHandshake_delimits tryDecodeTrackerHandshake_inBounds
    fun handshake bytes known encoded => ?_
  obtain ⟨version, login, password⟩ := handshake
  cases encoded
  rcases known with rfl | rfl
  · exact ⟨_, tryDecodeTrackerHandshake_one login password⟩
  · exact ⟨_, tryDecodeTrackerHandshake_two login password⟩

theorem serverList_delimits : Delimits encodeTrackerServerList tryDecodeTrackerServerList fun _ => True := by
  refine delimits_of_accepts tryDecodeTrackerServerList_delimits tryDecodeTrackerServerList_inBounds
    fun message bytes _ encoded => ?_
  obtain ⟨fits, rfl⟩ := encodeTrackerServerList_eq_ok.mp encoded
  exact ⟨_, tryDecodeTrackerServerList_complete fits⟩

theorem lookupReply_delimits :
    Delimits encodeTrackerLookupReply tryDecodeTrackerLookupReply fun _ => True := by
  refine delimits_of_accepts tryDecodeTrackerLookupReply_delimits tryDecodeTrackerLookupReply_inBounds
    fun reply bytes _ encoded => ?_
  obtain ⟨fits, rfl⟩ := encodeTrackerLookupReply_eq_ok.mp encoded
  obtain ⟨found, entry⟩ := reply
  cases found with
  | false => exact ⟨_, tryDecodeTrackerLookupReply_notFound entry⟩
  | true => exact ⟨_, tryDecodeTrackerLookupReply_found (fits rfl)⟩

theorem fileInfo_delimits : Delimits encodeFileInfo tryDecodeFileInfo fun _ => True := by
  refine delimits_of_accepts tryDecodeFileInfo_delimits tryDecodeFileInfo_inBounds
    fun info message _ encoded => ?_
  rw [encodeFileInfo, unless_eq_ok] at encoded
  obtain ⟨size, ⟨⟩⟩ := encoded
  exact ⟨_, tryDecodeFileInfo_complete (Nat.le_of_not_lt size)⟩

theorem userInfo_delimits : Delimits encodeUserInfo tryDecodeUserInfo fun _ => True := by
  refine delimits_of_accepts tryDecodeUserInfo_delimits tryDecodeUserInfo_inBounds
    fun info message _ encoded => ?_
  rw [encodeUserInfo, unless_eq_ok] at encoded
  obtain ⟨size, ⟨⟩⟩ := encoded
  exact ⟨_, tryDecodeUserInfo_complete (Nat.le_of_not_lt size)⟩

/-- Every format with an encoder is self-delimiting on what its encoder writes. -/
theorem formats_delimit :
    Delimits encodeFieldList decodeFieldList (fun _ => True) ∧
      Delimits encodeFlatFile tryDecodeFlatFile (fun file => ∀ fork ∈ file.forks, fork.data.length < 2 ^ 32) ∧
      Delimits encodeInfoFork tryDecodeInfoFork (fun _ => True) ∧
      Delimits encodeResumeData tryDecodeResumeData (fun resume => resume.version = 1) ∧
      Delimits encodeFolderDownloadItem tryDecodeFolderDownloadItem (fun _ => True) ∧
      Delimits encodeFolderDownloadResume tryDecodeFolderDownloadResume (fun _ => True) ∧
      Delimits
        (fun (message : TrackerRegistrationMessage) => encodeTrackerRegistration message.type message.registration)
        tryDecodeTrackerRegistration (fun message =>
          message.type = kRegistrationTypeAdd ∨ message.type = kRegistrationTypeRemove) ∧
      Delimits
        (fun (handshake : TrackerHandshake) =>
          .ok (encodeTrackerHandshake handshake.version handshake.login handshake.password))
        tryDecodeTrackerHandshake (fun handshake =>
          handshake.version = kTrackerHandshakeVersion1 ∨ handshake.version = kTrackerHandshakeVersion2) ∧
      Delimits encodeTrackerServerList tryDecodeTrackerServerList (fun _ => True) ∧
      Delimits encodeTrackerLookupReply tryDecodeTrackerLookupReply (fun _ => True) ∧
      Delimits encodeFileInfo tryDecodeFileInfo (fun _ => True) ∧
      Delimits encodeUserInfo tryDecodeUserInfo (fun _ => True) :=
  ⟨fieldList_delimits, flatFile_delimits, infoFork_delimits, resumeData_delimits, folderItem_delimits,
    folderResume_delimits, registration_delimits, trackerHandshake_delimits, serverList_delimits,
    lookupReply_delimits, fileInfo_delimits, userInfo_delimits⟩

/-- On every byte string each decoder returns a value or an error: no operation on the span, and
no date stamp taken from its result, is outside its precondition. -/
theorem decoders_inBounds (bytes : Bytes) :
    (tryDecodeArchive bytes).InBounds ∧ (tryDecodeFlatFile bytes).InBounds ∧
      (tryDecodeInfoFork bytes).InBounds ∧ (tryDecodeResumeData bytes).InBounds ∧
      (tryDecodeFolderDownloadItem bytes).InBounds ∧ (tryDecodeFolderDownloadResume bytes).InBounds ∧
      (tryDecodeTrackerRegistration bytes).InBounds ∧ (tryDecodeTrackerHandshake bytes).InBounds ∧
      (tryDecodeTrackerHandshakeReply bytes).InBounds ∧ (tryDecodeTrackerServerList bytes).InBounds ∧
      (tryDecodeTrackerLookupReply bytes).InBounds ∧ (decodeFieldList bytes).InBounds ∧
      (Ivar.decode bytes).InBounds :=
  ⟨(tryDecodeArchive_sound bytes).inBounds, tryDecodeFlatFile_inBounds bytes,
    tryDecodeInfoFork_inBounds bytes, tryDecodeResumeData_inBounds bytes,
    tryDecodeFolderDownloadItem_inBounds bytes, tryDecodeFolderDownloadResume_inBounds bytes,
    tryDecodeTrackerRegistration_inBounds bytes, tryDecodeTrackerHandshake_inBounds bytes,
    tryDecodeTrackerHandshakeReply_inBounds bytes, tryDecodeTrackerServerList_inBounds bytes,
    tryDecodeTrackerLookupReply_inBounds bytes, decodeFieldList_inBounds bytes, Ivar.decode_inBounds bytes⟩

end Slopline.Protocol
