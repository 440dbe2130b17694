import Slopline.Library.Format
import Slopline.Protocol.FieldList

/-! Field payload codecs (`hotline/protocol/payload.h`, `payload.cpp`): the file and user
entries of a listing, and the date stamp a file's INFO fork carries. -/

set_option autoImplicit false

namespace Slopline.Protocol

open Library Endian

def kFileInfoHeaderSize : Nat := 20

structure FileInfo where
  type : UInt32 := 0
  creator : UInt32 := 0
  fileSize : UInt32 := 0
  nameScript : UInt16 := 0
  name : Bytes := []
  deriving DecidableEq, Repr

/-- `type` and `creator` are little-endian on the wire, the four bytes in the middle are reserved. -/
def fileInfoBytes (info : FileInfo) : Bytes :=
  writeU32le info.type ++ (writeU32le info.creator ++ (writeU32be info.fileSize ++ (writeU32be 0 ++
    (writeU16be info.nameScript ++ (writeU16be (UInt16.ofNat info.name.length) ++ info.name)))))

def encodeFileInfo (info : FileInfo) : Except EncodeError Bytes :=
  if kMaxFieldDataSize < info.name.length then .error .stringTooLong else .ok (fileInfoBytes info)

def tryDecodeFileInfo (bytes : Bytes) : Checked DecodeError FileInfo := do
  if bytes.length < kFileInfoHeaderSize then .error .truncated else
  let nameSize ← u16beAt 18 bytes
  let total := kFileInfoHeaderSize + nameSize.toNat
  if bytes.length < total then .error .truncated else
  if total < bytes.length then .error .trailingBytes else
  let type ← u32leAt 0 bytes
  let creator ← u32leAt 4 bytes
  let fileSize ← u32beAt 8 bytes
  let nameScript ← u16beAt 16 bytes
  let name ← Span.slice kFileInfoHeaderSize nameSize.toNat bytes
  return { type, creator, fileSize, nameScript, name }

def kUserInfoHeaderSize : Nat := 8

structure UserInfo where
  id : UInt16 := 0
  iconId : Int16 := 0
  flags : UInt16 := 0
  name : Bytes := []
  deriving DecidableEq

def userInfoBytes (info : UserInfo) : Bytes :=
  writeU16be info.id ++ (writeU16be info.iconId.toUInt16 ++ (writeU16be info.flags ++
    (writeU16be (UInt16.ofNat info.name.length) ++ info.name)))

def encodeUserInfo (info : UserInfo) : Except EncodeError Bytes :=
  if kMaxFieldDataSize < info.name.length then .error .stringTooLong else .ok (userInfoBytes info)

def tryDecodeUserInfo (bytes : Bytes) : Checked DecodeError UserInfo := do
  if bytes.length < kUserInfoHeaderSize then .error .truncated else
  let nameSize ← u16beAt 6 bytes
  let total := kUserInfoHeaderSize + nameSize.toNat
  if bytes.length < total then .error .truncated else
  if total < bytes.length then .error .trailingBytes else
  let id ← u16beAt 0 bytes
  let iconId ← u16beAt 2 bytes
  let flags ← u16beAt 4 bytes
  let name ← Span.slice kUserInfoHeaderSize nameSize.toNat bytes
  return { id, iconId := iconId.toInt16, flags, name }

/-- The user's privileges, privilege `p` in bit `63 - p`. -/
structure AccessMask where
  bits : UInt64 := 0
  deriving DecidableEq, Repr

/-- The enumeration's underlying value, where the mask has a bit for it. -/
structure AccessPrivilege where
  value : UInt8
  inMask : value < 64
  deriving DecidableEq

def AccessPrivilege.index (privilege : AccessPrivilege) : UInt32 := privilege.value.toUInt32

namespace AccessMask

def has (mask : AccessMask) (privilege : AccessPrivilege) : Bool :=
  ((mask.bits >>> (63 - privilege.index).toUInt64) &&& 1) != 0

def set (mask : AccessMask) (privilege : AccessPrivilege) (value : Bool) : AccessMask :=
  if value then { bits := mask.bits ||| ((1 : UInt64) <<< (63 - privilege.index).toUInt64) }
  else { bits := mask.bits &&& ~~~((1 : UInt64) <<< (63 - privilege.index).toUInt64) }

def clear (_ : AccessMask) : AccessMask := { bits := 0 }

def fill (_ : AccessMask) : AccessMask := { bits := ~~~0 }

end AccessMask

def kAccessMaskSize : Nat := 8

def encodeAccessMask (mask : AccessMask) : Bytes := writeU64be mask.bits

/-- Of eight bytes, by the type of its span. -/
def decodeAccessMask (bytes : Bytes) : AccessMask := { bits := readU64be bytes }

def tryDecodeAccessMask (bytes : Bytes) : Checked DecodeError AccessMask := do
  if bytes.length < kAccessMaskSize then .error .truncated else
  if kAccessMaskSize < bytes.length then .error .trailingBytes else
  let mask ← Span.first kAccessMaskSize bytes
  return decodeAccessMask mask

def kDateTimeStampSize : Nat := 8

structure DateTimeStamp where
  year : UInt16 := 0
  msecs : UInt16 := 0
  seconds : UInt32 := 0
  deriving DecidableEq, Repr

def encodeDateTimeStamp (stamp : DateTimeStamp) : Bytes :=
  writeU16be stamp.year ++ (writeU16be stamp.msecs ++ writeU32be stamp.seconds)

/-- Of eight bytes, by the type of its span. -/
def decodeDateTimeStamp (bytes : Bytes) : DateTimeStamp where
  year := readU16be bytes
  msecs := readU16be (bytes.drop 2)
  seconds := readU32be (bytes.drop 4)

def tryDecodeDateTimeStamp (bytes : Bytes) : Checked DecodeError DateTimeStamp := do
  if bytes.length < kDateTimeStampSize then .error .truncated else
  if kDateTimeStampSize < bytes.length then .error .trailingBytes else
  let stamp ← Span.first kDateTimeStampSize bytes
  return decodeDateTimeStamp stamp

@[simp] theorem length_fileInfoBytes (info : FileInfo) :
    (fileInfoBytes info).length = kFileInfoHeaderSize + info.name.length := by
  simp only [fileInfoBytes, kFileInfoHeaderSize, List.length_append, length_writeU32le, length_writeU32be,
    length_writeU16be]
  omega

@[simp] theorem length_userInfoBytes (info : UserInfo) :
    (userInfoBytes info).length = kUserInfoHeaderSize + info.name.length := by
  simp only [userInfoBytes, kUserInfoHeaderSize, List.length_append, length_writeU16be]
  omega

@[simp] theorem length_encodeDateTimeStamp (stamp : DateTimeStamp) :
    (encodeDateTimeStamp stamp).length = kDateTimeStampSize := by
  simp [encodeDateTimeStamp, kDateTimeStampSize]

theorem decodeDateTimeStamp_encode (stamp : DateTimeStamp) :
    decodeDateTimeStamp (encodeDateTimeStamp stamp) = stamp := by
  have msecs : (encodeDateTimeStamp stamp).drop 2 = writeU16be stamp.msecs ++ writeU32be stamp.seconds := rfl
  have seconds : (encodeDateTimeStamp stamp).drop 4 = writeU32be stamp.seconds ++ [] := rfl
  rw [decodeDateTimeStamp, msecs, seconds, encodeDateTimeStamp]
  simp only [readU16be_writeU16be, readU32be_writeU32be]

theorem encodeDateTimeStamp_decode {bytes : Bytes} (size : bytes.length = kDateTimeStampSize) :
    encodeDateTimeStamp (decodeDateTimeStamp bytes) = bytes := by
  match bytes, size with
  | [first, second, third, fourth, fifth, sixth, seventh, eighth], _ =>
    have year := writeU16be_readU16be (rfl : [first, second].length = 2)
    have msecs := writeU16be_readU16be (rfl : [third, fourth].length = 2)
    have seconds := writeU32be_readU32be (rfl : [fifth, sixth, seventh, eighth].length = 4)
    calc
      _ = writeU16be (readU16be [first, second]) ++ (writeU16be (readU16be [third, fourth]) ++
            writeU32be (readU32be [fifth, sixth, seventh, eighth])) := rfl
      _ = _ := by
        rw [year, msecs, seconds]
        rfl

theorem tryDecodeDateTimeStamp_exact {bytes : Bytes} (size : bytes.length = kDateTimeStampSize) :
    tryDecodeDateTimeStamp bytes = .value (decodeDateTimeStamp bytes) := by
  rw [tryDecodeDateTimeStamp, if_neg (by omega), if_neg (by omega), Span.first, if_pos (by omega),
    List.take_of_length_le (by omega)]
  rfl

theorem tryDecodeFileInfo_complete {info : FileInfo} (fits : info.name.length ≤ kMaxFieldDataSize) :
    tryDecodeFileInfo (fileInfoBytes info) = .value info := by
  have size := toNat_ofNat_u16 fits
  have header : ¬ (fileInfoBytes info).length < kFileInfoHeaderSize := by
    rw [length_fileInfoBytes]
    omega
  have announced : u16beAt 18 (fileInfoBytes info) =
      (.value (UInt16.ofNat info.name.length) : Checked DecodeError UInt16) := by
    simp [fileInfoBytes]
  rw [tryDecodeFileInfo, if_neg header, announced]
  simp only [Checked.value_bind, size, length_fileInfoBytes, Nat.lt_irrefl, if_false]
  simp [fileInfoBytes, kFileInfoHeaderSize]

theorem tryDecodeUserInfo_complete {info : UserInfo} (fits : info.name.length ≤ kMaxFieldDataSize) :
    tryDecodeUserInfo (userInfoBytes info) = .value info := by
  have size := toNat_ofNat_u16 fits
  have header : ¬ (userInfoBytes info).length < kUserInfoHeaderSize := by
    rw [length_userInfoBytes]
    omega
  have announced : u16beAt 6 (userInfoBytes info) =
      (.value (UInt16.ofNat info.name.length) : Checked DecodeError UInt16) := by
    simp [userInfoBytes]
  rw [tryDecodeUserInfo, if_neg header, announced]
  simp only [Checked.value_bind, size, length_userInfoBytes, Nat.lt_irrefl, if_false]
  simp [userInfoBytes, kUserInfoHeaderSize]

-- Every read lies below a size that was checked before it.
theorem tryDecodeFileInfo_inBounds (bytes : Bytes) : (tryDecodeFileInfo bytes).InBounds := by
  simp only [Checked.InBounds, tryDecodeFileInfo, Checked.post_ite, Checked.post_error, Checked.post_bind,
    post_u16beAt, post_u32beAt, post_u32leAt, Span.post_slice, Checked.pure_eq, Checked.post_value]
  grind [kFileInfoHeaderSize]

theorem tryDecodeUserInfo_inBounds (bytes : Bytes) : (tryDecodeUserInfo bytes).InBounds := by
  simp only [Checked.InBounds, tryDecodeUserInfo, Checked.post_ite, Checked.post_error, Checked.post_bind,
    post_u16beAt, Span.post_slice, Checked.pure_eq, Checked.post_value]
  grind [kUserInfoHeaderSize]

theorem tryDecodeFileInfo_delimits : SelfDelimiting .truncated .trailingBytes tryDecodeFileInfo := by
  intro cut whole shorter
  refine Cut.needs shorter fun _ => ?_
  refine Cut.same (Cut.u16beAt shorter 18) fun nameSize => ?_
  exact Cut.exact shorter

theorem tryDecodeUserInfo_delimits : SelfDelimiting .truncated .trailingBytes tryDecodeUserInfo := by
  intro cut whole shorter
  refine Cut.needs shorter fun _ => ?_
  refine Cut.same (Cut.u16beAt shorter 6) fun nameSize => ?_
  exact Cut.exact shorter

end Slopline.Protocol
