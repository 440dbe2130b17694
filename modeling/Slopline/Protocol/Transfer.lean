import Mathlib.Data.Vector.Basic
import Slopline.Protocol.Payload

/-! File and folder transfer records (`hotline/protocol/transfer.h`, `transfer.cpp`). -/

set_option autoImplicit false

namespace Slopline.Protocol

open Library Endian

/-- Copying a part of known extent into a `std::array`. -/
def fixedArray (extent : Nat) (part : Bytes) : Vector UInt8 extent :=
  Vector.ofFn fun position => part.getD position 0

def kFlatFileFormat : UInt32 := fourCc 'F' 'I' 'L' 'P'
def kForkTypeData : UInt32 := fourCc 'D' 'A' 'T' 'A'
def kFlatFileHeaderSize : Nat := 24
def kFlatFileForkHeaderSize : Nat := 16

structure FlatFileFork where
  type : UInt32 := 0
  compressionType : UInt32 := 0
  data : Bytes := []
  deriving DecidableEq, Repr

structure FlatFile where
  version : UInt16 := 0
  forks : List FlatFileFork := []
  deriving DecidableEq, Repr

/-- The size goes through a cast to 32 bits. -/
def encodeFork (fork : FlatFileFork) : Bytes :=
  writeU32be fork.type ++ (writeU32be fork.compressionType ++ (writeU32be 0 ++
    (writeU32be (UInt32.ofNat fork.data.length) ++ fork.data)))

def flatFileBytes (file : FlatFile) : Bytes :=
  writeU32be kFlatFileFormat ++ (writeU16be file.version ++ (List.replicate 16 0 ++
    (writeU16be (UInt16.ofNat file.forks.length) ++ file.forks.flatMap encodeFork)))

def encodeFlatFile (file : FlatFile) : Except EncodeError Bytes :=
  if kMaxFieldCount < file.forks.length then .error .countTooLarge else .ok (flatFileBytes file)

def readFork (bytes : Bytes) : Checked DecodeError (FlatFileFork × Bytes) := do
  if bytes.length < kFlatFileForkHeaderSize then .error .truncated else
  let type ← u32beAt 0 bytes
  let compressionType ← u32beAt 4 bytes
  let dataSize ← u32beAt 12 bytes
  let bytes ← Span.subspan kFlatFileForkHeaderSize bytes
  if bytes.length < dataSize.toNat then .error .truncated else
  let data ← Span.first dataSize.toNat bytes
  let bytes ← Span.subspan dataSize.toNat bytes
  return ({ type, compressionType, data }, bytes)

def tryDecodeFlatFile (bytes : Bytes) : Checked DecodeError FlatFile := do
  if bytes.length < kFlatFileHeaderSize then .error .truncated else
  let format ← u32beAt 0 bytes
  if format ≠ kFlatFileFormat then .error .wrongFormatTag else
  let version ← u16beAt 4 bytes
  let forkCount ← u16beAt 22 bytes
  let bytes ← Span.subspan kFlatFileHeaderSize bytes
  let (forks, bytes) ← Checked.times readFork forkCount.toNat bytes
  if bytes ≠ [] then .error .trailingBytes else
  return { version, forks }

def kFlatFileInfoFixedSize : Nat := 72

structure FlatFileInfo where
  platform : UInt32 := 0
  typeSig : UInt32 := 0
  creatorSig : UInt32 := 0
  flags : UInt32 := 0
  platformFlags : UInt32 := 0
  reserved : Vector UInt8 32 := Vector.replicate 32 0
  createDate : DateTimeStamp := {}
  modifyDate : DateTimeStamp := {}
  nameScript : UInt16 := 0
  name : Bytes := []
  comment : Bytes := []
  deriving DecidableEq

/-- The part of fixed size, up to the size of the name. -/
def infoForkHead (info : FlatFileInfo) : Bytes :=
  writeU32be info.platform ++ (writeU32be info.typeSig ++ (writeU32be info.creatorSig ++
    (writeU32be info.flags ++ (writeU32be info.platformFlags ++ (info.reserved.toList ++
    (encodeDateTimeStamp info.createDate ++ (encodeDateTimeStamp info.modifyDate ++
    (writeU16be info.nameScript ++ writeU16be (UInt16.ofNat info.name.length)))))))))

def infoForkBytes (info : FlatFileInfo) : Bytes :=
  infoForkHead info ++ (info.name ++ (writeU16be (UInt16.ofNat info.comment.length) ++ info.comment))

def encodeInfoFork (info : FlatFileInfo) : Except EncodeError Bytes :=
  if kMaxFieldDataSize < info.name.length ∨ kMaxFieldDataSize < info.comment.length then
    .error .stringTooLong
  else .ok (infoForkBytes info)

def tryDecodeInfoFork (bytes : Bytes) : Checked DecodeError FlatFileInfo := do
  if bytes.length < kFlatFileInfoFixedSize then .error .truncated else
  let platform ← u32beAt 0 bytes
  let typeSig ← u32beAt 4 bytes
  let creatorSig ← u32beAt 8 bytes
  let flags ← u32beAt 12 bytes
  let platformFlags ← u32beAt 16 bytes
  let reserved ← Span.slice 20 32 bytes
  let create ← Span.slice 52 8 bytes
  let modify ← Span.slice 60 8 bytes
  let createDate ← Checked.demand (tryDecodeDateTimeStamp create)
  let modifyDate ← Checked.demand (tryDecodeDateTimeStamp modify)
  let nameScript ← u16beAt 68 bytes
  let nameSize ← u16beAt 70 bytes
  if bytes.length < kFlatFileInfoFixedSize + nameSize.toNat + 2 then .error .truncated else
  let name ← Span.slice kFlatFileInfoFixedSize nameSize.toNat bytes
  let commentSize ← u16beAt (kFlatFileInfoFixedSize + nameSize.toNat) bytes
  let total := kFlatFileInfoFixedSize + nameSize.toNat + 2 + commentSize.toNat
  if bytes.length < total then .error .truncated else
  if total < bytes.length then .error .trailingBytes else
  -- An iterator range from behind the comment's size to the total.
  let comment ← Span.slice (kFlatFileInfoFixedSize + nameSize.toNat + 2) commentSize.toNat bytes
  return {
    platform, typeSig, creatorSig, flags, platformFlags, reserved := fixedArray 32 reserved, createDate,
    modifyDate, nameScript, name, comment }

def kResumeDataFormat : UInt32 := fourCc 'R' 'F' 'L' 'T'
def kResumeDataHeaderSize : Nat := 42
def kResumeEntrySize : Nat := 16

structure ResumeEntry where
  fork : UInt32 := 0
  dataSize : UInt32 := 0
  deriving DecidableEq, Repr

structure ResumeData where
  version : UInt16 := 0
  entries : List ResumeEntry := []
  deriving DecidableEq, Repr

def encodeResumeEntry (entry : ResumeEntry) : Bytes :=
  writeU32be entry.fork ++ (writeU32be entry.dataSize ++ (writeU32be 0 ++ writeU32be 0))

def resumeDataBytes (resume : ResumeData) : Bytes :=
  writeU32be kResumeDataFormat ++ (writeU16be resume.version ++ (List.replicate 34 0 ++
    (writeU16be (UInt16.ofNat resume.entries.length) ++ resume.entries.flatMap encodeResumeEntry)))

def encodeResumeData (resume : ResumeData) : Except EncodeError Bytes :=
  if kMaxFieldCount < resume.entries.length then .error .countTooLarge else .ok (resumeDataBytes resume)

/-- The decoder's loop: `remaining` rounds from round `index` on, each on its own part of the span. -/
def readResumeEntries (bytes : Bytes) : Nat → Nat → Checked DecodeError (List ResumeEntry)
  | 0, _ => .value []
  | remaining + 1, index => do
    let entry ← Span.slice (kResumeDataHeaderSize + index * kResumeEntrySize) kResumeEntrySize bytes
    let fork ← u32beAt 0 entry
    let dataSize ← u32beAt 4 entry
    let entries ← readResumeEntries bytes remaining (index + 1)
    return { fork, dataSize } :: entries

def tryDecodeResumeData (bytes : Bytes) : Checked DecodeError ResumeData := do
  if bytes.length < kResumeDataHeaderSize then .error .truncated else
  let format ← u32beAt 0 bytes
  if format ≠ kResumeDataFormat then .error .wrongFormatTag else
  let version ← u16beAt 4 bytes
  if version ≠ 1 then .error .unsupportedVersion else
  let count ← u16beAt 40 bytes
  let total := kResumeDataHeaderSize + count.toNat * kResumeEntrySize
  if bytes.length < total then .error .truncated else
  if total < bytes.length then .error .trailingBytes else
  let entries ← readResumeEntries bytes count.toNat 0
  return { version, entries }

/-- The last `DATA` entry wins. -/
def dataResumeSize (resume : ResumeData) : UInt64 :=
  resume.entries.foldl (fun size entry => if entry.fork = kForkTypeData then entry.dataSize.toUInt64 else size) 0

structure FolderPathComponent where
  script : UInt16 := 0
  name : Bytes := []
  deriving DecidableEq, Repr

structure FolderDownloadItem where
  folder : Bool := false
  path : List FolderPathComponent := []
  deriving DecidableEq, Repr

/-- One round of the path loop: the path bytes so far and the component behind them. -/
def appendComponent (path : Bytes) (component : FolderPathComponent) : Except EncodeError Bytes :=
  if 255 < component.name.length then .error .stringTooLong
  else .ok (path ++ writeU16be component.script ++ [UInt8.ofNat component.name.length] ++ component.name)

def encodeFolderDownloadItem (item : FolderDownloadItem) : Except EncodeError Bytes := do
  let path ← item.path.foldlM appendComponent []
  let size := 4 + path.length
  if kMaxFieldDataSize < size then .error .elementTooLarge else
  return writeU16be (UInt16.ofNat size) ++ (writeU16be (if item.folder then 1 else 0) ++
    (writeU16be (UInt16.ofNat item.path.length) ++ path))

/-- One round of a path's loop, in a folder item and in an archive entry alike. -/
def readComponent (path : Bytes) : Checked DecodeError (FolderPathComponent × Bytes) := do
  if path.length < 3 then .error .truncated else
  let script ← u16beAt 0 path
  let nameSize ← Span.element 2 path
  let path ← Span.subspan 3 path
  if path.length < nameSize.toNat then .error .truncated else
  let name ← Span.first nameSize.toNat path
  let path ← Span.subspan nameSize.toNat path
  return ({ script, name }, path)

def tryDecodeFolderDownloadItem (bytes : Bytes) : Checked DecodeError FolderDownloadItem := do
  if bytes.length < 2 then .error .truncated else
  let size ← u16beAt 0 bytes
  if size.toNat < 4 then .error .truncated else
  if bytes.length < 2 + size.toNat then .error .truncated else
  if 2 + size.toNat < bytes.length then .error .trailingBytes else
  let type ← u16beAt 2 bytes
  let pathCount ← u16beAt 4 bytes
  let path ← Span.slice 6 (size.toNat - 4) bytes
  let (components, path) ← Checked.times readComponent pathCount.toNat path
  if path ≠ [] then .error .trailingBytes else
  return { folder := decide (type &&& 1 ≠ 0), path := components }

/-- `FolderDownloadAction::ResumeFile`. -/
def folderDownloadActionResumeFile : UInt16 := 2

def encodeFolderDownloadResume (resume : ResumeData) : Except EncodeError Bytes := do
  let rflt ← encodeResumeData resume
  if kMaxFieldDataSize < rflt.length then .error .elementTooLarge else
  return writeU16be folderDownloadActionResumeFile ++ (writeU16be (UInt16.ofNat rflt.length) ++ rflt)

def tryDecodeFolderDownloadResume (bytes : Bytes) : Checked DecodeError ResumeData := do
  if bytes.length < 4 then .error .truncated else
  let action ← u16beAt 0 bytes
  if action ≠ folderDownloadActionResumeFile then .error .wrongFormatTag else
  let size ← u16beAt 2 bytes
  if bytes.length < 4 + size.toNat then .error .truncated else
  if 4 + size.toNat < bytes.length then .error .trailingBytes else
  let rflt ← Span.slice 4 size.toNat bytes
  tryDecodeResumeData rflt

end Slopline.Protocol
