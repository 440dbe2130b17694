import Slopline.Protocol.Transfer

/-! The `harc` archive container (`hotline/protocol/archive.h`, `archive.cpp`): its decoder. -/

set_option autoImplicit false

namespace Slopline.Protocol

open Library Endian

def kArchiveFormat : UInt32 := fourCc 'h' 'a' 'r' 'c'
def kArchiveVersion : UInt32 := 1
def kArchiveHeaderSize : Nat := 98

structure ArchiveEntry where
  type : UInt32 := 0
  path : List FolderPathComponent := []
  reserved : Bytes := []
  compressionType : UInt32 := 0
  decompressedSize : UInt32 := 0
  payload : Bytes := []
  deriving DecidableEq, Repr

structure Archive where
  version : UInt32 := 0
  archiveSize : UInt32 := 0
  archiveName : Bytes := []
  fileAutoLaunch : UInt16 := 0
  reserved3 : Bytes := []
  entries : List ArchiveEntry := []
  deriving DecidableEq, Repr

/-- The path of one entry, from exactly the bytes its head announces. -/
def readArchivePath (pathBytes : Bytes) : Checked DecodeError (List FolderPathComponent) := do
  if pathBytes.length < 2 then .error .truncated else
  let pathCount ← u16beAt 0 pathBytes
  let components ← Span.subspan 2 pathBytes
  let (path, components) ← Checked.times readComponent pathCount.toNat components
  if components ≠ [] then .error .trailingBytes else
  return path

/-- One round of the decoder's loop: an entry off the front, and what is left of the span. -/
def readArchiveEntry (bytes : Bytes) : Checked DecodeError (ArchiveEntry × Bytes) := do
  if bytes.length < 10 then .error .truncated else
  let type ← u32beAt 0 bytes
  let pathSize ← u16beAt 8 bytes
  let bytes ← Span.subspan 10 bytes
  if bytes.length < pathSize.toNat then .error .truncated else
  let pathBytes ← Span.first pathSize.toNat bytes
  let path ← readArchivePath pathBytes
  let bytes ← Span.subspan pathSize.toNat bytes
  if bytes.length < 2 then .error .truncated else
  let rsvdSize ← u16beAt 0 bytes
  let bytes ← Span.subspan 2 bytes
  if bytes.length < rsvdSize.toNat then .error .truncated else
  let reserved ← Span.first rsvdSize.toNat bytes
  let bytes ← Span.subspan rsvdSize.toNat bytes
  if bytes.length < 12 then .error .truncated else
  let compressionType ← u32beAt 0 bytes
  let decompressedSize ← u32beAt 4 bytes
  let compressedSize ← u32beAt 8 bytes
  let bytes ← Span.subspan 12 bytes
  if bytes.length < compressedSize.toNat then .error .truncated else
  let payload ← Span.first compressedSize.toNat bytes
  let bytes ← Span.subspan compressedSize.toNat bytes
  return ({ type, path, reserved, compressionType, decompressedSize, payload }, bytes)

def tryDecodeArchive (bytes : Bytes) : Checked DecodeError Archive := do
  if bytes.length < kArchiveHeaderSize then .error .truncated else
  let format ← u32beAt 0 bytes
  if format ≠ kArchiveFormat then .error .wrongFormatTag else
  let version ← u32beAt 4 bytes
  if version ≠ kArchiveVersion then .error .unsupportedVersion else
  let archiveSize ← u32beAt 8 bytes
  let nameByte ← Span.element 28 bytes
  let archiveName ← Span.slice 29 (min nameByte.toNat 63) bytes
  let fileCount ← u16beAt 92 bytes
  let fileAutoLaunch ← u16beAt 94 bytes
  let rsvd3Size ← u16beAt 96 bytes
  let bytes ← Span.subspan kArchiveHeaderSize bytes
  if bytes.length < rsvd3Size.toNat then .error .truncated else
  let reserved3 ← Span.first rsvd3Size.toNat bytes
  let bytes ← Span.subspan rsvd3Size.toNat bytes
  let (entries, bytes) ← Checked.times readArchiveEntry fileCount.toNat bytes
  if bytes ≠ [] then .error .trailingBytes else
  return { version, archiveSize, archiveName, fileAutoLaunch, reserved3, entries }

end Slopline.Protocol
