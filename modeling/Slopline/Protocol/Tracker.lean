import Slopline.Protocol.Transfer

/-! Tracker messages (`hotline/protocol/tracker.h`, `tracker.cpp`). -/

set_option autoImplicit false

namespace Slopline.Protocol

open Library Endian

def kTrackerProtocolTag : UInt32 := fourCc 'H' 'T' 'R' 'K'
def kTrackerHandshakeVersion1 : UInt16 := 1
def kTrackerHandshakeVersion2 : UInt16 := 2
def kTrackerLoginFieldSize : Nat := 32
def kTrackerHandshakeSizeV1 : Nat := 6
def kTrackerHandshakeSizeV2 : Nat := 70

def kRegistrationTypeAdd : UInt16 := 1
def kRegistrationTypeRemove : UInt16 := 2
def kServerListType : UInt16 := 1
def kLookupTypeFound : UInt16 := 4
def kLookupTypeNotFound : UInt16 := 5

/-- A one-byte size and the text; the size is cast, its callers keep it within the byte. -/
def pstringBytes (text : Bytes) : Bytes := UInt8.ofNat text.length :: text

def readPstring (bytes : Bytes) : Checked DecodeError (Bytes × Nat) := do
  if bytes = [] then .error .truncated else
  let length ← Span.element 0 bytes
  if bytes.length < length.toNat + 1 then .error .truncated else
  let text ← Span.slice 1 length.toNat bytes
  return (text, length.toNat + 1)

structure TrackerServerEntry where
  address : Vector UInt8 4 := Vector.replicate 4 0
  port : UInt16 := 0
  userCount : UInt16 := 0
  flags : UInt16 := 0
  name : Bytes := []
  description : Bytes := []
  deriving DecidableEq

def serverEntryBytes (entry : TrackerServerEntry) : Bytes :=
  entry.address.toList ++ (writeU16be entry.port ++ (writeU16be entry.userCount ++
    (writeU16be entry.flags ++ (pstringBytes entry.name ++ pstringBytes entry.description))))

def readServerEntry (bytes : Bytes) : Checked DecodeError (TrackerServerEntry × Nat) := do
  if bytes.length < 12 then .error .truncated else
  let first ← Span.element 0 bytes
  let second ← Span.element 1 bytes
  let third ← Span.element 2 bytes
  let fourth ← Span.element 3 bytes
  let port ← u16beAt 4 bytes
  let userCount ← u16beAt 6 bytes
  let flags ← u16beAt 8 bytes
  let rest ← Span.subspan 10 bytes
  let (name, nameConsumed) ← readPstring rest
  let rest ← Span.subspan (10 + nameConsumed) bytes
  let (description, descConsumed) ← readPstring rest
  return ({ address := #v[first, second, third, fourth], port, userCount, flags, name, description },
    10 + nameConsumed + descConsumed)

structure TrackerRegistration where
  port : UInt16 := 0
  userCount : UInt16 := 0
  flags : UInt16 := 0
  passId : UInt32 := 0
  name : Bytes := []
  description : Bytes := []
  password : Bytes := []
  deriving DecidableEq

structure TrackerRegistrationMessage where
  type : UInt16 := kRegistrationTypeAdd
  registration : TrackerRegistration := {}
  deriving DecidableEq

def trackerRegistrationBytes (type : UInt16) (registration : TrackerRegistration) : Bytes :=
  writeU16be type ++ (writeU16be registration.port ++ (writeU16be registration.userCount ++
    (writeU16be registration.flags ++ (writeU32be registration.passId ++ (pstringBytes registration.name ++
    (pstringBytes registration.description ++ pstringBytes registration.password))))))

def encodeTrackerRegistration (type : UInt16) (registration : TrackerRegistration) :
    Except EncodeError Bytes :=
  if 255 < registration.name.length ∨ 255 < registration.description.length ∨
      255 < registration.password.length then .error .stringTooLong
  else .ok (trackerRegistrationBytes type registration)

def tryDecodeTrackerRegistration (bytes : Bytes) : Checked DecodeError TrackerRegistrationMessage := do
  if bytes.length ≤ 14 then .error .truncated else
  let type ← u16beAt 0 bytes
  if type ≠ kRegistrationTypeAdd ∧ type ≠ kRegistrationTypeRemove then .error .wrongFormatTag else
  let port ← u16beAt 2 bytes
  let userCount ← u16beAt 4 bytes
  let flags ← u16beAt 6 bytes
  let passId ← u32beAt 8 bytes
  let rest ← Span.subspan 12 bytes
  let (name, consumed) ← readPstring rest
  let total := 12 + consumed
  let rest ← Span.subspan total bytes
  let (description, consumed) ← readPstring rest
  let total := total + consumed
  let rest ← Span.subspan total bytes
  let (password, consumed) ← readPstring rest
  let total := total + consumed
  if total ≠ bytes.length then .error .trailingBytes else
  return { type, registration := { port, userCount, flags, passId, name, description, password } }

/-- A 32-byte field: a size, at most 31 bytes of text and zeros. -/
def loginField (text : Bytes) : Bytes :=
  let size := min text.length 31
  UInt8.ofNat size :: (text.take size ++ List.replicate (31 - size) 0)

def encodeTrackerHandshake (version : UInt16) (login password : Bytes) : Bytes :=
  let out := writeU32be kTrackerProtocolTag ++ writeU16be version
  if version = kTrackerHandshakeVersion2 then out ++ (loginField login ++ loginField password) else out

structure TrackerHandshake where
  version : UInt16 := 0
  login : Bytes := []
  password : Bytes := []
  deriving DecidableEq

/-- The decoder's `parse_field`. -/
def parseField (field : Bytes) : Checked DecodeError Bytes := do
  let length ← Span.element 0 field
  if 31 < length.toNat then .error .truncated else
  Span.slice 1 length.toNat field

def tryDecodeTrackerHandshake (bytes : Bytes) : Checked DecodeError TrackerHandshake := do
  if bytes.length < kTrackerHandshakeSizeV1 then .error .truncated else
  let tag ← u32beAt 0 bytes
  if tag ≠ kTrackerProtocolTag then .error .wrongFormatTag else
  let version ← u16beAt 4 bytes
  if version = kTrackerHandshakeVersion1 then
    if bytes.length ≠ kTrackerHandshakeSizeV1 then .error .trailingBytes else .value { version }
  else if version ≠ kTrackerHandshakeVersion2 then .error .unsupportedVersion
  else if bytes.length < kTrackerHandshakeSizeV2 then .error .truncated
  else if kTrackerHandshakeSizeV2 < bytes.length then .error .trailingBytes
  else do
    let field ← Span.slice 6 kTrackerLoginFieldSize bytes
    let login ← parseField field
    let field ← Span.slice (6 + kTrackerLoginFieldSize) kTrackerLoginFieldSize bytes
    let password ← parseField field
    return { version, login, password }

def encodeTrackerHandshakeReply (version : UInt16) : Bytes :=
  writeU32be kTrackerProtocolTag ++ writeU16be version

def tryDecodeTrackerHandshakeReply (bytes : Bytes) : Checked DecodeError UInt16 := do
  if bytes.length < kTrackerHandshakeSizeV1 then .error .truncated else
  if kTrackerHandshakeSizeV1 < bytes.length then .error .trailingBytes else
  let tag ← u32beAt 0 bytes
  if tag ≠ kTrackerProtocolTag then .error .wrongFormatTag else
  u16beAt 4 bytes

structure TrackerServerListMessage where
  totalCount : UInt16 := 0
  servers : List TrackerServerEntry := []
  deriving DecidableEq

/-- One round of the entry loop: the entry bytes so far and the entry behind them. -/
def appendServerEntry (entries : Bytes) (entry : TrackerServerEntry) : Except EncodeError Bytes :=
  if 255 < entry.name.length ∨ 255 < entry.description.length then .error .stringTooLong
  else .ok (entries ++ serverEntryBytes entry)

def encodeTrackerServerList (message : TrackerServerListMessage) : Except EncodeError Bytes := do
  if kMaxFieldCount < message.servers.length then .error .countTooLarge else
  let entries ← message.servers.foldlM appendServerEntry []
  let size := 4 + entries.length
  if kMaxFieldDataSize < size then .error .elementTooLarge else
  return writeU16be kServerListType ++ (writeU16be (UInt16.ofNat size) ++ (writeU16be message.totalCount ++
    (writeU16be (UInt16.ofNat message.servers.length) ++ entries)))

/-- One round of the decoder's loop: the entry off the front, and what is left. -/
def takeServerEntry (entries : Bytes) : Checked DecodeError (TrackerServerEntry × Bytes) := do
  let (entry, consumed) ← readServerEntry entries
  let entries ← Span.subspan consumed entries
  return (entry, entries)

def tryDecodeTrackerServerList (bytes : Bytes) : Checked DecodeError TrackerServerListMessage := do
  if bytes.length < 4 then .error .truncated else
  let type ← u16beAt 0 bytes
  if type ≠ kServerListType then .error .wrongFormatTag else
  let size ← u16beAt 2 bytes
  if size.toNat < 4 then .error .truncated else
  if bytes.length < 4 + size.toNat then .error .truncated else
  if 4 + size.toNat < bytes.length then .error .trailingBytes else
  let totalCount ← u16beAt 4 bytes
  let count ← u16beAt 6 bytes
  let entries ← Span.slice 8 (size.toNat - 4) bytes
  let (servers, entries) ← Checked.times takeServerEntry count.toNat entries
  if entries ≠ [] then .error .trailingBytes else
  return { totalCount, servers }

structure TrackerLookupReply where
  found : Bool := false
  entry : TrackerServerEntry := {}
  deriving DecidableEq

def encodeTrackerLookupReply (reply : TrackerLookupReply) : Except EncodeError Bytes :=
  if reply.found then
    if 255 < reply.entry.name.length ∨ 255 < reply.entry.description.length then .error .stringTooLong
    else if kMaxFieldDataSize < (serverEntryBytes reply.entry).length then .error .elementTooLarge
    else .ok (writeU16be kLookupTypeFound ++
      (writeU16be (UInt16.ofNat (serverEntryBytes reply.entry).length) ++ serverEntryBytes reply.entry))
  else .ok (writeU16be kLookupTypeNotFound ++ writeU16be 0)

def tryDecodeTrackerLookupReply (bytes : Bytes) : Checked DecodeError TrackerLookupReply := do
  if bytes.length < 4 then .error .truncated else
  let type ← u16beAt 0 bytes
  let size ← u16beAt 2 bytes
  if type = kLookupTypeNotFound then
    if size ≠ 0 then .error .trailingBytes
    else if bytes.length ≠ 4 then .error .trailingBytes
    else .value { found := false }
  else if type ≠ kLookupTypeFound then .error .wrongFormatTag
  else if bytes.length ≠ 4 + size.toNat then
    .error (if bytes.length < 4 + size.toNat then .truncated else .trailingBytes)
  else do
    let entry ← Span.slice 4 size.toNat bytes
    let (entry, consumed) ← readServerEntry entry
    if consumed ≠ size.toNat then .error .trailingBytes else
    return { found := true, entry }

end Slopline.Protocol
