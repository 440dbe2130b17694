import Slopline.Core.Errors
import Slopline.Core.Span

/-! Field-list codec (`hotline/protocol/field_list.h`, `field_list.cpp`).

The two overloads of a lookup (const and mutable) are one function here: what a
caller writes through the mutable one is not part of the codec.
-/

set_option autoImplicit false

namespace Slopline.Protocol

open Library Endian

abbrev FieldId := UInt16

def FieldId.errorText : FieldId := 100
def FieldId.userName : FieldId := 102
def FieldId.userIconId : FieldId := 104
def FieldId.userLogin : FieldId := 105
def FieldId.userPassword : FieldId := 106
def FieldId.vers : FieldId := 160
def FieldId.communityBannerId : FieldId := 161
def FieldId.serverName : FieldId := 162
def FieldId.fileNameWithInfo : FieldId := 200
def FieldId.fileResumeData : FieldId := 203
def FieldId.userNameWithInfo : FieldId := 300
def FieldId.macAlg : FieldId := 3588
def FieldId.cCipherAlg : FieldId := 3778

def kMaxFieldCount : Nat := 65535
def kMaxFieldDataSize : Nat := 65535

structure Field where
  id : FieldId := 100
  data : Bytes := []
  deriving DecidableEq, Repr

structure FieldList where
  fields : List Field := []
  deriving DecidableEq, Repr

/-- One round of the encoder's loop: the bytes so far and the field behind them. -/
def appendField (out : Bytes) (field : Field) : Except EncodeError Bytes :=
  if kMaxFieldDataSize < field.data.length then .error .elementTooLarge
  else .ok (out ++ writeU16be field.id ++ writeU16be (UInt16.ofNat field.data.length) ++ field.data)

def encodeFieldList (list : FieldList) : Except EncodeError Bytes :=
  if kMaxFieldCount < list.fields.length then .error .countTooLarge
  else list.fields.foldlM appendField (writeU16be (UInt16.ofNat list.fields.length))

/-- One round of the decoder's loop: a field off the front, and what is left of the span. -/
def readField (bytes : Bytes) : Checked DecodeError (Field × Bytes) := do
  if bytes.length < 4 then .error .truncated else
  let id ← u16beAt 0 bytes
  let size ← u16beAt 2 bytes
  let bytes ← Span.subspan 4 bytes
  if bytes.length < size.toNat then .error .truncated else
  let data ← Span.first size.toNat bytes
  let bytes ← Span.subspan size.toNat bytes
  return ({ id, data }, bytes)

def decodeFieldList (bytes : Bytes) : Checked DecodeError FieldList := do
  if bytes.length < 2 then .error .truncated else
  let count ← u16beAt 0 bytes
  let bytes ← Span.subspan 2 bytes
  let (fields, bytes) ← Checked.times readField count.toNat bytes
  if bytes ≠ [] then .error .trailingBytes else
  return { fields }

def findField (list : FieldList) (id : FieldId) : Option Field :=
  list.fields.find? fun field => field.id = id

def fieldData (list : FieldList) (id : FieldId) : Bytes :=
  match findField list id with
  | some field => field.data
  | none => []

def makeIntegerField (id : FieldId) (value : Int32) : Field :=
  if 0 ≤ value ∧ value ≤ 0xFFFF then { id, data := writeU16be value.toUInt32.toUInt16 }
  else { id, data := writeU32be value.toUInt32 }

def decodeIntegerField (field : Field) : Checked DecodeError Int32 :=
  match field.data.length with
  | 1 => do return (← Span.element 0 field.data).toUInt32.toInt32
  | 2 => do return (← u16beAt 0 field.data).toUInt32.toInt32
  | 4 => do return (← u32beAt 0 field.data).toInt32
  | _ => .error .invalidIntegerFieldSize

/-- A text is its raw bytes: the source copies them one by one. -/
def makeStringField (id : FieldId) (text : Bytes) : Field := { id, data := text }

end Slopline.Protocol
