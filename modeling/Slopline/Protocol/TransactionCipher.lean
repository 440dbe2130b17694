import Slopline.Crypto.Blowfish
import Slopline.Protocol.KeySchedule
import Slopline.Protocol.Transaction

/-! Encrypted transactions (`hotline/protocol/transaction_cipher.h`).

A cipher's two directions share nothing but the session key. A direction turns a
buffer into another of the same length and moves on with the length alone, so a
direction in the same state turns it back.
-/

set_option autoImplicit false

namespace Slopline.Protocol

open Crypto

structure TransactionCipher (H : MessageDigest) where
  sessionKey : Bytes
  encodeKey : Bytes
  decodeKey : Bytes
  cipher : Blowfish
  encodeStream : Blowfish.Ofb64 := .reset
  decodeStream : Blowfish.Ofb64 := .reset

variable {H : MessageDigest}

namespace TransactionCipher

/-- The constructor. -/
def create (H : MessageDigest) (password sessionKey : Bytes) (isClient : Bool) : TransactionCipher H :=
  let keys := deriveLoginKeys H password sessionKey
  let encodeKey := if isClient then keys.second else keys.first
  let decodeKey := if isClient then keys.first else keys.second
  { sessionKey, encodeKey, decodeKey, cipher := (({} : Blowfish).setEncodeKey encodeKey).setDecodeKey decodeKey }

def encode (header data : Bytes) (flag : UInt8) (t : TransactionCipher H) :
    (Bytes × Bytes) × TransactionCipher H :=
  let (header, stream) := t.cipher.encodeStream t.encodeStream header
  if data.isEmpty then ((header, data), { t with encodeStream := stream })
  else if flag ≠ 0 then
    let size := min 2 data.length
    let (first, stream) := t.cipher.encodeStream stream (data.take size)
    let encodeKey := permuteKey H t.encodeKey t.sessionKey flag.toUInt32
    let cipher := t.cipher.setEncodeKey encodeKey
    let (rest, stream) := cipher.encodeStream stream (data.drop size)
    ((header, first ++ rest), { t with encodeKey, cipher, encodeStream := stream })
  else
    let (data, stream) := t.cipher.encodeStream stream data
    ((header, data), { t with encodeStream := stream })

def decodeHeader (header : Bytes) (t : TransactionCipher H) : (UInt8 × Bytes) × TransactionCipher H :=
  let (header, stream) := t.cipher.decodeStream t.decodeStream header
  ((header.getD 0 0, header), { t with decodeStream := stream })

def decodeData (data : Bytes) (flag : UInt8) (t : TransactionCipher H) : Bytes × TransactionCipher H :=
  if data.isEmpty then (data, t)
  else if flag ≠ 0 then
    let size := min 2 data.length
    let (first, stream) := t.cipher.decodeStream t.decodeStream (data.take size)
    let decodeKey := permuteKey H t.decodeKey t.sessionKey flag.toUInt32
    let cipher := t.cipher.setDecodeKey decodeKey
    let (rest, stream) := cipher.decodeStream stream (data.drop size)
    (first ++ rest, { t with decodeKey, cipher, decodeStream := stream })
  else
    let (data, stream) := t.cipher.decodeStream t.decodeStream data
    (data, { t with decodeStream := stream })

end TransactionCipher

/-- One direction of a cipher: its key, the schedule and the stream. -/
structure Direction where
  key : Bytes
  schedule : Blowfish.Schedule
  stream : Blowfish.Ofb64

namespace Direction

def process (d : Direction) (buffer : Bytes) : Bytes × Direction :=
  let processed := d.stream.process d.schedule buffer
  (processed.1, { d with stream := processed.2 })

variable (H) in
def permute (d : Direction) (sessionKey : Bytes) (flag : UInt8) : Direction :=
  let key := permuteKey H d.key sessionKey flag.toUInt32
  { d with key, schedule := Blowfish.expandKey key }

variable (H) in
/-- The data of a transaction: two bytes belong to the header's key. -/
def processData (d : Direction) (sessionKey data : Bytes) (flag : UInt8) : Bytes × Direction :=
  if data.isEmpty then (data, d)
  else if flag ≠ 0 then
    let size := min 2 data.length
    let first := d.process (data.take size)
    let rest := (first.2.permute H sessionKey flag).process (data.drop size)
    (first.1 ++ rest.1, rest.2)
  else d.process data

@[simp] theorem length_process (d : Direction) (buffer : Bytes) : (d.process buffer).1.length = buffer.length :=
  Blowfish.Ofb64.length_process _ _ _

@[simp] theorem process_process (d : Direction) (buffer : Bytes) :
    d.process (d.process buffer).1 = (buffer, (d.process buffer).2) := by
  simp [process]

@[simp] theorem length_processData (d : Direction) (sessionKey data : Bytes) (flag : UInt8) :
    (d.processData H sessionKey data flag).1.length = data.length := by
  unfold processData
  split
  · rfl
  · split
    · simp only [List.length_append, length_process, List.length_take, List.length_drop]
      omega
    · exact length_process d data

/-- A direction in the sender's state undoes what the sender did to the data, and ends in
the state the sender ended in. -/
theorem processData_processData (d : Direction) (sessionKey data : Bytes) (flag : UInt8) :
    d.processData H sessionKey (d.processData H sessionKey data flag).1 flag =
      (data, (d.processData H sessionKey data flag).2) := by
  by_cases empty : data = []
  · simp [empty, processData]
  have size := length_processData (H := H) d sessionKey data flag
  have filled : (d.processData H sessionKey data flag).1.isEmpty = false := by
    rw [List.isEmpty_eq_false_iff, ← List.length_pos_iff, size]
    exact List.length_pos_iff.mpr empty
  have here : data.isEmpty = false := by simpa using empty
  by_cases plain : flag = 0
  · simp only [processData, here, plain, ne_eq, not_true_eq_false, if_false, Bool.false_eq_true] at filled ⊢
    rw [filled]
    simp
  · generalize coded : d.processData H sessionKey data flag = result at size filled
    simp only [processData, here, plain, ne_eq, not_false_eq_true, if_true, if_false, Bool.false_eq_true] at coded
    subst coded
    -- The prefix is as long on both sides, so both permute at the same byte.
    have cut := length_process d (data.take (min 2 data.length))
    have short : (data.take (min 2 data.length)).length = min 2 data.length := List.length_take_of_le (by omega)
    rw [short] at cut
    simp only [processData, filled, plain, ne_eq, not_false_eq_true, if_true, if_false, Bool.false_eq_true, size]
    rw [List.take_left' cut, List.drop_left' cut, process_process, process_process, List.take_append_drop]

end Direction

namespace TransactionCipher

def encoding (t : TransactionCipher H) : Direction := ⟨t.encodeKey, t.cipher.encodeKey, t.encodeStream⟩

def decoding (t : TransactionCipher H) : Direction := ⟨t.decodeKey, t.cipher.decodeKey, t.decodeStream⟩

def setEncoding (d : Direction) (t : TransactionCipher H) : TransactionCipher H :=
  { t with encodeKey := d.key, cipher := { t.cipher with encodeKey := d.schedule }, encodeStream := d.stream }

def setDecoding (d : Direction) (t : TransactionCipher H) : TransactionCipher H :=
  { t with decodeKey := d.key, cipher := { t.cipher with decodeKey := d.schedule }, decodeStream := d.stream }

variable (t : TransactionCipher H) (d : Direction)

@[simp] theorem encoding_setEncoding : (t.setEncoding d).encoding = d := rfl

@[simp] theorem decoding_setEncoding : (t.setEncoding d).decoding = t.decoding := rfl

@[simp] theorem sessionKey_setEncoding : (t.setEncoding d).sessionKey = t.sessionKey := rfl

@[simp] theorem decoding_setDecoding : (t.setDecoding d).decoding = d := rfl

@[simp] theorem encoding_setDecoding : (t.setDecoding d).encoding = t.encoding := rfl

@[simp] theorem sessionKey_setDecoding : (t.setDecoding d).sessionKey = t.sessionKey := rfl

theorem encode_eq (header data : Bytes) (flag : UInt8) :
    t.encode header data flag =
      let coded := t.encoding.process header
      let body := coded.2.processData H t.sessionKey data flag
      ((coded.1, body.1), t.setEncoding body.2) := by
  by_cases empty : data.isEmpty
  · simp only [encode, Direction.processData, if_pos empty]
    rfl
  · by_cases permutes : flag ≠ 0
    · simp only [encode, Direction.processData, if_neg empty, if_pos permutes]
      rfl
    · simp only [encode, Direction.processData, if_neg empty, if_neg permutes]
      rfl

theorem decodeHeader_eq (header : Bytes) :
    t.decodeHeader header =
      let decoded := t.decoding.process header
      ((decoded.1.getD 0 0, decoded.1), t.setDecoding decoded.2) := rfl

theorem decodeData_eq (data : Bytes) (flag : UInt8) :
    t.decodeData data flag =
      let body := t.decoding.processData H t.sessionKey data flag
      (body.1, t.setDecoding body.2) := by
  by_cases empty : data.isEmpty
  · simp only [decodeData, Direction.processData, if_pos empty]
    rfl
  · by_cases permutes : flag ≠ 0
    · simp only [decodeData, Direction.processData, if_neg empty, if_pos permutes]
      rfl
    · simp only [decodeData, Direction.processData, if_neg empty, if_neg permutes]
      rfl

end TransactionCipher

end Slopline.Protocol
