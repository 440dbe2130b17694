import Slopline.Protocol.TransactionCipher

/-! The keys of a legacy peer (`audit/HLCrypt.cpp.utf8`).

Both sides derive their login keys alike. What they do on a permuting flag is not the
same: the legacy code takes the key as the HMAC's key and the session key as its
message, the modern one the other way round.
-/

set_option autoImplicit false

namespace Slopline.Legacy

open Crypto Protocol

/-- `HMAC_XXX`: its second argument is the key, the third the message. -/
def hmacXxx (H : MessageDigest) (key text : Bytes) : Bytes := hmac H key text

structure HLCrypt (H : MessageDigest) where
  sessionKey : Bytes
  encodeKey : Bytes
  decodeKey : Bytes

variable {H : MessageDigest}

namespace HLCrypt

def init (H : MessageDigest) (sessionKey password : Bytes) (isClient : Bool) : HLCrypt H :=
  let temp1 := hmacXxx H password sessionKey
  let temp1 := hmacXxx H password temp1
  let temp2 := hmacXxx H password temp1
  if isClient then { sessionKey, encodeKey := temp2, decodeKey := temp1 }
  else { sessionKey, encodeKey := temp1, decodeKey := temp2 }

def permEncodeKey (n : UInt32) (c : HLCrypt H) : HLCrypt H :=
  { c with encodeKey := (fun key => hmacXxx H key c.sessionKey)^[n.toNat] c.encodeKey }

def permDecodeKey (n : UInt32) (c : HLCrypt H) : HLCrypt H :=
  { c with decodeKey := (fun key => hmacXxx H key c.sessionKey)^[n.toNat] c.decodeKey }

end HLCrypt

structure Transfer where
  sent : Bool
  header : Bytes
  data : Bytes
  flag : UInt8
  size : header.length = kTransactionHeaderSize
  nonempty : data ≠ []

abbrev Keys := Bytes × Bytes

def HLCrypt.keys (c : HLCrypt H) : Keys := (c.encodeKey, c.decodeKey)

def HLCrypt.transfer (c : HLCrypt H) (transfer : Transfer) : HLCrypt H :=
  if transfer.sent then c.permEncodeKey transfer.flag.toUInt32 else c.permDecodeKey transfer.flag.toUInt32

def legacyKeys (H : MessageDigest) (password sessionKey : Bytes) (isClient : Bool) (transfers : List Transfer) : Keys :=
  (transfers.foldl HLCrypt.transfer (HLCrypt.init H sessionKey password isClient)).keys

end Slopline.Legacy

namespace Slopline.Protocol

open Crypto Legacy

variable {H : MessageDigest}

namespace TransactionCipher

def keys (t : TransactionCipher H) : Keys := (t.encodeKey, t.decodeKey)

def transfer (t : TransactionCipher H) (transfer : Transfer) : TransactionCipher H :=
  if transfer.sent then (t.encode transfer.header transfer.data transfer.flag).2
  else ((t.decodeHeader transfer.header).2.decodeData transfer.data transfer.flag).2

end TransactionCipher

theorem Direction.processData_key (d : Direction) (sessionKey : Bytes) {data : Bytes} (nonempty : data ≠ [])
    (flag : UInt8) :
    (d.processData H sessionKey data flag).2.key = permuteKey H d.key sessionKey flag.toUInt32 := by
  have filled : ¬ data.isEmpty := by simpa using nonempty
  by_cases plain : flag = 0
  · simp only [processData, if_neg filled, plain, ne_eq, not_true_eq_false, if_false]
    exact (permuteKey_zero H d.key sessionKey).symm
  · simp only [processData, if_neg filled, ne_eq, plain, not_false_eq_true, if_true]
    rfl

theorem TransactionCipher.transfer_keys (t : TransactionCipher H) (transfer : Transfer) :
    (t.transfer transfer).sessionKey = t.sessionKey ∧
      (t.transfer transfer).keys =
        if transfer.sent then (permuteKey H t.encodeKey t.sessionKey transfer.flag.toUInt32, t.decodeKey)
        else (t.encodeKey, permuteKey H t.decodeKey t.sessionKey transfer.flag.toUInt32) := by
  unfold TransactionCipher.transfer
  split
  · rw [encode_eq]
    refine ⟨rfl, Prod.ext ?_ rfl⟩
    exact (t.encoding.process transfer.header).2.processData_key t.sessionKey transfer.nonempty transfer.flag
  · rw [decodeHeader_eq, decodeData_eq]
    refine ⟨rfl, Prod.ext rfl ?_⟩
    exact (t.decoding.process transfer.header).2.processData_key t.sessionKey transfer.nonempty transfer.flag

def modernKeys (H : MessageDigest) (password sessionKey : Bytes) (isClient : Bool) (transfers : List Transfer) : Keys :=
  (transfers.foldl TransactionCipher.transfer (TransactionCipher.create H password sessionKey isClient)).keys

end Slopline.Protocol
