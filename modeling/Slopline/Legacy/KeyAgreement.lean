import Slopline.Crypto.Md5
import Slopline.Crypto.Sha1
import Slopline.Legacy.HLCrypt

/-! When a modern endpoint and a legacy peer stay on the same keys. -/

set_option autoImplicit false

namespace Slopline.Legacy

open Crypto Protocol

variable {H : MessageDigest}

/-- Modern and legacy keys are the same after each of the transfers, whatever the digest,
the login and the role. -/
def Agrees (transfers : List Transfer) : Prop :=
  ∀ (H : MessageDigest) (password sessionKey : Bytes) (isClient : Bool) (done : List Transfer), done <+: transfers →
    modernKeys H password sessionKey isClient done = legacyKeys H password sessionKey isClient done

theorem login_keys (H : MessageDigest) (password sessionKey : Bytes) (isClient : Bool) :
    (TransactionCipher.create H password sessionKey isClient).keys =
      (HLCrypt.init H sessionKey password isClient).keys := by
  cases isClient <;> rfl

theorem unflagged_modern {transfers : List Transfer} (plain : ∀ transfer ∈ transfers, transfer.flag = 0)
    (t : TransactionCipher H) : (transfers.foldl TransactionCipher.transfer t).keys = t.keys := by
  induction transfers generalizing t with
  | nil => rfl
  | cons transfer transfers ih =>
    obtain ⟨first, rest⟩ := List.forall_mem_cons.mp plain
    have kept : (t.transfer transfer).keys = t.keys := by
      rw [(t.transfer_keys transfer).2, first]
      split <;> rfl
    exact (ih rest _).trans kept

theorem unflagged_legacy {transfers : List Transfer} (plain : ∀ transfer ∈ transfers, transfer.flag = 0)
    (c : HLCrypt H) : transfers.foldl HLCrypt.transfer c = c := by
  induction transfers generalizing c with
  | nil => rfl
  | cons transfer transfers ih =>
    obtain ⟨first, rest⟩ := List.forall_mem_cons.mp plain
    have kept : c.transfer transfer = c := by
      rw [HLCrypt.transfer, first]
      split <;> rfl
    rw [List.foldl_cons, kept]
    exact ih rest c

/-- A digest of a message's last byte and its length. Its HMAC tells how long the message
is and nothing else. -/
def tally : MessageDigest where
  blockSize := 64
  digestSize := 2
  digest message := [message.getLastD 0, UInt8.ofNat message.length]
  blockSize_pos := by decide
  digestSize_le := by decide
  length_digest _ := rfl

theorem hmac_tally (key message : Bytes) : hmac tally key message = [UInt8.ofNat (64 + message.length), 66] := by
  have block : (hmacBlock tally key).length = 64 := length_hmacBlock tally key
  have digested (bytes : Bytes) : tally.digest bytes = [bytes.getLastD 0, UInt8.ofNat bytes.length] := rfl
  simp only [hmac, digested, List.length_append, List.length_map, block]
  rw [List.getLastD_eq_getLast?, List.getLast?_append]
  rfl

/-- A login on which the two permutations part at once: the session key is five bytes
long, a key two. -/
def partingKey : Bytes := [0, 0, 0, 0, 0]

theorem tally_login (isClient : Bool) :
    (TransactionCipher.create tally [] partingKey isClient).keys = ([66, 66], [66, 66]) := by
  cases isClient <;> simp [TransactionCipher.create, TransactionCipher.keys, deriveLoginKeys, hmac_tally, partingKey]

theorem tally_modern (transfers : List Transfer) {t : TransactionCipher tally} (session : t.sessionKey = partingKey)
    (keys : t.keys = ([66, 66], [66, 66])) :
    (transfers.foldl TransactionCipher.transfer t).keys = ([66, 66], [66, 66]) := by
  induction transfers generalizing t with
  | nil => exact keys
  | cons transfer transfers ih =>
    obtain ⟨kept, moved⟩ := t.transfer_keys transfer
    have fixed (rounds : UInt32) : permuteKey tally [66, 66] partingKey rounds = [66, 66] :=
      Function.iterate_fixed (hmac_tally _ _) _
    obtain ⟨encodeKey, decodeKey⟩ := Prod.mk.inj keys
    rw [session, encodeKey, decodeKey, fixed, ite_self] at moved
    exact ih (kept.trans session) moved

theorem tally_legacy (c : HLCrypt tally) (session : c.sessionKey = partingKey) {transfer : Transfer}
    (flagged : transfer.flag ≠ 0) : (c.transfer transfer).keys ≠ ([66, 66], [66, 66]) := by
  have some (key : Bytes) : (fun key => hmacXxx tally key partingKey)^[transfer.flag.toNat] key = [69, 66] := by
    obtain ⟨rounds, more⟩ := Nat.exists_eq_succ_of_ne_zero (n := transfer.flag.toNat) (by
      simpa [← UInt8.toNat_inj] using flagged)
    rw [more, Function.iterate_succ_apply']
    exact hmac_tally _ _
  unfold HLCrypt.transfer
  split
  · simp [HLCrypt.keys, HLCrypt.permEncodeKey, session, some]
  · simp [HLCrypt.keys, HLCrypt.permDecodeKey, session, some]

theorem legacy_sessionKey (transfers : List Transfer) (c : HLCrypt H) :
    (transfers.foldl HLCrypt.transfer c).sessionKey = c.sessionKey := by
  induction transfers generalizing c with
  | nil => rfl
  | cons transfer transfers ih =>
    refine (ih _).trans ?_
    unfold HLCrypt.transfer
    split <;> rfl

/-- The two stay on the same keys exactly as long as no transaction permutes them. -/
theorem agrees_iff (transfers : List Transfer) : Agrees transfers ↔ ∀ transfer ∈ transfers, transfer.flag = 0 := by
  constructor
  · intro agrees transfer member
    by_contra flagged
    obtain ⟨before, after, rfl⟩ := List.append_of_mem member
    have same := agrees tally [] partingKey true (before ++ [transfer]) (by simp)
    have modern : modernKeys tally [] partingKey true (before ++ [transfer]) = ([66, 66], [66, 66]) :=
      tally_modern _ rfl (tally_login true)
    rw [modern, legacyKeys, List.foldl_append] at same
    exact tally_legacy _ (legacy_sessionKey before _) flagged same.symm
  · intro plain H password sessionKey isClient done upTo
    have none : ∀ transfer ∈ done, transfer.flag = 0 := fun transfer member => plain transfer (upTo.subset member)
    rw [modernKeys, legacyKeys, unflagged_modern none, unflagged_legacy none, login_keys]

def flaggedOnce : Transfer where
  sent := true
  header := encodeHeader { flag := 1, totalSize := 1, dataSize := 1 }
  data := [0]
  flag := 1
  size := rfl
  nonempty := by decide

def goldenPassword : Bytes := [115, 101, 99, 114, 101, 116]

def goldenSessionKey : Bytes := [1, 2, 3, 4, 5, 6, 7, 8]

def goldenFirst : Bytes :=
  [0xc8, 0x42, 0xa9, 0x87, 0x17, 0x4e, 0x31, 0xf0, 0xd4, 0xfc, 0x3c, 0xbe, 0xf3, 0x70, 0x6f, 0x54]

/-- With a digest of the protocol's, a server's encode key parts at the first flag. -/
theorem disagrees_md5 :
    modernKeys md5 goldenPassword goldenSessionKey false [flaggedOnce] ≠
      legacyKeys md5 goldenPassword goldenSessionKey false [flaggedOnce] := by
  have first : (deriveLoginKeys md5 goldenPassword goldenSessionKey).first = goldenFirst := by decide +kernel
  have modern : (modernKeys md5 goldenPassword goldenSessionKey false [flaggedOnce]).1 =
      hmac md5 goldenSessionKey goldenFirst := by
    rw [← first]
    exact congrArg Prod.fst
      ((TransactionCipher.create md5 goldenPassword goldenSessionKey false).transfer_keys flaggedOnce).2
  have legacy : (legacyKeys md5 goldenPassword goldenSessionKey false [flaggedOnce]).1 =
      hmac md5 goldenFirst goldenSessionKey := by
    rw [← first]
    rfl
  have parted : hmac md5 goldenSessionKey goldenFirst ≠ hmac md5 goldenFirst goldenSessionKey := by decide +kernel
  intro same
  refine parted ?_
  rw [← modern, ← legacy, same]

end Slopline.Legacy
