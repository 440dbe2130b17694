import Slopline.Crypto.Digest
import Mathlib.Logic.Function.Iterate

/-! The login key schedule (`hotline/protocol/key_schedule.h`). -/

set_option autoImplicit false

namespace Slopline.Protocol

open Crypto

structure LoginKeys where
  first : Bytes
  second : Bytes
  deriving DecidableEq, Repr

def deriveLoginKeys (H : MessageDigest) (password sessionKey : Bytes) : LoginKeys :=
  let first := hmac H password sessionKey
  let first := hmac H password first
  { first, second := hmac H password first }

def permuteKey (H : MessageDigest) (key sessionKey : Bytes) (rounds : UInt32) : Bytes :=
  (hmac H sessionKey)^[rounds.toNat] key

@[simp] theorem permuteKey_zero (H : MessageDigest) (key sessionKey : Bytes) :
    permuteKey H key sessionKey 0 = key := rfl

end Slopline.Protocol
