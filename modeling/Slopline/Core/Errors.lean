/-! What a codec reports (`appwarrior/core/decode_error.h`, `encode_error.h`). -/

set_option autoImplicit false

namespace Slopline

inductive DecodeError where
  | truncated
  | trailingBytes
  | invalidIntegerFieldSize
  | wrongFormatTag
  | unsupportedVersion
  deriving DecidableEq, Repr

inductive EncodeError where
  | elementTooLarge
  | countTooLarge
  | stringTooLong
  deriving DecidableEq, Repr

end Slopline
