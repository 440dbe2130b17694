import Slopline.Crypto.Sha1
import Slopline.Net.EndToEnd

/-! A client and a server joined by two pipes, with ciphers set before anything is serviced.

The ciphers are made from one password and one session key, so that each end decodes from
the state the other encodes from.
-/

set_option autoImplicit false

namespace Slopline.Net

open Protocol Crypto Library

variable {κ δ ρ : Type}

namespace System

end System

end Slopline.Net
