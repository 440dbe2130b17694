import Slopline.Net.Connection
import Slopline.Protocol.Handshake

/-! The server's establish path (`hotline/server/connection.h`, `connection.cpp`). -/

set_option autoImplicit false

namespace Slopline.Server

open Protocol Net

variable {κ : Type}

/-- A `ServerConnection` as constructed. -/
def fresh (config : ConnectionConfig) (hooks : κ) : Connection κ where
  role := .server
  config := config
  endpoint := { hooks }
  inlet := { expectedBytes := kClientHandshakeSize }

def start (socket : Socket) (c : Connection κ) : Connection κ :=
  { c with endpoint := { c.endpoint with socket, state := .awaitingHandshake } }

def rejectReply : ServerHandshakeReply := { error := normalizeRejectReason 1 }

def acceptReply : ServerHandshakeReply := {}

variable (events : ConnectionEvents κ)

def handleHandshake (answers : List SendResult) (c : Connection κ) : Connection κ :=
  match tryDecodeClientHandshake (c.inlet.inbound.take kClientHandshakeSize) with
  | .error _ => { c with endpoint := c.endpoint.markDead events }
  | .ok handshake =>
    let c := { c with
      remoteSubProtocol := handshake.subProtocol
      remoteVersion := handshake.subVersion
      -- Each branch of the source erases the handshake; none reads it afterwards.
      inlet := { c.inlet with inbound := c.inlet.inbound.drop kClientHandshakeSize } }
    match validateClientHandshake handshake with
    | .notTransactionClient => { c with endpoint := c.endpoint.markDead events }
    | .incompatibleVersion =>
      let e := c.endpoint.queueBytes (encodeServerHandshakeReply rejectReply)
      { c with endpoint := { e with state := .closing }.flushSends events answers }
    | .accepted =>
      let e := c.endpoint.queueBytes (encodeServerHandshakeReply acceptReply)
      { c with endpoint := (e.markEstablished events).flushSends events answers }

end Slopline.Server
