import Slopline.Net.Connection
import Slopline.Protocol.Handshake

/-! The client's establish path (`hotline/client/connection.h`, `connection.cpp`). -/

set_option autoImplicit false

namespace Slopline.Client

open Protocol Net

variable {κ : Type}

def fresh (config : ConnectionConfig) (hooks : κ) : Connection κ where
  role := .client
  config := config
  endpoint := { hooks }
  inlet := { expectedBytes := kServerHandshakeReplySize }

def clientHandshake (subProtocol : UInt32) (subVersion : UInt16) : ClientHandshake where
  protocol := kProtocolTrTp
  subProtocol := subProtocol
  version := kProtocolVersion
  subVersion := subVersion

variable (events : ConnectionEvents κ)

def start (socket : Socket) (subProtocol : UInt32) (subVersion : UInt16) (answers : List SendResult)
    (c : Connection κ) : Connection κ :=
  let e := { c.endpoint with socket, state := .awaitingHandshakeReply }
  let e := e.queueBytes (encodeClientHandshake (clientHandshake subProtocol subVersion))
  { c with endpoint := e.flushSends events answers }

def handleHandshake (c : Connection κ) : Connection κ :=
  match tryDecodeServerHandshakeReply (c.inlet.inbound.take kServerHandshakeReplySize) with
  | .error _ => { c with endpoint := c.endpoint.markDead events }
  | .ok reply =>
    let c := { c with inlet := { c.inlet with
      inbound := c.inlet.inbound.drop kServerHandshakeReplySize } }
    if validateServerHandshakeReply reply ≠ .accepted then
      { c with endpoint := c.endpoint.markDead events }
    else { c with endpoint := c.endpoint.markEstablished events }

end Slopline.Client
