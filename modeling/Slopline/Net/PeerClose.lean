import Slopline.Net.Lifecycle
import Slopline.Net.Reading
import Slopline.Net.Receiving

/-! What reaches the application before the peer's close.

`service_readable` reads until the system has no more. When what comes then is the
end of the stream it gives up the connection and parses nothing of what the call read: no
callback runs but `on_closed`, and no handshake is answered.
-/

set_option autoImplicit false

namespace Slopline.Net

open Protocol Library

variable {κ : Type}

def Entry.open (entry : Entry) : Bool := entry.event ≠ .onClosed

namespace Connection

variable (events : ConnectionEvents κ)

def completed (answers : List SendResult) (c : Connection κ) : List ReceivedTransaction :=
  (dispatched (c.read events answers).endpoint.trace).drop (dispatched c.endpoint.trace).length

/-- The transactions an operation's received bytes complete. Where the call goes on to parse them,
they are read under the hooks that the callbacks leave; where it ends the connection, under those in place. -/
def arrivals (c : Connection κ) : Op κ → List ReceivedTransaction
  | .serviceReadable received answers =>
    if c.endpoint.state = .dead ∨ c.endpoint.socket.isOpen = false then []
    else match ending received with
      | .error .wouldBlock => (c.feed (arriving received)).completed events answers
      | .endOfStream => (c.feed (arriving received)).whole
      | _ => []
  | .serviceWritable _ | .call _ => []

def Closing (c : Connection κ) (received : List RecvResult) : Prop :=
  c.endpoint.state ≠ .dead ∧ c.endpoint.socket.isOpen = true ∧ ending received = .endOfStream

theorem Capped.feed {c : Connection κ} (capped : c.Capped) (bytes : Bytes) : (c.feed bytes).Capped :=
  ⟨capped.pendingData, capped.data, capped.partials, capped.delivered⟩

end Connection

end Slopline.Net
