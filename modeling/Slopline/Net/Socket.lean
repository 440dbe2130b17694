import Slopline.Core.Endian

/-! Non-blocking stream sockets (`appwarrior/net/socket.h`, `socket.cpp`, `net_error.h`).

The operating system is an input of the model: each call takes the answer `::send`
or `::recv` gives it.
-/

set_option autoImplicit false

namespace Slopline.Net

inductive NetError where
  | wouldBlock
  | interrupted
  | connectionClosed
  | connectionRefused
  | addressInUse
  | invalidArgument
  | system
  deriving DecidableEq, Repr

/-- The buffer `service_readable` receives into. -/
def kScratchSize : Nat := 4096

/-- What one read returns: some bytes, at most the buffer's size. -/
structure Chunk where
  bytes : Bytes
  nonempty : bytes ≠ []
  fits : bytes.length ≤ kScratchSize

inductive SendResult where
  /-- The system takes this many bytes, or all there are if they are fewer. -/
  | accepted (count : Nat)
  | error (error : NetError)
  deriving DecidableEq, Repr

inductive RecvResult where
  | read (chunk : Chunk)
  | endOfStream
  | error (error : NetError)

structure Socket where
  /-- `descriptor_ != kInvalid`. -/
  isOpen : Bool := false
  deriving DecidableEq, Repr

namespace Socket

def send (socket : Socket) (buffer : Bytes) (answer : SendResult) : Except NetError Nat :=
  if !socket.isOpen || buffer.isEmpty then .error .invalidArgument
  else match answer with
    | .accepted count => .ok (min count buffer.length)
    | .error error => .error error

/-- A zero-length read is the peer's orderly close. -/
def receive (socket : Socket) (answer : RecvResult) : Except NetError Bytes :=
  if !socket.isOpen then .error .invalidArgument
  else match answer with
    | .read chunk => .ok chunk.bytes
    | .endOfStream => .error .connectionClosed
    | .error error => .error error

def close (_ : Socket) : Socket := { isOpen := false }

theorem send_closed {socket : Socket} (shut : socket.isOpen = false) (buffer : Bytes) (answer : SendResult) :
    socket.send buffer answer = .error .invalidArgument := by simp [send, shut]

theorem receive_closed {socket : Socket} (shut : socket.isOpen = false) (answer : RecvResult) :
    socket.receive answer = .error .invalidArgument := by simp [receive, shut]

end Socket

end Slopline.Net
