import Slopline.Library.Loop
import Slopline.Net.Socket
import Slopline.Protocol.FieldList
import Slopline.Protocol.Transaction
import Mathlib.Data.Finmap

/-! The state of a connection and the operations below the parser
(`hotline/net/connection.h`, `connection.cpp`).

`ConnectionBase` is one class; its members fall in two groups that are records of
their own here. `mark_dead`, `flush_sends` and everything the application may call
touch the `Endpoint` alone; the parser's stages live in the `Inlet`.

The callbacks are application code, which may call back into the connection. They
are functions of the history so far, and answer with the calls they make.
-/

set_option autoImplicit false

namespace Slopline.Net

open Protocol Library

inductive ConnectionState where
  | idle
  | awaitingHandshakeReply
  | awaitingHandshake
  | established
  | closing
  | dead
  deriving DecidableEq, Repr

structure ConnectionConfig where
  maxReceiveSize : UInt32 := 2097152
  deriving DecidableEq, Repr

structure ReceivedTransaction where
  header : TransactionHeader
  data : Bytes
  deriving DecidableEq, Repr

structure EncodeHook (κ : Type) where
  run : κ → Bytes → Bytes → UInt8 → (Bytes × Bytes) × κ
  length_header : ∀ hooks header data flag, (run hooks header data flag).1.1.length = header.length
  length_data : ∀ hooks header data flag, (run hooks header data flag).1.2.length = data.length

structure DecodeHeaderHook (κ : Type) where
  run : κ → Bytes → (UInt8 × Bytes) × κ
  length_header : ∀ hooks header, (run hooks header).1.2.length = header.length

structure DecodeDataHook (κ : Type) where
  run : κ → Bytes → UInt8 → Bytes × κ
  length_data : ∀ hooks data flag, (run hooks data flag).1.length = data.length

/-- The four hooks share what they capture, the `κ` they take and return. They
rewrite spans in place, so none changes a length. -/
structure ConnectionCryptoHooks (κ : Type) where
  chooseFlag : Option (κ → UInt8 × κ) := none
  encode : Option (EncodeHook κ) := none
  decodeHeader : Option (DecodeHeaderHook κ) := none
  decodeData : Option (DecodeDataHook κ) := none

structure PendingSend where
  bytes : Bytes
  offset : Nat := 0
  deriving DecidableEq, Repr

structure Outgoing where
  type : TransactionType
  id : UInt32
  data : Bytes
  isReply : Bool := false
  error : UInt32 := 0
  deriving DecidableEq, Repr

/-- What crosses the connection's boundary: the application's calls that matter
later, its callbacks, and the bytes its socket takes. -/
inductive Event where
  | queued (outgoing : Outgoing) (wire : Bytes)
  | closeCalled
  | sent (bytes : Bytes)
  | onEstablished
  | onTransaction (transaction : ReceivedTransaction)
  | onClosed
  deriving DecidableEq, Repr

structure Entry where
  state : ConnectionState
  event : Event
  deriving DecidableEq, Repr

/-- What the application may call from inside a callback, with the system's answers
to the sends the call makes. -/
inductive Call (κ : Type) where
  | queueTransaction (outgoing : Outgoing) (answers : List SendResult)
  | queueKeepalive (answers : List SendResult)
  | setCrypto (crypto : ConnectionCryptoHooks κ)
  | close

structure ConnectionEvents (κ : Type) where
  onEstablished : List Entry → List (Call κ)
  onTransaction : List Entry → List (Call κ)
  onClosed : List Entry → List (Call κ)

structure Endpoint (κ : Type) where
  socket : Socket := {}
  state : ConnectionState := .idle
  crypto : ConnectionCryptoHooks κ := {}
  hooks : κ
  sendQueue : List PendingSend := []
  trace : List Entry := []

variable {κ : Type}

/-- Callbacks that never touch the connection. -/
def ConnectionEvents.silent : ConnectionEvents κ where
  onEstablished _ := []
  onTransaction _ := []
  onClosed _ := []

namespace Endpoint

def note (event : Event) (e : Endpoint κ) : Endpoint κ :=
  { e with trace := e.trace ++ [⟨e.state, event⟩] }

def queueBytes (bytes : Bytes) (e : Endpoint κ) : Endpoint κ :=
  if bytes.isEmpty then e else { e with sendQueue := e.sendQueue ++ [{ bytes }] }

def setCrypto (crypto : ConnectionCryptoHooks κ) (e : Endpoint κ) : Endpoint κ := { e with crypto }

def close (e : Endpoint κ) : Endpoint κ :=
  let e := e.note .closeCalled
  { e with socket := e.socket.close }

def outgoingHeader (outgoing : Outgoing) : TransactionHeader where
  isReply := if outgoing.isReply then 1 else 0
  type := outgoing.type
  id := outgoing.id
  error := outgoing.error
  totalSize := UInt32.ofNat outgoing.data.length
  dataSize := UInt32.ofNat outgoing.data.length

def encodeOutgoing (crypto : ConnectionCryptoHooks κ) (hooks : κ) (header : TransactionHeader)
    (data : Bytes) : Bytes × κ :=
  match crypto.chooseFlag, crypto.encode with
  | some chooseFlag, some encode =>
    let chosen := chooseFlag hooks
    let header := { header with flag := chosen.1 }
    let encoded := encode.run chosen.2 (encodeHeader header) data chosen.1
    (encoded.1.1 ++ encoded.1.2, encoded.2)
  | _, _ =>
    let header := { header with flag := 0 }
    (encodeHeader header ++ data, hooks)

section
-- `mark_dead` calls back into the application, whose calls may end in `mark_dead`.
-- The operations that can reach it take it as a parameter.
variable (die : Endpoint κ → Endpoint κ)

/-- One round of `flush_sends`; leaving because the queue is empty includes the test
behind its loop. -/
def sendStep (answer : SendResult) (e : Endpoint κ) : Loop (Endpoint κ) (Endpoint κ) :=
  match e.sendQueue with
  | [] => .done (if e.state = .closing then die e else e)
  | pending :: rest =>
    let buffer := pending.bytes.drop pending.offset
    match e.socket.send buffer answer with
    | .ok sent =>
      let e := e.note (.sent (buffer.take sent))
      let pending := { pending with offset := pending.offset + sent }
      .again { e with
        sendQueue := if pending.bytes.length ≤ pending.offset then rest else pending :: rest }
    | .error .wouldBlock => .done e
    | .error .interrupted => .again e
    | .error _ => .done (die e)

def flushLoop : List SendResult → Endpoint κ → Endpoint κ
  | [], e => e
  | answer :: answers, e =>
    match sendStep die answer e with
    | .again e => flushLoop answers e
    | .done e => e

/-- The system that has no more answers listed would block. -/
def flushSendsWith (answers : List SendResult) (e : Endpoint κ) : Endpoint κ :=
  flushLoop die (answers ++ [.error .wouldBlock]) e

def queueTransactionWith (outgoing : Outgoing) (answers : List SendResult) (e : Endpoint κ) :
    Endpoint κ :=
  let encoded := encodeOutgoing e.crypto e.hooks (outgoingHeader outgoing) outgoing.data
  let e := { e with hooks := encoded.2 }.note (.queued outgoing encoded.1)
  flushSendsWith die answers (e.queueBytes encoded.1)

def queueKeepaliveWith (answers : List SendResult) (e : Endpoint κ) : Endpoint κ :=
  match encodeFieldList {} with
  | .ok fields =>
    queueTransactionWith die { type := TransactionType.keepConnectionAlive, id := 0, data := fields } answers e
  | .error _ => e

def callWith (e : Endpoint κ) : Call κ → Endpoint κ
  | .queueTransaction outgoing answers => queueTransactionWith die outgoing answers e
  | .queueKeepalive answers => queueKeepaliveWith die answers e
  | .setCrypto crypto => e.setCrypto crypto
  | .close => e.close

def callsWith (calls : List (Call κ)) (e : Endpoint κ) : Endpoint κ := calls.foldl (callWith die) e

end

variable (events : ConnectionEvents κ)

/-- `mark_dead`. Inside `on_closed` the connection is dead, where a nested
`mark_dead` returns at once. -/
def markDead (e : Endpoint κ) : Endpoint κ :=
  if e.state = .dead then e
  else
    let e := { e with state := .dead, socket := e.socket.close }.note .onClosed
    callsWith id (events.onClosed e.trace) e

def flushSends : List SendResult → Endpoint κ → Endpoint κ := flushSendsWith (markDead events)

def call : Endpoint κ → Call κ → Endpoint κ := callWith (markDead events)

def calls : List (Call κ) → Endpoint κ → Endpoint κ := callsWith (markDead events)

def markEstablished (e : Endpoint κ) : Endpoint κ :=
  let e := { e with state := .established }.note .onEstablished
  calls events (events.onEstablished e.trace) e

def dispatch (transaction : ReceivedTransaction) (e : Endpoint κ) : Endpoint κ :=
  let e := e.note (.onTransaction transaction)
  calls events (events.onTransaction e.trace) e

end Endpoint

inductive ReceiveStage where
  | handshake
  | header
  | data
  deriving DecidableEq, Repr

abbrev PartialKey := UInt8 × UInt32

structure PartialReceive where
  header : TransactionHeader := {}
  data : Bytes := []
  deriving DecidableEq, Repr

/-- `partial_`, a `std::map`. -/
abbrev Partials := Finmap fun _ : PartialKey => PartialReceive

structure Inlet where
  receiveStage : ReceiveStage := .handshake
  expectedBytes : Nat
  inbound : Bytes := []
  headerBytes : Bytes := List.replicate kTransactionHeaderSize 0
  pendingHeader : TransactionHeader := {}
  pendingFlag : UInt8 := 0
  pendingData : Bytes := []
  partials : Partials := ∅
  deriving DecidableEq

/-- Which class derives from the base. -/
inductive Role where
  | client
  | server
  deriving DecidableEq, Repr

def Role.other : Role → Role
  | .client => .server
  | .server => .client

@[simp] theorem Role.other_other (role : Role) : role.other.other = role := by cases role <;> rfl

theorem Role.other_ne (role : Role) : role.other ≠ role := by cases role <;> simp [Role.other]

theorem Role.eq_other {role party : Role} (different : party ≠ role) : party = role.other := by
  cases role <;> cases party <;> simp_all [Role.other]

structure Connection (κ : Type) where
  role : Role
  config : ConnectionConfig
  endpoint : Endpoint κ
  inlet : Inlet
  remoteSubProtocol : UInt32 := 0
  remoteVersion : UInt16 := 0

end Slopline.Net
