import Slopline.Client.Connection
import Slopline.Net.Later
import Slopline.Server.Connection

/-! The parser and readiness servicing (`hotline/net/connection.cpp`). -/

set_option autoImplicit false

namespace Slopline.Net

open Protocol Library

variable {κ : Type}

def ConnectionConfig.Refuses (config : ConnectionConfig) (header : TransactionHeader) : Prop :=
  header.totalSize = 0 ∨ header.dataSize = 0 ∨
    config.maxReceiveSize < header.totalSize ∨ config.maxReceiveSize < header.dataSize

instance (config : ConnectionConfig) (header : TransactionHeader) : Decidable (config.Refuses header) :=
  inferInstanceAs (Decidable (_ ∨ _))

/-- The flag, the header bytes and the hooks after `decode_header`, if there is one. -/
def readHeader (crypto : ConnectionCryptoHooks κ) (hooks : κ) (raw : Bytes) : (UInt8 × Bytes) × κ :=
  match crypto.decodeHeader with
  | some decode => decode.run hooks raw
  | none => ((0, raw), hooks)

/-- The data and the hooks after `decode_data`, if there is one. -/
def readData (crypto : ConnectionCryptoHooks κ) (hooks : κ) (raw : Bytes) (flag : UInt8) : Bytes × κ :=
  match crypto.decodeData with
  | some decode => decode.run hooks raw flag
  | none => (raw, hooks)

def TransactionHeader.key (header : TransactionHeader) : PartialKey := (header.isReply, header.id)

namespace Connection

def Waiting (c : Connection κ) : Prop := c.endpoint.state ≠ .dead ∧ c.endpoint.state ≠ .closing

variable (events : ConnectionEvents κ)

def markDead (c : Connection κ) : Connection κ := { c with endpoint := c.endpoint.markDead events }

def dispatch (transaction : ReceivedTransaction) (c : Connection κ) : Connection κ :=
  { c with endpoint := c.endpoint.dispatch events transaction }

def setPartials (partials : Partials) (c : Connection κ) : Connection κ :=
  { c with inlet := { c.inlet with partials } }

def completeTransaction (data : Bytes) (c : Connection κ) : Connection κ :=
  let header := c.inlet.pendingHeader
  let decoded := readData c.endpoint.crypto c.endpoint.hooks data c.inlet.pendingFlag
  let data := decoded.1
  let c := { c with endpoint := { c.endpoint with hooks := decoded.2 } }
  if header.totalSize = header.dataSize then c.dispatch events ⟨header, data⟩
  else
    let key := TransactionHeader.key header
    let entry := (c.inlet.partials.lookup key).getD {}
    let entry : PartialReceive := { header, data := entry.data ++ data }
    let c := c.setPartials (c.inlet.partials.insert key entry)
    if entry.header.totalSize.toNat ≤ entry.data.length then
      let c := c.dispatch events ⟨entry.header, entry.data⟩
      c.setPartials (c.inlet.partials.erase key)
    else c

/-- The role's override of the virtual `handle_handshake`. -/
def handleHandshake (answers : List SendResult) (c : Connection κ) : Connection κ :=
  match c.role with
  | .client => Client.handleHandshake events c
  | .server => Server.handleHandshake events answers c

def expectHeader (c : Connection κ) : Connection κ :=
  { c with inlet := { c.inlet with receiveStage := .header, expectedBytes := kTransactionHeaderSize } }

def handshakeStage (answers : List SendResult) (c : Connection κ) : Loop (Connection κ) (Connection κ) :=
  if c.inlet.inbound.length < c.inlet.expectedBytes then .done c
  else .again (c.handleHandshake events answers).expectHeader

def takeHeader (c : Connection κ) : Connection κ :=
  let decoded := readHeader c.endpoint.crypto c.endpoint.hooks (c.inlet.inbound.take kTransactionHeaderSize)
  { c with
    endpoint := { c.endpoint with hooks := decoded.2 }
    inlet := { c.inlet with
      inbound := c.inlet.inbound.drop kTransactionHeaderSize
      headerBytes := decoded.1.2
      pendingFlag := decoded.1.1
      pendingHeader := decodeHeader decoded.1.2 } }

def expectData (c : Connection κ) : Connection κ :=
  { c with inlet := { c.inlet with
    pendingData := []
    receiveStage := .data
    expectedBytes := c.inlet.pendingHeader.dataSize.toNat } }

def headerStage (c : Connection κ) : Loop (Connection κ) (Connection κ) :=
  if c.inlet.inbound.length < kTransactionHeaderSize then .done c
  else
    let c := c.takeHeader
    if c.config.Refuses c.inlet.pendingHeader then .done (c.markDead events) else .again c.expectData

def takeData (c : Connection κ) : Bytes × Connection κ :=
  (c.inlet.pendingData ++ c.inlet.inbound.take c.inlet.expectedBytes,
    { c with inlet := { c.inlet with
      pendingData := []
      inbound := c.inlet.inbound.drop c.inlet.expectedBytes } })

def dataStage (c : Connection κ) : Loop (Connection κ) (Connection κ) :=
  if c.inlet.inbound.length < c.inlet.expectedBytes then .done c
  else
    .again (c.takeData.2.completeTransaction events c.takeData.1).expectHeader

/-- One round of `parse_inbound`. -/
def parseStep (answers : List SendResult) (c : Connection κ) : Loop (Connection κ) (Connection κ) :=
  if c.endpoint.state = .dead ∨ c.endpoint.state = .closing then .done c
  else match c.inlet.receiveStage with
    | .handshake => c.handshakeStage events answers
    | .header => c.headerStage events
    | .data => c.dataStage events

@[simp] theorem completeTransaction_inbound (data : Bytes) (c : Connection κ) :
    (c.completeTransaction events data).inlet.inbound = c.inlet.inbound := by
  unfold completeTransaction
  dsimp only
  split
  · rfl
  · split <;> rfl

/-- A handshake eats from the inbound bytes; of the inlet it touches nothing else. -/
theorem handleHandshake_frame (answers : List SendResult) (c : Connection κ) :
    (c.handleHandshake events answers).role = c.role ∧ (c.handleHandshake events answers).config = c.config ∧
      ∃ inbound, inbound.length ≤ c.inlet.inbound.length ∧
        (c.handleHandshake events answers).inlet = { c.inlet with inbound } := by
  have dropped (size : Nat) : (c.inlet.inbound.drop size).length ≤ c.inlet.inbound.length := by simp
  cases role : c.role with
  | client =>
    simp only [handleHandshake, role, Client.handleHandshake]
    split
    · exact ⟨rfl, rfl, _, Nat.le_refl _, rfl⟩
    · split <;> exact ⟨rfl, rfl, _, dropped _, rfl⟩
  | server =>
    simp only [handleHandshake, role, Server.handleHandshake]
    split
    · exact ⟨rfl, rfl, _, Nat.le_refl _, rfl⟩
    · split <;> exact ⟨rfl, rfl, _, dropped _, rfl⟩

theorem parseStep_waiting (answers : List SendResult) {c : Connection κ} (waiting : c.Waiting) :
    parseStep events answers c = match c.inlet.receiveStage with
      | .handshake => c.handshakeStage events answers
      | .header => c.headerStage events
      | .data => c.dataStage events := by
  unfold parseStep
  exact if_neg (not_or.mpr waiting)

theorem parseStep_resting (answers : List SendResult) {c : Connection κ} (resting : ¬ c.Waiting) :
    parseStep events answers c = .done c := by
  rw [parseStep, if_pos]
  simpa only [Waiting, not_and_or, not_not] using resting

inductive Round (answers : List SendResult) (c next : Connection κ) : Prop where
  | handshake : c.inlet.receiveStage = .handshake → ¬ c.inlet.inbound.length < c.inlet.expectedBytes →
      next = (c.handleHandshake events answers).expectHeader → Round answers c next
  | header : c.inlet.receiveStage = .header → ¬ c.inlet.inbound.length < kTransactionHeaderSize →
      ¬ c.config.Refuses c.takeHeader.inlet.pendingHeader → next = c.takeHeader.expectData → Round answers c next
  | data : c.inlet.receiveStage = .data → ¬ c.inlet.inbound.length < c.inlet.expectedBytes →
      next = (c.takeData.2.completeTransaction events c.takeData.1).expectHeader → Round answers c next

theorem parseStep_again_iff {answers : List SendResult} {c next : Connection κ} :
    parseStep events answers c = .again next ↔ c.Waiting ∧ Round events answers c next := by
  by_cases waiting : c.Waiting
  · rw [parseStep_waiting events answers waiting]
    simp only [waiting, true_and]
    constructor
    · intro step
      cases stage : c.inlet.receiveStage with
      | handshake =>
        simp only [stage, handshakeStage] at step
        split at step <;> cases step
        next enough => exact .handshake stage enough rfl
      | header =>
        simp only [stage, headerStage] at step
        split at step
        · cases step
        next enough =>
          split at step <;> cases step
          next accepted => exact .header stage enough accepted rfl
      | data =>
        simp only [stage, dataStage] at step
        split at step <;> cases step
        next enough => exact .data stage enough rfl
    · rintro (⟨stage, enough, rfl⟩ | ⟨stage, enough, accepted, rfl⟩ | ⟨stage, enough, rfl⟩)
      · simp only [stage, handshakeStage, if_neg enough]
      · simp only [stage, headerStage, if_neg enough]
        exact if_neg accepted
      · simp only [stage, dataStage, if_neg enough]
  · rw [parseStep_resting events answers waiting]
    simp [waiting]

/-- What the stage waits for. The header stage does not look at `expected_bytes_`. -/
def awaited (c : Connection κ) : Nat :=
  if c.inlet.receiveStage = .header then kTransactionHeaderSize else c.inlet.expectedBytes

/-- A round that leaves the parser: the connection is over, too little has come, or the
header breaks the receive policy. -/
inductive Leaves (c result : Connection κ) : Prop where
  | ended : ¬ c.Waiting → result = c → Leaves c result
  | short : c.Waiting → c.inlet.inbound.length < c.awaited → result = c → Leaves c result
  | refused : c.Waiting → c.inlet.receiveStage = .header → ¬ c.inlet.inbound.length < kTransactionHeaderSize →
      c.config.Refuses c.takeHeader.inlet.pendingHeader → result = c.takeHeader.markDead events → Leaves c result

theorem parseStep_done_iff {answers : List SendResult} {c result : Connection κ} :
    parseStep events answers c = .done result ↔ Leaves events c result := by
  constructor
  · intro step
    by_cases waiting : c.Waiting
    · rw [parseStep_waiting events answers waiting] at step
      cases stage : c.inlet.receiveStage with
      | handshake =>
        simp only [stage, handshakeStage] at step
        split at step <;> cases step
        next few => exact .short waiting (by simpa [awaited, stage] using few) rfl
      | header =>
        simp only [stage, headerStage] at step
        split at step
        next few => cases step; exact .short waiting (by simpa [awaited, stage] using few) rfl
        next enough =>
          split at step <;> cases step
          next refuses => exact .refused waiting stage enough refuses rfl
      | data =>
        simp only [stage, dataStage] at step
        split at step <;> cases step
        next few => exact .short waiting (by simpa [awaited, stage] using few) rfl
    · rw [parseStep_resting events answers waiting] at step
      cases step
      exact .ended waiting rfl
  · rintro (⟨rests, rfl⟩ | ⟨waiting, few, rfl⟩ | ⟨waiting, stage, enough, refuses, rfl⟩)
    · exact parseStep_resting events answers rests
    · rw [parseStep_waiting events answers waiting]
      cases stage : result.inlet.receiveStage with
      | handshake => exact if_pos (by simpa [awaited, stage] using few)
      | header => exact if_pos (by simpa [awaited, stage] using few)
      | data => exact if_pos (by simpa [awaited, stage] using few)
    · rw [parseStep_waiting events answers waiting]
      simp only [stage, headerStage, if_neg enough]
      exact if_pos refuses

/-- Every stage eats bytes or moves on to the header stage, which eats bytes. -/
def parseMeasure (c : Connection κ) : Nat :=
  2 * c.inlet.inbound.length + if c.inlet.receiveStage = .header then 0 else 1

theorem parseStep_drops (answers : List SendResult) (c next : Connection κ)
    (step : parseStep events answers c = .again next) : next.parseMeasure < c.parseMeasure := by
  cases ((parseStep_again_iff events).mp step).2 with
  | handshake stage enough same =>
    obtain ⟨_, _, inbound, shorter, inlet⟩ := handleHandshake_frame events answers c
    simp only [same, parseMeasure, expectHeader, inlet, stage, reduceIte, reduceCtorEq]
    omega
  | header stage enough accepted same =>
    simp only [same, parseMeasure, takeHeader, expectData, stage, reduceIte, reduceCtorEq, List.length_drop,
      kTransactionHeaderSize] at *
    omega
  | data stage enough same =>
    -- A part without data would not drop the bytes, but it leaves the data stage.
    simp only [same, parseMeasure, expectHeader, stage, reduceIte, reduceCtorEq,
      completeTransaction_inbound, takeData, List.length_drop]
    omega

def parseInbound (answers : List SendResult) (c : Connection κ) : Connection κ :=
  Loop.run parseMeasure (parseStep_drops events answers) c

def feed (bytes : Bytes) (c : Connection κ) : Connection κ :=
  { c with inlet := { c.inlet with inbound := c.inlet.inbound ++ bytes } }

@[simp] theorem feed_nil (c : Connection κ) : c.feed [] = c := by simp [feed]

@[simp] theorem feed_feed (first rest : Bytes) (c : Connection κ) :
    (c.feed first).feed rest = c.feed (first ++ rest) := by simp [feed]

/-- One round of the receive loop; `false` where it gives up the connection. -/
def receiveStep (answer : RecvResult) (c : Connection κ) : Loop (Connection κ) (Connection κ × Bool) :=
  match c.endpoint.socket.receive answer with
  | .ok bytes => .again (c.feed bytes)
  | .error .wouldBlock => .done (c, true)
  | .error .interrupted => .again c
  | .error _ => .done (c, false)

def receiveLoop : List RecvResult → Connection κ → Connection κ × Bool
  | [], c => (c, true)
  | answer :: answers, c =>
    match receiveStep answer c with
    | .again c => receiveLoop answers c
    | .done result => result

/-- `service_readable`, given the system's answers to the reads and to the sends of
a handshake reply; a system with no more answers listed would block. -/
def serviceReadable (received : List RecvResult) (answers : List SendResult) (c : Connection κ) :
    Connection κ :=
  if c.endpoint.state = .dead then c
  else match receiveLoop (received ++ [.error .wouldBlock]) c with
    | (c, false) => c.markDead events
    | (c, true) => c.parseInbound events answers

def serviceWritable (answers : List SendResult) (c : Connection κ) : Connection κ :=
  if c.endpoint.state = .dead then c
  else { c with endpoint := c.endpoint.flushSends events answers }

def call (request : Call κ) (c : Connection κ) : Connection κ :=
  { c with endpoint := c.endpoint.call events request }

structure Start where
  socket : Socket := { isOpen := true }
  subProtocol : UInt32 := kSubProtocolHotl
  subVersion : UInt16 := kClientSubVersion
  answers : List SendResult := []

def start (arguments : Start) (c : Connection κ) : Connection κ :=
  match c.role with
  | .client =>
    Client.start events arguments.socket arguments.subProtocol arguments.subVersion arguments.answers c
  | .server => Server.start arguments.socket c

def fresh (role : Role) (config : ConnectionConfig) (hooks : κ) : Connection κ :=
  match role with
  | .client => Client.fresh config hooks
  | .server => Server.fresh config hooks

/-- The public operations but `start`. -/
inductive Op (κ : Type) where
  | serviceReadable (received : List RecvResult) (answers : List SendResult)
  | serviceWritable (answers : List SendResult)
  | call (request : Call κ)

def step (c : Connection κ) : Op κ → Connection κ
  | .serviceReadable received answers => c.serviceReadable events received answers
  | .serviceWritable answers => c.serviceWritable events answers
  | .call request => c.call events request

def run (ops : List (Op κ)) (c : Connection κ) : Connection κ := ops.foldl (step events) c

theorem run_invariant {events : ConnectionEvents κ} (inv : Connection κ → Prop)
    (keeps : ∀ c op, inv c → inv (step events c op)) (ops : List (Op κ)) {c : Connection κ} (holds : inv c) :
    inv (run events ops c) := by
  induction ops generalizing c with
  | nil => exact holds
  | cons op ops ih => exact ih (keeps c op holds)

def started (role : Role) (config : ConnectionConfig) (hooks : κ) (arguments : Start)
    (ops : List (Op κ)) : Connection κ :=
  run events ops (start events arguments (fresh role config hooks))

end Connection

end Slopline.Net
