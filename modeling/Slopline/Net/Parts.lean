import Slopline.Net.Service

/-! Transactions in parts: framing and reassembly apart from the parser's stages.

The parser takes a part in two rounds and keeps its progress in the stage. Here a
part is framed whole or not at all, and reassembly is a function of the partials.
-/

set_option autoImplicit false

namespace Slopline.Net

open Protocol Library

variable {κ : Type}

/-- A part as it travels without encryption. -/
def ReceivedTransaction.wire (part : ReceivedTransaction) : Bytes := encodeHeader part.header ++ part.data

/-- One more part: the transaction it completes, if it does, and the partials after it. -/
def Partials.add (partials : Partials) (part : ReceivedTransaction) :
    Option ReceivedTransaction × Partials :=
  if part.header.totalSize = part.header.dataSize then (some part, partials)
  else
    let key := TransactionHeader.key part.header
    let data := ((partials.lookup key).getD {}).data ++ part.data
    if part.header.totalSize.toNat ≤ data.length then (some ⟨part.header, data⟩, partials.erase key)
    else (none, partials.insert key { header := part.header, data })

namespace Partials

def addAll : Partials → List ReceivedTransaction → List ReceivedTransaction × Partials
  | partials, [] => ([], partials)
  | partials, part :: parts =>
    ((partials.add part).1.toList ++ (addAll (partials.add part).2 parts).1, (addAll (partials.add part).2 parts).2)

theorem addAll_append (partials : Partials) (parts more : List ReceivedTransaction) :
    partials.addAll (parts ++ more) =
      ((partials.addAll parts).1 ++ ((partials.addAll parts).2.addAll more).1,
        ((partials.addAll parts).2.addAll more).2) := by
  induction parts generalizing partials with
  | nil => rfl
  | cons part parts ih => rw [List.cons_append, addAll, addAll, ih, List.append_assoc]

end Partials

inductive Framed (κ : Type) where
  | short
  | refused
  | part (part : ReceivedTransaction) (hooks : κ) (rest : Bytes)

def frameData (crypto : ConnectionCryptoHooks κ) (hooks : κ) (header : TransactionHeader) (flag : UInt8)
    (bytes : Bytes) : Framed κ :=
  if bytes.length < header.dataSize.toNat then .short
  else
    let decoded := readData crypto hooks (bytes.take header.dataSize.toNat) flag
    .part ⟨header, decoded.1⟩ decoded.2 (bytes.drop header.dataSize.toNat)

def frame (config : ConnectionConfig) (crypto : ConnectionCryptoHooks κ) (hooks : κ) (bytes : Bytes) : Framed κ :=
  if bytes.length < kTransactionHeaderSize then .short
  else
    let decoded := readHeader crypto hooks (bytes.take kTransactionHeaderSize)
    let header := decodeHeader decoded.1.2
    if config.Refuses header then .refused
    else frameData crypto decoded.2 header decoded.1.1 (bytes.drop kTransactionHeaderSize)

theorem length_readData (crypto : ConnectionCryptoHooks κ) (hooks : κ) (raw : Bytes) (flag : UInt8) :
    (readData crypto hooks raw flag).1.length = raw.length := by
  unfold readData
  split
  · exact DecodeDataHook.length_data _ _ _ _
  · rfl

theorem frameData_rest {crypto : ConnectionCryptoHooks κ} {hooks hooks' : κ} {header : TransactionHeader}
    {flag : UInt8} {bytes rest : Bytes} {part : ReceivedTransaction}
    (framed : frameData crypto hooks header flag bytes = .part part hooks' rest) :
    rest.length ≤ bytes.length := by
  unfold frameData at framed
  split at framed <;> cases framed
  simp

theorem frame_rest {config : ConnectionConfig} {crypto : ConnectionCryptoHooks κ} {hooks hooks' : κ}
    {bytes rest : Bytes} {part : ReceivedTransaction}
    (framed : frame config crypto hooks bytes = .part part hooks' rest) : rest.length < bytes.length := by
  unfold frame at framed
  split at framed
  · cases framed
  next long =>
    dsimp only at framed
    split at framed
    · cases framed
    · have less := frameData_rest framed
      simp only [List.length_drop, kTransactionHeaderSize] at less long
      omega

/-- A part's effect on the endpoint: the hooks move on, and a completed transaction
goes to the application. -/
def Endpoint.deliver (events : ConnectionEvents κ) (completed : Option ReceivedTransaction) (hooks : κ)
    (e : Endpoint κ) : Endpoint κ :=
  match completed with
  | some transaction => { e with hooks }.dispatch events transaction
  | none => { e with hooks }

/-- A connection without the parser's stages: whole parts behind one another. -/
structure Reader (κ : Type) where
  endpoint : Endpoint κ
  partials : Partials
  bytes : Bytes

namespace Reader

variable (events : ConnectionEvents κ)

def take (part : ReceivedTransaction) (hooks : κ) (rest : Bytes) (r : Reader κ) : Reader κ where
  endpoint := r.endpoint.deliver events (r.partials.add part).1 hooks
  partials := (r.partials.add part).2
  bytes := rest

def step (config : ConnectionConfig) (r : Reader κ) : Loop (Reader κ) (Reader κ) :=
  if r.endpoint.state = .dead ∨ r.endpoint.state = .closing then .done r
  else match frame config r.endpoint.crypto r.endpoint.hooks r.bytes with
    | .part part hooks rest => .again (r.take events part hooks rest)
    | .short | .refused => .done r

def measure (r : Reader κ) : Nat := r.bytes.length

def Waiting (r : Reader κ) : Prop := r.endpoint.state ≠ .dead ∧ r.endpoint.state ≠ .closing

def framed (config : ConnectionConfig) (r : Reader κ) : Framed κ :=
  frame config r.endpoint.crypto r.endpoint.hooks r.bytes

theorem step_again {config : ConnectionConfig} {r next : Reader κ} (round : step events config r = .again next) :
    r.Waiting ∧ ∃ part hooks rest, r.framed config = .part part hooks rest ∧ next = r.take events part hooks rest := by
  unfold step at round
  split at round
  · cases round
  next live =>
    refine ⟨not_or.mp live, ?_⟩
    split at round
    next part hooks rest framed => cases round; exact ⟨part, hooks, rest, framed, rfl⟩
    all_goals cases round

theorem step_done {config : ConnectionConfig} {r result : Reader κ} (round : step events config r = .done result) :
    result = r ∧ (¬ r.Waiting ∨ r.framed config = .short ∨ r.framed config = .refused) := by
  unfold step at round
  split at round
  next rests =>
    cases round
    exact ⟨rfl, .inl fun waiting => not_or.mpr waiting rests⟩
  · split at round
    · cases round
    next short => cases round; exact ⟨rfl, .inr (.inl short)⟩
    next refused => cases round; exact ⟨rfl, .inr (.inr refused)⟩

theorem step_drops (config : ConnectionConfig) (r next : Reader κ) (round : step events config r = .again next) :
    next.measure < r.measure := by
  obtain ⟨_, part, hooks, rest, framed, rfl⟩ := step_again events round
  exact frame_rest framed

def run (config : ConnectionConfig) (r : Reader κ) : Reader κ :=
  Loop.run measure (step_drops events config) r

end Reader

/-- Parts put together and kept: nobody is handed what they complete. -/
structure Scan (κ : Type) where
  hooks : κ
  partials : Partials
  bytes : Bytes
  completed : List ReceivedTransaction := []

namespace Scan

def take (part : ReceivedTransaction) (hooks : κ) (rest : Bytes) (s : Scan κ) : Scan κ where
  hooks := hooks
  partials := (s.partials.add part).2
  bytes := rest
  completed := s.completed ++ (s.partials.add part).1.toList

def step (config : ConnectionConfig) (crypto : ConnectionCryptoHooks κ) (s : Scan κ) :
    Loop (Scan κ) (List ReceivedTransaction) :=
  match frame config crypto s.hooks s.bytes with
  | .part part hooks rest => .again (s.take part hooks rest)
  | .short | .refused => .done s.completed

def measure (s : Scan κ) : Nat := s.bytes.length

theorem step_drops (config : ConnectionConfig) (crypto : ConnectionCryptoHooks κ) (s next : Scan κ)
    (round : step config crypto s = .again next) : next.measure < s.measure := by
  unfold step at round
  split at round
  next framed => cases round; exact frame_rest framed
  all_goals cases round

def run (config : ConnectionConfig) (crypto : ConnectionCryptoHooks κ) (s : Scan κ) : List ReceivedTransaction :=
  Loop.run measure (step_drops config crypto) s

end Scan

namespace Connection

variable (events : ConnectionEvents κ)

def reader (c : Connection κ) : Reader κ := ⟨c.endpoint, c.inlet.partials, c.inlet.inbound⟩

/-- Everything the inbound bytes of a connection hold, read part by part. -/
def read (answers : List SendResult) (c : Connection κ) : Reader κ :=
  if c.endpoint.state = .dead ∨ c.endpoint.state = .closing then c.reader
  else match c.inlet.receiveStage with
    | .handshake =>
      if c.inlet.inbound.length < c.inlet.expectedBytes then c.reader
      else (c.handleHandshake events answers).reader.run events c.config
    | .header => c.reader.run events c.config
    | .data =>
      match frameData c.endpoint.crypto c.endpoint.hooks c.inlet.pendingHeader c.inlet.pendingFlag
        c.inlet.inbound with
      | .part part hooks rest => (c.reader.take events part hooks rest).run events c.config
      | .short | .refused => c.reader

def scan (c : Connection κ) : Scan κ :=
  { hooks := c.endpoint.hooks, partials := c.inlet.partials, bytes := c.inlet.inbound }

/-- The other end's handshake in front of the inbound bytes, where it is one to accept, and its size. -/
def greeted (c : Connection κ) : Option Nat :=
  match c.role with
  | .client =>
    match tryDecodeServerHandshakeReply (c.inlet.inbound.take kServerHandshakeReplySize) with
    | .ok reply => if validateServerHandshakeReply reply = .accepted then some kServerHandshakeReplySize else none
    | .error _ => none
  | .server =>
    match tryDecodeClientHandshake (c.inlet.inbound.take kClientHandshakeSize) with
    | .ok handshake => if validateClientHandshake handshake = .accepted then some kClientHandshakeSize else none
    | .error _ => none

/-- The transactions that are whole in the inbound bytes: a matter of these, of what is held of earlier
ones and of the hooks in place, whatever the callbacks or the sends would do. -/
def whole (c : Connection κ) : List ReceivedTransaction :=
  if c.endpoint.state = .dead ∨ c.endpoint.state = .closing then []
  else match c.inlet.receiveStage with
    | .handshake =>
      match c.greeted with
      | some size => { c.scan with bytes := c.inlet.inbound.drop size }.run c.config c.endpoint.crypto
      | none => []
    | .header => c.scan.run c.config c.endpoint.crypto
    | .data =>
      match frameData c.endpoint.crypto c.endpoint.hooks c.inlet.pendingHeader c.inlet.pendingFlag
        c.inlet.inbound with
      | .part part hooks rest => (c.scan.take part hooks rest).run c.config c.endpoint.crypto
      | .short | .refused => []

theorem erase_insert (partials : Partials) (key : PartialKey) (entry : PartialReceive) :
    (partials.insert key entry).erase key = partials.erase key := by
  refine Finmap.ext_lookup fun other => ?_
  by_cases same : other = key
  · rw [same, Finmap.lookup_erase, Finmap.lookup_erase]
  · rw [Finmap.lookup_erase_ne same, Finmap.lookup_erase_ne same, Finmap.lookup_insert_of_ne _ same]

theorem completeTransaction_eq (data : Bytes) (c : Connection κ) :
    let decoded := readData c.endpoint.crypto c.endpoint.hooks data c.inlet.pendingFlag
    let added := c.inlet.partials.add ⟨c.inlet.pendingHeader, decoded.1⟩
    c.completeTransaction events data =
      { c with
        endpoint := c.endpoint.deliver events added.1 decoded.2
        inlet := { c.inlet with partials := added.2 } } := by
  unfold completeTransaction Endpoint.deliver Partials.add
  dsimp only
  split
  · rfl
  · split
    · simp only [setPartials, dispatch, erase_insert]
    · rfl

end Connection

end Slopline.Net
