import Slopline.Library.Ghost
import Slopline.Net.Chunking

/-! Which hooks a part is processed under.

A record beside the connection keeps what went into the hooks for each header and for the data
behind it, and what came out. `set_crypto` may replace the hooks between the two.
-/

set_option autoImplicit false

namespace Slopline.Net

open Protocol Library

variable {κ : Type}

/-- One use of the hooks: what they were, what they were given, and what they made of it. -/
structure Decoding (κ : Type) where
  crypto : ConnectionCryptoHooks κ
  hooks : κ
  raw : Bytes
  flag : UInt8
  bytes : Bytes

namespace Decoding

/-- The flag and the header came out of `decode_header`, or there is none. -/
def OfHeader (decoding : Decoding κ) : Prop :=
  match decoding.crypto.decodeHeader with
  | some decode => (decode.run decoding.hooks decoding.raw).1 = (decoding.flag, decoding.bytes)
  | none => decoding.flag = 0 ∧ decoding.bytes = decoding.raw

/-- The data came out of `decode_data` under the flag, or there is none. -/
def OfData (decoding : Decoding κ) : Prop :=
  match decoding.crypto.decodeData with
  | some decode => (decode.run decoding.hooks decoding.raw decoding.flag).1 = decoding.bytes
  | none => decoding.bytes = decoding.raw

end Decoding

/-- The same hooks for a header and for data, or plaintext both. -/
def SameHooks (header data : ConnectionCryptoHooks κ) : Prop :=
  data = header ∨ header.decodeHeader = none ∧ data.decodeData = none

structure Handling (κ : Type) where
  header : Decoding κ
  data : Decoding κ

namespace Handling

def Same (handling : Handling κ) : Prop := SameHooks handling.header.crypto handling.data.crypto

/-- Each half is what its hooks made of it, the data under the flag of the header. -/
structure Processed (handling : Handling κ) : Prop where
  header : handling.header.OfHeader
  data : handling.data.OfData
  flag : handling.data.flag = handling.header.flag

def part (handling : Handling κ) : ReceivedTransaction :=
  ⟨decodeHeader handling.header.bytes, handling.data.bytes⟩

def raw (handling : Handling κ) : Bytes := handling.header.raw ++ handling.data.raw

end Handling

structure Record (κ : Type) where
  header : Option (Decoding κ) := none
  parts : List (Handling κ) := []

namespace Record

def AllSame (record : Record κ) : Prop := ∀ part ∈ record.parts, part.Same

/-- A further round of the parser, recorded: a header that is accepted, or the data of a part. -/
def mark (c : Connection κ) (record : Record κ) : Record κ :=
  match c.inlet.receiveStage, record.header with
  | .header, _ => { record with
      header := some {
        crypto := c.endpoint.crypto
        hooks := c.endpoint.hooks
        raw := c.inlet.inbound.take kTransactionHeaderSize
        flag := c.takeHeader.inlet.pendingFlag
        bytes := c.takeHeader.inlet.headerBytes } }
  | .data, some header => { record with
      parts := record.parts ++ [{
        header
        data := {
          crypto := c.endpoint.crypto
          hooks := c.endpoint.hooks
          raw := c.takeData.1
          flag := c.inlet.pendingFlag
          bytes := (readData c.endpoint.crypto c.endpoint.hooks c.takeData.1 c.inlet.pendingFlag).1 } }] }
  | _, _ => record

def raw (record : Record κ) : Bytes := record.parts.flatMap Handling.raw

theorem raw_concat (header : Option (Decoding κ)) (parts : List (Handling κ)) (handling : Handling κ) :
    raw ⟨header, parts ++ [handling]⟩ = parts.flatMap Handling.raw ++ handling.raw := by
  rw [raw, List.flatMap_append, List.flatMap_singleton]

/-- The record is what happened: its parts are the bytes that came in behind the handshake, as the hooks
it names decode them, and put together they are the transactions that the application has been handed, no
more and no fewer. -/
structure Faithful (record : Record κ) (c : Connection κ) (heard : Bytes) : Prop where
  stream : record.raw <+: heard.drop c.role.handshakeSize
  processed : ∀ part ∈ record.parts, part.Processed
  dispatched : dispatched c.endpoint.trace = (Partials.addAll ∅ (record.parts.map Handling.part)).1

end Record

structure Watched (κ : Type) where
  connection : Connection κ
  record : Record κ := {}

namespace Watched

variable (events : ConnectionEvents κ)

def recorded (w : Watched κ) : Connection.Op κ → Record κ
  | .serviceReadable received answers =>
    if w.connection.endpoint.state = .dead then w.record
    else match Connection.receiveLoop (received ++ [.error .wouldBlock]) w.connection with
      | (_, false) => w.record
      | (c, true) =>
        (Loop.runWatched Record.mark Connection.parseMeasure (Connection.parseStep_drops events answers) c w.record).2
  | .serviceWritable _ | .call _ => w.record

def step (w : Watched κ) (op : Connection.Op κ) : Watched κ where
  connection := w.connection.step events op
  record := w.recorded events op

def run (ops : List (Connection.Op κ)) (w : Watched κ) : Watched κ := ops.foldl (step events) w

/-- The record is beside the run, not part of it. -/
theorem run_connection (ops : List (Connection.Op κ)) (w : Watched κ) :
    (w.run events ops).connection = Connection.run events ops w.connection := by
  induction ops generalizing w with
  | nil => rfl
  | cons op ops ih => exact ih (w.step events op)

/-- What a death and the rounds of the parser keep of the bytes at hand holds behind a call of `service_readable`. -/
theorem serve_invariant (inv : Connection κ → Record κ → Prop)
    (dies : ∀ c record, inv c record → inv (c.markDead events) record)
    (again : ∀ answers c next record, inv c record → Connection.parseStep events answers c = .again next →
      inv next (record.mark c))
    (leaves : ∀ answers c result record, inv c record → Connection.parseStep events answers c = .done result →
      inv result record)
    (received : List RecvResult) (answers : List SendResult) {w : Watched κ}
    (holds : inv (w.connection.feed (w.connection.hears (.serviceReadable received answers))) w.record) :
    inv (w.step events (.serviceReadable received answers)).connection
      (w.step events (.serviceReadable received answers)).record := by
  simp only [step, recorded, Connection.step, Connection.serviceReadable]
  split
  next dead => simpa only [Connection.hears, dead, true_or, if_true, Connection.feed_nil] using holds
  next alive =>
    rw [← Connection.receiveLoop_hears received answers alive] at holds
    generalize Connection.receiveLoop (received ++ [.error .wouldBlock]) w.connection = loop at holds
    obtain ⟨c, _ | _⟩ := loop
    · exact dies c w.record holds
    · exact Loop.runWatched_invariant Record.mark _ _ inv inv
        (fun c next record holds round => again answers c next record holds round)
        (fun c result record holds round => leaves answers c result record holds round) holds

structure Recorded (c : Connection κ) (record : Record κ) : Prop where
  processed : ∀ part ∈ record.parts, part.Processed
  dispatched : dispatched c.endpoint.trace = (Partials.addAll ∅ (record.parts.map Handling.part)).1
  partials : c.inlet.partials = (Partials.addAll ∅ (record.parts.map Handling.part)).2
  pending : c.inlet.receiveStage = .data → ∃ header, record.header = some header ∧ header.OfHeader ∧
    header.flag = c.inlet.pendingFlag ∧ decodeHeader header.bytes = c.inlet.pendingHeader

theorem ofHeader_read (crypto : ConnectionCryptoHooks κ) (hooks : κ) (raw : Bytes) :
    Decoding.OfHeader ⟨crypto, hooks, raw, (readHeader crypto hooks raw).1.1, (readHeader crypto hooks raw).1.2⟩ := by
  cases hook : crypto.decodeHeader with
  | some decode => simp only [Decoding.OfHeader, readHeader, hook]
  | none => simp only [Decoding.OfHeader, readHeader, hook, and_self]

theorem ofData_read (crypto : ConnectionCryptoHooks κ) (hooks : κ) (raw : Bytes) (flag : UInt8) :
    Decoding.OfData ⟨crypto, hooks, raw, flag, (readData crypto hooks raw flag).1⟩ := by
  cases hook : crypto.decodeData with
  | some decode => simp only [Decoding.OfData, readData, hook]
  | none => simp only [Decoding.OfData, readData, hook]

theorem Recorded.endpoint {c : Connection κ} {record : Record κ} (recorded : Recorded c record) {e : Endpoint κ}
    (later : Endpoint.Later c.endpoint e) : Recorded { c with endpoint := e } record :=
  { recorded with dispatched := later.dispatched.trans recorded.dispatched }

theorem Recorded.again {c next : Connection κ} {record : Record κ} {answers : List SendResult}
    (recorded : Recorded c record) (round : Connection.parseStep events answers c = .again next) :
    Recorded next (record.mark c) := by
  obtain ⟨processed, dispatched, partials, pending⟩ := recorded
  obtain ⟨_, round⟩ := (Connection.parseStep_again_iff events).mp round
  cases round with
  | handshake stage _ same =>
    obtain ⟨_, _, inbound, _, inlet⟩ := Connection.handleHandshake_frame events answers c
    have establishes := Connection.handleHandshake_establishes events answers c
    subst same
    simp only [Record.mark, stage]
    refine ⟨processed, establishes.dispatched.trans dispatched, ?_, fun data => by cases data⟩
    rw [← partials]
    simp only [Connection.expectHeader, inlet]
  | header stage _ _ same =>
    subst same
    simp only [Record.mark, stage]
    exact ⟨processed, dispatched, partials, fun _ => ⟨_, rfl, ofHeader_read _ _ _, rfl, rfl⟩⟩
  | data stage _ same =>
    obtain ⟨header, known, decoded, flag, parsed⟩ := pending stage
    rw [Connection.completeTransaction_eq] at same
    subst same
    simp only [Record.mark, stage, known]
    -- The part that is put to the others is the one that the record shows.
    have added : Handling.part ⟨header, ⟨c.endpoint.crypto, c.endpoint.hooks, c.takeData.1, c.inlet.pendingFlag,
        (readData c.endpoint.crypto c.endpoint.hooks c.takeData.1 c.inlet.pendingFlag).1⟩⟩ =
        ⟨c.inlet.pendingHeader, (readData c.endpoint.crypto c.endpoint.hooks c.takeData.1 c.inlet.pendingFlag).1⟩ := by
      rw [Handling.part, parsed]
    refine ⟨?_, ?_, ?_, fun data => by cases data⟩
    · exact List.forall_mem_append.mpr ⟨processed,
        List.forall_mem_singleton.mpr ⟨decoded, ofData_read _ _ _ _, flag.symm⟩⟩
    · rw [List.map_append, List.map_singleton, added, Partials.addAll_append, ← partials, ← dispatched]
      simp [Partials.addAll, Connection.expectHeader, Connection.deliver_dispatched, Connection.takeData]
    · rw [List.map_append, List.map_singleton, added, Partials.addAll_append, ← partials]
      rfl

theorem Recorded.leaves {c result : Connection κ} {record : Record κ} {answers : List SendResult}
    (recorded : Recorded c record) (round : Connection.parseStep events answers c = .done result) :
    Recorded result record := by
  cases (Connection.parseStep_done_iff events).mp round with
  | ended _ same => rwa [same]
  | short _ _ same => rwa [same]
  | refused _ stage _ _ same =>
    subst same
    have later := (Endpoint.Later.rehook _ c.endpoint).trans (Endpoint.markDead_later events c.takeHeader.endpoint)
    refine ⟨recorded.processed, later.dispatched.trans recorded.dispatched, recorded.partials, ?_⟩
    intro data
    rw [show (c.takeHeader.markDead events).inlet.receiveStage = c.inlet.receiveStage from rfl, stage] at data
    cases data

theorem Recorded.step {w : Watched κ} (recorded : Recorded w.connection w.record) (op : Connection.Op κ) :
    Recorded (w.step events op).connection (w.step events op).record := by
  cases op with
  | serviceReadable received answers =>
    refine serve_invariant events Recorded ?_ (fun _ _ _ _ holds => holds.again events)
      (fun _ _ _ _ holds => holds.leaves events) received answers ?_
    · exact fun c record holds => holds.endpoint (Endpoint.markDead_later events c.endpoint)
    · exact ⟨recorded.processed, recorded.dispatched, recorded.partials, recorded.pending⟩
  | serviceWritable answers =>
    simp only [Watched.step, Watched.recorded, Connection.step, Connection.serviceWritable]
    split
    · exact recorded
    · exact recorded.endpoint (Endpoint.flushSends_later events answers _)
  | call request => exact recorded.endpoint (Endpoint.call_later events _ request)

theorem Recorded.run {w : Watched κ} (recorded : Recorded w.connection w.record) (ops : List (Connection.Op κ)) :
    Recorded (w.run events ops).connection (w.run events ops).record := by
  induction ops generalizing w with
  | nil => exact recorded
  | cons op ops ih => exact ih (recorded.step events op)

/-- Where the bytes that a connection has heard are: in the parts of the record, in the header of the one
that is pending, and in the buffer of a connection that goes on. -/
structure Streamed (heard : Bytes) (c : Connection κ) (record : Record κ) : Prop where
  parts : record.raw <+: heard.drop c.role.handshakeSize
  pendingData : c.inlet.pendingData = []
  handshake : c.Waiting → c.inlet.receiveStage = .handshake →
    record.parts = [] ∧ c.inlet.inbound = heard ∧ c.inlet.expectedBytes = c.role.handshakeSize
  header : c.Waiting → c.inlet.receiveStage = .header →
    ∃ greeting, greeting.length = c.role.handshakeSize ∧ heard = greeting ++ (record.raw ++ c.inlet.inbound)
  data : c.Waiting → c.inlet.receiveStage = .data →
    ∃ greeting header, record.header = some header ∧ greeting.length = c.role.handshakeSize ∧
      heard = greeting ++ (record.raw ++ (header.raw ++ c.inlet.inbound))

theorem prefix_behind {greeting heard done rest : Bytes} {size : Nat} (length : greeting.length = size)
    (split : heard = greeting ++ (done ++ rest)) : done <+: heard.drop size := by
  rw [split, ← length, List.drop_left]
  exact List.prefix_append _ _

theorem Streamed.endpoint {heard : Bytes} {c : Connection κ} {record : Record κ} (streamed : Streamed heard c record)
    {e : Endpoint κ} (later : Endpoint.Later c.endpoint e) : Streamed heard { c with endpoint := e } record := by
  have before (waiting : ({ c with endpoint := e } : Connection κ).Waiting) : c.Waiting := by
    have same := later.alive waiting.1
    exact ⟨same ▸ waiting.1, same ▸ waiting.2⟩
  exact {
    parts := streamed.parts
    pendingData := streamed.pendingData
    handshake := fun waiting => streamed.handshake (before waiting)
    header := fun waiting => streamed.header (before waiting)
    data := fun waiting => streamed.data (before waiting) }

theorem Streamed.feed {heard : Bytes} {c : Connection κ} {record : Record κ} (streamed : Streamed heard c record)
    (bytes : Bytes) : Streamed (heard ++ bytes) (c.feed bytes) record where
  parts := streamed.parts.trans (by rw [List.drop_append]; exact List.prefix_append _ _)
  pendingData := streamed.pendingData
  handshake waiting stage := by
    obtain ⟨none, inbound, expected⟩ := streamed.handshake waiting stage
    exact ⟨none, congrArg (· ++ bytes) inbound, expected⟩
  header waiting stage := by
    obtain ⟨greeting, length, split⟩ := streamed.header waiting stage
    exact ⟨greeting, length, by rw [split, Connection.feed]; simp only [List.append_assoc]⟩
  data waiting stage := by
    obtain ⟨greeting, header, known, length, split⟩ := streamed.data waiting stage
    exact ⟨greeting, header, known, length, by rw [split, Connection.feed]; simp only [List.append_assoc]⟩

theorem Streamed.again {heard : Bytes} {c next : Connection κ} {record : Record κ} {answers : List SendResult}
    (streamed : Streamed heard c record) (round : Connection.parseStep events answers c = .again next) :
    Streamed heard next (record.mark c) := by
  obtain ⟨waiting, round⟩ := (Connection.parseStep_again_iff events).mp round
  cases round with
  | handshake stage enough same =>
    obtain ⟨none, inbound, expected⟩ := streamed.handshake waiting stage
    obtain ⟨role, _, left, _, inlet⟩ := Connection.handleHandshake_frame events answers c
    have nothing : record.raw = [] := by rw [Record.raw, none, List.flatMap_nil]
    subst same
    simp only [Record.mark, stage]
    exact {
      parts := by
        rw [nothing]
        exact List.nil_prefix
      pendingData := by simp only [Connection.expectHeader, inlet, streamed.pendingData]
      handshake := fun _ stage => by cases stage
      header := fun waiting _ => by
        -- What was cut off is the handshake that the connection goes on from.
        have drops := Connection.handleHandshake_drops events answers (c := c) waiting
        refine ⟨heard.take c.role.handshakeSize, ?_, ?_⟩
        · rw [← inbound, ← expected, List.length_take, Nat.min_eq_left (Nat.le_of_not_lt enough), expected]
          exact congrArg Role.handshakeSize role.symm
        · simp only [Connection.expectHeader, drops, nothing, List.nil_append, inbound, List.take_append_drop]
      data := fun _ stage => by cases stage }
  | header stage enough _ same =>
    obtain ⟨greeting, length, split⟩ := streamed.header waiting stage
    subst same
    simp only [Record.mark, stage]
    exact {
      parts := streamed.parts
      pendingData := rfl
      handshake := fun _ stage => by cases stage
      header := fun _ stage => by cases stage
      data := fun _ _ => by
        refine ⟨greeting, _, rfl, length, ?_⟩
        simp only [Connection.expectData, Connection.takeHeader, List.take_append_drop]
        exact split }
  | data stage enough same =>
    obtain ⟨greeting, header, known, length, split⟩ := streamed.data waiting stage
    rw [Connection.completeTransaction_eq] at same
    subst same
    simp only [Record.mark, stage, known]
    have whole : heard = greeting ++ ((record.raw ++ (header.raw ++ c.takeData.1)) ++ c.takeData.2.inlet.inbound) := by
      simp only [Connection.takeData, streamed.pendingData, List.nil_append, List.append_assoc, List.take_append_drop]
      exact split
    exact {
      parts := by
        rw [Record.raw_concat]
        exact prefix_behind length whole
      pendingData := rfl
      handshake := fun _ stage => by cases stage
      header := fun _ _ => ⟨greeting, length, by rw [Record.raw_concat]; exact whole⟩
      data := fun _ stage => by cases stage }

theorem Streamed.leaves {heard : Bytes} {c result : Connection κ} {record : Record κ} {answers : List SendResult}
    (streamed : Streamed heard c record) (round : Connection.parseStep events answers c = .done result) :
    Streamed heard result record := by
  cases (Connection.parseStep_done_iff events).mp round with
  | ended _ same => rwa [same]
  | short _ _ same => rwa [same]
  | refused _ _ _ _ same =>
    subst same
    have gone (waiting : (c.takeHeader.markDead events).Waiting) : False :=
      waiting.1 (Endpoint.markDead_dead events _)
    exact ⟨streamed.parts, streamed.pendingData, fun waiting => (gone waiting).elim,
      fun waiting => (gone waiting).elim, fun waiting => (gone waiting).elim⟩

theorem Streamed.step {heard : Bytes} {w : Watched κ} (streamed : Streamed heard w.connection w.record)
    (op : Connection.Op κ) :
    Streamed (heard ++ w.connection.hears op) (w.step events op).connection (w.step events op).record := by
  cases op with
  | serviceReadable received answers =>
    refine serve_invariant events (Streamed _) ?_ (fun _ _ _ _ holds => holds.again events)
      (fun _ _ _ _ holds => holds.leaves events) received answers (streamed.feed _)
    exact fun c record holds => holds.endpoint (Endpoint.markDead_later events c.endpoint)
  | serviceWritable answers =>
    simp only [Watched.step, Watched.recorded, Connection.step, Connection.serviceWritable, Connection.hears,
      List.append_nil]
    split
    · exact streamed
    · exact streamed.endpoint (Endpoint.flushSends_later events answers _)
  | call request =>
    simp only [Connection.hears, List.append_nil]
    exact streamed.endpoint (Endpoint.call_later events _ request)

theorem Streamed.run {heard : Bytes} {w : Watched κ} (streamed : Streamed heard w.connection w.record)
    (ops : List (Connection.Op κ)) :
    Streamed (heard ++ Connection.heard events ops w.connection) (w.run events ops).connection
      (w.run events ops).record := by
  induction ops generalizing w heard with
  | nil => rwa [Connection.heard, List.append_nil]
  | cons op ops ih =>
    rw [Connection.heard, ← List.append_assoc]
    exact ih (streamed.step events op)

def Pending (c : Connection κ) : Prop := c.Waiting ∧ c.inlet.receiveStage = .data

/-- `set_crypto` is not called from outside the callbacks while a part is pending, unless with hooks
that process its data as its header was. -/
def Careful (w : Watched κ) : Connection.Op κ → Prop
  | .call (.setCrypto crypto) =>
    Pending w.connection → ∀ header, w.record.header = some header → SameHooks header.crypto crypto
  | _ => True

def AllCareful (w : Watched κ) : List (Connection.Op κ) → Prop
  | [] => True
  | op :: ops => w.Careful op ∧ AllCareful (w.step events op) ops

/-- Every part so far was processed under the same hooks, and so will the pending one be. -/
structure Atomic (c : Connection κ) (record : Record κ) : Prop where
  parts : record.AllSame
  pending : Pending c → ∀ header, record.header = some header → SameHooks header.crypto c.endpoint.crypto

end Watched

/-! What leaves the hooks alone. -/

def Endpoint.Keeps (e e' : Endpoint κ) : Prop :=
  e'.state = .dead ∨ e'.state = e.state ∧ e'.crypto = e.crypto

namespace Endpoint

theorem Keeps.trans {e e' e'' : Endpoint κ} (first : Keeps e e') (second : Keeps e' e'') : Keeps e e'' := by
  rcases second with dead | ⟨state, crypto⟩
  · exact .inl dead
  · rcases first with dead | ⟨state', crypto'⟩
    · exact .inl (state.trans dead)
    · exact .inr ⟨state.trans state', crypto.trans crypto'⟩

theorem queueBytes_keeps (bytes : Bytes) (e : Endpoint κ) : Keeps e (e.queueBytes bytes) := by
  unfold queueBytes
  split
  · exact .inr ⟨rfl, rfl⟩
  · exact .inr ⟨rfl, rfl⟩

section
variable {die : Endpoint κ → Endpoint κ} (dies : ∀ e, (die e).state = .dead)
include dies

theorem flushLoop_keeps (answers : List SendResult) (e : Endpoint κ) : Keeps e (flushLoop die answers e) := by
  apply flushLoop_relates Keeps
  · intro e
    exact .inr ⟨rfl, rfl⟩
  · exact .trans
  · intro e pending rest _ _ count
    exact .inr ⟨rfl, rfl⟩
  · intro e
    exact .inl (dies e)

theorem queueTransactionWith_keeps (outgoing : Outgoing) (answers : List SendResult) (e : Endpoint κ) :
    Keeps e (queueTransactionWith die outgoing answers e) := by
  unfold queueTransactionWith
  generalize encodeOutgoing e.crypto e.hooks (outgoingHeader outgoing) outgoing.data = encoded
  have noted : Keeps e ({ e with hooks := encoded.2 }.note (.queued outgoing encoded.1)) := .inr ⟨rfl, rfl⟩
  exact (noted.trans (queueBytes_keeps _ _)).trans (flushLoop_keeps dies _ _)

theorem callWith_keeps (e : Endpoint κ) {request : Call κ} (other : ∀ crypto, request ≠ .setCrypto crypto) :
    Keeps e (callWith die e request) := by
  cases request with
  | queueTransaction outgoing answers => exact queueTransactionWith_keeps dies outgoing answers e
  | queueKeepalive answers =>
    simp only [callWith, queueKeepaliveWith]
    split
    · exact queueTransactionWith_keeps dies _ answers e
    · exact .inr ⟨rfl, rfl⟩
  | setCrypto crypto => exact absurd rfl (other crypto)
  | close => exact .inr ⟨rfl, rfl⟩

end

end Endpoint

namespace Watched

variable (events : ConnectionEvents κ)

theorem Atomic.keeps {c : Connection κ} {record : Record κ} (atomic : Atomic c record) {e : Endpoint κ}
    (keeps : Endpoint.Keeps c.endpoint e) : Atomic { c with endpoint := e } record := by
  refine ⟨atomic.parts, fun pending header known => ?_⟩
  obtain ⟨waiting, stage⟩ := pending
  rcases keeps with dead | ⟨state, crypto⟩
  · exact absurd dead waiting.1
  · have same := atomic.pending ⟨by rwa [Connection.Waiting, ← state], stage⟩ header known
    rwa [← crypto] at same

/-- A round of the parser: the data of a part is processed under the hooks at hand. -/
theorem Atomic.again {c next : Connection κ} {record : Record κ} {answers : List SendResult}
    (atomic : Atomic c record) (round : Connection.parseStep events answers c = .again next) :
    Atomic next (record.mark c) := by
  obtain ⟨waiting, round⟩ := (Connection.parseStep_again_iff events).mp round
  cases round with
  | handshake stage _ same =>
    subst same
    simp only [Record.mark, stage]
    exact ⟨atomic.parts, fun pending => by cases pending.2⟩
  | header stage _ _ same =>
    subst same
    simp only [Record.mark, stage]
    refine ⟨atomic.parts, fun _ header known => ?_⟩
    cases known
    exact .inl rfl
  | data stage _ same =>
    subst same
    cases known : record.header with
    | none =>
      simp only [Record.mark, stage, known]
      exact ⟨atomic.parts, fun pending => by cases pending.2⟩
    | some header =>
      simp only [Record.mark, stage, known]
      refine ⟨?_, fun pending => by cases pending.2⟩
      exact List.forall_mem_append.mpr ⟨atomic.parts,
        List.forall_mem_singleton.mpr (atomic.pending ⟨waiting, stage⟩ header known)⟩

theorem Atomic.leaves {c result : Connection κ} {record : Record κ} {answers : List SendResult}
    (atomic : Atomic c record) (round : Connection.parseStep events answers c = .done result) :
    Atomic result record := by
  cases (Connection.parseStep_done_iff events).mp round with
  | ended _ same => rwa [same]
  | short _ _ same => rwa [same]
  | refused _ _ _ _ same =>
    subst same
    exact ⟨atomic.parts, fun pending => absurd (Endpoint.markDead_dead events _) pending.1.1⟩

theorem Atomic.step {w : Watched κ} (atomic : Atomic w.connection w.record) {op : Connection.Op κ}
    (careful : w.Careful op) : Atomic (w.step events op).connection (w.step events op).record := by
  cases op with
  | serviceReadable received answers =>
    refine serve_invariant events Atomic ?_ (fun _ _ _ _ holds => holds.again events)
      (fun _ _ _ _ holds => holds.leaves events) received answers ⟨atomic.parts, atomic.pending⟩
    exact fun c record holds => holds.keeps (.inl (Endpoint.markDead_dead events c.endpoint))
  | serviceWritable answers =>
    simp only [Watched.step, recorded, Connection.step, Connection.serviceWritable]
    split
    · exact atomic
    · exact atomic.keeps (Endpoint.flushLoop_keeps (Endpoint.markDead_dead events) _ _)
  | call request =>
    by_cases switch : ∃ crypto, request = .setCrypto crypto
    · obtain ⟨crypto, rfl⟩ := switch
      exact ⟨atomic.parts, careful⟩
    · have keeps := Endpoint.callWith_keeps (Endpoint.markDead_dead events) w.connection.endpoint
        fun crypto same => switch ⟨crypto, same⟩
      exact atomic.keeps keeps

theorem Atomic.run {w : Watched κ} (atomic : Atomic w.connection w.record) {ops : List (Connection.Op κ)}
    (careful : w.AllCareful events ops) : Atomic (w.run events ops).connection (w.run events ops).record := by
  induction ops generalizing w with
  | nil => exact atomic
  | cons op ops ih => exact ih (atomic.step events careful.1) careful.2

def started (role : Role) (config : ConnectionConfig) (hooks : κ) (arguments : Connection.Start) : Watched κ where
  connection := Connection.start events arguments (Connection.fresh role config hooks)

theorem started_atomic (role : Role) (config : ConnectionConfig) (hooks : κ) (arguments : Connection.Start) :
    Atomic (started events role config hooks arguments).connection {} :=
  ⟨by simp [Record.AllSame], fun _ _ known => by cases known⟩

theorem started_recorded (role : Role) (config : ConnectionConfig) (hooks : κ) (arguments : Connection.Start) :
    Recorded (started events role config hooks arguments).connection {} := by
  obtain ⟨_, _, inlet, delivered⟩ := Connection.started_nil events role config hooks arguments
  refine ⟨by simp, delivered, ?_, fun stage => ?_⟩
  · rw [started, inlet]
    cases role <;> rfl
  · rw [started, inlet, Connection.fresh_stage] at stage
    cases stage

theorem started_streamed (role : Role) (config : ConnectionConfig) (hooks : κ) (arguments : Connection.Start) :
    Streamed [] (started events role config hooks arguments).connection {} := by
  obtain ⟨same, _, inlet, _⟩ := Connection.started_nil events role config hooks arguments
  have fresh : (started events role config hooks arguments).connection.inlet =
      { expectedBytes := role.handshakeSize } := inlet.trans (by cases role <;> rfl)
  have expected : (started events role config hooks arguments).connection.inlet.expectedBytes =
      (started events role config hooks arguments).connection.role.handshakeSize := by
    rw [fresh]
    exact (congrArg Role.handshakeSize same).symm
  refine ⟨List.nil_prefix, by rw [fresh], fun _ _ => ⟨rfl, by rw [fresh], expected⟩, fun _ stage => ?_,
    fun _ stage => ?_⟩
  all_goals
    rw [fresh] at stage
    cases stage

/-- Where `set_crypto` is not called from outside the callbacks behind the header of a part, every
part has its header and its data processed under the same hooks. -/
theorem crypto_atomic (role : Role) (config : ConnectionConfig) (hooks : κ) (arguments : Connection.Start)
    (ops : List (Connection.Op κ)) (careful : (started events role config hooks arguments).AllCareful events ops) :
    let w := (started events role config hooks arguments).run events ops
    w.connection = Connection.started events role config hooks arguments ops ∧
      w.record.Faithful w.connection
        (Connection.heard events ops (Connection.started events role config hooks arguments [])) ∧
      w.record.AllSame := by
  have recorded := (started_recorded events role config hooks arguments).run events ops
  exact ⟨run_connection events ops _,
    { stream := ((started_streamed events role config hooks arguments).run events ops).parts
      processed := recorded.processed
      dispatched := recorded.dispatched },
    ((started_atomic events role config hooks arguments).run events careful).parts⟩

/-! One part around a switch of the hooks. -/

def flipHooks : ConnectionCryptoHooks Unit where
  decodeHeader := some { run := fun _ header => ((0, header), ()), length_header := fun _ _ => rfl }
  decodeData := some {
    run := fun _ data _ => (data.map (· ^^^ 0xFF), ())
    length_data := fun _ _ _ => List.length_map _ }

def switchPart : ReceivedTransaction := ⟨{ id := 7, totalSize := 2, dataSize := 2 }, [1, 2]⟩

def switchHeader : Connection.Op Unit :=
  .serviceReadable [.read { bytes := switchPart.wire.take 20, nonempty := by decide, fits := by decide }] []

def switchData : Connection.Op Unit :=
  .serviceReadable [.read { bytes := switchPart.wire.drop 20, nonempty := by decide, fits := by decide }] []

def switchBetween : List (Connection.Op Unit) :=
  [.serviceReadable [.read Connection.clientHello] [], .call (.setCrypto flipHooks), switchHeader, switchData]

theorem crypto_atomic_between :
    let w := (started .silent .server {} () {}).run .silent switchBetween
    w.connection = Connection.started .silent .server {} () {} switchBetween ∧
      w.record.Faithful w.connection
        (Connection.heard .silent switchBetween (Connection.started .silent .server {} () {} [])) ∧
      w.record.AllSame :=
  crypto_atomic .silent .server {} () {} switchBetween
    ⟨trivial, fun pending => absurd pending.2 (by decide +kernel), trivial, trivial, trivial⟩

/-- Hooks set between a header and its data: the header was plaintext, the data is decoded. -/
theorem crypto_switched :
    let w := (started .silent .server {} () {}).run .silent
      [.serviceReadable [.read Connection.clientHello] [], switchHeader, .call (.setCrypto flipHooks), switchData]
    dispatched w.connection.endpoint.trace = [{ switchPart with data := [0xFE, 0xFD] }] ∧
      ¬ w.record.AllSame := by
  intro w
  have decodes : w.record.parts.map (fun part =>
      (part.header.crypto.decodeData.isSome, part.data.crypto.decodeData.isSome)) = [(false, true)] := by
    decide +kernel
  refine ⟨by decide +kernel, fun same => ?_⟩
  obtain ⟨part, member, decoded⟩ := List.mem_map.mp (decodes ▸ List.mem_singleton_self (false, true))
  rw [Prod.mk.injEq] at decoded
  rcases same part member with alike | ⟨_, plain⟩
  · rw [alike, decoded.1] at decoded
    cases decoded.2
  · rw [plain] at decoded
    cases decoded.2

end Watched

end Slopline.Net
