import Slopline.Net.Chunking
import Slopline.Net.Schedule

/-! Interleaved multi-part transactions through the parser.

What the peer put on the wire is described by what the hooks make of it. The callbacks
may act on the connection, as long as they leave it established and its hooks alone.
-/

set_option autoImplicit false

namespace Slopline.Net

open Protocol Library

variable {κ : Type}

/-- Callbacks that neither end the connection nor touch its encryption. -/
structure Undisturbing (events : ConnectionEvents κ) : Prop where
  dispatch : ∀ (transaction : ReceivedTransaction) (e : Endpoint κ), e.state = .established →
    e.socket.isOpen = true →
    (e.dispatch events transaction).state = .established ∧ (e.dispatch events transaction).socket.isOpen = true ∧
      (e.dispatch events transaction).crypto = e.crypto ∧ (e.dispatch events transaction).hooks = e.hooks

theorem undisturbing_silent : Undisturbing (κ := κ) .silent :=
  ⟨fun _ _ established shown => ⟨established, shown, rfl, rfl⟩⟩

theorem Undisturbing.deliver {events : ConnectionEvents κ} (undisturbing : Undisturbing events)
    (completed : Option ReceivedTransaction) (hooks : κ)
    {e : Endpoint κ} (established : e.state = .established) (shown : e.socket.isOpen = true) :
    (e.deliver events completed hooks).state = .established ∧
      (e.deliver events completed hooks).socket.isOpen = true ∧
      (e.deliver events completed hooks).crypto = e.crypto ∧ (e.deliver events completed hooks).hooks = hooks := by
  cases completed with
  | none => exact ⟨established, shown, rfl, rfl⟩
  | some transaction => exact undisturbing.dispatch transaction { e with hooks } established shown

/-- Bytes which the hooks decode to the given parts, header by header and data by data. -/
inductive Wire (crypto : ConnectionCryptoHooks κ) : κ → List ReceivedTransaction → Bytes → κ → Prop where
  | nil (hooks : κ) : Wire crypto hooks [] [] hooks
  | part {hooks middle next final : κ} {part : ReceivedTransaction} {parts : List ReceivedTransaction}
      {rawHeader rawData rest : Bytes} {flag : UInt8} :
      readHeader crypto hooks rawHeader = ((flag, encodeHeader part.header), middle) →
      readData crypto middle rawData flag = (part.data, next) → Wire crypto next parts rest final →
      Wire crypto hooks (part :: parts) (rawHeader ++ rawData ++ rest) final

theorem wire_plain (hooks : κ) (parts : List ReceivedTransaction) :
    Wire {} hooks parts (parts.flatMap ReceivedTransaction.wire) hooks := by
  induction parts with
  | nil => exact .nil hooks
  | cons part parts ih =>
    have header : readHeader ({} : ConnectionCryptoHooks κ) hooks (encodeHeader part.header) =
        ((0, encodeHeader part.header), hooks) := rfl
    exact .part header rfl ih

theorem length_readHeader (crypto : ConnectionCryptoHooks κ) (hooks : κ) (raw : Bytes) :
    (readHeader crypto hooks raw).1.2.length = raw.length := by
  unfold readHeader
  split
  · exact DecodeHeaderHook.length_header _ _ _
  · rfl

structure Acceptable (config : ConnectionConfig) (part : ReceivedTransaction) : Prop where
  size : part.header.dataSize.toNat = part.data.length
  accepted : ¬ config.Refuses part.header

theorem frame_wire {config : ConnectionConfig} {crypto : ConnectionCryptoHooks κ} {hooks middle next : κ}
    {part : ReceivedTransaction} {rawHeader rawData : Bytes} {flag : UInt8} (acceptable : Acceptable config part)
    (header : readHeader crypto hooks rawHeader = ((flag, encodeHeader part.header), middle))
    (data : readData crypto middle rawData flag = (part.data, next)) (rest : Bytes) :
    frame config crypto hooks (rawHeader ++ rawData ++ rest) = .part part next rest := by
  -- Decoding keeps sizes, so that the raw bytes are cut where the plain ones are.
  have headerSize : rawHeader.length = kTransactionHeaderSize := by
    have same := length_readHeader crypto hooks rawHeader
    rw [header] at same
    simpa using same.symm
  have dataSize : rawData.length = part.header.dataSize.toNat := by
    have same := length_readData crypto middle rawData flag
    rw [data] at same
    rw [acceptable.size, same]
  have takesHeader : (rawHeader ++ rawData ++ rest).take kTransactionHeaderSize = rawHeader := by
    rw [List.append_assoc, ← headerSize, List.take_left]
  have dropsHeader : (rawHeader ++ rawData ++ rest).drop kTransactionHeaderSize = rawData ++ rest := by
    rw [List.append_assoc, ← headerSize, List.drop_left]
  have enough : ¬ (rawHeader ++ rawData ++ rest).length < kTransactionHeaderSize := by
    simp only [List.length_append]
    omega
  have enoughData : ¬ (rawData ++ rest).length < part.header.dataSize.toNat := by
    simp only [List.length_append]
    omega
  simp only [frame, if_neg enough, takesHeader, dropsHeader, header, decodeHeader_encodeHeader,
    if_neg acceptable.accepted, frameData, if_neg enoughData]
  rw [← dataSize, List.take_left, List.drop_left, data]

namespace Connection

variable {events : ConnectionEvents κ}

structure BetweenParts (c : Connection κ) : Prop where
  header : c.AtHeader
  established : c.endpoint.state = .established
  shown : c.endpoint.socket.isOpen = true

theorem BetweenParts.waiting {c : Connection κ} (between : c.BetweenParts) : c.Waiting := by
  simp [Waiting, between.established]

/-- The parser takes the parts on the wire one by one and adds each to the partials. -/
theorem parse_wire (undisturbing : Undisturbing events) (answers : List SendResult) {crypto : ConnectionCryptoHooks κ}
    {hooks final : κ} {parts : List ReceivedTransaction} {bytes : Bytes} (wire : Wire crypto hooks parts bytes final)
    {config : ConnectionConfig} (acceptable : ∀ part ∈ parts, Acceptable config part) (fragment : Bytes)
    {c : Connection κ} (between : c.BetweenParts) (sameConfig : c.config = config)
    (sameCrypto : c.endpoint.crypto = crypto) (sameHooks : c.endpoint.hooks = hooks)
    (inbound : c.inlet.inbound = bytes ++ fragment) :
    ∃ c', Loop.Reaches (parseStep events answers) c c' ∧ c'.BetweenParts ∧
      c'.framed = frame config crypto final fragment ∧
      dispatched c'.endpoint.trace = dispatched c.endpoint.trace ++ (c.inlet.partials.addAll parts).1 ∧
      c'.inlet.partials = (c.inlet.partials.addAll parts).2 := by
  induction wire generalizing c with
  | nil hooks =>
    refine ⟨c, .refl c, between, ?_, by simp [Partials.addAll], rfl⟩
    rw [framed, sameConfig, sameCrypto, sameHooks, inbound, List.nil_append]
  | @part hooks middle next final part parts rawHeader rawData rest flag header data _ ih =>
    have framed : c.framed = .part part next (rest ++ fragment) := by
      rw [Connection.framed, sameConfig, sameCrypto, sameHooks, inbound, List.append_assoc]
      exact frame_wire (acceptable part List.mem_cons_self) header data _
    obtain ⟨after, reaches, taken, atHeader, keptConfig⟩ :=
      parse_part events answers between.waiting between.header.1 framed
    have endpoint : after.endpoint = c.endpoint.deliver events (c.inlet.partials.add part).1 next :=
      congrArg Reader.endpoint taken
    have partials : after.inlet.partials = (c.inlet.partials.add part).2 := congrArg Reader.partials taken
    -- The callbacks leave the connection open and its hooks alone.
    obtain ⟨established, shown, keptCrypto, keptHooks⟩ := undisturbing.deliver
      (c.inlet.partials.add part).1 next between.established between.shown
    obtain ⟨last, further, between', framed', delivered, held⟩ :=
      ih (fun part member => acceptable part (List.mem_cons_of_mem _ member)) (c := after)
        ⟨atHeader, by rw [endpoint, established], by rw [endpoint, shown]⟩ (keptConfig.trans sameConfig)
        (by rw [endpoint, keptCrypto, sameCrypto]) (by rw [endpoint, keptHooks]) (congrArg Reader.bytes taken)
    refine ⟨last, reaches.trans further, between', framed', ?_, ?_⟩
    · rw [delivered, endpoint, deliver_dispatched, partials, Partials.addAll, List.append_assoc]
    · rw [held, partials, Partials.addAll]

/-- Between deliveries: past the handshake, and alive only with an open socket. -/
structure Flowing (c : Connection κ) : Prop where
  stage : c.inlet.receiveStage ≠ .handshake
  alive : c.endpoint.state ≠ .dead → c.endpoint.state = .established ∧ c.endpoint.socket.isOpen = true

theorem flowing_move (undisturbing : Undisturbing events) {c next : Connection κ} (flowing : c.Flowing)
    (waiting : c.Waiting) (move : ParseMove events c next) : next.Flowing := by
  obtain ⟨established, shown⟩ := flowing.alive waiting.1
  refine ⟨move.leaves events, ?_⟩
  cases move with
  | handshake stage _ _ _ _ => exact absurd stage flowing.stage
  | header hooks _ _ same _ _ _ _ => rw [same]; exact fun _ => ⟨established, shown⟩
  | refused hooks _ _ same _ _ => rw [same]; exact fun alive => absurd (Endpoint.markDead_dead _ _) alive
  | part part hooks _ _ _ _ delivered _ _ =>
    rw [delivered]
    obtain ⟨established', shown', _⟩ := undisturbing.deliver (c.inlet.partials.add part).1 hooks established shown
    exact fun _ => ⟨established', shown'⟩

theorem parseInbound_flowing (undisturbing : Undisturbing events) (answers : List SendResult) {c : Connection κ}
    (flowing : c.Flowing) : (parseInbound events answers c).Flowing :=
  parseInbound_invariant events Flowing (fun _ _ flowing waiting _ move => flowing_move undisturbing flowing waiting move)
    answers flowing

theorem parseInbound_past (answers : List SendResult) {c : Connection κ} (stage : c.inlet.receiveStage ≠ .handshake) :
    parseInbound events answers c = parseInbound events [] c := by
  have same {c : Connection κ} (stage : c.inlet.receiveStage ≠ .handshake) :
      parseStep events answers c = parseStep events [] c := by
    unfold parseStep
    split
    · rfl
    · split
      next handshake => exact absurd handshake stage
      all_goals rfl
  refine Loop.run_induction parseMeasure (parseStep_drops events [])
    (motive := fun c result => c.inlet.receiveStage ≠ .handshake → parseInbound events answers c = result)
    ?_ ?_ c stage
  · exact fun c result round stage => Loop.run_done parseMeasure _ ((same stage).trans round)
  · intro c next result round ih stage
    rw [← ih ((parseStep_again events round).2.2.leaves events)]
    exact Loop.run_again parseMeasure _ ((same stage).trans round)

theorem acceptable_of_wellFormed {ι : Type} [DecidableEq ι] {config : ConnectionConfig} {schedule : Schedule ι}
    (wellFormed : schedule.WellFormed config) {entry : ι × ReceivedTransaction} (member : entry ∈ schedule) :
    Acceptable config entry.2 := by
  obtain ⟨filled, size⟩ := wellFormed.part entry member
  have nonempty := List.length_pos_iff.mpr filled
  obtain ⟨before, after, rfl⟩ := List.append_of_mem member
  obtain ⟨i, part⟩ := entry
  dsimp only at size nonempty ⊢
  have total : part.header.dataSize.toNat ≤ part.header.totalSize.toNat ∧
      part.header.totalSize ≤ config.maxReceiveSize := by
    rcases wellFormed.transaction (i, part) (by simp) with ⟨only, alone, whole, fits⟩ | ⟨_, _, _, same, sum, fits⟩
    · have here : part ∈ Schedule.partsOf (before ++ (i, part) :: after) i := by simp
      rw [alone, List.mem_singleton] at here
      rw [here, whole]
      exact ⟨Nat.le_refl _, whole ▸ fits⟩
    · obtain ⟨_, rfl⟩ := same part (by simp)
      refine ⟨?_, fits⟩
      rw [← sum, size]
      simp only [Schedule.partsOf_append, Schedule.partsOf_cons_self, dataOf, List.flatMap_append,
        List.flatMap_cons, List.length_append]
      omega
  refine ⟨size, ?_⟩
  obtain ⟨fits, limit⟩ := total
  simp only [ConnectionConfig.Refuses, not_or, UInt32.not_lt, ← UInt32.toNat_inj, UInt32.le_iff_toNat_le,
    UInt32.toNat_zero] at limit ⊢
  omega

/-- However parts and a fragment behind them are delivered, the parser has taken the parts one by
one and has gone on with the fragment, up to bytes that a dead connection no longer takes in. -/
theorem run_wire (undisturbing : Undisturbing events) {c : Connection κ}
    (established : c.endpoint.state = .established) (shown : c.endpoint.socket.isOpen = true) (header : c.AtHeader)
    (inbound : c.inlet.inbound = []) {parts : List ReceivedTransaction} {bytes : Bytes} {hooks : κ}
    (wire : Wire c.endpoint.crypto c.endpoint.hooks parts bytes hooks)
    (acceptable : ∀ part ∈ parts, Acceptable c.config part) (fragment : Bytes) (deliveries : List Delivery)
    (received : deliveries.flatMap Delivery.bytes = bytes ++ fragment) :
    ∃ last tail, last.BetweenParts ∧ last.framed = frame c.config c.endpoint.crypto hooks fragment ∧
      dispatched last.endpoint.trace = dispatched c.endpoint.trace ++ (c.inlet.partials.addAll parts).1 ∧
      last.inlet.partials = (c.inlet.partials.addAll parts).2 ∧
      parseInbound events [] last = (run events (deliveries.map Delivery.op) c).feed tail ∧
      ((run events (deliveries.map Delivery.op) c).IsDead ∨ tail = []) := by
  have between : (c.feed (bytes ++ fragment)).BetweenParts := ⟨header, established, shown⟩
  obtain ⟨last, reaches, between', framed, delivered, held⟩ := parse_wire undisturbing [] wire acceptable fragment
    between rfl rfl rfl (by simp [feed, inbound])
  -- In one piece the parser passes the state that has taken all parts.
  have whole : parseInbound events [] (c.feed (bytes ++ fragment)) = parseInbound events [] last :=
    Loop.run_reaches parseMeasure (parseStep_drops events []) reaches
  have flowing : c.Flowing := ⟨by rw [header.1]; simp, fun _ => ⟨established, shown⟩⟩
  have delivers := (run_deliveries events Flowing [] deliveries
    (fun _ flowing alive => (flowing.alive alive).2)
    (fun _ _ flowing => ⟨flowing.stage, flowing.alive⟩) (fun _ flowing => parseInbound_flowing undisturbing [] flowing)
    (fun delivery _ _ flowing => parseInbound_past delivery.answers flowing.stage) flowing).1
  have rests : parseStep events [] c = .done c := by
    rw [parseStep_header events [] ⟨by simp [established], by simp [established]⟩ header.1]
    simp [inbound, kTransactionHeaderSize]
  -- However it was cut, the stream is parsed to the same end.
  obtain ⟨tail, once, ended⟩ := (parse_incremental events []).deliveries parseMeasure (parseStep_drops events [])
    (deliveries.map Delivery.bytes) (.of_stage flowing.stage) rests
  rw [show Loop.run parseMeasure (parseStep_drops events []) = parseInbound events [] from rfl, ← delivers] at once ended
  rw [← List.flatMap_def, received, whole] at once
  exact ⟨last, tail, between', framed, delivered, held, once, ended⟩

/-- Every transaction of an interleaving is handed over once, when its last part has come,
with the data of its parts in order and the last part's header; nothing else is handed
over, and at the end nothing is held. -/
theorem reassembly (undisturbing : Undisturbing events) {c : Connection κ}
    (established : c.endpoint.state = .established) (shown : c.endpoint.socket.isOpen = true) (header : c.AtHeader)
    (inbound : c.inlet.inbound = []) (noPartials : c.inlet.partials = ∅) {ι : Type} [DecidableEq ι]
    (now later : Schedule ι) (wellFormed : Schedule.WellFormed c.config (now ++ later)) {bytes : Bytes} {hooks : κ}
    (wire : Wire c.endpoint.crypto c.endpoint.hooks (now.map Prod.snd) bytes hooks) (fragment : Bytes)
    (short : frame c.config c.endpoint.crypto hooks fragment = .short) (deliveries : List Delivery)
    (received : deliveries.flatMap Delivery.bytes = bytes ++ fragment) :
    let c' := run events (deliveries.map Delivery.op) c
    dispatched c'.endpoint.trace = dispatched c.endpoint.trace ++ Schedule.dispatches [] now later ∧
      (later = [] → c'.inlet.partials = ∅) := by
  intro c'
  have acceptable : ∀ part ∈ now.map Prod.snd, Acceptable c.config part := by
    intro part member
    obtain ⟨entry, found, rfl⟩ := List.mem_map.mp member
    exact acceptable_of_wellFormed wellFormed (List.mem_append_left _ found)
  obtain ⟨last, tail, between, framed, delivered, held, once, ended⟩ := run_wire undisturbing established shown
    header inbound wire acceptable fragment deliveries received
  obtain ⟨completes, tracks⟩ := Schedule.addAll_dispatches [] now later (by simpa using wellFormed)
    (Schedule.tracks_nil _)
  obtain ⟨_, endpoint, partials⟩ := parse_short events [] between.waiting between.header.1
    (framed.trans short)
  -- Nothing of a well-formed schedule is refused, so that the connection lives.
  have alive : ¬ c'.IsDead := by
    intro dead
    have same : last.endpoint.state = .dead := by
      have endpoints := congrArg (fun c => c.endpoint.state) once
      rw [endpoint] at endpoints
      exact endpoints.trans dead
    rw [between.established] at same
    cases same
  have same : parseInbound events [] last = c' := by
    rw [once, ended.resolve_left alive, feed_nil]
  rw [← same, endpoint, partials, delivered, held]
  simp only [noPartials, completes, true_and]
  rintro rfl
  exact tracks.finished

def conversing : Connection Unit where
  role := .server
  config := {}
  endpoint := { socket := { isOpen := true }, state := .established, hooks := () }
  inlet := { receiveStage := .header, expectedBytes := kTransactionHeaderSize }

/-- A transaction in two parts, one of a single part with the same key between them. -/
def interleaved : Schedule Bool :=
  [(false, ⟨{ id := 7, totalSize := 3, dataSize := 2 }, [1, 2]⟩),
    (true, ⟨{ id := 7, totalSize := 1, dataSize := 1 }, [9]⟩),
    (false, ⟨{ id := 7, totalSize := 3, dataSize := 1 }, [3]⟩)]

theorem interleaved_wellFormed : interleaved.WellFormed {} where
  part := by decide
  transaction := by
    have multi : Multi {} (interleaved.partsOf false) := ⟨by decide, (0, 7), 3, by decide, rfl, by decide⟩
    have single : Single {} (interleaved.partsOf true) := ⟨_, rfl, rfl, by decide⟩
    rintro ⟨_ | _, _⟩ _
    · exact .inr multi
    · exact .inl single
  distinct := by
    intro before after split i j progress progress' different
    -- The second transaction has one part, so it is never in progress.
    have alone : ¬ Schedule.InProgress before after true := by
      rintro ⟨begun, more⟩
      have parts := congrArg (fun schedule => (Schedule.partsOf schedule true).length) split
      rw [Schedule.partsOf_append, List.length_append] at parts
      have left := List.length_pos_iff.mpr begun
      have right := List.length_pos_iff.mpr more
      have one : (interleaved.partsOf true).length = 1 := rfl
      omega
    cases i <;> cases j <;>
      first | exact absurd rfl different | exact absurd progress alone | exact absurd progress' alone

def interleavedDelivery : Delivery where
  chunks := [{ bytes := (interleaved.map Prod.snd).flatMap ReceivedTransaction.wire
               nonempty := by decide
               fits := by decide }]
  answers := []

theorem reassembly_interleaved :
    dispatched (run .silent ([interleavedDelivery].map Delivery.op) conversing).endpoint.trace =
      [⟨{ id := 7, totalSize := 1, dataSize := 1 }, [9]⟩, ⟨{ id := 7, totalSize := 3, dataSize := 1 }, [1, 2, 3]⟩] := by
  have delivered := reassembly undisturbing_silent (c := conversing) rfl rfl ⟨rfl, rfl⟩ rfl rfl interleaved []
    (by rw [List.append_nil]; exact interleaved_wellFormed)
    (wire_plain () (interleaved.map Prod.snd)) [] rfl [interleavedDelivery]
    (by simp [Delivery.bytes, interleavedDelivery])
  exact delivered.1.trans (by decide)

end Connection

end Slopline.Net
