import Slopline.Net.Outbound

/-! One end of a conversation.

What a connection has yet to read, from its inbound bytes to the end of what its peer has
queued, is what the peer's voice has still to utter behind the part it is in, and its receiving
direction is where that voice was before it. The parser keeps this, and what it hands over is
what the peer queued.
-/

set_option autoImplicit false

namespace Slopline.Net

open Protocol Library

variable {κ δ ρ σ : Type}

namespace Connection

def greeting (arguments : Start) (c : Connection κ) : Bytes :=
  match c.role with
  | .client => encodeClientHandshake (Client.clientHandshake arguments.subProtocol arguments.subVersion)
  | .server =>
    if c.inlet.receiveStage = .handshake then [] else encodeServerHandshakeReply Server.acceptReply

/-- The outbound half: the voice has uttered everything queued, behind the greeting. -/
structure Speaker {crypto : ConnectionCryptoHooks κ} {channel : Channel δ UInt8 UInt8} {roll : ρ → UInt8 × ρ}
    (duplex : Duplex crypto channel roll) (voice : Voice δ ρ) (arguments : Start) (peer : ConnectionConfig)
    (c : Connection κ) : Prop where
  usable : c.endpoint.Usable crypto
  fits : ∀ outgoing ∈ queuedOf c.endpoint.trace, outgoing.Fits peer
  written : c.endpoint.written = c.greeting arguments ++ voice.utters channel (queuedOf c.endpoint.trace)
  voice : duplex.voice c.endpoint.hooks = voice.after channel (queuedOf c.endpoint.trace)
  quiet : c.role = .server → c.inlet.receiveStage = .handshake → queuedOf c.endpoint.trace = []
  remote : c.role = .server → c.inlet.receiveStage ≠ .handshake →
    c.remoteSubProtocol = arguments.subProtocol ∧ c.remoteVersion = arguments.subVersion

/-- What is still to be read from `d` on. -/
def stillToRead (channel : Channel δ UInt8 UInt8) (d : δ) (parts : List ReceivedTransaction) : Bytes :=
  channel.stream d (parts.map ReceivedTransaction.letter)

def pastParts (channel : Channel δ UInt8 UInt8) (d : δ) (parts : List ReceivedTransaction) : δ :=
  channel.after d (parts.map ReceivedTransaction.letter)

/-- The inbound half: what is still to be read of `parts`, with the receiving direction at `lane`
before the first of them. -/
inductive Hears (channel : Channel δ UInt8 UInt8) (lane : δ) (greeting : Bytes) (parts : List ReceivedTransaction)
    (c : Connection κ) : δ → Bytes → Prop where
  | handshake : c.inlet.receiveStage = .handshake → c.inlet.expectedBytes = c.role.handshakeSize →
      c.inlet.pendingData = [] → dispatched c.endpoint.trace = [] →
      Hears channel lane greeting parts c lane (greeting ++ stillToRead channel lane parts)
  | header (done rest : List ReceivedTransaction) : c.AtHeader → c.endpoint.state = .established →
      c.inlet.expectedBytes = kTransactionHeaderSize → greeting ≠ [] → parts = done ++ rest →
      dispatched c.endpoint.trace = done →
      Hears channel lane greeting parts c (pastParts channel lane done)
        (stillToRead channel (pastParts channel lane done) rest)
  | data (done rest : List ReceivedTransaction) (part : ReceivedTransaction) : c.AtData →
      c.endpoint.state = .established → c.inlet.pendingHeader = part.header →
      c.inlet.pendingFlag = channel.flag part.letter.head → greeting ≠ [] → parts = done ++ part :: rest →
      dispatched c.endpoint.trace = done →
      Hears channel lane greeting parts c (channel.head (pastParts channel lane done) part.letter.head).2
        ((channel.bodyOf (pastParts channel lane done) part.letter).1 ++
          stillToRead channel (pastParts channel lane (done ++ [part])) rest)

def Greets (arguments : Start) (greeting : Bytes) (queued : List Outgoing) : Role → Prop
  | .client => greeting = [] ∧ queued = [] ∨ greeting = encodeServerHandshakeReply Server.acceptReply
  | .server => greeting = encodeClientHandshake (Client.clientHandshake arguments.subProtocol arguments.subVersion)

theorem stillToRead_append (channel : Channel δ UInt8 UInt8) (d : δ) (parts more : List ReceivedTransaction) :
    stillToRead channel d (parts ++ more) = stillToRead channel d parts ++
      stillToRead channel (pastParts channel d parts) more := by
  rw [stillToRead, List.map_append, channel.stream_append]
  rfl

theorem stillToRead_cons (channel : Channel δ UInt8 UInt8) (d : δ) (part : ReceivedTransaction)
    (parts : List ReceivedTransaction) :
    stillToRead channel d (part :: parts) = (channel.head d part.letter.head).1 ++
      ((channel.bodyOf d part.letter).1 ++ stillToRead channel (channel.next d part.letter) parts) :=
  List.append_assoc ..

theorem pastParts_append (channel : Channel δ UInt8 UInt8) (d : δ) (parts more : List ReceivedTransaction) :
    pastParts channel d (parts ++ more) = pastParts channel (pastParts channel d parts) more := by
  rw [pastParts, List.map_append, channel.after_append]
  rfl

section

variable {channel : Channel δ UInt8 UInt8} {lane place : δ} {greeting greeting' : Bytes}
  {parts more : List ReceivedTransaction} {c : Connection κ} {bytes : Bytes}

theorem Hears.at_handshake (hears : Hears channel lane greeting parts c place bytes)
    (stage : c.inlet.receiveStage = .handshake) :
    place = lane ∧ bytes = greeting ++ stillToRead channel lane parts ∧ c.inlet.pendingData = [] ∧
      dispatched c.endpoint.trace = [] := by
  cases hears with
  | handshake _ _ pendingData none => exact ⟨rfl, rfl, pendingData, none⟩
  | header _ _ atHeader => exact absurd (stage.symm.trans atHeader.1) (by simp)
  | data _ _ _ atData => exact absurd (stage.symm.trans atData.stage) (by simp)

theorem Hears.extend {extra : Bytes} (hears : Hears channel lane greeting parts c place bytes)
    (once : greeting ≠ [] → greeting' = greeting)
    (written : greeting' ++ stillToRead channel lane (parts ++ more) =
      greeting ++ stillToRead channel lane parts ++ extra) :
    Hears channel lane greeting' (parts ++ more) c place (bytes ++ extra) := by
  -- Past the greeting, what is uttered more comes behind all parts.
  have uttered (greeted : greeting ≠ []) : extra = stillToRead channel (pastParts channel lane parts) more := by
    rw [once greeted, stillToRead_append, List.append_assoc, List.append_cancel_left_eq,
      List.append_cancel_left_eq] at written
    exact written.symm
  cases hears with
  | handshake stage expected pendingData none =>
    rw [← written]
    exact .handshake stage expected pendingData none
  | header done rest atHeader state expected greeted said delivered =>
    rw [uttered greeted, said, pastParts_append, ← stillToRead_append]
    exact .header done _ atHeader state expected (once greeted ▸ greeted) (by rw [List.append_assoc]) delivered
  | data done rest part atData state header flag greeted said delivered =>
    have split : parts = (done ++ [part]) ++ rest := by simp [said]
    rw [uttered greeted, List.append_assoc, split, pastParts_append channel lane (done ++ [part]), ← stillToRead_append]
    exact .data done _ part atData state header flag (once greeted ▸ greeted) (by simp) delivered

theorem Hears.speaks {e : Endpoint κ} (hears : Hears channel lane greeting parts c place bytes)
    (state : e.state = c.endpoint.state) (same : dispatched e.trace = dispatched c.endpoint.trace) :
    Hears channel lane greeting parts { c with endpoint := e } place bytes := by
  cases hears with
  | handshake stage expected pendingData none => exact .handshake stage expected pendingData (same.trans none)
  | header done rest atHeader established expected greeted said delivered =>
    exact .header done rest atHeader (state.trans established) expected greeted said (same.trans delivered)
  | data done rest part atData established header flag greeted said delivered =>
    exact .data done rest part ⟨atData.stage, atData.pendingData, atData.expected⟩ (state.trans established) header
      flag greeted said (same.trans delivered)

theorem Hears.feed (hears : Hears channel lane greeting parts c place bytes) (more : Bytes) :
    Hears channel lane greeting parts (c.feed more) place bytes := by
  cases hears with
  | handshake stage expected pendingData none => exact .handshake stage expected pendingData none
  | header done rest atHeader established expected greeted said delivered =>
    exact .header done rest atHeader established expected greeted said delivered
  | data done rest part atData established header flag greeted said delivered =>
    exact .data done rest part ⟨atData.stage, atData.pendingData, atData.expected⟩ established header flag greeted said
      delivered

end

section

variable {crypto : ConnectionCryptoHooks κ} {channel : Channel δ UInt8 UInt8} {roll : ρ → UInt8 × ρ}
  {duplex : Duplex crypto channel roll} {voice : Voice δ ρ} {arguments : Start} {peer : ConnectionConfig}
  {c : Connection κ}

theorem Speaker.speaks (speaker : c.Speaker duplex voice arguments peer) {more : List Outgoing}
    {e : Endpoint κ} (speaks : Endpoint.Speaks duplex peer more c.endpoint e)
    (quiet : c.role = .server → c.inlet.receiveStage = .handshake → more = []) :
    Speaker duplex voice arguments peer { c with endpoint := e } where
  usable := speaks.usable speaker.usable
  fits outgoing member := by
    rw [speaks.queued, List.mem_append] at member
    exact member.elim (speaker.fits outgoing) (speaks.fits outgoing)
  written := by
    rw [speaks.written, speaker.written, speaks.queued, speaker.voice, Voice.utters_append, List.append_assoc]
    rfl
  voice := by rw [speaks.voice, speaks.queued, speaker.voice, Voice.after_append]
  quiet server stage := by
    rw [speaks.queued, speaker.quiet server stage, quiet server stage, List.append_nil]
  remote := speaker.remote

theorem Speaker.past {c' : Connection κ} (speaker : c.Speaker duplex voice arguments peer)
    (role : c'.role = c.role) (trace : c'.endpoint.trace = c.endpoint.trace)
    (queue : c'.endpoint.sendQueue = c.endpoint.sendQueue) (usable : c'.endpoint.Usable crypto)
    (kept : duplex.voice c'.endpoint.hooks = duplex.voice c.endpoint.hooks)
    (subProtocol : c'.remoteSubProtocol = c.remoteSubProtocol) (version : c'.remoteVersion = c.remoteVersion)
    (stage : c.inlet.receiveStage ≠ .handshake) (stage' : c'.inlet.receiveStage ≠ .handshake) :
    c'.Speaker duplex voice arguments peer where
  usable := usable
  fits := by
    rw [trace]
    exact speaker.fits
  written := by
    have same : c'.greeting arguments = c.greeting arguments := by
      simp only [Connection.greeting, role, if_neg stage, if_neg stage']
    rw [Endpoint.written, Endpoint.unsent, trace, queue, same]
    exact speaker.written
  voice := by rw [kept, trace, speaker.voice]
  quiet _ handshake := absurd handshake stage'
  remote server _ := by
    rw [subProtocol, version]
    exact speaker.remote (role ▸ server) stage

theorem Speaker.greets (speaker : c.Speaker duplex voice arguments peer) {party : Role} (role : c.role = party.other) :
    Greets arguments (c.greeting arguments) (queuedOf c.endpoint.trace) party := by
  cases party with
  | client =>
    by_cases stage : c.inlet.receiveStage = .handshake
    · exact .inl ⟨by simp [Connection.greeting, role, Role.other, stage], speaker.quiet role stage⟩
    · exact .inr (by simp [Connection.greeting, role, Role.other, stage])
  | server => simp [Greets, Connection.greeting, role, Role.other]

end

section

variable {events : ConnectionEvents κ} {arguments : Start} {c : Connection κ}

theorem split_inbound {inbound tail first rest : Bytes} (whole : inbound ++ tail = first ++ rest)
    (enough : first.length ≤ inbound.length) :
    inbound.take first.length = first ∧ inbound.drop first.length ++ tail = rest := by
  obtain ⟨after, rfl⟩ := List.prefix_of_prefix_length_le (List.prefix_append first rest)
    (whole ▸ List.prefix_append inbound tail) enough
  rw [List.append_assoc, List.append_cancel_left_eq] at whole
  simp [whole]

theorem serverHandshakeReply_ne_nil (reply : ServerHandshakeReply) : encodeServerHandshakeReply reply ≠ [] :=
  List.ne_nil_of_length_eq_add_one (n := kServerHandshakeReplySize - 1) (length_encodeServerHandshakeReply reply)

theorem clientHandshake_accepted (subProtocol : UInt32) (subVersion : UInt16) :
    validateClientHandshake (Client.clientHandshake subProtocol subVersion) = .accepted := by
  simp [validateClientHandshake, Client.clientHandshake]

theorem handleHandshake_reply (role : c.role = .client) (answers : List SendResult)
    (reply : c.inlet.inbound.take kServerHandshakeReplySize = encodeServerHandshakeReply Server.acceptReply) :
    c.handleHandshake events answers = { c with
      inlet := { c.inlet with inbound := c.inlet.inbound.drop kServerHandshakeReplySize }
      endpoint := c.endpoint.markEstablished events } := by
  have accepted : validateServerHandshakeReply Server.acceptReply = .accepted := by decide
  simp only [handleHandshake, role, Client.handleHandshake, reply,
    tryDecodeServerHandshakeReply_exact (length_encodeServerHandshakeReply _), decodeServerHandshakeReply_encode,
    accepted, ne_eq, not_true_eq_false, if_false]

theorem handleHandshake_client (role : c.role = .server) (answers : List SendResult)
    (handshake : c.inlet.inbound.take kClientHandshakeSize =
      encodeClientHandshake (Client.clientHandshake arguments.subProtocol arguments.subVersion)) :
    c.handleHandshake events answers = { c with
      remoteSubProtocol := arguments.subProtocol
      remoteVersion := arguments.subVersion
      inlet := { c.inlet with inbound := c.inlet.inbound.drop kClientHandshakeSize }
      endpoint := ((c.endpoint.queueBytes (encodeServerHandshakeReply Server.acceptReply)).markEstablished
        events).flushSends events answers } := by
  simp only [handleHandshake, role, Server.handleHandshake, handshake,
    tryDecodeClientHandshake_exact (length_encodeClientHandshake _), decodeClientHandshake_encode,
    clientHandshake_accepted]
  rfl

theorem note_callback (e : Endpoint κ) (event : Event) (callback : event.ordinary = false) :
    (e.note event).written = e.written ∧ queuedOf (e.note event).trace = queuedOf e.trace := by
  have sent : sentBytes [⟨e.state, event⟩] = [] :=
    sentBytes_other e.state fun bytes same => by rw [same] at callback; cases callback
  have queued : queuedOf [⟨e.state, event⟩] = [] :=
    queuedOf_other e.state fun outgoing wire same => by rw [same] at callback; cases callback
  simp [Endpoint.written, Endpoint.note, Endpoint.unsent, sent, queued]

end

/-- A connection in conversation with a peer of the given voice, which has queued `queued`, with
`tail` still to come behind the inbound bytes. -/
structure Converses {crypto : ConnectionCryptoHooks κ} {channel : Channel δ UInt8 UInt8} {roll : ρ → UInt8 × ρ}
    (duplex : Duplex crypto channel roll) (voice : Voice δ ρ) (other : Voice δ σ) (arguments : Start)
    (peer : ConnectionConfig) (greeting : Bytes) (queued : List Outgoing) (tail : Bytes) (c : Connection κ) :
    Prop where
  speaker : c.Speaker duplex voice arguments peer
  hears : Hears channel other.lane greeting (other.parts queued) c (duplex.receiving c.endpoint.hooks)
    (c.inlet.inbound ++ tail)
  fits : ∀ outgoing ∈ queued, outgoing.Fits c.config
  greets : Greets arguments greeting queued c.role

section

variable {crypto : ConnectionCryptoHooks κ} {channel : Channel δ UInt8 UInt8} {roll : ρ → UInt8 × ρ}
  {duplex : Duplex crypto channel roll} {voice : Voice δ ρ} {other : Voice δ σ} {arguments : Start}
  {peer : ConnectionConfig} {greeting tail : Bytes} {queued : List Outgoing} {events : ConnectionEvents κ}
  {c : Connection κ}

theorem Converses.waiting
    (converses : Converses duplex voice other arguments peer greeting queued tail c) : c.Waiting :=
  ⟨converses.speaker.usable.alive, converses.speaker.usable.staying⟩

theorem Converses.wholePart
    (converses : Converses duplex voice other arguments peer greeting queued tail c)
    {part : ReceivedTransaction} (member : part ∈ other.parts queued) : WholePart c.config part := by
  obtain ⟨outgoing, among, flag, rfl⟩ := Voice.mem_flag member
  exact (converses.fits outgoing among).wholePart flag

theorem Converses.reply (civil : events.Civil peer)
    (converses : Converses duplex voice other arguments peer greeting queued tail c) (role : c.role = .client)
    (stage : c.inlet.receiveStage = .handshake) (enough : kServerHandshakeReplySize ≤ c.inlet.inbound.length)
    (answers : List SendResult) :
    Converses duplex voice other arguments peer greeting queued tail
      (c.handleHandshake events answers).expectHeader := by
  obtain ⟨speaker, hears, fits, greets⟩ := converses
  have greeted := greets
  rw [role] at greets
  obtain ⟨lane, whole, pendingData, none⟩ := hears.at_handshake stage
  rcases greets with ⟨rfl, rfl⟩ | rfl
  · have empty := congrArg List.length whole
    simp only [List.length_append, List.length_nil, Voice.parts_nil, stillToRead, List.map_nil, Channel.stream_nil,
      kServerHandshakeReplySize] at empty enough
    omega
  -- The server's greeting is its reply, and the reply is whole.
  · obtain ⟨taken, left⟩ := split_inbound whole (by simpa using enough)
    rw [length_encodeServerHandshakeReply] at taken left
    rw [handleHandshake_reply role answers taken]
    obtain ⟨more, speaks, noted⟩ := Endpoint.markEstablished_speaks duplex civil speaker.usable
    obtain ⟨written, queuedSame⟩ := note_callback { c.endpoint with state := .established } .onEstablished rfl
    have client {statement : Prop} (server : c.role = .server) : statement :=
      absurd (role.symm.trans server) (by simp)
    have base : Speaker duplex voice arguments peer { c with
        endpoint := { c.endpoint with state := .established }.note .onEstablished } :=
      { usable := noted
        fits := by rw [queuedSame]; exact speaker.fits
        written := by rw [written, queuedSame]; exact speaker.written
        voice := by rw [queuedSame]; exact speaker.voice
        quiet := client
        remote := client }
    have spoken := base.speaks speaks client
    refine ⟨⟨spoken.usable, spoken.fits, ?_, spoken.voice, client, client⟩, ?_, fits, greeted⟩
    · have same := spoken.written
      simp only [Connection.greeting, role] at same ⊢
      exact same
    · have heard : dispatched (c.endpoint.markEstablished events).trace = [] :=
        speaks.dispatched.trans (by simp [Endpoint.note, none, dispatched_other])
      have receiving : duplex.receiving (c.endpoint.markEstablished events).hooks = other.lane :=
        speaks.receiving.trans lane
      change Hears channel _ _ _ _ (duplex.receiving (c.endpoint.markEstablished events).hooks)
        (c.inlet.inbound.drop kServerHandshakeReplySize ++ tail)
      rw [left, receiving]
      exact .header [] _ ⟨rfl, pendingData⟩ speaks.state rfl (serverHandshakeReply_ne_nil _) rfl heard

/-- The client's handshake makes a server answer, and lets it hear and speak transactions. -/
theorem Converses.accept (civil : events.Civil peer)
    (converses : Converses duplex voice other arguments peer greeting queued tail c) (role : c.role = .server)
    (stage : c.inlet.receiveStage = .handshake) (enough : kClientHandshakeSize ≤ c.inlet.inbound.length)
    {answers : List SendResult} (benign : ∀ answer ∈ answers, answer.Benign) :
    Converses duplex voice other arguments peer greeting queued tail
      (c.handleHandshake events answers).expectHeader := by
  obtain ⟨speaker, hears, fits, greets⟩ := converses
  have greeted := greets
  rw [role] at greets
  obtain ⟨lane, whole, pendingData, none⟩ := hears.at_handshake stage
  have said : greeting = encodeClientHandshake (Client.clientHandshake arguments.subProtocol arguments.subVersion) :=
    greets
  subst said
  obtain ⟨taken, left⟩ := split_inbound whole (by simpa using enough)
  rw [length_encodeClientHandshake] at taken left
  rw [handleHandshake_client role answers taken]
  -- A server that waits has said nothing, so that the reply comes first.
  have unspoken := speaker.quiet role stage
  have voice_start := speaker.voice
  rw [unspoken, Voice.after_nil] at voice_start
  have filled := serverHandshakeReply_ne_nil Server.acceptReply
  generalize replied : c.endpoint.queueBytes (encodeServerHandshakeReply Server.acceptReply) = e
  have replying : e.Usable crypto := replied ▸ speaker.usable.queueBytes _
  have trace : e.trace = c.endpoint.trace := replied ▸ Endpoint.queueBytes_trace _ _
  have hooks : e.hooks = c.endpoint.hooks := replied ▸ (Endpoint.queueBytes_equipment _ _).2
  have written : e.written = c.endpoint.written ++ encodeServerHandshakeReply Server.acceptReply :=
    replied ▸ Endpoint.written_queueBytes _ _
  obtain ⟨more, speaks, noted⟩ := Endpoint.markEstablished_speaks duplex civil replying
  have flushed : Endpoint.Speaks duplex peer [] _ _ :=
    Endpoint.flushSendsWith_speaks (Endpoint.markDead events) benign (speaks.usable noted)
  have spoken := speaks.trans flushed
  obtain ⟨writtenSame, queuedSame⟩ := note_callback { e with state := .established } .onEstablished rfl
  have silent : queuedOf ({ e with state := .established }.note .onEstablished).trace = [] := by
    rw [queuedSame]
    exact (congrArg queuedOf trace).trans unspoken
  have base : Speaker duplex voice arguments peer { (c.feed []).expectHeader with
      remoteSubProtocol := arguments.subProtocol
      remoteVersion := arguments.subVersion
      endpoint := { e with state := .established }.note .onEstablished } :=
    { usable := noted
      fits := by rw [silent]; simp
      written := by
        have nothing : c.greeting arguments = [] := by simp [Connection.greeting, role, stage]
        have before : c.endpoint.written = [] := by
          rw [speaker.written, unspoken, nothing, Voice.utters_nil, List.append_nil]
        rw [silent, Voice.utters_nil, List.append_nil, writtenSame]
        refine written.trans ?_
        simp [before, Connection.greeting, expectHeader, feed, role]
      voice := by
        rw [silent, Voice.after_nil, ← voice_start]
        exact congrArg duplex.voice hooks
      quiet := fun _ _ => silent
      remote := fun _ _ => ⟨rfl, rfl⟩ }
  have after := base.speaks spoken fun _ handshake => absurd handshake (by simp [expectHeader])
  refine ⟨?_, ?_, fits, greeted⟩
  · exact ⟨after.usable, after.fits, after.written, after.voice, after.quiet, after.remote⟩
  · have quiet : dispatched [(⟨.established, .onEstablished⟩ : Entry)] = [] := dispatched_other _ (by simp)
    have heard := spoken.dispatched
    simp only [Endpoint.note, trace, dispatched_append, none, quiet, List.append_nil] at heard
    have receiving := spoken.receiving.trans ((congrArg duplex.receiving hooks).trans lane)
    change Hears channel _ _ _ _ (duplex.receiving ((e.markEstablished events).flushSends events answers).hooks)
      (c.inlet.inbound.drop kClientHandshakeSize ++ tail)
    rw [left, show duplex.receiving ((e.markEstablished events).flushSends events answers).hooks = other.lane from
      receiving]
    exact .header [] _ ⟨rfl, pendingData⟩ spoken.state rfl (clientHandshake_ne_nil _) rfl heard

/-- A header of the peer's is accepted, decoded as the peer meant it. -/
theorem Converses.header
    (converses : Converses duplex voice other arguments peer greeting queued tail c)
    (stage : c.inlet.receiveStage = .header) (enough : kTransactionHeaderSize ≤ c.inlet.inbound.length) :
    ¬ c.config.Refuses c.takeHeader.inlet.pendingHeader ∧
      Converses duplex voice other arguments peer greeting queued tail c.takeHeader.expectData := by
  have known {part : ReceivedTransaction} (member : part ∈ other.parts queued) := converses.wholePart member
  obtain ⟨speaker, hears, fits, greets⟩ := converses
  generalize stands : duplex.receiving c.endpoint.hooks = place at hears
  generalize whole : c.inlet.inbound ++ tail = bytes at hears
  cases hears with
  | handshake at_ => exact absurd (stage.symm.trans at_) (by simp)
  | data _ _ _ atData => exact absurd (stage.symm.trans atData.stage) (by simp)
  | header done rest _ established _ greeted said delivered =>
    cases rest with
    | nil =>
      have empty := congrArg List.length whole
      simp only [List.length_append, stillToRead, List.map_nil, Channel.stream_nil, List.length_nil,
        kTransactionHeaderSize] at empty enough
      omega
    | cons part rest =>
      have size : (channel.head (pastParts channel other.lane done) part.letter.head).1.length =
          kTransactionHeaderSize := (channel.length_head _ _).trans (length_encodeHeader _)
      rw [stillToRead_cons] at whole
      obtain ⟨taken, left⟩ := split_inbound whole (size ▸ enough)
      rw [size] at taken left
      -- The receiving direction is where the peer's was, so that it undoes what the peer did.
      have reads := duplex.readsHeader c.endpoint.hooks (c.inlet.inbound.take kTransactionHeaderSize)
      obtain ⟨result, same⟩ : ∃ result, readHeader crypto c.endpoint.hooks
        (c.inlet.inbound.take kTransactionHeaderSize) = result := ⟨_, rfl⟩
      rw [same, stands, taken] at reads
      obtain ⟨read, receiving, sending, dice⟩ := reads
      rw [channel.head_coded] at receiving read
      have decoded : c.takeHeader = { c with
          endpoint := { c.endpoint with hooks := result.2 }
          inlet := { c.inlet with
            inbound := c.inlet.inbound.drop kTransactionHeaderSize
            headerBytes := encodeHeader part.header
            pendingFlag := channel.flag part.letter.head
            pendingHeader := part.header } } := by
        simp only [takeHeader, speaker.usable.equipped, same, read]
        simp [ReceivedTransaction.letter]
      rw [decoded]
      refine ⟨(known (by simp [said])).acceptable.accepted, ?_, ?_, fits, greets⟩
      · exact speaker.past rfl rfl rfl ⟨speaker.usable.shown, speaker.usable.alive, speaker.usable.staying,
          speaker.usable.equipped, speaker.usable.fresh⟩ (duplex.voice_same sending dice) rfl rfl (by simp [stage])
          (by simp [expectData])
      · change Hears channel _ _ _ _ (duplex.receiving result.2) (c.inlet.inbound.drop kTransactionHeaderSize ++ tail)
        have next : pastParts channel other.lane (done ++ [part]) =
            channel.next (pastParts channel other.lane done) part.letter := pastParts_append channel _ done [part]
        rw [left, receiving, ← next]
        exact .data done rest part (expectData_atData _) established rfl rfl greeted said delivered

/-- The data of a transaction completes it, decoded as the peer meant it. -/
theorem Converses.data (civil : events.Civil peer)
    (converses : Converses duplex voice other arguments peer greeting queued tail c)
    (stage : c.inlet.receiveStage = .data) (enough : c.inlet.expectedBytes ≤ c.inlet.inbound.length) :
    Converses duplex voice other arguments peer greeting queued tail
      (c.takeData.2.completeTransaction events c.takeData.1).expectHeader := by
  have known {part : ReceivedTransaction} (member : part ∈ other.parts queued) := converses.wholePart member
  obtain ⟨speaker, hears, fits, greets⟩ := converses
  obtain rfl : c.endpoint.crypto = crypto := speaker.usable.equipped
  generalize stands : duplex.receiving c.endpoint.hooks = place at hears
  generalize whole : c.inlet.inbound ++ tail = bytes at hears
  cases hears with
  | handshake at_ => exact absurd (stage.symm.trans at_) (by simp)
  | header _ _ atHeader => exact absurd (stage.symm.trans atHeader.1) (by simp)
  | data done rest part atData established header flag greeted said delivered =>
    have here := @known part (by simp [said])
    have size : (channel.bodyOf (pastParts channel other.lane done) part.letter).1.length = c.inlet.expectedBytes := by
      rw [channel.length_bodyOf, atData.expected, header, here.acceptable.size]
      rfl
    obtain ⟨taken, left⟩ := split_inbound whole (size ▸ enough)
    rw [size] at taken left
    -- The receiving direction is where the peer's was behind the header.
    have reads := duplex.readsData c.endpoint.hooks (c.inlet.inbound.take c.inlet.expectedBytes) c.inlet.pendingFlag
    obtain ⟨result, same⟩ : ∃ result, readData c.endpoint.crypto c.endpoint.hooks
      (c.inlet.inbound.take c.inlet.expectedBytes) c.inlet.pendingFlag = result := ⟨_, rfl⟩
    rw [same, stands, taken, flag] at reads
    obtain ⟨read, receiving, sending, dice⟩ := reads
    rw [channel.body_coded] at read receiving
    have completes : c.takeData.2.completeTransaction events c.takeData.1 =
        { c.takeData.2 with endpoint := { c.endpoint with hooks := result.2 } }.dispatch events part := by
      have decoded : result.1 = part.data := read
      simp only [completeTransaction, takeData, atData.pendingData, List.nil_append, same, here.whole, if_true, header,
        decoded]
    rw [completes]
    have usable : ({ c.endpoint with hooks := result.2 } : Endpoint κ).Usable c.endpoint.crypto :=
      ⟨speaker.usable.shown, speaker.usable.alive, speaker.usable.staying, rfl, speaker.usable.fresh⟩
    obtain ⟨more, speaks⟩ := Endpoint.dispatch_speaks duplex civil part usable
    obtain ⟨written, queuedSame⟩ := note_callback { c.endpoint with hooks := result.2 } (.onTransaction part) rfl
    have base : Speaker duplex voice arguments peer { c with
        endpoint := { c.endpoint with hooks := result.2 }.note (.onTransaction part) } :=
      { usable := usable.note _
        fits := by rw [queuedSame]; exact speaker.fits
        written := by rw [written, queuedSame]; exact speaker.written
        voice := by
          rw [queuedSame]
          exact (duplex.voice_same sending dice).trans speaker.voice
        quiet := fun _ handshake => absurd (stage.symm.trans handshake) (by simp)
        remote := speaker.remote }
    have spoken := base.speaks speaks fun _ handshake => absurd (stage.symm.trans handshake) (by simp)
    refine ⟨?_, ?_, fits, greets⟩
    · exact spoken.past rfl rfl rfl spoken.usable rfl rfl rfl (by simp [stage]) (by simp [expectHeader])
    · have heard : dispatched ({ c.endpoint with hooks := result.2 }.dispatch events part).trace = done ++ [part] := by
        rw [speaks.dispatched]
        simp [Endpoint.note, delivered]
      have next : pastParts channel other.lane (done ++ [part]) =
          channel.next (pastParts channel other.lane done) part.letter := pastParts_append channel _ done [part]
      have stood := (speaks.receiving.trans receiving).trans next.symm
      change Hears channel _ _ _ _
        (duplex.receiving ({ c.endpoint with hooks := result.2 }.dispatch events part).hooks)
        (c.inlet.inbound.drop c.inlet.expectedBytes ++ tail)
      rw [left, stood]
      exact .header (done ++ [part]) rest ⟨rfl, rfl⟩ (speaks.state.trans established) rfl greeted (by simp [said]) heard

theorem Converses.formed
    (converses : Converses duplex voice other arguments peer greeting queued tail c) : c.Formed := by
  intro stage
  obtain ⟨_, hears, _, _⟩ := converses
  generalize duplex.receiving c.endpoint.hooks = place at hears
  generalize c.inlet.inbound ++ tail = bytes at hears
  cases hears with
  | handshake _ expected => exact expected
  | header _ _ atHeader => exact absurd (stage.symm.trans atHeader.1) (by simp)
  | data _ _ _ atData => exact absurd (stage.symm.trans atData.stage) (by simp)

theorem Converses.expectedHeader
    (converses : Converses duplex voice other arguments peer greeting queued tail c)
    (stage : c.inlet.receiveStage = .header) : c.inlet.expectedBytes = kTransactionHeaderSize := by
  obtain ⟨_, hears, _, _⟩ := converses
  generalize duplex.receiving c.endpoint.hooks = place at hears
  generalize c.inlet.inbound ++ tail = bytes at hears
  cases hears with
  | handshake at_ => exact absurd (stage.symm.trans at_) (by simp)
  | header _ _ _ _ expected => exact expected
  | data _ _ _ atData => exact absurd (stage.symm.trans atData.stage) (by simp)

theorem Converses.again (civil : events.Civil peer)
    (converses : Converses duplex voice other arguments peer greeting queued tail c)
    {answers : List SendResult} (benign : ∀ answer ∈ answers, answer.Benign) {next : Connection κ}
    (round : parseStep events answers c = .again next) :
    Converses duplex voice other arguments peer greeting queued tail next ∧ next.role = c.role ∧
      next.config = c.config := by
  have config := (parseStep_again events round).2.1
  cases ((parseStep_again_iff events).mp round).2 with
  | handshake stage enough same =>
    subst same
    refine ⟨?_, (handleHandshake_frame events answers c).1, config⟩
    rw [converses.formed stage, Nat.not_lt] at enough
    cases role : c.role with
    | client =>
      rw [role] at enough
      exact converses.reply civil role stage enough answers
    | server =>
      rw [role] at enough
      exact converses.accept civil role stage enough benign
  | header stage enough _ same =>
    subst same
    exact ⟨(converses.header stage (Nat.le_of_not_lt enough)).2, rfl, config⟩
  | data stage enough same =>
    subst same
    refine ⟨converses.data civil stage (Nat.le_of_not_lt enough), ?_, config⟩
    rw [completeTransaction_eq]
    rfl

theorem Converses.rests
    (converses : Converses duplex voice other arguments peer greeting queued tail c)
    {answers : List SendResult} {result : Connection κ} (round : parseStep events answers c = .done result) :
    result = c ∧ c.inlet.inbound.length < c.inlet.expectedBytes := by
  cases (parseStep_done_iff events).mp round with
  | ended ended _ => exact absurd converses.waiting ended
  | short _ few same =>
    refine ⟨same, ?_⟩
    unfold awaited at few
    split at few
    next stage => rwa [converses.expectedHeader stage]
    next => exact few
  | refused _ stage enough refuses _ =>
    exact absurd refuses (converses.header stage (Nat.le_of_not_lt enough)).1

theorem Converses.parse (civil : events.Civil peer)
    (converses : Converses duplex voice other arguments peer greeting queued tail c)
    {answers : List SendResult} (benign : ∀ answer ∈ answers, answer.Benign) :
    let parsed := parseInbound events answers c
    (Converses duplex voice other arguments peer greeting queued tail parsed ∧ parsed.role = c.role ∧
      parsed.config = c.config) ∧ parsed.inlet.inbound.length < parsed.inlet.expectedBytes := by
  refine Loop.run_invariant parseMeasure (parseStep_drops events answers)
    (fun state => Converses duplex voice other arguments peer greeting queued tail state ∧
      state.role = c.role ∧ state.config = c.config)
    (fun state => (Converses duplex voice other arguments peer greeting queued tail state ∧
      state.role = c.role ∧ state.config = c.config) ∧ state.inlet.inbound.length < state.inlet.expectedBytes)
    ?_ ?_ ⟨converses, rfl, rfl⟩
  · rintro state next ⟨converses, role, config⟩ round
    obtain ⟨later, role', config'⟩ := converses.again civil benign round
    exact ⟨later, role'.trans role, config'.trans config⟩
  · rintro state result ⟨converses, role, config⟩ round
    obtain ⟨rfl, few⟩ := converses.rests round
    exact ⟨⟨converses, role, config⟩, few⟩

theorem Converses.speaks
    (converses : Converses duplex voice other arguments peer greeting queued tail c) {more : List Outgoing}
    {e : Endpoint κ} (speaks : Endpoint.Speaks duplex peer more c.endpoint e)
    (quiet : c.role = .server → c.inlet.receiveStage = .handshake → more = []) :
    Converses duplex voice other arguments peer greeting queued tail { c with endpoint := e } where
  speaker := converses.speaker.speaks speaks quiet
  hears := by
    have hears := converses.hears.speaks speaks.state speaks.dispatched
    rwa [← speaks.receiving] at hears
  fits := converses.fits
  greets := converses.greets

theorem Converses.feed {bytes : Bytes}
    (converses : Converses duplex voice other arguments peer greeting queued (bytes ++ tail) c) :
    Converses duplex voice other arguments peer greeting queued tail (c.feed bytes) where
  speaker := ⟨converses.speaker.usable, converses.speaker.fits, converses.speaker.written, converses.speaker.voice,
    converses.speaker.quiet, converses.speaker.remote⟩
  hears := by
    have hears := converses.hears.feed bytes
    rwa [← List.append_assoc] at hears
  fits := converses.fits
  greets := converses.greets

theorem Converses.extend {greeting' extra : Bytes} {more : List Outgoing}
    (converses : Converses duplex voice other arguments peer greeting queued tail c)
    (once : greeting ≠ [] → greeting' = greeting)
    (written : greeting' ++ other.utters channel (queued ++ more) = greeting ++ other.utters channel queued ++ extra)
    (fits : ∀ outgoing ∈ queued ++ more, outgoing.Fits c.config)
    (greets : Greets arguments greeting' (queued ++ more) c.role) :
    Converses duplex voice other arguments peer greeting' (queued ++ more) (tail ++ extra) c where
  speaker := converses.speaker
  hears := by
    rw [Voice.parts_append channel, ← List.append_assoc]
    refine converses.hears.extend once ?_
    rw [← Voice.parts_append channel]
    exact written
  fits := fits
  greets := greets

/-- What was heard is the first of what the peer queued. -/
theorem Converses.delivered
    (converses : Converses duplex voice other arguments peer greeting queued tail c) :
    dispatched c.endpoint.trace <+: other.parts queued := by
  obtain ⟨_, hears, _, _⟩ := converses
  generalize duplex.receiving c.endpoint.hooks = place at hears
  generalize c.inlet.inbound ++ tail = bytes at hears
  cases hears with
  | handshake _ _ _ none => exact none ▸ List.nil_prefix
  | header done rest _ _ _ _ said delivered =>
    rw [delivered, said]
    exact List.prefix_append _ _
  | data done rest part _ _ _ _ _ said delivered =>
    rw [delivered, said]
    exact List.prefix_append _ _

/-- A greeted connection with nothing more to come has heard everything, and its receiving
direction is where the peer's voice is. -/
theorem Converses.drained
    (converses : Converses duplex voice other arguments peer greeting queued [] c) (greeted : greeting ≠ [])
    (rests : c.inlet.inbound.length < c.inlet.expectedBytes) :
    c.endpoint.state = .established ∧ dispatched c.endpoint.trace = other.parts queued ∧
      duplex.receiving c.endpoint.hooks = (other.after channel queued).lane := by
  have known {part : ReceivedTransaction} (member : part ∈ other.parts queued) := converses.wholePart member
  obtain ⟨_, hears, fits, greets⟩ := converses
  generalize duplex.receiving c.endpoint.hooks = place at hears ⊢
  generalize whole : c.inlet.inbound ++ [] = bytes at hears
  rw [List.append_nil] at whole
  -- Neither the greeting nor a transaction is there in part: the connection would not rest.
  cases hears with
  | handshake _ expected _ _ =>
    have size : greeting.length = c.role.handshakeSize := by
      cases role : c.role with
      | client =>
        rw [role] at greets
        rcases greets with ⟨empty, _⟩ | rfl
        · exact absurd empty greeted
        · exact length_encodeServerHandshakeReply _
      | server =>
        rw [role] at greets
        exact (congrArg List.length greets).trans (length_encodeClientHandshake _)
    rw [whole, expected, List.length_append, size] at rests
    omega
  | header done rest _ established expected _ said delivered =>
    cases rest with
    | nil =>
      rw [List.append_nil] at said
      refine ⟨established, delivered.trans said.symm, ?_⟩
      rw [← said]
      rfl
    | cons part rest =>
      rw [whole, expected, stillToRead_cons, List.length_append, channel.length_head] at rests
      exact absurd rests (by simp [ReceivedTransaction.letter])
  | data done rest part atData _ header _ _ said _ =>
    have size := (@known part (by simp [said])).acceptable.size
    rw [whole, atData.expected, header, size, List.length_append, channel.length_bodyOf] at rests
    exact absurd rests (by simp [ReceivedTransaction.letter])

end

end Connection

end Slopline.Net
