import Slopline.Library.Incremental
import Slopline.Net.PeerClose

/-! How the inbound stream was cut makes no difference.

The parser is an incremental loop, and a call of `service_readable` on an open socket is
one delivery to it.
-/

set_option autoImplicit false

namespace Slopline.Net

open Protocol Library

variable {κ : Type}

/-- What `handle_handshake` takes. -/
def Role.handshakeSize : Role → Nat
  | .client => kServerHandshakeReplySize
  | .server => kClientHandshakeSize

namespace Connection

variable (events : ConnectionEvents κ)

def IsDead (c : Connection κ) : Prop := c.endpoint.state = .dead

/-- In the handshake the parser waits for what the handshake takes. -/
def Formed (c : Connection κ) : Prop :=
  c.inlet.receiveStage = .handshake → c.inlet.expectedBytes = c.role.handshakeSize

/-- Cutting off bytes that are there does not depend on what follows. -/
theorem cut_append {inbound : Bytes} {size : Nat} (enough : size ≤ inbound.length) (bytes : Bytes) :
    (inbound ++ bytes).take size = inbound.take size ∧ (inbound ++ bytes).drop size = inbound.drop size ++ bytes :=
  ⟨List.take_append_of_le_length enough, List.drop_append_of_le_length enough⟩

theorem handleHandshake_feed (answers : List SendResult) (bytes : Bytes) {c : Connection κ}
    (enough : c.role.handshakeSize ≤ c.inlet.inbound.length) :
    (c.feed bytes).handleHandshake events answers = (c.handleHandshake events answers).feed bytes := by
  obtain ⟨taken, dropped⟩ := cut_append enough bytes
  cases role : c.role with
  | client =>
    simp only [role, Role.handshakeSize] at taken dropped
    simp only [handleHandshake, role, feed, Client.handleHandshake, taken, dropped]
    split
    · rfl
    · split <;> rfl
  | server =>
    simp only [role, Role.handshakeSize] at taken dropped
    simp only [handleHandshake, role, feed, Server.handleHandshake, taken, dropped]
    split
    · rfl
    · split <;> rfl

theorem handleHandshake_drops (answers : List SendResult) {c : Connection κ}
    (waiting : (c.handleHandshake events answers).Waiting) :
    (c.handleHandshake events answers).inlet =
      { c.inlet with inbound := c.inlet.inbound.drop c.role.handshakeSize } := by
  cases role : c.role with
  | client =>
    simp only [handleHandshake, role, Client.handleHandshake] at waiting ⊢
    split at waiting
    · exact absurd (Endpoint.markDead_dead events _) waiting.1
    · split <;> rfl
  | server =>
    simp only [handleHandshake, role, Server.handleHandshake] at waiting ⊢
    split at waiting
    · exact absurd (Endpoint.markDead_dead events _) waiting.1
    · split <;> rfl

theorem takeHeader_feed (bytes : Bytes) {c : Connection κ}
    (enough : ¬ c.inlet.inbound.length < kTransactionHeaderSize) :
    (c.feed bytes).takeHeader = c.takeHeader.feed bytes := by
  obtain ⟨taken, dropped⟩ := cut_append (Nat.le_of_not_lt enough) bytes
  simp only [feed, takeHeader, taken, dropped]

theorem takeData_feed (bytes : Bytes) {c : Connection κ}
    (enough : ¬ c.inlet.inbound.length < c.inlet.expectedBytes) :
    (c.feed bytes).takeData = (c.takeData.1, c.takeData.2.feed bytes) := by
  obtain ⟨taken, dropped⟩ := cut_append (Nat.le_of_not_lt enough) bytes
  simp only [feed, takeData, taken, dropped]

theorem completeTransaction_feed (bytes data : Bytes) (c : Connection κ) :
    (c.feed bytes).completeTransaction events data = (c.completeTransaction events data).feed bytes := by
  simp only [completeTransaction_eq, feed]

theorem feed_longer (bytes : Bytes) {c : Connection κ} {size : Nat} (enough : ¬ c.inlet.inbound.length < size) :
    ¬ (c.feed bytes).inlet.inbound.length < size := by
  simp only [feed, List.length_append]
  omega

theorem parseStep_feed {answers : List SendResult} (bytes : Bytes) {c next : Connection κ} (formed : c.Formed)
    (round : parseStep events answers c = .again next) :
    parseStep events answers (c.feed bytes) = .again (next.feed bytes) := by
  obtain ⟨waiting, round⟩ := (parseStep_again_iff events).mp round
  refine (parseStep_again_iff events).mpr ⟨waiting, ?_⟩
  cases round with
  | handshake stage enough same =>
    have size : c.role.handshakeSize ≤ c.inlet.inbound.length := formed stage ▸ Nat.le_of_not_lt enough
    refine .handshake stage (feed_longer bytes enough) ?_
    rw [same, handleHandshake_feed events answers bytes size]
    rfl
  | header stage enough accepted same =>
    have taken := takeHeader_feed bytes enough
    refine .header stage (feed_longer bytes enough) ?_ (by rw [same, taken]; rfl)
    rw [taken]
    exact accepted
  | data stage enough same =>
    refine .data stage (feed_longer bytes enough) ?_
    rw [same, takeData_feed bytes enough, completeTransaction_feed]
    rfl

theorem parseStep_halts {answers : List SendResult} (bytes : Bytes) {c result : Connection κ}
    (round : parseStep events answers c = .done result) (dead : result.endpoint.state = .dead) :
    parseStep events answers (c.feed bytes) = .done (result.feed bytes) := by
  refine (parseStep_done_iff events).mpr ?_
  cases (parseStep_done_iff events).mp round with
  | ended ended same => exact .ended ended (by rw [same])
  | short waiting _ same => exact absurd (same ▸ dead) waiting.1
  | refused waiting stage enough refuses same =>
    have taken := takeHeader_feed bytes enough
    refine .refused waiting stage (feed_longer bytes enough) ?_ (by rw [same, taken]; rfl)
    rw [taken]
    exact refuses

theorem parseStep_waits {answers : List SendResult} {c result : Connection κ}
    (round : parseStep events answers c = .done result) (alive : result.endpoint.state ≠ .dead) : result = c := by
  cases (parseStep_done_iff events).mp round with
  | ended _ same => exact same
  | short _ _ same => exact same
  | refused _ _ _ _ same => exact absurd (same ▸ Endpoint.markDead_dead events _) alive

theorem Formed.of_stage {c : Connection κ} (stage : c.inlet.receiveStage ≠ .handshake) : c.Formed :=
  fun handshake => absurd handshake stage

theorem ParseMove.leaves {c next : Connection κ} (move : ParseMove events c next) :
    next.inlet.receiveStage ≠ .handshake := by
  cases move with
  | handshake _ moved _ _ _ => simp [moved]
  | header _ _ moved _ _ _ _ _ => simp [moved]
  | refused _ _ moved _ _ _ => simp [moved]
  | part _ _ _ moved _ _ _ _ _ => simp [moved]

/-- The parser waits for more bytes or is over; either way its past does not depend on
what comes. -/
theorem parse_incremental (answers : List SendResult) :
    Incremental (parseStep events answers) feed IsDead Formed where
  feed_nil := feed_nil
  feed_feed := feed_feed
  halted_feed _ _ := Iff.rfl
  inv_feed _ _ formed := formed
  inv_again _ _ _ round := .of_stage ((parseStep_again events round).2.2.leaves events)
  inv_done c result formed round := by
    rcases parseStep_done events round with rfl | ⟨_, _, move⟩
    · exact formed
    · exact .of_stage (move.leaves events)
  again bytes _ _ formed round := parseStep_feed events bytes formed round
  waits _ _ round alive := parseStep_waits events round alive
  halts bytes _ _ round dead := parseStep_halts events bytes round dead
  stays _ dead := parseStep_resting events answers fun waiting => waiting.1 dead

end Connection

/-- What one call of `service_readable` finds to read, and the system's answers to its sends. -/
structure Delivery where
  chunks : List Chunk
  answers : List SendResult

namespace Delivery

def bytes (delivery : Delivery) : Bytes := delivery.chunks.flatMap Chunk.bytes

def op (delivery : Delivery) : Connection.Op κ :=
  .serviceReadable (delivery.chunks.map RecvResult.read) delivery.answers

theorem arriving_read (chunks : List Chunk) : arriving (chunks.map RecvResult.read) = chunks.flatMap Chunk.bytes := by
  induction chunks with
  | nil => rfl
  | cons chunk chunks ih => rw [List.map_cons, arriving, ih, List.flatMap_cons]

theorem ending_read (chunks : List Chunk) : ending (chunks.map RecvResult.read) = .error .wouldBlock := by
  induction chunks with
  | nil => rfl
  | cons chunk chunks ih => rw [List.map_cons, ending, ih]

end Delivery

namespace Connection

theorem run_deliveries (events : ConnectionEvents κ) (inv : Connection κ → Prop) (answers : List SendResult)
    (deliveries : List Delivery)
    (shown : ∀ c, inv c → c.endpoint.state ≠ .dead → c.endpoint.socket.isOpen = true)
    (feeds : ∀ bytes c, inv c → inv (c.feed bytes)) (parses : ∀ c, inv c → inv (parseInbound events answers c))
    (same : ∀ delivery ∈ deliveries, ∀ c, inv c →
      parseInbound events delivery.answers c = parseInbound events answers c)
    {c : Connection κ} (holds : inv c) :
    run events (deliveries.map Delivery.op) c =
        (deliveries.map Delivery.bytes).foldl
          (Incremental.deliver IsDead feed (parseInbound events answers)) c ∧
      inv (run events (deliveries.map Delivery.op) c) := by
  induction deliveries generalizing c with
  | nil => exact ⟨rfl, holds⟩
  | cons delivery rest ih =>
    -- Once dead, a connection takes nothing any more, and neither does the parser.
    have first : step events c delivery.op =
        Incremental.deliver IsDead feed (parseInbound events answers) c delivery.bytes := by
      by_cases dead : c.IsDead
      · rw [Incremental.deliver_halted dead]
        rw [IsDead] at dead
        simp [step, Delivery.op, serviceReadable, dead]
      · rw [Incremental.deliver_running dead, ← same delivery List.mem_cons_self _ (feeds _ _ holds)]
        simp only [step, Delivery.op, serviceReadable_open events dead (shown c holds dead),
          Delivery.ending_read, Delivery.arriving_read]
        rfl
    have kept : inv (step events c delivery.op) := by
      rw [first]
      by_cases dead : c.IsDead
      · rwa [Incremental.deliver_halted dead]
      · rw [Incremental.deliver_running dead]
        exact parses _ (feeds _ _ holds)
    have later := ih (fun delivery member => same delivery (List.mem_cons_of_mem _ member)) kept
    rw [List.map_cons, List.map_cons, List.foldl_cons, ← first]
    exact later

end Connection

def TakesAll (answers : List SendResult) : Prop :=
  ∃ count rest, answers = .accepted count :: rest ∧ kClientHandshakeSize ≤ count

def wholeSend : List SendResult := [.accepted kClientHandshakeSize]

theorem wholeSend_takesAll : TakesAll wholeSend := ⟨_, [], rfl, Nat.le_refl _⟩

namespace Endpoint

theorem flushSends_whole (events : ConnectionEvents κ) {e : Endpoint κ} (empty : e.sendQueue = [])
    (shown : e.socket.isOpen = true) {bytes : Bytes} (filled : bytes ≠ [])
    (fits : bytes.length ≤ kClientHandshakeSize) {answers : List SendResult} (takes : TakesAll answers) :
    flushSends events answers (e.queueBytes bytes) =
      if e.state = .closing then markDead events (e.note (.sent bytes)) else e.note (.sent bytes) := by
  obtain ⟨count, rest, rfl, enough⟩ := takes
  have queued : e.queueBytes bytes = { e with sendQueue := [{ bytes }] } := by
    simp [queueBytes, filled, empty]
  have sends : e.socket.send bytes (.accepted count) = .ok bytes.length := by
    simp [Socket.send, shown, filled, Nat.min_eq_right (Nat.le_trans fits enough)]
  have first : sendStep (markDead events) (.accepted count) (e.queueBytes bytes) = .again (e.note (.sent bytes)) := by
    simp [queued, sendStep, sends, note, ← empty]
  have last (answer : SendResult) : sendStep (markDead events) answer (e.note (.sent bytes)) =
      .done (if e.state = .closing then markDead events (e.note (.sent bytes)) else e.note (.sent bytes)) := by
    simp [sendStep, note, empty]
  unfold flushSends flushSendsWith
  rw [List.cons_append, flushLoop, first]
  cases rest with
  | nil => simp only [List.nil_append, flushLoop, last]
  | cons answer rest => simp only [List.cons_append, flushLoop, last]

theorem deliver_silent_socket (completed : Option ReceivedTransaction) (hooks : κ) (e : Endpoint κ) :
    (e.deliver .silent completed hooks).socket = e.socket := by cases completed <;> rfl

theorem queueBytes_markEstablished (bytes : Bytes) (e : Endpoint κ) :
    (e.queueBytes bytes).markEstablished .silent = (e.markEstablished .silent).queueBytes bytes := by
  unfold queueBytes
  split <;> rfl

end Endpoint

namespace Connection

theorem reply_fits (reply : ServerHandshakeReply) :
    encodeServerHandshakeReply reply ≠ [] ∧ (encodeServerHandshakeReply reply).length ≤ kClientHandshakeSize := by
  have size : (encodeServerHandshakeReply reply).length = kServerHandshakeReplySize := by simp
  refine ⟨fun empty => ?_, by rw [size]; decide⟩
  rw [empty] at size
  cases size

/-- Nothing to send, and a socket to read from as long as the connection lives. -/
structure Quiescent (c : Connection κ) : Prop where
  formed : c.Formed
  shown : c.endpoint.state ≠ .dead → c.endpoint.socket.isOpen = true
  unsent : c.inlet.receiveStage = .handshake → c.endpoint.sendQueue = []

theorem handleHandshake_silent {c : Connection κ} (quiescent : c.Quiescent) (waiting : c.Waiting)
    (stage : c.inlet.receiveStage = .handshake) {answers : List SendResult} (takes : TakesAll answers) :
    c.handleHandshake .silent answers = c.handleHandshake .silent wholeSend ∧
      ((c.handleHandshake .silent wholeSend).endpoint.state ≠ .dead →
        (c.handleHandshake .silent wholeSend).endpoint.socket.isOpen = true) := by
  have shown := quiescent.shown waiting.1
  have empty := quiescent.unsent stage
  have dies : (c.endpoint.markDead .silent).state ≠ .dead → (c.endpoint.markDead .silent).socket.isOpen = true :=
    fun alive => absurd (Endpoint.markDead_dead _ _) alive
  cases role : c.role with
  | client =>
    simp only [handleHandshake, role, Client.handleHandshake, true_and]
    split
    · exact dies
    · split
      · exact dies
      · exact fun _ => shown
  | server =>
    simp only [handleHandshake, role, Server.handleHandshake]
    split
    · exact ⟨rfl, dies⟩
    · split
      · exact ⟨rfl, dies⟩
      -- The queue is empty, so that one send takes the whole reply.
      · obtain ⟨filled, fits⟩ := reply_fits Server.rejectReply
        have queued : { c.endpoint.queueBytes (encodeServerHandshakeReply Server.rejectReply) with
            state := .closing } = { c.endpoint with state := ConnectionState.closing }.queueBytes
              (encodeServerHandshakeReply Server.rejectReply) := by simp [Endpoint.queueBytes, filled]
        have flushed {answers : List SendResult} (takes : TakesAll answers) :=
          Endpoint.flushSends_whole .silent (e := { c.endpoint with state := .closing }) empty shown filled fits takes
        simp only [queued, flushed takes, flushed wholeSend_takesAll, if_true, true_and]
        exact fun alive => absurd (Endpoint.markDead_dead _ _) alive
      · obtain ⟨filled, fits⟩ := reply_fits Server.acceptReply
        have flushed {answers : List SendResult} (takes : TakesAll answers) :=
          Endpoint.flushSends_whole .silent (e := c.endpoint.markEstablished .silent) empty shown filled fits takes
        simp only [Endpoint.queueBytes_markEstablished, flushed takes, flushed wholeSend_takesAll, true_and]
        have established : (c.endpoint.markEstablished .silent).state = .established := rfl
        rw [if_neg (by simp [established])]
        exact fun _ => shown

/-- The answers to the sends matter in the handshake alone. -/
theorem parseStep_answers {answers : List SendResult} (takes : TakesAll answers) {c : Connection κ}
    (quiescent : c.Quiescent) : parseStep .silent answers c = parseStep .silent wholeSend c := by
  by_cases waiting : c.Waiting
  · rw [parseStep_waiting _ _ waiting, parseStep_waiting _ _ waiting]
    cases stage : c.inlet.receiveStage with
    | handshake =>
      simp only [handshakeStage, (handleHandshake_silent quiescent waiting stage takes).1]
    | header => rfl
    | data => rfl
  · rw [parseStep_resting _ _ waiting, parseStep_resting _ _ waiting]

theorem parseStep_quiescent {c next : Connection κ} (quiescent : c.Quiescent)
    (round : parseStep .silent wholeSend c = .again next) : next.Quiescent := by
  obtain ⟨waiting, _, move⟩ := parseStep_again _ round
  refine ⟨.of_stage (move.leaves _), ?_, fun stage => absurd stage (move.leaves _)⟩
  have shown := quiescent.shown waiting.1
  cases move with
  | handshake stage _ _ _ _ =>
    cases ((parseStep_again_iff _).mp round).2 with
    | handshake _ _ same => exact same ▸ (handleHandshake_silent quiescent waiting stage wholeSend_takesAll).2
    | header at_ _ _ _ => exact absurd (stage.symm.trans at_) (by simp)
    | data at_ _ _ => exact absurd (stage.symm.trans at_) (by simp)
  | header hooks _ _ same _ _ _ _ => rw [same]; exact fun _ => shown
  | refused hooks _ _ same _ _ => rw [same]; exact fun alive => absurd (Endpoint.markDead_dead _ _) alive
  | part part hooks _ _ _ _ delivered _ _ => rw [delivered, Endpoint.deliver_silent_socket]; exact fun _ => shown

theorem parseInbound_quiescent {c : Connection κ} (quiescent : c.Quiescent) :
    (parseInbound .silent wholeSend c).Quiescent := by
  refine Loop.run_invariant parseMeasure (parseStep_drops _ _) Quiescent Quiescent ?_ ?_ quiescent
  · exact fun c next quiescent round => parseStep_quiescent quiescent round
  · intro c result quiescent round
    by_cases alive : result.endpoint.state = .dead
    · have dead : result.endpoint.state ≠ .dead → result.endpoint.socket.isOpen = true :=
        fun live => absurd alive live
      rcases parseStep_done _ round with rfl | ⟨_, _, move⟩
      · exact quiescent
      · exact ⟨.of_stage (move.leaves _), dead, fun stage => absurd stage (move.leaves _)⟩
    · rw [parseStep_waits _ round alive]
      exact quiescent

theorem parseInbound_answers {answers : List SendResult} (takes : TakesAll answers) {c : Connection κ}
    (quiescent : c.Quiescent) : parseInbound .silent answers c = parseInbound .silent wholeSend c := by
  refine Loop.run_induction parseMeasure (parseStep_drops _ wholeSend)
    (motive := fun c result => c.Quiescent → parseInbound .silent answers c = result) ?_ ?_ c quiescent
  · exact fun c result round quiescent =>
      Loop.run_done parseMeasure _ ((parseStep_answers takes quiescent).trans round)
  · intro c next result round ih quiescent
    rw [← ih (parseStep_quiescent quiescent round)]
    exact Loop.run_again parseMeasure _ ((parseStep_answers takes quiescent).trans round)

theorem started_quiescent (role : Role) (config : ConnectionConfig) (hooks : κ) (crypto : ConnectionCryptoHooks κ)
    {arguments : Start} (shown : arguments.socket.isOpen = true) (takes : TakesAll arguments.answers) :
    let c := started .silent role config hooks arguments [.call (.setCrypto crypto)]
    c.Quiescent ∧ parseStep .silent wholeSend c = .done c := by
  cases role with
  | client =>
    let e : Endpoint κ := { hooks, socket := arguments.socket, state := .awaitingHandshakeReply }
    have flushed := Endpoint.flushSends_whole .silent (e := e) rfl shown
      (clientHandshake_ne_nil (Client.clientHandshake arguments.subProtocol arguments.subVersion)) (by simp) takes
    rw [if_neg (by simp [e])] at flushed
    have c_eq : started .silent .client config hooks arguments [.call (.setCrypto crypto)] =
        { Client.fresh config hooks with endpoint := (e.note (.sent (encodeClientHandshake
          (Client.clientHandshake arguments.subProtocol arguments.subVersion)))).setCrypto crypto } := by
      rw [← flushed]
      rfl
    rw [c_eq]
    exact ⟨⟨fun _ => rfl, fun _ => shown, fun _ => rfl⟩, rfl⟩
  | server => exact ⟨⟨fun _ => rfl, fun _ => shown, fun _ => rfl⟩, rfl⟩

/-- However the inbound stream is cut into deliveries, the connection ends in one state
with one history, and unless dead in one position of the parser; each delivery is parsed
in finitely many rounds. -/
theorem chunking_independence (role : Role) (config : ConnectionConfig) (hooks : κ)
    (crypto : ConnectionCryptoHooks κ) (arguments : Start) (shown : arguments.socket.isOpen = true)
    (takes : TakesAll arguments.answers) (first second : List Delivery)
    (takesFirst : ∀ delivery ∈ first, TakesAll delivery.answers)
    (takesSecond : ∀ delivery ∈ second, TakesAll delivery.answers)
    (same : first.flatMap Delivery.bytes = second.flatMap Delivery.bytes) :
    let left := started .silent role config hooks arguments (.call (.setCrypto crypto) :: first.map Delivery.op)
    let right := started .silent role config hooks arguments (.call (.setCrypto crypto) :: second.map Delivery.op)
    left.endpoint.state = right.endpoint.state ∧ left.endpoint.trace = right.endpoint.trace ∧
      (left.endpoint.state ≠ .dead → left.inlet = right.inlet) ∧
      ∀ (answers : List SendResult) (c : Connection κ),
        Loop.iterate (parseStep .silent answers) (2 * c.inlet.inbound.length + 2) c =
          some (parseInbound .silent answers c) := by
  intro left right
  obtain ⟨quiescent, rests⟩ := started_quiescent role config hooks crypto shown takes
  have delivered {deliveries : List Delivery} (takes : ∀ delivery ∈ deliveries, TakesAll delivery.answers) :=
    (run_deliveries .silent Quiescent wholeSend deliveries (fun _ quiescent => quiescent.shown)
      (fun _ _ quiescent => ⟨quiescent.formed, quiescent.shown, quiescent.unsent⟩)
      (fun _ quiescent => parseInbound_quiescent quiescent)
      (fun delivery member _ quiescent => parseInbound_answers (takes delivery member) quiescent) quiescent).1
  -- Two ways to cut one stream, fed to an incremental parser.
  obtain ⟨_, live, leftTail, rightTail, agree⟩ := (parse_incremental .silent wholeSend).deliveries_agree
    parseMeasure (parseStep_drops _ wholeSend) (first.map Delivery.bytes) (second.map Delivery.bytes)
    quiescent.formed rests same
  rw [show Loop.run parseMeasure (parseStep_drops _ wholeSend) = parseInbound .silent wholeSend from rfl,
    ← delivered takesFirst, ← delivered takesSecond] at live agree
  have fed : (left.feed leftTail).endpoint = (right.feed rightTail).endpoint := congrArg Connection.endpoint agree
  have endpoints : left.endpoint = right.endpoint := fed
  refine ⟨congrArg _ endpoints, congrArg _ endpoints, fun alive => congrArg _ (live alive), fun answers c => ?_⟩
  refine Loop.iterate_run parseMeasure (parseStep_drops _ answers) ?_
  simp only [parseMeasure]
  split <;> omega

/-- A handshake and a request in one piece. -/
def onePiece : List Delivery :=
  [{ chunks := [{
      bytes := encodeClientHandshake (Client.clientHandshake kSubProtocolHotl kClientSubVersion) ++
        ReceivedTransaction.wire ⟨{ id := 7, totalSize := 2, dataSize := 2 }, [1, 2]⟩
      nonempty := by decide
      fits := by decide }]
     answers := wholeSend }]

/-- The same bytes, cut inside the handshake and inside the header. -/
def threePieces : List Delivery :=
  [{ chunks := [{
      bytes := (encodeClientHandshake (Client.clientHandshake kSubProtocolHotl kClientSubVersion)).take 5
      nonempty := by decide
      fits := by decide }]
     answers := wholeSend },
    { chunks := [{
      bytes := (encodeClientHandshake (Client.clientHandshake kSubProtocolHotl kClientSubVersion)).drop 5
      nonempty := by decide
      fits := by decide }, {
      bytes := (ReceivedTransaction.wire ⟨{ id := 7, totalSize := 2, dataSize := 2 }, [1, 2]⟩).take 20
      nonempty := by decide
      fits := by decide }]
      answers := wholeSend },
    { chunks := [{
      bytes := (ReceivedTransaction.wire ⟨{ id := 7, totalSize := 2, dataSize := 2 }, [1, 2]⟩).drop 20
      nonempty := by decide
      fits := by decide }]
      answers := wholeSend }]

theorem chunking_independence_pieces :
    let left := started .silent .server {} () { answers := wholeSend }
      (.call (.setCrypto {}) :: onePiece.map Delivery.op)
    let right := started .silent .server {} () { answers := wholeSend }
      (.call (.setCrypto {}) :: threePieces.map Delivery.op)
    left.endpoint.state = right.endpoint.state ∧ left.endpoint.trace = right.endpoint.trace ∧
      (left.endpoint.state ≠ .dead → left.inlet = right.inlet) :=
  have agree := chunking_independence .server {} () {} { answers := wholeSend } rfl wholeSend_takesAll onePiece
    threePieces (by simp [onePiece, wholeSend_takesAll]) (by simp [threePieces, wholeSend_takesAll]) (by decide)
  ⟨agree.1, agree.2.1, agree.2.2.1⟩

end Connection

end Slopline.Net
