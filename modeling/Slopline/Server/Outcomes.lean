import Slopline.Net.SendQueue
import Slopline.Server.Greeting

/-! The three outcomes of a client's handshake.

The peer keeps its end open, the system takes what is sent in any portions, and the
application queues nothing. Then a server establishes, or says why it does not and closes, or
closes without a word, and none of the bytes behind the handshake changes which.
-/

set_option autoImplicit false

namespace Slopline.Server

open Protocol Library Net

variable {κ : Type}

/-- Callbacks that at most change the encryption. -/
structure Passive (events : ConnectionEvents κ) : Prop where
  onEstablished : ∀ history, ∀ call ∈ events.onEstablished history, ∃ crypto, call = .setCrypto crypto
  onTransaction : ∀ history, ∀ call ∈ events.onTransaction history, ∃ crypto, call = .setCrypto crypto
  onClosed : ∀ history, ∀ call ∈ events.onClosed history, ∃ crypto, call = .setCrypto crypto

theorem passive_silent : Passive (ConnectionEvents.silent (κ := κ)) where
  onEstablished _ _ member := absurd member List.not_mem_nil
  onTransaction _ _ member := absurd member List.not_mem_nil
  onClosed _ _ member := absurd member List.not_mem_nil

/-- Operations under which nothing goes wrong and nothing is queued. -/
inductive Calm : Connection.Op κ → Prop where
  | serviceReadable {received : List RecvResult} {answers : List SendResult} :
      ending received = .error .wouldBlock → (∀ answer ∈ answers, answer.Benign) →
      Calm (.serviceReadable received answers)
  | serviceWritable {answers : List SendResult} : (∀ answer ∈ answers, answer.Benign) → Calm (.serviceWritable answers)
  | setCrypto (crypto : ConnectionCryptoHooks κ) : Calm (.call (.setCrypto crypto))

def offers : Connection.Op κ → Bytes
  | .serviceReadable received _ => arriving received
  | .serviceWritable _ | .call _ => []

def Silent (trace : List Entry) : Prop :=
  ∀ entry ∈ trace, entry.event ≠ .onEstablished ∧ ∀ transaction, entry.event ≠ .onTransaction transaction

theorem silent_nil : Silent [] := fun _ member => absurd member List.not_mem_nil

theorem Silent.append {first rest : List Entry} (silent : Silent first) (more : Silent rest) :
    Silent (first ++ rest) := by
  intro entry member
  cases List.mem_append.mp member with
  | inl before => exact silent entry before
  | inr behind => exact more entry behind

theorem silent_onClosed (state : ConnectionState) : Silent [⟨state, .onClosed⟩] := by
  intro entry member
  rw [List.mem_singleton.mp member]
  simp

theorem silent_sent (state : ConnectionState) (bytes : Bytes) : Silent [⟨state, .sent bytes⟩] := by
  intro entry member
  rw [List.mem_singleton.mp member]
  simp

theorem callsWith_passive (die : Endpoint κ → Endpoint κ) {calls : List (Call κ)}
    (passive : ∀ call ∈ calls, ∃ crypto, call = .setCrypto crypto) (e : Endpoint κ) :
    ∃ crypto, Endpoint.callsWith die calls e = { e with crypto } := by
  induction calls generalizing e with
  | nil => exact ⟨e.crypto, rfl⟩
  | cons call calls ih =>
    obtain ⟨first, others⟩ := List.forall_mem_cons.mp passive
    obtain ⟨crypto, rfl⟩ := first
    exact ih others (e.setCrypto crypto)

section
variable {events : ConnectionEvents κ} (passive : Passive events)
include passive

theorem markDead_passive {e : Endpoint κ} (live : e.state ≠ .dead) :
    ∃ crypto, e.markDead events =
      { ({ e with state := .dead, socket := e.socket.close } : Endpoint κ).note .onClosed with crypto } := by
  rw [Endpoint.markDead, if_neg live]
  exact callsWith_passive id (passive.onClosed _) _

theorem markEstablished_passive (e : Endpoint κ) :
    ∃ crypto, e.markEstablished events =
      { ({ e with state := .established } : Endpoint κ).note .onEstablished with crypto } :=
  callsWith_passive (Endpoint.markDead events) (passive.onEstablished _) _

theorem dispatch_passive (transaction : ReceivedTransaction) (e : Endpoint κ) :
    ∃ crypto, e.dispatch events transaction = { e.note (.onTransaction transaction) with crypto } :=
  callsWith_passive (Endpoint.markDead events) (passive.onTransaction _) _

end

/-- What a server with a verdict has done: its reply is all that it handed to the queue. -/
structure Said (v : Verdict) (e : Endpoint κ) : Prop where
  fresh : e.Fresh
  written : e.written = v.reply
  silent : v ≠ .accepted → Silent e.trace
  told : v = .accepted → ⟨.established, .onEstablished⟩ ∈ e.trace

inductive Ended (c : Connection κ) : Verdict → Prop where
  | refused : Ended c .refused
  | flushed : c.endpoint.sendQueue = [] → Ended c .incompatible
  | policy : c.config.Refuses c.inlet.pendingHeader → Ended c .accepted

structure Answered (v : Verdict) (c : Connection κ) : Prop where
  said : Said v c.endpoint
  state : c.endpoint.state ≠ .dead → c.endpoint.state = v.state
  shown : c.endpoint.state ≠ .dead → c.endpoint.socket.isOpen = true
  ended : c.endpoint.state = .dead → Ended c v

theorem Said.same {v : Verdict} {e e' : Endpoint κ} (said : Said v e) (trace : e'.trace = e.trace)
    (queue : e'.sendQueue = e.sendQueue) : Said v e' where
  fresh := by
    rw [Endpoint.Fresh, queue]
    exact said.fresh
  written := by
    rw [Endpoint.written, Endpoint.unsent, trace, queue]
    exact said.written
  silent := by
    rw [trace]
    exact said.silent
  told := by
    rw [trace]
    exact said.told

theorem Said.rehook {v : Verdict} {e : Endpoint κ} (said : Said v e) (hooks : κ) : Said v { e with hooks } :=
  said.same rfl rfl

theorem Said.note {v : Verdict} {e : Endpoint κ} (said : Said v e) {event : Event}
    (sends : ∀ bytes, event ≠ .sent bytes) (silent : v ≠ .accepted → Silent [⟨e.state, event⟩]) :
    Said v (e.note event) where
  fresh := said.fresh
  written := by
    rw [← said.written]
    simp [Endpoint.written, Endpoint.note, Endpoint.unsent, sentBytes_other _ sends]
  silent other := (said.silent other).append (silent other)
  told accepted := List.mem_append_left _ (said.told accepted)

namespace Answered

variable {events : ConnectionEvents κ} {v : Verdict} {c : Connection κ}

theorem same (answered : Answered v c) {next : Connection κ} (config : next.config = c.config)
    (header : next.inlet.pendingHeader = c.inlet.pendingHeader) (trace : next.endpoint.trace = c.endpoint.trace)
    (state : next.endpoint.state = c.endpoint.state) (socket : next.endpoint.socket = c.endpoint.socket)
    (queue : next.endpoint.sendQueue = c.endpoint.sendQueue) : Answered v next := by
  constructor
  · exact answered.said.same trace queue
  · rw [state]
    exact answered.state
  · rw [state, socket]
    exact answered.shown
  · intro dead
    rw [state] at dead
    cases answered.ended dead with
    | refused => exact .refused
    | flushed empty => exact .flushed (queue.trans empty)
    | policy refuses =>
      apply Ended.policy
      rw [config, header]
      exact refuses

theorem feed (answered : Answered v c) (bytes : Bytes) : Answered v (c.feed bytes) :=
  answered.same rfl rfl rfl rfl rfl rfl

theorem waiting (answered : Answered .waiting c) : c.Waiting := by
  have live : c.endpoint.state ≠ .dead := by
    intro dead
    cases answered.ended dead
  refine ⟨live, ?_⟩
  rw [answered.state live]
  decide

theorem accepted (answered : Answered v c) (waiting : c.Waiting) (settled : v ≠ .waiting) : v = .accepted := by
  have state := answered.state waiting.1
  cases v with
  | waiting => exact absurd rfl settled
  | refused => exact absurd state waiting.1
  | incompatible => exact absurd state waiting.2
  | accepted => rfl

theorem dies (passive : Passive events) {e : Endpoint κ} (said : Said v e) (live : e.state ≠ .dead)
    {next : Connection κ} (same : next.endpoint = e.markDead events)
    (ended : e.sendQueue = next.endpoint.sendQueue → Ended next v) :
    Answered v next := by
  obtain ⟨crypto, died⟩ := markDead_passive passive live
  have dead : next.endpoint.state = .dead := by
    rw [same]
    exact Endpoint.markDead_dead events e
  have reset : Said v ({ e with state := .dead, socket := e.socket.close } : Endpoint κ) := said.same rfl rfl
  have noted : Said v (({ e with state := .dead, socket := e.socket.close } : Endpoint κ).note .onClosed) :=
    reset.note (by simp) fun _ => silent_onClosed _
  constructor
  · rw [same, died]
    exact noted.same rfl rfl
  · exact fun alive => absurd dead alive
  · exact fun alive => absurd dead alive
  · intro _
    apply ended
    rw [same, died]
    rfl

/-- The system takes some of what is pending. A closing connection may end by it, with nothing
pending any more. -/
theorem flush (passive : Passive events) (answered : Answered v c) (live : c.endpoint.state ≠ .dead)
    {answers : List SendResult} (benign : ∀ answer ∈ answers, answer.Benign) {next : Connection κ}
    (same : next.endpoint = c.endpoint.flushSends events answers) : Answered v next := by
  let related (e e' : Endpoint κ) : Prop := Said v e → Said v e'
  -- Taking bytes off the front of the queue leaves what was said as it is.
  have takes : ∀ {e : Endpoint κ} {pending rest}, e.sendQueue = pending :: rest → e.socket.isOpen = true →
      ∀ count, related e (e.take pending rest count) := by
    intro e pending rest queue _ count said
    exact
      { fresh := said.fresh.take queue count
        written := (Endpoint.written_take queue count).trans said.written
        silent := fun other => (said.silent other).append (silent_sent _ _)
        told := fun accepted => List.mem_append_left _ (said.told accepted) }
  have all : ∀ answer ∈ answers ++ [.error .wouldBlock], answer.Benign := by
    intro answer member
    cases List.mem_append.mp member with
    | inl listed => exact benign answer listed
    | inr last => exact (List.mem_singleton.mp last) ▸ trivial
  obtain ⟨last, keeps, _, socket, state, stops⟩ := Endpoint.flushLoop_benign related (fun _ said => said)
    (fun first second said => second (first said)) takes (Endpoint.markDead events) all (answered.shown live)
    answered.said.fresh
  have said : Said v last := keeps answered.said
  have alive : last.state ≠ .dead := by
    rw [state]
    exact live
  cases stops with
  | inl stays =>
    have there : next.endpoint = last := same.trans stays
    constructor
    · rw [there]
      exact said
    · intro _
      rw [there, state]
      exact answered.state live
    · intro _
      rw [there, socket]
      exact answered.shown live
    · intro dead
      rw [there] at dead
      exact absurd dead alive
  | inr closes =>
    obtain ⟨closing, empty, died⟩ := closes
    -- Only a closing connection ends with its queue empty.
    have incompatible : v = .incompatible := by
      have there := closing.symm.trans (answered.state live)
      cases v <;> first | rfl | cases there
    subst incompatible
    apply dies passive said alive (same.trans died)
    intro queue
    exact .flushed (queue.symm.trans empty)

theorem answer (passive : Passive events) (answered : Answered .waiting c) (waiting : c.Waiting)
    {answers : List SendResult} (benign : ∀ answer ∈ answers, answer.Benign) (settled : v ≠ .waiting)
    {next : Connection κ} (same : next.endpoint = v.answer events answers c.endpoint) : Answered v next := by
  have silent : Silent c.endpoint.trace := answered.said.silent (by decide)
  have written (v : Verdict) : (c.endpoint.queueBytes v.reply).written = v.reply := by
    rw [Endpoint.written_queueBytes, answered.said.written]
    exact List.nil_append _
  have shown (bytes : Bytes) : (c.endpoint.queueBytes bytes).socket.isOpen = true := by
    rw [Endpoint.queueBytes_socket]
    exact answered.shown waiting.1
  cases v with
  | waiting => exact absurd rfl settled
  | refused =>
    have said : Said .refused c.endpoint :=
      { fresh := answered.said.fresh
        written := answered.said.written
        silent := fun _ => silent
        told := fun accepted => Verdict.noConfusion accepted }
    exact dies passive said waiting.1 same fun _ => .refused
  | incompatible =>
    have closing : Answered .incompatible
        { next with endpoint := { c.endpoint.queueBytes (Verdict.reply .incompatible) with state := .closing } } := by
      constructor
      · constructor
        · exact answered.said.fresh.queueBytes _
        · exact written .incompatible
        · intro _
          rw [Endpoint.queueBytes_trace]
          exact silent
        · exact fun accepted => Verdict.noConfusion accepted
      · exact fun _ => rfl
      · exact fun _ => shown _
      · exact fun dead => ConnectionState.noConfusion dead
    exact closing.flush passive (fun dead => ConnectionState.noConfusion dead) benign same
  | accepted =>
    -- The application is told between the reply and the flush.
    obtain ⟨crypto, told⟩ := markEstablished_passive passive (c.endpoint.queueBytes (Verdict.reply .accepted))
    have opened : Answered .accepted
        { next with endpoint := (c.endpoint.queueBytes (Verdict.reply .accepted)).markEstablished events } := by
      rw [told]
      constructor
      · constructor
        · exact answered.said.fresh.queueBytes _
        · have same := written .accepted
          simp only [Endpoint.written, Endpoint.unsent, Endpoint.note, sentBytes_append] at same ⊢
          rw [sentBytes_other _ (by simp), List.append_nil]
          exact same
        · exact fun other => absurd rfl other
        · exact fun _ => List.mem_append_right _ (List.mem_singleton.mpr rfl)
      · exact fun _ => rfl
      · exact fun _ => shown _
      · exact fun dead => ConnectionState.noConfusion dead
    have live : ((c.endpoint.queueBytes (Verdict.reply .accepted)).markEstablished events).state ≠ .dead := by
      rw [told]
      exact fun dead => ConnectionState.noConfusion dead
    exact opened.flush passive live benign same

theorem goes_on (answered : Answered .accepted c) (waiting : c.Waiting) {next : Connection κ} {e : Endpoint κ}
    (same : next.endpoint = e) (said : Said .accepted e) (state : e.state = c.endpoint.state)
    (socket : e.socket = c.endpoint.socket) : Answered .accepted next := by
  subst same
  constructor
  · exact said
  · intro _
    exact state.trans (answered.state waiting.1)
  · intro _
    exact (congrArg Socket.isOpen socket).trans (answered.shown waiting.1)
  · exact fun dead => absurd (state.symm.trans dead) waiting.1

theorem deliver (passive : Passive events) (answered : Answered .accepted c) (waiting : c.Waiting)
    {completed : Option ReceivedTransaction} {hooks : κ} {next : Connection κ}
    (same : next.endpoint = c.endpoint.deliver events completed hooks) : Answered .accepted next := by
  cases completed with
  | none => exact answered.goes_on waiting same (answered.said.rehook hooks) rfl rfl
  | some transaction =>
    obtain ⟨crypto, told⟩ := dispatch_passive passive transaction { c.endpoint with hooks }
    have noted : Said .accepted (({ c.endpoint with hooks } : Endpoint κ).note (.onTransaction transaction)) :=
      (answered.said.rehook hooks).note (by simp) fun other => absurd rfl other
    exact answered.goes_on waiting (same.trans told) (noted.same rfl rfl) rfl rfl

end Answered

theorem answered_rounds {events : ConnectionEvents κ} (passive : Passive events) {answers : List SendResult}
    (benign : ∀ answer ∈ answers, answer.Benign) : Rounds events answers (Answered (κ := κ)) where
  handshake answered waiting settled _ same := answered.answer passive waiting benign settled same
  header answered waiting settled _ same := by
    obtain rfl := answered.accepted waiting settled
    exact answered.goes_on waiting same (answered.said.rehook _) rfl rfl
  refused := by
    intro c next v hooks answered waiting settled refuses same
    obtain rfl := answered.accepted waiting settled
    exact Answered.dies passive (answered.said.rehook hooks) waiting.1 same fun _ => .policy refuses
  data answered waiting settled _ same := by
    obtain rfl := answered.accepted waiting settled
    exact answered.deliver passive waiting same

/-- Of all that was offered a server hears the beginning, and all of it while it lives. -/
structure Followed (offered : Bytes) (c : Connection κ) (heard : Bytes) : Prop where
  greeted : Greeted Answered heard c
  beginning : heard <+: offered
  whole : c.endpoint.state ≠ .dead → heard = offered
  waits : c.inlet.receiveStage = .handshake → heard.length < kClientHandshakeSize

theorem step_followed {events : ConnectionEvents κ} (passive : Passive events) {offered heard : Bytes}
    {c : Connection κ} (followed : Followed offered c heard) {op : Connection.Op κ} (calm : Calm op) :
    ∃ heard, Followed (offered ++ offers op) (Connection.step events c op) heard := by
  have resting (dead : c.endpoint.state = .dead) (more : Bytes) : Followed (offered ++ more) c heard :=
    ⟨followed.greeted, followed.beginning.trans (List.prefix_append _ _), fun alive => absurd dead alive, followed.waits⟩
  cases calm with
  | @serviceReadable received answers goesOn benign =>
    by_cases dead : c.endpoint.state = .dead
    · rw [Connection.step, Connection.serviceReadable, if_pos dead]
      exact ⟨heard, resting dead _⟩
    · have shown : c.endpoint.socket.isOpen = true := by
        cases followed.greeted.holds with
        | inl waiting => exact waiting.shown dead
        | inr settled => exact settled.shown dead
      -- A living server has heard all that was offered so far.
      obtain rfl := followed.whole dead
      have fed := followed.greeted.feed (fun bytes answered => answered.feed bytes) (arriving received)
      have parsed := fed.parse (answered_rounds passive benign)
      have waits := fed.parse_waits (answered_rounds passive benign)
      rw [Connection.step, Connection.serviceReadable_open events dead shown, goesOn, RecvResult.survives, if_pos rfl]
      refine ⟨heard ++ arriving received, parsed, List.prefix_rfl, fun _ => rfl, fun stage => ?_⟩
      exact waits stage (parsed.opening stage).2.2.waiting
  | @serviceWritable answers benign =>
    by_cases dead : c.endpoint.state = .dead
    · rw [Connection.step, Connection.serviceWritable, if_pos dead]
      exact ⟨heard, resting dead _⟩
    · obtain rfl := followed.whole dead
      rw [Connection.step, Connection.serviceWritable, if_neg dead, offers, List.append_nil]
      have flushed := followed.greeted.endpoint fun answered => answered.flush passive dead benign rfl
      exact ⟨heard, flushed, List.prefix_rfl, fun _ => rfl, followed.waits⟩
  | setCrypto crypto =>
    rw [offers, List.append_nil]
    have changed := followed.greeted.endpoint (e := c.endpoint.setCrypto crypto) fun answered =>
      answered.same rfl rfl rfl rfl rfl rfl
    exact ⟨heard, changed, followed.beginning, followed.whole, followed.waits⟩

theorem run_followed {events : ConnectionEvents κ} (passive : Passive events) {ops : List (Connection.Op κ)}
    (calm : ∀ op ∈ ops, Calm op) {offered heard : Bytes} {c : Connection κ} (followed : Followed offered c heard) :
    ∃ heard, Followed (offered ++ ops.flatMap offers) (Connection.run events ops c) heard := by
  induction ops generalizing offered heard c with
  | nil =>
    rw [List.flatMap_nil, List.append_nil]
    exact ⟨heard, followed⟩
  | cons op ops ih =>
    obtain ⟨first, others⟩ := List.forall_mem_cons.mp calm
    obtain ⟨next, after⟩ := step_followed passive followed first
    rw [List.flatMap_cons, ← List.append_assoc]
    exact ih others after

theorem start_followed (events : ConnectionEvents κ) (config : ConnectionConfig) (hooks : κ)
    {arguments : Connection.Start} (shown : arguments.socket.isOpen = true) :
    Followed [] (Connection.start events arguments (Connection.fresh .server config hooks)) [] where
  greeted :=
    { role := rfl
      opening := by
        intro _
        refine ⟨rfl, rfl, ?_⟩
        constructor
        · constructor
          · exact fun _ member => absurd member List.not_mem_nil
          · rfl
          · exact fun _ => silent_nil
          · exact fun accepted => Verdict.noConfusion accepted
        · exact fun _ => rfl
        · exact fun _ => shown
        · exact fun dead => ConnectionState.noConfusion dead
      past := fun stage => absurd rfl stage }
  beginning := List.prefix_rfl
  whole _ := rfl
  waits _ := by decide

/-- A server that was offered a whole handshake has answered it, whatever comes behind. -/
theorem Followed.answered {hello rest heard : Bytes} {c : Connection κ} (size : hello.length = kClientHandshakeSize)
    (followed : Followed (hello ++ rest) c heard) : Answered (verdict hello) c := by
  by_cases stage : c.inlet.receiveStage = .handshake
  · have few := followed.waits stage
    rw [followed.whole (followed.greeted.opening stage).2.2.waiting.1, List.length_append, size] at few
    exact absurd few (Nat.not_lt.mpr (Nat.le_add_right _ _))
  · obtain ⟨enough, answered⟩ := followed.greeted.past stage
    obtain ⟨behind, split⟩ := followed.beginning
    have same : verdict heard = verdict hello := by
      rw [← verdict_append enough behind, split, verdict_append (Nat.le_of_eq size.symm)]
    rw [← same]
    exact answered

def Known (handshake : ClientHandshake) : Prop :=
  handshake.protocol = kProtocolTrTp ∨ handshake.protocol = kProtocolNick

instance (handshake : ClientHandshake) : Decidable (Known handshake) := inferInstanceAs (Decidable (_ ∨ _))

theorem verdict_handshake {hello : Bytes} (size : hello.length = kClientHandshakeSize) :
    verdict hello =
      if Known (decodeClientHandshake hello) then
        if (decodeClientHandshake hello).version = 1 then .accepted else .incompatible
      else .refused := by
  rw [verdict, if_neg (Nat.not_lt.mpr (Nat.le_of_eq size.symm)), List.take_of_length_le (Nat.le_of_eq size),
    validateClientHandshake]
  generalize decodeClientHandshake hello = handshake
  by_cases known : Known handshake
  · have tagged : ¬ (handshake.protocol ≠ kProtocolTrTp ∧ handshake.protocol ≠ kProtocolNick) :=
      fun neither => known.elim neither.1 neither.2
    rw [if_pos known, if_neg tagged, kProtocolVersion]
    by_cases version : handshake.version = 1
    · rw [if_pos version, if_neg (not_not.mpr version)]
    · rw [if_neg version, if_pos version]
  · rw [if_neg known, if_pos (not_or.mp known)]

/-- A server's answer to a handshake, under any schedule: it establishes with nothing but the
accept reply, and ends only by its receive policy; or it closes, and ends only when the whole
reject reply is out; or it ends at once and says nothing. -/
theorem handshake_outcomes {events : ConnectionEvents κ} (passive : Passive events) (config : ConnectionConfig)
    (hooks : κ) {arguments : Connection.Start} (shown : arguments.socket.isOpen = true) {hello rest : Bytes}
    (size : hello.length = kClientHandshakeSize) {ops : List (Connection.Op κ)} (calm : ∀ op ∈ ops, Calm op)
    (offered : ops.flatMap offers = hello ++ rest) :
    let handshake := decodeClientHandshake hello
    let c := Connection.started events .server config hooks arguments ops
    let sent := sentBytes c.endpoint.trace
    (Known handshake → handshake.version = 1 →
      ⟨.established, .onEstablished⟩ ∈ c.endpoint.trace ∧
      (c.endpoint.state = .established ∨ c.endpoint.state = .dead ∧ c.config.Refuses c.inlet.pendingHeader) ∧
      sent ++ c.endpoint.unsent = encodeServerHandshakeReply {} ∧
      (c.endpoint.sendQueue = [] ↔ sent = encodeServerHandshakeReply {})) ∧
    (Known handshake → handshake.version ≠ 1 →
      Silent c.endpoint.trace ∧ sent <+: encodeServerHandshakeReply { error := 1 } ∧
      (c.endpoint.state = .closing ∨ c.endpoint.state = .dead ∧ sent = encodeServerHandshakeReply { error := 1 })) ∧
    (¬ Known handshake → c.endpoint.state = .dead ∧ sent = [] ∧ Silent c.endpoint.trace) := by
  intro handshake c sent
  obtain ⟨heard, followed⟩ := run_followed passive calm (start_followed events config hooks shown)
  rw [List.nil_append, offered] at followed
  have answered : Answered (verdict hello) c := followed.answered size
  have whole : sent ++ c.endpoint.unsent = (verdict hello).reply := answered.said.written
  -- The reply is out exactly when nothing is queued.
  have sentAll (fresh : c.endpoint.Fresh) : c.endpoint.sendQueue = [] ↔ sent = (verdict hello).reply := by
    rw [← fresh.unsent_eq_nil, ← whole]
    exact List.self_eq_append_right.symm
  have settles := verdict_handshake size
  constructor
  · intro isKnown version
    rw [if_pos isKnown, if_pos version] at settles
    rw [settles] at answered whole sentAll
    refine ⟨answered.said.told rfl, ?_, whole, sentAll answered.said.fresh⟩
    by_cases dead : c.endpoint.state = .dead
    · cases answered.ended dead with
      | policy refuses => exact .inr ⟨dead, refuses⟩
    · exact .inl (answered.state dead)
  constructor
  · intro isKnown version
    rw [if_pos isKnown, if_neg version] at settles
    rw [settles] at answered whole sentAll
    refine ⟨answered.said.silent (by decide), ⟨_, whole⟩, ?_⟩
    by_cases dead : c.endpoint.state = .dead
    · cases answered.ended dead with
      | flushed empty => exact .inr ⟨dead, (sentAll answered.said.fresh).mp empty⟩
    · exact .inl (answered.state dead)
  · intro unknown
    rw [if_neg unknown] at settles
    rw [settles] at answered whole
    -- No state is left for a live connection that was refused.
    have dead : c.endpoint.state = .dead := by
      by_contra live
      exact live (answered.state live)
    exact ⟨dead, (List.append_eq_nil_iff.mp whole).1, answered.said.silent (by decide)⟩

def otherHello : Bytes := encodeClientHandshake { version := 2 }

theorem otherHello_fits : otherHello.length ≤ kScratchSize := by decide

def otherVersion : List (Connection.Op Unit) :=
  [.serviceReadable [.read ⟨otherHello, Connection.clientHandshake_ne_nil _, otherHello_fits⟩] [.accepted 3],
    .serviceReadable [.read Connection.clientHello] [], .serviceWritable [.accepted 5]]

theorem calm_otherVersion : ∀ op ∈ otherVersion, Calm op := by
  have benign (count : Nat) : ∀ answer ∈ [SendResult.accepted count], answer.Benign := by
    intro answer member
    rw [List.mem_singleton.mp member]
    trivial
  intro op member
  simp only [otherVersion, List.mem_cons, List.not_mem_nil, or_false] at member
  rcases member with rfl | rfl | rfl
  · exact .serviceReadable rfl (benign 3)
  · exact .serviceReadable rfl fun _ none => absurd none List.not_mem_nil
  · exact .serviceWritable (benign 5)

theorem handshake_outcomes_otherVersion :
    let c := Connection.started .silent .server {} () {} otherVersion
    c.endpoint.state = .closing ∨ c.endpoint.state = .dead ∧ sentBytes c.endpoint.trace = [84, 82, 84, 80, 0, 0, 0, 1] :=
  have size : otherHello.length = kClientHandshakeSize := rfl
  ((handshake_outcomes passive_silent {} () rfl size calm_otherVersion rfl).2.1 (by decide) (by decide)).2.2

end Slopline.Server
