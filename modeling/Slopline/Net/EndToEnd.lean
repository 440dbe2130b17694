import Slopline.Net.Conversation
import Mathlib.Logic.Function.Basic

/-! A client and a server joined by two pipes.

A step is an operation of one end on a working socket; what it reads is the front of
what its peer's socket took. Where each end decodes by the channel the other encodes by,
from the state the other starts in, the two stay in conversation whatever the order of the
steps. Ends without hooks are of this kind.
-/

set_option autoImplicit false

namespace Slopline.Net

open Protocol Library

variable {κ δ ρ : Type}

/-- What the two ends are made of. The sockets work and the callbacks only queue. -/
structure Setup (κ : Type) where
  config : Role → ConnectionConfig
  events : Role → ConnectionEvents κ
  hooks : Role → κ
  arguments : Connection.Start
  shown : arguments.socket.isOpen = true
  benign : ∀ answer ∈ arguments.answers, answer.Benign
  civil : ∀ role, (events role).Civil (config role.other)

/-- One end, and how much it has read of what the other's socket took. -/
structure Party (κ : Type) where
  connection : Connection κ
  received : Nat := 0

abbrev System (κ : Type) := Role → Party κ

def System.pipe (system : System κ) (party : Role) : Bytes :=
  (sentBytes (system party.other).connection.endpoint.trace).drop (system party).received

inductive Action where
  | queueTransaction (outgoing : Outgoing) (answers : List SendResult)
  | serviceReadable (received : List RecvResult) (answers : List SendResult)
  | serviceWritable (answers : List SendResult)

namespace Action

def op : Action → Connection.Op κ
  | queueTransaction outgoing answers => .call (.queueTransaction outgoing answers)
  | serviceReadable received answers => .serviceReadable received answers
  | serviceWritable answers => .serviceWritable answers

def takes : Action → Bytes
  | serviceReadable received _ => arriving received
  | queueTransaction _ _ | serviceWritable _ => []

/-- What the ends may do: a server queues once it is established, a pipe yields what
is in it and never ends, a socket takes bytes or makes its caller wait. -/
inductive Allowed (setup : Setup κ) (system : System κ) (party : Role) : Action → Prop where
  | queueTransaction {outgoing : Outgoing} {answers : List SendResult} :
      outgoing.Fits (setup.config party.other) →
      (party = .server → (system party).connection.endpoint.state = .established) →
      (∀ answer ∈ answers, answer.Benign) → Allowed setup system party (.queueTransaction outgoing answers)
  | serviceReadable {received : List RecvResult} {answers : List SendResult} :
      arriving received <+: system.pipe party → (ending received).survives = true →
      (∀ answer ∈ answers, answer.Benign) → Allowed setup system party (.serviceReadable received answers)
  | serviceWritable {answers : List SendResult} :
      (∀ answer ∈ answers, answer.Benign) → Allowed setup system party (.serviceWritable answers)

end Action

namespace System

/-- Both ends started, nothing serviced yet. -/
def initial (setup : Setup κ) : System κ := fun party =>
  { connection := Connection.start (setup.events party) setup.arguments
      (Connection.fresh party (setup.config party) (setup.hooks party)) }

def act (setup : Setup κ) (party : Role) (action : Action) (system : System κ) : System κ :=
  Function.update system party
    { connection := Connection.step (setup.events party) (system party).connection action.op
      received := (system party).received + action.takes.length }

inductive Reachable (setup : Setup κ) : System κ → Prop where
  | initial : Reachable setup (initial setup)
  | act {system : System κ} (party : Role) (action : Action) : Reachable setup system →
      action.Allowed setup system party → Reachable setup (system.act setup party action)

end System

namespace Connection

section

variable {arguments : Start} {events : ConnectionEvents κ} {c : Connection κ}

theorem step_past (c : Connection κ) (op : Op κ) (stage : c.inlet.receiveStage ≠ .handshake) :
    (step events c op).inlet.receiveStage ≠ .handshake :=
  step_invariant events (fun c => c.inlet.receiveStage ≠ .handshake) (fun _ _ past => past)
    (fun _ _ past _ => past) (fun _ _ _ _ _ move => move.leaves events) c op stage

variable (arguments) in
theorem step_said (op : Op κ) (role : (step events c op).role = c.role) :
    ∃ more extra, queuedOf (step events c op).endpoint.trace = queuedOf c.endpoint.trace ++ more ∧
      (step events c op).endpoint.written = c.endpoint.written ++ extra ∧
      (c.greeting arguments ≠ [] → (step events c op).greeting arguments = c.greeting arguments) := by
  obtain ⟨⟨added, trace⟩, ⟨extra, written⟩⟩ := step_grows events c op
  refine ⟨queuedOf added, extra, by rw [← trace, queuedOf_append], written.symm, fun greeted => ?_⟩
  cases roles : c.role with
  | client => simp [Connection.greeting, role, roles]
  | server =>
    have past : c.inlet.receiveStage ≠ .handshake := fun stage => greeted (by simp [Connection.greeting, roles, stage])
    simp [Connection.greeting, role, roles, past, step_past c op past]

end

end Connection

namespace System

section

variable {setup : Setup κ} {system : System κ} {party : Role}

theorem pipe_written (system : System κ) (party : Role) :
    system.pipe party <+:
      (system party.other).connection.endpoint.written.drop (system party).received := by
  rw [pipe, Endpoint.written, List.drop_append]
  exact List.prefix_append _ _

theorem takes_pipe {action : Action} (allowed : action.Allowed setup system party) :
    action.takes <+: system.pipe party := by
  cases allowed with
  | serviceReadable pending _ _ => exact pending
  | _ => exact List.nil_prefix

end

def Drained (system : System κ) : Prop :=
  ∀ party, system.pipe party = [] ∧ (system party).connection.endpoint.sendQueue = []

section

variable {setup : Setup κ} {crypto : Role → ConnectionCryptoHooks κ} {channel : Channel δ UInt8 UInt8}
  {roll : Role → ρ → UInt8 × ρ} (duplex : ∀ role, Duplex (crypto role) channel (roll role))

variable (setup) in
def firstVoice (party : Role) : Voice δ ρ := (duplex party).voice (setup.hooks party)

structure Coupled (setup : Setup κ) (system : System κ) (party : Role) : Prop where
  role : (system party).connection.role = party
  config : (system party).connection.config = setup.config party
  received : (system party).received ≤ (sentBytes (system party.other).connection.endpoint.trace).length
  rests : (system party).connection.inlet.inbound.length < (system party).connection.inlet.expectedBytes
  life : (system party).connection.Lifecycle
  converses : (system party).connection.Converses (duplex party) (firstVoice setup duplex party)
    (firstVoice setup duplex party.other) setup.arguments (setup.config party.other)
    ((system party.other).connection.greeting setup.arguments)
    (queuedOf (system party.other).connection.endpoint.trace)
    ((system party.other).connection.endpoint.written.drop (system party).received)

variable {duplex} {system : System κ} {party : Role}

theorem Coupled.acts (coupled : Coupled duplex setup system party) {action : Action}
    (allowed : action.Allowed setup system party) :
    let c := Connection.step (setup.events party) (system party).connection action.op
    (c.Converses (duplex party) (firstVoice setup duplex party) (firstVoice setup duplex party.other)
        setup.arguments (setup.config party.other) ((system party.other).connection.greeting setup.arguments)
        (queuedOf (system party.other).connection.endpoint.trace)
        ((system party.other).connection.endpoint.written.drop ((system party).received + action.takes.length)) ∧
      c.role = (system party).connection.role ∧ c.config = (system party).connection.config) ∧
      c.inlet.inbound.length < c.inlet.expectedBytes := by
  have usable := coupled.converses.speaker.usable
  -- What the action takes comes off the front of what the other end has written.
  obtain ⟨left, split⟩ := (takes_pipe allowed).trans (pipe_written system party)
  have converses := coupled.converses
  have rest := congrArg (List.drop action.takes.length) split
  rw [List.drop_left, List.drop_drop] at rest
  rw [← split, rest] at converses
  cases allowed with
  | @queueTransaction outgoing answers fits opened benign =>
    have speaks := Endpoint.queueTransactionWith_speaks (duplex party)
      (Endpoint.markDead (setup.events party)) fits benign usable
    refine ⟨⟨converses.speaks speaks fun server stage => ?_, rfl, rfl⟩, coupled.rests⟩
    exact absurd (opened (coupled.role.symm.trans server)) (coupled.life.opening stage)
  | @serviceReadable received answers pending survives benign =>
    have reads : Connection.step (setup.events party) (system party).connection
        (Action.serviceReadable received answers).op = Connection.parseInbound (setup.events party) answers
          ((system party).connection.feed (arriving received)) := by
      rw [Action.op, Connection.step, Connection.serviceReadable_open _ usable.alive usable.shown, if_pos survives]
    rw [reads]
    exact converses.feed.parse (setup.civil party) benign
  | @serviceWritable answers benign =>
    have writes : Connection.step (setup.events party) (system party).connection
        (Action.serviceWritable answers).op = { (system party).connection with
          endpoint := (system party).connection.endpoint.flushSends (setup.events party) answers } := by
      rw [Action.op, Connection.step, Connection.serviceWritable, if_neg usable.alive]
    rw [writes]
    exact ⟨⟨converses.speaks (Endpoint.flushSendsWith_speaks _ benign usable) fun _ _ => rfl, rfl, rfl⟩, coupled.rests⟩

theorem Coupled.hears (coupled : Coupled duplex setup system party) {c : Connection κ}
    (op : Connection.Op κ) (events : ConnectionEvents κ)
    (step : c = Connection.step events (system party.other).connection op)
    (before : (system party.other).connection.Speaker (duplex party.other)
      (firstVoice setup duplex party.other) setup.arguments (setup.config party))
    (after : c.Speaker (duplex party.other) (firstVoice setup duplex party.other) setup.arguments
      (setup.config party)) (role : c.role = party.other)
    (role' : (system party.other).connection.role = party.other) :
    (system party).connection.Converses (duplex party) (firstVoice setup duplex party)
      (firstVoice setup duplex party.other) setup.arguments (setup.config party.other) (c.greeting setup.arguments)
      (queuedOf c.endpoint.trace) (c.endpoint.written.drop (system party).received) := by
  subst step
  obtain ⟨more, extra, queued, written, once⟩ := Connection.step_said setup.arguments op (role.trans role'.symm)
  have sent : (system party).received ≤ (system party.other).connection.endpoint.written.length := by
    have sent := coupled.received
    rw [Endpoint.written, List.length_append]
    omega
  have said := after.written
  rw [written, before.written, queued] at said
  rw [written, List.drop_append_of_le_length sent, queued]
  refine coupled.converses.extend once said.symm ?_ ?_ <;> rw [← queued]
  · rw [coupled.config]
    exact after.fits
  · rw [coupled.role]
    exact after.greets role

theorem coupled_act (coupled : ∀ party, Coupled duplex setup system party) {action : Action}
    (allowed : action.Allowed setup system party) (end_ : Role) :
    Coupled duplex setup (system.act setup party action) end_ := by
  obtain ⟨⟨converses, role, config⟩, rests⟩ := (coupled party).acts allowed
  have acting : system.act setup party action party =
      { connection := Connection.step (setup.events party) (system party).connection action.op
        received := (system party).received + action.takes.length } := Function.update_self ..
  have waiting : system.act setup party action party.other = system party.other :=
    Function.update_of_ne party.other_ne ..
  -- Seen from the end that acts, and from the one that waits.
  by_cases same : end_ = party
  · subst same
    refine ⟨?_, ?_, ?_, ?_, ?_, ?_⟩ <;> rw [acting]
    · exact role.trans (coupled end_).role
    · exact config.trans (coupled end_).config
    · rw [waiting]
      have taken := (takes_pipe allowed).length_le
      have received := (coupled end_).received
      rw [pipe, List.length_drop] at taken
      dsimp only
      omega
    · exact rests
    · exact Connection.step_lifecycle _ _ _ (coupled end_).life
    · rw [waiting]
      exact converses
  · obtain rfl := Role.eq_other same
    refine ⟨?_, ?_, ?_, ?_, ?_, ?_⟩ <;> rw [waiting]
    · exact (coupled party.other).role
    · exact (coupled party.other).config
    · rw [Role.other_other, acting]
      obtain ⟨added, grown⟩ := (Connection.step_grows (setup.events party) (system party).connection action.op).trace
      have received := (coupled party.other).received
      rw [Role.other_other] at received
      rw [← grown, sentBytes_append, List.length_append]
      omega
    · exact (coupled party.other).rests
    · exact (coupled party.other).life
    · rw [Role.other_other, acting]
      have heard := (coupled party.other).hears action.op (setup.events party) rfl
      rw [Role.other_other] at heard
      have before := (coupled party).converses.speaker
      have after := converses.speaker
      exact heard before after (role.trans (coupled party).role) (coupled party).role

structure Opening (setup : Setup κ) (crypto : ConnectionCryptoHooks κ) (party : Role) (one : Party κ) : Prop where
  usable : one.connection.endpoint.Usable crypto
  hooks : one.connection.endpoint.hooks = setup.hooks party
  inlet : one.connection.inlet = { expectedBytes := party.handshakeSize }
  role : one.connection.role = party
  config : one.connection.config = setup.config party
  unread : one.received = 0
  unheard : dispatched one.connection.endpoint.trace = []
  unqueued : queuedOf one.connection.endpoint.trace = []
  written : one.connection.endpoint.written = one.connection.greeting setup.arguments
  life : one.connection.Lifecycle

theorem initial_opening (setup : Setup κ) (party : Role) : Opening setup {} party (initial setup party) := by
  have life := Connection.started_lifecycle (setup.events party) party (setup.config party) (setup.hooks party)
    setup.arguments []
  cases party with
  | client =>
    have idle : Endpoint.Usable {}
        { hooks := setup.hooks .client, socket := setup.arguments.socket, state := .awaitingHandshakeReply } :=
      ⟨setup.shown, by simp, by simp, rfl, by simp [Endpoint.Fresh]⟩
    have greeting := idle.queueBytes
      (encodeClientHandshake (Client.clientHandshake setup.arguments.subProtocol setup.arguments.subVersion))
    have trace := Endpoint.queueBytes_trace
      (encodeClientHandshake (Client.clientHandshake setup.arguments.subProtocol setup.arguments.subVersion))
      { hooks := setup.hooks .client, socket := setup.arguments.socket, state := .awaitingHandshakeReply }
    have speaks : Endpoint.Speaks Duplex.plain (setup.config .server) [] _ _ :=
      Endpoint.flushSendsWith_speaks (Endpoint.markDead (setup.events .client)) setup.benign greeting
    have hooks := Endpoint.flushSends_hooks (setup.events .client) setup.benign greeting.shown greeting.fresh
      greeting.staying
    exact
      { usable := speaks.usable greeting
        hooks := hooks.trans (Endpoint.queueBytes_equipment _ _).2
        inlet := rfl
        role := rfl
        config := rfl
        unread := rfl
        unheard := speaks.dispatched.trans (congrArg dispatched trace)
        unqueued := speaks.queued.trans (by rw [trace]; rfl)
        written := speaks.written.trans (by rw [Endpoint.written_queueBytes]; rfl)
        life }
  | server =>
    have idle : Endpoint.Usable {}
        { hooks := setup.hooks .server, socket := setup.arguments.socket, state := .awaitingHandshake } :=
      ⟨setup.shown, by simp, by simp, rfl, by simp [Endpoint.Fresh]⟩
    exact ⟨idle, rfl, rfl, rfl, rfl, rfl, rfl, rfl, rfl, life⟩

theorem Opening.speaker (opening : Opening setup (crypto party) party (system party)) (peer : ConnectionConfig) :
    (system party).connection.Speaker (duplex party) (firstVoice setup duplex party) setup.arguments peer where
  usable := opening.usable
  fits := by rw [opening.unqueued]; simp
  written := by rw [opening.unqueued, Voice.utters_nil, List.append_nil, opening.written]
  voice := by rw [opening.unqueued, Voice.after_nil, opening.hooks, firstVoice]
  quiet _ _ := opening.unqueued
  remote _ past := absurd (by rw [opening.inlet]) past

/-- Two ends just started are in conversation where each decodes from the state the other encodes from. -/
theorem coupled_opening (openings : ∀ party, Opening setup (crypto party) party (system party))
    (matched : ∀ role, (duplex role).receiving (setup.hooks role) = (firstVoice setup duplex role.other).lane)
    (party : Role) : Coupled duplex setup system party := by
  have opening := openings party
  have other := openings party.other
  have speaker : (system party.other).connection.Speaker (duplex party.other) (firstVoice setup duplex party.other)
      setup.arguments (setup.config party) := other.speaker _
  refine ⟨opening.role, opening.config, by simp [opening.unread], ?_, opening.life, ?_⟩
  · rw [opening.inlet]
    cases party <;> decide
  · refine ⟨opening.speaker _, ?_, by rw [other.unqueued]; simp, opening.role.symm ▸ speaker.greets other.role⟩
    have stage : (system party).connection.inlet.receiveStage = .handshake := by rw [opening.inlet]
    have place : (duplex party).receiving (system party).connection.endpoint.hooks =
        (firstVoice setup duplex party.other).lane := by rw [opening.hooks, matched]
    have heard : Connection.Hears channel (firstVoice setup duplex party.other).lane
        ((system party.other).connection.greeting setup.arguments)
        ((firstVoice setup duplex party.other).parts (queuedOf (system party.other).connection.endpoint.trace))
        (system party).connection (firstVoice setup duplex party.other).lane _ :=
      .handshake stage (by rw [opening.inlet, opening.role]) (by rw [opening.inlet]) opening.unheard
    have nothing : (system party).connection.inlet.inbound = [] := by rw [opening.inlet]
    rw [place, nothing, List.nil_append, opening.unread, List.drop_zero, speaker.written]
    exact heard

theorem Coupled.drained (coupled : ∀ party, Coupled duplex setup system party)
    (drained : system.Drained) (party : Role) :
    (system party).connection.endpoint.state = .established ∧
      dispatched (system party).connection.endpoint.trace =
        (firstVoice setup duplex party.other).parts (queuedOf (system party.other).connection.endpoint.trace) ∧
      (duplex party).receiving (system party).connection.endpoint.hooks =
        (duplex party.other).sending (system party.other).connection.endpoint.hooks := by
  have ready (party : Role) (greeted : (system party.other).connection.greeting setup.arguments ≠ []) :
      (system party).connection.endpoint.state = .established ∧
        dispatched (system party).connection.endpoint.trace =
          (firstVoice setup duplex party.other).parts (queuedOf (system party.other).connection.endpoint.trace) ∧
        (duplex party).receiving (system party).connection.endpoint.hooks =
          (duplex party.other).sending (system party.other).connection.endpoint.hooks := by
    have nothing : (system party.other).connection.endpoint.written.drop (system party).received = [] := by
      have piped : (sentBytes (system party.other).connection.endpoint.trace).drop (system party).received = [] :=
        (drained party).1
      rw [Endpoint.written, Endpoint.unsent, (drained party.other).2, List.flatMap_nil, List.append_nil, piped]
    have converses := (coupled party).converses
    rw [nothing] at converses
    obtain ⟨established, delivered, place⟩ := converses.drained greeted (coupled party).rests
    have voice := (coupled party.other).converses.speaker.voice
    exact ⟨established, delivered, place.trans (congrArg Voice.lane voice).symm⟩
  -- The client greets first, and the server's greeting is the reply to it.
  have server := ready .server (by
    rw [Connection.greeting, (coupled Role.server.other).role]
    exact Connection.clientHandshake_ne_nil _)
  cases party with
  | server => exact server
  | client =>
    have past : (system .server).connection.inlet.receiveStage ≠ .handshake := fun stage =>
      (coupled .server).life.opening stage server.1
    refine ready .client ?_
    rw [Connection.greeting, (coupled Role.client.other).role]
    simpa [Role.other, past] using Connection.serverHandshakeReply_ne_nil _

/-- Hooks that match keep both ends alive and deliver in order, whatever the order of the steps. -/
theorem Coupled.sound (coupled : ∀ party, Coupled duplex setup system party) (party : Role) :
    let c := (system party).connection
    let parts := (firstVoice setup duplex party.other).parts (queuedOf (system party.other).connection.endpoint.trace)
    (c.endpoint.state ≠ .dead ∧ closings c.endpoint.trace = 0 ∧ establishments c.endpoint.trace ≤ 1) ∧
      dispatched c.endpoint.trace <+: parts ∧
      (system.Drained → dispatched c.endpoint.trace = parts ∧ establishments c.endpoint.trace = 1 ∧
        (duplex party).receiving c.endpoint.hooks =
          (duplex party.other).sending (system party.other).connection.endpoint.hooks) := by
  intro c parts
  have life := (coupled party).life.follows
  have alive := (coupled party).converses.speaker.usable.alive
  have once : establishments c.endpoint.trace ≤ 1 := by simpa using Phase.establishments_of_follow life
  refine ⟨⟨alive, ?_, once⟩, (coupled party).converses.delivered, fun drained => ?_⟩
  · have count := Phase.closings_of_follow life
    simpa [ConnectionState.phase_eq_ended, alive] using count
  · obtain ⟨established, delivered, place⟩ := Coupled.drained coupled drained party
    refine ⟨delivered, Nat.le_antisymm once ?_, place⟩
    rw [ConnectionState.phase_eq_running.mpr established] at life
    obtain ⟨entry, member, event⟩ := (Phase.running_of_follow life).resolve_left (by simp)
    exact List.countP_pos_iff.mpr ⟨entry, member, by simpa using event⟩

end

/-- Without hooks the ends are coupled at all times. -/
theorem coupled_reachable {setup : Setup κ} {system : System κ} (reachable : Reachable setup system) :
    ∀ party, Coupled (fun _ => Duplex.plain) setup system party := by
  induction reachable with
  | initial => exact coupled_opening (initial_opening setup) fun _ => rfl
  | act party action _ allowed ih => exact coupled_act ih allowed

/-- Whatever the order of the steps, neither end dies, each hears the first of what the
other queued, and all of it once nothing is on its way. -/
theorem end_to_end (setup : Setup κ) {system : System κ} (reachable : Reachable setup system) (party : Role) :
    let c := (system party).connection
    let queued := queuedOf (system party.other).connection.endpoint.trace
    (c.endpoint.state ≠ .dead ∧ closings c.endpoint.trace = 0 ∧ establishments c.endpoint.trace ≤ 1) ∧
      (dispatched c.endpoint.trace <+: queued.map Outgoing.transaction ∧
        ∀ outgoing ∈ queued, outgoing.transaction.header.totalSize.toNat = outgoing.data.length ∧
          outgoing.transaction.header.dataSize.toNat = outgoing.data.length) ∧
      (party = .server → c.endpoint.state = .established →
        c.remoteSubProtocol = setup.arguments.subProtocol ∧ c.remoteVersion = setup.arguments.subVersion) ∧
      (system.Drained → dispatched c.endpoint.trace = queued.map Outgoing.transaction ∧
        c.endpoint.state = .established ∧ establishments c.endpoint.trace = 1) := by
  intro c queued
  have all := coupled_reachable reachable
  have coupled := all party
  obtain ⟨lives, delivered, drains⟩ := Coupled.sound all party
  rw [firstVoice, Duplex.plain_parts] at delivered drains
  refine ⟨lives, ⟨delivered, fun outgoing member => (coupled.converses.fits outgoing member).sizes⟩, ?_, ?_⟩
  · intro server established
    exact coupled.converses.speaker.remote (coupled.role.trans server) fun stage =>
      coupled.life.opening stage established
  · intro drained
    obtain ⟨everything, once, -⟩ := drains drained
    exact ⟨everything, (Coupled.drained all drained party).1, once⟩

/-- A client and a server with nothing to say of their own. -/
def exchange : Setup Unit where
  config _ := {}
  events _ := .silent
  hooks _ := ()
  arguments := { answers := [.accepted 5, .error .wouldBlock] }
  shown := rfl
  benign := by decide
  civil _ := civil_silent _

def readOnce (bytes : Bytes) (nonempty : bytes ≠ []) (fits : bytes.length ≤ kScratchSize) : Action :=
  .serviceReadable [.read { bytes, nonempty, fits }] [.accepted kServerHandshakeReplySize]

def hello : Bytes := encodeClientHandshake (Client.clientHandshake kSubProtocolHotl kClientSubVersion)

def request : Outgoing := { type := 107, id := 1, data := [1, 2, 3] }

def exchanged : System Unit :=
  (initial exchange).act exchange .client (.queueTransaction request [])
    |>.act exchange .server (readOnce (hello.take 5) (by decide) (by decide))
    |>.act exchange .client (.serviceWritable [.accepted 7, .accepted 23])
    |>.act exchange .server (readOnce (hello.drop 5 ++ request.wire) (by decide) (by decide))
    |>.act exchange .client
      (readOnce (encodeServerHandshakeReply Server.acceptReply) (by decide) (by decide))

theorem exchanged_reachable : Reachable exchange exchanged := by
  refine .act _ _ (.act _ _ (.act _ _ (.act _ _ (.act _ _ .initial ?queues) ?first) ?writes) ?second) ?reply
  case queues => exact .queueTransaction ⟨by decide, by decide⟩ nofun (by decide)
  case first => exact .serviceReadable (by decide +kernel) rfl (by decide)
  case writes => exact .serviceWritable (by decide)
  case second => exact .serviceReadable (by decide +kernel) rfl (by decide)
  case reply => exact .serviceReadable (by decide +kernel) rfl (by decide)

theorem end_to_end_exchanged :
    dispatched (exchanged .server).connection.endpoint.trace = [request.transaction] ∧
      establishments (exchanged .client).connection.endpoint.trace = 1 := by
  have drained : exchanged.Drained := fun party => by cases party <;> decide +kernel
  obtain ⟨delivered, -⟩ := (end_to_end exchange exchanged_reachable .server).2.2.2 drained
  obtain ⟨-, -, once⟩ := (end_to_end exchange exchanged_reachable .client).2.2.2 drained
  exact ⟨delivered.trans (by decide +kernel), once⟩

end System

end Slopline.Net
