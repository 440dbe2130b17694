import Slopline.Net.Lifecycle
import Slopline.Net.Receiving

/-! Public operations in any order, `start` among them.

`start` sets the state without looking at it. A connection that was used before and
died of its closed socket is alive again afterwards, its old sends still queued.
-/

set_option autoImplicit false

namespace Slopline.Net

open Protocol Library

variable {κ : Type}

namespace Connection

variable (events : ConnectionEvents κ)

inductive PublicOp (κ : Type) where
  | start (arguments : Start)
  | op (op : Op κ)

def PublicOp.isStart : PublicOp κ → Bool
  | .start _ => true
  | .op _ => false

def PublicOp.usesSocket : PublicOp κ → Bool
  | .op (.serviceReadable _ _) | .op (.call (.queueTransaction _ _)) | .op (.call (.queueKeepalive _)) => true
  | .op (.serviceWritable _) | .op (.call (.setCrypto _)) | .op (.call .close) | .start _ => false

def perform (c : Connection κ) : PublicOp κ → Connection κ
  | .start arguments => start events arguments c
  | .op op => step events c op

def session (ops : List (PublicOp κ)) (c : Connection κ) : Connection κ := ops.foldl (perform events) c

theorem session_append (first rest : List (PublicOp κ)) (c : Connection κ) :
    session events (first ++ rest) c = session events rest (session events first c) := List.foldl_append

theorem session_invariant (inv : Connection κ → Prop)
    (starts : ∀ c arguments, inv c → inv (Connection.start events arguments c))
    (steps : ∀ c op, inv c → inv (step events c op)) (ops : List (PublicOp κ)) {c : Connection κ} (holds : inv c) :
    inv (session events ops c) := by
  induction ops generalizing c with
  | nil => exact holds
  | cons op ops ih =>
    cases op with
    | start arguments => exact ih (starts c arguments holds)
    | op op => exact ih (steps c op holds)

def StartsOnce (ops : List (PublicOp κ)) : Prop := ops.countP PublicOp.isStart ≤ 1

instance (ops : List (PublicOp κ)) : Decidable (StartsOnce ops) := inferInstanceAs (Decidable (_ ≤ _))

/-- Dead is terminal, in a session of public operations on a fresh connection. -/
structure DeadIsTerminal (role : Role) (config : ConnectionConfig) (hooks : κ) (ops : List (PublicOp κ)) :
    Prop where
  stays : ∀ first middle rest, ops = first ++ middle ++ rest →
    (session events first (fresh role config hooks)).endpoint.state = .dead →
    (session events (first ++ middle) (fresh role config hooks)).endpoint.state = .dead
  closed_once : closings (session events ops (fresh role config hooks)).endpoint.trace ≤ 1
  /-- The bytes the socket given to `start` took begin with the handshake, or are a beginning of it. -/
  handshake_first : role = .client → ∀ before arguments after, ops = before ++ .start arguments :: after →
    ∃ added, (session events ops (fresh role config hooks)).endpoint.trace =
        (session events before (fresh role config hooks)).endpoint.trace ++ added ∧
      let handshake :=
        encodeClientHandshake (Client.clientHandshake arguments.subProtocol arguments.subVersion)
      sentBytes added <+: handshake ∨ handshake <+: sentBytes added

def UsedBeforeStart (ops : List (PublicOp κ)) : Prop :=
  ∃ before arguments after, ops = before ++ .start arguments :: after ∧ ∃ op ∈ before, op.usesSocket = true

structure Unstarted (role : Role) (c : Connection κ) : Prop where
  role : c.role = role
  idle : c.endpoint.state = .idle
  queue : c.endpoint.sendQueue = []
  socket : c.endpoint.socket.isOpen = false
  stage : c.inlet.receiveStage = .handshake

theorem fresh_unstarted (role : Role) (config : ConnectionConfig) (hooks : κ) :
    (fresh role config hooks).Unstarted role := by cases role <;> exact ⟨rfl, rfl, rfl, rfl, rfl⟩

theorem flushLoop_unstarted {e : Endpoint κ} (idle : e.state = .idle) (queue : e.sendQueue = [])
    (die : Endpoint κ → Endpoint κ) (answers : List SendResult) : Endpoint.flushLoop die answers e = e := by
  cases answers with
  | nil => rfl
  | cons answer answers => simp [Endpoint.flushLoop, Endpoint.sendStep, queue, idle]

theorem Unstarted.step {role : Role} {c : Connection κ} (unstarted : c.Unstarted role) {op : Op κ}
    (unused : PublicOp.usesSocket (.op op) = false) : (step events c op).Unstarted role := by
  cases op with
  | serviceReadable received answers => cases unused
  | serviceWritable answers =>
    have same : Endpoint.flushSends events answers c.endpoint = c.endpoint :=
      flushLoop_unstarted unstarted.idle unstarted.queue _ _
    simpa [Connection.step, serviceWritable, unstarted.idle, same] using unstarted
  | call request =>
    cases request with
    | queueTransaction outgoing answers => cases unused
    | queueKeepalive answers => cases unused
    | setCrypto crypto =>
      exact ⟨unstarted.role, unstarted.idle, unstarted.queue, unstarted.socket, unstarted.stage⟩
    | close => exact ⟨unstarted.role, unstarted.idle, unstarted.queue, rfl, unstarted.stage⟩

end Connection

theorem encodeOutgoing_wire_ne_nil (crypto : ConnectionCryptoHooks κ) (hooks : κ) (header : TransactionHeader)
    (data : Bytes) : (Endpoint.encodeOutgoing crypto hooks header data).1 ≠ [] := by
  have long : kTransactionHeaderSize ≤ (Endpoint.encodeOutgoing crypto hooks header data).1.length := by
    unfold Endpoint.encodeOutgoing
    split
    · simp [EncodeHook.length_header]
    · simp
  intro empty
  rw [empty] at long
  exact absurd long (by decide)

namespace Endpoint

theorem flushSendsWith_closed {die : Endpoint κ → Endpoint κ} {e : Endpoint κ} (answers : List SendResult)
    (queue : e.sendQueue ≠ []) (closed : e.socket.isOpen = false) : flushSendsWith die answers e = die e := by
  obtain ⟨pending, rest, queue⟩ := List.exists_cons_of_ne_nil queue
  have gives (answer : SendResult) : sendStep die answer e = .done (die e) := by
    simp only [sendStep, queue, Socket.send_closed closed]
  cases answers with
  | nil => simp only [flushSendsWith, List.nil_append, flushLoop, gives]
  | cons answer answers => simp only [flushSendsWith, List.cons_append, flushLoop, gives]

theorem queueTransaction_closed (events : ConnectionEvents κ) {e : Endpoint κ} (outgoing : Outgoing)
    (answers : List SendResult) (closed : e.socket.isOpen = false) :
    (queueTransactionWith (markDead events) outgoing answers e).state = .dead := by
  unfold queueTransactionWith
  have filled := encodeOutgoing_wire_ne_nil e.crypto e.hooks (outgoingHeader outgoing) outgoing.data
  dsimp only
  rw [flushSendsWith_closed answers]
  · exact markDead_dead events _
  · simp [queueBytes, filled]
  · simpa [queueBytes, filled, note] using closed

end Endpoint

namespace Connection

variable (events : ConnectionEvents κ)

theorem Unstarted.dies {role : Role} {c : Connection κ} (unstarted : c.Unstarted role) {op : Op κ}
    (used : PublicOp.usesSocket (.op op) = true) : (Connection.step events c op).endpoint.state = .dead := by
  cases op with
  | serviceReadable received answers =>
    rw [Connection.step, serviceReadable_closed events unstarted.socket]
    exact Endpoint.markDead_dead events _
  | serviceWritable answers => cases used
  | call request =>
    cases request with
    | queueTransaction outgoing answers =>
      exact Endpoint.queueTransaction_closed events outgoing answers unstarted.socket
    | queueKeepalive answers =>
      exact Endpoint.queueTransaction_closed events _ answers unstarted.socket
    | setCrypto crypto => cases used
    | close => cases used

theorem session_keeps (inv : Connection κ → Prop) (keeps : ∀ c op, inv c → inv (Connection.step events c op))
    {ops : List (PublicOp κ)} (started : ∀ op ∈ ops, op.isStart = false) {c : Connection κ} (holds : inv c) :
    inv (session events ops c) := by
  induction ops generalizing c with
  | nil => exact holds
  | cons op ops ih =>
    obtain ⟨first, rest⟩ := List.forall_mem_cons.mp started
    cases op with
    | start arguments => cases first
    | op op => exact ih rest (keeps c op holds)

theorem StartsOnce.split {before after : List (PublicOp κ)} {arguments : Start}
    (once : StartsOnce (before ++ .start arguments :: after)) :
    (∀ op ∈ before, op.isStart = false) ∧ ∀ op ∈ after, op.isStart = false := by
  simp only [StartsOnce, List.countP_append, List.countP_cons, PublicOp.isStart, if_true] at once
  have none {ops : List (PublicOp κ)} (zero : ops.countP PublicOp.isStart = 0) : ∀ op ∈ ops, op.isStart = false :=
    fun op member => Bool.eq_false_iff.mpr (List.countP_eq_zero.mp zero op member)
  exact ⟨none (by omega), none (by omega)⟩

theorem StartsOnce.cases {ops : List (PublicOp κ)} (once : StartsOnce ops) :
    (∀ op ∈ ops, op.isStart = false) ∨ ∃ before arguments after, ops = before ++ .start arguments :: after ∧
      (∀ op ∈ before, op.isStart = false) ∧ ∀ op ∈ after, op.isStart = false := by
  by_cases starts : ∃ op ∈ ops, op.isStart = true
  · obtain ⟨op, member, isStart⟩ := starts
    obtain ⟨before, after, rfl⟩ := List.append_of_mem member
    cases op with
    | start arguments => exact .inr ⟨before, arguments, after, rfl, once.split⟩
    | op op => cases isStart
  · exact .inl fun op member => Bool.eq_false_iff.mpr fun isStart => starts ⟨op, member, isStart⟩

theorem Unstarted.session {role : Role} {ops : List (PublicOp κ)} (started : ∀ op ∈ ops, op.isStart = false)
    (unused : ∀ op ∈ ops, op.usesSocket = false) {c : Connection κ} (unstarted : c.Unstarted role) :
    (session events ops c).Unstarted role := by
  induction ops generalizing c with
  | nil => exact unstarted
  | cons op ops ih =>
    obtain ⟨first, rest⟩ := List.forall_mem_cons.mp started
    obtain ⟨unusedFirst, unusedRest⟩ := List.forall_mem_cons.mp unused
    cases op with
    | start arguments => cases first
    | op op => exact ih rest unusedRest (unstarted.step events unusedFirst)

theorem Unstarted.session_dies {role : Role} {ops : List (PublicOp κ)}
    (started : ∀ op ∈ ops, op.isStart = false) (used : ∃ op ∈ ops, op.usesSocket = true) {c : Connection κ}
    (unstarted : c.Unstarted role) : (Connection.session events ops c).endpoint.state = .dead := by
  induction ops generalizing c with
  | nil => obtain ⟨_, member, _⟩ := used; cases member
  | cons op ops ih =>
    obtain ⟨first, rest⟩ := List.forall_mem_cons.mp started
    cases op with
    | start arguments => cases first
    | op op =>
      cases here : PublicOp.usesSocket (.op op) with
      | true =>
        exact session_keeps events (fun c => c.endpoint.state = .dead) (step_dead events) rest
          (unstarted.dies events here)
      | false =>
        obtain ⟨found, member, uses⟩ := used
        rcases List.mem_cons.mp member with rfl | later
        · rw [here] at uses
          cases uses
        · exact ih rest ⟨found, later, uses⟩ (unstarted.step events here)

theorem session_grows {ops : List (PublicOp κ)} (started : ∀ op ∈ ops, op.isStart = false) (c : Connection κ) :
    Endpoint.Grows c.endpoint (session events ops c).endpoint :=
  session_keeps events (fun c' => Endpoint.Grows c.endpoint c'.endpoint)
    (fun c' op grows => grows.trans (step_grows events c' op)) started ⟨List.prefix_rfl, List.prefix_rfl⟩

theorem not_usedBeforeStart {before after : List (PublicOp κ)} {arguments : Start}
    (unused : ¬ UsedBeforeStart (before ++ .start arguments :: after)) : ∀ op ∈ before, op.usesSocket = false :=
  fun op member => Bool.eq_false_iff.mpr fun used => unused ⟨before, arguments, after, rfl, op, member, used⟩

theorem Unstarted.start_written {c : Connection κ} (unstarted : c.Unstarted .client) (arguments : Start) :
    sentBytes c.endpoint.trace ++
        encodeClientHandshake (Client.clientHandshake arguments.subProtocol arguments.subVersion) <+:
      (Connection.start events arguments c).endpoint.written := by
  have filled := clientHandshake_ne_nil (Client.clientHandshake arguments.subProtocol arguments.subVersion)
  simp only [Connection.start, unstarted.role, Client.start]
  refine List.IsPrefix.trans ?_ (Endpoint.flushSends_later events _ _).written
  simp [Endpoint.written, Endpoint.queueBytes, filled, Endpoint.unsent, unstarted.queue]

theorem start_trace (arguments : Start) (c : Connection κ) :
    c.endpoint.trace <+: (Connection.start events arguments c).endpoint.trace := by
  cases role : c.role with
  | client =>
    simp only [Connection.start, role, Client.start]
    refine List.IsPrefix.trans ?_ ((Endpoint.queueBytes_later _ _).trans
      (Endpoint.flushSends_later events _ _)).grows.trace
    exact List.prefix_rfl
  | server => simp [Connection.start, role, Server.start]

/-- Starting a connection that died before kills it a second time or leaves it alive. -/
theorem start_again {c : Connection κ} (life : c.Lifecycle) (dead : c.endpoint.state = .dead) (arguments : Start)
    (stays : (Connection.start events arguments c).endpoint.state = .dead) :
    closings (Connection.start events arguments c).endpoint.trace = 2 := by
  have before := Phase.closings_of_follow life.follows
  cases role : c.role with
  | server => simp [Connection.start, role, Server.start] at stays
  | client =>
    simp only [Connection.start, role, Client.start] at stays ⊢
    obtain ⟨added, grown, quiet, _⟩ := ((Endpoint.queueBytes_later
      (encodeClientHandshake (Client.clientHandshake arguments.subProtocol arguments.subVersion))
      { c.endpoint with socket := arguments.socket, state := .awaitingHandshakeReply }).trans
      (Endpoint.flushSends_later events arguments.answers _)).trace
    have after := Phase.closings_of_follow quiet.follow
    rw [grown]
    simp only [stays, dead, ConnectionState.phase, if_true, reduceCtorEq, if_false, closings,
      List.countP_append, Nat.add_zero] at before after ⊢
    omega

section
variable {events} {role : Role} {config : ConnectionConfig} {hooks : κ} {ops : List (PublicOp κ)}

/-- Started again, a connection that died dies a second time, and says so, or is alive. -/
theorem UsedBeforeStart.revives (once : StartsOnce ops) (used : UsedBeforeStart ops) :
    ¬ DeadIsTerminal events role config hooks ops := by
  rintro ⟨stays, closed, _⟩
  obtain ⟨before, arguments, after, rfl, used⟩ := used
  obtain ⟨none, noneAfter⟩ := once.split
  have dead := (fresh_unstarted role config hooks).session_dies events none used
  have dead' := stays before [.start arguments] after (by simp) dead
  rw [session_append] at dead'
  have life := session_keeps events Lifecycle (step_lifecycle events) none (fresh_lifecycle role config hooks)
  have twice := start_again events life dead arguments dead'
  rw [session_append] at closed
  have more := (session_grows events noneAfter (Connection.start events arguments (session events before
    (fresh role config hooks)))).trace.sublist.countP_le (p := (·.event = .onClosed))
  simp only [closings] at twice closed
  exact absurd (Nat.le_trans more closed) (by omega)

theorem StartsOnce.stays_dead {first middle rest : List (PublicOp κ)} (once : StartsOnce (first ++ middle ++ rest))
    (unused : ¬ UsedBeforeStart (first ++ middle ++ rest))
    (dead : (session events first (fresh role config hooks)).endpoint.state = .dead) :
    (session events (first ++ middle) (fresh role config hooks)).endpoint.state = .dead := by
  by_cases none : ∀ op ∈ middle, op.isStart = false
  · rw [session_append]
    exact session_keeps events (fun c => c.endpoint.state = .dead) (step_dead events) none dead
  · obtain ⟨op, member, isStart⟩ : ∃ op ∈ middle, op.isStart = true := by simpa using none
    obtain ⟨inner, outer, rfl⟩ := List.append_of_mem member
    cases op with
    | op op => cases isStart
    | start arguments =>
      have shape : first ++ (inner ++ .start arguments :: outer) ++ rest =
          (first ++ inner) ++ .start arguments :: (outer ++ rest) := by simp
      rw [shape] at once unused
      have idle := ((fresh_unstarted role config hooks).session events
        (fun op member => once.split.1 op (List.mem_append_left _ member))
        (fun op member => not_usedBeforeStart unused op (List.mem_append_left _ member))).idle
      rw [idle] at dead
      cases dead

theorem StartsOnce.lifecycle (once : StartsOnce ops) (unused : ¬ UsedBeforeStart ops) :
    (session events ops (fresh role config hooks)).Lifecycle := by
  have life := fresh_lifecycle role config hooks
  rcases once.cases with none | ⟨before, arguments, after, rfl, none, noneAfter⟩
  · exact session_keeps events Lifecycle (step_lifecycle events) none life
  · have idle := (fresh_unstarted role config hooks).session events none (not_usedBeforeStart unused)
    rw [session_append]
    refine session_keeps events Lifecycle (step_lifecycle events) noneAfter ?_
    exact (session_keeps events Lifecycle (step_lifecycle events) none life).start events arguments
      (by rw [idle.idle]; rfl) idle.stage

theorem StartsOnce.writes_handshake {before after : List (PublicOp κ)} {arguments : Start}
    (once : StartsOnce (before ++ .start arguments :: after))
    (unused : ¬ UsedBeforeStart (before ++ .start arguments :: after)) :
    ∃ added, (session events (before ++ .start arguments :: after) (fresh .client config hooks)).endpoint.trace =
        (session events before (fresh .client config hooks)).endpoint.trace ++ added ∧
      let handshake := encodeClientHandshake (Client.clientHandshake arguments.subProtocol arguments.subVersion)
      sentBytes added <+: handshake ∨ handshake <+: sentBytes added := by
  obtain ⟨none, noneAfter⟩ := once.split
  have idle := (fresh_unstarted .client config hooks).session events none (not_usedBeforeStart unused)
  have grows := session_grows events noneAfter (Connection.start events arguments (session events before
    (fresh .client config hooks)))
  obtain ⟨added, grown⟩ := (start_trace events arguments _).trans grows.trace
  rw [session_append]
  refine ⟨added, grown.symm, ?_⟩
  have written := (idle.start_written events arguments).trans grows.written
  rw [Endpoint.written, ← grown, sentBytes_append, List.append_assoc, List.prefix_append_right_inj] at written
  exact (List.prefix_or_prefix_of_prefix written (List.prefix_append _ _)).symm

end

end Connection

/-- Dead is terminal exactly in the sessions that leave the socket alone until `start`. -/
theorem Connection.deadIsTerminal_iff (events : ConnectionEvents κ) (role : Role) (config : ConnectionConfig)
    (hooks : κ) (ops : List (PublicOp κ)) (once : StartsOnce ops) :
    DeadIsTerminal events role config hooks ops ↔ ¬ UsedBeforeStart ops := by
  constructor
  · intro terminal used
    exact used.revives once terminal
  · intro unused
    refine ⟨?_, ?_, ?_⟩
    · rintro first middle rest rfl dead
      exact once.stays_dead unused dead
    · exact (Phase.eventProtocol (once.lifecycle unused).follows).closed_once
    · rintro rfl before arguments after rfl
      exact once.writes_handshake unused

/-- Closing the idle connection before it starts does no harm. -/
theorem Connection.deadIsTerminal_close_start :
    DeadIsTerminal .silent .client {} () [.op (.call .close), .start {}] := by
  refine (deadIsTerminal_iff .silent .client {} () _ (by decide)).mpr ?_
  rintro ⟨before, arguments, after, same, op, member, used⟩
  have short := congrArg List.length same
  obtain ⟨head, rfl⟩ : ∃ head, before = [head] := by
    simp only [List.length_cons, List.length_nil, List.length_append] at short
    exact List.length_eq_one_iff.mp (by have := List.length_pos_of_mem member; omega)
  obtain rfl := List.mem_singleton.mp member
  simp only [List.singleton_append, List.cons.injEq] at same
  rw [← same.1] at used
  cases used

/-- A keepalive before `start` kills the idle connection, which `start` then revives. -/
theorem Connection.restart_revives :
    ¬ DeadIsTerminal .silent .client {} () [.op (.call (.queueKeepalive [])), .start {}] := by
  rintro ⟨stays, _, _⟩
  exact absurd (stays [.op (.call (.queueKeepalive []))] [.start {}] [] rfl (by decide)) (by decide)

end Slopline.Net
