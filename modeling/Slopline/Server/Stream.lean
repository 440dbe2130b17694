import Slopline.Net.SendQueue
import Slopline.Server.Greeting

/-! What a server's socket takes.

The handshake reply and the application's transactions share one send queue, and nothing keeps
a transaction from it while the server still waits for the handshake. So what is queued early
goes out before the reply, in front of it.
-/

set_option autoImplicit false

namespace Slopline.Server

open Protocol Library Net

variable {κ : Type}

/-- The transactions that were queued in some states, as they were handed over. -/
def queuedWhile (during : ConnectionState → Bool) (trace : List Entry) : Bytes :=
  (queuedWires (trace.filter fun entry => during entry.state)).flatten

@[simp] theorem queuedWhile_nil (during : ConnectionState → Bool) : queuedWhile during [] = [] := rfl

@[simp] theorem queuedWhile_append (during : ConnectionState → Bool) (first rest : List Entry) :
    queuedWhile during (first ++ rest) = queuedWhile during first ++ queuedWhile during rest := by
  simp [queuedWhile]

theorem queuedWhile_in {during : ConnectionState → Bool} {entry : Entry} (here : during entry.state = true) :
    queuedWhile during [entry] = (queuedWires [entry]).flatten := by
  simp [queuedWhile, here]

theorem queuedWhile_out {during : ConnectionState → Bool} {entry : Entry} (elsewhere : during entry.state = false) :
    queuedWhile during [entry] = [] := by
  simp [queuedWhile, elsewhere]

theorem queuedWhile_eq_nil {during : ConnectionState → Bool} {trace : List Entry}
    (never : ∀ entry ∈ trace, ∀ outgoing wire, entry.event = .queued outgoing wire → during entry.state = false) :
    queuedWhile during trace = [] := by
  induction trace with
  | nil => rfl
  | cons entry trace ih =>
    obtain ⟨first, others⟩ := List.forall_mem_cons.mp never
    rw [← List.singleton_append, queuedWhile_append, ih others, List.append_nil]
    cases during : during entry.state with
    | false => exact queuedWhile_out during
    | true =>
      have other : queuedWires [entry] = [] := by
        apply queuedWires_other
        intro outgoing wire queued
        exact absurd (during.symm.trans (first outgoing wire queued)) (by decide)
      rw [queuedWhile_in during, other, List.flatten_nil]

theorem queuedWhile_eq_all {during : ConnectionState → Bool} {trace : List Entry}
    (always : ∀ entry ∈ trace, ∀ outgoing wire, entry.event = .queued outgoing wire → during entry.state = true) :
    queuedWhile during trace = (queuedWires trace).flatten := by
  induction trace with
  | nil => rfl
  | cons entry trace ih =>
    obtain ⟨first, others⟩ := List.forall_mem_cons.mp always
    rw [← List.singleton_append, queuedWhile_append, ih others, queuedWires_append, List.flatten_append]
    congr 1
    cases during : during entry.state with
    | true => exact queuedWhile_in during
    | false =>
      have other : queuedWires [entry] = [] := by
        apply queuedWires_other
        intro outgoing wire queued
        exact absurd (during.symm.trans (first outgoing wire queued)) (by decide)
      rw [queuedWhile_out during, other, List.flatten_nil]

def early (state : ConnectionState) : Bool := state = .awaitingHandshake

def Verdict.late : Verdict → ConnectionState → Bool
  | .waiting, _ | .refused, _ => false
  | .incompatible, state => state = .closing
  | .accepted, state => state ≠ .awaitingHandshake

def speech (v : Verdict) (trace : List Entry) : Bytes :=
  queuedWhile early trace ++ v.reply ++ queuedWhile v.late trace

theorem speech_waiting (trace : List Entry) : speech .waiting trace = queuedWhile early trace := by
  have none : queuedWhile Verdict.waiting.late trace = [] := queuedWhile_eq_nil fun _ _ _ _ _ => rfl
  rw [speech, none, Verdict.reply, List.append_nil, List.append_nil]

theorem speech_refused (trace : List Entry) : speech .refused trace = queuedWhile early trace :=
  speech_waiting trace

theorem speech_begins (v : Verdict) (trace : List Entry) : speech .waiting trace <+: speech v trace := by
  rw [speech_waiting, speech, List.append_assoc]
  exact List.prefix_append _ _

/-- What a live server queues goes behind all that it had to say. -/
theorem speech_live {v : Verdict} {entry : Entry} (live : entry.state ≠ .dead) (state : entry.state = v.state)
    (trace : List Entry) : speech v (trace ++ [entry]) = speech v trace ++ (queuedWires [entry]).flatten := by
  simp only [speech, queuedWhile_append]
  cases v with
  | waiting =>
    have out : queuedWhile Verdict.waiting.late [entry] = [] := queuedWhile_out rfl
    have in_ : queuedWhile early [entry] = (queuedWires [entry]).flatten :=
      queuedWhile_in (by simp [early, state, Verdict.state])
    have none : queuedWhile Verdict.waiting.late trace = [] := queuedWhile_eq_nil fun _ _ _ _ _ => rfl
    simp [out, in_, none, Verdict.reply]
  | refused => exact absurd state live
  | incompatible =>
    have out : queuedWhile early [entry] = [] := queuedWhile_out (by simp [early, state, Verdict.state])
    have in_ : queuedWhile Verdict.incompatible.late [entry] = (queuedWires [entry]).flatten :=
      queuedWhile_in (by simp [Verdict.late, state, Verdict.state])
    simp [out, in_]
  | accepted =>
    have out : queuedWhile early [entry] = [] := queuedWhile_out (by simp [early, state, Verdict.state])
    have in_ : queuedWhile Verdict.accepted.late [entry] = (queuedWires [entry]).flatten :=
      queuedWhile_in (by simp [Verdict.late, state, Verdict.state])
    simp [out, in_]

theorem speech_dead {v : Verdict} {entry : Entry} (dead : entry.state = .dead) (trace : List Entry) :
    speech v trace <+: speech v (trace ++ [entry]) := by
  have out : queuedWhile early [entry] = [] := queuedWhile_out (by simp [early, dead])
  simp only [speech, queuedWhile_append, out, List.append_nil]
  rw [← List.append_assoc]
  exact List.prefix_append _ _

structure Spoken (v : Verdict) (e : Endpoint κ) : Prop where
  state : e.state ≠ .dead → e.state = v.state
  written : e.state ≠ .dead → e.written = speech v e.trace
  opening : e.state ≠ .dead → v = .waiting → ∀ entry ∈ e.trace, entry.state = .awaitingHandshake
  shut : e.state = .dead → e.socket.isOpen = false
  cut : e.state = .dead → sentBytes e.trace <+: speech v e.trace

namespace Spoken

variable {v : Verdict} {e e' : Endpoint κ}

theorem sent (spoken : Spoken v e) : sentBytes e.trace <+: speech v e.trace := by
  by_cases dead : e.state = .dead
  · exact spoken.cut dead
  · rw [← spoken.written dead]
    exact List.prefix_append _ _

theorem same (spoken : Spoken v e) (trace : e'.trace = e.trace) (state : e'.state = e.state)
    (socket : e'.socket = e.socket) (queue : e'.sendQueue = e.sendQueue) : Spoken v e' := by
  have written : e'.written = e.written := by rw [Endpoint.written, Endpoint.unsent, trace, queue]; rfl
  constructor
  · rw [state]
    exact spoken.state
  · rw [state, written, trace]
    exact spoken.written
  · rw [state, trace]
    exact spoken.opening
  · rw [state, socket]
    exact spoken.shut
  · rw [state, trace]
    exact spoken.cut

theorem rehook (spoken : Spoken v e) (hooks : κ) : Spoken v { e with hooks } := spoken.same rfl rfl rfl rfl

theorem entry (spoken : Spoken v e) (event : Event) (trace : e'.trace = e.trace ++ [⟨e.state, event⟩])
    (state : e'.state = e.state) (socket : e.socket.isOpen = false → e'.socket.isOpen = false)
    (written : e'.written = e.written ++ (queuedWires [⟨e.state, event⟩]).flatten)
    (silent : e.state = .dead → sentBytes [⟨e.state, event⟩] = []) : Spoken v e' := by
  constructor
  · rw [state]
    exact spoken.state
  · intro live
    rw [state] at live
    rw [written, trace, spoken.written live]
    exact (speech_live live (spoken.state live) e.trace).symm
  · intro live waiting
    rw [state] at live
    rw [trace]
    intro entry member
    cases List.mem_append.mp member with
    | inl before => exact spoken.opening live waiting entry before
    | inr new =>
      rw [List.mem_singleton.mp new, spoken.state live, waiting]
      rfl
  · intro dead
    rw [state] at dead
    exact socket (spoken.shut dead)
  · intro dead
    rw [state] at dead
    rw [trace, sentBytes_append, silent dead, List.append_nil]
    exact (spoken.cut dead).trans (speech_dead dead e.trace)

theorem note (spoken : Spoken v e) {event : Event} (queues : ∀ outgoing wire, event ≠ .queued outgoing wire)
    (sends : ∀ bytes, event ≠ .sent bytes) : Spoken v (e.note event) := by
  apply spoken.entry event
  · rfl
  · rfl
  · exact id
  · rw [queuedWires_other _ queues, List.flatten_nil, List.append_nil]
    simp [Endpoint.written, Endpoint.note, Endpoint.unsent, sentBytes_other _ sends]
  · exact fun _ => sentBytes_other _ sends

theorem act (act : Endpoint.Act e e') (spoken : Spoken v e) : Spoken v e' := by
  cases act with
  | @takes pending rest count queue shown =>
    apply spoken.entry (.sent ((pending.bytes.drop pending.offset).take count))
    · rfl
    · rfl
    · exact id
    · rw [Endpoint.written_take queue, queuedWires_other _ (by simp), List.flatten_nil, List.append_nil]
    -- A socket that takes bytes is open.
    · intro dead
      exact absurd (shown.symm.trans (spoken.shut dead)) (by decide)
  | queues outgoing wire hooks =>
    have spoken' : Spoken v ((({ e with hooks } : Endpoint κ).note (.queued outgoing wire)).queueBytes wire) := by
      apply spoken.entry (.queued outgoing wire)
      · exact Endpoint.queueBytes_trace wire _
      · exact Endpoint.queueBytes_state wire _
      · intro shut
        rw [Endpoint.queueBytes_socket]
        exact shut
      · rw [Endpoint.written_queueBytes, queuedWires_queued, List.flatten_singleton]
        simp [Endpoint.written, Endpoint.note, Endpoint.unsent, sentBytes_other]
      · intro _
        exact sentBytes_other _ (by simp)
    exact spoken'
  | setCrypto crypto => exact spoken.same rfl rfl rfl rfl
  | close =>
    have noted : Spoken v (e.note .closeCalled) := spoken.note (by simp) (by simp)
    exact ⟨noted.state, noted.written, noted.opening, fun _ => rfl, noted.cut⟩
  | dies live =>
    -- Dead, it has said a beginning of its speech, and says no more.
    constructor
    · exact fun alive => absurd rfl alive
    · exact fun alive => absurd rfl alive
    · exact fun alive => absurd rfl alive
    · exact fun _ => rfl
    · intro _
      have taken : sentBytes e.trace <+: speech v e.trace := spoken.sent
      have other : sentBytes [⟨.dead, .onClosed⟩] = [] := sentBytes_other _ (by simp)
      simp only [Endpoint.note, sentBytes_append, other, List.append_nil]
      exact taken.trans (speech_dead rfl e.trace)

theorem acts (acts : Endpoint.Acts e e') (spoken : Spoken v e) : Spoken v e' :=
  acts.invariant Spoken.act spoken

theorem reply (spoken : Spoken .waiting e) (live : e.state ≠ .dead) (v : Verdict) :
    (e.queueBytes v.reply).written = speech v e.trace := by
  have none : queuedWhile v.late e.trace = [] := by
    apply queuedWhile_eq_nil
    intro entry member outgoing wire _
    rw [spoken.opening live rfl entry member]
    cases v <;> rfl
  rw [Endpoint.written_queueBytes, spoken.written live, speech_waiting, speech, none, List.append_nil]

theorem replied (spoken : Spoken .waiting e) (live : e.state ≠ .dead) {v : Verdict} (goesOn : v.state ≠ .dead)
    (settled : v ≠ .waiting) : Spoken v { e.queueBytes v.reply with state := v.state } := by
  constructor
  · exact fun _ => rfl
  · intro _
    have written := spoken.reply live v
    rw [← Endpoint.queueBytes_trace v.reply e] at written
    exact written
  · exact fun _ waiting => absurd waiting settled
  · exact fun dead => absurd dead goesOn
  · exact fun dead => absurd dead goesOn

theorem answer (spoken : Spoken .waiting e) (live : e.state ≠ .dead) (events : ConnectionEvents κ)
    (answers : List SendResult) {v : Verdict} (settled : v ≠ .waiting) : Spoken v (v.answer events answers e) := by
  cases v with
  | waiting => exact absurd rfl settled
  | refused =>
    have died := spoken.acts (Endpoint.markDead_acts events e)
    have dead : (e.markDead events).state = .dead := Endpoint.markDead_dead events e
    constructor
    · exact fun alive => absurd dead alive
    · exact fun alive => absurd dead alive
    · exact fun alive => absurd dead alive
    · exact died.shut
    · intro _
      rw [speech_refused, ← speech_waiting]
      exact died.cut dead
  | incompatible =>
    have closing := spoken.replied live (v := .incompatible) (by decide) (by decide)
    exact closing.acts (Endpoint.flushSends_acts events answers _)
  | accepted =>
    have opened := spoken.replied live (v := .accepted) (by decide) (by decide)
    have told : Spoken .accepted
        (({ e.queueBytes (Verdict.reply .accepted) with state := .established } : Endpoint κ).note .onEstablished) :=
      opened.note (by simp) (by simp)
    exact (told.acts (Endpoint.calls_acts events _ _)).acts (Endpoint.flushSends_acts events answers _)

theorem deliver (spoken : Spoken v e) (events : ConnectionEvents κ) (completed : Option ReceivedTransaction)
    (hooks : κ) : Spoken v (e.deliver events completed hooks) := by
  cases completed with
  | none => exact spoken.rehook hooks
  | some transaction =>
    have told : Spoken v (({ e with hooks } : Endpoint κ).note (.onTransaction transaction)) :=
      (spoken.rehook hooks).note (by simp) (by simp)
    exact told.acts (Endpoint.calls_acts events _ _)

end Spoken

/-! Runs. -/

abbrev Speaking (v : Verdict) (c : Connection κ) : Prop := Spoken v c.endpoint

theorem speaking_rounds (events : ConnectionEvents κ) (answers : List SendResult) :
    Rounds events answers (Speaking (κ := κ)) where
  handshake spoken waiting settled _ same := by
    rw [Speaking, same]
    exact spoken.answer waiting.1 events answers settled
  header spoken _ _ _ same := by
    rw [Speaking, same]
    exact spoken.rehook _
  refused spoken _ _ _ same := by
    rw [Speaking, same]
    exact (spoken.rehook _).acts (Endpoint.markDead_acts events _)
  data spoken _ _ _ same := by
    rw [Speaking, same]
    exact spoken.deliver events _ _

section
variable (events : ConnectionEvents κ)

theorem step_speaking {heard : Bytes} {c : Connection κ} (greeted : Greeted Speaking heard c) (op : Connection.Op κ) :
    Greeted Speaking (heard ++ hears c op) (Connection.step events c op) := by
  cases op with
  | serviceReadable received answers =>
    simp only [Connection.step, hears]
    by_cases dead : c.endpoint.state = .dead
    · rw [if_pos (.inl dead), List.append_nil, Connection.serviceReadable, if_pos dead]
      exact greeted
    -- A shut socket cannot be read, which ends the connection.
    cases shown : c.endpoint.socket.isOpen with
    | false =>
      rw [if_pos (.inr rfl), List.append_nil, Connection.serviceReadable_closed events shown]
      exact greeted.endpoint fun spoken => spoken.acts (Endpoint.markDead_acts events _)
    | true =>
      rw [if_neg (by simp [dead]), Connection.serviceReadable_open events dead shown]
      have fed := greeted.feed (fun _ spoken => spoken) (arriving received)
      split
      · exact fed.parse (speaking_rounds events answers)
      · exact fed.endpoint fun spoken => spoken.acts (Endpoint.markDead_acts events _)
  | serviceWritable answers =>
    simp only [Connection.step, Connection.serviceWritable, hears, List.append_nil]
    split
    · exact greeted
    · exact greeted.endpoint fun spoken => spoken.acts (Endpoint.flushSends_acts events answers _)
  | call request =>
    simp only [Connection.step, Connection.call, hears, List.append_nil]
    exact greeted.endpoint fun spoken => spoken.acts (Endpoint.call_acts events _ request)

theorem run_speaking (ops : List (Connection.Op κ)) {heard : Bytes} {c : Connection κ}
    (greeted : Greeted Speaking heard c) :
    Greeted Speaking (heard ++ heardBy events ops c) (Connection.run events ops c) := by
  induction ops generalizing heard c with
  | nil => simpa [heardBy, Connection.run] using greeted
  | cons op ops ih =>
    rw [heardBy, ← List.append_assoc]
    exact ih (step_speaking events greeted op)

theorem start_speaking (config : ConnectionConfig) (hooks : κ) (arguments : Connection.Start) :
    Greeted Speaking [] (Connection.start events arguments (Connection.fresh .server config hooks)) where
  role := rfl
  opening _ := by
    refine ⟨rfl, rfl, fun _ => rfl, fun _ => ?_, fun _ _ entry member => ?_, ?_, ?_⟩
    · rfl
    · exact absurd member List.not_mem_nil
    · exact fun dead => ConnectionState.noConfusion dead
    · exact fun dead => ConnectionState.noConfusion dead
  past stage := absurd rfl stage

end

/-- The reply comes first: what the socket takes begins with it, and there is nothing without. -/
def RepliesFirst (heard : Bytes) (trace : List Entry) : Prop :=
  match verdict heard with
  | .accepted => sentBytes trace <+: encodeServerHandshakeReply acceptReply ++ (queuedWires trace).flatten
  | .incompatible => sentBytes trace <+: encodeServerHandshakeReply rejectReply
  | .waiting | .refused => sentBytes trace = []

/-- Nothing is queued before the server has answered, or behind a reject reply. -/
def QueuesInTurn (trace : List Entry) : Prop :=
  ∀ entry ∈ trace, ∀ outgoing wire, entry.event = .queued outgoing wire →
    entry.state ≠ .awaitingHandshake ∧ entry.state ≠ .closing

theorem QueuesInTurn.speech {trace : List Entry} (turn : QueuesInTurn trace) {heard : Bytes}
    (said : sentBytes trace <+: speech (verdict heard) trace) : RepliesFirst heard trace := by
  have nothing : queuedWhile early trace = [] := by
    apply queuedWhile_eq_nil
    intro entry member outgoing wire queued
    exact decide_eq_false (turn entry member outgoing wire queued).1
  unfold RepliesFirst
  -- With nothing queued early, the reply stands in front of what was queued late.
  cases result : verdict heard with
  | waiting =>
    rw [result, speech_waiting, nothing] at said
    exact List.prefix_nil.mp said
  | refused =>
    rw [result, speech_refused, nothing] at said
    exact List.prefix_nil.mp said
  | incompatible =>
    have closing : queuedWhile Verdict.incompatible.late trace = [] := by
      apply queuedWhile_eq_nil
      intro entry member outgoing wire queued
      exact decide_eq_false (turn entry member outgoing wire queued).2
    rw [result, Server.speech, nothing, closing, List.nil_append, List.append_nil] at said
    exact said
  | accepted =>
    have all : queuedWhile Verdict.accepted.late trace = (queuedWires trace).flatten := by
      apply queuedWhile_eq_all
      intro entry member outgoing wire queued
      exact decide_eq_true (turn entry member outgoing wire queued).1
    rw [result, Server.speech, nothing, all, List.nil_append] at said
    exact said

/-- What a server's socket took is always the beginning of its speech: the transactions queued
while it waited, its reply, and what was queued behind it. With every transaction in its turn
the reply comes first. -/
theorem started_speech (events : ConnectionEvents κ) (config : ConnectionConfig) (hooks : κ)
    (arguments : Connection.Start) (ops : List (Connection.Op κ)) :
    let c := Connection.start events arguments (Connection.fresh .server config hooks)
    let heard := heardBy events ops c
    let trace := (Connection.run events ops c).endpoint.trace
    sentBytes trace <+: speech (verdict heard) trace ∧ (QueuesInTurn trace → RepliesFirst heard trace) := by
  intro c heard trace
  have greeted : Greeted Speaking heard (Connection.run events ops c) :=
    run_speaking events ops (start_speaking events config hooks arguments)
  have said : sentBytes trace <+: speech (verdict heard) trace := by
    cases greeted.holds with
    | inl waiting => exact waiting.sent.trans (speech_begins (verdict heard) trace)
    | inr settled => exact settled.sent
  exact ⟨said, fun turn => turn.speech said⟩

/-- A keepalive before the handshake goes out at once. -/
theorem keepalive_early :
    let c := Connection.start .silent {} (Connection.fresh .server {} ())
    let ops : List (Connection.Op Unit) := [.call (.queueKeepalive [.accepted 22])]
    ¬ RepliesFirst (heardBy .silent ops c) (Connection.run .silent ops c).endpoint.trace := by
  intro c ops
  have heard : heardBy .silent ops c = [] := rfl
  have sent : sentBytes (Connection.run .silent ops c).endpoint.trace ≠ [] := by decide +kernel
  rw [heard]
  exact sent

end Slopline.Server
