import Slopline.Net.Moves

/-! The life of a connection as its callbacks see it.

A connection is opening, then running, then over. The trace is followed through
these phases, and every operation of a started connection keeps it on track.
-/

set_option autoImplicit false

namespace Slopline.Net

open Protocol Library

variable {κ : Type}

inductive Phase where
  | opening
  | running
  | ended
  deriving DecidableEq, Repr

def ConnectionState.phase : ConnectionState → Phase
  | .established => .running
  | .dead => .ended
  | .idle | .awaitingHandshakeReply | .awaitingHandshake | .closing => .opening

namespace Phase

/-- The phase an event leads to, where the event may happen. -/
def after : Phase → Event → Option Phase
  | phase, .queued _ _ | phase, .closeCalled | phase, .sent _ => some phase
  | .opening, .onEstablished => some .running
  | .running, .onTransaction _ => some .running
  | .opening, .onClosed | .running, .onClosed => some .ended
  | _, _ => none

theorem after_cases {phase next : Phase} {event : Event} (allowed : phase.after event = some next) :
    event.ordinary = true ∧ next = phase ∨ event = .onEstablished ∧ phase = .opening ∧ next = .running ∨
      (∃ transaction, event = .onTransaction transaction) ∧ phase = .running ∧ next = .running ∨
      event = .onClosed ∧ phase ≠ .ended ∧ next = .ended := by
  cases event <;> cases phase <;> cases allowed <;> simp [Event.ordinary]

def follow : Phase → List Entry → Option Phase
  | phase, [] => some phase
  | phase, entry :: rest =>
    if phase.after entry.event = some entry.state.phase then entry.state.phase.follow rest else none

theorem follow_append (phase : Phase) (first rest : List Entry) :
    phase.follow (first ++ rest) = (phase.follow first).bind fun middle => middle.follow rest := by
  induction first generalizing phase with
  | nil => rfl
  | cons entry first ih =>
    simp only [List.cons_append, follow]
    split
    · exact ih _
    · rfl

theorem follow_split {phase final : Phase} (before : List Entry) {after : List Entry} {entry : Entry}
    (follows : phase.follow (before ++ entry :: after) = some final) :
    ∃ middle, phase.follow before = some middle ∧ middle.after entry.event = some entry.state.phase ∧
      entry.state.phase.follow after = some final := by
  rw [follow_append] at follows
  obtain ⟨middle, first, rest⟩ := Option.bind_eq_some_iff.mp follows
  unfold follow at rest
  split at rest
  next allowed => exact ⟨middle, first, allowed, rest⟩
  next => cases rest

end Phase

def closings (trace : List Entry) : Nat := trace.countP (·.event = .onClosed)

def establishments (trace : List Entry) : Nat := trace.countP (·.event = .onEstablished)

theorem closings_cons (entry : Entry) (rest : List Entry) :
    closings (entry :: rest) = closings rest + if entry.event = .onClosed then 1 else 0 := by
  simp [closings, List.countP_cons]

theorem establishments_cons (entry : Entry) (rest : List Entry) :
    establishments (entry :: rest) = establishments rest + if entry.event = .onEstablished then 1 else 0 := by
  simp [establishments, List.countP_cons]

namespace Phase

theorem closings_of_follow {phase final : Phase} {trace : List Entry}
    (follows : phase.follow trace = some final) :
    closings trace + (if phase = .ended then 1 else 0) = if final = .ended then 1 else 0 := by
  induction trace generalizing phase with
  | nil => cases follows; simp [closings]
  | cons entry rest ih =>
    obtain ⟨_, first, allowed, tail⟩ := follow_split [] follows
    cases first
    rw [← ih tail, closings_cons]
    rcases after_cases allowed with ⟨ordinary, same⟩ | ⟨event, rfl, same⟩ | ⟨⟨_, event⟩, rfl, same⟩ | ⟨event, alive, same⟩
    · have other : entry.event ≠ .onClosed := fun event => by simp [event, Event.ordinary] at ordinary
      simp [same, other]
    · simp [same, event]
    · simp [same, event]
    · simp [same, event, alive]

theorem establishments_of_follow {phase final : Phase} {trace : List Entry}
    (follows : phase.follow trace = some final) :
    establishments trace + (if phase = .opening then 0 else 1) ≤ 1 := by
  induction trace generalizing phase with
  | nil => simp only [establishments, List.countP_nil]; split <;> simp
  | cons entry rest ih =>
    obtain ⟨_, first, allowed, tail⟩ := follow_split [] follows
    cases first
    have later := ih tail
    rw [establishments_cons]
    rcases after_cases allowed with ⟨ordinary, same⟩ | ⟨event, rfl, same⟩ | ⟨⟨_, event⟩, rfl, same⟩ | ⟨event, alive, same⟩
    · have other : entry.event ≠ .onEstablished := fun event => by simp [event, Event.ordinary] at ordinary
      simpa [same, other] using later
    · simpa [same, event] using later
    · simpa [same, event] using later
    · simp only [same, reduceCtorEq, reduceIte, event] at later ⊢
      split <;> omega

theorem running_of_follow {phase : Phase} {trace : List Entry} (follows : phase.follow trace = some .running) :
    phase = .running ∨ ∃ entry ∈ trace, entry.event = .onEstablished := by
  induction trace generalizing phase with
  | nil => cases follows; exact .inl rfl
  | cons entry rest ih =>
    obtain ⟨_, first, allowed, tail⟩ := follow_split [] follows
    cases first
    rcases ih tail with running | ⟨found, member, event⟩
    · rcases after_cases allowed with ⟨_, same⟩ | ⟨event, _, _⟩ | ⟨_, same, _⟩ | ⟨_, _, same⟩
      · exact .inl (same.symm.trans running)
      · exact .inr ⟨entry, List.mem_cons_self, event⟩
      · exact .inl same
      · rw [running] at same
        cases same
    · exact .inr ⟨found, List.mem_cons_of_mem _ member, event⟩

end Phase

theorem closings_pos {trace : List Entry} : 0 < closings trace ↔ ∃ entry ∈ trace, entry.event = .onClosed := by
  simp [closings, List.countP_pos_iff]

theorem Quiet.follow {first last : ConnectionState} {added : List Entry} (quiet : Quiet first added last) :
    first.phase.follow added = some last.phase := by
  induction quiet with
  | nil => rfl
  | note event ordinary _ ih =>
    have stays (phase : Phase) : phase.after event = some phase := by
      cases event <;> simp [Event.ordinary] at ordinary <;> cases phase <;> rfl
    simp [Phase.follow, stays, ih]
  | @dies state _ alive _ ih =>
    have allowed : state.phase.after .onClosed = some .ended := by
      cases state <;> first | rfl | exact absurd rfl alive
    have ended : ConnectionState.dead.phase = .ended := rfl
    simpa only [Phase.follow, allowed, ended, if_pos] using ih

theorem Endpoint.Later.follow {e e' : Endpoint κ} (later : Endpoint.Later e e') {phase : Phase}
    (follows : phase.follow e.trace = some e.state.phase) : phase.follow e'.trace = some e'.state.phase := by
  obtain ⟨added, grown, quiet, _⟩ := later.trace
  rw [grown, Phase.follow_append, follows]
  exact quiet.follow

/-- What a started connection keeps: its trace follows the phases, and the parser has
left the handshake exactly when the connection has left its opening phase. -/
structure Connection.Lifecycle (c : Connection κ) : Prop where
  follows : Phase.opening.follow c.endpoint.trace = some c.endpoint.state.phase
  opening : c.inlet.receiveStage = .handshake → c.endpoint.state ≠ .established
  running : c.inlet.receiveStage ≠ .handshake → c.Waiting → c.endpoint.state = .established
  shut : c.endpoint.state = .dead → c.endpoint.socket.isOpen = false

namespace Endpoint

theorem Later.shut_of {e e' : Endpoint κ} (later : Later e e')
    (shut : e.state = .dead → e.socket.isOpen = false) (dead : e'.state = .dead) :
    e'.socket.isOpen = false := by
  rcases later.shut dead with before | now
  · exact later.socket (shut before)
  · exact now

theorem follow_note {e : Endpoint κ} {phase middle : Phase} {event : Event}
    (follows : phase.follow e.trace = some middle) (allowed : middle.after event = some e.state.phase) :
    phase.follow (e.note event).trace = some (e.note event).state.phase := by
  simp [note, Phase.follow_append, follows, Phase.follow, allowed]

end Endpoint

namespace Connection

variable (events : ConnectionEvents κ)

theorem Lifecycle.later {c : Connection κ} {e : Endpoint κ} (life : c.Lifecycle)
    (later : Endpoint.Later c.endpoint e) : Lifecycle { c with endpoint := e } where
  follows := later.follow life.follows
  opening stage established := by
    have same := later.alive (show e.state ≠ .dead by rw [established]; simp)
    exact life.opening stage (same.symm.trans established)
  running stage waiting := by
    have same := later.alive waiting.1
    exact same.trans (life.running stage ⟨same ▸ waiting.1, same ▸ waiting.2⟩)
  shut := later.shut_of life.shut

theorem Lifecycle.handshake {c next : Connection κ} (life : c.Lifecycle) (waiting : c.Waiting)
    (stage : c.inlet.receiveStage = .handshake) (moved : next.inlet.receiveStage = .header)
    (establishes : Endpoint.Establishes c.endpoint next.endpoint) : next.Lifecycle := by
  have leaves : next.inlet.receiveStage ≠ .handshake := by simp [moved]
  have opening : c.endpoint.state.phase = .opening := by
    have different := life.opening stage
    cases state : c.endpoint.state <;> simp_all [ConnectionState.phase, Waiting]
  -- The handshake ends the connection, opens it, or leaves it closing.
  cases establishes with
  | dies later dead =>
    exact
      { follows := later.follow life.follows
        opening := fun stage => absurd stage leaves
        running := fun _ waiting => absurd dead waiting.1
        shut := later.shut_of life.shut }
  | opens middle first same second =>
    have follows : Phase.opening.follow middle.trace = some .opening := by
      rw [first.follow life.follows, same, opening]
    exact
      { follows := second.follow (Endpoint.follow_note follows rfl)
        opening := fun stage => absurd stage leaves
        running := fun _ waiting => second.alive waiting.1
        shut := second.shut_of (by simp [Endpoint.note]) }
  | closing middle first same second =>
    have follows : Phase.opening.follow middle.trace = some .opening := by
      rw [first.follow life.follows, same, opening]
    exact
      { follows := second.follow (by exact follows)
        opening := fun stage => absurd stage leaves
        running := fun _ waiting => absurd (second.alive waiting.1) waiting.2
        shut := second.shut_of (by simp) }

theorem Lifecycle.dispatch {c : Connection κ} (life : c.Lifecycle) (waiting : c.Waiting)
    (stage : c.inlet.receiveStage ≠ .handshake) (hooks : κ) (transaction : ReceivedTransaction) :
    Lifecycle { c with endpoint := Endpoint.dispatch events transaction { c.endpoint with hooks } } := by
  have established := life.running stage waiting
  have later := dispatch_later events transaction { c.endpoint with hooks }
  exact
    { follows := later.follow (Endpoint.follow_note life.follows (by rw [established]; rfl))
      opening := fun handshake => absurd handshake stage
      running := fun _ waiting => (later.alive waiting.1).trans established
      shut := later.shut_of (by simp [Endpoint.note, established]) }

theorem Lifecycle.of_endpoint {c c' : Connection κ} (life : c.Lifecycle) (same : c'.endpoint = c.endpoint)
    (stage : c.inlet.receiveStage ≠ .handshake) (stage' : c'.inlet.receiveStage ≠ .handshake) :
    c'.Lifecycle where
  follows := by rw [same]; exact life.follows
  opening handshake := absurd handshake stage'
  running _ waiting := by
    rw [Waiting, same] at waiting
    rw [same]
    exact life.running stage waiting
  shut dead := by
    rw [same] at dead ⊢
    exact life.shut dead

theorem Lifecycle.move {c next : Connection κ} (life : c.Lifecycle) (waiting : c.Waiting)
    (move : ParseMove events c next) : next.Lifecycle := by
  have rehook (hooks : κ) := Endpoint.Later.rehook hooks c.endpoint
  cases move with
  | handshake stage moved establishes _ _ => exact life.handshake waiting stage moved establishes
  | header hooks stage moved same =>
    exact (life.later (rehook hooks)).of_endpoint same (by simp [stage]) (by simp [moved])
  | refused hooks stage moved same =>
    exact (life.later ((rehook hooks).trans (Endpoint.markDead_later events _))).of_endpoint same
      (by simp [stage]) (by simp [moved])
  | part part hooks stage moved _ _ delivered =>
    rcases deliver_cases events (c.inlet.partials.add part).1 hooks c.endpoint with same | ⟨transaction, _, same⟩
    · exact (life.later (rehook hooks)).of_endpoint (delivered.trans same) (by simp [stage]) (by simp [moved])
    · exact (life.dispatch events waiting (by simp [stage]) hooks transaction).of_endpoint
        (delivered.trans same) (by simp [stage]) (by simp [moved])

theorem fresh_lifecycle (role : Role) (config : ConnectionConfig) (hooks : κ) :
    (fresh role config hooks).Lifecycle := by
  cases role <;> exact ⟨rfl, by simp [fresh, Client.fresh, Server.fresh], by simp [fresh, Client.fresh, Server.fresh],
    by simp [fresh, Client.fresh, Server.fresh]⟩

theorem Lifecycle.start {c : Connection κ} (life : c.Lifecycle) (arguments : Start)
    (opening : c.endpoint.state.phase = .opening) (stage : c.inlet.receiveStage = .handshake) :
    (start events arguments c).Lifecycle := by
  have follows : Phase.opening.follow c.endpoint.trace = some .opening := opening ▸ life.follows
  cases role : c.role with
  | client =>
    have base : Lifecycle { c with
        endpoint := { c.endpoint with socket := arguments.socket, state := .awaitingHandshakeReply } } :=
      ⟨follows, by simp, by simp [stage], by simp⟩
    simp only [Connection.start, role]
    exact base.later ((Endpoint.queueBytes_later _ _).trans (Endpoint.flushSends_later events _ _))
  | server =>
    simp only [Connection.start, role, Server.start]
    exact ⟨follows, by simp, by simp [stage], by simp⟩

theorem step_lifecycle (c : Connection κ) (op : Op κ) (life : c.Lifecycle) : (step events c op).Lifecycle :=
  step_invariant events Lifecycle (fun _ _ life => ⟨life.follows, life.opening, life.running, life.shut⟩)
    (fun _ _ life later => life.later later) (fun _ _ life waiting _ move => life.move events waiting move)
    c op life

theorem started_lifecycle (role : Role) (config : ConnectionConfig) (hooks : κ) (arguments : Start)
    (ops : List (Op κ)) : (started events role config hooks arguments ops).Lifecycle :=
  run_invariant Lifecycle (step_lifecycle events) ops
    ((fresh_lifecycle role config hooks).start events arguments (by rw [fresh_endpoint]; rfl)
      (fresh_stage role config hooks))

/-- Nothing moves a dead connection. -/
theorem step_dead (c : Connection κ) (op : Op κ) (dead : c.endpoint.state = .dead) :
    (step events c op).endpoint.state = .dead := by
  cases op with
  | serviceReadable received answers => simp [step, serviceReadable, dead]
  | serviceWritable answers => simp [step, serviceWritable, dead]
  | call request => exact (Endpoint.call_later events _ _).dead dead

end Connection

/-- The order in which callbacks come. -/
structure EventProtocol (trace : List Entry) : Prop where
  established_once : establishments trace ≤ 1
  closed_once : closings trace ≤ 1
  transaction : ∀ before entry after transaction, trace = before ++ entry :: after →
    entry.event = .onTransaction transaction →
    entry.state = .established ∧ (∃ earlier ∈ before, earlier.event = .onEstablished) ∧
      ∀ earlier ∈ before, earlier.event ≠ .onClosed
  dead : ∀ before entry after, trace = before ++ entry :: after →
    (entry.state = .dead ↔ ∃ earlier ∈ before ++ [entry], earlier.event = .onClosed)

theorem ConnectionState.phase_eq_ended {state : ConnectionState} : state.phase = .ended ↔ state = .dead := by
  cases state <;> simp [ConnectionState.phase]

theorem ConnectionState.phase_eq_running {state : ConnectionState} :
    state.phase = .running ↔ state = .established := by
  cases state <;> simp [ConnectionState.phase]

theorem Phase.closed_iff {final : Phase} {trace : List Entry} (follows : Phase.opening.follow trace = some final) :
    final = .ended ↔ ∃ entry ∈ trace, entry.event = .onClosed := by
  have count := closings_of_follow follows
  rw [← closings_pos]
  simp only [reduceCtorEq, if_false, Nat.add_zero] at count
  rw [count]
  split <;> simp_all

theorem Phase.eventProtocol {final : Phase} {trace : List Entry}
    (follows : Phase.opening.follow trace = some final) : EventProtocol trace where
  established_once := by simpa using establishments_of_follow follows
  closed_once := by
    have count := closings_of_follow follows
    simp only [reduceCtorEq, if_false, Nat.add_zero] at count
    rw [count]
    split <;> simp
  transaction before entry after transaction split event := by
    obtain ⟨middle, first, allowed, _⟩ := follow_split before (split ▸ follows)
    obtain ⟨rfl, running⟩ : middle = .running ∧ entry.state.phase = .running := by
      rw [event] at allowed
      rcases after_cases allowed with ⟨ordinary, _⟩ | ⟨different, _⟩ | ⟨_, same⟩ | ⟨different, _⟩
      · cases ordinary
      · cases different
      · exact same
      · cases different
    refine ⟨ConnectionState.phase_eq_running.mp running, ?_, fun earlier member closed => ?_⟩
    · exact (running_of_follow first).resolve_left (by simp)
    · have ended := (closed_iff first).mpr ⟨earlier, member, closed⟩
      cases ended
  dead before entry after split := by
    obtain ⟨middle, first, allowed, _⟩ := follow_split before (split ▸ follows)
    have upTo : Phase.opening.follow (before ++ [entry]) = some entry.state.phase := by
      simp [follow_append, first, follow, allowed]
    rw [← closed_iff upTo]
    exact ConnectionState.phase_eq_ended.symm

/-- Whatever the sockets and the application do, the callbacks come in order, `on_closed`
comes exactly with the dead state, and the dead state stays, its socket closed. -/
theorem Connection.event_protocol (events : ConnectionEvents κ) (role : Role) (config : ConnectionConfig)
    (hooks : κ) (arguments : Start) (ops : List (Op κ)) :
    let c := started events role config hooks arguments ops
    EventProtocol c.endpoint.trace ∧
      (closings c.endpoint.trace = if c.endpoint.state = .dead then 1 else 0) ∧
      (c.endpoint.state = .dead → c.endpoint.socket.isOpen = false ∧
        ∀ op, (step events c op).endpoint.state = .dead) := by
  intro c
  have life := started_lifecycle events role config hooks arguments ops
  refine ⟨Phase.eventProtocol life.follows, ?_, fun dead => ⟨life.shut dead, fun op => step_dead events c op dead⟩⟩
  have count := Phase.closings_of_follow life.follows
  simpa [ConnectionState.phase_eq_ended] using count

end Slopline.Net
