import Slopline.Net.PeerClose

/-! The application's `close()` and the transactions behind it.

`close` shuts the socket and leaves the state alone. A parser that is running when a
callback calls it goes on with the bytes it has. Nothing parses behind a `close` from outside:
the next `service_readable` finds the socket shut.
-/

set_option autoImplicit false

namespace Slopline.Net

open Protocol Library

variable {κ : Type}

/-- No transaction after a `close()`. -/
def CloseStops (trace : List Entry) : Prop :=
  ∀ before entry after transaction, trace = before ++ entry :: after →
    entry.event = .onTransaction transaction → ¬ closeCalled before

theorem CloseStops.prefix_of {trace longer : List Entry} (stops : CloseStops longer) (grows : trace <+: longer) :
    CloseStops trace := by
  obtain ⟨rest, rfl⟩ := grows
  rintro before entry after transaction rfl event
  exact stops before entry (after ++ rest) transaction (by simp) event

theorem CloseStops.append {trace added : List Entry} (stops : CloseStops trace) (none : dispatched added = []) :
    CloseStops (trace ++ added) := by
  have absent {entry : Entry} {transaction : ReceivedTransaction} (event : entry.event = .onTransaction transaction) :
      entry ∉ added := fun member => by
    have found := mem_dispatched.mpr ⟨entry, member, event⟩
    rw [none] at found
    cases found
  intro before entry after transaction split event
  rcases List.append_eq_append_iff.mp split with ⟨between, rfl, same⟩ | ⟨between, rfl, same⟩
  · exact absurd (by rw [same]; simp) (absent event)
  · cases between with
    | nil => exact absurd (by simp at same; simp [← same]) (absent event)
    | cons first between =>
      obtain ⟨rfl, rfl⟩ := List.cons.inj same
      exact stops before entry between transaction rfl event

theorem CloseStops.onTransaction {trace : List Entry} (stops : CloseStops trace) (open_ : ¬ closeCalled trace)
    (entry : Entry) : CloseStops (trace ++ [entry]) := by
  intro before other after transaction split event
  rcases List.append_eq_append_iff.mp split with ⟨between, rfl, same⟩ | ⟨between, rfl, same⟩
  · cases between with
    | nil => rwa [List.append_nil]
    | cons first between => simp at same
  · cases between with
    | nil => simpa using open_
    | cons first between =>
      obtain ⟨rfl, rfl⟩ := List.cons.inj same
      exact stops before other between transaction rfl event

theorem CloseStops.idle_iff {trace longer : List Entry} (idle : Idle trace longer) :
    CloseStops longer ↔ CloseStops trace := by
  obtain ⟨⟨added, rfl⟩, same⟩ := idle
  refine ⟨fun stops => stops.prefix_of (List.prefix_append _ _), fun stops => stops.append ?_⟩
  rw [dispatched_append] at same
  exact List.append_right_eq_self.mp same

theorem CloseStops.closed_iff {trace longer : List Entry} (stops : CloseStops trace) (called : closeCalled trace)
    (grows : trace <+: longer) : CloseStops longer ↔ dispatched longer = dispatched trace := by
  refine ⟨fun stopped => ?_, fun same => (idle_iff ⟨grows, same⟩).mpr stops⟩
  obtain ⟨added, rfl⟩ := grows
  rw [dispatched_append, List.append_right_eq_self]
  refine dispatched_eq_nil fun entry member transaction event => ?_
  obtain ⟨between, rest, rfl⟩ := List.append_of_mem member
  exact stopped (trace ++ between) entry rest transaction (by simp) event
    ((closeCalled_append _ _).mpr (.inl called))

instance (trace : List Entry) : Decidable (closeCalled trace) :=
  inferInstanceAs (Decidable (∃ entry ∈ trace, entry.event = .closeCalled))

namespace Reader

variable (events : ConnectionEvents κ) (config : ConnectionConfig)

def scan (r : Reader κ) : Scan κ := { hooks := r.endpoint.hooks, partials := r.partials, bytes := r.bytes }

/-- One part, and its callback's turn, as long as no callback has closed; then what is whole in the
bytes left, which no callback is asked about. -/
def closeStep (r : Reader κ) : Loop (Reader κ) (List ReceivedTransaction) :=
  if r.endpoint.state = .dead ∨ r.endpoint.state = .closing then .done []
  else if closeCalled r.endpoint.trace then .done (r.scan.run config r.endpoint.crypto)
  else match frame config r.endpoint.crypto r.endpoint.hooks r.bytes with
    | .part part hooks rest => .again (r.take events part hooks rest)
    | .short | .refused => .done []

theorem closeStep_drops (r next : Reader κ) (round : closeStep events config r = .again next) :
    next.measure < r.measure := by
  unfold closeStep at round
  split at round
  · cases round
  split at round
  · cases round
  split at round
  next framed => cases round; exact frame_rest framed
  all_goals cases round

def behindClose (r : Reader κ) : List ReceivedTransaction := Loop.run measure (closeStep_drops events config) r

end Reader

namespace Connection

variable (events : ConnectionEvents κ)

/-- The transactions in the inbound bytes that are whole behind the first callback to close. -/
def behindClose (answers : List SendResult) (c : Connection κ) : List ReceivedTransaction :=
  if c.endpoint.state = .dead ∨ c.endpoint.state = .closing then []
  else match c.inlet.receiveStage with
    | .handshake =>
      if c.inlet.inbound.length < c.inlet.expectedBytes then []
      else (c.handleHandshake events answers).reader.behindClose events c.config
    | .header => c.reader.behindClose events c.config
    | .data =>
      match frameData c.endpoint.crypto c.endpoint.hooks c.inlet.pendingHeader c.inlet.pendingFlag
        c.inlet.inbound with
      | .part part hooks rest => (c.reader.take events part hooks rest).behindClose events c.config
      | .short | .refused => []

/-- Whenever bytes are received and a callback closes at one of the transactions they complete,
they complete no other one behind it. -/
def ClosesLast (ops : List (Op κ)) (c : Connection κ) : Prop :=
  ∀ before received answers after, ops = before ++ .serviceReadable received answers :: after →
    (run events before c).endpoint.state ≠ .dead → (run events before c).endpoint.socket.isOpen = true →
    (ending received).survives = true →
    ((run events before c).feed (arriving received)).behindClose events answers = []

end Connection

/-! Reading apart from the parser's stages. -/

theorem Scan.run_grows (config : ConnectionConfig) (crypto : ConnectionCryptoHooks κ) (s : Scan κ) :
    s.completed <+: s.run config crypto := by
  refine Loop.run_induction measure (step_drops config crypto)
    (motive := fun s result => s.completed <+: result) ?_ ?_ s
  · intro s result round
    unfold step at round
    split at round <;> cases round <;> exact List.prefix_rfl
  · intro s next result round grows
    unfold step at round
    split at round <;> cases round
    exact (List.prefix_append _ _).trans grows

namespace Reader

variable (events : ConnectionEvents κ) (config : ConnectionConfig)

theorem run_grows (r : Reader κ) : Endpoint.Grows r.endpoint (r.run events config).endpoint := by
  refine Loop.run_induction measure (step_drops events config)
    (motive := fun r result => Endpoint.Grows r.endpoint result.endpoint) ?_ ?_ r
  · intro r result round
    obtain ⟨rfl, _⟩ := step_done events round
    exact .refl _
  · intro r next result round grows
    obtain ⟨_, part, hooks, rest, _, rfl⟩ := step_again events round
    exact (Connection.deliver_grows events _ hooks r.endpoint).trans grows

theorem scan_short {r : Reader κ} (stops : r.framed config = .short ∨ r.framed config = .refused) :
    r.scan.run config r.endpoint.crypto = [] := by
  refine Loop.run_done _ _ ?_
  rcases stops with short | refused
  · exact (by rw [Scan.step, show frame config r.endpoint.crypto r.scan.hooks r.scan.bytes = .short from short]; rfl)
  · exact (by rw [Scan.step, show frame config r.endpoint.crypto r.scan.hooks r.scan.bytes = .refused from refused]; rfl)

theorem scan_part {r : Reader κ} {part : ReceivedTransaction} {hooks : κ} {rest : Bytes}
    (framed : r.framed config = .part part hooks rest) :
    r.scan.run config r.endpoint.crypto = (r.scan.take part hooks rest).run config r.endpoint.crypto := by
  refine Loop.run_again _ _ ?_
  rw [Scan.step, show frame config r.endpoint.crypto r.scan.hooks r.scan.bytes = .part part hooks rest from framed]

theorem scan_eq_nil_iff (r : Reader κ) (waiting : r.Waiting) :
    r.scan.run config r.endpoint.crypto = [] ↔
      dispatched (r.run events config).endpoint.trace = dispatched r.endpoint.trace := by
  refine Loop.rounds_induction measure (step_drops events config) (motive := fun r => r.Waiting →
    (r.scan.run config r.endpoint.crypto = [] ↔
      dispatched (r.run events config).endpoint.trace = dispatched r.endpoint.trace)) (fun r ih waiting => ?_) r waiting
  cases round : step events config r with
  | done result =>
    obtain ⟨rfl, stops⟩ := step_done events round
    rw [run, Loop.run_done _ _ round]
    exact iff_of_true (scan_short config (stops.resolve_left (not_not_intro waiting))) rfl
  | again next =>
    obtain ⟨_, part, hooks, rest, framed, rfl⟩ := step_again events round
    rw [scan_part config framed, run, Loop.run_again _ _ round]
    cases completes : (r.partials.add part).1 with
    | none =>
      have taken : r.take events part hooks rest =
          { endpoint := { r.endpoint with hooks }, partials := (r.partials.add part).2, bytes := rest } := by
        rw [take, completes]
        rfl
      have scanned : r.scan.take part hooks rest = (r.take events part hooks rest).scan := by
        rw [taken, Scan.take, scan, scan, completes]
        rfl
      have same := ih _ round (by rwa [taken])
      rw [scanned]
      rw [taken] at same ⊢
      exact same
    | some transaction =>
      have found := (r.scan.take part hooks rest).run_grows config r.endpoint.crypto
      have kept : (r.scan.take part hooks rest).completed = [transaction] := congrArg Option.toList completes
      have handed : dispatched (r.take events part hooks rest).endpoint.trace =
          dispatched r.endpoint.trace ++ [transaction] := by
        rw [take, Connection.deliver_dispatched, completes]
        rfl
      obtain ⟨added, grown⟩ := (run_grows events config (r.take events part hooks rest)).trace
      refine iff_of_false (fun none => ?_) (fun same => ?_)
      · rw [none, kept] at found
        exact absurd found.length_le (by simp)
      · rw [run] at grown
        rw [← grown, dispatched_append, handed, List.append_assoc] at same
        simp at same

theorem take_closeStops (part : ReceivedTransaction) (hooks : κ) (rest : Bytes) {r : Reader κ}
    (open_ : ¬ closeCalled r.endpoint.trace) (stops : CloseStops r.endpoint.trace) :
    CloseStops (r.take events part hooks rest).endpoint.trace := by
  rcases Connection.deliver_cases events (r.partials.add part).1 hooks r.endpoint with same | ⟨transaction, _, same⟩
  · rw [take, same]
    exact stops
  · rw [take, same]
    have later := Connection.dispatch_later events transaction { r.endpoint with hooks }
    exact (CloseStops.idle_iff later.idle).mpr (stops.onTransaction open_ _)

/-- `close` stops a reader exactly when nothing is whole behind the callback that closes. -/
theorem closeStops_iff (r : Reader κ) (stops : CloseStops r.endpoint.trace) :
    CloseStops (r.run events config).endpoint.trace ↔ r.behindClose events config = [] := by
  refine Loop.rounds_induction measure (step_drops events config) (motive := fun r => CloseStops r.endpoint.trace →
    (CloseStops (r.run events config).endpoint.trace ↔ r.behindClose events config = [])) (fun r ih stops => ?_) r stops
  by_cases waiting : r.Waiting
  · have live : ¬ (r.endpoint.state = .dead ∨ r.endpoint.state = .closing) := not_or.mpr waiting
    by_cases called : closeCalled r.endpoint.trace
    · have here : closeStep events config r = .done (r.scan.run config r.endpoint.crypto) := by
        rw [closeStep, if_neg live, if_pos called]
      rw [behindClose, Loop.run_done _ _ here, scan_eq_nil_iff events config r waiting]
      exact stops.closed_iff called (run_grows events config r).trace
    · cases round : step events config r with
      | done result =>
        obtain ⟨rfl, ends⟩ := step_done events round
        have here : closeStep events config result = .done [] := by
          rw [closeStep, if_neg live, if_neg called]
          rcases ends.resolve_left (not_not_intro waiting) with short | refused
          · rw [show frame config result.endpoint.crypto result.endpoint.hooks result.bytes = .short from short]
          · rw [show frame config result.endpoint.crypto result.endpoint.hooks result.bytes = .refused from refused]
        rw [run, Loop.run_done _ _ round, behindClose, Loop.run_done _ _ here]
        exact iff_of_true stops rfl
      | again next =>
        have kept := ih next round
        obtain ⟨_, part, hooks, rest, framed, rfl⟩ := step_again events round
        have here : closeStep events config r = .again (r.take events part hooks rest) := by
          rw [closeStep, if_neg live, if_neg called,
            show frame config r.endpoint.crypto r.endpoint.hooks r.bytes = .part part hooks rest from framed]
        rw [run, Loop.run_again _ _ round, behindClose, Loop.run_again _ _ here]
        exact kept (take_closeStops events part hooks rest called stops)
  · have rests : r.endpoint.state = .dead ∨ r.endpoint.state = .closing := by
      simpa only [Waiting, not_and_or, not_not] using waiting
    have here : closeStep events config r = .done [] := by rw [closeStep, if_pos rests]
    have round : step events config r = .done r := by rw [step, if_pos rests]
    rw [run, Loop.run_done _ _ round, behindClose, Loop.run_done _ _ here]
    exact iff_of_true stops rfl

end Reader

namespace Endpoint

def Shut (e : Endpoint κ) : Prop := closeCalled e.trace → e.socket.isOpen = false

theorem Later.shuts {e e' : Endpoint κ} (later : Later e e') (shut : e.Shut) : e'.Shut := by
  obtain ⟨added, grown, _, closes, _⟩ := later.trace
  intro called
  rw [grown, closeCalled_append] at called
  exact called.elim (fun before => later.socket (shut before)) closes

theorem Shut.note {e : Endpoint κ} (shut : e.Shut) {event : Event} (other : event ≠ .closeCalled) :
    (e.note event).Shut := by
  intro called
  rw [Endpoint.note, closeCalled_append, closeCalled_singleton] at called
  exact shut (called.resolve_right other)

end Endpoint

namespace Connection

variable (events : ConnectionEvents κ)

theorem move_shut {c next : Connection κ} (shut : c.endpoint.Shut) (move : ParseMove events c next) :
    next.endpoint.Shut := by
  cases move with
  | handshake _ _ establishes =>
    cases establishes with
    | dies later _ => exact later.shuts shut
    | opens middle first _ second =>
      have middleShut : Endpoint.Shut { middle with state := .established } := first.shuts shut
      exact second.shuts (middleShut.note (by simp))
    | closing middle first _ second =>
      have middleShut : Endpoint.Shut { middle with state := .closing } := first.shuts shut
      exact second.shuts middleShut
  | header hooks _ _ same => rw [same]; exact shut
  | refused hooks _ _ same =>
    rw [same]
    exact ((Endpoint.Later.rehook hooks c.endpoint).trans (Endpoint.markDead_later events _)).shuts shut
  | part part hooks _ _ _ _ delivered =>
    have rehooked : Endpoint.Shut { c.endpoint with hooks } := shut
    rcases deliver_cases events (c.inlet.partials.add part).1 hooks c.endpoint with same | ⟨transaction, _, same⟩
    · rw [delivered, same]
      exact rehooked
    · rw [delivered, same]
      exact (dispatch_later events transaction _).shuts (rehooked.note (by simp))

theorem step_shut (c : Connection κ) (op : Op κ) (shut : c.endpoint.Shut) : (step events c op).endpoint.Shut :=
  step_invariant events (fun c => c.endpoint.Shut) (fun _ _ shut => shut) (fun _ _ shut later => later.shuts shut)
    (fun _ _ shut _ _ move => move_shut events shut move) c op shut

theorem start_shut (role : Role) (config : ConnectionConfig) (hooks : κ) (arguments : Start) :
    (start events arguments (fresh role config hooks)).endpoint.Shut := by
  cases role with
  | client =>
    have given : Endpoint.Shut ({ hooks, socket := arguments.socket, state := .awaitingHandshakeReply } : Endpoint κ) :=
      fun called => absurd called closeCalled_nil
    exact ((Endpoint.queueBytes_later _ _).trans (Endpoint.flushSends_later events _ _)).shuts given
  | server => exact fun called => absurd called closeCalled_nil

theorem parse_closeStops_iff (answers : List SendResult) {c : Connection κ} (capped : c.Capped)
    (stops : CloseStops c.endpoint.trace) (open_ : ¬ closeCalled c.endpoint.trace) :
    CloseStops (parseInbound events answers c).endpoint.trace ↔ c.behindClose events answers = [] := by
  rw [CloseStops.idle_iff (parseInbound_idle events answers capped), read, behindClose]
  by_cases rests : c.endpoint.state = .dead ∨ c.endpoint.state = .closing
  · rw [if_pos rests, if_pos rests]
    exact iff_of_true stops rfl
  rw [if_neg rests, if_neg rests]
  cases c.inlet.receiveStage with
  | handshake =>
    by_cases few : c.inlet.inbound.length < c.inlet.expectedBytes
    · simp only [if_pos few]
      exact iff_of_true stops trivial
    · simp only [if_neg few]
      have establishes := handleHandshake_establishes events answers c
      exact Reader.closeStops_iff events c.config (c.handleHandshake events answers).reader
        ((CloseStops.idle_iff ⟨establishes.grows.trace, establishes.dispatched⟩).mpr stops)
  | header => exact Reader.closeStops_iff events c.config c.reader stops
  | data =>
    cases frameData c.endpoint.crypto c.endpoint.hooks c.inlet.pendingHeader c.inlet.pendingFlag c.inlet.inbound with
    | short => exact iff_of_true stops rfl
    | refused => exact iff_of_true stops rfl
    | part part hooks rest =>
      exact Reader.closeStops_iff events c.config _
        (Reader.take_closeStops events part hooks rest (r := c.reader) open_ stops)

def StepClosesLast (c : Connection κ) (op : Op κ) : Prop :=
  ∀ received answers, op = .serviceReadable received answers → c.endpoint.state ≠ .dead →
    c.endpoint.socket.isOpen = true → (ending received).survives = true →
    (c.feed (arriving received)).behindClose events answers = []

theorem step_closeStops_iff {c : Connection κ} (op : Op κ) (capped : c.Capped) (shut : c.endpoint.Shut)
    (stops : CloseStops c.endpoint.trace) :
    CloseStops (step events c op).endpoint.trace ↔ c.StepClosesLast events op := by
  have later {e : Endpoint κ} (later : Endpoint.Later c.endpoint e) : CloseStops e.trace :=
    (CloseStops.idle_iff later.idle).mpr stops
  cases op with
  | serviceReadable received answers =>
    by_cases dead : c.endpoint.state = .dead
    · refine iff_of_true ?_ fun _ _ _ alive => absurd dead alive
      simpa [step, serviceReadable, dead] using stops
    cases shown : c.endpoint.socket.isOpen with
    | false =>
      refine iff_of_true ?_ fun _ _ _ _ shown' => absurd (shown.symm.trans shown') (by simp)
      rw [step, serviceReadable_closed events shown]
      exact later (Endpoint.markDead_later events c.endpoint)
    | true =>
      rw [step, serviceReadable_open events dead shown]
      have open_ : ¬ closeCalled c.endpoint.trace := fun called => by
        rw [shut called] at shown
        cases shown
      cases survives : (ending received).survives with
      | false =>
        refine iff_of_true (later (Endpoint.markDead_later events c.endpoint)) fun _ _ same _ _ survives' => ?_
        cases same
        rw [survives] at survives'
        cases survives'
      | true =>
        rw [if_pos rfl, parse_closeStops_iff events answers (capped.feed _) stops open_]
        constructor
        · rintro none _ _ ⟨⟩ _ _ _
          exact none
        · exact fun closesLast => closesLast received answers rfl dead shown survives
  | serviceWritable answers =>
    refine iff_of_true ?_ fun _ _ same => by cases same
    simp only [step, serviceWritable]
    split
    · exact stops
    · exact later (Endpoint.flushSends_later events answers c.endpoint)
  | call request =>
    exact iff_of_true (later (Endpoint.call_later events c.endpoint request)) fun _ _ same => by cases same

theorem closesLast_cons {op : Op κ} {ops : List (Op κ)} {c : Connection κ} :
    ClosesLast events (op :: ops) c ↔ c.StepClosesLast events op ∧ ClosesLast events ops (step events c op) := by
  constructor
  · refine fun last => ⟨?_, ?_⟩
    · rintro received answers rfl
      exact last [] received answers ops rfl
    · rintro before received answers after rfl
      exact last (op :: before) received answers after rfl
  · rintro ⟨head, tail⟩ before received answers after split
    cases before with
    | nil =>
      obtain ⟨rfl, rfl⟩ := List.cons.inj split
      exact head received answers rfl
    | cons first before =>
      obtain ⟨rfl, rfl⟩ := List.cons.inj split
      exact tail before received answers after rfl

theorem run_grows (ops : List (Op κ)) (c : Connection κ) : Endpoint.Grows c.endpoint (run events ops c).endpoint :=
  run_invariant (fun c' => Endpoint.Grows c.endpoint c'.endpoint)
    (fun c' op grows => grows.trans (step_grows events c' op)) ops (.refl _)

theorem run_closeStops_iff (ops : List (Op κ)) {c : Connection κ} (capped : c.Capped) (shut : c.endpoint.Shut)
    (stops : CloseStops c.endpoint.trace) :
    CloseStops (run events ops c).endpoint.trace ↔ ClosesLast events ops c := by
  induction ops generalizing c with
  | nil => exact iff_of_true stops fun before _ _ _ split => by simp at split
  | cons op ops ih =>
    have step := step_closeStops_iff events op capped shut stops
    rw [closesLast_cons, ← step]
    have next := ih (step_capped events c op capped) (step_shut events c op shut)
    constructor
    · intro stopped
      have here := stopped.prefix_of (run_grows events ops (Connection.step events c op)).trace
      exact ⟨here, (next here).mp stopped⟩
    · rintro ⟨here, rest⟩
      exact (next here).mpr rest

/-- `close` stops delivery exactly when no callback that calls it has a whole transaction behind it. -/
theorem close_stops_iff (role : Role) (config : ConnectionConfig) (hooks : κ) (arguments : Start)
    (ops : List (Op κ)) :
    CloseStops (started events role config hooks arguments ops).endpoint.trace ↔
      ClosesLast events ops (start events arguments (fresh role config hooks)) := by
  have capped := started_capped events role config hooks arguments []
  obtain ⟨_, _, _, none⟩ := started_nil events role config hooks arguments
  refine run_closeStops_iff events ops capped ?_ ?_
  · exact start_shut events role config hooks arguments
  · intro before entry after transaction split event
    have member : transaction ∈ dispatched (start events arguments (fresh role config hooks)).endpoint.trace :=
      mem_dispatched.mpr ⟨entry, by rw [split]; simp, event⟩
    rw [none] at member
    cases member

/-- An application that closes at its first transaction. -/
def closesAtOnce : ConnectionEvents Unit where
  onEstablished _ := []
  onTransaction _ := [.close]
  onClosed _ := []

/-- A handshake and two requests, received together. -/
def pipelined : List (Op Unit) :=
  [.serviceReadable [.read {
      bytes := encodeClientHandshake (Client.clientHandshake kSubProtocolHotl kClientSubVersion) ++
        ReceivedTransaction.wire ⟨{ id := 1, totalSize := 1, dataSize := 1 }, [1]⟩ ++
        ReceivedTransaction.wire ⟨{ id := 2, totalSize := 1, dataSize := 1 }, [2]⟩
      nonempty := by decide
      fits := by decide }] []]

theorem close_ignored : ¬ CloseStops (started closesAtOnce .server {} () {} pipelined).endpoint.trace := by
  intro stops
  have called := stops
    [⟨.established, .onEstablished⟩,
      ⟨.established, .onTransaction ⟨{ id := 1, totalSize := 1, dataSize := 1 }, [1]⟩⟩,
      ⟨.established, .closeCalled⟩]
    ⟨.established, .onTransaction ⟨{ id := 2, totalSize := 1, dataSize := 1 }, [2]⟩⟩
    [⟨.established, .closeCalled⟩] _ (by decide +kernel) rfl
  exact called ⟨⟨.established, .closeCalled⟩, by simp, rfl⟩

end Connection

end Slopline.Net
