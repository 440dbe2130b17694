import Slopline.Net.Parts

/-! What one round of the parser can do, and the induction over runs. -/

set_option autoImplicit false

namespace Slopline.Net

open Protocol Library

variable {κ : Type}

/-- What a handshake of either role does to the endpoint. -/
inductive Endpoint.Establishes : Endpoint κ → Endpoint κ → Prop where
  | dies {e final : Endpoint κ} : Later e final → final.state = .dead → Establishes e final
  | opens {e final : Endpoint κ} (middle : Endpoint κ) : Later e middle → middle.state = e.state →
      Later ({ middle with state := .established }.note .onEstablished) final → Establishes e final
  | closing {e final : Endpoint κ} (middle : Endpoint κ) : Later e middle → middle.state = e.state →
      Later { middle with state := .closing } final → Establishes e final

theorem Endpoint.Establishes.dispatched {e e' : Endpoint κ} (establishes : Establishes e e') :
    Net.dispatched e'.trace = Net.dispatched e.trace := by
  cases establishes with
  | dies later _ => exact later.dispatched
  | opens middle first _ second =>
    rw [second.dispatched, ← first.dispatched, note, dispatched_append, dispatched_other _ (by simp),
      List.append_nil]
  | closing middle first _ second => exact second.dispatched.trans first.dispatched

namespace Endpoint

/-- History and outbound bytes only grow at their ends. -/
structure Grows (e e' : Endpoint κ) : Prop where
  trace : e.trace <+: e'.trace
  written : e.written <+: e'.written

theorem Grows.trans {e e' e'' : Endpoint κ} (first : Grows e e') (second : Grows e' e'') : Grows e e'' :=
  ⟨first.trace.trans second.trace, first.written.trans second.written⟩

theorem Grows.refl (e : Endpoint κ) : Grows e e := ⟨List.prefix_rfl, List.prefix_rfl⟩

theorem Later.grows {e e' : Endpoint κ} (later : Later e e') : Grows e e' := by
  obtain ⟨added, grown, _⟩ := later.trace
  exact ⟨⟨added, grown.symm⟩, later.written⟩

theorem grows_note {e : Endpoint κ} {event : Event} (other : ∀ bytes, event ≠ .sent bytes) :
    Grows e (e.note event) where
  trace := List.prefix_append _ _
  written := by simp [written, note, unsent, sentBytes_other e.state other]

theorem Establishes.grows {e e' : Endpoint κ} (establishes : Establishes e e') : Grows e e' := by
  cases establishes with
  | dies later _ => exact later.grows
  | opens middle first _ second =>
    have reopened : Grows middle { middle with state := .established } := ⟨List.prefix_rfl, List.prefix_rfl⟩
    exact (first.grows.trans (reopened.trans (grows_note (by simp)))).trans second.grows
  | closing middle first _ second =>
    have closing : Grows middle { middle with state := .closing } := ⟨List.prefix_rfl, List.prefix_rfl⟩
    exact first.grows.trans (closing.trans second.grows)

end Endpoint

namespace Connection

variable (events : ConnectionEvents κ)

theorem markEstablished_later (e : Endpoint κ) :
    Endpoint.Later ({ e with state := .established }.note .onEstablished) (e.markEstablished events) :=
  Endpoint.calls_later events _ _

theorem dispatch_later (transaction : ReceivedTransaction) (e : Endpoint κ) :
    Endpoint.Later (e.note (.onTransaction transaction)) (e.dispatch events transaction) :=
  Endpoint.calls_later events _ _

theorem handleHandshake_establishes (answers : List SendResult) (c : Connection κ) :
    Endpoint.Establishes c.endpoint (c.handleHandshake events answers).endpoint := by
  have dies := Endpoint.Establishes.dies (Endpoint.markDead_later events c.endpoint)
    (Endpoint.markDead_dead events c.endpoint)
  cases role : c.role with
  | client =>
    simp only [handleHandshake, role, Client.handleHandshake]
    split
    · exact dies
    · split
      · exact dies
      · exact .opens _ (.refl _) rfl (markEstablished_later events _)
  | server =>
    simp only [handleHandshake, role, Server.handleHandshake]
    split
    · exact dies
    · split
      · exact dies
      · exact .closing _ (Endpoint.queueBytes_later _ _) (Endpoint.queueBytes_state _ _)
          (Endpoint.flushSends_later events _ _)
      · exact .opens _ (Endpoint.queueBytes_later _ _) (Endpoint.queueBytes_state _ _)
          ((markEstablished_later events _).trans (Endpoint.flushSends_later events _ _))

theorem deliver_cases (completed : Option ReceivedTransaction) (hooks : κ) (e : Endpoint κ) :
    e.deliver events completed hooks = { e with hooks } ∨ ∃ transaction, completed = some transaction ∧
      e.deliver events completed hooks = { e with hooks }.dispatch events transaction := by
  cases completed with
  | none => exact .inl rfl
  | some transaction => exact .inr ⟨transaction, rfl, rfl⟩

theorem deliver_grows (completed : Option ReceivedTransaction) (hooks : κ) (e : Endpoint κ) :
    Endpoint.Grows e (e.deliver events completed hooks) := by
  have rehook := (Endpoint.Later.rehook hooks e).grows
  rcases deliver_cases events completed hooks e with same | ⟨transaction, _, same⟩
  · exact same ▸ rehook
  · exact same ▸ (rehook.trans (Endpoint.grows_note (by simp))).trans (dispatch_later events transaction _).grows

theorem deliver_dispatched (completed : Option ReceivedTransaction) (hooks : κ) (e : Endpoint κ) :
    dispatched (e.deliver events completed hooks).trace = dispatched e.trace ++ completed.toList := by
  cases completed with
  | none => simp [Endpoint.deliver]
  | some transaction =>
    have later := dispatch_later events transaction { e with hooks }
    simp [Endpoint.deliver, later.dispatched, Endpoint.note]

inductive ParseMove (c next : Connection κ) : Prop where
  | handshake : c.inlet.receiveStage = .handshake → next.inlet.receiveStage = .header →
      Endpoint.Establishes c.endpoint next.endpoint → next.inlet.pendingData = c.inlet.pendingData →
      next.inlet.partials = c.inlet.partials → ParseMove c next
  | header (hooks : κ) : c.inlet.receiveStage = .header → next.inlet.receiveStage = .data →
      next.endpoint = { c.endpoint with hooks } → next.inlet.pendingData = [] →
      next.inlet.expectedBytes = next.inlet.pendingHeader.dataSize.toNat →
      ¬ c.config.Refuses next.inlet.pendingHeader → next.inlet.partials = c.inlet.partials → ParseMove c next
  | refused (hooks : κ) : c.inlet.receiveStage = .header → next.inlet.receiveStage = .header →
      next.endpoint = Endpoint.markDead events { c.endpoint with hooks } →
      next.inlet.pendingData = c.inlet.pendingData → next.inlet.partials = c.inlet.partials → ParseMove c next
  | part (part : ReceivedTransaction) (hooks : κ) : c.inlet.receiveStage = .data →
      next.inlet.receiveStage = .header → part.header = c.inlet.pendingHeader →
      part.data.length = c.inlet.pendingData.length + c.inlet.expectedBytes →
      next.endpoint = c.endpoint.deliver events (c.inlet.partials.add part).1 hooks →
      next.inlet.pendingData = [] → next.inlet.partials = (c.inlet.partials.add part).2 → ParseMove c next

theorem parseStep_again {answers : List SendResult} {c next : Connection κ}
    (step : parseStep events answers c = .again next) :
    c.Waiting ∧ next.config = c.config ∧ ParseMove events c next := by
  obtain ⟨waiting, round⟩ := (parseStep_again_iff events).mp step
  refine ⟨waiting, ?_⟩
  cases round with
  | handshake stage _ same =>
    obtain ⟨_, config, inbound, _, inlet⟩ := handleHandshake_frame events answers c
    subst same
    refine ⟨config, .handshake stage rfl (handleHandshake_establishes events answers c) ?_ ?_⟩ <;>
      simp [expectHeader, inlet]
  | header stage _ accepted same =>
    subst same
    exact ⟨rfl, .header _ stage rfl rfl rfl rfl accepted rfl⟩
  | data stage enough same =>
    rw [same, completeTransaction_eq]
    refine ⟨rfl, .part _ _ stage rfl rfl ?_ rfl rfl rfl⟩
    simp only [length_readData, takeData, List.length_append, List.length_take]
    omega

theorem parseStep_done {answers : List SendResult} {c result : Connection κ}
    (step : parseStep events answers c = .done result) :
    result = c ∨ c.Waiting ∧ result.config = c.config ∧ ParseMove events c result := by
  cases (parseStep_done_iff events).mp step with
  | ended _ same => exact .inl same
  | short _ _ same => exact .inl same
  | refused waiting stage _ _ same =>
    subst same
    exact .inr ⟨waiting, rfl, .refused _ stage stage rfl rfl rfl⟩

theorem parseInbound_invariant (inv : Connection κ → Prop)
    (moves : ∀ c next, inv c → c.Waiting → next.config = c.config → ParseMove events c next → inv next)
    (answers : List SendResult) {c : Connection κ} (holds : inv c) : inv (parseInbound events answers c) := by
  refine Loop.run_invariant parseMeasure (parseStep_drops events answers) inv inv ?_ ?_ holds
  · intro c next holds round
    obtain ⟨waiting, config, move⟩ := parseStep_again events round
    exact moves c next holds waiting config move
  · intro c result holds round
    rcases parseStep_done events round with rfl | ⟨waiting, config, move⟩
    · exact holds
    · exact moves c result holds waiting config move

theorem receiveLoop_feed (received : List RecvResult) (c : Connection κ) :
    ∃ bytes, (receiveLoop received c).1 = c.feed bytes := by
  induction received generalizing c with
  | nil => exact ⟨[], c.feed_nil.symm⟩
  | cons answer received ih =>
    unfold receiveLoop
    cases step : receiveStep answer c with
    | again next =>
      obtain ⟨rest, fed⟩ := ih next
      unfold receiveStep at step
      split at step <;> cases step
      next bytes _ => exact ⟨bytes ++ rest, by rw [fed, feed_feed]⟩
      next => exact ⟨rest, fed⟩
    | done result =>
      unfold receiveStep at step
      split at step <;> cases step <;> exact ⟨[], c.feed_nil.symm⟩

theorem clientHandshake_ne_nil (handshake : ClientHandshake) : encodeClientHandshake handshake ≠ [] := by
  intro empty
  have size := congrArg List.length empty
  exact absurd size (by simp [kClientHandshakeSize])

theorem clientHello_ne_nil :
    encodeClientHandshake (Client.clientHandshake kSubProtocolHotl kClientSubVersion) ≠ [] := clientHandshake_ne_nil _

theorem clientHello_fits :
    (encodeClientHandshake (Client.clientHandshake kSubProtocolHotl kClientSubVersion)).length ≤ kScratchSize := by
  decide

def clientHello : Chunk := ⟨_, clientHello_ne_nil, clientHello_fits⟩

theorem fresh_stage (role : Role) (config : ConnectionConfig) (hooks : κ) :
    (fresh role config hooks).inlet.receiveStage = .handshake := by cases role <;> rfl

theorem fresh_endpoint (role : Role) (config : ConnectionConfig) (hooks : κ) :
    (fresh role config hooks).endpoint = { hooks } := by cases role <;> rfl

/-- What bytes, the endpoint's operations and the parser's rounds keep, every
operation keeps. -/
theorem step_invariant (inv : Connection κ → Prop) (feeds : ∀ bytes c, inv c → inv (c.feed bytes))
    (later : ∀ c e, inv c → Endpoint.Later c.endpoint e → inv { c with endpoint := e })
    (moves : ∀ c next, inv c → c.Waiting → next.config = c.config → ParseMove events c next → inv next)
    (c : Connection κ) (op : Op κ) (holds : inv c) : inv (step events c op) := by
  cases op with
  | serviceReadable received answers =>
    simp only [step, serviceReadable]
    split
    · exact holds
    · obtain ⟨bytes, fed⟩ := receiveLoop_feed (received ++ [.error .wouldBlock]) c
      have fedHolds := feeds bytes c holds
      rw [← fed] at fedHolds
      generalize receiveLoop (received ++ [.error .wouldBlock]) c = result at fedHolds
      obtain ⟨c, _ | _⟩ := result
      · exact later c _ fedHolds (Endpoint.markDead_later events _)
      · exact parseInbound_invariant events inv moves answers fedHolds
  | serviceWritable answers =>
    simp only [step, serviceWritable]
    split
    · exact holds
    · exact later c _ holds (Endpoint.flushSends_later events _ _)
  | call request => exact later c _ holds (Endpoint.call_later events _ _)

theorem ParseMove.grows {c next : Connection κ} (move : ParseMove events c next) :
    Endpoint.Grows c.endpoint next.endpoint := by
  have rehook (hooks : κ) := Endpoint.Later.rehook hooks c.endpoint
  cases move with
  | handshake _ _ establishes => exact establishes.grows
  | header hooks _ _ same => exact same ▸ (rehook hooks).grows
  | refused hooks _ _ same => exact same ▸ ((rehook hooks).trans (Endpoint.markDead_later events _)).grows
  | part part hooks _ _ _ _ delivered => exact delivered ▸ deliver_grows events _ hooks c.endpoint

theorem step_grows (c : Connection κ) (op : Op κ) : Endpoint.Grows c.endpoint (step events c op).endpoint :=
  step_invariant events (fun c' => Endpoint.Grows c.endpoint c'.endpoint) (fun _ _ grows => grows)
    (fun _ _ grows later => grows.trans later.grows) (fun _ _ grows _ _ move => grows.trans (move.grows events))
    c op (.refl _)

end Connection

end Slopline.Net
