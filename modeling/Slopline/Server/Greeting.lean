import Slopline.Net.Moves
import Slopline.Net.Receiving

/-! What a server makes of the bytes its client sends first.

Until it has the twelve bytes of a handshake a server waits. They settle which answer it
gives, and nothing that comes behind them changes it.
-/

set_option autoImplicit false

namespace Slopline.Server

open Protocol Library Net

variable {κ : Type}

inductive Verdict where
  | waiting
  | refused
  | incompatible
  | accepted
  deriving DecidableEq, Repr

def verdict (heard : Bytes) : Verdict :=
  if heard.length < kClientHandshakeSize then .waiting
  else match validateClientHandshake (decodeClientHandshake (heard.take kClientHandshakeSize)) with
    | .notTransactionClient => .refused
    | .incompatibleVersion => .incompatible
    | .accepted => .accepted

namespace Verdict

def reply : Verdict → Bytes
  | .waiting | .refused => []
  | .incompatible => encodeServerHandshakeReply rejectReply
  | .accepted => encodeServerHandshakeReply acceptReply

def state : Verdict → ConnectionState
  | .waiting => .awaitingHandshake
  | .refused => .dead
  | .incompatible => .closing
  | .accepted => .established

def answer (events : ConnectionEvents κ) (answers : List SendResult) (e : Endpoint κ) : Verdict → Endpoint κ
  | .waiting => e
  | .refused => e.markDead events
  | .incompatible =>
    Endpoint.flushSends events answers
      { e.queueBytes (reply .incompatible) with state := .closing }
  | .accepted => ((e.queueBytes (reply .accepted)).markEstablished events).flushSends events answers

end Verdict

theorem verdict_ne_waiting {heard : Bytes} (enough : kClientHandshakeSize ≤ heard.length) :
    verdict heard ≠ .waiting := by
  rw [verdict, if_neg (Nat.not_lt.mpr enough)]
  split <;> simp

theorem verdict_append {heard : Bytes} (enough : kClientHandshakeSize ≤ heard.length) (more : Bytes) :
    verdict (heard ++ more) = verdict heard := by
  have longer : kClientHandshakeSize ≤ (heard ++ more).length := by
    rw [List.length_append]
    omega
  rw [verdict, verdict, if_neg (Nat.not_lt.mpr enough), if_neg (Nat.not_lt.mpr longer),
    List.take_append_of_le_length enough]

def hears (c : Connection κ) : Connection.Op κ → Bytes
  | .serviceReadable received _ =>
    if c.endpoint.state = .dead ∨ c.endpoint.socket.isOpen = false then [] else arriving received
  | .serviceWritable _ | .call _ => []

def heardBy (events : ConnectionEvents κ) : List (Connection.Op κ) → Connection κ → Bytes
  | [], _ => []
  | op :: ops, c => hears c op ++ heardBy events ops (Connection.step events c op)

section
variable (events : ConnectionEvents κ)

theorem handleHandshake_answer {c : Connection κ} (role : c.role = .server)
    (enough : kClientHandshakeSize ≤ c.inlet.inbound.length) (answers : List SendResult) :
    (c.handleHandshake events answers).endpoint =
      (verdict c.inlet.inbound).answer events answers c.endpoint := by
  have size : (c.inlet.inbound.take kClientHandshakeSize).length = kClientHandshakeSize :=
    List.length_take_of_le enough
  simp only [Connection.handleHandshake, role, handleHandshake, tryDecodeClientHandshake_exact size, verdict,
    if_neg (Nat.not_lt.mpr enough)]
  cases validateClientHandshake (decodeClientHandshake (c.inlet.inbound.take kClientHandshakeSize)) with
  | accepted => rfl
  | notTransactionClient => rfl
  | incompatibleVersion => rfl

/-- What an invariant has to survive for the rounds of the parser to keep it. -/
structure Rounds (answers : List SendResult) (inv : Verdict → Connection κ → Prop) : Prop where
  handshake : ∀ {c next : Connection κ} {v : Verdict}, inv .waiting c → c.Waiting → v ≠ .waiting →
    next.config = c.config → next.endpoint = v.answer events answers c.endpoint → inv v next
  header : ∀ {c next : Connection κ} {v : Verdict} {hooks : κ}, inv v c → c.Waiting → v ≠ .waiting →
    next.config = c.config → next.endpoint = { c.endpoint with hooks } → inv v next
  refused : ∀ {c next : Connection κ} {v : Verdict} {hooks : κ}, inv v c → c.Waiting → v ≠ .waiting →
    next.config.Refuses next.inlet.pendingHeader →
    next.endpoint = Endpoint.markDead events { c.endpoint with hooks } → inv v next
  data : ∀ {c next : Connection κ} {v : Verdict} {completed : Option ReceivedTransaction} {hooks : κ}, inv v c →
    c.Waiting → v ≠ .waiting → next.config = c.config →
    next.endpoint = c.endpoint.deliver events completed hooks → inv v next

/-- The handshake stage and what was heard in it agree, and the invariant holds for the verdict. -/
structure Greeted (inv : Verdict → Connection κ → Prop) (heard : Bytes) (c : Connection κ) : Prop where
  role : c.role = .server
  opening : c.inlet.receiveStage = .handshake →
    c.inlet.expectedBytes = kClientHandshakeSize ∧ c.inlet.inbound = heard ∧ inv .waiting c
  past : c.inlet.receiveStage ≠ .handshake → kClientHandshakeSize ≤ heard.length ∧ inv (verdict heard) c

namespace Greeted

variable {events} {inv : Verdict → Connection κ → Prop} {heard : Bytes} {c : Connection κ}

theorem holds (greeted : Greeted inv heard c) : inv .waiting c ∨ inv (verdict heard) c := by
  by_cases stage : c.inlet.receiveStage = .handshake
  · exact .inl (greeted.opening stage).2.2
  · exact .inr (greeted.past stage).2

theorem endpoint {e : Endpoint κ} (greeted : Greeted inv heard c)
    (keeps : ∀ {v}, inv v c → inv v { c with endpoint := e }) : Greeted inv heard { c with endpoint := e } where
  role := greeted.role
  opening stage := by
    obtain ⟨expected, inbound, holds⟩ := greeted.opening stage
    exact ⟨expected, inbound, keeps holds⟩
  past stage := by
    obtain ⟨enough, holds⟩ := greeted.past stage
    exact ⟨enough, keeps holds⟩

theorem feed (feeds : ∀ {v c} bytes, inv v c → inv v (Connection.feed bytes c)) (greeted : Greeted inv heard c)
    (bytes : Bytes) : Greeted inv (heard ++ bytes) (c.feed bytes) where
  role := greeted.role
  opening stage := by
    obtain ⟨expected, inbound, holds⟩ := greeted.opening stage
    exact ⟨expected, by rw [Connection.feed, inbound], feeds bytes holds⟩
  past stage := by
    obtain ⟨enough, holds⟩ := greeted.past stage
    rw [verdict_append enough, List.length_append]
    exact ⟨by omega, feeds bytes holds⟩

/-- A round that goes on. The handshake round reads the verdict off the inbound bytes, which in
its stage are all that was heard. -/
theorem round {answers : List SendResult} (rounds : Rounds events answers inv) {next : Connection κ}
    (greeted : Greeted inv heard c) (waiting : c.Waiting) (round : Connection.Round events answers c next) :
    Greeted inv heard next := by
  cases round with
  | handshake stage enough same =>
    -- In the handshake stage all that was heard is still there.
    obtain ⟨expected, inbound, holds⟩ := greeted.opening stage
    rw [expected, inbound, Nat.not_lt] at enough
    obtain ⟨role, config, _, _, _⟩ := Connection.handleHandshake_frame events answers c
    have answered := handleHandshake_answer events greeted.role (inbound ▸ enough) answers
    rw [inbound] at answered
    subst same
    exact
      { role := role.trans greeted.role
        opening := fun stage => ReceiveStage.noConfusion stage
        past := fun _ => ⟨enough, rounds.handshake holds waiting (verdict_ne_waiting enough) config answered⟩ }
  | header stage _ _ same =>
    have past : c.inlet.receiveStage ≠ .handshake := by simp [stage]
    obtain ⟨enough, holds⟩ := greeted.past past
    subst same
    exact
      { role := greeted.role
        opening := fun stage => ReceiveStage.noConfusion stage
        past := fun _ => ⟨enough, rounds.header holds waiting (verdict_ne_waiting enough) rfl rfl⟩ }
  | data stage _ same =>
    have past : c.inlet.receiveStage ≠ .handshake := by simp [stage]
    obtain ⟨enough, holds⟩ := greeted.past past
    rw [Connection.completeTransaction_eq] at same
    subst same
    exact
      { role := greeted.role
        opening := fun stage => ReceiveStage.noConfusion stage
        past := fun _ => ⟨enough, rounds.data holds waiting (verdict_ne_waiting enough) rfl rfl⟩ }

theorem leaves {answers : List SendResult} (rounds : Rounds events answers inv) {result : Connection κ}
    (greeted : Greeted inv heard c) (leaves : Connection.Leaves events c result) : Greeted inv heard result := by
  cases leaves with
  | ended _ same => exact same ▸ greeted
  | short _ _ same => exact same ▸ greeted
  | refused waiting stage _ refuses same =>
    have past : c.inlet.receiveStage ≠ .handshake := by simp [stage]
    obtain ⟨enough, holds⟩ := greeted.past past
    subst same
    exact
      { role := greeted.role
        opening := fun still => absurd still past
        past := fun _ => ⟨enough, rounds.refused holds waiting (verdict_ne_waiting enough) refuses rfl⟩ }

theorem parse {answers : List SendResult} (rounds : Rounds events answers inv) (greeted : Greeted inv heard c) :
    Greeted inv heard (c.parseInbound events answers) := by
  apply Loop.run_invariant Connection.parseMeasure (Connection.parseStep_drops events answers) (Greeted inv heard)
    (Greeted inv heard) ?_ ?_ greeted
  · intro c next greeted step
    obtain ⟨waiting, round⟩ := (Connection.parseStep_again_iff events).mp step
    exact greeted.round rounds waiting round
  · intro c result greeted step
    exact greeted.leaves rounds ((Connection.parseStep_done_iff events).mp step)

/-- The parser leaves the handshake stage as soon as there are enough bytes. -/
theorem parse_waits {answers : List SendResult} (rounds : Rounds events answers inv) (greeted : Greeted inv heard c) :
    (c.parseInbound events answers).inlet.receiveStage = .handshake →
      (c.parseInbound events answers).Waiting → heard.length < kClientHandshakeSize := by
  apply Loop.run_invariant Connection.parseMeasure (Connection.parseStep_drops events answers) (Greeted inv heard)
    (fun result => result.inlet.receiveStage = .handshake → result.Waiting → heard.length < kClientHandshakeSize)
    ?_ ?_ greeted
  · intro c next greeted step
    obtain ⟨waiting, round⟩ := (Connection.parseStep_again_iff events).mp step
    exact greeted.round rounds waiting round
  · intro c result greeted step opening live
    cases (Connection.parseStep_done_iff events).mp step with
    | ended rests same => exact absurd (same ▸ live) rests
    | short _ few same =>
      subst same
      obtain ⟨expected, inbound, _⟩ := greeted.opening opening
      rw [Connection.awaited, if_neg (by simp [opening]), expected, inbound] at few
      exact few
    | refused _ stage _ _ same =>
      rw [same] at opening
      exact absurd (stage.symm.trans opening) (by decide)

end Greeted

end

end Slopline.Server
