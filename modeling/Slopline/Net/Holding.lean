import Slopline.Net.Chunking
import Slopline.Net.ReceiveCap
import Slopline.Net.Receiving
import Slopline.Net.Restart

/-! What a connection holds for its peer between two calls.

Three things wait there for more bytes: the unfinished reassemblies, the part whose header
has come, and the bytes the parser left. The receive policy bounds each of them, whatever
the peer sends and however it is cut.
-/

set_option autoImplicit false

namespace Slopline.Net

open Protocol Library

variable {κ : Type}

namespace Connection

variable (events : ConnectionEvents κ)

theorem session_config (ops : List (PublicOp κ)) (c : Connection κ) : (session events ops c).config = c.config :=
  session_invariant events (fun c' => c'.config = c.config)
    (fun c' arguments same => (start_frame events arguments c').2.1.trans same)
    (fun c' op same => (step_config events c' op).trans same) ops rfl

theorem session_capped (ops : List (PublicOp κ)) {c : Connection κ} (capped : c.Capped) :
    (session events ops c).Capped :=
  session_invariant events Capped (fun _ arguments capped => capped.start events arguments) (step_capped events)
    ops capped

/-- Public operations in any order, `start` too: each reassembly is under its own key, has begun and
lacks bytes of an admissible total, and a part whose data is awaited has an admissible header. -/
theorem holding_bounded (role : Role) (config : ConnectionConfig) (hooks : κ) (ops : List (PublicOp κ)) :
    let c := session events ops (fresh role config hooks)
    (∀ key entry, c.inlet.partials.lookup key = some entry →
      0 < entry.data.length ∧ entry.data.length < entry.header.totalSize.toNat ∧
        entry.header.totalSize.toNat ≤ config.maxReceiveSize.toNat ∧
        key = (entry.header.isReply, entry.header.id)) ∧
      (c.inlet.receiveStage = .data →
        c.inlet.expectedBytes = c.inlet.pendingHeader.dataSize.toNat ∧
          (0 < c.inlet.pendingHeader.dataSize.toNat ∧
            c.inlet.pendingHeader.dataSize.toNat ≤ config.maxReceiveSize.toNat) ∧
          0 < c.inlet.pendingHeader.totalSize.toNat ∧
            c.inlet.pendingHeader.totalSize.toNat ≤ config.maxReceiveSize.toNat) := by
  intro c
  have capped : c.Capped := session_capped events ops (fresh_capped role config hooks)
  have same : c.config = config := (session_config events ops _).trans (fresh_config role config hooks)
  constructor
  · intro key entry found
    have sound := capped.partials key entry found
    rw [same] at sound
    exact ⟨sound.nonempty, sound.short, sound.total, sound.key⟩
  · intro stage
    obtain ⟨expected, accepted⟩ := capped.data stage
    rw [same] at accepted
    obtain ⟨total, nonempty, totalFits, dataFits⟩ := ConnectionConfig.refuses_bounds accepted
    exact ⟨expected, ⟨nonempty, dataFits⟩, total, totalFits⟩

/-! The bytes left in the connection. The parser leaves fewer than its stage waits for. -/

theorem session_formed (ops : List (PublicOp κ)) {c : Connection κ} (formed : c.Formed) :
    (session events ops c).Formed := by
  refine session_invariant events Formed ?_ ?_ ops formed
  · intro c arguments formed stage
    obtain ⟨role, _, inlet, _⟩ := start_frame events arguments c
    rw [inlet] at stage ⊢
    rw [role]
    exact formed stage
  · exact step_invariant events Formed (fun _ _ formed => formed) (fun _ _ formed _ => formed)
      (fun _ _ _ _ _ move => .of_stage (move.leaves events))

theorem fresh_formed (role : Role) (config : ConnectionConfig) (hooks : κ) : (fresh role config hooks).Formed := by
  cases role <;> exact fun _ => rfl

/-- Every stage waits for something, and for no more than a header or the largest part. -/
theorem awaited_bounds {c : Connection κ} (capped : c.Capped) (formed : c.Formed) :
    0 < c.awaited ∧ c.awaited ≤ max kTransactionHeaderSize c.config.maxReceiveSize.toNat := by
  cases stage : c.inlet.receiveStage with
  | handshake =>
    have size : c.role.handshakeSize = kServerHandshakeReplySize ∨ c.role.handshakeSize = kClientHandshakeSize := by
      cases c.role <;> simp [Role.handshakeSize]
    rw [awaited, if_neg (by simp [stage]), formed stage]
    simp only [kServerHandshakeReplySize, kClientHandshakeSize, kTransactionHeaderSize] at size ⊢
    omega
  | header =>
    rw [awaited, if_pos stage]
    exact ⟨by decide, Nat.le_max_left _ _⟩
  | data =>
    obtain ⟨expected, accepted⟩ := capped.data stage
    obtain ⟨_, nonempty, _, fits⟩ := ConnectionConfig.refuses_bounds accepted
    rw [awaited, if_neg (by simp [stage]), expected]
    exact ⟨nonempty, Nat.le_trans fits (Nat.le_max_right _ _)⟩

theorem parseInbound_short (answers : List SendResult) (c : Connection κ)
    (waiting : (parseInbound events answers c).Waiting) :
    (parseInbound events answers c).inlet.inbound.length < (parseInbound events answers c).awaited := by
  obtain ⟨last, _, left⟩ := Loop.run_last parseMeasure (parseStep_drops events answers) c
  have leaves := (parseStep_done_iff events).mp left
  rw [show Loop.run parseMeasure (parseStep_drops events answers) c = parseInbound events answers c from rfl] at leaves
  cases leaves with
  | ended ended same => exact absurd (same ▸ waiting) ended
  | short _ few same => rwa [same]
  | refused _ _ _ _ same =>
    rw [same] at waiting
    exact absurd (Endpoint.markDead_dead events _) waiting.1

theorem serviceReadable_short {received : List RecvResult} {answers : List SendResult} {c : Connection κ}
    (waiting : (serviceReadable events received answers c).Waiting) :
    (serviceReadable events received answers c).inlet.inbound.length <
      (serviceReadable events received answers c).awaited := by
  revert waiting
  simp only [serviceReadable]
  split
  next dead => exact fun waiting => absurd dead waiting.1
  next =>
    split
    next gone _ => exact fun waiting => absurd (Endpoint.markDead_dead events gone.endpoint) waiting.1
    next fed _ => exact parseInbound_short events answers fed

/-- A connection that is closing parses nothing more. -/
theorem serviceReadable_closing {received : List RecvResult} {answers : List SendResult} {c : Connection κ}
    (closing : c.endpoint.state = .closing) (lives : (serviceReadable events received answers c).endpoint.state ≠ .dead) :
    (serviceReadable events received answers c).inlet.inbound = c.inlet.inbound ++ arriving received := by
  have alive : c.endpoint.state ≠ .dead := by simp [closing]
  cases shown : c.endpoint.socket.isOpen with
  | false =>
    rw [serviceReadable_closed events shown] at lives
    exact absurd (Endpoint.markDead_dead events c.endpoint) lives
  | true =>
    rw [serviceReadable_open events alive shown] at lives ⊢
    split at lives
    next survives =>
      have resting : ¬ (c.feed (arriving received)).Waiting := fun waiting => waiting.2 closing
      rw [if_pos survives, parseInbound, Loop.run_done _ _ (parseStep_resting events answers resting)]
      rfl
    next => exact absurd (Endpoint.markDead_dead events _) lives

/-- However much a peer sends, a connection that lives through `service_readable` and is not closing
keeps less of it unparsed than one header or one part of `max_receive_size`. One that is closing
keeps all of it. -/
theorem inbound_bounded (role : Role) (config : ConnectionConfig) (hooks : κ) (ops : List (PublicOp κ))
    (received : List RecvResult) (answers : List SendResult) :
    let before := session events ops (fresh role config hooks)
    let c := serviceReadable events received answers before
    (c.Waiting → c.inlet.inbound.length < max kTransactionHeaderSize config.maxReceiveSize.toNat) ∧
      (before.endpoint.state = .closing → c.endpoint.state ≠ .dead →
        c.inlet.inbound = before.inlet.inbound ++ arriving received) := by
  intro before c
  refine ⟨fun waiting => ?_, serviceReadable_closing events⟩
  have last : c = session events (ops ++ [.op (.serviceReadable received answers)]) (fresh role config hooks) := by
    rw [session_append]
    rfl
  have few := serviceReadable_short events waiting
  have bounds := awaited_bounds (c := c) (last ▸ session_capped events _ (fresh_capped role config hooks))
    (last ▸ session_formed events _ (fresh_formed role config hooks))
  have same : c.config = config := by rw [last, session_config, fresh_config]
  rw [same] at bounds
  exact Nat.lt_of_lt_of_le few bounds.2

def threeBytes : Chunk := ⟨[84, 82, 84], by decide, by decide⟩

theorem otherClient_given : encodeClientHandshake { version := 2 } ≠ [] := clientHandshake_ne_nil _

theorem otherClient_fits : (encodeClientHandshake { version := 2 }).length ≤ kScratchSize := by decide

def otherClient : Chunk := ⟨encodeClientHandshake { version := 2 }, otherClient_given, otherClient_fits⟩

theorem inbound_bounded_handshake :
    (serviceReadable .silent [.read threeBytes] []
        (session .silent [.start {}] (fresh .server {} ()))).inlet.inbound.length
        < max kTransactionHeaderSize (ConnectionConfig.maxReceiveSize {}).toNat ∧
      (serviceReadable .silent [.read threeBytes] []
        (session .silent [.start {}, .op (.serviceReadable [.read otherClient] [])]
          (fresh .server {} ()))).inlet.inbound = threeBytes.bytes :=
  ⟨(inbound_bounded .silent .server {} () [.start {}] [.read threeBytes] []).1 ⟨by decide, by decide⟩,
    (inbound_bounded .silent .server {} () [.start {}, .op (.serviceReadable [.read otherClient] [])]
      [.read threeBytes] []).2 (by decide +kernel) (by decide +kernel)⟩

end Connection

end Slopline.Net
