import Slopline.Net.Later

/-! The send queue of an endpoint.

Whatever the operations below the parser do, what has been handed to the queue is what the
socket took and what the queue still holds, in this order. A socket that is closed takes
nothing more.
-/

set_option autoImplicit false

namespace Slopline.Net

open Library

variable {κ : Type}

def queuedWires (trace : List Entry) : List Bytes :=
  trace.filterMap fun entry => match entry.event with
    | .queued _ wire => some wire
    | _ => none

@[simp] theorem queuedWires_nil : queuedWires [] = [] := rfl

@[simp] theorem queuedWires_append (first rest : List Entry) :
    queuedWires (first ++ rest) = queuedWires first ++ queuedWires rest := by simp [queuedWires]

@[simp] theorem queuedWires_queued (state : ConnectionState) (outgoing : Outgoing) (wire : Bytes) :
    queuedWires [⟨state, .queued outgoing wire⟩] = [wire] := rfl

theorem queuedWires_other (state : ConnectionState) {event : Event}
    (other : ∀ outgoing wire, event ≠ .queued outgoing wire) : queuedWires [⟨state, event⟩] = [] := by
  cases event with
  | queued outgoing wire => exact absurd rfl (other outgoing wire)
  | _ => rfl

/-- The system takes some bytes, would block or was interrupted. -/
def SendResult.Benign : SendResult → Prop
  | .accepted _ | .error .wouldBlock | .error .interrupted => True
  | .error _ => False

instance (answer : SendResult) : Decidable answer.Benign := by
  unfold SendResult.Benign
  split <;> infer_instance

namespace Endpoint

def Fresh (e : Endpoint κ) : Prop := ∀ pending ∈ e.sendQueue, pending.offset < pending.bytes.length

theorem Fresh.unsent_eq_nil {e : Endpoint κ} (fresh : e.Fresh) : e.unsent = [] ↔ e.sendQueue = [] := by
  rw [unsent, List.flatMap_eq_nil_iff]
  constructor
  · intro exhausted
    apply List.eq_nil_iff_forall_not_mem.mpr
    intro pending member
    have left := fresh pending member
    have none := List.drop_eq_nil_iff.mp (exhausted pending member)
    omega
  · intro empty pending member
    rw [empty] at member
    cases member

theorem Fresh.take {e : Endpoint κ} (fresh : e.Fresh) {pending : PendingSend} {rest : List PendingSend}
    (queue : e.sendQueue = pending :: rest) (count : Nat) : (e.take pending rest count).Fresh := by
  have behind : ∀ other ∈ rest, other.offset < other.bytes.length := by
    intro other member
    apply fresh other
    rw [queue]
    exact List.mem_cons_of_mem _ member
  intro other member
  simp only [Endpoint.take] at member
  split at member
  · exact behind other member
  · rename_i more
    cases List.mem_cons.mp member with
    | inl same =>
      subst same
      exact Nat.lt_of_not_le more
    | inr later => exact behind other later

theorem Fresh.queueBytes {e : Endpoint κ} (fresh : e.Fresh) (bytes : Bytes) : (e.queueBytes bytes).Fresh := by
  unfold Endpoint.queueBytes
  split
  · exact fresh
  · rename_i filled
    have new : 0 < bytes.length := by simpa [List.length_pos_iff] using filled
    exact List.forall_mem_append.mpr ⟨fresh, List.forall_mem_singleton.mpr new⟩

theorem written_queueBytes (bytes : Bytes) (e : Endpoint κ) : (e.queueBytes bytes).written = e.written ++ bytes := by
  unfold queueBytes
  split
  · rename_i empty
    rw [List.isEmpty_iff.mp empty, List.append_nil]
  · simp [written, unsent]

/-- Where the system only takes bytes, would block or is interrupted, a flush takes bytes; what
else it can do is to end a closing connection when nothing is pending any more. -/
theorem flushLoop_benign (related : Endpoint κ → Endpoint κ → Prop) (refl : ∀ e, related e e)
    (trans : ∀ {e e' e''}, related e e' → related e' e'' → related e e'')
    (takes : ∀ {e : Endpoint κ} {pending rest}, e.sendQueue = pending :: rest → e.socket.isOpen = true →
      ∀ count, related e (e.take pending rest count))
    (die : Endpoint κ → Endpoint κ) {answers : List SendResult} (benign : ∀ answer ∈ answers, answer.Benign)
    {e : Endpoint κ} (shown : e.socket.isOpen = true) (fresh : e.Fresh) :
    ∃ last, related e last ∧ last.Fresh ∧ last.socket = e.socket ∧ last.state = e.state ∧
      (flushLoop die answers e = last ∨
        e.state = .closing ∧ last.sendQueue = [] ∧ flushLoop die answers e = die last) := by
  induction answers generalizing e with
  | nil => exact ⟨e, refl e, fresh, rfl, rfl, .inl rfl⟩
  | cons answer answers ih =>
    obtain ⟨first, others⟩ := List.forall_mem_cons.mp benign
    have move := sendStep_move die answer e
    unfold flushLoop
    generalize sendStep die answer e = outcome at move ⊢
    cases move with
    | drained empty =>
      dsimp only
      split
      · rename_i closing
        exact ⟨e, refl e, fresh, rfl, rfl, .inr ⟨closing, empty, rfl⟩⟩
      · exact ⟨e, refl e, fresh, rfl, rfl, .inl rfl⟩
    | @took pending rest count queue _ =>
      obtain ⟨last, later, kept, socket, state, stops⟩ := ih others (e := e.take pending rest count) shown
        (fresh.take queue count)
      exact ⟨last, trans (takes queue shown count) later, kept, socket, state, stops⟩
    | blocks _ => exact ⟨e, refl e, fresh, rfl, rfl, .inl rfl⟩
    | retries _ => exact ih others shown fresh
    | @fails pending rest queue reason =>
      -- The socket is open, the buffer is not exhausted and the answer is none of the errors.
      rcases reason with shut | empty | ⟨error, rfl, notBlock, notInterrupted⟩
      · exact absurd (shown.symm.trans shut) (by decide)
      · have left := fresh pending (by rw [queue]; exact List.mem_cons_self)
        have none := List.drop_eq_nil_iff.mp empty
        omega
      · cases error <;> simp_all [SendResult.Benign]

/-- What was handed to the queue in between is what the application queued in between, and
nothing left by a socket that was closed. -/
structure Queues (e e' : Endpoint κ) : Prop where
  fresh : e.Fresh → e'.Fresh
  trace : ∃ added, e'.trace = e.trace ++ added ∧ e'.written = e.written ++ (queuedWires added).flatten
  shut : e.socket.isOpen = false → e'.socket.isOpen = false ∧ sentBytes e'.trace = sentBytes e.trace

namespace Queues

theorem same {e e' : Endpoint κ} (queue : e'.sendQueue = e.sendQueue) (trace : e'.trace = e.trace)
    (socket : e'.socket = e.socket) : Queues e e' where
  fresh fresh := by
    rw [Fresh, queue]
    exact fresh
  trace := ⟨[], by simp [trace], by simp [written, unsent, queue, trace]⟩
  shut shut := ⟨by rw [socket, shut], by rw [trace]⟩

theorem refl (e : Endpoint κ) : Queues e e := same rfl rfl rfl

theorem trans {e e' e'' : Endpoint κ} (first : Queues e e') (second : Queues e' e'') : Queues e e'' where
  fresh fresh := second.fresh (first.fresh fresh)
  trace := by
    obtain ⟨added, grown, written⟩ := first.trace
    obtain ⟨added', grown', written'⟩ := second.trace
    refine ⟨added ++ added', by rw [grown', grown, List.append_assoc], ?_⟩
    rw [written', written, queuedWires_append, List.flatten_append, List.append_assoc]
  shut shut := by
    obtain ⟨closed, same⟩ := first.shut shut
    obtain ⟨closed', same'⟩ := second.shut closed
    exact ⟨closed', same'.trans same⟩

theorem note {e e' : Endpoint κ} {entry : Entry} (queue : e'.sendQueue = e.sendQueue)
    (trace : e'.trace = e.trace ++ [entry]) (queues : ∀ outgoing wire, entry.event ≠ .queued outgoing wire)
    (sends : ∀ bytes, entry.event ≠ .sent bytes) (socket : e.socket.isOpen = false → e'.socket.isOpen = false) :
    Queues e e' where
  fresh fresh := by
    rw [Fresh, queue]
    exact fresh
  trace := by
    refine ⟨[entry], trace, ?_⟩
    simp [written, unsent, queue, trace, sentBytes_other entry.state sends, queuedWires_other entry.state queues]
  shut shut := by
    refine ⟨socket shut, ?_⟩
    rw [trace, sentBytes_append, sentBytes_other entry.state sends, List.append_nil]

theorem queued (outgoing : Outgoing) (wire : Bytes) (hooks : κ) (e : Endpoint κ) :
    Queues e (({ e with hooks }.note (.queued outgoing wire)).queueBytes wire) where
  fresh fresh := Fresh.queueBytes (e := { e with hooks }.note (.queued outgoing wire)) fresh wire
  trace := by
    refine ⟨_, queueBytes_trace wire _, ?_⟩
    rw [written_queueBytes]
    simp [written, Endpoint.note, unsent, sentBytes_other]
  shut shut := by
    rw [queueBytes_socket, queueBytes_trace]
    exact ⟨shut, by simp [Endpoint.note, sentBytes_other]⟩

theorem sent {e : Endpoint κ} {pending : PendingSend} {rest : List PendingSend}
    (queue : e.sendQueue = pending :: rest) (count : Nat) (shown : e.socket.isOpen = true) :
    Queues e (e.take pending rest count) where
  fresh fresh := fresh.take queue count
  trace := ⟨_, rfl, by rw [written_take queue, queuedWires_other _ (by simp)]; simp⟩
  shut shut := absurd (shown.symm.trans shut) (by decide)

end Queues

theorem Act.inQueue {e e' : Endpoint κ} (act : Act e e') : Queues e e' := by
  cases act with
  | takes count queue shown => exact .sent queue count shown
  | queues outgoing wire hooks => exact .queued outgoing wire hooks e
  | setCrypto crypto => exact .same rfl rfl rfl
  | close => exact .note rfl rfl (by simp) (by simp) fun _ => rfl
  | dies _ => exact .note rfl rfl (by simp) (by simp) fun _ => rfl

theorem Acts.inQueue {e e' : Endpoint κ} (acts : Acts e e') : Queues e e' :=
  acts.invariant (fun act queues => queues.trans act.inQueue) (.refl e)

end Endpoint

/-! Runs of the two operations on the queue. -/

inductive SendCall where
  | queueBytes (bytes : Bytes)
  | flushSends (answers : List SendResult)

namespace Endpoint

variable (events : ConnectionEvents κ)

def perform (e : Endpoint κ) : SendCall → Endpoint κ
  | .queueBytes bytes => e.queueBytes bytes
  | .flushSends answers => e.flushSends events answers

def handed (e : Endpoint κ) : SendCall → List Bytes
  | .queueBytes bytes => [bytes]
  | .flushSends answers => queuedWires ((e.flushSends events answers).trace.drop e.trace.length)

def handedAll (e : Endpoint κ) : List SendCall → List Bytes
  | [] => []
  | call :: calls => e.handed events call ++ handedAll (e.perform events call) calls

def performAll (calls : List SendCall) (e : Endpoint κ) : Endpoint κ := calls.foldl (perform events) e

theorem perform_written (e : Endpoint κ) (call : SendCall) :
    (e.perform events call).written = e.written ++ (e.handed events call).flatten := by
  cases call with
  | queueBytes bytes =>
    rw [perform, written_queueBytes, handed, List.flatten_singleton]
  | flushSends answers =>
    obtain ⟨added, grown, written⟩ := (flushSends_acts events answers e).inQueue.trace
    rw [perform, handed, written, grown, List.drop_left]

theorem perform_fresh {e : Endpoint κ} (fresh : e.Fresh) (call : SendCall) : (e.perform events call).Fresh := by
  cases call with
  | queueBytes bytes => exact fresh.queueBytes bytes
  | flushSends answers => exact (flushSends_acts events answers e).inQueue.fresh fresh

theorem performAll_written (calls : List SendCall) (e : Endpoint κ) :
    (performAll events calls e).written = e.written ++ (e.handedAll events calls).flatten := by
  induction calls generalizing e with
  | nil => rw [handedAll, List.flatten_nil, List.append_nil, performAll, List.foldl_nil]
  | cons call calls ih =>
    rw [handedAll, List.flatten_append, ← List.append_assoc, ← perform_written]
    exact ih (e.perform events call)

theorem performAll_fresh (calls : List SendCall) {e : Endpoint κ} (fresh : e.Fresh) :
    (performAll events calls e).Fresh := by
  induction calls generalizing e with
  | nil => exact fresh
  | cons call calls ih => exact ih (perform_fresh events fresh call)

/-- The queue is a lossless FIFO: what the socket took is the beginning of what was handed over,
what is pending is the rest, and nothing pending means that all of it was taken. -/
theorem sendQueue_fifo (socket : Socket) (state : ConnectionState) (crypto : ConnectionCryptoHooks κ) (hooks : κ)
    (calls : List SendCall) :
    let start : Endpoint κ := { socket, state, crypto, hooks }
    let e := performAll events calls start
    let buffers := start.handedAll events calls
    sentBytes e.trace <+: buffers.flatten ∧ sentBytes e.trace ++ e.unsent = buffers.flatten ∧
      (∀ pending ∈ e.sendQueue, pending.offset < pending.bytes.length) ∧
      (e.sendQueue = [] ↔ sentBytes e.trace = buffers.flatten) := by
  intro start e buffers
  have whole : sentBytes e.trace ++ e.unsent = buffers.flatten := performAll_written events calls start
  have fresh : e.Fresh := performAll_fresh events calls fun pending member => (List.not_mem_nil member).elim
  refine ⟨⟨_, whole⟩, whole, fresh, ?_⟩
  rw [← fresh.unsent_eq_nil, ← whole]
  exact List.self_eq_append_right.symm

end Endpoint

end Slopline.Net
