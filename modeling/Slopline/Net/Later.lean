import Mathlib.Logic.Relation
import Slopline.Net.Connection

/-! What the operations below the parser can do to an endpoint.

Whatever `flush_sends`, `mark_dead` and the application's calls do, nested in
callbacks or not, the endpoint afterwards is `Later`: the trace grew by ordinary
entries and at most one death, and the socket never opened. The proofs about runs
use this relation and none of the operations' bodies.
-/

set_option autoImplicit false

namespace Slopline.Net

open Library

variable {κ : Type}

/-- Neither a callback nor a state change. -/
def Event.ordinary : Event → Bool
  | .queued _ _ | .closeCalled | .sent _ => true
  | .onEstablished | .onTransaction _ | .onClosed => false

/-- The entries an endpoint below the parser can add between two states. -/
inductive Quiet : ConnectionState → List Entry → ConnectionState → Prop where
  | nil (state : ConnectionState) : Quiet state [] state
  | note {state final : ConnectionState} {rest : List Entry} (event : Event) :
      event.ordinary = true → Quiet state rest final → Quiet state (⟨state, event⟩ :: rest) final
  | dies {state : ConnectionState} {rest : List Entry} :
      state ≠ .dead → Quiet .dead rest .dead → Quiet state (⟨.dead, .onClosed⟩ :: rest) .dead

namespace Quiet

theorem state_eq {first last : ConnectionState} {added : List Entry} (quiet : Quiet first added last) :
    last = first ∨ first ≠ .dead ∧ last = .dead := by
  induction quiet with
  | nil => exact .inl rfl
  | note _ _ _ ih => exact ih
  | dies alive _ _ => exact .inr ⟨alive, rfl⟩

theorem dead {last : ConnectionState} {added : List Entry} (quiet : Quiet .dead added last) :
    last = .dead := by
  rcases quiet.state_eq with same | ⟨_, same⟩ <;> exact same

theorem append {first middle last : ConnectionState} {left right : List Entry}
    (head : Quiet first left middle) (tail : Quiet middle right last) :
    Quiet first (left ++ right) last := by
  induction head with
  | nil => exact tail
  | note event ordinary _ ih => exact .note event ordinary (ih tail)
  | dies alive _ ih =>
    obtain rfl := tail.dead
    exact .dies alive (ih tail)

theorem alive {first last : ConnectionState} {added : List Entry} (quiet : Quiet first added last)
    (live : last ≠ .dead) : last = first :=
  quiet.state_eq.resolve_right fun ended => live ended.2

theorem events {first last : ConnectionState} {added : List Entry} (quiet : Quiet first added last) :
    ∀ entry ∈ added, entry.event.ordinary = true ∨ entry.event = .onClosed := by
  induction quiet with
  | nil => simp
  | note event ordinary _ ih => simpa [ordinary] using ih
  | dies _ _ ih => simpa using ih

end Quiet

def closeCalled (trace : List Entry) : Prop := ∃ entry ∈ trace, entry.event = .closeCalled

@[simp] theorem closeCalled_nil : ¬ closeCalled [] := by simp [closeCalled]

@[simp] theorem closeCalled_append (first rest : List Entry) :
    closeCalled (first ++ rest) ↔ closeCalled first ∨ closeCalled rest := by
  simp [closeCalled, or_and_right, exists_or]

@[simp] theorem closeCalled_singleton (entry : Entry) :
    closeCalled [entry] ↔ entry.event = .closeCalled := by simp [closeCalled]

def sentBytes (trace : List Entry) : Bytes :=
  trace.flatMap fun entry => match entry.event with
    | .sent bytes => bytes
    | _ => []

@[simp] theorem sentBytes_nil : sentBytes [] = [] := rfl

@[simp] theorem sentBytes_append (first rest : List Entry) :
    sentBytes (first ++ rest) = sentBytes first ++ sentBytes rest := by simp [sentBytes]

@[simp] theorem sentBytes_singleton (state : ConnectionState) (bytes : Bytes) :
    sentBytes [⟨state, .sent bytes⟩] = bytes := by simp [sentBytes]

theorem sentBytes_other (state : ConnectionState) {event : Event} (other : ∀ bytes, event ≠ .sent bytes) :
    sentBytes [⟨state, event⟩] = [] := by
  cases event with
  | sent bytes => exact absurd rfl (other bytes)
  | _ => rfl

def dispatched (trace : List Entry) : List ReceivedTransaction :=
  trace.filterMap fun entry => match entry.event with
    | .onTransaction transaction => some transaction
    | _ => none

@[simp] theorem dispatched_append (first rest : List Entry) :
    dispatched (first ++ rest) = dispatched first ++ dispatched rest := by simp [dispatched]

@[simp] theorem dispatched_onTransaction (state : ConnectionState) (transaction : ReceivedTransaction) :
    dispatched [⟨state, .onTransaction transaction⟩] = [transaction] := rfl

theorem dispatched_other (state : ConnectionState) {event : Event}
    (other : ∀ transaction, event ≠ .onTransaction transaction) : dispatched [⟨state, event⟩] = [] := by
  cases event with
  | onTransaction transaction => exact absurd rfl (other transaction)
  | _ => rfl

theorem dispatched_eq_nil {trace : List Entry}
    (none : ∀ entry ∈ trace, ∀ transaction, entry.event ≠ .onTransaction transaction) : dispatched trace = [] := by
  refine List.filterMap_eq_nil_iff.mpr fun entry member => ?_
  have other := none entry member
  split
  next transaction event => exact absurd event (other transaction)
  next => rfl

def Idle (trace longer : List Entry) : Prop := trace <+: longer ∧ dispatched longer = dispatched trace

theorem mem_dispatched {trace : List Entry} {transaction : ReceivedTransaction} :
    transaction ∈ dispatched trace ↔ ∃ entry ∈ trace, entry.event = .onTransaction transaction := by
  simp only [dispatched, List.mem_filterMap]
  refine exists_congr fun entry => and_congr_right fun _ => ?_
  split
  next event => simp [event]
  next other => simp only [reduceCtorEq, false_iff]; exact other transaction

namespace Endpoint

def unsent (e : Endpoint κ) : Bytes := e.sendQueue.flatMap fun pending => pending.bytes.drop pending.offset

def written (e : Endpoint κ) : Bytes := sentBytes e.trace ++ e.unsent

/-- The endpoint after its socket took `count` more bytes of its first pending send. -/
def take (pending : PendingSend) (rest : List PendingSend) (count : Nat) (e : Endpoint κ) : Endpoint κ :=
  { e.note (.sent ((pending.bytes.drop pending.offset).take count)) with
    sendQueue := if pending.bytes.length ≤ pending.offset + count then rest
      else { pending with offset := pending.offset + count } :: rest }

theorem written_take {e : Endpoint κ} {pending : PendingSend} {rest : List PendingSend}
    (queue : e.sendQueue = pending :: rest) (count : Nat) : (e.take pending rest count).written = e.written := by
  have split := List.take_append_drop count (pending.bytes.drop pending.offset)
  have same : e.written = sentBytes e.trace ++ (((pending.bytes.drop pending.offset).take count ++
      (pending.bytes.drop (pending.offset + count))) ++
        rest.flatMap fun pending => pending.bytes.drop pending.offset) := by
    rw [← List.drop_drop, split]
    simp [Endpoint.written, unsent, queue]
  rw [same]
  simp only [take, Endpoint.written, note, unsent, sentBytes_append, sentBytes_singleton, List.append_assoc]
  split
  next all => simp [List.drop_eq_nil_of_le all]
  next => simp

structure Later (e e' : Endpoint κ) : Prop where
  trace : ∃ added, e'.trace = e.trace ++ added ∧ Quiet e.state added e'.state ∧
    (closeCalled added → e'.socket.isOpen = false) ∧
    (e'.socket.isOpen = false → e.socket.isOpen = false ∨ e'.state = .dead ∨ closeCalled added)
  socket : e.socket.isOpen = false → e'.socket.isOpen = false
  shut : e'.state = .dead → e.state = .dead ∨ e'.socket.isOpen = false
  written : e.written <+: e'.written

namespace Later

theorem of_eq {e e' : Endpoint κ} (trace : e'.trace = e.trace) (state : e'.state = e.state)
    (socket : e'.socket = e.socket) (queue : e.unsent <+: e'.unsent) : Later e e' where
  trace := ⟨[], by simp [trace], by rw [state]; exact .nil _, by simp, fun closed => .inl (socket ▸ closed)⟩
  socket := by simp [socket]
  shut dead := .inl (state ▸ dead)
  written := by
    rw [Endpoint.written, Endpoint.written, trace]
    exact (List.prefix_append_right_inj _).mpr queue

theorem refl (e : Endpoint κ) : Later e e := of_eq rfl rfl rfl List.prefix_rfl

theorem rehook (hooks : κ) (e : Endpoint κ) : Later e { e with hooks } := of_eq rfl rfl rfl List.prefix_rfl

theorem trans {e e' e'' : Endpoint κ} (first : Later e e') (second : Later e' e'') : Later e e'' := by
  obtain ⟨added, grown, quiet, closes, closed⟩ := first.trace
  obtain ⟨added', grown', quiet', closes', closed'⟩ := second.trace
  refine ⟨⟨added ++ added', by simp [grown', grown], quiet.append quiet', ?_, ?_⟩, ?_, ?_,
    first.written.trans second.written⟩
  · intro called
    rcases (closeCalled_append _ _).mp called with called | called
    · exact second.socket (closes called)
    · exact closes' called
  · intro shut
    rcases closed' shut with shut' | dead | called
    · rcases closed shut' with shut'' | dead | called
      · exact .inl shut''
      · exact .inr (.inl ((dead ▸ quiet').dead))
      · exact .inr (.inr (by simp [called]))
    · exact .inr (.inl dead)
    · exact .inr (.inr (by simp [called]))
  · exact fun shut => second.socket (first.socket shut)
  · intro dead
    rcases second.shut dead with dead' | shut
    · exact (first.shut dead').imp_right second.socket
    · exact .inr shut

theorem queued (outgoing : Outgoing) (wire : Bytes) (e : Endpoint κ) :
    Later e (e.note (.queued outgoing wire)) where
  trace := ⟨[⟨e.state, .queued outgoing wire⟩], rfl, .note _ rfl (.nil _), by simp, fun shut => .inl shut⟩
  socket shut := shut
  shut dead := .inl dead
  written := by simp [Endpoint.written, note, unsent, sentBytes_other]

theorem close (e : Endpoint κ) : Later e e.close where
  trace := ⟨[⟨e.state, .closeCalled⟩], rfl, .note _ rfl (.nil _), fun _ => rfl, by simp⟩
  socket _ := rfl
  shut dead := .inl dead
  written := by simp [Endpoint.written, Endpoint.close, note, unsent, sentBytes_other]

theorem sent {e : Endpoint κ} {pending : PendingSend} {rest : List PendingSend}
    (queue : e.sendQueue = pending :: rest) (count : Nat) : Later e (e.take pending rest count) where
  trace := ⟨[⟨e.state, .sent _⟩], rfl, .note _ rfl (.nil _), by simp, fun shut => .inl shut⟩
  socket shut := shut
  shut dead := .inl dead
  written := by rw [written_take queue]

theorem dead {e e' : Endpoint κ} (later : Later e e') (gone : e.state = .dead) : e'.state = .dead := by
  obtain ⟨_, _, quiet, _⟩ := later.trace
  exact (gone ▸ quiet).dead

theorem alive {e e' : Endpoint κ} (later : Later e e') (live : e'.state ≠ .dead) : e'.state = e.state := by
  obtain ⟨_, _, quiet, _⟩ := later.trace
  exact quiet.alive live

theorem dispatched {e e' : Endpoint κ} (later : Later e e') :
    Net.dispatched e'.trace = Net.dispatched e.trace := by
  obtain ⟨added, grown, quiet, _⟩ := later.trace
  have none : Net.dispatched added = [] := by
    refine dispatched_eq_nil fun entry member transaction event => ?_
    rcases quiet.events entry member with ordinary | closed
    · simp [event, Event.ordinary] at ordinary
    · simp [event] at closed
  rw [grown, dispatched_append, none, List.append_nil]

theorem idle {e e' : Endpoint κ} (later : Later e e') : Idle e.trace e'.trace := by
  obtain ⟨added, grown, _⟩ := later.trace
  exact ⟨⟨added, grown.symm⟩, later.dispatched⟩

end Later

/-! What is queued changes nothing but the send queue. -/

theorem queueBytes_state (bytes : Bytes) (e : Endpoint κ) : (e.queueBytes bytes).state = e.state := by
  unfold queueBytes
  split <;> rfl

theorem queueBytes_trace (bytes : Bytes) (e : Endpoint κ) : (e.queueBytes bytes).trace = e.trace := by
  unfold queueBytes
  split <;> rfl

theorem queueBytes_socket (bytes : Bytes) (e : Endpoint κ) : (e.queueBytes bytes).socket = e.socket := by
  unfold queueBytes
  split <;> rfl

theorem queueBytes_later (bytes : Bytes) (e : Endpoint κ) : Later e (e.queueBytes bytes) := by
  unfold queueBytes
  split
  · exact .refl e
  · exact .of_eq rfl rfl rfl (by simp [unsent])

inductive SendMove (die : Endpoint κ → Endpoint κ) (answer : SendResult) (e : Endpoint κ) :
    Loop (Endpoint κ) (Endpoint κ) → Prop where
  | drained : e.sendQueue = [] → SendMove die answer e (.done (if e.state = .closing then die e else e))
  | took {pending : PendingSend} {rest : List PendingSend} (count : Nat) : e.sendQueue = pending :: rest →
      e.socket.isOpen = true → SendMove die answer e (.again (e.take pending rest count))
  | blocks : answer = .error .wouldBlock → SendMove die answer e (.done e)
  | retries : answer = .error .interrupted → SendMove die answer e (.again e)
  | fails {pending : PendingSend} {rest : List PendingSend} : e.sendQueue = pending :: rest →
      e.socket.isOpen = false ∨ pending.bytes.drop pending.offset = [] ∨
        (∃ error, answer = .error error ∧ error ≠ .wouldBlock ∧ error ≠ .interrupted) →
      SendMove die answer e (.done (die e))

theorem sendStep_move (die : Endpoint κ → Endpoint κ) (answer : SendResult) (e : Endpoint κ) :
    SendMove die answer e (sendStep die answer e) := by
  unfold sendStep
  cases queue : e.sendQueue with
  | nil => exact .drained queue
  | cons pending rest =>
    -- A shut socket and an empty rest are errors before the system is asked.
    by_cases unusable : (!e.socket.isOpen || (pending.bytes.drop pending.offset).isEmpty) = true
    · have sent : e.socket.send (pending.bytes.drop pending.offset) answer = .error .invalidArgument :=
        if_pos unusable
      simp only [sent]
      apply SendMove.fails queue
      simp only [Bool.or_eq_true, Bool.not_eq_true', List.isEmpty_iff] at unusable
      cases unusable with
      | inl shut => exact .inl shut
      | inr empty => exact .inr (.inl empty)
    · have shown : e.socket.isOpen = true := by
        by_contra shut
        simp [shut] at unusable
      cases answer with
      | accepted count =>
        have sent : e.socket.send (pending.bytes.drop pending.offset) (.accepted count) =
            .ok (min count (pending.bytes.drop pending.offset).length) := if_neg unusable
        simp only [sent]
        exact .took _ queue shown
      | error error =>
        have sent : e.socket.send (pending.bytes.drop pending.offset) (.error error) = .error error :=
          if_neg unusable
        simp only [sent]
        cases error with
        | wouldBlock => exact .blocks rfl
        | interrupted => exact .retries rfl
        | _ => exact .fails queue (.inr (.inr ⟨_, rfl, by decide, by decide⟩))

/-- What a flush relates its endpoints by, if taking bytes and dying do. -/
theorem flushLoop_relates {die : Endpoint κ → Endpoint κ} (related : Endpoint κ → Endpoint κ → Prop)
    (refl : ∀ e, related e e) (trans : ∀ {e e' e''}, related e e' → related e' e'' → related e e'')
    (takes : ∀ {e : Endpoint κ} {pending rest}, e.sendQueue = pending :: rest → e.socket.isOpen = true →
      ∀ count, related e (e.take pending rest count))
    (dies : ∀ e, related e (die e)) (answers : List SendResult) (e : Endpoint κ) :
    related e (flushLoop die answers e) := by
  induction answers generalizing e with
  | nil => exact refl e
  | cons answer answers ih =>
    have move := sendStep_move die answer e
    unfold flushLoop
    generalize sendStep die answer e = outcome at move ⊢
    cases move with
    | drained _ =>
      dsimp only
      split
      · exact dies e
      · exact refl e
    | took count queue shown => exact trans (takes queue shown count) (ih _)
    | blocks _ => exact refl e
    | retries _ => exact ih e
    | fails _ _ => exact dies e

/-- What an operation below the parser does to an endpoint, one thing at a time. -/
inductive Act : Endpoint κ → Endpoint κ → Prop where
  | takes {e : Endpoint κ} {pending : PendingSend} {rest : List PendingSend} (count : Nat) :
      e.sendQueue = pending :: rest → e.socket.isOpen = true → Act e (e.take pending rest count)
  | queues {e : Endpoint κ} (outgoing : Outgoing) (wire : Bytes) (hooks : κ) :
      Act e (({ e with hooks }.note (.queued outgoing wire)).queueBytes wire)
  | setCrypto {e : Endpoint κ} (crypto : ConnectionCryptoHooks κ) : Act e (e.setCrypto crypto)
  | close {e : Endpoint κ} : Act e e.close
  | dies {e : Endpoint κ} : e.state ≠ .dead →
      Act e ({ e with state := .dead, socket := e.socket.close }.note .onClosed)

abbrev Acts : Endpoint κ → Endpoint κ → Prop := Relation.ReflTransGen Act

theorem Acts.invariant {inv : Endpoint κ → Prop} (keeps : ∀ {e e'}, Act e e' → inv e → inv e') {e e' : Endpoint κ}
    (acts : Acts e e') (holds : inv e) : inv e' := by
  induction acts with
  | refl => exact holds
  | tail _ act ih => exact keeps act ih

section
variable {die : Endpoint κ → Endpoint κ} (dies : ∀ e, Acts e (die e))
include dies

theorem flushLoop_acts (answers : List SendResult) (e : Endpoint κ) : Acts e (flushLoop die answers e) :=
  flushLoop_relates Acts (fun _ => .refl) .trans (fun queue shown count => .single (.takes count queue shown))
    dies answers e

theorem queueTransactionWith_acts (outgoing : Outgoing) (answers : List SendResult) (e : Endpoint κ) :
    Acts e (queueTransactionWith die outgoing answers e) :=
  .head (.queues outgoing _ _) (flushLoop_acts dies _ _)

theorem callWith_acts (e : Endpoint κ) (call : Call κ) : Acts e (callWith die e call) := by
  cases call with
  | queueTransaction outgoing answers => exact queueTransactionWith_acts dies outgoing answers e
  | queueKeepalive answers =>
    simp only [callWith, queueKeepaliveWith]
    split
    · exact queueTransactionWith_acts dies _ answers e
    · exact .refl
  | setCrypto crypto => exact .single (.setCrypto crypto)
  | close => exact .single .close

theorem callsWith_acts (calls : List (Call κ)) (e : Endpoint κ) : Acts e (callsWith die calls e) := by
  induction calls generalizing e with
  | nil => exact .refl
  | cons call calls ih => exact (callWith_acts dies e call).trans (ih _)

end

variable (events : ConnectionEvents κ)

theorem markDead_acts (e : Endpoint κ) : Acts e (markDead events e) := by
  unfold markDead
  split
  · exact .refl
  next alive => exact .head (.dies alive) (callsWith_acts (fun _ => .refl) _ _)

theorem flushSends_acts (answers : List SendResult) (e : Endpoint κ) : Acts e (flushSends events answers e) :=
  flushLoop_acts (markDead_acts events) _ e

theorem call_acts (e : Endpoint κ) (request : Call κ) : Acts e (call events e request) :=
  callWith_acts (markDead_acts events) e request

theorem calls_acts (requests : List (Call κ)) (e : Endpoint κ) : Acts e (calls events requests e) :=
  callsWith_acts (markDead_acts events) requests e

/-! What the acts come to. -/

theorem Act.later {e e' : Endpoint κ} (act : Act e e') : Later e e' := by
  cases act with
  | takes count queue _ => exact .sent queue count
  | queues outgoing wire hooks =>
    exact ((Later.rehook hooks e).trans (.queued outgoing wire _)).trans (queueBytes_later _ _)
  | setCrypto crypto => exact .of_eq rfl rfl rfl List.prefix_rfl
  | close => exact .close e
  | dies alive =>
    exact {
      trace := ⟨[⟨.dead, .onClosed⟩], rfl, .dies alive (.nil _), by simp, fun _ => .inr (.inl rfl)⟩
      socket := fun _ => rfl
      shut := fun _ => .inr rfl
      written := by simp [Endpoint.written, note, unsent, sentBytes_other] }

theorem Acts.later {e e' : Endpoint κ} (acts : Acts e e') : Later e e' :=
  acts.invariant (fun act later => later.trans act.later) (.refl e)

theorem markDead_later (e : Endpoint κ) : Later e (markDead events e) := (markDead_acts events e).later

theorem flushSends_later (answers : List SendResult) (e : Endpoint κ) :
    Later e (flushSends events answers e) := (flushSends_acts events answers e).later

theorem call_later (e : Endpoint κ) (request : Call κ) : Later e (call events e request) :=
  (call_acts events e request).later

theorem calls_later (requests : List (Call κ)) (e : Endpoint κ) : Later e (calls events requests e) :=
  (calls_acts events requests e).later

theorem markDead_dead (e : Endpoint κ) : (markDead events e).state = .dead := by
  unfold markDead
  split
  · assumption
  · exact (callsWith_acts (fun _ => .refl) _ _).later.dead rfl

theorem markDead_of_dead {e : Endpoint κ} (gone : e.state = .dead) : markDead events e = e := by
  simp [markDead, gone]

end Endpoint

end Slopline.Net
