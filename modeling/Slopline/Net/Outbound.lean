import Slopline.Net.Duplex

/-! What a working socket makes of the application's transactions.

A socket that is slow but does not fail loses nothing: what has been written, sent or
still queued, is what the endpoint's voice has uttered, and the voice is where these
transactions have brought it.
-/

set_option autoImplicit false

namespace Slopline.Net

open Protocol Library

variable {κ δ ρ : Type} {crypto : ConnectionCryptoHooks κ} {channel : Channel δ UInt8 UInt8} {roll : ρ → UInt8 × ρ}

namespace Endpoint

structure Usable (crypto : ConnectionCryptoHooks κ) (e : Endpoint κ) : Prop where
  shown : e.socket.isOpen = true
  alive : e.state ≠ .dead
  staying : e.state ≠ .closing
  equipped : e.crypto = crypto
  fresh : e.Fresh

structure Speaks (duplex : Duplex crypto channel roll) (peer : ConnectionConfig) (more : List Outgoing)
    (e e' : Endpoint κ) : Prop where
  state : e'.state = e.state
  socket : e'.socket = e.socket
  crypto : e'.crypto = e.crypto
  fresh : e'.Fresh
  dispatched : Net.dispatched e'.trace = Net.dispatched e.trace
  queued : queuedOf e'.trace = queuedOf e.trace ++ more
  fits : ∀ outgoing ∈ more, outgoing.Fits peer
  written : e'.written = e.written ++ (duplex.voice e.hooks).utters channel more
  voice : duplex.voice e'.hooks = (duplex.voice e.hooks).after channel more
  receiving : duplex.receiving e'.hooks = duplex.receiving e.hooks

variable {duplex : Duplex crypto channel roll} {peer : ConnectionConfig}

theorem Usable.note {e : Endpoint κ} (usable : e.Usable crypto) (event : Event) : (e.note event).Usable crypto :=
  ⟨usable.shown, usable.alive, usable.staying, usable.equipped, usable.fresh⟩

theorem Speaks.usable {more : List Outgoing} {e e' : Endpoint κ} (speaks : Speaks duplex peer more e e')
    (usable : e.Usable crypto) : e'.Usable crypto where
  shown := by rw [speaks.socket, usable.shown]
  alive := by
    rw [speaks.state]
    exact usable.alive
  staying := by
    rw [speaks.state]
    exact usable.staying
  equipped := speaks.crypto.trans usable.equipped
  fresh := speaks.fresh

theorem Speaks.refl {e : Endpoint κ} (usable : e.Usable crypto) : Speaks duplex peer [] e e :=
  ⟨rfl, rfl, rfl, usable.fresh, rfl, by simp, by simp, by simp, rfl, rfl⟩

theorem Speaks.trans {more more' : List Outgoing} {e e' e'' : Endpoint κ} (first : Speaks duplex peer more e e')
    (second : Speaks duplex peer more' e' e'') : Speaks duplex peer (more ++ more') e e'' where
  state := second.state.trans first.state
  socket := second.socket.trans first.socket
  crypto := second.crypto.trans first.crypto
  fresh := second.fresh
  dispatched := second.dispatched.trans first.dispatched
  queued := by rw [second.queued, first.queued, List.append_assoc]
  fits outgoing member := (List.mem_append.mp member).elim (first.fits outgoing) (second.fits outgoing)
  written := by rw [second.written, first.written, first.voice, Voice.utters_append, List.append_assoc]
  voice := by rw [second.voice, first.voice, Voice.after_append]
  receiving := second.receiving.trans first.receiving

theorem speaks_take {e : Endpoint κ} (usable : e.Usable crypto) {pending : PendingSend} {rest : List PendingSend}
    (queue : e.sendQueue = pending :: rest) (count : Nat) : Speaks duplex peer [] e (e.take pending rest count) := by
  refine ⟨rfl, rfl, rfl, usable.fresh.take queue count, ?_, ?_, by simp, by rw [written_take queue]; simp, rfl, rfl⟩
  · simp [take, note, dispatched_other]
  · simp [take, note, queuedOf_other]

theorem benign_blocking {answers : List SendResult} (benign : ∀ answer ∈ answers, answer.Benign) :
    ∀ answer ∈ answers ++ [.error .wouldBlock], answer.Benign := by
  intro answer member
  cases List.mem_append.mp member with
  | inl listed => exact benign answer listed
  | inr last =>
    rw [List.mem_singleton.mp last]
    trivial

theorem flushSendsWith_speaks (die : Endpoint κ → Endpoint κ) {answers : List SendResult}
    (benign : ∀ answer ∈ answers, answer.Benign) {e : Endpoint κ} (usable : e.Usable crypto) :
    Speaks duplex peer [] e (flushSendsWith die answers e) := by
  obtain ⟨last, speaks, _, _, _, stops⟩ := flushLoop_benign (fun e e' => e.Usable crypto → Speaks duplex peer [] e e')
    (fun _ => .refl) (fun first second usable => (first usable).trans (second ((first usable).usable usable)))
    (fun queue _ count usable => speaks_take usable queue count) die (benign_blocking benign) usable.shown usable.fresh
  unfold flushSendsWith
  cases stops with
  | inl same =>
    rw [same]
    exact speaks usable
  | inr closing => exact absurd closing.1 usable.staying

theorem flushSends_hooks (events : ConnectionEvents κ) {answers : List SendResult}
    (benign : ∀ answer ∈ answers, answer.Benign) {e : Endpoint κ} (shown : e.socket.isOpen = true) (fresh : e.Fresh)
    (staying : e.state ≠ .closing) : (e.flushSends events answers).hooks = e.hooks := by
  obtain ⟨last, hooks, _, _, _, stops⟩ := flushLoop_benign (fun e e' => e'.hooks = e.hooks) (fun _ => rfl)
    (fun first second => second.trans first) (fun _ _ _ => rfl) (markDead events) (benign_blocking benign) shown fresh
  unfold flushSends flushSendsWith
  cases stops with
  | inl same => rw [same, hooks]
  | inr closing => exact absurd closing.1 staying

theorem queueBytes_equipment (bytes : Bytes) (e : Endpoint κ) :
    (e.queueBytes bytes).crypto = e.crypto ∧ (e.queueBytes bytes).hooks = e.hooks := by
  unfold queueBytes
  split <;> exact ⟨rfl, rfl⟩

theorem Usable.queueBytes {e : Endpoint κ} (usable : e.Usable crypto) (bytes : Bytes) :
    (e.queueBytes bytes).Usable crypto where
  shown := by rw [queueBytes_socket, usable.shown]
  alive := by
    rw [queueBytes_state]
    exact usable.alive
  staying := by
    rw [queueBytes_state]
    exact usable.staying
  equipped := by
    rw [(queueBytes_equipment bytes e).1]
    exact usable.equipped
  fresh := usable.fresh.queueBytes bytes

variable (duplex)

theorem queueTransactionWith_speaks (die : Endpoint κ → Endpoint κ) {outgoing : Outgoing} (fits : outgoing.Fits peer)
    {answers : List SendResult} (benign : ∀ answer ∈ answers, answer.Benign) {e : Endpoint κ}
    (usable : e.Usable crypto) : Speaks duplex peer [outgoing] e (queueTransactionWith die outgoing answers e) := by
  obtain rfl : e.crypto = crypto := usable.equipped
  obtain ⟨bytes, voice, receiving⟩ := duplex.encodes_outgoing e.hooks outgoing
  unfold queueTransactionWith
  generalize encodeOutgoing e.crypto e.hooks (outgoingHeader outgoing) outgoing.data = encoded at bytes voice receiving ⊢
  have noted : ({ e with hooks := encoded.2 }.note (.queued outgoing encoded.1)).Usable e.crypto :=
    ⟨usable.shown, usable.alive, usable.staying, rfl, usable.fresh⟩
  have first : Speaks duplex peer [outgoing] e
      (({ e with hooks := encoded.2 }.note (.queued outgoing encoded.1)).queueBytes encoded.1) :=
    { state := queueBytes_state _ _
      socket := queueBytes_socket _ _
      crypto := (queueBytes_equipment _ _).1
      fresh := (noted.queueBytes _).fresh
      dispatched := by
        rw [queueBytes_trace]
        simp [note, dispatched_other]
      queued := by
        rw [queueBytes_trace]
        simp [note]
      fits := by simpa using fits
      written := by
        rw [written_queueBytes, bytes]
        simp [written, note, unsent, sentBytes_other]
      voice := by
        rw [(queueBytes_equipment _ _).2]
        exact voice
      receiving := by
        rw [(queueBytes_equipment _ _).2]
        exact receiving }
  exact first.trans (flushSendsWith_speaks die benign (noted.queueBytes _))

theorem callsWith_speaks (die : Endpoint κ → Endpoint κ) {calls : List (Call κ)}
    (civil : ∀ call ∈ calls, Call.Civil peer call) {e : Endpoint κ} (usable : e.Usable crypto) :
    ∃ more, Speaks duplex peer more e (callsWith die calls e) := by
  induction calls generalizing e with
  | nil => exact ⟨[], .refl usable⟩
  | cons call calls ih =>
    obtain ⟨first, rest⟩ := List.forall_mem_cons.mp civil
    cases first with
    | queueTransaction fits benign =>
      have speaks := queueTransactionWith_speaks duplex die fits benign usable
      obtain ⟨more, later⟩ := ih rest (speaks.usable usable)
      exact ⟨_, speaks.trans later⟩

theorem markEstablished_speaks {events : ConnectionEvents κ} (civil : events.Civil peer) {e : Endpoint κ}
    (usable : e.Usable crypto) :
    ∃ more, Speaks duplex peer more ({ e with state := .established }.note .onEstablished) (e.markEstablished events) ∧
      ({ e with state := .established }.note .onEstablished).Usable crypto := by
  have noted : ({ e with state := .established }.note .onEstablished).Usable crypto :=
    ⟨usable.shown, by simp [note], by simp [note], usable.equipped, usable.fresh⟩
  obtain ⟨more, speaks⟩ := callsWith_speaks duplex (markDead events) (civil.onEstablished _) noted
  exact ⟨more, speaks, noted⟩

theorem dispatch_speaks {events : ConnectionEvents κ} (civil : events.Civil peer) (transaction : ReceivedTransaction)
    {e : Endpoint κ} (usable : e.Usable crypto) :
    ∃ more, Speaks duplex peer more (e.note (.onTransaction transaction)) (e.dispatch events transaction) :=
  callsWith_speaks duplex (markDead events) (civil.onTransaction _) (usable.note _)

end Endpoint

end Slopline.Net
