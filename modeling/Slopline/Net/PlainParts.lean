import Slopline.Net.Reassembly

/-! A stream without encryption, cut into parts.

Every byte string is whole parts and then bytes that hold none: the beginning of one, or a
header that the receive policy refuses. How it is cut depends on the bytes alone.
-/

set_option autoImplicit false

namespace Slopline.Net

open Protocol Library

/-- The first whole part, if there is one, and the bytes behind it. -/
def nextPart (config : ConnectionConfig) (bytes : Bytes) : Option (ReceivedTransaction × Bytes) :=
  let header := decodeHeader (bytes.take kTransactionHeaderSize)
  let data := bytes.drop kTransactionHeaderSize
  if bytes.length < kTransactionHeaderSize ∨ config.Refuses header ∨ data.length < header.dataSize.toNat then none
  else some (⟨header, data.take header.dataSize.toNat⟩, data.drop header.dataSize.toNat)

/-- The bytes begin with a header that is refused. -/
def RefusedAt (config : ConnectionConfig) (bytes : Bytes) : Prop :=
  ¬ bytes.length < kTransactionHeaderSize ∧ config.Refuses (decodeHeader (bytes.take kTransactionHeaderSize))

instance (config : ConnectionConfig) (bytes : Bytes) : Decidable (RefusedAt config bytes) :=
  inferInstanceAs (Decidable (¬ _ ∧ _))

variable {config : ConnectionConfig} {part : ReceivedTransaction} {bytes rest : Bytes}

theorem nextPart_wire (acceptable : Acceptable config part) (rest : Bytes) :
    nextPart config (part.wire ++ rest) = some (part, rest) := by
  have takes : (part.wire ++ rest).take kTransactionHeaderSize = encodeHeader part.header := by
    rw [ReceivedTransaction.wire, List.append_assoc, List.take_left' (length_encodeHeader _)]
  have drops : (part.wire ++ rest).drop kTransactionHeaderSize = part.data ++ rest := by
    rw [ReceivedTransaction.wire, List.append_assoc, List.drop_left' (length_encodeHeader _)]
  have long : ¬ (part.wire ++ rest).length < kTransactionHeaderSize := by
    simp only [ReceivedTransaction.wire, List.length_append, length_encodeHeader]
    omega
  have enough : ¬ (part.data ++ rest).length < part.header.dataSize.toNat := by
    rw [acceptable.size, List.length_append]
    omega
  have whole : ¬ ((part.wire ++ rest).length < kTransactionHeaderSize ∨ config.Refuses part.header ∨
      (part.data ++ rest).length < part.header.dataSize.toNat) := by
    rw [not_or, not_or]
    exact ⟨long, acceptable.accepted, enough⟩
  rw [nextPart, takes, drops, decodeHeader_encodeHeader, if_neg whole, acceptable.size, List.take_left, List.drop_left]

theorem nextPart_some (next : nextPart config bytes = some (part, rest)) :
    bytes = part.wire ++ rest ∧ Acceptable config part := by
  rw [nextPart] at next
  split at next
  · cases next
  · rename_i whole
    simp only [not_or, Nat.not_lt] at whole
    obtain ⟨long, accepted, enough⟩ := whole
    cases next
    have size : (bytes.take kTransactionHeaderSize).length = kTransactionHeaderSize := by
      rw [List.length_take, Nat.min_eq_left long]
    refine ⟨?_, ?_, accepted⟩
    · rw [ReceivedTransaction.wire, encodeHeader_decodeHeader size, List.append_assoc, List.take_append_drop,
        List.take_append_drop]
    · rw [List.length_take, Nat.min_eq_left enough]

theorem nextPart_few (few : bytes.length < kTransactionHeaderSize) : nextPart config bytes = none := by
  rw [nextPart, if_pos (.inl few)]

theorem RefusedAt.nextPart (refused : RefusedAt config bytes) : nextPart config bytes = none := by
  rw [Net.nextPart, if_pos (.inr (.inl refused.2))]

theorem nextPart_header {header : TransactionHeader} {data : Bytes} (accepted : ¬ config.Refuses header)
    (short : data.length < header.dataSize.toNat) :
    nextPart config (encodeHeader header ++ data) = none ∧ ¬ RefusedAt config (encodeHeader header ++ data) := by
  have takes : (encodeHeader header ++ data).take kTransactionHeaderSize = encodeHeader header :=
    List.take_left' (length_encodeHeader _)
  have drops : (encodeHeader header ++ data).drop kTransactionHeaderSize = data :=
    List.drop_left' (length_encodeHeader _)
  constructor
  · rw [nextPart, takes, drops, decodeHeader_encodeHeader, if_pos (.inr (.inr short))]
  · rintro ⟨_, refuses⟩
    rw [takes, decodeHeader_encodeHeader] at refuses
    exact accepted refuses

theorem RefusedAt.append (refused : RefusedAt config bytes) (more : Bytes) : RefusedAt config (bytes ++ more) := by
  obtain ⟨long, refuses⟩ := refused
  constructor
  · rw [List.length_append]
    omega
  · rwa [List.take_append_of_le_length (Nat.le_of_not_lt long)]

theorem refusedAt_header {header : TransactionHeader} (refuses : config.Refuses header) (more : Bytes) :
    RefusedAt config (encodeHeader header ++ more) := by
  constructor
  · rw [List.length_append, length_encodeHeader]
    omega
  · rwa [List.take_left' (length_encodeHeader _), decodeHeader_encodeHeader]

theorem frame_plain {κ : Type} (hooks : κ) (none : nextPart config bytes = none) :
    frame config {} hooks bytes =
      if RefusedAt config bytes then .refused else .short := by
  rw [nextPart] at none
  split at none
  · rename_i stops
    have header : readHeader ({} : ConnectionCryptoHooks κ) hooks (bytes.take kTransactionHeaderSize) =
        ((0, bytes.take kTransactionHeaderSize), hooks) := rfl
    by_cases long : bytes.length < kTransactionHeaderSize
    · rw [frame, if_pos long, if_neg fun refused => refused.1 long]
    · rw [frame, if_neg long, header]
      by_cases refuses : config.Refuses (decodeHeader (bytes.take kTransactionHeaderSize))
      · rw [if_pos (show RefusedAt config bytes from ⟨long, refuses⟩)]
        exact if_pos refuses
      · rw [if_neg fun refused : RefusedAt config bytes => refuses refused.2]
        have few := (stops.resolve_left long).resolve_left refuses
        simp only [if_neg refuses, frameData, if_pos few]
  · cases none

structure Cuts (config : ConnectionConfig) (bytes : Bytes) (parts : List ReceivedTransaction)
    (fragment : Bytes) : Prop where
  same : bytes = parts.flatMap ReceivedTransaction.wire ++ fragment
  acceptable : ∀ part ∈ parts, Acceptable config part

theorem Cuts.snoc {parts : List ReceivedTransaction} (cuts : Cuts config bytes parts (part.wire ++ rest))
    (acceptable : Acceptable config part) : Cuts config bytes (parts ++ [part]) rest where
  same := by
    rw [cuts.same, List.flatMap_append, List.flatMap_singleton, List.append_assoc]
  acceptable := List.forall_mem_append.mpr ⟨cuts.acceptable, List.forall_mem_singleton.mpr acceptable⟩

theorem Cuts.append {parts : List ReceivedTransaction} (cuts : Cuts config bytes parts rest) (more : Bytes) :
    Cuts config (bytes ++ more) parts (rest ++ more) where
  same := by
    rw [cuts.same, List.append_assoc]
  acceptable := cuts.acceptable

theorem cuts_exists (config : ConnectionConfig) (bytes : Bytes) :
    ∃ parts fragment, Cuts config bytes parts fragment ∧ nextPart config fragment = none := by
  generalize size : bytes.length = n
  induction n using Nat.strongRecOn generalizing bytes with
  | ind n ih =>
    cases next : nextPart config bytes with
    | none => exact ⟨[], bytes, ⟨rfl, by simp⟩, next⟩
    | some pair =>
      obtain ⟨part, rest⟩ := pair
      obtain ⟨same, acceptable⟩ := nextPart_some next
      have less : rest.length < n := by
        rw [← size, same]
        simp only [ReceivedTransaction.wire, List.length_append, length_encodeHeader, kTransactionHeaderSize]
        omega
      obtain ⟨parts, fragment, cuts, ends⟩ := ih rest.length less rest rfl
      refine ⟨part :: parts, fragment, ⟨?_, List.forall_mem_cons.mpr ⟨acceptable, cuts.acceptable⟩⟩, ends⟩
      rw [same, cuts.same, List.flatMap_cons, List.append_assoc]

theorem Cuts.further {parts found : List ReceivedTransaction} {fragment rest : Bytes}
    (cuts : Cuts config bytes parts fragment) (ends : nextPart config fragment = none)
    (soFar : Cuts config bytes found rest) :
    ∃ more, parts = found ++ more ∧ rest = more.flatMap ReceivedTransaction.wire ++ fragment := by
  induction found generalizing bytes parts with
  | nil => exact ⟨parts, rfl, soFar.same.symm.trans cuts.same⟩
  | cons part found ih =>
    obtain ⟨acceptable, others⟩ := List.forall_mem_cons.mp soFar.acceptable
    have next : nextPart config bytes = some (part, found.flatMap ReceivedTransaction.wire ++ rest) := by
      rw [soFar.same, List.flatMap_cons, List.append_assoc]
      exact nextPart_wire acceptable _
    cases parts with
    | nil =>
      rw [cuts.same, List.flatMap_nil, List.nil_append, ends] at next
      cases next
    | cons first parts =>
      obtain ⟨acceptable', others'⟩ := List.forall_mem_cons.mp cuts.acceptable
      rw [cuts.same, List.flatMap_cons, List.append_assoc, nextPart_wire acceptable' _, Option.some.injEq,
        Prod.mk.injEq] at next
      obtain ⟨rfl, same⟩ := next
      obtain ⟨more, rfl, behind⟩ := ih ⟨rfl, others'⟩ ⟨same, others⟩
      exact ⟨more, rfl, behind⟩

theorem Cuts.unique {parts found : List ReceivedTransaction} {fragment rest : Bytes}
    (cuts : Cuts config bytes parts fragment) (ends : nextPart config fragment = none)
    (other : Cuts config bytes found rest) (ends' : nextPart config rest = none) :
    parts = found ∧ fragment = rest := by
  obtain ⟨more, rfl, behind⟩ := cuts.further ends other
  cases more with
  | nil => exact ⟨List.append_nil _, behind.symm⟩
  | cons part more =>
    have acceptable := cuts.acceptable part (by simp)
    rw [behind, List.flatMap_cons, List.append_assoc, nextPart_wire acceptable _] at ends'
    cases ends'

/-- However a stream is delivered, its parts are handed over as they are reassembled, and a
refused header behind them kills the connection. -/
theorem Connection.run_parts {κ : Type} {events : ConnectionEvents κ} (undisturbing : Undisturbing events)
    {c : Connection κ} (established : c.endpoint.state = .established) (shown : c.endpoint.socket.isOpen = true)
    (header : c.AtHeader) (inbound : c.inlet.inbound = []) (plain : c.endpoint.crypto = {})
    {parts : List ReceivedTransaction} {fragment : Bytes} (cuts : Cuts c.config bytes parts fragment)
    (ends : nextPart c.config fragment = none) (deliveries : List Delivery)
    (received : deliveries.flatMap Delivery.bytes = bytes) :
    let c' := run events (deliveries.map Delivery.op) c
    dispatched c'.endpoint.trace = dispatched c.endpoint.trace ++ (c.inlet.partials.addAll parts).1 ∧
      (c'.IsDead ↔ RefusedAt c.config fragment) := by
  intro c'
  have wire : Wire c.endpoint.crypto c.endpoint.hooks parts (parts.flatMap ReceivedTransaction.wire)
      c.endpoint.hooks := by
    rw [plain]
    exact wire_plain _ _
  obtain ⟨last, tail, between, framed, delivered, _, once, _⟩ := run_wire undisturbing established shown header
    inbound wire cuts.acceptable fragment deliveries (received.trans cuts.same)
  rw [plain, frame_plain _ ends] at framed
  have endpoint : (parseInbound events [] last).endpoint = c'.endpoint := by
    rw [once]
    rfl
  -- What is left is a header that is refused, or less than a part.
  by_cases refused : RefusedAt c.config fragment
  · rw [if_pos refused] at framed
    have stops := parse_stops events [] between.header.1 (.inr (.inr framed))
    have dead := parse_refused events [] between.waiting between.header.1 framed
    rw [endpoint] at stops dead
    exact ⟨stops.2.trans delivered, fun _ => refused, fun _ => dead⟩
  · rw [if_neg refused] at framed
    have stops := parse_stops events [] between.header.1 (.inr (.inl framed))
    obtain ⟨hooks, same, _⟩ := parse_short events [] between.waiting between.header.1 framed
    rw [endpoint] at stops same
    refine ⟨stops.2.trans delivered, fun dead => ?_, fun at_ => absurd at_ refused⟩
    rw [IsDead, same] at dead
    exact absurd (between.established.symm.trans dead) (by decide)

end Slopline.Net
