import Slopline.Legacy.RequestFraming

/-! The modern connection and `UTransact` on the same stream of requests. -/

set_option autoImplicit false

namespace Slopline.Legacy

open Library Protocol Net

/-- A connection without encryption that has accepted a handshake and received nothing since. -/
structure HandshakeAccepted {κ : Type} (c : Connection κ) : Prop where
  established : c.endpoint.state = .established
  shown : c.endpoint.socket.isOpen = true
  header : c.AtHeader
  inbound : c.inlet.inbound = []
  partials : c.inlet.partials = ∅
  plain : c.endpoint.crypto = {}
  silent : dispatched c.endpoint.trace = []

/-- Every header of the stream has `is_reply` 0. -/
def RequestsOnly (config : ConnectionConfig) (stream : Bytes) : Prop :=
  ∀ parts rest, Cuts config stream parts rest → ∀ part ∈ parts, part.header.isReply = 0

/-- No request in one part carries the ID of an unfinished one, and what has been received of a
request stays below 4 GB. -/
def StreamCompatible (config : ConnectionConfig) (stream : Bytes) : Prop :=
  ∀ parts rest, Cuts config stream parts rest → Unfinished.none.AllCompatible parts

section
variable {κ τ : Type} {events : ConnectionEvents κ} {c : Connection κ} {aw : AppWarrior τ} {tpt : τ} {stream : Bytes}

variable (events c aw tpt) in
/-- Both sides take the same requests of what they have received, and both are dead or neither. -/
def TakesSame (deliveries : List Delivery) (arrivals : List Bytes) : Prop :=
  ∃ trn, receiveAll aw c.config.maxReceiveSize arrivals (.accepted tpt) = .value trn ∧
    (dispatched (Connection.run events (deliveries.map Delivery.op) c).endpoint.trace).map request = trn.taken ∧
    ((Connection.run events (deliveries.map Delivery.op) c).IsDead ↔ trn.isDead = true)

variable (events c aw tpt) in
/-- Both sides take the same of every beginning of the stream, however it is delivered: the same
requests in the same order, and they kill the connection at the same header or not at all. -/
def FramesSame (stream : Bytes) : Prop :=
  ∀ bytes, bytes <+: stream → ∀ deliveries arrivals, deliveries.flatMap Delivery.bytes = bytes →
    arrivals.flatten = bytes → TakesSame events c aw tpt deliveries arrivals

theorem exists_delivery (bytes : Bytes) : ∃ delivery : Delivery, delivery.bytes = bytes := by
  refine ⟨{ chunks := bytes.map fun byte => ⟨[byte], by simp, by simp [kScratchSize]⟩, answers := [] }, ?_⟩
  induction bytes with
  | nil => rfl
  | cons byte bytes ih =>
    rw [Delivery.bytes, List.map_cons, List.flatMap_cons]
    exact congrArg (byte :: ·) ih

theorem mirrors_empty : TasksMirror [] Unfinished.none := ⟨by simp, by simp, fun _ _ => rfl⟩

theorem HandshakeAccepted.mirror (accepted : HandshakeAccepted c) :
    PartialsMirror c.inlet.partials Unfinished.none := by
  rw [accepted.partials]
  intro id
  rfl

variable (undisturbing : Undisturbing events) (accepted : HandshakeAccepted c) (unread : aw.unread tpt = [])
  (requests : RequestsOnly c.config stream)

include undisturbing accepted unread in
theorem takesSame_iff {parts : List ReceivedTransaction} {bytes fragment : Bytes}
    (cuts : Cuts c.config bytes parts fragment)
    (ends : nextPart c.config fragment = none) {deliveries : List Delivery} {arrivals : List Bytes}
    (delivered : deliveries.flatMap Delivery.bytes = bytes) (arrived : arrivals.flatten = bytes) :
    TakesSame events c aw tpt deliveries arrivals ↔
      ∃ inbox, parts.foldlM (serve aw) ([], []) = .value inbox ∧
        (c.inlet.partials.addAll parts).1.map request = inbox.2 := by
  obtain ⟨modern, dead⟩ := Connection.run_parts undisturbing accepted.established accepted.shown accepted.header
    accepted.inbound accepted.plain cuts ends deliveries delivered
  obtain ⟨legacy, total⟩ := receiveAll_served unread cuts ends arrivals arrived
  rw [accepted.silent, List.nil_append] at modern
  rw [TakesSame, modern]
  constructor
  · rintro ⟨trn, received, same, _⟩
    exact ⟨trn.inbox, (legacy trn received).1, same⟩
  · rintro ⟨inbox, served, same⟩
    obtain ⟨trn, received⟩ := total inbox served
    obtain ⟨served', dead'⟩ := legacy trn received
    have inboxes : inbox = trn.inbox := Checked.value.inj (served.symm.trans served')
    exact ⟨trn, received, same.trans (congrArg Prod.snd inboxes), dead.trans dead'.symm⟩

include undisturbing accepted unread requests in
theorem framesSame_of_compatible (compatible : StreamCompatible c.config stream) :
    FramesSame events c aw tpt stream := by
  rintro bytes ⟨more, rfl⟩ deliveries arrivals delivered arrived
  obtain ⟨parts, fragment, cuts, ends⟩ := cuts_exists c.config bytes
  have isRequest := requests parts _ (cuts.append more)
  have fits := compatible parts _ (cuts.append more)
  obtain ⟨modern, _⟩ := accepted.mirror.addAll isRequest cuts.acceptable fits
  obtain ⟨inbox, served, legacy, _⟩ := mirrors_empty.serveAll aw isRequest cuts.acceptable fits []
  apply (takesSame_iff undisturbing accepted unread cuts ends delivered arrived).mpr
  exact ⟨inbox, served, modern.trans legacy.symm⟩

include undisturbing accepted unread requests in
theorem compatible_of_framesSame (same : FramesSame events c aw tpt stream) : StreamCompatible c.config stream := by
  intro parts rest cuts
  -- From the front: where the parts before it are compatible, so is the next one.
  induction parts using List.reverseRecOn generalizing rest with
  | nil => trivial
  | append_singleton before part ih =>
    have split : Cuts c.config stream before (part.wire ++ rest) := by
      refine ⟨?_, fun part member => cuts.acceptable part (List.mem_append_left _ member)⟩
      rw [cuts.same, List.flatMap_append, List.flatMap_singleton, List.append_assoc]
    have fits := ih _ split
    have isRequest := requests _ _ cuts
    have earlier := requests _ _ split
    have here : part ∈ before ++ [part] := List.mem_append_right _ (List.mem_singleton_self _)
    obtain ⟨delivery, delivered⟩ := exists_delivery ((before ++ [part]).flatMap ReceivedTransaction.wire)
    have whole : Cuts c.config delivery.bytes (before ++ [part]) [] :=
      ⟨delivered.trans (List.append_nil _).symm, cuts.acceptable⟩
    have begins : delivery.bytes <+: stream := ⟨rest, by rw [cuts.same, delivered]⟩
    have takes := same delivery.bytes begins [delivery] [delivery.bytes] (by simp) (by simp)
    obtain ⟨inbox, served, agree⟩ := (takesSame_iff undisturbing accepted unread whole (nextPart_few (by decide))
      (by simp) (by simp)).mp takes
    obtain ⟨modern, partialsMirror⟩ := accepted.mirror.addAll earlier split.acceptable fits
    obtain ⟨middle, first, legacy, tasksMirror⟩ := mirrors_empty.serveAll aw earlier split.acceptable fits []
    have serves : serve aw middle part = .value inbox := by
      rw [List.foldlM_append, first, Checked.value_bind, List.foldlM_cons] at served
      exact (bind_pure _).symm.trans served
    rw [Unfinished.allCompatible_append]
    refine ⟨fits, ?_, trivial⟩
    have taken : inbox.2 = middle.2 ++ (((c.inlet.partials.addAll before).2.add part).1.map request).toList := by
      rw [← agree, legacy, List.nil_append, ← modern, Partials.addAll_append, List.map_append, Partials.addAll,
        Partials.addAll, List.append_nil]
      cases ((c.inlet.partials.addAll before).2.add part).1 <;> rfl
    exact compatible_of_same tasksMirror partialsMirror (isRequest part here) (cuts.acceptable part here) serves taken

include undisturbing accepted unread requests in
/-- The modern connection takes the requests that the legacy side takes, and dies with it, exactly
where no request in one part carries the ID of an unfinished one and sizes fit 32 bits. -/
theorem requestFraming_iff : FramesSame events c aw tpt stream ↔ StreamCompatible c.config stream :=
  ⟨compatible_of_framesSame undisturbing accepted unread requests,
    framesSame_of_compatible undisturbing accepted unread requests⟩

end

/-! A request in two parts, and the same with another request between them. -/

def byteQueue : AppWarrior Bytes where
  unread tpt := tpt
  arrive tpt bytes := tpt ++ bytes
  isReadyToReceive tpt size := decide (size ≤ tpt.length)
  receive tpt size := (tpt.take size, tpt.drop size)
  disconnect _ := []
  memory := .leaving fun _ => 0
  unread_arrive _ _ := rfl
  ready_iff tpt size := by rw [decide_eq_true_eq]
  receive_unread tpt size := List.take_append_drop size tpt
  receive_fits tpt size := List.length_take_le size tpt
  receive_some tpt size filled nothing := by
    rcases List.take_eq_nil_iff.mp nothing with rfl | empty
    · exact absurd filled (Nat.lt_irrefl 0)
    · exact empty
  receive_ready tpt size ready := by
    rw [decide_eq_true_eq] at ready
    rw [List.length_take, Nat.min_eq_left ready]

def acceptedServer : Connection Unit :=
  Connection.started .silent .server {} () { answers := wholeSend }
    [.serviceReadable [.read Connection.clientHello] wholeSend]

theorem acceptedServer_accepted : HandshakeAccepted acceptedServer := ⟨rfl, rfl, ⟨rfl, rfl⟩, rfl, rfl, rfl, rfl⟩

theorem requestsOnly_of_cuts {config : ConnectionConfig} {stream fragment : Bytes} {parts : List ReceivedTransaction}
    (cuts : Cuts config stream parts fragment) (ends : nextPart config fragment = none)
    (requests : ∀ part ∈ parts, part.header.isReply = 0) : RequestsOnly config stream := by
  intro found rest soFar part member
  obtain ⟨more, rfl, _⟩ := cuts.further ends soFar
  exact requests part (List.mem_append_left _ member)

def twoParts : List ReceivedTransaction :=
  [⟨{ id := 7, totalSize := 3, dataSize := 2 }, [1, 2]⟩, ⟨{ id := 7, totalSize := 3, dataSize := 1 }, [3]⟩]

def reusedId : List ReceivedTransaction :=
  [⟨{ id := 7, totalSize := 3, dataSize := 2 }, [1, 2]⟩, ⟨{ id := 7, totalSize := 1, dataSize := 1 }, [9]⟩]

theorem twoParts_cuts : Cuts acceptedServer.config (twoParts.flatMap ReceivedTransaction.wire) twoParts [] :=
  ⟨(List.append_nil _).symm, List.forall_mem_cons.mpr
    ⟨⟨rfl, by decide⟩, List.forall_mem_singleton.mpr ⟨rfl, by decide⟩⟩⟩

theorem reusedId_cuts : Cuts acceptedServer.config (reusedId.flatMap ReceivedTransaction.wire) reusedId [] :=
  ⟨(List.append_nil _).symm, List.forall_mem_cons.mpr
    ⟨⟨rfl, by decide⟩, List.forall_mem_singleton.mpr ⟨rfl, by decide⟩⟩⟩

theorem requestFraming_twoParts :
    FramesSame .silent acceptedServer byteQueue [] (twoParts.flatMap ReceivedTransaction.wire) ↔
      StreamCompatible acceptedServer.config (twoParts.flatMap ReceivedTransaction.wire) :=
  requestFraming_iff undisturbing_silent acceptedServer_accepted rfl
    (requestsOnly_of_cuts twoParts_cuts rfl (by decide))

/-- The request in one part is handed over alone on the modern side, and behind the data of the
unfinished one on the legacy side. -/
theorem requestFraming_reusedId :
    RequestsOnly acceptedServer.config (reusedId.flatMap ReceivedTransaction.wire) ∧
      ¬ FramesSame .silent acceptedServer byteQueue [] (reusedId.flatMap ReceivedTransaction.wire) := by
  refine ⟨requestsOnly_of_cuts reusedId_cuts rfl (by decide), fun same => ?_⟩
  obtain ⟨delivery, delivered⟩ := exists_delivery (reusedId.flatMap ReceivedTransaction.wire)
  have takes := same _ (List.prefix_refl _) [delivery] [delivery.bytes] (by simpa using delivered)
    (by simpa using delivered)
  obtain ⟨inbox, served, agree⟩ := (takesSame_iff undisturbing_silent acceptedServer_accepted rfl
    reusedId_cuts rfl (by simpa using delivered) (by simpa using delivered)).mp takes
  have legacy : reusedId.foldlM (serve byteQueue) ([], []) =
      .value ([], [{ type := 100, id := 7, data := [1, 2, 9] }]) := rfl
  have modern : (acceptedServer.inlet.partials.addAll reusedId).1.map request =
      [{ type := 100, id := 7, data := [9] }] := rfl
  rw [legacy, Checked.value.injEq] at served
  rw [modern, ← served] at agree
  exact absurd agree (by decide)

end Slopline.Legacy
