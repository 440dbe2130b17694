import Slopline.Net.Moves

/-! The receive policy and what it bounds.

The policy looks at each header alone. What accumulates across the parts of one
transaction stays below the total of the last header but one, and the last part
adds at most one more `max_receive_size`.
-/

set_option autoImplicit false

namespace Slopline.Net

open Protocol Library

variable {κ : Type}

namespace Partials

structure Sound (config : ConnectionConfig) (key : PartialKey) (entry : PartialReceive) : Prop where
  key : key = TransactionHeader.key entry.header
  nonempty : 0 < entry.data.length
  short : entry.data.length < entry.header.totalSize.toNat
  total : entry.header.totalSize.toNat ≤ config.maxReceiveSize.toNat

/-- What one more part does: it is a transaction, completes one, or stays. -/
inductive Adds (partials : Partials) (part : ReceivedTransaction) : Option ReceivedTransaction × Partials → Prop where
  | single : part.header.totalSize = part.header.dataSize → Adds partials part (some part, partials)
  | completes (earlier : Bytes) :
      part.header.totalSize ≠ part.header.dataSize →
      earlier = ((partials.lookup (TransactionHeader.key part.header)).getD {}).data →
      part.header.totalSize.toNat ≤ (earlier ++ part.data).length →
      Adds partials part
        (some ⟨part.header, earlier ++ part.data⟩, partials.erase (TransactionHeader.key part.header))
  | waits (earlier : Bytes) :
      part.header.totalSize ≠ part.header.dataSize →
      earlier = ((partials.lookup (TransactionHeader.key part.header)).getD {}).data →
      (earlier ++ part.data).length < part.header.totalSize.toNat →
      Adds partials part (none, partials.insert (TransactionHeader.key part.header)
        { header := part.header, data := earlier ++ part.data })

theorem add_adds (partials : Partials) (part : ReceivedTransaction) : Adds partials part (partials.add part) := by
  unfold add
  split
  next single => exact .single single
  next several =>
    dsimp only
    split
    next enough => exact .completes _ several rfl enough
    next few => exact .waits _ several rfl (Nat.lt_of_not_le few)

end Partials

def ConnectionConfig.Admits (config : ConnectionConfig) (transaction : ReceivedTransaction) : Prop :=
  transaction.data.length < 2 * config.maxReceiveSize.toNat ∧
    (transaction.header.totalSize = transaction.header.dataSize →
      transaction.data.length ≤ config.maxReceiveSize.toNat)

theorem ConnectionConfig.refuses_bounds {config : ConnectionConfig} {header : TransactionHeader}
    (accepted : ¬ config.Refuses header) :
    0 < header.totalSize.toNat ∧ 0 < header.dataSize.toNat ∧
      header.totalSize.toNat ≤ config.maxReceiveSize.toNat ∧ header.dataSize.toNat ≤ config.maxReceiveSize.toNat := by
  simp only [Refuses, not_or, UInt32.not_lt, ← UInt32.toNat_inj, UInt32.le_iff_toNat_le, UInt32.toNat_zero] at accepted
  omega

namespace Connection

structure Capped (c : Connection κ) : Prop where
  pendingData : c.inlet.pendingData = []
  data : c.inlet.receiveStage = .data → c.inlet.expectedBytes = c.inlet.pendingHeader.dataSize.toNat ∧
    ¬ c.config.Refuses c.inlet.pendingHeader
  partials : ∀ key entry, c.inlet.partials.lookup key = some entry → Partials.Sound c.config key entry
  delivered : ∀ transaction ∈ dispatched c.endpoint.trace, c.config.Admits transaction

/-- One more part keeps the reassemblies sound, and completes only what is admitted. -/
theorem sound_add {config : ConnectionConfig} {partials : Partials} {part : ReceivedTransaction}
    (sound : ∀ key entry, partials.lookup key = some entry → Partials.Sound config key entry)
    (accepted : ¬ config.Refuses part.header) (whole : part.data.length = part.header.dataSize.toNat) :
    (∀ key entry, (partials.add part).2.lookup key = some entry → Partials.Sound config key entry) ∧
      ∀ transaction, (partials.add part).1 = some transaction → config.Admits transaction := by
  obtain ⟨total, nonempty, totalFits, dataFits⟩ := ConnectionConfig.refuses_bounds accepted
  have earlierFits : ((partials.lookup (TransactionHeader.key part.header)).getD {}).data.length <
      config.maxReceiveSize.toNat := by
    cases found : partials.lookup (TransactionHeader.key part.header) with
    | none => simp only [Option.getD_none, List.length_nil]; omega
    | some entry =>
      have bounds := sound _ _ found
      exact Nat.lt_of_lt_of_le bounds.short bounds.total
  have adds := partials.add_adds part
  generalize partials.add part = added at adds
  -- A part alone is bounded by its own header, the last of several by the total they all have.
  cases adds with
  | single single =>
    refine ⟨sound, fun transaction completed => ?_⟩
    cases completed
    exact ⟨by omega, fun _ => by omega⟩
  | completes earlier several same _ =>
    refine ⟨fun key entry found => ?_, fun transaction completed => ?_⟩
    · by_cases here : key = TransactionHeader.key part.header
      · rw [here, Finmap.lookup_erase] at found
        cases found
      · rw [Finmap.lookup_erase_ne here] at found
        exact sound key entry found
    · cases completed
      refine ⟨?_, fun single => absurd single several⟩
      simp only [List.length_append, same]
      omega
  | waits earlier _ same few =>
    refine ⟨fun key entry found => ?_, fun transaction completed => by cases completed⟩
    by_cases here : key = TransactionHeader.key part.header
    · rw [here, Finmap.lookup_insert] at found
      cases found
      exact ⟨here, by simp only [List.length_append]; omega, few, totalFits⟩
    · rw [Finmap.lookup_insert_of_ne _ here] at found
      exact sound key entry found

variable (events : ConnectionEvents κ)

theorem Capped.move {c next : Connection κ} (capped : c.Capped) (config : next.config = c.config)
    (move : ParseMove events c next) : next.Capped := by
  cases move with
  | handshake stage moved establishes pendingData partials =>
    exact
      { pendingData := pendingData.trans capped.pendingData
        data := by simp [moved]
        partials := by simpa only [partials, config] using capped.partials
        delivered := by simpa only [establishes.dispatched, config] using capped.delivered }
  | header hooks stage moved same pendingData expected accepted partials =>
    exact
      { pendingData := pendingData
        data := fun _ => ⟨expected, config ▸ accepted⟩
        partials := by simpa only [partials, config] using capped.partials
        delivered := by simpa only [same, config] using capped.delivered }
  | refused hooks stage moved same pendingData partials =>
    have later := Endpoint.markDead_later events { c.endpoint with hooks }
    exact
      { pendingData := pendingData.trans capped.pendingData
        data := by simp [moved]
        partials := by simpa only [partials, config] using capped.partials
        delivered := by simpa only [same, later.dispatched, config] using capped.delivered }
  | part part hooks stage moved header whole delivered pendingData partials =>
    obtain ⟨expected, accepted⟩ := capped.data stage
    rw [capped.pendingData, expected, List.length_nil, Nat.zero_add, ← header] at whole
    -- What was checked of the header still holds of the part.
    obtain ⟨sound, admits⟩ := sound_add capped.partials (header ▸ accepted) whole
    refine
      { pendingData := pendingData
        data := by simp [moved]
        partials := by rw [partials, config]; exact sound
        delivered := fun transaction member => ?_ }
    rw [delivered, deliver_dispatched, List.mem_append, Option.mem_toList] at member
    rw [config]
    exact member.elim (capped.delivered transaction) (admits transaction)

theorem step_capped (c : Connection κ) (op : Op κ) (capped : c.Capped) : (step events c op).Capped :=
  step_invariant events Capped
    (fun _ _ capped => ⟨capped.pendingData, capped.data, capped.partials, capped.delivered⟩)
    (fun _ _ capped later => ⟨capped.pendingData, capped.data, capped.partials, by
      simpa only [later.dispatched] using capped.delivered⟩)
    (fun _ _ capped _ config move => capped.move events config move) c op capped

theorem step_config (c : Connection κ) (op : Op κ) : (step events c op).config = c.config :=
  step_invariant events (fun c' => c'.config = c.config) (fun _ _ same => same) (fun _ _ same _ => same)
    (fun _ _ same _ config _ => config.trans same) c op rfl

theorem run_config (ops : List (Op κ)) (c : Connection κ) : (run events ops c).config = c.config :=
  run_invariant (fun c' => c'.config = c.config) (fun c' op same => (step_config events c' op).trans same)
    ops rfl

theorem start_frame (arguments : Start) (c : Connection κ) :
    (start events arguments c).role = c.role ∧ (start events arguments c).config = c.config ∧
      (start events arguments c).inlet = c.inlet ∧
      dispatched (start events arguments c).endpoint.trace = dispatched c.endpoint.trace := by
  cases role : c.role with
  | client =>
    have later := (Endpoint.queueBytes_later
      (encodeClientHandshake (Client.clientHandshake arguments.subProtocol arguments.subVersion))
      { c.endpoint with socket := arguments.socket, state := .awaitingHandshakeReply }).trans
      (Endpoint.flushSends_later events arguments.answers _)
    simp only [start, role, Client.start]
    exact ⟨trivial, trivial, trivial, later.dispatched⟩
  | server =>
    simp only [start, role, Server.start]
    exact ⟨trivial, trivial, trivial, trivial⟩

theorem fresh_config (role : Role) (config : ConnectionConfig) (hooks : κ) :
    (fresh role config hooks).config = config := by cases role <;> rfl

theorem started_nil (role : Role) (config : ConnectionConfig) (hooks : κ) (arguments : Start) :
    let c := start events arguments (fresh role config hooks)
    c.role = role ∧ c.config = config ∧ c.inlet = (fresh role config hooks).inlet ∧
      dispatched c.endpoint.trace = [] := by
  obtain ⟨sameRole, sameConfig, inlet, delivered⟩ := start_frame events arguments (fresh role config hooks)
  rw [fresh_endpoint] at delivered
  have madeFor : (fresh role config hooks).role = role := by cases role <;> rfl
  exact ⟨sameRole.trans madeFor, sameConfig.trans (fresh_config role config hooks), inlet, delivered⟩

theorem fresh_capped (role : Role) (config : ConnectionConfig) (hooks : κ) : (fresh role config hooks).Capped where
  pendingData := by cases role <;> rfl
  data := by simp [fresh_stage role config hooks]
  partials := by cases role <;> simp [fresh, Client.fresh, Server.fresh]
  delivered := by
    intro transaction member
    rw [fresh_endpoint] at member
    cases member

theorem Capped.start {c : Connection κ} (capped : c.Capped) (arguments : Start) :
    (start events arguments c).Capped := by
  obtain ⟨_, config, inlet, delivered⟩ := start_frame events arguments c
  constructor
  · rw [inlet]
    exact capped.pendingData
  · rw [inlet, config]
    exact capped.data
  · rw [inlet, config]
    exact capped.partials
  · rw [delivered, config]
    exact capped.delivered

theorem started_capped (role : Role) (config : ConnectionConfig) (hooks : κ) (arguments : Start)
    (ops : List (Op κ)) : (started events role config hooks arguments ops).Capped :=
  run_invariant Capped (step_capped events) ops ((fresh_capped role config hooks).start events arguments)

theorem started_config (role : Role) (config : ConnectionConfig) (hooks : κ) (arguments : Start)
    (ops : List (Op κ)) : (started events role config hooks arguments ops).config = config :=
  (run_config events ops _).trans (started_nil events role config hooks arguments).2.1

/-- A transaction of one part fits `max_receive_size`; one of several parts carries less
than twice as much. -/
theorem receive_cap (role : Role) (config : ConnectionConfig) (hooks : κ) (arguments : Start) (ops : List (Op κ))
    (transaction : ReceivedTransaction)
    (delivered : transaction ∈
      dispatched (started events role config hooks arguments ops).endpoint.trace) :
    transaction.data.length < 2 * config.maxReceiveSize.toNat ∧
      (transaction.header.totalSize = transaction.header.dataSize →
        transaction.data.length ≤ config.maxReceiveSize.toNat) := by
  have capped := (started_capped events role config hooks arguments ops).delivered transaction delivered
  rwa [started_config] at capped

def growingChunk : Chunk where
  bytes := encodeClientHandshake (Client.clientHandshake kSubProtocolHotl kClientSubVersion) ++
    ReceivedTransaction.wire ⟨{ id := 7, totalSize := 3, dataSize := 2 }, [1, 2]⟩ ++
    ReceivedTransaction.wire ⟨{ id := 7, totalSize := 2, dataSize := 3 }, [3, 4, 5]⟩
  nonempty := by decide
  fits := by decide

def growingServer : Connection Unit :=
  started .silent .server { maxReceiveSize := 3 } () {} [.serviceReadable [.read growingChunk] []]

theorem receive_cap_growing :
    [1, 2, 3, 4, 5].length < 2 * 3 ∧ ((2 : UInt32) = 3 → [1, 2, 3, 4, 5].length ≤ 3) :=
  receive_cap .silent .server { maxReceiveSize := 3 } () {} [.serviceReadable [.read growingChunk] []]
    ⟨{ id := 7, totalSize := 2, dataSize := 3 }, [1, 2, 3, 4, 5]⟩ (by decide +kernel)

theorem receive_cap_exceeded :
    ¬ ∀ transaction ∈ dispatched growingServer.endpoint.trace,
      transaction.data.length ≤ growingServer.config.maxReceiveSize.toNat := by
  decide +kernel

end Connection

end Slopline.Net
