import Slopline.Legacy.Transact
import Slopline.Net.PlainParts

/-! What `_TNProcessIncomingData` makes of a stream.

Wherever the transport hands over less than was asked for and however the stream arrives, the
parts it holds are served one by one.
-/

set_option autoImplicit false

namespace Slopline.Legacy

open Library Protocol Net

section
variable {τ : Type} {aw : AppWarrior τ} {config : ConnectionConfig}

theorem unreceivable_iff (header : STranHdr) :
    Unreceivable config.maxReceiveSize header ↔ config.Refuses header := by
  simp only [Unreceivable, ConnectionConfig.Refuses]
  tauto

/-! Received bytes behind a header. -/

section
variable {trn : STransact τ} {bytes rcvBuffer stored : Bytes} {tpt : τ} (has : trn.rcvBuffer = some rcvBuffer)
  (stores : UMemory.write (ε := Failure) trn.rcvOffset bytes rcvBuffer = .value stored)

include has stores in
theorem tnReceived_more (more : trn.rcvLeft - bytes.length ≠ 0) :
    tnReceived aw bytes tpt trn = .value {
      trn with
      tpt
      rcvBuffer := some stored
      rcvOffset := trn.rcvOffset + bytes.length
      rcvLeft := trn.rcvLeft - bytes.length
      tasks := tnProgress trn.rcvHeader (UInt32.ofNat bytes.length) trn.tasks } := by
  simp only [tnReceived, has, stores, Checked.value_bind, if_pos more, Checked.pure_eq]

variable (aw tpt) in
include has stores in
theorem tnReceived_last (last : trn.rcvLeft - bytes.length = 0) :
    ∃ left, tnReceived aw bytes tpt trn =
      serve aw (trn.tasks, trn.taken) ⟨trn.rcvHeader, stored⟩ >>= fun inbox => .value {
        trn with
        tpt
        rcvBuffer := left
        rcvOffset := trn.rcvOffset + bytes.length
        rcvLeft := 0
        tasks := inbox.1
        taken := inbox.2 } := by
  cases finishes : tnFinished aw trn.rcvHeader stored trn.tasks with
  | value finished =>
    refine ⟨finished.2, ?_⟩
    simp only [tnReceived, has, stores, Checked.value_bind, last, ne_eq, not_true_eq_false, if_false, finishes, serve,
      Checked.pure_eq]
  | error reason =>
    refine ⟨none, ?_⟩
    simp only [tnReceived, has, stores, Checked.value_bind, last, ne_eq, not_true_eq_false, if_false, finishes, serve,
      Checked.error_bind]
  | fault =>
    refine ⟨none, ?_⟩
    simp only [tnReceived, has, stores, Checked.value_bind, last, ne_eq, not_true_eq_false, if_false, finishes, serve,
      Checked.fault_bind]

end

/-! The parts taken of a stream. -/

abbrev Inbox := List STranTask × List Request

def STransact.inbox (trn : STransact τ) : Inbox := (trn.tasks, trn.taken)

/-- Nothing has been sent, so that no reply is awaited. -/
def OnlyRequests (tasks : List STranTask) : Prop := ∀ task ∈ tasks, task.taskType = .inTask

theorem tnGetTask_reply {tasks : List STranTask} (requests : OnlyRequests tasks) (inTranID : UInt32) :
    tnGetTask tasks .inReplyTask inTranID = none := by
  apply firstTask_none.mpr
  intro task member
  simp [requests task member]

theorem tnProgress_requests {tasks : List STranTask} (requests : OnlyRequests tasks) (rcvHeader : STranHdr)
    (s : UInt32) : tnProgress rcvHeader s tasks = tasks := by
  rw [tnProgress, tnGetTask_reply requests]
  exact ite_self _

theorem OnlyRequests.finished {tasks : List STranTask} (requests : OnlyRequests tasks) {rcvHeader : STranHdr}
    {rcvBuffer : Bytes} {finished : List STranTask × Option Bytes}
    (finishes : tnFinished aw rcvHeader rcvBuffer tasks = .value finished) : OnlyRequests finished.1 := by
  have stored {p : TaskPtr} (found : tasks = p.store p.task) {task : STranTask}
      (same : task.taskType = p.task.taskType) : OnlyRequests (p.store task) := by
    rw [found] at requests
    simp only [OnlyRequests, TaskPtr.store, List.forall_mem_append, List.forall_mem_cons] at requests ⊢
    obtain ⟨before, here, after⟩ := requests
    exact ⟨before, same.trans here, after⟩
  unfold tnFinished at finishes
  dsimp only at finishes
  -- A task that there is keeps its type, and a new one is for a request.
  split at finishes
  · rename_i p found
    have same := (firstTask_some found).1
    split at finishes
    · cases finishes
      exact stored same rfl
    · obtain ⟨dataHdl, _, finishes⟩ := Checked.bind_eq_value.mp finishes
      cases finishes
      exact stored same rfl
  · split at finishes
    · cases finishes
      exact requests
    · cases finishes
      exact List.forall_mem_append.mpr ⟨requests, List.forall_mem_singleton.mpr rfl⟩

theorem OnlyRequests.takeComplete {tasks : List STranTask} (requests : OnlyRequests tasks) (fuel : Nat)
    (taken : List Request) : OnlyRequests (takeComplete fuel (tasks, taken)).1 := by
  induction fuel generalizing tasks taken with
  | zero => exact requests
  | succ fuel ih =>
    cases found : tnGetInTask tasks kAnyTransactType kOnlyCompleteTransact with
    | none => simpa only [Legacy.takeComplete, found] using requests
    | some p =>
      simp only [Legacy.takeComplete, found]
      apply ih
      rw [(firstTask_some found).1] at requests
      simp only [OnlyRequests, TaskPtr.store, TaskPtr.kill, List.forall_mem_append, List.forall_mem_cons] at requests ⊢
      exact ⟨requests.1, requests.2.2⟩

theorem OnlyRequests.serve {inbox served : Inbox} (requests : OnlyRequests inbox.1) {part : ReceivedTransaction}
    (serves : serve aw inbox part = .value served) : OnlyRequests served.1 := by
  obtain ⟨finished, finishes, serves⟩ := Checked.bind_eq_value.mp serves
  cases serves
  exact (requests.finished finishes).takeComplete _ _

variable (aw) in
/-- What has arrived of the part to come, and what is behind it. -/
def STransact.pending (trn : STransact τ) : Bytes :=
  if trn.rcvLeft = 0 then aw.unread trn.tpt
  else encodeHeader trn.rcvHeader ++ (trn.rcvBuffer.getD []).take trn.rcvOffset ++ aw.unread trn.tpt

variable (config) in
structure STransact.Formed (trn : STransact τ) : Prop where
  established : trn.isEstablished = true
  alive : trn.isDead = false
  receiving : trn.rcvLeft ≠ 0 → ∃ rcvBuffer, trn.rcvBuffer = some rcvBuffer ∧
    rcvBuffer.length = trn.rcvHeader.dataSize.toNat ∧ trn.rcvOffset + trn.rcvLeft = rcvBuffer.length ∧
    ¬ config.Refuses trn.rcvHeader

variable (aw config) in
/-- The parts taken so far have been served, and the rest of the stream is pending. -/
structure Follows (start : Inbox) (stream : Bytes) (trn : STransact τ) (parts : List ReceivedTransaction) : Prop where
  cuts : Cuts config stream parts (trn.pending aw)
  served : parts.foldlM (serve aw) start = .value trn.inbox
  requests : OnlyRequests trn.tasks
  formed : trn.Formed config

theorem take_write {offset : Nat} {bytes handle stored : Bytes}
    (stores : UMemory.write (ε := Failure) offset bytes handle = .value stored) :
    stored.length = handle.length ∧ stored.take (offset + bytes.length) = handle.take offset ++ bytes := by
  unfold UMemory.write at stores
  split at stores
  · rename_i inside
    cases stores
    have front : (handle.take offset).length = offset := List.length_take_of_le (by omega)
    constructor
    · simp only [List.length_append, List.length_take, List.length_drop]
      omega
    · rw [← List.append_assoc, List.take_left' (by rw [List.length_append, front])]
  · cases stores

variable (aw config) in
/-- How a stream has been processed: its parts were served, and then the connection waits or is
dead; or one of its parts could not be served. -/
def Processed (start : Inbox) (stream : Bytes) : Checked Failure (STransact τ) → Prop
  | .value trn =>
    (∃ parts, Follows aw config start stream trn parts ∧ nextPart config (trn.pending aw) = none ∧
      ¬ RefusedAt config (trn.pending aw)) ∨
    (trn.isDead = true ∧ ∃ parts fragment, Cuts config stream parts fragment ∧ RefusedAt config fragment ∧
      parts.foldlM (serve aw) start = .value trn.inbox)
  | .error reason => ∃ parts rest, Cuts config stream parts rest ∧ parts.foldlM (serve aw) start = .error reason
  | .fault => ∃ parts rest, Cuts config stream parts rest ∧ parts.foldlM (serve aw) start = .fault

variable (aw config) in
def Proceeds (start : Inbox) (stream : Bytes) :
    Loop (STransact τ) (Checked Failure (STransact τ)) → Prop
  | .again next => ∃ parts, Follows aw config start stream next parts
  | .done result => Processed aw config start stream result

variable {start : Inbox} {stream : Bytes} {trn next : STransact τ} {parts : List ReceivedTransaction}
  {result : Checked Failure (STransact τ)}

theorem pending_between (between : trn.rcvLeft = 0) : trn.pending aw = aw.unread trn.tpt := by
  rw [STransact.pending, if_pos between]

theorem pending_receiving (receiving : trn.rcvLeft ≠ 0) {rcvBuffer : Bytes} (has : trn.rcvBuffer = some rcvBuffer) :
    trn.pending aw = encodeHeader trn.rcvHeader ++ rcvBuffer.take trn.rcvOffset ++ aw.unread trn.tpt := by
  rw [STransact.pending, if_neg receiving, has]
  rfl

theorem receive_header {tpt : τ} (ready : ¬ aw.isReadyToReceive tpt kTransactionHeaderSize = false) :
    ∃ header, (aw.receive tpt kTransactionHeaderSize).1 = encodeHeader header ∧
      aw.unread tpt = encodeHeader header ++ aw.unread (aw.receive tpt kTransactionHeaderSize).2 := by
  have size := aw.receive_ready tpt kTransactionHeaderSize (by simpa using ready)
  refine ⟨decodeHeader (aw.receive tpt kTransactionHeaderSize).1, ?_, ?_⟩
  · rw [encodeHeader_decodeHeader size]
  · rw [encodeHeader_decodeHeader size, aw.receive_unread]

theorem encodeHeader_ne_nil (header : TransactionHeader) : encodeHeader header ≠ [] := by
  intro empty
  have size := length_encodeHeader header
  rw [empty] at size
  cases size

theorem Follows.header (follows : Follows aw config start stream trn parts) (between : trn.rcvLeft = 0) :
    Proceeds aw config start stream (tnRound aw config.maxReceiveSize trn) := by
  have cuts := follows.cuts
  rw [pending_between between] at cuts
  rw [tnRound, if_pos between]
  by_cases ready : aw.isReadyToReceive trn.tpt kTransactionHeaderSize = false
  · rw [if_pos ready]
    have few : (trn.pending aw).length < kTransactionHeaderSize := by
      rw [pending_between between, ← Nat.not_le, ← aw.ready_iff, ready]
      simp
    exact .inl ⟨parts, follows, nextPart_few few, fun refused => refused.1 few⟩
  · rw [if_neg ready]
    obtain ⟨header, received, unread⟩ := receive_header ready
    simp only [received, if_neg (encodeHeader_ne_nil header), decodeHeader_encodeHeader]
    rw [unread] at cuts
    -- Both connections refuse the same headers.
    by_cases refuses : config.Refuses header
    · rw [if_pos ((unreceivable_iff header).mpr refuses)]
      exact .inr ⟨rfl, parts, _, cuts, refusedAt_header refuses _, follows.served⟩
    · rw [if_neg (refuses ∘ (unreceivable_iff header).mp)]
      have sized : header.dataSize.toNat ≠ 0 := by
        intro zero
        exact refuses (.inr (.inl (UInt32.toNat_inj.mp zero)))
      refine ⟨parts, ?_, follows.served, follows.requests, follows.formed.established, follows.formed.alive,
        fun _ => ?_⟩
      · rw [pending_receiving sized rfl]
        simpa using cuts
      · exact ⟨_, rfl, length_tnAllocate aw _ _, by rw [length_tnAllocate, Nat.zero_add], refuses⟩

/-- The last of a part's data finishes the part that the cuts were waiting for, and serves it. -/
theorem Follows.last (follows : Follows aw config start stream trn parts) {rcvBuffer bytes stored : Bytes} {tpt : τ}
    (has : trn.rcvBuffer = some rcvBuffer)
    (stores : UMemory.write (ε := Failure) trn.rcvOffset bytes rcvBuffer = .value stored)
    (last : trn.rcvLeft - bytes.length = 0) (acceptable : Acceptable config ⟨trn.rcvHeader, stored⟩)
    (behind : Cuts config stream parts (ReceivedTransaction.wire ⟨trn.rcvHeader, stored⟩ ++ aw.unread tpt)) :
    Proceeds aw config start stream (goOn (tnReceived aw bytes tpt trn)) := by
  obtain ⟨left, received⟩ := tnReceived_last aw tpt has stores last
  have cuts := behind.snoc acceptable
  have serves : (parts ++ [(⟨trn.rcvHeader, stored⟩ : ReceivedTransaction)]).foldlM (serve aw) start =
      serve aw trn.inbox ⟨trn.rcvHeader, stored⟩ := by
    rw [List.foldlM_append, follows.served, Checked.value_bind, List.foldlM_cons]
    exact bind_pure _
  rw [received]
  change Proceeds aw config start stream (goOn (serve aw trn.inbox ⟨trn.rcvHeader, stored⟩ >>= _))
  cases outcome : serve aw trn.inbox ⟨trn.rcvHeader, stored⟩ with
  | value inbox =>
    exact ⟨_, by rw [pending_between rfl]; exact cuts, serves.trans outcome,
      follows.requests.serve outcome, follows.formed.established, follows.formed.alive, fun left => absurd rfl left⟩
  | error reason => exact ⟨_, _, cuts, serves.trans outcome⟩
  | fault => exact ⟨_, _, cuts, serves.trans outcome⟩

theorem Follows.nothing (follows : Follows aw config start stream trn parts) (receiving : trn.rcvLeft ≠ 0) {tpt : τ}
    (unread : aw.unread tpt = aw.unread trn.tpt) (empty : aw.unread trn.tpt = []) :
    Processed aw config start stream (.value { trn with tpt }) := by
  obtain ⟨rcvBuffer, has, size, sum, accepted⟩ := follows.formed.receiving receiving
  have short : (rcvBuffer.take trn.rcvOffset ++ aw.unread tpt).length < trn.rcvHeader.dataSize.toNat := by
    rw [unread, empty, List.append_nil, List.length_take]
    omega
  have same : STransact.pending aw { trn with tpt } =
      encodeHeader trn.rcvHeader ++ (rcvBuffer.take trn.rcvOffset ++ aw.unread tpt) := by
    rw [← List.append_assoc]
    exact @pending_receiving τ aw { trn with tpt } receiving rcvBuffer has
  have kept : STransact.pending aw { trn with tpt } = trn.pending aw := by
    rw [same, pending_receiving receiving has, unread, List.append_assoc]
  obtain ⟨none, notRefused⟩ := nextPart_header accepted short
  refine .inl ⟨parts, ⟨?_, follows.served, follows.requests, ⟨follows.formed.established, follows.formed.alive,
    follows.formed.receiving⟩⟩, ?_, ?_⟩
  · rw [kept]
    exact follows.cuts
  · rwa [same]
  · rwa [same]

theorem Follows.data (follows : Follows aw config start stream trn parts) (receiving : trn.rcvLeft ≠ 0) :
    Proceeds aw config start stream (tnRound aw config.maxReceiveSize trn) := by
  obtain ⟨rcvBuffer, has, size, sum, accepted⟩ := follows.formed.receiving receiving
  have unread := aw.receive_unread trn.tpt trn.rcvLeft
  have fits := aw.receive_fits trn.tpt trn.rcvLeft
  have empty := aw.receive_some trn.tpt trn.rcvLeft (Nat.pos_of_ne_zero receiving)
  rw [tnRound, if_neg receiving]
  generalize aw.receive trn.tpt trn.rcvLeft = received at unread fits empty
  obtain ⟨bytes, tpt⟩ := received
  dsimp only at unread fits empty ⊢
  by_cases nothing : bytes = []
  · rw [if_pos nothing]
    rw [nothing, List.nil_append] at unread
    exact follows.nothing receiving unread (empty nothing)
  · rw [if_neg nothing]
    have inside : trn.rcvOffset + bytes.length ≤ rcvBuffer.length := by omega
    obtain ⟨stored, stores⟩ : ∃ stored, UMemory.write (ε := Failure) trn.rcvOffset bytes rcvBuffer = .value stored :=
      ⟨_, if_pos inside⟩
    obtain ⟨kept, front⟩ := take_write stores
    have cuts := follows.cuts
    rw [pending_receiving receiving has, ← unread, List.append_assoc, ← List.append_assoc (rcvBuffer.take _),
      ← front] at cuts
    by_cases more : trn.rcvLeft - bytes.length ≠ 0
    · rw [tnReceived_more has stores more, tnProgress_requests follows.requests, goOn]
      refine ⟨parts, ⟨?_, follows.served, follows.requests, ⟨follows.formed.established, follows.formed.alive,
        fun _ => ⟨stored, rfl, kept.trans size, ?_, accepted⟩⟩⟩⟩
      · rw [pending_receiving more rfl, List.append_assoc]
        exact cuts
      · dsimp only
        omega
    · have last : trn.rcvLeft - bytes.length = 0 := not_not.mp more
      have whole : stored.take (trn.rcvOffset + bytes.length) = stored := by
        apply List.take_of_length_le
        omega
      rw [whole] at cuts
      exact follows.last has stores last ⟨(kept.trans size).symm, accepted⟩
        (by rwa [ReceivedTransaction.wire, List.append_assoc])

theorem Follows.round (follows : Follows aw config start stream trn parts) :
    Proceeds aw config start stream (tnRound aw config.maxReceiveSize trn) := by
  by_cases between : trn.rcvLeft = 0
  · exact follows.header between
  · exact follows.data between

theorem Follows.processes (follows : Follows aw config start stream trn parts) :
    Processed aw config start stream (tnProcessIncomingData aw config.maxReceiveSize trn) := by
  have running : ¬ (trn.isEstablished = false ∨ trn.isDead = true) := by
    simp [follows.formed.established, follows.formed.alive]
  rw [tnProcessIncomingData, if_neg running]
  apply Loop.run_invariant _ _ (fun trn => ∃ parts, Follows aw config start stream trn parts)
  · rintro trn next ⟨parts, follows⟩ round
    have proceeds := follows.round
    rwa [round] at proceeds
  · rintro trn result ⟨parts, follows⟩ round
    have proceeds := follows.round
    rwa [round] at proceeds
  · exact ⟨parts, follows⟩

theorem pending_arrive (bytes : Bytes) :
    STransact.pending aw { trn with tpt := aw.arrive trn.tpt bytes } = trn.pending aw ++ bytes := by
  unfold STransact.pending
  dsimp only
  rw [aw.unread_arrive]
  split
  · rfl
  · rw [List.append_assoc _ _ bytes]

theorem Processed.arrive (processed : Processed aw config start stream (.value trn)) (bytes : Bytes) :
    Processed aw config start (stream ++ bytes)
      (tnProcessIncomingData aw config.maxReceiveSize { trn with tpt := aw.arrive trn.tpt bytes }) := by
  rcases processed with ⟨parts, follows, _⟩ | ⟨dead, parts, fragment, cuts, refused, served⟩
  · have arrived : Follows aw config start (stream ++ bytes) { trn with tpt := aw.arrive trn.tpt bytes } parts := by
      refine ⟨?_, follows.served, follows.requests, follows.formed.established, follows.formed.alive,
        follows.formed.receiving⟩
      rw [pending_arrive]
      exact follows.cuts.append bytes
    exact arrived.processes
  · rw [tnProcessIncomingData, if_pos (.inr dead)]
    exact .inr ⟨dead, parts, fragment ++ bytes, cuts.append bytes, refused.append bytes, served⟩

theorem receiveAll_processed (arrivals : List Bytes) (processed : Processed aw config start stream (.value trn)) :
    Processed aw config start (stream ++ arrivals.flatten) (receiveAll aw config.maxReceiveSize arrivals trn) := by
  induction arrivals generalizing stream trn with
  | nil =>
    rw [List.flatten_nil, List.append_nil]
    exact processed
  | cons bytes arrivals ih =>
    have first := processed.arrive bytes
    rw [List.flatten_cons, ← List.append_assoc, receiveAll, List.foldlM_cons]
    cases outcome : tnProcessIncomingData aw config.maxReceiveSize { trn with tpt := aw.arrive trn.tpt bytes } with
    | value next =>
      rw [outcome] at first
      exact ih first
    | error reason =>
      rw [outcome] at first
      obtain ⟨parts, rest, cuts, failed⟩ := first
      exact ⟨parts, _, cuts.append _, failed⟩
    | fault =>
      rw [outcome] at first
      obtain ⟨parts, rest, cuts, failed⟩ := first
      exact ⟨parts, _, cuts.append _, failed⟩

/-- The parts of a stream are served one by one, whatever the arrivals, and a refused header
behind them kills the connection. -/
theorem receiveAll_served {fragment : Bytes} {tpt : τ} (unread : aw.unread tpt = [])
    (cuts : Cuts config stream parts fragment) (ends : nextPart config fragment = none) (arrivals : List Bytes)
    (arrived : arrivals.flatten = stream) :
    (∀ trn, receiveAll aw config.maxReceiveSize arrivals (.accepted tpt) = .value trn →
      parts.foldlM (serve aw) ([], []) = .value trn.inbox ∧ (trn.isDead = true ↔ RefusedAt config fragment)) ∧
    (∀ inbox, parts.foldlM (serve aw) ([], []) = .value inbox →
      ∃ trn, receiveAll aw config.maxReceiveSize arrivals (.accepted tpt) = .value trn) := by
  have nothing : STransact.pending aw (.accepted tpt) = [] := (pending_between rfl).trans unread
  have fresh : Processed aw config ([], []) [] (.value (.accepted tpt)) := by
    refine .inl ⟨[], ⟨⟨nothing.symm, by simp⟩, rfl, by simp [OnlyRequests, STransact.accepted], rfl, rfl,
      fun left => absurd rfl left⟩, ?_, ?_⟩
    · rw [nothing]
      rfl
    · rw [nothing]
      exact fun refused => refused.1 (by decide)
  have processed := receiveAll_processed arrivals fresh
  rw [List.nil_append, arrived] at processed
  generalize receiveAll aw config.maxReceiveSize arrivals (.accepted tpt) = outcome at processed
  -- Where a part could not be served, all the parts cannot be.
  have lost {found : List ReceivedTransaction} {rest : Bytes} (soFar : Cuts config stream found rest)
      (failed : ∀ middle, found.foldlM (serve aw) ([], []) ≠ .value middle) {inbox : Inbox} :
      parts.foldlM (serve aw) ([], []) ≠ .value inbox := by
    obtain ⟨more, rfl, _⟩ := cuts.further ends soFar
    rw [List.foldlM_append]
    intro served
    obtain ⟨middle, first, _⟩ := Checked.bind_eq_value.mp served
    exact failed middle first
  cases outcome with
  | value trn =>
    refine ⟨?_, fun inbox _ => ⟨trn, rfl⟩⟩
    rintro _ ⟨⟩
    rcases processed with ⟨found, follows, ends', waits⟩ | ⟨dead, found, rest, cuts', refused, served⟩
    · obtain ⟨rfl, rfl⟩ := cuts.unique ends follows.cuts ends'
      exact ⟨follows.served, by simp [follows.formed.alive, waits]⟩
    · obtain ⟨rfl, rfl⟩ := cuts.unique ends cuts' refused.nextPart
      exact ⟨served, by simp [dead, refused]⟩
  | error reason =>
    obtain ⟨found, rest, soFar, failed⟩ := processed
    exact ⟨nofun, fun inbox served => absurd served (lost soFar (by simp [failed]))⟩
  | fault =>
    obtain ⟨found, rest, soFar, failed⟩ := processed
    exact ⟨nofun, fun inbox served => absurd served (lost soFar (by simp [failed]))⟩

end

end Slopline.Legacy
