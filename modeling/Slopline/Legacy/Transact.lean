import Slopline.Legacy.FieldData
import Slopline.Net.Reassembly

/-! How a legacy peer receives transactions (`audit/UTransact.cpp.utf8`).

The transport below `UTransact` is not among the sources; with the memory manager it is a parameter
that has what `UTransact` relies on. There is no encryption here. The application takes
its turn after each finished part, with `NewReceiveSession`, `ReceiveSessionDataHdl` and
`DisposeSession`: the reply task of a session is made and killed within that turn, and what
has arrived since is left to the loop which the turn interrupts.
-/

set_option autoImplicit false

namespace Slopline.Legacy

open Library Protocol Net

structure AppWarrior (τ : Type) where
  unread : τ → Bytes
  arrive : τ → Bytes → τ
  isReadyToReceive : τ → Nat → Bool
  receive : τ → Nat → Bytes × τ
  disconnect : τ → τ
  memory : UMemory.Handles Failure
  unread_arrive : ∀ tpt bytes, unread (arrive tpt bytes) = unread tpt ++ bytes
  ready_iff : ∀ tpt size, isReadyToReceive tpt size = true ↔ size ≤ (unread tpt).length
  receive_unread : ∀ tpt size, (receive tpt size).1 ++ unread (receive tpt size).2 = unread tpt
  receive_fits : ∀ tpt size, (receive tpt size).1.length ≤ size
  receive_some : ∀ tpt size, 0 < size → (receive tpt size).1 = [] → unread tpt = []
  receive_ready : ∀ tpt size, isReadyToReceive tpt size = true → (receive tpt size).1.length = size

inductive TaskType where
  | outTask
  | outReplyTask
  | inTask
  | inReplyTask
  deriving DecidableEq, Repr

structure STranTask where
  dataHdl : Option Bytes := none
  totalSize : UInt32 := 0
  transferedSize : UInt32 := 0
  tranID : UInt32 := 0
  tranError : UInt32 := 0
  tranType : UInt16 := 0
  taskType : TaskType
  isBeingReceived : Bool := false
  hasReceivedData : Bool := false
  deriving DecidableEq, Repr

/-- The packed header has the fields of the modern one, in the same order. -/
abbrev STranHdr := TransactionHeader

structure Request where
  type : UInt16
  id : UInt32
  data : Bytes
  deriving DecidableEq, Repr

structure STransact (τ : Type) where
  tpt : τ
  tasks : List STranTask := []
  rcvLeft : Nat := 0
  rcvOffset : Nat := 0
  rcvBuffer : Option Bytes := none
  rcvHeader : STranHdr := {}
  isEstablished : Bool := false
  isDead : Bool := false
  /-- What the application has taken. -/
  taken : List Request := []

def STransact.accepted {τ : Type} (tpt : τ) : STransact τ := { tpt, isEstablished := true }

/-- A pointer to a task: the task, and the tasks before and behind it. -/
structure TaskPtr where
  before : List STranTask
  task : STranTask
  after : List STranTask

namespace TaskPtr

def store (p : TaskPtr) (task : STranTask) : List STranTask := p.before ++ task :: p.after

/-- `_TNKillTask`. -/
def kill (p : TaskPtr) : List STranTask := p.before ++ p.after

end TaskPtr

def firstTask (wanted : STranTask → Bool) : List STranTask → Option TaskPtr
  | [] => none
  | task :: rest =>
    if wanted task then some ⟨[], task, rest⟩
    else (firstTask wanted rest).map fun p => { p with before := task :: p.before }

theorem firstTask_some {wanted : STranTask → Bool} {tasks : List STranTask} {p : TaskPtr}
    (found : firstTask wanted tasks = some p) : tasks = p.store p.task ∧ wanted p.task = true := by
  induction tasks generalizing p with
  | nil => cases found
  | cons task rest ih =>
    rw [firstTask] at found
    split at found
    · rename_i here
      cases found
      exact ⟨rfl, here⟩
    · cases further : firstTask wanted rest with
      | none =>
        rw [further] at found
        cases found
      | some q =>
        rw [further] at found
        cases found
        obtain ⟨same, holds⟩ := ih further
        exact ⟨congrArg (task :: ·) same, holds⟩

theorem firstTask_none {wanted : STranTask → Bool} {tasks : List STranTask} :
    firstTask wanted tasks = none ↔ ∀ task ∈ tasks, wanted task = false := by
  induction tasks with
  | nil => simp [firstTask]
  | cons task rest ih =>
    rw [firstTask, List.forall_mem_cons, ← ih]
    cases wanted task with
    | true => simp
    | false => simp

theorem firstTask_first {wanted : STranTask → Bool} {before after : List STranTask} {task : STranTask}
    (absent : ∀ task ∈ before, wanted task = false) (holds : wanted task = true) :
    firstTask wanted (before ++ task :: after) = some ⟨before, task, after⟩ := by
  induction before with
  | nil => rw [List.nil_append, firstTask, holds, if_pos rfl]
  | cons other before ih =>
    have here := absent other List.mem_cons_self
    rw [List.cons_append, firstTask, here, ih fun task member => absent task (List.mem_cons_of_mem _ member)]
    rfl

def tnAllocate {τ : Type} (aw : AppWarrior τ) (dataSize : UInt32) : Option Bytes → Bytes
  | some rcvBuffer => aw.memory.reallocate dataSize rcvBuffer
  | none => aw.memory.newHandle dataSize

theorem length_tnAllocate {τ : Type} (aw : AppWarrior τ) (dataSize : UInt32) (rcvBuffer : Option Bytes) :
    (tnAllocate aw dataSize rcvBuffer).length = dataSize.toNat := by
  cases rcvBuffer with
  | none => exact aw.memory.length_newHandle dataSize
  | some rcvBuffer => exact aw.memory.length_reallocate dataSize rcvBuffer

/-- `_TNGetTask`. -/
def tnGetTask (tasks : List STranTask) (inTaskType : TaskType) (inTranID : UInt32) : Option TaskPtr :=
  firstTask (fun p => decide (p.taskType = inTaskType ∧ p.tranID = inTranID)) tasks

def kAnyTransactType : UInt16 := 0

def kOnlyCompleteTransact : UInt16 := 1

/-- `_TNGetInTask` on an established connection. -/
def tnGetInTask (tasks : List STranTask) (inType inOptions : UInt16) : Option TaskPtr :=
  firstTask (fun p => decide (p.taskType = .inTask ∧ (inType = kAnyTransactType ∨ p.tranType = inType) ∧
    p.isBeingReceived = false ∧ (inOptions = kOnlyCompleteTransact → p.totalSize ≤ p.transferedSize))) tasks

/-- The application's turn: as long as there is a complete request, it opens a session on it,
takes its data and disposes of the session. At most one session is opened for each task. -/
def takeComplete : Nat → List STranTask × List Request → List STranTask × List Request
  | 0, inbox => inbox
  | fuel + 1, (tasks, taken) =>
    match tnGetInTask tasks kAnyTransactType kOnlyCompleteTransact with
    | none => (tasks, taken)
    | some rcvTask =>
      takeComplete fuel (rcvTask.kill, taken ++ [{
        type := rcvTask.task.tranType
        id := rcvTask.task.tranID
        data := rcvTask.task.dataHdl.getD [] }])

section
variable {τ : Type} (aw : AppWarrior τ) (gTransactMaxReceiveSize : UInt32)

/-- The end of a part: the tasks after it, and what is left of the receive buffer. -/
def tnFinished (rcvHeader : STranHdr) (rcvBuffer : Bytes) (tasks : List STranTask) :
    Checked Failure (List STranTask × Option Bytes) := do
  let s := UInt32.ofNat rcvBuffer.length
  -- A reply's task waits for it already; a request gets its task here.
  match tnGetTask tasks (if rcvHeader.isReply ≠ 0 then .inReplyTask else .inTask) rcvHeader.id with
  | some p =>
    let task := {
      p.task with
      tranError := rcvHeader.error
      tranType := rcvHeader.type
      totalSize := rcvHeader.totalSize
      hasReceivedData := true
      transferedSize := p.task.transferedSize + s }
    match p.task.dataHdl with
    | none => return (p.store { task with dataHdl := some rcvBuffer }, none)
    | some dataHdl =>
      let dataHdl ← aw.memory.append dataHdl rcvBuffer
      return (p.store { task with dataHdl := some dataHdl }, some rcvBuffer)
  | none =>
    if rcvHeader.isReply ≠ 0 then return (tasks, some rcvBuffer)
    else
      return (tasks ++ [{
        taskType := .inTask
        tranType := rcvHeader.type
        tranID := rcvHeader.id
        totalSize := rcvHeader.totalSize
        transferedSize := s
        dataHdl := some rcvBuffer }], none)

/-- What a part does to the tasks and to what the application has taken. -/
def serve (inbox : List STranTask × List Request) (part : ReceivedTransaction) :
    Checked Failure (List STranTask × List Request) := do
  let (tasks, _) ← tnFinished aw part.header part.data inbox.1
  return takeComplete tasks.length (tasks, inbox.2)

def tnProgress (rcvHeader : STranHdr) (s : UInt32) (tasks : List STranTask) : List STranTask :=
  if rcvHeader.isReply ≠ 0 then
    match tnGetTask tasks .inReplyTask rcvHeader.id with
    | some p =>
      p.store { p.task with transferedSize := p.task.transferedSize + s, totalSize := rcvHeader.totalSize }
    | none => tasks
  else tasks

/-- Bytes received behind a header. The handle is locked, so there has to be one. -/
def tnReceived (bytes : Bytes) (tpt : τ) (trn : STransact τ) : Checked Failure (STransact τ) :=
  match trn.rcvBuffer with
  | none => .fault
  | some rcvBuffer => do
    let rcvBuffer ← UMemory.write trn.rcvOffset bytes rcvBuffer
    let rcvOffset := trn.rcvOffset + bytes.length
    let rcvLeft := trn.rcvLeft - bytes.length
    if rcvLeft ≠ 0 then
      let tasks := tnProgress trn.rcvHeader (UInt32.ofNat bytes.length) trn.tasks
      return { trn with tpt, rcvBuffer := some rcvBuffer, rcvOffset, rcvLeft, tasks }
    else
      let (tasks, left) ← tnFinished aw trn.rcvHeader rcvBuffer trn.tasks
      let (tasks, taken) := takeComplete tasks.length (tasks, trn.taken)
      return { trn with tpt, rcvBuffer := left, rcvOffset, rcvLeft, tasks, taken }

/-- Zero or oversized sizes. -/
def Unreceivable (rcvHeader : STranHdr) : Prop :=
  rcvHeader.totalSize = 0 ∨ gTransactMaxReceiveSize < rcvHeader.totalSize ∨ rcvHeader.dataSize = 0 ∨
    gTransactMaxReceiveSize < rcvHeader.dataSize

instance (rcvHeader : STranHdr) : Decidable (Unreceivable gTransactMaxReceiveSize rcvHeader) := by
  unfold Unreceivable
  infer_instance

/-- What is thrown leaves the loop. -/
def goOn : Checked Failure (STransact τ) → Loop (STransact τ) (Checked Failure (STransact τ))
  | .value trn => .again trn
  | .error reason => .done (.error reason)
  | .fault => .done .fault

/-- One round of the loop of `_TNProcessIncomingData`. -/
def tnRound (trn : STransact τ) : Loop (STransact τ) (Checked Failure (STransact τ)) :=
  if trn.rcvLeft = 0 then
    if aw.isReadyToReceive trn.tpt kTransactionHeaderSize = false then .done (.value trn) else
    let (bytes, tpt) := aw.receive trn.tpt kTransactionHeaderSize
    if bytes = [] then .done (.value { trn with tpt }) else
    let rcvHeader := decodeHeader bytes
    if Unreceivable gTransactMaxReceiveSize rcvHeader then
      .done (.value { trn with tpt := aw.disconnect tpt, rcvHeader, isDead := true })
    else
      .again {
        trn with
        tpt
        rcvHeader
        rcvBuffer := some (tnAllocate aw rcvHeader.dataSize trn.rcvBuffer)
        rcvLeft := rcvHeader.dataSize.toNat
        rcvOffset := 0 }
  else
    let (bytes, tpt) := aw.receive trn.tpt trn.rcvLeft
    if bytes = [] then .done (.value { trn with tpt }) else
    goOn (tnReceived aw bytes tpt trn)

theorem tnReceived_tpt {bytes : Bytes} {tpt : τ} {trn next : STransact τ}
    (received : tnReceived aw bytes tpt trn = .value next) : next.tpt = tpt := by
  unfold tnReceived at received
  split at received
  · cases received
  · obtain ⟨stored, _, received⟩ := Checked.bind_eq_value.mp received
    dsimp only at received
    split at received
    · cases received
      rfl
    · obtain ⟨finished, _, received⟩ := Checked.bind_eq_value.mp received
      cases received
      rfl

theorem tnRound_drops (trn next : STransact τ) (round : tnRound aw gTransactMaxReceiveSize trn = .again next) :
    (aw.unread next.tpt).length < (aw.unread trn.tpt).length := by
  have less {size : Nat} (some : (aw.receive trn.tpt size).1 ≠ []) :
      (aw.unread (aw.receive trn.tpt size).2).length < (aw.unread trn.tpt).length := by
    have split := congrArg List.length (aw.receive_unread trn.tpt size)
    have filled := List.length_pos_iff.mpr some
    rw [List.length_append] at split
    omega
  -- Between parts it is a header, in a part some of its data.
  unfold tnRound at round
  split at round
  · split at round
    · cases round
    · dsimp only at round
      split at round
      · cases round
      · rename_i some
        split at round
        · cases round
        · cases round
          exact less some
  · dsimp only at round
    split at round
    · cases round
    · rename_i some
      cases received : tnReceived aw (aw.receive trn.tpt trn.rcvLeft).1 (aw.receive trn.tpt trn.rcvLeft).2 trn with
      | value reached =>
        rw [received] at round
        cases round
        rw [tnReceived_tpt aw received]
        exact less some
      | error reason =>
        rw [received] at round
        cases round
      | fault =>
        rw [received] at round
        cases round

/-- `_TNProcessIncomingData`. -/
def tnProcessIncomingData (trn : STransact τ) : Checked Failure (STransact τ) :=
  if trn.isEstablished = false ∨ trn.isDead = true then .value trn
  else Loop.run (fun trn => (aw.unread trn.tpt).length) (tnRound_drops aw gTransactMaxReceiveSize) trn

/-- What has arrived is processed before more arrives. -/
def receiveAll (arrivals : List Bytes) (trn : STransact τ) : Checked Failure (STransact τ) :=
  arrivals.foldlM (fun trn bytes =>
    tnProcessIncomingData aw gTransactMaxReceiveSize { trn with tpt := aw.arrive trn.tpt bytes }) trn

end

end Slopline.Legacy
