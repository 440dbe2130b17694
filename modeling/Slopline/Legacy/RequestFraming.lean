import Slopline.Legacy.Incoming

/-! Requests in parts: the legacy task list and the modern partials.

Both are compared with one account of a stream, of what has been received of each unfinished
request. The task list keeps to it as long as sizes fit 32 bits. The partials do not where a
request in one part carries the ID of an unfinished one: the fast path hands it over alone.
-/

set_option autoImplicit false

namespace Slopline.Legacy

open Library Protocol Net

/-- The data received so far of each unfinished request. -/
abbrev Unfinished := UInt32 → Bytes

namespace Unfinished

def none : Unfinished := fun _ => []

def add (held : Unfinished) (part : ReceivedTransaction) : Option Request × Unfinished :=
  let id := part.header.id
  let data := held id ++ part.data
  if part.header.totalSize.toNat ≤ data.length then
    (some { type := part.header.type, id, data }, Function.update held id [])
  else (Option.none, Function.update held id data)

def addAll (held : Unfinished) : List ReceivedTransaction → List Request × Unfinished
  | [] => ([], held)
  | part :: parts =>
    let rest := addAll (held.add part).2 parts
    ((held.add part).1.toList ++ rest.1, rest.2)

/-- A request in one part does not carry the ID of an unfinished one, and the size of what has
been received of a request fits 32 bits. -/
structure Compatible (held : Unfinished) (part : ReceivedTransaction) : Prop where
  single : part.header.totalSize = part.header.dataSize → held part.header.id = []
  size : (held part.header.id).length + part.data.length < 2 ^ 32

def AllCompatible (held : Unfinished) : List ReceivedTransaction → Prop
  | [] => True
  | part :: parts => held.Compatible part ∧ AllCompatible (held.add part).2 parts

theorem allCompatible_append (held : Unfinished) (parts more : List ReceivedTransaction) :
    held.AllCompatible (parts ++ more) ↔
      held.AllCompatible parts ∧ (held.addAll parts).2.AllCompatible more := by
  induction parts generalizing held with
  | nil => simp [AllCompatible, addAll]
  | cons part parts ih => rw [List.cons_append, AllCompatible, AllCompatible, ih, and_assoc, addAll]

end Unfinished

/-! The modern partials. -/

def request (transaction : ReceivedTransaction) : Request where
  type := transaction.header.type
  id := transaction.header.id
  data := transaction.data

def PartialsMirror (partials : Partials) (held : Unfinished) : Prop :=
  ∀ id, ((partials.lookup ((0, id) : PartialKey)).getD {}).data = held id

section
variable {config : ConnectionConfig} {held : Unfinished} {partials : Partials} {part : ReceivedTransaction}

theorem PartialsMirror.erase (mirror : PartialsMirror partials held) (id : UInt32) :
    PartialsMirror (partials.erase ((0, id) : PartialKey)) (Function.update held id []) := by
  intro other
  by_cases same : other = id
  · subst same
    rw [Finmap.lookup_erase, Function.update_self]
    rfl
  · have different : ((0, other) : PartialKey) ≠ (0, id) := fun keys => same (Prod.mk.inj keys).2
    rw [Finmap.lookup_erase_ne different, Function.update_of_ne same, mirror]

theorem PartialsMirror.insert (mirror : PartialsMirror partials held) (id : UInt32) (entry : PartialReceive) :
    PartialsMirror (partials.insert ((0, id) : PartialKey) entry) (Function.update held id entry.data) := by
  intro other
  by_cases same : other = id
  · subst same
    rw [Finmap.lookup_insert, Function.update_self]
    rfl
  · have different : ((0, other) : PartialKey) ≠ (0, id) := fun keys => same (Prod.mk.inj keys).2
    rw [Finmap.lookup_insert_of_ne _ different, Function.update_of_ne same, mirror]

theorem PartialsMirror.add (mirror : PartialsMirror partials held) (isRequest : part.header.isReply = 0)
    (acceptable : Acceptable config part)
    (single : part.header.totalSize = part.header.dataSize → held part.header.id = []) :
    (partials.add part).1.map request = (held.add part).1 ∧ PartialsMirror (partials.add part).2 (held.add part).2 := by
  have key : TransactionHeader.key part.header = ((0, part.header.id) : PartialKey) := by
    rw [TransactionHeader.key, isRequest]
  rw [Partials.add, key]
  by_cases whole : part.header.totalSize = part.header.dataSize
  · have reached : part.header.totalSize.toNat ≤ part.data.length := by
      rw [whole, acceptable.size]
    have kept : Function.update held part.header.id [] = held := by
      rw [← single whole, Function.update_eq_self]
    rw [if_pos whole, Unfinished.add, single whole, List.nil_append, if_pos reached, kept]
    exact ⟨rfl, mirror⟩
  · rw [if_neg whole, Unfinished.add]
    dsimp only
    rw [mirror part.header.id]
    split
    · exact ⟨rfl, mirror.erase _⟩
    · exact ⟨rfl, mirror.insert _ _⟩

end

/-! The legacy tasks. -/

structure Waits (held : Unfinished) (task : STranTask) : Prop where
  taskType : task.taskType = .inTask
  notTaken : task.isBeingReceived = false
  incomplete : task.transferedSize < task.totalSize
  dataHdl : task.dataHdl = some (held task.tranID)
  transfered : task.transferedSize.toNat = (held task.tranID).length

structure TasksMirror (tasks : List STranTask) (held : Unfinished) : Prop where
  waits : ∀ task ∈ tasks, Waits held task
  distinct : (tasks.map (·.tranID)).Nodup
  others : ∀ id, id ∉ tasks.map (·.tranID) → held id = []

structure Reached (part : ReceivedTransaction) (received : Nat) (longer : Bytes) (task : STranTask) : Prop where
  taskType : task.taskType = .inTask
  notTaken : task.isBeingReceived = false
  tranID : task.tranID = part.header.id
  tranType : task.tranType = part.header.type
  totalSize : task.totalSize = part.header.totalSize
  dataHdl : task.dataHdl = some longer
  transfered : task.transferedSize = UInt32.ofNat received

section
variable {τ : Type} {aw : AppWarrior τ} {config : ConnectionConfig} {held : Unfinished} {tasks : List STranTask}
  {part : ReceivedTransaction}

theorem Waits.update {task : STranTask} (waits : Waits held task) {id : UInt32} (other : task.tranID ≠ id)
    (data : Bytes) : Waits (Function.update held id data) task where
  taskType := waits.taskType
  notTaken := waits.notTaken
  incomplete := waits.incomplete
  dataHdl := by rw [Function.update_of_ne other, waits.dataHdl]
  transfered := by rw [Function.update_of_ne other, waits.transfered]

theorem TasksMirror.forget {before after : List STranTask} {task : STranTask}
    (mirror : TasksMirror (before ++ task :: after) held) :
    TasksMirror (before ++ after) (Function.update held task.tranID []) ∧
      task.tranID ∉ (before ++ after).map (·.tranID) := by
  have perm : (before ++ task :: after).Perm (task :: (before ++ after)) := List.perm_middle
  have distinct := ((perm.map (·.tranID)).nodup_iff).mp mirror.distinct
  rw [List.map_cons, List.nodup_cons] at distinct
  obtain ⟨absent, distinct⟩ := distinct
  refine ⟨⟨?_, distinct, ?_⟩, absent⟩
  · intro other member
    have different : other.tranID ≠ task.tranID := fun same =>
      absent (List.mem_map.mpr ⟨other, member, same⟩)
    exact (mirror.waits other (perm.mem_iff.mpr (List.mem_cons_of_mem _ member))).update different _
  · intro id outside
    by_cases same : id = task.tranID
    · rw [same, Function.update_self]
    · rw [Function.update_of_ne same]
      apply mirror.others
      intro inside
      rcases List.mem_cons.mp ((perm.map (·.tranID)).mem_iff.mp inside) with here | there
      · exact same here
      · exact outside there

theorem TasksMirror.put {before after : List STranTask} {task : STranTask}
    (mirror : TasksMirror (before ++ after) (Function.update held task.tranID []))
    (absent : task.tranID ∉ (before ++ after).map (·.tranID)) {data : Bytes}
    (waits : Waits (Function.update held task.tranID data) task) :
    TasksMirror (before ++ task :: after) (Function.update held task.tranID data) := by
  have perm : (before ++ task :: after).Perm (task :: (before ++ after)) := List.perm_middle
  refine ⟨?_, ?_, ?_⟩
  · intro other member
    rcases List.mem_cons.mp (perm.mem_iff.mp member) with rfl | there
    · exact waits
    · have different : other.tranID ≠ task.tranID := fun same =>
        absent (List.mem_map.mpr ⟨other, there, same⟩)
      have kept := (mirror.waits other there).update different data
      rwa [Function.update_idem] at kept
  · rw [(perm.map (·.tranID)).nodup_iff, List.map_cons, List.nodup_cons]
    exact ⟨absent, mirror.distinct⟩
  · intro id outside
    rw [(perm.map (·.tranID)).mem_iff, List.map_cons, List.mem_cons, not_or] at outside
    have nothing := mirror.others id outside.2
    rwa [Function.update_of_ne outside.1] at nothing ⊢

theorem Waits.small {task : STranTask} (waits : Waits held task) : (held task.tranID).length < 2 ^ 32 := by
  rw [← waits.transfered]
  exact task.transferedSize.toNat_lt

/-- A part of a request goes to the task of its ID, which is new where there is none. -/
theorem TasksMirror.finished (mirror : TasksMirror tasks held) (isRequest : part.header.isReply = 0)
    (acceptable : Acceptable config part) {finished : List STranTask × Option Bytes}
    (finishes : tnFinished aw part.header part.data tasks = .value finished) :
    ∃ before task after longer, finished.1 = before ++ task :: after ∧
      Reached part ((held part.header.id).length + part.data.length) longer task ∧
      TasksMirror (before ++ after) (Function.update held part.header.id []) ∧
      part.header.id ∉ (before ++ after).map (·.tranID) ∧ (held part.header.id).length < 2 ^ 32 ∧
      longer.length < 2 ^ 32 ∧
      ((held part.header.id).length + part.data.length < 2 ^ 32 → longer = held part.header.id ++ part.data) := by
  have dataSize : part.data.length < 2 ^ 32 := by
    rw [← acceptable.size]
    exact part.header.dataSize.toNat_lt
  have notReply : ¬ part.header.isReply ≠ 0 := not_not_intro isRequest
  rw [tnFinished, if_neg notReply, if_neg notReply] at finishes
  -- A task with the ID holds what came before; without one nothing came before.
  cases found : tnGetTask tasks .inTask part.header.id with
  | some p =>
    obtain ⟨same, wanted⟩ := firstTask_some found
    rw [decide_eq_true_eq] at wanted
    obtain ⟨_, named⟩ := wanted
    rw [same, TaskPtr.store] at mirror
    have waits := mirror.waits p.task (by simp)
    obtain ⟨rest, absent⟩ := mirror.forget
    have small := waits.small
    have counted : p.task.transferedSize + UInt32.ofNat part.data.length =
        UInt32.ofNat ((held part.header.id).length + part.data.length) := by
      rw [UInt32.ofNat_add, ← named, ← waits.transfered, UInt32.ofNat_toNat]
    rw [found] at finishes
    simp only [waits.dataHdl] at finishes
    obtain ⟨longer, appended, finishes⟩ := Checked.bind_eq_value.mp finishes
    cases finishes
    rw [named] at rest absent small appended
    refine ⟨p.before, _, p.after, longer, rfl, ⟨waits.taskType, waits.notTaken, named, rfl, rfl, rfl, counted⟩,
      rest, absent, small, aw.memory.replace_size _ _ _ _ _ appended, fun fits => ?_⟩
    rw [aw.memory.append_fits fits] at appended
    exact (Checked.value.inj appended).symm
  | none =>
    have absent : part.header.id ∉ tasks.map (·.tranID) := by
      intro inside
      obtain ⟨task, member, named⟩ := List.mem_map.mp inside
      have unwanted := firstTask_none.mp found task member
      rw [decide_eq_false_iff_not] at unwanted
      exact unwanted ⟨(mirror.waits task member).taskType, named⟩
    have nothing := mirror.others _ absent
    rw [found] at finishes
    cases finishes
    refine ⟨tasks, _, [], part.data, rfl, ⟨rfl, rfl, rfl, rfl, rfl, rfl, ?_⟩, ?_, ?_, ?_, dataSize, fun _ => ?_⟩
    · rw [nothing, List.length_nil, Nat.zero_add]
    · rw [List.append_nil, ← nothing, Function.update_eq_self]
      exact mirror
    · rwa [List.append_nil]
    · rw [nothing]
      decide
    · rw [nothing, List.nil_append]

def Takeable (task : STranTask) : Bool :=
  decide (task.taskType = .inTask ∧ (kAnyTransactType = kAnyTransactType ∨ task.tranType = kAnyTransactType) ∧
    task.isBeingReceived = false ∧
    (kOnlyCompleteTransact = kOnlyCompleteTransact → task.totalSize ≤ task.transferedSize))

theorem Waits.notTakeable {task : STranTask} (waits : Waits held task) : Takeable task = false := by
  rw [Takeable, decide_eq_false_iff_not]
  rintro ⟨_, _, _, complete⟩
  exact UInt32.not_le.mpr waits.incomplete (complete rfl)

theorem takeComplete_waits (waits : ∀ task ∈ tasks, Waits held task) (fuel : Nat) (taken : List Request) :
    takeComplete fuel (tasks, taken) = (tasks, taken) := by
  cases fuel with
  | zero => rfl
  | succ fuel =>
    have nothing : tnGetInTask tasks kAnyTransactType kOnlyCompleteTransact = none :=
      firstTask_none.mpr fun task member => (waits task member).notTakeable
    rw [takeComplete, nothing]

/-- The application takes the request that a part has completed, and no other. -/
theorem takeComplete_reached {before after : List STranTask} {task : STranTask} {received : Nat} {longer : Bytes}
    (waits : ∀ task ∈ before ++ after, Waits held task) (reached : Reached part received longer task)
    (taken : List Request) :
    takeComplete (before ++ task :: after).length (before ++ task :: after, taken) =
      if part.header.totalSize ≤ UInt32.ofNat received then
        (before ++ after, taken ++ [{ type := part.header.type, id := part.header.id, data := longer }])
      else (before ++ task :: after, taken) := by
  obtain ⟨waitsBefore, waitsAfter⟩ := List.forall_mem_append.mp waits
  have size : (before ++ task :: after).length = before.length + after.length + 1 := by
    rw [List.length_append, List.length_cons, Nat.add_assoc]
  -- Of all tasks only the one reached can have its total.
  by_cases complete : part.header.totalSize ≤ UInt32.ofNat received
  · have wanted : Takeable task = true := by
      rw [Takeable, decide_eq_true_eq, reached.totalSize, reached.transfered]
      exact ⟨reached.taskType, .inl rfl, reached.notTaken, fun _ => complete⟩
    have found : tnGetInTask (before ++ task :: after) kAnyTransactType kOnlyCompleteTransact =
        some ⟨before, task, after⟩ :=
      firstTask_first (fun task member => (waitsBefore task member).notTakeable) wanted
    rw [if_pos complete, size, takeComplete, found]
    dsimp only [TaskPtr.kill]
    rw [takeComplete_waits waits, reached.tranType, reached.tranID, reached.dataHdl]
    rfl
  · have unwanted : Takeable task = false := by
      rw [Takeable, decide_eq_false_iff_not, reached.totalSize, reached.transfered]
      exact fun wanted => complete (wanted.2.2.2 rfl)
    have nothing : tnGetInTask (before ++ task :: after) kAnyTransactType kOnlyCompleteTransact = none := by
      apply firstTask_none.mpr
      rw [List.forall_mem_append, List.forall_mem_cons]
      exact ⟨fun task member => (waitsBefore task member).notTakeable, unwanted,
        fun task member => (waitsAfter task member).notTakeable⟩
    rw [if_neg complete, size, takeComplete, nothing]

theorem TasksMirror.serve (mirror : TasksMirror tasks held) (isRequest : part.header.isReply = 0)
    (acceptable : Acceptable config part) {taken : List Request} {inbox : Inbox}
    (serves : serve aw (tasks, taken) part = .value inbox) :
    ∃ longer, longer.length < 2 ^ 32 ∧ (held part.header.id).length < 2 ^ 32 ∧
      inbox.2 = taken ++ (if part.header.totalSize ≤ UInt32.ofNat ((held part.header.id).length + part.data.length)
        then [{ type := part.header.type, id := part.header.id, data := longer }] else []) ∧
      ((held part.header.id).length + part.data.length < 2 ^ 32 →
        longer = held part.header.id ++ part.data ∧ inbox.2 = taken ++ (held.add part).1.toList ∧
          TasksMirror inbox.1 (held.add part).2) := by
  obtain ⟨finished, finishes, serves⟩ := Checked.bind_eq_value.mp serves
  obtain ⟨before, task, after, longer, same, reached, rest, absent, small, fits, exactly⟩ :=
    mirror.finished isRequest acceptable finishes
  cases serves
  rw [same, takeComplete_reached rest.waits reached]
  refine ⟨longer, fits, small, ?_, fun received => ⟨exactly received, ?_⟩⟩
  · split
    · rfl
    · rw [List.append_nil]
  -- Below 2^32 bytes the count does not wrap, and both sides compare the same sizes.
  · have counted : (UInt32.ofNat ((held part.header.id).length + part.data.length)).toNat =
        (held part.header.id ++ part.data).length := by
      rw [List.length_append]
      exact UInt32.toNat_ofNat_of_lt' received
    have reaches : part.header.totalSize ≤ UInt32.ofNat ((held part.header.id).length + part.data.length) ↔
        part.header.totalSize.toNat ≤ (held part.header.id ++ part.data).length := by
      rw [UInt32.le_iff_toNat_le, counted]
    by_cases complete : part.header.totalSize ≤ UInt32.ofNat ((held part.header.id).length + part.data.length)
    · rw [if_pos complete, Unfinished.add, if_pos (reaches.mp complete), exactly received]
      exact ⟨rfl, rest⟩
    · rw [if_neg complete, Unfinished.add, if_neg (complete ∘ reaches.mpr)]
      refine ⟨(List.append_nil _).symm, ?_⟩
      rw [← reached.tranID] at rest absent ⊢
      refine rest.put absent ⟨reached.taskType, reached.notTaken, ?_, ?_, ?_⟩
      · rw [reached.transfered, reached.totalSize]
        exact UInt32.not_le.mp complete
      · rw [Function.update_self, reached.dataHdl, exactly received, reached.tranID]
      · rw [Function.update_self, reached.transfered, counted, reached.tranID]

variable (aw) in
theorem TasksMirror.serves (mirror : TasksMirror tasks held) (isRequest : part.header.isReply = 0)
    (received : (held part.header.id).length + part.data.length < 2 ^ 32) (taken : List Request) :
    ∃ inbox, Legacy.serve aw (tasks, taken) part = .value inbox := by
  have notReply : ¬ part.header.isReply ≠ 0 := not_not_intro isRequest
  obtain ⟨finished, finishes⟩ : ∃ finished, tnFinished aw part.header part.data tasks = .value finished := by
    rw [tnFinished, if_neg notReply, if_neg notReply]
    cases found : tnGetTask tasks .inTask part.header.id with
    | none => exact ⟨_, rfl⟩
    | some p =>
      obtain ⟨same, wanted⟩ := firstTask_some found
      rw [decide_eq_true_eq] at wanted
      rw [same, TaskPtr.store] at mirror
      have waits := mirror.waits p.task (by simp)
      simp only [waits.dataHdl, wanted.2, aw.memory.append_fits received, Checked.value_bind]
      exact ⟨_, rfl⟩
  rw [Legacy.serve, finishes]
  exact ⟨_, rfl⟩

end

/-! Streams of requests. -/

section
variable {τ : Type} {aw : AppWarrior τ} {config : ConnectionConfig} {held : Unfinished} {tasks : List STranTask}
  {parts : List ReceivedTransaction}

theorem PartialsMirror.addAll {partials : Partials} (mirror : PartialsMirror partials held)
    (requests : ∀ part ∈ parts, part.header.isReply = 0) (acceptable : ∀ part ∈ parts, Acceptable config part)
    (compatible : held.AllCompatible parts) :
    (partials.addAll parts).1.map request = (held.addAll parts).1 ∧
      PartialsMirror (partials.addAll parts).2 (held.addAll parts).2 := by
  induction parts generalizing held partials with
  | nil => exact ⟨rfl, mirror⟩
  | cons part parts ih =>
    obtain ⟨isRequest, requests⟩ := List.forall_mem_cons.mp requests
    obtain ⟨accepted, acceptable⟩ := List.forall_mem_cons.mp acceptable
    obtain ⟨first, mirror⟩ := mirror.add isRequest accepted compatible.1.single
    obtain ⟨rest, mirror⟩ := ih mirror requests acceptable compatible.2
    refine ⟨?_, mirror⟩
    rw [Partials.addAll, Unfinished.addAll, List.map_append, rest, ← first]
    cases (partials.add part).1 <;> rfl

variable (aw) in
theorem TasksMirror.serveAll (mirror : TasksMirror tasks held)
    (requests : ∀ part ∈ parts, part.header.isReply = 0) (acceptable : ∀ part ∈ parts, Acceptable config part)
    (compatible : held.AllCompatible parts) (taken : List Request) :
    ∃ inbox, parts.foldlM (Legacy.serve aw) (tasks, taken) = .value inbox ∧
      inbox.2 = taken ++ (held.addAll parts).1 ∧ TasksMirror inbox.1 (held.addAll parts).2 := by
  induction parts generalizing held tasks taken with
  | nil => exact ⟨_, rfl, (List.append_nil _).symm, mirror⟩
  | cons part parts ih =>
    obtain ⟨isRequest, requests⟩ := List.forall_mem_cons.mp requests
    obtain ⟨accepted, acceptable⟩ := List.forall_mem_cons.mp acceptable
    have received := compatible.1.size
    obtain ⟨⟨tasks', taken'⟩, serves⟩ := mirror.serves aw isRequest received taken
    obtain ⟨longer, _, _, _, exactly⟩ := mirror.serve isRequest accepted serves
    obtain ⟨_, first, mirror⟩ := exactly received
    obtain ⟨inbox, rest, both, mirror⟩ := ih mirror requests acceptable compatible.2 taken'
    refine ⟨inbox, ?_, ?_, mirror⟩
    · rw [List.foldlM_cons, serves]
      exact rest
    · dsimp only at first
      rw [both, first, Unfinished.addAll, List.append_assoc]

/-- Where both sides make the same of one more part, it is compatible. -/
theorem compatible_of_same {partials : Partials} {part : ReceivedTransaction} (tasksMirror : TasksMirror tasks held)
    (partialsMirror : PartialsMirror partials held) (isRequest : part.header.isReply = 0)
    (acceptable : Acceptable config part) {taken : List Request} {inbox : Inbox}
    (serves : serve aw (tasks, taken) part = .value inbox)
    (same : inbox.2 = taken ++ ((partials.add part).1.map request).toList) : held.Compatible part := by
  obtain ⟨longer, fits, small, takes, exactly⟩ := tasksMirror.serve isRequest acceptable serves
  have dataSize : part.data.length < 2 ^ 32 := by
    rw [← acceptable.size]
    exact part.header.dataSize.toNat_lt
  rw [takes, List.append_cancel_left_eq] at same
  by_cases whole : part.header.totalSize = part.header.dataSize
  · -- The modern side hands over the part alone.
    rw [Partials.add, if_pos whole] at same
    have complete : part.header.totalSize ≤ UInt32.ofNat ((held part.header.id).length + part.data.length) := by
      by_contra incomplete
      rw [if_neg incomplete] at same
      cases same
    rw [if_pos complete] at same
    have alone : longer = part.data := by
      cases same
      rfl
    have received : (held part.header.id).length + part.data.length < 2 ^ 32 := by
      by_contra large
      rw [whole, UInt32.le_iff_toNat_le, acceptable.size, UInt32.toNat_ofNat'] at complete
      omega
    refine ⟨fun _ => ?_, received⟩
    rw [(exactly received).1] at alone
    exact List.append_left_eq_self.mp alone
  · refine ⟨fun only => absurd only whole, ?_⟩
    by_contra large
    -- The modern side hands over more than the legacy side can hold.
    have key : TransactionHeader.key part.header = ((0, part.header.id) : PartialKey) := by
      rw [TransactionHeader.key, isRequest]
    have reached : part.header.totalSize.toNat ≤ (held part.header.id ++ part.data).length := by
      have total := part.header.totalSize.toNat_lt
      rw [List.length_append]
      omega
    rw [Partials.add, if_neg whole, key] at same
    dsimp only at same
    rw [partialsMirror part.header.id, if_pos reached] at same
    split at same
    · have longest : longer = held part.header.id ++ part.data := by
        cases same
        rfl
      rw [longest, List.length_append] at fits
      exact large fits
    · cases same

end

end Slopline.Legacy
