import Mathlib.Data.Finset.Basic
import Slopline.Library.Checked
import Slopline.Net.Socket

/-! Who owns the descriptors (`appwarrior/net/socket.h`, `socket.cpp`, the POSIX half).

`Socket` and `Listener` have the same members, and are one handle here. The process' open descriptors
are part of the state. What the system answers is an input; what it opens was not open before.
-/

set_option autoImplicit false

namespace Slopline.Net

open Library

abbrev NativeSocket := Int

def kInvalid : NativeSocket := -1

abbrev DescriptorSet := Finset NativeSocket

/-- `::close`. A descriptor that is not open here may soon be somebody else's. -/
def closeDescriptor (descriptor : NativeSocket) (opened : DescriptorSet) : Checked Empty DescriptorSet :=
  if descriptor ∈ opened then .value (opened.erase descriptor) else .fault

/-- The answers of `::fcntl` in `set_non_blocking`. -/
abbrev FlagsResult := Except NetError Unit

/-- A system call that opens a descriptor, and what is done about it when it cannot be made non-blocking. -/
def openNonBlocking (answer : Except NetError NativeSocket) (flags : FlagsResult) (opened : DescriptorSet) :
    Checked Empty (Except NetError NativeSocket × DescriptorSet) :=
  match answer with
  | .error error => return (.error error, opened)
  | .ok descriptor => do
    let opened := insert descriptor opened
    match flags with
    | .ok () => return (.ok descriptor, opened)
    | .error error => do
      let opened ← closeDescriptor descriptor opened
      return (.error error, opened)

structure Handle where
  descriptor : NativeSocket := kInvalid
  deriving DecidableEq, Repr

namespace Handle

def isOpen (handle : Handle) : Bool := handle.descriptor != kInvalid

def close (handle : Handle) (opened : DescriptorSet) : Checked Empty (Handle × DescriptorSet) :=
  if handle.isOpen then do
    let opened ← closeDescriptor handle.descriptor opened
    return ({ descriptor := kInvalid }, opened)
  else return (handle, opened)

end Handle

/-- `Socket::create_tcp`, by what `::socket` answers. -/
def Socket.createTcp := openNonBlocking

def Socket.createUdp := openNonBlocking

def Listener.createTcp := openNonBlocking

def Listener.accept := openNonBlocking

/-- By what `::socketpair` answers. The second descriptor is not asked for when the first one fails. -/
def makeSocketPair (answer : Except NetError (NativeSocket × NativeSocket)) (first second : FlagsResult)
    (opened : DescriptorSet) : Checked Empty (Except NetError (NativeSocket × NativeSocket) × DescriptorSet) :=
  match answer with
  | .error error => return (.error error, opened)
  | .ok descriptors => do
    let opened := insert descriptors.2 (insert descriptors.1 opened)
    match (do first; second : FlagsResult) with
    | .ok () => return (.ok descriptors, opened)
    | .error error => do
      let opened ← closeDescriptor descriptors.1 opened
      let opened ← closeDescriptor descriptors.2 opened
      return (.error error, opened)

/-! A program with such objects. -/

/-- An object that was destroyed leaves `none`. -/
structure Process where
  opened : DescriptorSet := ∅
  handles : List (Option Handle) := []
  /-- What the rest of the program has open. -/
  others : DescriptorSet := ∅

inductive HandleOp where
  | default
  /-- `create_tcp` of either class, or `create_udp`. -/
  | create (answer : Except NetError NativeSocket) (flags : FlagsResult)
  | accept (listener : Nat) (answer : Except NetError NativeSocket) (flags : FlagsResult)
  | pair (answer : Except NetError (NativeSocket × NativeSocket)) (first second : FlagsResult)
  | moveConstruct (other : Nat)
  | moveAssign (target other : Nat)
  | close (index : Nat)
  | destroy (index : Nat)
  /-- The constructor from a descriptor that the rest of the program gives away. -/
  | adopt (descriptor : NativeSocket)
  /-- The rest of the program opens and closes its own. -/
  | elsewhere (others : DescriptorSet)

namespace Process

def handle (process : Process) (index : Nat) : Checked Empty Handle :=
  match process.handles[index]? with
  | some (some handle) => .value handle
  | _ => .fault

def add (descriptor : NativeSocket) (process : Process) : Process :=
  { process with handles := process.handles ++ [some { descriptor }] }

def put (index : Nat) (handle : Option Handle) (process : Process) : Process :=
  { process with handles := process.handles.set index handle }

def receive (result : Except NetError NativeSocket × DescriptorSet) (process : Process) : Process :=
  match result.1 with
  | .ok descriptor => ({ process with opened := result.2 } : Process).add descriptor
  | .error _ => { process with opened := result.2 }

def perform (process : Process) : HandleOp → Checked Empty Process
  | .default => return process.add kInvalid
  | .create answer flags => do return process.receive (← Socket.createTcp answer flags process.opened)
  | .accept listener answer flags => do
    let _ ← process.handle listener
    return process.receive (← Listener.accept answer flags process.opened)
  | .pair answer first second => do
    let (result, opened) ← makeSocketPair answer first second process.opened
    match result with
    | .ok descriptors => return (({ process with opened } : Process).add descriptors.1).add descriptors.2
    | .error _ => return { process with opened }
  | .moveConstruct other => do
    let moved ← process.handle other
    return (process.put other (some { descriptor := kInvalid })).add moved.descriptor
  | .moveAssign target other => do
    let handle ← process.handle target
    let moved ← process.handle other
    if target = other then return process
    else
      let (_, opened) ← handle.close process.opened
      return (({ process with opened } : Process).put target (some moved)).put other (some { descriptor := kInvalid })
  | .close index => do
    let handle ← process.handle index
    let (handle, opened) ← handle.close process.opened
    return ({ process with opened } : Process).put index (some handle)
  | .destroy index => do
    let handle ← process.handle index
    let (_, opened) ← handle.close process.opened
    return ({ process with opened } : Process).put index none
  | .adopt descriptor => return ({ process with others := process.others.erase descriptor } : Process).add descriptor
  | .elsewhere others =>
    return { process with opened := (process.opened \ process.others) ∪ others, others }

def Fresh (process : Process) (descriptor : NativeSocket) : Prop := 0 ≤ descriptor ∧ descriptor ∉ process.opened

def Alive (process : Process) (index : Nat) : Prop := ∃ handle, process.handles[index]? = some (some handle)

/-- The program uses objects that are alive, the system gives out what was not open, and the rest of
the program leaves alone what it has not opened. -/
inductive Allowed (process : Process) : HandleOp → Prop where
  | default : Allowed process .default
  | create {answer : Except NetError NativeSocket} (flags : FlagsResult) :
      (∀ descriptor, answer = .ok descriptor → process.Fresh descriptor) → Allowed process (.create answer flags)
  | accept {listener : Nat} {answer : Except NetError NativeSocket} (flags : FlagsResult) : process.Alive listener →
      (∀ descriptor, answer = .ok descriptor → process.Fresh descriptor) →
      Allowed process (.accept listener answer flags)
  | pair {answer : Except NetError (NativeSocket × NativeSocket)} (first second : FlagsResult) :
      (∀ descriptors, answer = .ok descriptors → process.Fresh descriptors.1 ∧ process.Fresh descriptors.2 ∧
        descriptors.1 ≠ descriptors.2) → Allowed process (.pair answer first second)
  | moveConstruct {other : Nat} : process.Alive other → Allowed process (.moveConstruct other)
  | moveAssign {target other : Nat} : process.Alive target → process.Alive other →
      Allowed process (.moveAssign target other)
  | close {index : Nat} : process.Alive index → Allowed process (.close index)
  | destroy {index : Nat} : process.Alive index → Allowed process (.destroy index)
  | adopt {descriptor : NativeSocket} : descriptor ∈ process.others → Allowed process (.adopt descriptor)
  | elsewhere {others : DescriptorSet} : (∀ descriptor ∈ others, 0 ≤ descriptor ∧
      (descriptor ∈ process.opened → descriptor ∈ process.others)) → Allowed process (.elsewhere others)

/-- A process that has no sockets yet, and what it goes through. -/
inductive Reachable : Process → Prop where
  | start (others : DescriptorSet) : (∀ descriptor ∈ others, 0 ≤ descriptor) → Reachable { opened := others, others }
  | step {process next : Process} (op : HandleOp) : Reachable process → process.Allowed op →
      process.perform op = .value next → Reachable next

/-! The descriptors the objects hold. -/

def ownedBy : Option Handle → List NativeSocket
  | some handle => if handle.isOpen then [handle.descriptor] else []
  | none => []

def held (process : Process) : List NativeSocket := process.handles.flatMap ownedBy

/-- Every open descriptor belongs to one object, or to the rest of the program. -/
structure Sound (process : Process) : Prop where
  once : process.held.Nodup
  opened : ∀ descriptor, descriptor ∈ process.opened ↔ descriptor ∈ process.held ∨ descriptor ∈ process.others
  apart : ∀ descriptor ∈ process.held, descriptor ∉ process.others
  valid : ∀ descriptor ∈ process.opened, 0 ≤ descriptor

variable {process : Process}

@[simp] theorem ownedBy_invalid : ownedBy (some { descriptor := kInvalid }) = [] := rfl

theorem ownedBy_valid {descriptor : NativeSocket} (valid : 0 ≤ descriptor) :
    ownedBy (some { descriptor }) = [descriptor] := by
  have other : descriptor ≠ kInvalid := by
    rintro rfl
    exact absurd valid (by decide)
  simp [ownedBy, Handle.isOpen, other]

theorem held_set {handles : List (Option Handle)} {index : Nat} {old : Option Handle}
    (there : handles[index]? = some old) (new : Option Handle) :
    ((handles.set index new).flatMap ownedBy ++ ownedBy old).Perm (handles.flatMap ownedBy ++ ownedBy new) := by
  obtain ⟨inside, rfl⟩ := List.getElem?_eq_some_iff.mp there
  have before : handles = handles.take index ++ handles[index] :: handles.drop (index + 1) := by
    rw [List.getElem_cons_drop, List.take_append_drop]
  have after : handles.set index new = handles.take index ++ new :: handles.drop (index + 1) :=
    List.set_eq_take_append_cons_drop .. |>.trans (if_pos inside)
  rw [after]
  conv => rhs; rw [before]
  simp only [List.flatMap_append, List.flatMap_cons, List.append_assoc]
  refine List.Perm.append_left _ ?_
  generalize (handles.drop (index + 1)).flatMap ownedBy = rest
  generalize ownedBy handles[index] = gone
  generalize ownedBy new = come
  exact (List.perm_append_comm_assoc come rest gone).trans
    ((List.Perm.append_left rest List.perm_append_comm).trans (List.perm_append_comm_assoc rest gone come))

theorem handle_eq_value {index : Nat} {handle : Handle} (alive : process.handles[index]? = some (some handle)) :
    process.handle index = .value handle := by
  rw [Process.handle, alive]

theorem mem_held {index : Nat} {handle : Handle} (alive : process.handles[index]? = some (some handle))
    {descriptor : NativeSocket} (owned : descriptor ∈ ownedBy (some handle)) : descriptor ∈ process.held :=
  List.mem_flatMap.mpr ⟨_, List.mem_of_getElem? alive, owned⟩

theorem Sound.close (sound : process.Sound) {index : Nat} {handle : Handle}
    (alive : process.handles[index]? = some (some handle)) :
    handle.close process.opened =
      .value ({ descriptor := kInvalid }, process.opened \ (ownedBy (some handle)).toFinset) := by
  obtain ⟨descriptor⟩ := handle
  by_cases invalid : descriptor = kInvalid
  · subst invalid
    simp [Handle.close, Handle.isOpen]
  · have owned : ownedBy (some { descriptor }) = [descriptor] := by simp [ownedBy, Handle.isOpen, invalid]
    have there : descriptor ∈ process.opened :=
      (sound.opened descriptor).mpr (.inl (mem_held alive (by rw [owned]; exact List.mem_singleton_self _)))
    simp [Handle.close, Handle.isOpen, invalid, closeDescriptor, there, owned, Finset.sdiff_singleton_eq_erase]

theorem Sound.release (sound : process.Sound) {handles : List (Option Handle)} {gone : List NativeSocket}
    (less : (handles.flatMap ownedBy ++ gone).Perm process.held) :
    Sound { process with opened := process.opened \ gone.toFinset, handles } := by
  have once := less.nodup_iff.mpr sound.once
  obtain ⟨kept, -, apart⟩ := List.nodup_append'.mp once
  have parts (descriptor : NativeSocket) :
      descriptor ∈ process.held ↔ descriptor ∈ handles.flatMap ownedBy ∨ descriptor ∈ gone := by
    rw [← less.mem_iff, List.mem_append]
  constructor
  · exact kept
  · intro descriptor
    rw [Finset.mem_sdiff, List.mem_toFinset, sound.opened, parts, held]
    constructor
    · rintro ⟨(held | closed) | other, not⟩
      · exact .inl held
      · exact absurd closed not
      · exact .inr other
    · rintro (held | other)
      · exact ⟨.inl (.inl held), fun closed => apart held closed⟩
      · exact ⟨.inr other, fun closed => sound.apart descriptor ((parts _).mpr (.inr closed)) other⟩
  · intro descriptor held
    exact sound.apart descriptor ((parts _).mpr (.inl held))
  · intro descriptor opened
    exact sound.valid descriptor (Finset.mem_sdiff.mp opened).1

theorem Sound.gain (sound : process.Sound) {descriptor : NativeSocket} (fresh : process.Fresh descriptor) :
    Sound (({ process with opened := insert descriptor process.opened } : Process).add descriptor) := by
  have more : (({ process with opened := insert descriptor process.opened } : Process).add descriptor).held =
      process.held ++ [descriptor] := by
    simp [held, add, ownedBy_valid fresh.1]
  have notHeld : descriptor ∉ process.held := fun held => fresh.2 ((sound.opened descriptor).mpr (.inl held))
  have notOther : descriptor ∉ process.others := fun other => fresh.2 ((sound.opened descriptor).mpr (.inr other))
  constructor
  · rw [more]
    exact sound.once.append (List.nodup_singleton _) (List.disjoint_singleton.mpr notHeld)
  · intro other
    rw [more]
    simp only [add, Finset.mem_insert, sound.opened, List.mem_append, List.mem_singleton]
    tauto
  · intro other held
    rw [more, List.mem_append, List.mem_singleton] at held
    rcases held with held | rfl
    · exact sound.apart other held
    · exact notOther
  · intro other opened
    rcases Finset.mem_insert.mp opened with rfl | opened
    · exact fresh.1
    · exact sound.valid other opened

theorem Sound.default (sound : process.Sound) : Sound (process.add kInvalid) := by
  have same : (process.add kInvalid).held = process.held := by simp [held, add]
  constructor
  · exact same ▸ sound.once
  · exact same ▸ sound.opened
  · exact same ▸ sound.apart
  · exact sound.valid

theorem Sound.exchange (sound : process.Sound) {handles : List (Option Handle)}
    (same : (handles.flatMap ownedBy).Perm process.held) : Sound { process with handles } := by
  constructor
  · exact same.nodup_iff.mpr sound.once
  · intro descriptor
    rw [held, same.mem_iff]
    exact sound.opened descriptor
  · intro descriptor held
    exact sound.apart descriptor (same.mem_iff.mp held)
  · exact sound.valid

theorem Sound.adopt (sound : process.Sound) {descriptor : NativeSocket} (given : descriptor ∈ process.others) :
    Sound (({ process with others := process.others.erase descriptor } : Process).add descriptor) := by
  have opened := (sound.opened descriptor).mpr (.inr given)
  have more : (({ process with others := process.others.erase descriptor } : Process).add descriptor).held =
      process.held ++ [descriptor] := by
    simp [held, add, ownedBy_valid (sound.valid descriptor opened)]
  have notHeld : descriptor ∉ process.held := fun held => sound.apart descriptor held given
  constructor
  · rw [more]
    exact sound.once.append (List.nodup_singleton _) (List.disjoint_singleton.mpr notHeld)
  · intro other
    rw [more]
    simp only [add, sound.opened, List.mem_append, List.mem_singleton, Finset.mem_erase]
    by_cases same : other = descriptor
    · simp [same, given]
    · simp [same]
  · intro other held
    rw [more, List.mem_append, List.mem_singleton] at held
    simp only [add, Finset.mem_erase, not_and]
    rcases held with held | rfl
    · exact fun _ => sound.apart other held
    · exact fun different => absurd rfl different
  · exact sound.valid

theorem Sound.elsewhere (sound : process.Sound) {others : DescriptorSet}
    (own : ∀ descriptor ∈ others, 0 ≤ descriptor ∧ (descriptor ∈ process.opened → descriptor ∈ process.others)) :
    Sound { process with opened := (process.opened \ process.others) ∪ others, others } := by
  constructor
  · exact sound.once
  · intro descriptor
    have apart := sound.apart descriptor
    simp only [Finset.mem_union, Finset.mem_sdiff, sound.opened]
    simp only [held] at apart ⊢
    tauto
  · intro descriptor held other
    have opened := (sound.opened descriptor).mpr (.inl held)
    exact sound.apart descriptor held ((own descriptor other).2 opened)
  · intro descriptor opened
    rcases Finset.mem_union.mp opened with opened | other
    · exact sound.valid descriptor (Finset.mem_sdiff.mp opened).1
    · exact (own descriptor other).1

/-! One operation. -/

theorem Sound.openNonBlocking (sound : process.Sound) {answer : Except NetError NativeSocket}
    (fresh : ∀ descriptor, answer = .ok descriptor → process.Fresh descriptor) (flags : FlagsResult) :
    (Net.openNonBlocking answer flags process.opened).Post fun result => Sound (process.receive result) := by
  rcases answer with error | descriptor
  · exact sound
  · have given := fresh descriptor rfl
    rcases flags with error | ⟨⟩
    · simp only [Net.openNonBlocking, closeDescriptor, Finset.mem_insert_self, if_true,
        Finset.erase_insert given.2]
      exact sound
    · exact sound.gain given

theorem Sound.makeSocketPair (sound : process.Sound) {answer : Except NetError (NativeSocket × NativeSocket)}
    (fresh : ∀ descriptors, answer = .ok descriptors → process.Fresh descriptors.1 ∧ process.Fresh descriptors.2 ∧
      descriptors.1 ≠ descriptors.2) (first second : FlagsResult) :
    (process.perform (.pair answer first second)).Post Sound := by
  rcases answer with error | ⟨one, two⟩
  · exact sound
  · obtain ⟨freshOne, freshTwo, different⟩ := fresh _ rfl
    have gained := sound.gain freshOne
    have twice : Fresh (({ process with opened := insert one process.opened } : Process).add one) two :=
      ⟨freshTwo.1, by simp [add, Ne.symm different, freshTwo.2]⟩
    simp only [perform, Net.makeSocketPair]
    cases (do first; second : FlagsResult) with
    | ok _ => exact gained.gain twice
    | error error =>
      have back : ((insert two (insert one process.opened)).erase one).erase two = process.opened := by
        rw [Finset.erase_insert_of_ne different.symm, Finset.erase_insert freshOne.2,
          Finset.erase_insert freshTwo.2]
      have there : two ∈ (insert two (insert one process.opened)).erase one := by simp [different.symm]
      simp only [closeDescriptor, Finset.mem_insert, true_or, or_true, if_true, there, Checked.value_bind,
        Checked.pure_eq, back]
      exact sound

/-- The moved object keeps nothing, so that the two destructors close the descriptor once. -/
theorem Sound.moveAssign (sound : process.Sound) {target other : Nat} {handle moved : Handle}
    (alive : process.handles[target]? = some (some handle)) (source : process.handles[other]? = some (some moved)) :
    (process.perform (.moveAssign target other)).Post Sound := by
  simp only [perform, handle_eq_value alive, handle_eq_value source, Checked.value_bind]
  by_cases same : target = other
  · simpa [same] using sound
  · simp only [same, if_false, sound.close alive, Checked.value_bind]
    have there : (process.handles.set target (some moved))[other]? = some (some moved) := by
      rw [List.getElem?_set_ne same]
      exact source
    have filled := held_set alive (some moved)
    have emptied := held_set there (some { descriptor := kInvalid })
    rw [ownedBy_invalid, List.append_nil] at emptied
    refine sound.release ((List.perm_append_right_iff (ownedBy (some moved))).mp ?_)
    calc _ ++ ownedBy (some handle) ++ ownedBy (some moved)
        |>.Perm (_ ++ ownedBy (some moved) ++ ownedBy (some handle)) := by
          rw [List.append_assoc, List.append_assoc]
          exact List.perm_append_comm.append_left _
      _ |>.Perm ((process.handles.set target (some moved)).flatMap ownedBy ++ ownedBy (some handle)) :=
          emptied.append_right _
      _ |>.Perm (process.held ++ ownedBy (some moved)) := filled

theorem Sound.moveConstruct (sound : process.Sound) {other : Nat} {moved : Handle}
    (source : process.handles[other]? = some (some moved)) :
    (process.perform (.moveConstruct other)).Post Sound := by
  simp only [perform, handle_eq_value source, Checked.value_bind]
  refine sound.exchange ?_
  have emptied := held_set source (some { descriptor := kInvalid })
  rw [ownedBy_invalid, List.append_nil] at emptied
  simpa [put, held] using emptied

theorem Sound.closed (sound : process.Sound) {index : Nat} {handle : Handle} {left : Option Handle}
    (alive : process.handles[index]? = some (some handle)) (empty : ownedBy left = []) :
    Sound (({ process with opened := process.opened \ (ownedBy (some handle)).toFinset } : Process).put index left) := by
  have emptied := held_set alive left
  rw [empty, List.append_nil] at emptied
  exact sound.release emptied

/-- An operation closes no descriptor that is not open, and leaves every open one with one owner. -/
theorem Sound.perform (sound : process.Sound) {op : HandleOp} (allowed : process.Allowed op) :
    (process.perform op).Post Sound := by
  cases allowed with
  | default => exact sound.default
  | create flags fresh =>
    exact (Checked.post_bind Sound _).mpr (sound.openNonBlocking fresh flags)
  | accept flags alive fresh =>
    obtain ⟨handle, alive⟩ := alive
    rw [Process.perform, handle_eq_value alive, Checked.value_bind]
    exact (Checked.post_bind Sound _).mpr (sound.openNonBlocking fresh flags)
  | pair first second fresh => exact sound.makeSocketPair fresh first second
  | moveConstruct source =>
    obtain ⟨moved, source⟩ := source
    exact sound.moveConstruct source
  | moveAssign alive source =>
    obtain ⟨handle, alive⟩ := alive
    obtain ⟨moved, source⟩ := source
    exact sound.moveAssign alive source
  | close alive =>
    obtain ⟨handle, alive⟩ := alive
    simp only [Process.perform, handle_eq_value alive, sound.close alive, Checked.value_bind]
    exact sound.closed alive ownedBy_invalid
  | destroy alive =>
    obtain ⟨handle, alive⟩ := alive
    simp only [Process.perform, handle_eq_value alive, sound.close alive, Checked.value_bind]
    exact sound.closed alive rfl
  | adopt given => exact sound.adopt given
  | elsewhere own => exact sound.elsewhere own

theorem Reachable.sound (reachable : Reachable process) : process.Sound := by
  induction reachable with
  | start others valid =>
    exact { once := List.nodup_nil, opened := by simp [held], apart := by simp [held], valid := valid }
  | step op reachable allowed performed sound =>
    have next := sound.perform allowed
    rw [performed] at next
    exact next

/-- Whatever a program does with its sockets and listeners, and however the system answers, no
descriptor is closed that is not open, none is in two objects, and none is lost: what is open is in one
object or was opened elsewhere. When the objects are gone, what is open is what the rest has opened. -/
theorem descriptors_owned (reachable : Reachable process) :
    (∀ op, process.Allowed op → ∃ next, process.perform op = .value next) ∧
    process.held.Nodup ∧
    (∀ descriptor, descriptor ∈ process.opened ↔ descriptor ∈ process.held ∨ descriptor ∈ process.others) ∧
    (∀ descriptor ∈ process.held, descriptor ∉ process.others) ∧
    (process.handles.all Option.isNone → process.opened = process.others) := by
  have sound := reachable.sound
  refine ⟨?_, sound.once, sound.opened, sound.apart, ?_⟩
  · intro op allowed
    have performed := sound.perform allowed
    cases outcome : process.perform op with
    | value next => exact ⟨next, rfl⟩
    | error reason => exact reason.elim
    | fault => simp [outcome] at performed
  · intro gone
    have empty : process.held = [] := by
      rw [held, List.flatMap_eq_nil_iff]
      intro handle among
      have none := List.all_eq_true.mp gone handle among
      cases handle with
      | none => rfl
      | some handle => cases none
    ext descriptor
    simp [sound.opened, empty]

def movedOver : Process :=
  { opened := {4, 3, 0}
    handles := [some { descriptor := kInvalid }, some { descriptor := 4 }, some { descriptor := 3 }]
    others := {0} }

theorem movedOver_reachable : Reachable movedOver := by
  have start : Reachable { opened := {0}, others := {0} } := .start {0} (by simp)
  have paired : Reachable
      { opened := {4, 3, 0}, handles := [some { descriptor := 3 }, some { descriptor := 4 }], others := {0} } :=
    start.step (.pair (.ok (3, 4)) (.ok ()) (.ok ()))
      (.pair _ _ fun descriptors given => by cases given; simp [Fresh]) rfl
  have created : Reachable
      { opened := {5, 4, 3, 0}
        handles := [some { descriptor := 3 }, some { descriptor := 4 }, some { descriptor := 5 }], others := {0} } :=
    paired.step (.create (.ok 5) (.ok ())) (.create _ fun descriptor given => by cases given; simp [Fresh]) rfl
  exact created.step (.moveAssign 2 0) (.moveAssign ⟨_, rfl⟩ ⟨_, rfl⟩) rfl

theorem descriptors_owned_movedOver :
    movedOver.held = [4, 3] ∧ movedOver.held.Nodup ∧ ∃ next, movedOver.perform (.destroy 2) = .value next :=
  have owned := descriptors_owned movedOver_reachable
  ⟨rfl, owned.2.1, owned.1 _ (.destroy ⟨_, rfl⟩)⟩

end Process

end Slopline.Net
