import Mathlib.Data.List.Nodup
import Stm32Ecu.Runs
import Stm32Ecu.ReadWrite

/-!
# Runs of the driver under all its operations

A run here is any sequence of probes, removals, file operations and callbacks, from
the loaded module, with any answers of the kernel to each. Nothing is assumed of the
remote: a callback may bring any frame at any time. An operation that faults kills
its caller and leaves the module as it stood at the fault.

Four operations touch the ids, the id map or the heap: a write takes a block, a send
reserves an id, a fetch frees one, and a callback under a send's token takes a queued
id and fills its slot. One invariant holds in every run: the queued ids are different
and reserved, and what is stored has an address and an index that were given out.
-/

namespace Stm32Ecu

/-- One entry into the driver. The uninitialised local of the callback is a `u32`. -/
inductive Operation where
  | probe (kernel : Kernel) (device : Device)
  | remove (device : Device)
  | read (buf : Nat → InterprocMsg) (len : Nat)
  | write (kernel : Kernel) (buf : Nat → InterprocMsg) (len : Nat)
  | ioctl (kernel : Kernel) (cmd : IoctlCmd)
  | callback (kernel : Kernel) (word : kernel.stackId < 2 ^ 32) (data : Option InterprocMsg)
      (len : Nat)

namespace Operation

/-- What the driver does. -/
def outcome (lib : Interproc) (s : Driver) : Operation → Outcome
  | .probe kernel device => s.rpmsgSampleProbe kernel device
  | .remove device => s.rpmsgSampleRemove device
  | .read buf len =>
      { ret := .ok (s.ioctlRead lib buf len).ret, state := (s.ioctlRead lib buf len).state }
  | .write kernel buf len => s.ioctlWrite lib kernel buf len
  | .ioctl kernel cmd => s.ioctlCall lib kernel cmd
  | .callback kernel _ data len => s.rpmsgSampleCb lib kernel data len

/-- Every operation can be called in every state. -/
def step (lib : Interproc) (s : Driver) (operation : Operation) : Option Driver :=
  some (operation.outcome lib s).state

/-- The operation touches neither ids, id map nor heap. -/
def neutral : Operation → Bool
  | .write _ _ _ => false
  | .ioctl _ (.sendMsg _) => false
  | .ioctl _ (.recvMsg _) => false
  | .callback _ _ _ _ => false
  | _ => true

/-- An operation is neutral or one of four. -/
theorem kinds (operation : Operation) :
    operation.neutral = true ∨ (∃ kernel buf len, operation = .write kernel buf len) ∨
      (∃ kernel arg, operation = .ioctl kernel (.sendMsg arg)) ∨
      (∃ kernel id, operation = .ioctl kernel (.recvMsg id)) ∨
      ∃ kernel word data len, operation = .callback kernel word data len := by
  cases operation with
  | write kernel buf len => exact Or.inr (Or.inl ⟨kernel, buf, len, rfl⟩)
  | callback kernel word data len =>
    exact Or.inr (Or.inr (Or.inr (Or.inr ⟨kernel, word, data, len, rfl⟩)))
  | ioctl kernel cmd =>
    cases cmd with
    | sendMsg arg => exact Or.inr (Or.inr (Or.inl ⟨kernel, arg, rfl⟩))
    | recvMsg id => exact Or.inr (Or.inr (Or.inr (Or.inl ⟨kernel, id, rfl⟩)))
    | _ => exact Or.inl rfl
  | _ => exact Or.inl rfl

end Operation

/-- The parts of the driver that hold replies to sends, and the heap, are as they
were. -/
structure Driver.SameStore (s after : Driver) : Prop where
  ids : after.fifoUniqueIds = s.fifoUniqueIds
  buffer : after.rxUniqueBuffer = s.rxUniqueBuffer
  heap : after.heap = s.heap

/-- An operation that touches no more than the tokens, the read queue, the state value
and the devices leaves them as they were. -/
theorem Driver.SameStore.others {s : Driver} {types : BoundedFifo SentMsg 512}
    {queue : BoundedFifo InterprocMsg 256} {value : Int} {target : Option Device}
    {bound : List Device} :
    s.SameStore { s with
      fifoSendTypes := types
      fifoExternalMsg := queue
      value := value
      globalRprocRef := target
      bound := bound } := by
  constructor <;> rfl

namespace Operation

variable (lib : Interproc) (s : Driver)

/-- A ping touches the token queue alone. -/
theorem ping_outcome (kernel : Kernel) :
    s.SameStore (s.ioctlPingRproc lib kernel).state ∧
      ∀ id, (s.ioctlPingRproc lib kernel).copied ≠ .uid id := by
  unfold Driver.ioctlPingRproc
  split
  · exact ⟨.others, by simp⟩
  · split
    · exact ⟨.others, by simp⟩
    · split
      · exact ⟨.others, by simp⟩
      · dsimp only
        split
        · exact ⟨.others, by simp⟩
        · split <;> exact ⟨.others, by simp⟩

/-- A neutral operation leaves the stored replies alone and gives out no id. -/
theorem neutral_outcome (operation : Operation) (isNeutral : operation.neutral = true) :
    s.SameStore (operation.outcome lib s).state ∧
      ∀ id, (operation.outcome lib s).copied ≠ .uid id := by
  cases operation with
  | probe kernel device =>
    simp only [outcome, Driver.rpmsgSampleProbe]
    split <;> exact ⟨.others, by simp⟩
  | remove device => exact ⟨.others, by simp [outcome, Driver.rpmsgSampleRemove]⟩
  | read buf len =>
    refine ⟨?_, by simp [outcome]⟩
    by_cases divides : lib.sizeofMsg ∣ len
    · obtain ⟨queue, _, result⟩ :=
        Driver.ioctlRead_whole lib buf len s ((Driver.whole_iff lib len).mpr divides)
      simp only [outcome, result]
      exact .others
    · simp only [outcome, Driver.ioctlRead_odd lib buf len s divides]
      exact .others
  | ioctl kernel cmd =>
    cases cmd with
    | reset => exact ⟨.others, by simp [outcome, Driver.ioctlCall]⟩
    | offline => exact ⟨.others, by simp [outcome, Driver.ioctlCall]⟩
    | unlisted cmd => exact ⟨.others, by simp [outcome, Driver.ioctlCall]⟩
    | setState arg =>
      simp only [outcome, Driver.ioctlCall, Driver.ioctlSetState]
      split <;> exact ⟨.others, by simp⟩
    | getState =>
      simp only [outcome, Driver.ioctlCall, Driver.ioctlGetState]
      split <;> exact ⟨.others, by simp⟩
    | pingRproc => exact ping_outcome lib s kernel
    | sendMsg arg => cases isNeutral
    | recvMsg id => cases isNeutral
  | write kernel buf len => cases isNeutral
  | callback kernel word data len => cases isNeutral

/-- A write gives its caller no id. -/
theorem write_copied (kernel : Kernel) (buf : Nat → InterprocMsg) (len : Nat) (id : Nat) :
    (s.ioctlWrite lib kernel buf len).copied ≠ .uid id := by
  have loop : ∀ (msgs : List InterprocMsg) (i : Nat) (s : Driver) (bytes : Int),
      (Driver.sendLoop lib kernel i msgs s bytes).copied = .nothing := by
    intro msgs
    induction msgs with
    | nil =>
      intro i s bytes
      rfl
    | cons msg rest ih =>
      intro i s bytes
      simp only [Driver.sendLoop]
      split
      · rfl
      · split
        · rfl
        · exact ih _ _ _
  unfold Driver.ioctlWrite
  dsimp only
  split
  · simp
  · split
    · simp
    · split
      · simp
      · split
        · simp [loop]
        · simp

/-- A send leaves the stored replies alone, or reserves a free id. It may queue the
id or find no room, and it gives out no other. -/
theorem send_outcome (kernel : Kernel) (arg : InterprocMsg) :
    (s.SameStore (s.ioctlSendMsg kernel arg).state ∧
      ∀ id, (s.ioctlSendMsg kernel arg).copied ≠ .uid id) ∨
    ∃ id, 1 ≤ id ∧ id ≤ 1024 ∧ s.rxUniqueBuffer.slot id = .free ∧
      (s.ioctlSendMsg kernel arg).state.rxUniqueBuffer = s.rxUniqueBuffer.set id .reserved ∧
      (s.ioctlSendMsg kernel arg).state.heap = s.heap ∧
      ((s.ioctlSendMsg kernel arg).state.fifoUniqueIds.items = s.fifoUniqueIds.items ∨
        (s.ioctlSendMsg kernel arg).state.fifoUniqueIds.items = s.fifoUniqueIds.items ++ [id]) ∧
      ∀ other, (s.ioctlSendMsg kernel arg).copied = .uid other → other = id := by
  unfold Driver.ioctlSendMsg
  split
  · exact Or.inl ⟨.others, by simp⟩
  · split
    · exact Or.inl ⟨.others, by simp⟩
    · split
      · exact Or.inl ⟨.others, by simp⟩
      · unfold Driver.bookSendMsg
        dsimp only
        split
        · exact Or.inl ⟨.others, by simp⟩
        · split
          · exact Or.inl ⟨.others, by simp⟩
          · rename_i id reserved taken
            obtain ⟨above, below, free, rfl⟩ := Driver.allocUniqueId_some _ _ _ _ taken
            refine Or.inr ⟨id, above, below, free, ?_⟩
            split
            · rename_i refused
              refine ⟨rfl, rfl, Or.inl ?_, by simp⟩
              have full : ¬ s.fifoUniqueIds.items.length < 256 := by
                simpa [Driver.putUniqueId, Driver.putSendType] using refused
              exact congrArg BoundedFifo.items (BoundedFifo.put_full s.fifoUniqueIds id full)
            · rename_i accepted
              have room : s.fifoUniqueIds.items.length < 256 := by
                simpa [Driver.putUniqueId, Driver.putSendType] using accepted
              have queued := BoundedFifo.put_items s.fifoUniqueIds id room
              split
              · exact ⟨rfl, rfl, Or.inr queued, by simp⟩
              · refine ⟨rfl, rfl, Or.inr queued, ?_⟩
                intro other same
                exact (Copied.uid.inj same).symm

/-- A fetch finds nothing and changes nothing, or frees the slot it found; its value
and what it copies then depend on the copy to the caller alone. -/
theorem recv_outcome (kernel : Kernel) (id : Nat) :
    ((kernel.copyFromUser = true → s.rxUniqueBuffer.load id = none) ∧
      (s.ioctlRecvMsg kernel id).state = s ∧ (s.ioctlRecvMsg kernel id).ret ≠ .ok 0 ∧
      (s.ioctlRecvMsg kernel id).copied = .nothing) ∨
    ∃ block, kernel.copyFromUser = true ∧ s.rxUniqueBuffer.slot id = .filled block ∧
      (s.ioctlRecvMsg kernel id).state = { s with rxUniqueBuffer := s.rxUniqueBuffer.erase id } ∧
      (kernel.copyToUser = true ∧ (s.ioctlRecvMsg kernel id).ret = .ok 0 ∧
          (s.ioctlRecvMsg kernel id).copied = .reply block.msg ∨
        kernel.copyToUser = false ∧ (s.ioctlRecvMsg kernel id).ret ≠ .ok 0 ∧
          (s.ioctlRecvMsg kernel id).copied = .nothing) := by
  unfold Driver.ioctlRecvMsg
  split
  · rename_i fails
    refine Or.inl ⟨?_, rfl, by simp [EINVAL], rfl⟩
    intro copies
    rw [copies] at fails
    cases fails
  · rename_i copies
    split
    · rename_i absent
      exact Or.inl ⟨fun _ => absent, rfl, by simp [EAGAIN], rfl⟩
    · rename_i block found
      refine Or.inr ⟨block, by simpa using copies, SlotMap.slot_of_load _ _ _ found, ?_⟩
      dsimp only
      split
      · rename_i fails
        exact ⟨rfl, Or.inr ⟨fails, by simp [EINVAL], rfl⟩⟩
      · rename_i succeeds
        exact ⟨rfl, Or.inl ⟨by simpa using succeeds, rfl, rfl⟩⟩

/-- A valid full-size frame, while the oldest token is a send's. -/
def AnswersSend (data : Option InterprocMsg) (len : Nat) : Prop :=
  (∃ msg, data = some msg ∧ lib.crcOk msg = true) ∧ len = lib.sizeofMsg ∧
    s.fifoSendTypes.items.head? = some .externalUnique

/-- Any other frame leaves the stored replies alone. -/
theorem callback_other (kernel : Kernel) (data : Option InterprocMsg) (len : Nat)
    (other : ¬ AnswersSend lib s data len) :
    s.SameStore (s.rpmsgSampleCb lib kernel data len).state ∧
      ∀ id, (s.rpmsgSampleCb lib kernel data len).copied ≠ .uid id := by
  by_cases full : ∃ msg, data = some msg ∧ len = lib.sizeofMsg
  · obtain ⟨msg, rfl, rfl⟩ := full
    cases held : s.fifoSendTypes.items with
    | nil =>
      have none_taken : s.fifoSendTypes.get = none := BoundedFifo.get_empty _ held
      simp only [Driver.rpmsgSampleCb, none_taken, ne_eq, not_true_eq_false, ↓reduceIte]
      exact ⟨.others, by simp⟩
    | cons token rest =>
      obtain ⟨ret, types, queue, _, handled⟩ := Driver.rpmsgSampleCb_plain lib kernel msg s rest
        token held (fun both => other ⟨⟨msg, rfl, both.2⟩, rfl, by simp [held, both.1]⟩)
      rw [handled]
      exact ⟨.others, by simp⟩
  · rw [Driver.rpmsgSampleCb_ignored lib kernel data len s
      (fun msg present size => full ⟨msg, present, size⟩)]
    exact ⟨.others, by simp⟩

/-- A valid answer to a send takes its token and goes to be stored. -/
theorem callback_answer (kernel : Kernel) (data : Option InterprocMsg) (len : Nat)
    (answers : AnswersSend lib s data len) :
    ∃ msg types, s.rpmsgSampleCb lib kernel data len =
      Driver.storeUnique kernel msg { s with fifoSendTypes := types } := by
  obtain ⟨⟨msg, rfl, valid⟩, rfl, head⟩ := answers
  obtain ⟨rest, held⟩ := List.head?_eq_some_iff.mp head
  obtain ⟨types, _, handled⟩ := Driver.rpmsgSampleCb_send lib kernel msg s rest valid held
  exact ⟨msg, types, handled⟩

end Operation

namespace Driver

/-- The queued ids are different, in range and reserved. What is stored is in range
and lies in a block that was given out, as does every live block. -/
structure Wellkept (s : Driver) : Prop where
  queued : ∀ id ∈ s.fifoUniqueIds.items, id < 2 ^ 32 ∧ s.rxUniqueBuffer.slot id = .reserved
  distinct : s.fifoUniqueIds.items.Nodup
  stored : ∀ id block, s.rxUniqueBuffer.slot id = .filled block →
    id < 2 ^ 32 ∧ block.address < s.heap.fresh
  live : ∀ address ∈ s.heap.live, address < s.heap.fresh

theorem loaded_wellkept : loaded.Wellkept := by
  constructor <;> simp [loaded, SlotMap.empty]

namespace Wellkept

variable {s after : Driver}

/-- Untouched stores stay well kept. -/
theorem same (kept : s.Wellkept) (untouched : s.SameStore after) : after.Wellkept := by
  constructor
  · rw [untouched.ids, untouched.buffer]
    exact kept.queued
  · rw [untouched.ids]
    exact kept.distinct
  · rw [untouched.buffer, untouched.heap]
    exact kept.stored
  · rw [untouched.heap]
    exact kept.live

/-- Giving out a block moves the frontier past it. -/
theorem allocate (kept : s.Wellkept) (types : BoundedFifo SentMsg 512) :
    Wellkept { s with
      fifoSendTypes := types
      heap := ⟨s.heap.fresh :: s.heap.live, s.heap.fresh + 1⟩ } := by
  refine ⟨kept.queued, kept.distinct, ?_, ?_⟩
  · intro id block held
    obtain ⟨inRange, below⟩ := kept.stored id block held
    exact ⟨inRange, Nat.lt_succ_of_lt below⟩
  · intro address member
    rcases List.mem_cons.mp member with rfl | old
    · exact Nat.lt_succ_self _
    · exact Nat.lt_succ_of_lt (kept.live address old)

/-- Reserving a free id, queued or not. The id was not queued before, since queued
ids are not free. -/
theorem reserve (kept : s.Wellkept) (id : Nat) (inRange : id ≤ 1024)
    (free : s.rxUniqueBuffer.slot id = .free)
    (buffer : after.rxUniqueBuffer = s.rxUniqueBuffer.set id .reserved)
    (heap : after.heap = s.heap)
    (ids : after.fifoUniqueIds.items = s.fifoUniqueIds.items ∨
      after.fifoUniqueIds.items = s.fifoUniqueIds.items ++ [id]) : after.Wellkept := by
  have absent : id ∉ s.fifoUniqueIds.items := by
    intro member
    rw [(kept.queued id member).2] at free
    cases free
  have members : ∀ other ∈ after.fifoUniqueIds.items,
      other ∈ s.fifoUniqueIds.items ∨ other = id := by
    intro other member
    rcases ids with same | queued
    · exact Or.inl (same ▸ member)
    · rw [queued] at member
      simpa using member
  constructor
  · intro other member
    rw [buffer]
    by_cases same : other = id
    · subst same
      exact ⟨by omega, SlotMap.set_slot_same _ _ _⟩
    · have old := kept.queued other ((members other member).resolve_right same)
      exact ⟨old.1, (SlotMap.set_slot_other _ _ _ _ same).trans old.2⟩
  · rcases ids with same | queued
    · rw [same]
      exact kept.distinct
    · rw [queued]
      refine List.nodup_append.mpr ⟨kept.distinct, List.nodup_singleton id, ?_⟩
      rintro other member added new rfl
      exact absent (List.mem_singleton.mp new ▸ member)
  · intro other block held
    rw [buffer, SlotMap.set_filled_iff _ _ _ _ _ rfl] at held
    rw [heap]
    exact kept.stored other block held.2
  · rw [heap]
    exact kept.live

/-- Freeing a filled slot. -/
theorem erase (kept : s.Wellkept) (id : Nat) (block : Block)
    (held : s.rxUniqueBuffer.slot id = .filled block) :
    Wellkept { s with rxUniqueBuffer := s.rxUniqueBuffer.erase id } := by
  refine ⟨?_, kept.distinct, ?_, kept.live⟩
  · intro other member
    obtain ⟨inRange, reserved⟩ := kept.queued other member
    have different : other ≠ id := by
      rintro rfl
      rw [held] at reserved
      cases reserved
    exact ⟨inRange, (SlotMap.set_slot_other _ _ _ _ different).trans reserved⟩
  · intro other stored found
    exact kept.stored other stored ((SlotMap.set_filled_iff _ _ _ _ _ rfl).mp found).2

/-- The id a reply is stored under is in range and no longer queued. -/
theorem taken_id (kept : s.Wellkept) (kernel : Kernel) (word : kernel.stackId < 2 ^ 32) :
    (s.takeUniqueId kernel).1 < 2 ^ 32 ∧
      (s.takeUniqueId kernel).1 ∉ (s.takeUniqueId kernel).2.items := by
  rw [takeUniqueId_id, takeUniqueId_queue]
  cases held : s.fifoUniqueIds.items with
  | nil => exact ⟨word, by simp⟩
  | cons first others =>
    have distinct := kept.distinct
    rw [held, List.nodup_cons] at distinct
    exact ⟨(kept.queued first (by rw [held]; exact List.mem_cons_self)).1, distinct.1⟩

/-- Taking the oldest id from its queue. -/
theorem dequeue (kept : s.Wellkept) (kernel : Kernel) :
    Wellkept { s with fifoUniqueIds := (s.takeUniqueId kernel).2 } := by
  have fewer : ∀ id ∈ (s.takeUniqueId kernel).2.items, id ∈ s.fifoUniqueIds.items := by
    rw [takeUniqueId_queue]
    exact fun id member => List.mem_of_mem_tail member
  refine ⟨fun id member => kept.queued id (fewer id member), ?_, kept.stored, kept.live⟩
  rw [takeUniqueId_queue]
  exact kept.distinct.tail

/-- Filling the slot of an id that is not queued with a block that was given out. -/
theorem store (kept : s.Wellkept) (id : Nat) (block : Block) (inRange : id < 2 ^ 32)
    (unqueued : id ∉ s.fifoUniqueIds.items) (given : block.address < s.heap.fresh) :
    Wellkept { s with rxUniqueBuffer := s.rxUniqueBuffer.store id block } := by
  refine ⟨?_, kept.distinct, ?_, kept.live⟩
  · intro other member
    obtain ⟨otherInRange, reserved⟩ := kept.queued other member
    have different : other ≠ id := by
      rintro rfl
      exact unqueued member
    exact ⟨otherInRange, (SlotMap.set_slot_other _ _ _ _ different).trans reserved⟩
  · intro other stored found
    rcases (SlotMap.store_filled_iff _ _ _ _ _).mp found with ⟨rfl, rfl⟩ | ⟨_, before⟩
    · exact ⟨inRange, given⟩
    · exact kept.stored other stored before

/-- Storing a reply, however far it gets. -/
theorem storeUnique (kept : s.Wellkept) (kernel : Kernel) (word : kernel.stackId < 2 ^ 32)
    (msg : InterprocMsg) : (Driver.storeUnique kernel msg s).state.Wellkept := by
  have dequeued := kept.dequeue kernel
  have allocated := dequeued.allocate s.fifoSendTypes
  obtain ⟨inRange, unqueued⟩ := kept.taken_id kernel word
  unfold Driver.storeUnique
  dsimp only
  split
  · exact dequeued
  · split
    · exact allocated
    · exact allocated.store _ ⟨s.heap.fresh, msg⟩ inRange unqueued (Nat.lt_succ_self _)

end Wellkept

/-- The slot a reply goes to holds none, unless no id is queued and the stale local
happens to name a filled one. -/
theorem load_taken_iff {s : Driver} (kept : s.Wellkept) (kernel : Kernel) :
    s.rxUniqueBuffer.load (s.takeUniqueId kernel).1 = none ↔
      (s.fifoUniqueIds.items = [] → s.rxUniqueBuffer.load kernel.stackId = none) := by
  rw [takeUniqueId_id]
  cases held : s.fifoUniqueIds.items with
  | nil => simp
  | cons first others =>
    have reserved := (kept.queued first (by rw [held]; exact List.mem_cons_self)).2
    simp [SlotMap.load, reserved, Slot.value]

/-- Every operation keeps the driver well kept. -/
theorem wellkept_step (lib : Interproc) (s : Driver) (operation : Operation) (next : Driver)
    (kept : s.Wellkept) (taken : Operation.step lib s operation = some next) : next.Wellkept := by
  obtain rfl := Option.some.inj taken
  rcases operation.kinds with isNeutral | ⟨kernel, buf, len, rfl⟩ | ⟨kernel, arg, rfl⟩ |
    ⟨kernel, id, rfl⟩ | ⟨kernel, word, data, len, rfl⟩
  · exact kept.same (Operation.neutral_outcome lib s operation isNeutral).1
  · obtain ⟨types, state⟩ := ioctlWrite_frame lib kernel buf len s
    simp only [Operation.outcome, state]
    rcases heapAfterWrite_cases lib kernel len s.heap with ⟨_, heap⟩ | ⟨_, heap⟩
    · rw [heap]
      exact kept.allocate types
    · rw [heap]
      exact kept.same .others
  · rcases Operation.send_outcome s kernel arg with ⟨untouched, _⟩ |
      ⟨id, _, inRange, free, buffer, heap, ids, _⟩
    · exact kept.same untouched
    · exact kept.reserve id inRange free buffer heap ids
  · simp only [Operation.outcome, ioctlCall]
    rcases Operation.recv_outcome s kernel id with ⟨_, state, _⟩ | ⟨block, _, held, state, _⟩
    · rw [state]
      exact kept
    · rw [state]
      exact kept.erase id block held
  · by_cases answers : Operation.AnswersSend lib s data len
    · obtain ⟨msg, types, handled⟩ := Operation.callback_answer lib s kernel data len answers
      simp only [Operation.outcome, handled]
      have untouched : s.SameStore { s with fifoSendTypes := types } := .others
      exact (kept.same untouched).storeUnique kernel word msg
    · exact kept.same (Operation.callback_other lib s kernel data len answers).1

end Driver

end Stm32Ecu
