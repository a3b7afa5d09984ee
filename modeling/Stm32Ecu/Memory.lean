import Stm32Ecu.Operations

/-!
# The blocks of the heap

Two operations take a block from `vmalloc`: a write, to copy its messages in, and the
callback, to keep a reply. The only `vfree` of the driver is the one in its exit
function, which walks the replies still stored. So a block that leaves the id map, or
never enters it, is lost until the machine restarts.

The account is kept, in every state of a run, exactly by the runs that take no block
in a write, fetch no reply, and store every reply into an empty slot.
-/

namespace Stm32Ecu

/-- `vfree`. -/
def Heap.vfree (heap : Heap) (address : Nat) : Heap :=
  { heap with live := heap.live.filter (· ≠ address) }

namespace Driver

/-- `stm32ecu_exit`, as far as memory goes: every stored reply is freed and the id map
is emptied. The queues are static, so freeing them does nothing. Indices are 32 bits
wide. -/
def stm32ecuExit (s : Driver) : Driver :=
  { s with
    heap := (s.rxUniqueBuffer.values (2 ^ 32)).foldl
      (fun heap entry => heap.vfree entry.address) s.heap
    rxUniqueBuffer := .empty }

/-- The live blocks are those of the stored replies, each stored once. -/
structure Accounted (s : Driver) : Prop where
  stored : ∀ address, address ∈ s.heap.live ↔
    ∃ id block, s.rxUniqueBuffer.slot id = .filled block ∧ block.address = address
  once : ∀ first second one other, s.rxUniqueBuffer.slot first = .filled one →
    s.rxUniqueBuffer.slot second = .filled other → one.address = other.address → first = second

/-- Freeing a list of blocks leaves those that are not in it. -/
theorem vfree_all (blocks : List Block) (heap : Heap) (address : Nat) :
    address ∈ (blocks.foldl (fun heap entry => heap.vfree entry.address) heap).live ↔
      address ∈ heap.live ∧ ∀ block ∈ blocks, block.address ≠ address := by
  induction blocks generalizing heap with
  | nil => simp
  | cons block rest ih =>
    rw [List.foldl_cons, ih, List.forall_mem_cons]
    simp only [Heap.vfree, List.mem_filter, decide_eq_true_eq]
    constructor
    · rintro ⟨⟨live, different⟩, others⟩
      exact ⟨live, different.symm, others⟩
    · rintro ⟨live, different, others⟩
      exact ⟨⟨live, different.symm⟩, others⟩

/-- What the exit function leaves is what no slot holds. -/
theorem mem_exit_live (s : Driver) (address : Nat) :
    address ∈ s.stm32ecuExit.heap.live ↔ address ∈ s.heap.live ∧
      ∀ id block, id < 2 ^ 32 → s.rxUniqueBuffer.slot id = .filled block →
        block.address ≠ address := by
  unfold stm32ecuExit
  rw [vfree_all]
  simp only [SlotMap.mem_values]
  constructor
  · rintro ⟨live, unstored⟩
    exact ⟨live, fun id block below held => unstored block ⟨id, below, held⟩⟩
  · rintro ⟨live, unstored⟩
    refine ⟨live, ?_⟩
    rintro block ⟨id, below, held⟩
    exact unstored id block below held

theorem loaded_accounted : loaded.Accounted := by
  constructor <;> simp [loaded, SlotMap.empty]

/-- A live block that no slot holds breaks the account. -/
theorem unaccounted {s : Driver} (address : Nat) (live : address ∈ s.heap.live)
    (unstored : ∀ id block, s.rxUniqueBuffer.slot id = .filled block → block.address ≠ address) :
    ¬ s.Accounted := by
  intro accounted
  obtain ⟨id, block, held, same⟩ := (accounted.stored address).mp live
  exact unstored id block held same

namespace Accounted

variable {s after : Driver}

/-- The exit function frees every block of a kept account. -/
theorem exit (accounted : s.Accounted) (kept : s.Wellkept) : s.stm32ecuExit.heap.live = [] := by
  apply List.eq_nil_iff_forall_not_mem.mpr
  intro address remaining
  obtain ⟨live, unstored⟩ := (mem_exit_live s address).mp remaining
  obtain ⟨id, block, held, same⟩ := (accounted.stored address).mp live
  exact unstored id block (kept.stored id block held).1 held same

/-- With the same live blocks and the same replies stored the account is as it was. -/
theorem same (accounted : s.Accounted) (live : after.heap.live = s.heap.live)
    (filled : ∀ id block, after.rxUniqueBuffer.slot id = .filled block ↔
      s.rxUniqueBuffer.slot id = .filled block) : after.Accounted := by
  constructor
  · simp only [live, filled]
    exact accounted.stored
  · simp only [filled]
    exact accounted.once

/-- Neither replies nor heap were touched. -/
theorem untouched (accounted : s.Accounted) (store : s.SameStore after) : after.Accounted := by
  apply accounted.same
  · rw [store.heap]
  · rw [store.buffer]
    exact fun _ _ => Iff.rfl

/-- A send only turns a free slot into a reserved one. -/
theorem reserve (accounted : s.Accounted) (id : Nat) (free : s.rxUniqueBuffer.slot id = .free)
    (buffer : after.rxUniqueBuffer = s.rxUniqueBuffer.set id .reserved)
    (heap : after.heap = s.heap) : after.Accounted := by
  apply accounted.same
  · rw [heap]
  · intro other block
    rw [buffer, SlotMap.set_filled_iff _ _ _ _ _ rfl]
    refine ⟨And.right, fun held => ⟨?_, held⟩⟩
    rintro rfl
    rw [free] at held
    cases held

/-- A new block that goes into a slot without a reply is accounted for. -/
theorem store (accounted : s.Accounted) (kept : s.Wellkept) (id : Nat) (msg : InterprocMsg)
    (absent : s.rxUniqueBuffer.load id = none)
    (buffer : after.rxUniqueBuffer = s.rxUniqueBuffer.store id ⟨s.heap.fresh, msg⟩)
    (live : after.heap.live = s.heap.fresh :: s.heap.live) : after.Accounted := by
  have elsewhere : ∀ other block, s.rxUniqueBuffer.slot other = .filled block → other ≠ id := by
    rintro other block held rfl
    simp [SlotMap.load, held, Slot.value] at absent
  -- The new address is above every address stored so far.
  have newer : ∀ other block, s.rxUniqueBuffer.slot other = .filled block →
      block.address ≠ s.heap.fresh := by
    intro other block held
    exact Nat.ne_of_lt (kept.stored other block held).2
  constructor
  · intro address
    rw [live, List.mem_cons, accounted.stored address, buffer]
    simp only [SlotMap.store_filled_iff]
    constructor
    · rintro (rfl | ⟨other, block, held, same⟩)
      · exact ⟨id, _, Or.inl ⟨rfl, rfl⟩, rfl⟩
      · exact ⟨other, block, Or.inr ⟨elsewhere other block held, held⟩, same⟩
    · rintro ⟨other, block, ⟨rfl, rfl⟩ | ⟨_, held⟩, same⟩
      · exact Or.inl same.symm
      · exact Or.inr ⟨other, block, held, same⟩
  · intro first second one other
    simp only [buffer, SlotMap.store_filled_iff]
    rintro (⟨rfl, rfl⟩ | ⟨_, firstHeld⟩) (⟨rfl, rfl⟩ | ⟨_, secondHeld⟩) same
    · rfl
    · exact absurd same.symm (newer second other secondHeld)
    · exact absurd same (newer first one firstHeld)
    · exact accounted.once first second one other firstHeld secondHeld same

/-- Once its slot is erased a reply's block is lost: no other slot holds it. -/
theorem erase (accounted : s.Accounted) (id : Nat) (block : Block)
    (held : s.rxUniqueBuffer.slot id = .filled block) :
    ¬ Accounted { s with rxUniqueBuffer := s.rxUniqueBuffer.erase id } := by
  apply unaccounted block.address
  · exact (accounted.stored block.address).mpr ⟨id, block, held, rfl⟩
  · intro other stored found same
    obtain ⟨different, stays⟩ := (SlotMap.set_filled_iff _ _ _ _ _ rfl).mp found
    exact different (accounted.once other id stored block stays held same)

/-- Once another block is stored over it a reply's block is lost. -/
theorem overwrite (accounted : s.Accounted) (kept : s.Wellkept) (id : Nat) (msg : InterprocMsg)
    (present : s.rxUniqueBuffer.load id ≠ none)
    (buffer : after.rxUniqueBuffer = s.rxUniqueBuffer.store id ⟨s.heap.fresh, msg⟩)
    (live : after.heap.live = s.heap.fresh :: s.heap.live) : ¬ after.Accounted := by
  obtain ⟨block, loaded⟩ := Option.ne_none_iff_exists'.mp present
  have held := SlotMap.slot_of_load _ _ _ loaded
  apply unaccounted block.address
  · rw [live]
    exact List.mem_cons_of_mem _ ((accounted.stored block.address).mpr ⟨id, block, held, rfl⟩)
  · intro other stored found same
    rw [buffer, SlotMap.store_filled_iff] at found
    rcases found with ⟨rfl, rfl⟩ | ⟨different, stays⟩
    · exact Nat.ne_of_gt (kept.stored other block held).2 same
    · exact different (accounted.once other id stored block stays held same)

end Accounted

/-- A new block that goes nowhere is lost: it is above every address stored. -/
theorem unstored_block {s after : Driver} (kept : s.Wellkept)
    (buffer : after.rxUniqueBuffer = s.rxUniqueBuffer)
    (live : after.heap.live = s.heap.fresh :: s.heap.live) : ¬ after.Accounted := by
  apply unaccounted s.heap.fresh
  · rw [live]
    exact List.mem_cons_self
  · rw [buffer]
    intro id block held
    exact Nat.ne_of_lt (kept.stored id block held).2

end Driver

namespace Operation

open Runs

/-- A write takes no block, a fetch finds no reply, and a reply that is given a block
is stored, and not over another. -/
def NoLeak (lib : Interproc) (s : Driver) : Operation → Prop
  | .write kernel _ len => ¬ (Driver.WholeMessages lib len ∧ kernel.vmalloc = true)
  | .ioctl kernel (.recvMsg id) => kernel.copyFromUser = true → s.rxUniqueBuffer.load id = none
  | .callback kernel _ data len =>
      AnswersSend lib s data len → kernel.vmalloc = true →
        kernel.xaStore = true ∧
          (s.fifoUniqueIds.items = [] → s.rxUniqueBuffer.load kernel.stackId = none)
  | _ => True

/-- Storing a reply keeps the account exactly when it gets no block, or stores it into
a slot without a reply. -/
theorem store_accounted_iff (kernel : Kernel) (msg : InterprocMsg) (s : Driver)
    (kept : s.Wellkept) (accounted : s.Accounted) :
    (Driver.storeUnique kernel msg s).state.Accounted ↔
      (kernel.vmalloc = true → kernel.xaStore = true ∧
        (s.fifoUniqueIds.items = [] → s.rxUniqueBuffer.load kernel.stackId = none)) := by
  rw [← Driver.load_taken_iff kept kernel]
  unfold Driver.storeUnique
  dsimp only
  split
  · rename_i short
    refine iff_of_true (accounted.same rfl (fun _ _ => Iff.rfl)) ?_
    intro memory
    rw [short] at memory
    cases memory
  · rename_i memory
    split
    · rename_i fails
      refine iff_of_false (Driver.unstored_block kept rfl rfl) ?_
      intro stores
      have succeeds := (stores (by simpa using memory)).1
      rw [fails] at succeeds
      cases succeeds
    · rename_i stores
      by_cases absent : s.rxUniqueBuffer.load (s.takeUniqueId kernel).1 = none
      · exact iff_of_true (accounted.store kept _ msg absent rfl rfl)
          (fun _ => ⟨by simpa using stores, absent⟩)
      · refine iff_of_false (accounted.overwrite kept _ msg absent rfl rfl) ?_
        intro stored
        exact absent (stored (by simpa using memory)).2

/-- One operation keeps the account exactly when it leaks nothing. -/
theorem accounted_step_iff (lib : Interproc) (s : Driver) (operation : Operation)
    (kept : s.Wellkept) (accounted : s.Accounted) :
    (operation.outcome lib s).state.Accounted ↔ NoLeak lib s operation := by
  rcases operation.kinds with isNeutral | ⟨kernel, buf, len, rfl⟩ | ⟨kernel, arg, rfl⟩ |
    ⟨kernel, id, rfl⟩ | ⟨kernel, word, data, len, rfl⟩
  · refine iff_of_true (accounted.untouched (neutral_outcome lib s operation isNeutral).1) ?_
    unfold NoLeak
    split
    · cases isNeutral
    · cases isNeutral
    · cases isNeutral
    · trivial
  · obtain ⟨types, state⟩ := Driver.ioctlWrite_frame lib kernel buf len s
    simp only [outcome, state]
    rcases Driver.heapAfterWrite_cases lib kernel len s.heap with ⟨takes, heap⟩ | ⟨none_taken, heap⟩
    · refine iff_of_false ?_ (fun leaks => leaks takes)
      rw [heap]
      exact Driver.unstored_block kept rfl rfl
    · refine iff_of_true ?_ none_taken
      rw [heap]
      exact accounted.untouched .others
  · refine iff_of_true ?_ trivial
    rcases send_outcome s kernel arg with ⟨untouched, _⟩ | ⟨id, _, _, free, buffer, heap, _⟩
    · exact accounted.untouched untouched
    · exact accounted.reserve id free buffer heap
  · simp only [outcome, Driver.ioctlCall]
    rcases recv_outcome s kernel id with ⟨absent, state, _⟩ | ⟨block, asked, held, state, _⟩
    · rw [state]
      exact iff_of_true accounted absent
    · rw [state]
      refine iff_of_false (accounted.erase id block held) ?_
      intro absent
      have found := absent asked
      simp [SlotMap.load, held, Slot.value] at found
  · by_cases answers : AnswersSend lib s data len
    · obtain ⟨msg, types, handled⟩ := callback_answer lib s kernel data len answers
      have taken : s.SameStore { s with fifoSendTypes := types } := .others
      simp only [outcome, handled]
      rw [store_accounted_iff kernel msg _ (kept.same taken) (accounted.untouched taken)]
      simp only [NoLeak, answers, true_implies]
    · exact iff_of_true (accounted.untouched (callback_other lib s kernel data len answers).1)
        (fun isAnswer => absurd isAnswer answers)

/-- In every run from the loaded module, the live blocks are those of the stored
replies in every state, and unloading there would free them all, if and only if no
step of the run leaks: no write takes a block, no fetch finds a reply, and every reply
that is given a block is stored into a slot without one. -/
theorem blocks_accounted_iff (lib : Interproc) (history : List Operation) :
    Always (step lib) (fun s => s.Accounted ∧ s.stm32ecuExit.heap.live = []) Driver.loaded history ↔
      Along (step lib) (NoLeak lib) Driver.loaded history := by
  apply always_iff_along (step lib) (NoLeak lib) Driver.Wellkept
  · exact fun s operation next => Driver.wellkept_step lib s operation next
  · exact fun s operation => ⟨_, rfl⟩
  · rintro s operation next kept ⟨accounted, _⟩ taken
    have nextKept := Driver.wellkept_step lib s operation next kept taken
    obtain rfl := Option.some.inj taken
    rw [← accounted_step_iff lib s operation kept accounted]
    exact ⟨And.left, fun still => ⟨still, still.exit nextKept⟩⟩
  · exact Driver.loaded_wellkept
  · exact ⟨Driver.loaded_accounted, Driver.loaded_accounted.exit Driver.loaded_wellkept⟩

/-- Not every run keeps the account: one write of one message takes a block that
nothing frees. -/
theorem write_leaks_block :
    ¬ ∀ (lib : Interproc) (history : List Operation),
      Always (step lib) (fun s => s.Accounted ∧ s.stm32ecuExit.heap.live = []) Driver.loaded
        history := by
  intro law
  have first := law crc32Interproc
    [.probe {} 0, .write {} (fun _ => crc32Interproc.stamp .ping Data.zero) 16]
  have probed := first.2 _ rfl
  have kept := Driver.wellkept_step crc32Interproc _ (.probe {} 0) _ Driver.loaded_wellkept rfl
  have written := (probed.2 _ rfl).1
  exact (accounted_step_iff crc32Interproc _ _ kept probed.1.1).mp written (by decide)

end Operation

end Stm32Ecu
