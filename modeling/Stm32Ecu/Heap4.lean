import Stm32Ecu.Runs
import Stm32Ecu.FreeSpace

/-!
# The heap of the RTOS

`pvPortMalloc` and `vPortFree` keep a list of free blocks, linked through the headers of
the blocks in address order from `xStart` to `pxEnd`. An allocation takes the first block
that is large enough and splits it when enough is left; a block that is freed is joined to
its neighbours. Both run with the scheduler suspended, so calls do not overlap.

Memory is followed in units of eight bytes, the size of a header, at addresses that are
multiples of eight. The application writes what it likes behind the header of a block that
it has. Addresses and sizes are natural numbers: `ucHeap` is an array of the program, so it
ends below 2^32, every block is shown to lie in it, and only requests below 2^31 are added
to. A loop is given as much fuel as the heap has bytes, and does not run out of it. An
assertion that fails stops the processor; no call returns then.

A request that is not met ends in `vApplicationMallocFailedHook`. The source has two of them,
both weak, and everything is shown for either. The one in app_freertos.c stops the processor,
so a task that asks for too much never sees a null pointer with it.
-/

namespace Stm32Ecu.Heap4

open FreeSpace

/-- `configTOTAL_HEAP_SIZE`. -/
def configTotalHeapSize : Nat := 16384

/-- `portBYTE_ALIGNMENT_MASK`, for an alignment of eight bytes. -/
def portByteAlignmentMask : Nat := 7

/-- The size of `BlockLink_t`, a multiple of the alignment. -/
def xHeapStructSize : Nat := 8

/-- `heapMINIMUM_BLOCK_SIZE`. -/
def heapMinimumBlockSize : Nat := 16

/-- `BlockLink_t`; 0 is the null pointer. -/
structure BlockLink where
  pxNextFreeBlock : Nat
  xBlockSize : Nat
deriving DecidableEq

/-- The static variables, and the headers in `ucHeap` by their addresses. -/
structure Heap where
  memory : Nat → BlockLink
  xStart : BlockLink
  pxEnd : Nat
  xFreeBytesRemaining : Nat
  xMinimumEverFreeBytesRemaining : Nat
  xBlockAllocatedBit : Nat

namespace Heap

/-- Before the first call. -/
def initial (memory : Nat → BlockLink) : Heap := ⟨memory, ⟨0, 0⟩, 0, 0, 0, 0⟩

/-- A pointer to a header: `&xStart`, or an address in `ucHeap`. -/
def link (h : Heap) : Option Nat → BlockLink
  | none => h.xStart
  | some address => h.memory address

/-- Overwrite the header at an address. -/
def write (h : Heap) (address : Nat) (value : BlockLink) : Heap :=
  { h with memory := Function.update h.memory address value }

/-- Overwrite the next pointer of `xStart` or of a header in `ucHeap`. -/
def setNext (h : Heap) (iterator : Option Nat) (next : Nat) : Heap :=
  match iterator with
  | none => { h with xStart := ⟨next, h.xStart.xBlockSize⟩ }
  | some address => h.write address ⟨next, (h.memory address).xBlockSize⟩

/-- Overwrite the size in a header. -/
def setSize (h : Heap) (address size : Nat) : Heap :=
  h.write address ⟨(h.memory address).pxNextFreeBlock, size⟩

end Heap

/-- The first aligned address of the heap. -/
def alignedHeap (ucHeap : Nat) : Nat :=
  if ucHeap % (portByteAlignmentMask + 1) ≠ 0 then
    (ucHeap + portByteAlignmentMask) / (portByteAlignmentMask + 1) * (portByteAlignmentMask + 1)
  else ucHeap

/-- Where `prvHeapInit` puts the end marker. -/
def heapEnd (ucHeap : Nat) : Nat :=
  let xTotalHeapSize := configTotalHeapSize - (alignedHeap ucHeap - ucHeap)
  (alignedHeap ucHeap + xTotalHeapSize - xHeapStructSize) / (portByteAlignmentMask + 1) *
    (portByteAlignmentMask + 1)

/-- `prvHeapInit`: one free block, from the first aligned address to the end marker. -/
def prvHeapInit (ucHeap : Nat) (h : Heap) : Heap :=
  let pxFirstFreeBlock := alignedHeap ucHeap
  let pxEnd := heapEnd ucHeap
  let h := { h with xStart := ⟨pxFirstFreeBlock, 0⟩, pxEnd := pxEnd }
  let h := h.write pxEnd ⟨0, 0⟩
  let size := pxEnd - pxFirstFreeBlock
  let h := h.write pxFirstFreeBlock ⟨pxEnd, size⟩
  { h with
    xMinimumEverFreeBytesRemaining := size
    xFreeBytesRemaining := size
    xBlockAllocatedBit := 2 ^ 31 }

/-- The loop of `prvInsertBlockIntoFreeList`: the block behind which to insert. -/
def insertLoop (h : Heap) (pxBlockToInsert : Nat) : Nat → Option Nat → Option (Option Nat)
  | 0, _ => none
  | fuel + 1, pxIterator =>
      if (h.link pxIterator).pxNextFreeBlock < pxBlockToInsert then
        insertLoop h pxBlockToInsert fuel (some (h.link pxIterator).pxNextFreeBlock)
      else some pxIterator

/-- The second half of what follows the loop: the block is joined to the next one, or linked
to it. -/
def joinBehind (h : Heap) (next pxBlockToInsert : Nat) : Heap :=
  if pxBlockToInsert + (h.memory pxBlockToInsert).xBlockSize = next then
    if next ≠ h.pxEnd then
      h.write pxBlockToInsert ⟨(h.memory next).pxNextFreeBlock,
        (h.memory pxBlockToInsert).xBlockSize + (h.memory next).xBlockSize⟩
    else h.setNext (some pxBlockToInsert) h.pxEnd
  else h.setNext (some pxBlockToInsert) next

/-- What follows the loop. Nothing in `ucHeap` is adjacent to `xStart`. -/
def insertAt (h : Heap) (pxIterator : Option Nat) (pxBlockToInsert : Nat) : Heap :=
  let (h, pxBlockToInsert) := match pxIterator with
    | some address =>
        if address + (h.memory address).xBlockSize = pxBlockToInsert then
          (h.setSize address
            ((h.memory address).xBlockSize + (h.memory pxBlockToInsert).xBlockSize), address)
        else (h, pxBlockToInsert)
    | none => (h, pxBlockToInsert)
  let h := joinBehind h (h.link pxIterator).pxNextFreeBlock pxBlockToInsert
  if pxIterator ≠ some pxBlockToInsert then h.setNext pxIterator pxBlockToInsert else h

/-- `prvInsertBlockIntoFreeList`: find the place in address order, and insert there. -/
def prvInsertBlockIntoFreeList (h : Heap) (pxBlockToInsert : Nat) : Option Heap :=
  (insertLoop h pxBlockToInsert configTotalHeapSize none).map fun pxIterator =>
    insertAt h pxIterator pxBlockToInsert

/-- The size of a block for a request: with its header, rounded up. -/
def blockSize (xWantedSize : Nat) : Nat :=
  let xWantedSize := xWantedSize + xHeapStructSize
  if xWantedSize % (portByteAlignmentMask + 1) ≠ 0 then
    xWantedSize + (portByteAlignmentMask + 1 - xWantedSize % (portByteAlignmentMask + 1))
  else xWantedSize

/-- The loop of `pvPortMalloc`, from a block and the one before it. -/
def findLoop (h : Heap) (xWantedSize : Nat) : Nat → Option Nat → Nat → Option (Option Nat × Nat)
  | 0, _, _ => none
  | fuel + 1, pxPreviousBlock, pxBlock =>
      if (h.memory pxBlock).xBlockSize < xWantedSize ∧ (h.memory pxBlock).pxNextFreeBlock ≠ 0 then
        findLoop h xWantedSize fuel (some pxBlock) (h.memory pxBlock).pxNextFreeBlock
      else some (pxPreviousBlock, pxBlock)

/-- A block is taken out of the list, and split if it is larger than required. -/
def takeBlock (h : Heap) (pxPreviousBlock : Option Nat) (pxBlock xWantedSize : Nat) :
    Option (Nat × Heap) := do
  let pvReturn := (h.link pxPreviousBlock).pxNextFreeBlock + xHeapStructSize
  let h := h.setNext pxPreviousBlock (h.memory pxBlock).pxNextFreeBlock
  let h ←
    if (h.memory pxBlock).xBlockSize - xWantedSize > heapMinimumBlockSize then
      let pxNewBlockLink := pxBlock + xWantedSize
      let h := h.setSize pxNewBlockLink ((h.memory pxBlock).xBlockSize - xWantedSize)
      let h := h.setSize pxBlock xWantedSize
      prvInsertBlockIntoFreeList h pxNewBlockLink
    else some h
  let xFreeBytesRemaining := h.xFreeBytesRemaining - (h.memory pxBlock).xBlockSize
  let h := { h with
    xFreeBytesRemaining := xFreeBytesRemaining
    xMinimumEverFreeBytesRemaining := min xFreeBytesRemaining h.xMinimumEverFreeBytesRemaining }
  some (pvReturn,
    h.write pxBlock ⟨0, (h.memory pxBlock).xBlockSize ||| h.xBlockAllocatedBit⟩)

/-- The heap as an allocation finds it. The first call sets it up. -/
def Heap.setUp (h : Heap) (ucHeap : Nat) : Heap :=
  if h.pxEnd = 0 then prvHeapInit ucHeap h else h

/-- What `pvPortMalloc` does while the scheduler is suspended: `pvReturn`, and the heap. -/
def allocate (ucHeap : Nat) (h : Heap) (xWantedSize : Nat) : Option (Nat × Heap) := do
  let h := h.setUp ucHeap
  if xWantedSize &&& h.xBlockAllocatedBit = 0 then
    let xWantedSize := if 0 < xWantedSize then blockSize xWantedSize else xWantedSize
    if 0 < xWantedSize ∧ xWantedSize ≤ h.xFreeBytesRemaining then
      let (pxPreviousBlock, pxBlock) ←
        findLoop h xWantedSize configTotalHeapSize none h.xStart.pxNextFreeBlock
      if pxBlock ≠ h.pxEnd then takeBlock h pxPreviousBlock pxBlock xWantedSize
      else some (0, h)
    else some (0, h)
  else some (0, h)

/-- Where the hook that is linked comes from. -/
inductive MallocFailedHook where
  | appFreertos
  | cmsisOs2
deriving DecidableEq

/-- `vApplicationMallocFailedHook`. In app_freertos.c it calls `Error_Handler`, which disables
the interrupts and loops for ever. In cmsis_os2.c it is a dummy. -/
def vApplicationMallocFailedHook : MallocFailedHook → Heap → Option Heap
  | .appFreertos, _ => none
  | .cmsisOs2, h => some h

/-- `pvPortMalloc`; 0 is the null pointer. `configUSE_MALLOC_FAILED_HOOK` is 1. -/
def pvPortMalloc (hook : MallocFailedHook) (ucHeap : Nat) (h : Heap) (xWantedSize : Nat) :
    Option (Nat × Heap) := do
  let (pvReturn, h) ← allocate ucHeap h xWantedSize
  let h ← if pvReturn = 0 then vApplicationMallocFailedHook hook h else some h
  some (pvReturn, h)

/-- `vPortFree`. -/
def vPortFree (h : Heap) (pv : Nat) : Option Heap :=
  if pv ≠ 0 then
    let pxLink := pv - xHeapStructSize
    let header := h.memory pxLink
    if header.xBlockSize &&& h.xBlockAllocatedBit ≠ 0 ∧ header.pxNextFreeBlock = 0 then
      -- the complement of the bit is all the bits below it
      let size := header.xBlockSize &&& (h.xBlockAllocatedBit - 1)
      let h := h.setSize pxLink size
      prvInsertBlockIntoFreeList
        { h with xFreeBytesRemaining := h.xFreeBytesRemaining + size } pxLink
    else none
  else some h

/-- A block the application has, with its header, and the size it asked for. -/
structure Allocation where
  block : Span
  wanted : Nat
deriving DecidableEq

/-- What `pvPortMalloc` has returned for it. -/
def Allocation.pv (a : Allocation) : Nat := a.block.start + xHeapStructSize

/-- The heap, the blocks the application has, and what it last saw or wrote in them. -/
structure Usage where
  heap : Heap
  allocated : List Allocation
  written : Nat → BlockLink

/-- What the application does: a call, or a write behind the header of a block it has. -/
inductive UsageEvent where
  | malloc (xWantedSize : UInt32)
  | free (a : Allocation)
  | write (a : Allocation) (unit : Nat) (value : BlockLink)

namespace Usage

/-- Before the first call, with whatever is in memory. -/
def initial (memory : Nat → BlockLink) : Usage := ⟨Heap.initial memory, [], memory⟩

/-- The address is behind the header of the block. -/
def payload (a : Allocation) (address : Nat) : Prop :=
  a.block.start < address ∧ address < a.block.stop

instance (a : Allocation) (address : Nat) : Decidable (payload a address) := by
  unfold payload
  infer_instance

/-- The application has one block more. -/
def given (s : Usage) (heap : Heap) (new : Allocation) : Usage where
  heap := heap
  allocated := s.allocated ++ [new]
  written := fun address =>
    if payload new address then heap.memory address else s.written address

/-- A step of the application. A request that stops the processor is none. -/
def step (hook : MallocFailedHook) (ucHeap : Nat) (s : Usage) : UsageEvent → Option Usage
  | .malloc xWantedSize =>
      (pvPortMalloc hook ucHeap s.heap xWantedSize.toNat).map fun (pv, heap) =>
        if pv = 0 then { s with heap := heap }
        else
          let start := pv - xHeapStructSize
          let size := (heap.memory start).xBlockSize &&& (heap.xBlockAllocatedBit - 1)
          s.given heap ⟨⟨start, size⟩, xWantedSize.toNat⟩
  | .free a =>
      if a ∈ s.allocated then
        (vPortFree s.heap a.pv).map fun heap =>
          { s with heap := heap, allocated := s.allocated.erase a }
      else none
  | .write a unit value =>
      if a ∈ s.allocated ∧ payload a (a.block.start + xHeapStructSize * unit) then
        some { s with
          heap := s.heap.write (a.block.start + xHeapStructSize * unit) value
          written := Function.update s.written (a.block.start + xHeapStructSize * unit) value }
      else none

end Usage

/-! ## The list in memory -/

/-- Following the headers from an address leads through the spans to the end marker. -/
def Chain (h : Heap) : Nat → List Span → Prop
  | next, [] => next = h.pxEnd
  | next, a :: rest => next = a.start ∧ (h.memory a.start).xBlockSize = a.len ∧
      Chain h (h.memory a.start).pxNextFreeBlock rest

/-- What the list leaves alone. -/
structure SameCounts (h g : Heap) : Prop where
  pxEnd : g.pxEnd = h.pxEnd
  remaining : g.xFreeBytesRemaining = h.xFreeBytesRemaining
  minimum : g.xMinimumEverFreeBytesRemaining = h.xMinimumEverFreeBytesRemaining
  bit : g.xBlockAllocatedBit = h.xBlockAllocatedBit

/-- Two changes that leave the counts alone leave them alone together. -/
theorem SameCounts.trans {h g f : Heap} (first : SameCounts h g) (second : SameCounts g f) :
    SameCounts h f :=
  ⟨second.pxEnd.trans first.pxEnd, second.remaining.trans first.remaining,
    second.minimum.trans first.minimum, second.bit.trans first.bit⟩

section Fields

variable (h : Heap) (iterator other : Option Nat) (address next : Nat) (value : BlockLink)

/-- A header written changes no count. -/
@[simp] theorem write_counts : SameCounts h (h.write address value) := ⟨rfl, rfl, rfl, rfl⟩

/-- A next pointer written changes no count. -/
@[simp] theorem setNext_counts : SameCounts h (h.setNext iterator next) := by
  cases iterator <;> exact ⟨rfl, rfl, rfl, rfl⟩

/-- The header written is read back. -/
@[simp] theorem write_self : (h.write address value).memory address = value :=
  Function.update_self _ _ _

/-- Writing one header leaves the others. -/
theorem write_link_of_ne (different : other ≠ some address) :
    (h.write address value).link other = h.link other := by
  cases other with
  | none => rfl
  | some place => exact Function.update_of_ne (fun same => different (congrArg some same)) _ _

/-- A next pointer is read back, and the size beside it stays. -/
@[simp] theorem setNext_link_self :
    (h.setNext iterator next).link iterator = ⟨next, (h.link iterator).xBlockSize⟩ := by
  cases iterator with
  | none => rfl
  | some place => exact Function.update_self _ _ _

/-- Writing one next pointer leaves the other headers. -/
theorem setNext_link_of_ne (different : other ≠ iterator) :
    (h.setNext iterator next).link other = h.link other := by
  cases iterator with
  | none =>
    cases other with
    | none => exact absurd rfl different
    | some place => rfl
  | some place => exact write_link_of_ne h other place _ different

end Fields

section Chains

variable {h g : Heap} {next : Nat} {spans : List Span} {s : Span}

/-- Whoever leaves the headers of a chain leaves the chain. -/
theorem Chain.congr (chain : Chain h next spans) (last : g.pxEnd = h.pxEnd)
    (same : ∀ a ∈ spans, g.memory a.start = h.memory a.start) : Chain g next spans := by
  induction spans generalizing next with
  | nil => exact chain.trans last.symm
  | cons a rest ih =>
    obtain ⟨here, size, further⟩ := chain
    obtain ⟨first, others⟩ := List.forall_mem_cons.mp same
    rw [← first] at size further
    exact ⟨here, size, ih further others⟩

/-- The block that is inserted takes the place of those behind it, joined to the first of
them if it touches it. Only its own header is written. -/
theorem joinBehind_spec (chain : Chain h next spans)
    (size : (h.memory s.start).xBlockSize = s.len) (outside : ∀ a ∈ spans, s.start ≠ a.start)
    (inside : ∀ a ∈ spans, a.start ≠ h.pxEnd) :
    ∃ value, joinBehind h next s.start = h.write s.start value ∧
      Chain (h.write s.start value) s.start (joinNext s spans) := by
  have kept (value : BlockLink) (rest : List Span) (sub : ∀ a ∈ rest, a ∈ spans) (from' : Nat)
      (old : Chain h from' rest) : Chain (h.write s.start value) from' rest := by
    refine old.congr rfl ?_
    intro a member
    exact Function.update_of_ne (outside a (sub a member)).symm _ _
  cases spans with
  | nil =>
    have last : next = h.pxEnd := chain
    refine ⟨⟨next, s.len⟩, ?_, rfl, by rw [write_self], by rw [write_self]; exact last⟩
    rw [joinBehind, size]
    split
    · rw [if_neg (not_not.mpr last), Heap.setNext, size, last]
    · rw [Heap.setNext, size]
  | cons a rest =>
    obtain ⟨here, large, further⟩ := chain
    by_cases touch : s.stop = a.start
    · refine ⟨⟨(h.memory a.start).pxNextFreeBlock, s.len + a.len⟩, ?_, ?_⟩
      · have marker := inside a List.mem_cons_self
        rw [joinBehind, size, here, if_pos (show s.start + s.len = a.start from touch),
          if_pos marker, large]
      · rw [joinNext, if_pos touch]
        refine ⟨rfl, by simp [Span.join], ?_⟩
        simp only [Span.join, write_self]
        exact kept _ rest (fun b member => List.mem_cons_of_mem _ member) _ further
    · refine ⟨⟨next, s.len⟩, ?_, ?_⟩
      · have gap : s.start + s.len ≠ next := fun same => touch (same.trans here)
        rw [joinBehind, size, if_neg gap, Heap.setNext, size]
      · rw [joinNext, if_neg touch]
        refine ⟨rfl, by simp, ?_⟩
        simp only [write_self]
        exact kept _ (a :: rest) (fun _ member => member) _ ⟨here, large, further⟩

/-- Where the new block goes in front of all others, behind a place it does not touch. -/
theorem insertAt_front {iterator : Option Nat}
    (chain : Chain h (h.link iterator).pxNextFreeBlock spans)
    (size : (h.memory s.start).xBlockSize = s.len) (outside : ∀ a ∈ spans, s.start ≠ a.start)
    (inside : ∀ a ∈ spans, a.start ≠ h.pxEnd) (new : iterator ≠ some s.start)
    (listed : ∀ a ∈ spans, iterator ≠ some a.start)
    (gap : ∀ address, iterator = some address →
      address + (h.memory address).xBlockSize ≠ s.start) :
    ∃ value, insertAt h iterator s.start = (h.write s.start value).setNext iterator s.start ∧
      Chain (insertAt h iterator s.start)
        ((insertAt h iterator s.start).link iterator).pxNextFreeBlock (joinNext s spans) := by
  obtain ⟨value, joined, further⟩ := joinBehind_spec chain size outside inside
  have whole : insertAt h iterator s.start = (h.write s.start value).setNext iterator s.start := by
    cases iterator with
    | none => rw [insertAt, joined, if_pos new]
    | some address =>
      rw [insertAt]
      simp only [gap address rfl, ↓reduceIte]
      rw [joined, if_pos new]
  refine ⟨value, whole, ?_⟩
  rw [whole, setNext_link_self]
  refine further.congr (setNext_counts _ _ _).pxEnd ?_
  have apart : ∀ a ∈ joinNext s spans, iterator ≠ some a.start :=
    joinNext_all (P := fun a => iterator ≠ some a.start) (fun _ _ _ first _ => first) new listed
  intro a member
  exact setNext_link_of_ne _ iterator (some a.start) _ (apart a member).symm

/-- Where it goes behind a block that it touches, that block grows. -/
theorem insertAt_behind {a : Span} (chain : Chain h (h.memory a.start).pxNextFreeBlock spans)
    (large : (h.memory a.start).xBlockSize = a.len)
    (size : (h.memory s.start).xBlockSize = s.len) (touch : a.stop = s.start)
    (outside : ∀ b ∈ spans, a.start ≠ b.start) (inside : ∀ b ∈ spans, b.start ≠ h.pxEnd) :
    ∃ value, insertAt h (some a.start) s.start = h.write a.start value ∧
      Chain (h.write a.start value) a.start (joinNext (a.join s) spans) := by
  have grown : Chain (h.setSize a.start (a.len + s.len))
      ((h.setSize a.start (a.len + s.len)).memory a.start).pxNextFreeBlock spans := by
    rw [Heap.setSize, write_self]
    refine chain.congr rfl ?_
    intro b member
    exact Function.update_of_ne (outside b member).symm _ _
  obtain ⟨value, joined, further⟩ := joinBehind_spec (s := a.join s) grown
    (by simp [Heap.setSize, Span.join]) outside inside
  have twice : (h.setSize a.start (a.len + s.len)).write a.start value = h.write a.start value := by
    rw [Heap.setSize, Heap.write, Heap.write, Function.update_idem]
    rfl
  refine ⟨value, ?_, twice ▸ further⟩
  have adjacent : a.start + a.len = s.start := touch
  rw [insertAt]
  simp only [large, size, adjacent, ↓reduceIte, ne_eq, not_true_eq_false]
  exact joined.trans twice

/-- What it means that a block has been put in its place behind an iterator: the list goes on
from there with the block in it, and nothing else has been written. -/
structure Inserted (h g : Heap) (iterator : Option Nat) (s : Span) (spans : List Span) : Prop where
  counts : SameCounts h g
  chain : Chain g (g.link iterator).pxNextFreeBlock (insertSpan s spans)
  size : (g.link iterator).xBlockSize = (h.link iterator).xBlockSize
  others : ∀ other, other ≠ iterator → other ≠ some s.start →
    (∀ a ∈ spans, other ≠ some a.start) → g.link other = h.link other

/-- The block goes in behind a header that it does not touch. -/
theorem insert_front {iterator : Option Nat}
    (chain : Chain h (h.link iterator).pxNextFreeBlock spans)
    (size : (h.memory s.start).xBlockSize = s.len) (outside : ∀ a ∈ spans, s.start ≠ a.start)
    (inside : ∀ a ∈ spans, a.start ≠ h.pxEnd) (new : iterator ≠ some s.start)
    (listed : ∀ a ∈ spans, iterator ≠ some a.start)
    (gap : ∀ address, iterator = some address →
      address + (h.memory address).xBlockSize ≠ s.start)
    (same : insertSpan s spans = joinNext s spans) :
    Inserted h (insertAt h iterator s.start) iterator s spans := by
  obtain ⟨value, whole, further⟩ := insertAt_front chain size outside inside new listed gap
  refine ⟨?_, same ▸ further, ?_, ?_⟩
  · rw [whole]
    exact (write_counts _ _ _).trans (setNext_counts _ _ _)
  · rw [whole, setNext_link_self, write_link_of_ne _ _ _ _ new]
  · intro other behind different _
    rw [whole, setNext_link_of_ne _ _ _ _ behind, write_link_of_ne _ _ _ _ different]

/-- The loop stops at once before the end marker or a block that lies further up. -/
theorem insert_stops {iterator : Option Nat} {fuel : Nat}
    (chain : Chain h (h.link iterator).pxNextFreeBlock spans)
    (some_len : 0 < s.len) (below : s.stop ≤ h.pxEnd) (above : ∀ a ∈ spans, s.start ≤ a.start) :
    insertLoop h s.start (fuel + 1) iterator = some iterator := by
  have further : ¬(h.link iterator).pxNextFreeBlock < s.start := by
    cases spans with
    | nil =>
      have last : (h.link iterator).pxNextFreeBlock = h.pxEnd := chain
      simp only [Span.stop] at below
      omega
    | cons a rest =>
      have first := above a List.mem_cons_self
      have here := chain.1
      omega
  rw [insertLoop, if_neg further]

/-- The loop and what follows it put a block in its place. The induction is on the blocks
the loop goes past: each of them only hands on to the next. -/
theorem insert_spec {iterator : Option Nat} {fuel : Nat}
    (chain : Chain h (h.link iterator).pxNextFreeBlock spans)
    (size : (h.memory s.start).xBlockSize = s.len) (some_len : 0 < s.len)
    (separated : Separated spans) (apart : ∀ a ∈ spans, s.Apart a) (below : s.stop ≤ h.pxEnd)
    (ends : ∀ a ∈ spans, a.stop ≤ h.pxEnd) (new : iterator ≠ some s.start)
    (listed : ∀ a ∈ spans, iterator ≠ some a.start)
    (gap : ∀ address, iterator = some address →
      address + (h.memory address).xBlockSize ≠ s.start)
    (enough : spans.length < fuel) :
    ∃ place, insertLoop h s.start fuel iterator = some place ∧
      Inserted h (insertAt h place s.start) iterator s spans := by
  have outside : ∀ a ∈ spans, s.start ≠ a.start := by
    intro a member same
    have other := apart a member
    have reach := separated.2 a member
    simp only [Span.Apart, Span.stop] at other
    omega
  have inside : ∀ a ∈ spans, a.start ≠ h.pxEnd := by
    intro a member
    have reach := separated.2 a member
    have last := ends a member
    simp only [Span.stop] at last
    omega
  induction spans generalizing iterator fuel with
  | nil =>
    obtain ⟨left, rfl⟩ : ∃ left, fuel = left + 1 := ⟨fuel - 1, by omega⟩
    exact ⟨iterator, insert_stops chain some_len below (fun _ none => absurd none List.not_mem_nil),
      insert_front chain size outside inside new listed gap rfl⟩
  | cons a rest ih =>
    obtain ⟨left, rfl⟩ : ∃ left, fuel = left + 1 := ⟨fuel - 1, by omega⟩
    rw [List.length_cons] at enough
    have here := chain.1
    have large := chain.2.1
    have further := chain.2.2
    have gaps := List.pairwise_cons.mp separated.1
    have lens := List.forall_mem_cons.mp separated.2
    have parts := List.forall_mem_cons.mp apart
    have marks := List.forall_mem_cons.mp inside
    have ahead := List.forall_mem_cons.mp listed
    have later : ∀ b ∈ rest, a.start ≠ b.start := by
      intro b member same
      have distance := gaps.1 b member
      have reach := lens.1
      simp only [Span.stop] at distance
      omega
    by_cases before : a.start < s.start
    · have order : a.stop ≤ s.start := by
        have other := parts.1
        simp only [Span.Apart, Span.stop] at other ⊢
        omega
      rw [insertLoop, here, if_pos before]
      by_cases touch : a.stop = s.start
      · obtain ⟨value, whole, grown⟩ := insertAt_behind further large size touch later marks.2
        obtain ⟨again, rfl⟩ : ∃ again, left = again + 1 := ⟨left - 1, by omega⟩
        refine ⟨some a.start, insert_stops further some_len below ?_, ?_⟩
        · intro b member
          have distance := gaps.1 b member
          omega
        · rw [whole]
          refine ⟨write_counts _ _ _, ?_, ?_, ?_⟩
          · rw [write_link_of_ne _ _ _ _ ahead.1, here, insertSpan, if_pos before, if_pos touch]
            exact grown
          · rw [write_link_of_ne _ _ _ _ ahead.1]
          · intro other _ _ different
            exact write_link_of_ne _ _ _ _ (different a List.mem_cons_self)
      · have ends' := List.forall_mem_cons.mp ends
        have outside' := List.forall_mem_cons.mp outside
        have past : some a.start ≠ some s.start :=
          fun same => outside'.1 (Option.some.inj same).symm
        have onward : Chain h (h.link (some a.start)).pxNextFreeBlock rest := further
        obtain ⟨place, loop, inserted⟩ := ih onward
          ⟨gaps.2, lens.2⟩ parts.2 ends'.2 past
          (fun b member same => later b member (Option.some.inj same))
          (by rintro _ ⟨⟩; rw [large]; exact touch) (Nat.lt_of_succ_lt_succ enough)
          outside'.2 marks.2
        have kept : (insertAt h place s.start).link iterator = h.link iterator :=
          inserted.others iterator ahead.1 new ahead.2
        refine ⟨place, loop, inserted.counts, ?_, by rw [kept], ?_⟩
        · rw [kept, here, insertSpan, if_pos before, if_neg touch]
          exact ⟨rfl, inserted.size.trans large, inserted.chain⟩
        · intro other _ different behind
          have apart' := List.forall_mem_cons.mp behind
          exact inserted.others other apart'.1 different apart'.2
    · refine ⟨iterator, insert_stops chain some_len below ?_,
        insert_front chain size outside inside new listed gap ?_⟩
      · intro b member
        rcases List.mem_cons.mp member with rfl | behind
        · omega
        · have distance := gaps.1 b behind
          simp only [Span.stop] at distance
          omega
      · rw [insertSpan, if_neg before]

/-- No pointer of the list is null: it leads to a block or to the end marker. -/
theorem Chain.next_ne (chain : Chain h next spans) (marked : 0 < h.pxEnd)
    (placed : ∀ a ∈ spans, 0 < a.start) : next ≠ 0 := by
  cases spans with
  | nil =>
    have last : next = h.pxEnd := chain
    omega
  | cons a rest =>
    have here := chain.1
    have first := placed a List.mem_cons_self
    omega

/-- The block that was found, and the list without it once the block before it is linked to
the one behind. -/
structure Found (h : Heap) (iterator previous : Option Nat) (found : Span) (others : List Span) :
    Prop where
  next : (h.link previous).pxNextFreeBlock = found.start
  size : (h.memory found.start).xBlockSize = found.len
  place : previous = iterator ∨ ∃ a ∈ others, previous = some a.start
  chain : Chain (h.setNext previous (h.memory found.start).pxNextFreeBlock)
    ((h.setNext previous (h.memory found.start).pxNextFreeBlock).link iterator).pxNextFreeBlock
    others

/-- The loop of `pvPortMalloc` is first fit. -/
theorem find_spec {iterator : Option Nat} {wanted fuel : Nat}
    (chain : Chain h (h.link iterator).pxNextFreeBlock spans) (marked : 0 < h.pxEnd)
    (marker : h.memory h.pxEnd = ⟨0, 0⟩) (placed : ∀ a ∈ spans, 0 < a.start)
    (separated : Separated spans) (listed : ∀ a ∈ spans, iterator ≠ some a.start)
    (enough : spans.length < fuel) :
    (firstFit wanted spans = none ∧ ∃ previous,
        findLoop h wanted fuel iterator (h.link iterator).pxNextFreeBlock =
          some (previous, h.pxEnd)) ∨
      ∃ found others previous, firstFit wanted spans = some (found, others) ∧
        findLoop h wanted fuel iterator (h.link iterator).pxNextFreeBlock =
          some (previous, found.start) ∧ Found h iterator previous found others := by
  induction spans generalizing iterator fuel with
  | nil =>
    obtain ⟨left, rfl⟩ : ∃ left, fuel = left + 1 := ⟨fuel - 1, by omega⟩
    have last : (h.link iterator).pxNextFreeBlock = h.pxEnd := chain
    refine .inl ⟨rfl, iterator, ?_⟩
    rw [last, findLoop, marker, if_neg (by simp)]
  | cons a rest ih =>
    obtain ⟨left, rfl⟩ : ∃ left, fuel = left + 1 := ⟨fuel - 1, by omega⟩
    rw [List.length_cons] at enough
    have here := chain.1
    have large := chain.2.1
    have further := chain.2.2
    have gaps := List.pairwise_cons.mp separated.1
    have lens := List.forall_mem_cons.mp separated.2
    have ahead := List.forall_mem_cons.mp listed
    have above := List.forall_mem_cons.mp placed
    have later : ∀ b ∈ rest, some a.start ≠ some b.start := by
      intro b member same
      have distance := gaps.1 b member
      have reach := lens.1
      simp only [Span.stop, Option.some.injEq] at distance same
      omega
    by_cases fits : wanted ≤ a.len
    · refine .inr ⟨a, rest, iterator, by rw [firstFit, if_pos fits], ?_, here, large, .inl rfl, ?_⟩
      · rw [here, findLoop, large, if_neg (by omega)]
      · rw [setNext_link_self]
        refine further.congr (setNext_counts _ _ _).pxEnd ?_
        intro b member
        exact setNext_link_of_ne _ _ (some b.start) _ (ahead.2 b member).symm
    · have goes : findLoop h wanted (left + 1) iterator (h.link iterator).pxNextFreeBlock =
          findLoop h wanted left (some a.start) (h.memory a.start).pxNextFreeBlock := by
        rw [here, findLoop, large, if_pos ⟨by omega, further.next_ne marked above.2⟩]
      rw [goes, firstFit, if_neg fits]
      have onward : Chain h (h.link (some a.start)).pxNextFreeBlock rest := further
      rcases ih onward above.2 ⟨gaps.2, lens.2⟩ later (Nat.lt_of_succ_lt_succ enough) with
        ⟨nothing, previous, loop⟩ | ⟨found, others, previous, fit, loop, result⟩
      · exact .inl ⟨by rw [nothing]; rfl, previous, loop⟩
      · refine .inr ⟨found, a :: others, previous, by rw [fit]; rfl, loop, result.next,
          result.size, .inr ?_, ?_⟩
        · rcases result.place with rfl | ⟨b, member, same⟩
          · exact ⟨a, List.mem_cons_self, rfl⟩
          · exact ⟨b, List.mem_cons_of_mem a member, same⟩
        · obtain ⟨_, _, sub⟩ := firstFit_found fit
          have apart : iterator ≠ previous := by
            rcases result.place with rfl | ⟨b, member, rfl⟩
            · exact ahead.1
            · exact ahead.2 b (sub.subset member)
          have kept : ((h.setNext previous (h.memory found.start).pxNextFreeBlock).memory
              a.start).xBlockSize = a.len := by
            by_cases same : previous = some a.start
            · have self := setNext_link_self h previous (h.memory found.start).pxNextFreeBlock
              rw [same] at self ⊢
              exact (congrArg BlockLink.xBlockSize self).trans large
            · have other := setNext_link_of_ne h previous (some a.start)
                (h.memory found.start).pxNextFreeBlock (fun eq => same eq.symm)
              exact (congrArg BlockLink.xBlockSize other).trans large
          rw [setNext_link_of_ne _ _ _ _ apart]
          exact ⟨here, kept, result.chain⟩

/-- A free block put into the list that starts at `xStart`. -/
theorem prvInsert_spec (chain : Chain h h.xStart.pxNextFreeBlock spans)
    (size : (h.memory s.start).xBlockSize = s.len) (some_len : 0 < s.len)
    (separated : Separated spans) (apart : ∀ a ∈ spans, s.Apart a) (below : s.stop ≤ h.pxEnd)
    (ends : ∀ a ∈ spans, a.stop ≤ h.pxEnd) (few : spans.length < configTotalHeapSize) :
    ∃ g, prvInsertBlockIntoFreeList h s.start = some g ∧ Inserted h g none s spans := by
  have begins : Chain h (h.link none).pxNextFreeBlock spans := chain
  obtain ⟨place, loop, inserted⟩ := insert_spec begins size some_len separated apart below
    ends (Option.some_ne_none s.start).symm (fun a _ => (Option.some_ne_none a.start).symm)
    (fun address none => absurd none.symm (Option.some_ne_none address)) few
  exact ⟨_, by rw [prvInsertBlockIntoFreeList, loop]; rfl, inserted⟩

end Chains

/-! ## What every call keeps -/

/-- Inside the heap and aligned at both ends. -/
structure Fits (lo hi : Nat) (a : Span) : Prop where
  lower : lo ≤ a.start
  upper : a.stop ≤ hi
  some_len : 0 < a.len
  start : a.start % 8 = 0
  len : a.len % 8 = 0

/-- The list in memory is the list of the free blocks, every other block has the header of an
allocated one, and together they are the heap. -/
structure Kept (lo hi : Nat) (h : Heap) (free used : List Span) : Prop where
  pxEnd : h.pxEnd = hi
  bit : h.xBlockAllocatedBit = 2 ^ 31
  chain : Chain h h.xStart.pxNextFreeBlock free
  marker : h.memory hi = ⟨0, 0⟩
  separated : Separated free
  freeFits : ∀ a ∈ free, Fits lo hi a
  usedFits : ∀ u ∈ used, Fits lo hi u
  apart : used.Pairwise Span.Apart
  between : ∀ u ∈ used, ∀ a ∈ free, u.Apart a
  headers : ∀ u ∈ used, h.memory u.start = ⟨0, u.len ||| 2 ^ 31⟩
  covers : ∀ address, lo ≤ address → address < hi → Covers free address ∨ Covers used address
  sum : total free + total used = hi - lo
  counted : h.xFreeBytesRemaining = total free

section Bits

variable {n : Nat}

/-- The allocated bit of a 32-bit size is clear if the size is below it. -/
theorem and_bit_eq_zero (small : n < 2 ^ 32) : n &&& 2 ^ 31 = 0 ↔ n < 2 ^ 31 := by
  rw [Nat.and_two_pow, Nat.testBit_eq_decide_div_mod_eq]
  by_cases high : n / 2 ^ 31 % 2 = 1
  · simp only [high, decide_true, Bool.toNat_true]
    omega
  · simp only [high, decide_false, Bool.toNat_false]
    omega

/-- Setting the bit in a smaller size adds it. -/
theorem or_bit (small : n < 2 ^ 31) : n ||| 2 ^ 31 = n + 2 ^ 31 := by
  have whole := Nat.two_pow_add_eq_or_of_lt small 1
  rw [Nat.mul_one] at whole
  rw [Nat.lor_comm, ← whole, Nat.add_comm]

/-- The bit that was set is found set. -/
theorem or_bit_and_bit (small : n < 2 ^ 31) : (n ||| 2 ^ 31) &&& 2 ^ 31 ≠ 0 := by
  rw [or_bit small, ne_eq, and_bit_eq_zero (by omega)]
  omega

/-- Masking gives the size back. -/
theorem or_bit_masked (small : n < 2 ^ 31) : (n ||| 2 ^ 31) &&& (2 ^ 31 - 1) = n := by
  rw [or_bit small, Nat.and_two_pow_sub_one_eq_mod, Nat.add_mod_right, Nat.mod_eq_of_lt small]

end Bits

section Calls

variable {lo hi : Nat} {h g : Heap} {free used : List Span} {u : Span}

/-- Two blocks of the heap that touch make a block of the heap. -/
theorem Fits.join {a b : Span} (touch : a.stop = b.start) (first : Fits lo hi a)
    (second : Fits lo hi b) : Fits lo hi (a.join b) := by
  refine ⟨first.lower, ?_, Nat.add_pos_left first.some_len b.len, first.start, ?_⟩
  · rw [Span.join_stop touch]
    exact second.upper
  · have one := first.len
    have two := second.len
    simp only [Span.join]
    omega

/-- The free blocks are fewer than the fuel of the loops. -/
theorem Kept.few (kept : Kept lo hi h free used) (size : hi ≤ lo + 16376) :
    free.length < configTotalHeapSize := by
  have less := kept.separated.length_le
  have sum := kept.sum
  rw [configTotalHeapSize]
  omega

/-- Two blocks that are in use are apart, so no two have the same start. -/
theorem Kept.others_apart (kept : Kept lo hi h free used) (member : u ∈ used) :
    ∀ v ∈ used.erase u, v.Apart u := by
  have perm := List.perm_cons_erase member
  have pairs := (perm.pairwise_iff Span.Apart.symm).mp kept.apart
  exact fun v other => ((List.pairwise_cons.mp pairs).1 v other).symm

/-- Blocks that are apart start at different addresses. -/
theorem start_ne_of_apart {v : Span} (apart : v.Apart u) (one : Fits lo hi v)
    (other : Fits lo hi u) : v.start ≠ u.start := by
  have reach := one.some_len
  have beyond := other.some_len
  simp only [Span.Apart, Span.stop] at apart
  omega

/-- A block of the application comes back: it is free again, joined to its neighbours. -/
theorem vPortFree_spec (kept : Kept lo hi h free used) (size : hi ≤ lo + 16376)
    (member : u ∈ used) : ∃ g, vPortFree h (u.start + xHeapStructSize) = some g ∧
      Kept lo hi g (insertSpan u free) (used.erase u) ∧
      ∀ address, address ≠ u.start → (∀ a ∈ free, address ≠ a.start) →
        g.memory address = h.memory address := by
  have fits := kept.usedFits u member
  have small : u.len < 2 ^ 31 := by
    have upper := fits.upper
    have lower := fits.lower
    simp only [Span.stop] at upper
    omega
  have header := kept.headers u member
  -- the header as it is when the block goes into the list
  set back : Heap := { h.setSize u.start u.len with
    xFreeBytesRemaining := h.xFreeBytesRemaining + u.len }
  have memory (address : Nat) (other : address ≠ u.start) :
      back.memory address = h.memory address := Function.update_of_ne other _ _
  have stored : back.memory u.start = ⟨(h.memory u.start).pxNextFreeBlock, u.len⟩ :=
    Function.update_self _ _ _
  have apart : ∀ a ∈ free, u.Apart a := kept.between u member
  have away : ∀ a ∈ free, a.start ≠ u.start := fun a among =>
    start_ne_of_apart (apart a among).symm (kept.freeFits a among) fits
  obtain ⟨g, inserted, result⟩ := prvInsert_spec (h := back) (s := u)
    (kept.chain.congr rfl (fun a among => memory a.start (away a among)))
    (by rw [stored]) fits.some_len
    kept.separated apart (kept.pxEnd ▸ fits.upper)
    (fun a among => kept.pxEnd ▸ (kept.freeFits a among).upper) (kept.few size)
  have frame (address : Nat) (other : address ≠ u.start) (outside : ∀ a ∈ free, address ≠ a.start) :
      g.memory address = h.memory address := by
    refine Eq.trans ?_ (memory address other)
    exact result.others (some address) (Option.some_ne_none _)
      (fun same => other (Option.some.inj same))
      (fun a among same => outside a among (Option.some.inj same))
  refine ⟨g, ?_, ?_, frame⟩
  · rw [vPortFree, if_pos (show u.start + xHeapStructSize ≠ 0 by rw [xHeapStructSize]; omega)]
    simp only [Nat.add_sub_cancel, header, kept.bit, or_bit_masked small, or_bit_and_bit small,
      ne_eq, not_false_eq_true, and_self, ↓reduceIte]
    exact inserted
  · have others := kept.others_apart member
    have perm := List.perm_cons_erase member
    have pairs := List.pairwise_cons.mp ((perm.pairwise_iff Span.Apart.symm).mp kept.apart)
    have stays : ∀ v ∈ used.erase u, v ∈ used := fun v other => List.mem_of_mem_erase other
    refine ⟨result.counts.pxEnd.trans kept.pxEnd, result.counts.bit.trans kept.bit, result.chain,
      ?_, insertSpan_separated kept.separated fits.some_len apart,
      insertSpan_all (fun _ _ touch first second => first.join touch second) fits kept.freeFits,
      fun v other => kept.usedFits v (stays v other), pairs.2, ?_, ?_, ?_, ?_, ?_⟩
    · rw [frame hi, kept.marker]
      · have upper := fits.upper
        have reach := fits.some_len
        simp only [Span.stop] at upper
        omega
      · intro a among
        have upper := (kept.freeFits a among).upper
        have reach := (kept.freeFits a among).some_len
        simp only [Span.stop] at upper
        omega
    · intro v other
      exact insertSpan_apart (kept.usedFits v (stays v other)).some_len (others v other)
        (kept.between v (stays v other))
    · intro v other
      rw [frame v.start, kept.headers v (stays v other)]
      · exact start_ne_of_apart (others v other) (kept.usedFits v (stays v other)) fits
      · intro a among
        exact start_ne_of_apart (kept.between v (stays v other) a among)
          (kept.usedFits v (stays v other)) (kept.freeFits a among)
    · intro address lower upper
      have either := kept.covers address lower upper
      rw [covers_perm perm, covers_cons] at either
      rw [insertSpan_covers]
      tauto
    · have whole := kept.sum
      rw [total_perm perm, total_cons] at whole
      rw [insertSpan_total]
      omega
    · rw [result.counts.remaining, insertSpan_total, ← kept.counted]
      exact Nat.add_comm _ _

/-- A heap in which a block has left the free list, before it gets the header of an allocated
one. -/
structure Carved (lo hi : Nat) (h k : Heap) (free rest : List Span) (u : Span) : Prop where
  counts : SameCounts h k
  chain : Chain k k.xStart.pxNextFreeBlock rest
  size : (k.memory u.start).xBlockSize = u.len
  separated : Separated rest
  fits : ∀ a ∈ rest, Fits lo hi a
  block : Fits lo hi u
  apart : ∀ a ∈ rest, u.Apart a
  keeps : ∀ v : Span, 0 < v.len → (∀ a ∈ free, v.Apart a) → v.Apart u ∧ ∀ a ∈ rest, v.Apart a
  covers : ∀ address, Covers free address ↔ u.Has address ∨ Covers rest address
  sum : total free = u.len + total rest
  others : ∀ address, ¬Covers free address → k.memory address = h.memory address

/-- The header of an allocated block, and the counts without it. -/
def handOut (k : Heap) (u : Span) : Heap :=
  { k with
    xFreeBytesRemaining := k.xFreeBytesRemaining - u.len
    xMinimumEverFreeBytesRemaining :=
      min (k.xFreeBytesRemaining - u.len) k.xMinimumEverFreeBytesRemaining }.write u.start
    ⟨0, u.len ||| 2 ^ 31⟩

/-- A block that has been handed out is one more in use. -/
theorem Carved.handed {k : Heap} {rest : List Span} (kept : Kept lo hi h free used)
    (carved : Carved lo hi h k free rest u) : Kept lo hi (handOut k u) rest (used ++ [u]) := by
  have memory (address : Nat) (other : address ≠ u.start) :
      (handOut k u).memory address = k.memory address := Function.update_of_ne other _ _
  have both {P : Span → Prop} (old : ∀ v ∈ used, P v) (new : P u) : ∀ v ∈ used ++ [u], P v := by
    intro v member
    rcases List.mem_append.mp member with one | last
    · exact old v one
    · rw [List.mem_singleton.mp last]
      exact new
  have away (v : Span) (member : v ∈ used) := carved.keeps v (kept.usedFits v member).some_len
    (kept.between v member)
  refine ⟨carved.counts.pxEnd.trans kept.pxEnd, carved.counts.bit.trans kept.bit, ?_, ?_,
    carved.separated, carved.fits, both kept.usedFits carved.block, ?_,
    both (fun v member => (away v member).2) carved.apart, both ?_ ?_, ?_, ?_, ?_⟩
  · refine carved.chain.congr rfl ?_
    intro a member
    exact memory a.start (start_ne_of_apart (carved.apart a member).symm (carved.fits a member)
      carved.block)
  · have outside : ¬Covers free hi := by
      rintro ⟨a, member, has⟩
      have upper := (kept.freeFits a member).upper
      simp only [Span.Has] at has
      omega
    have beyond : hi ≠ u.start := by
      have upper := carved.block.upper
      have reach := carved.block.some_len
      simp only [Span.stop] at upper
      omega
    rw [memory hi beyond, carved.others hi outside, kept.marker]
  · refine List.pairwise_append.mpr ⟨kept.apart, List.pairwise_singleton _ _, ?_⟩
    intro v member w last
    rw [List.mem_singleton.mp last]
    exact (away v member).1
  · intro v member
    have inside : v.Has v.start := ⟨Nat.le_refl _, Nat.lt_add_of_pos_right
      (kept.usedFits v member).some_len⟩
    have outside : ¬Covers free v.start := by
      rintro ⟨a, among, has⟩
      exact (kept.between v member a among).not_has inside has
    rw [memory v.start (start_ne_of_apart (away v member).1 (kept.usedFits v member) carved.block),
      carved.others v.start outside, kept.headers v member]
  · exact Function.update_self _ _ _
  · intro address lower upper
    have either := kept.covers address lower upper
    rw [carved.covers] at either
    have now : Covers (used ++ [u]) address ↔ Covers used address ∨ u.Has address := by
      rw [covers_perm (List.perm_append_singleton u used), covers_cons, or_comm]
    rw [now]
    tauto
  · have whole := kept.sum
    rw [carved.sum] at whole
    rw [total_perm (List.perm_append_singleton u used), total_cons]
    omega
  · have count := carved.counts.remaining.trans kept.counted
    rw [carved.sum] at count
    change k.xFreeBytesRemaining - u.len = total rest
    omega

/-- The block found, as it is when nothing is split off. -/
theorem Found.carved {previous : Option Nat} {found : Span} {others : List Span} {wanted : Nat}
    (kept : Kept lo hi h free used) (fit : firstFit wanted free = some (found, others))
    (result : Found h none previous found others) :
    Carved lo hi h (h.setNext previous (h.memory found.start).pxNextFreeBlock) free others
      found := by
  obtain ⟨_, perm, sub⟩ := firstFit_found fit
  have member : found ∈ free := perm.symm.subset List.mem_cons_self
  have apart := kept.separated.found_apart perm
  have different : some found.start ≠ previous := by
    rcases result.place with rfl | ⟨a, among, rfl⟩
    · nofun
    · exact fun same => start_ne_of_apart (apart a among) (kept.freeFits found member)
        (kept.freeFits a (sub.subset among)) (Option.some.inj same)
  refine ⟨setNext_counts _ _ _, result.chain, ?_, kept.separated.sublist sub,
    fun a among => kept.freeFits a (sub.subset among), kept.freeFits found member, apart,
    fun v _ all => ⟨all found member, fun a among => all a (sub.subset among)⟩, ?_, ?_, ?_⟩
  · have same := setNext_link_of_ne h previous _ (h.memory found.start).pxNextFreeBlock different
    exact (congrArg BlockLink.xBlockSize same).trans result.size
  · intro address
    rw [covers_perm perm, covers_cons]
  · rw [total_perm perm, total_cons]
  · intro address outside
    refine setNext_link_of_ne h previous (some address) _ ?_
    rcases result.place with rfl | ⟨a, among, rfl⟩
    · nofun
    · intro same
      obtain rfl := Option.some.inj same
      exact outside ⟨a, sub.subset among, Nat.le_refl _,
        Nat.lt_add_of_pos_right (kept.freeFits a (sub.subset among)).some_len⟩

/-- A block that is split: its first part goes out, the rest goes back into the list. -/
theorem Carved.split {k : Heap} {rest : List Span} {found : Span} {wanted : Nat}
    (kept : Kept lo hi h free used) (size : hi ≤ lo + 16376)
    (carved : Carved lo hi h k free rest found) (some_wanted : 0 < wanted)
    (aligned : wanted % 8 = 0) (larger : wanted < found.len) :
    ∃ g, prvInsertBlockIntoFreeList ((k.setSize (found.start + wanted) (found.len - wanted)).setSize
        found.start wanted) (found.start + wanted) = some g ∧
      Carved lo hi h g free (insertSpan ⟨found.start + wanted, found.len - wanted⟩ rest)
        ⟨found.start, wanted⟩ := by
  have block := carved.block
  set left : Span := ⟨found.start + wanted, found.len - wanted⟩ with left_def
  set out : Span := ⟨found.start, wanted⟩ with out_def
  have touch : out.stop = left.start := rfl
  have whole : out.join left = found :=
    congrArg (Span.mk found.start) (Nat.add_sub_cancel' (Nat.le_of_lt larger))
  have outFits : Fits lo hi out := by
    have upper := block.upper
    refine ⟨block.lower, ?_, some_wanted, block.start, aligned⟩
    simp only [out_def, Span.stop] at upper ⊢
    omega
  have leftFits : Fits lo hi left := by
    have upper := block.upper
    have start := block.start
    have len := block.len
    refine ⟨Nat.le_trans block.lower (Nat.le_add_right _ _), ?_, Nat.sub_pos_of_lt larger, ?_, ?_⟩
    · simp only [left_def, Span.stop] at upper ⊢
      omega
    · simp only [left_def]
      omega
    · simp only [left_def]
      omega
  have parts (v : Span) (apart : v.Apart found) : v.Apart out ∧ v.Apart left := by
    simp only [Span.Apart, Span.stop, out_def, left_def] at apart ⊢
    omega
  have leftApart : ∀ a ∈ rest, left.Apart a := fun a member =>
    (parts a (carved.apart a member).symm).2.symm
  have outApart : ∀ a ∈ rest, out.Apart a := fun a member =>
    (parts a (carved.apart a member).symm).1.symm
  set m := (k.setSize left.start left.len).setSize out.start out.len with m_def
  have memory (address : Nat) (first : address ≠ out.start) (second : address ≠ left.start) :
      m.memory address = k.memory address :=
    (Function.update_of_ne first _ _).trans (Function.update_of_ne second _ _)
  have apart' : left.start ≠ out.start := by
    simp only [left_def, out_def]
    omega
  have starts (a : Span) (member : a ∈ rest) : a.start ≠ out.start ∧ a.start ≠ left.start :=
    ⟨start_ne_of_apart (outApart a member).symm (carved.fits a member) outFits,
      start_ne_of_apart (leftApart a member).symm (carved.fits a member) leftFits⟩
  have stored : (m.memory left.start).xBlockSize = left.len := by
    have same : m.memory left.start = (k.setSize left.start left.len).memory left.start :=
      Function.update_of_ne apart' _ _
    rw [same, Heap.setSize, write_self]
  have few : rest.length < configTotalHeapSize := by
    have less := carved.separated.length_le
    have sum := kept.sum
    rw [carved.sum] at sum
    rw [configTotalHeapSize]
    omega
  have last : m.pxEnd = hi := carved.counts.pxEnd.trans kept.pxEnd
  obtain ⟨g, inserted, result⟩ := prvInsert_spec (h := m) (s := left)
    (carved.chain.congr rfl (fun a member =>
      memory a.start (starts a member).1 (starts a member).2))
    stored leftFits.some_len carved.separated leftApart (last ▸ leftFits.upper)
    (fun a member => last ▸ (carved.fits a member).upper) few
  refine ⟨g, inserted, ?_, result.chain, ?_,
    insertSpan_separated carved.separated leftFits.some_len leftApart,
    insertSpan_all (fun _ _ meet first second => first.join meet second) leftFits carved.fits,
    outFits, ?_, ?_, ?_, ?_, ?_⟩
  · have written : SameCounts k m := (write_counts _ _ _).trans (write_counts _ _ _)
    exact carved.counts.trans (written.trans result.counts)
  · have same : g.memory out.start = m.memory out.start :=
      result.others (some out.start) (Option.some_ne_none _)
        (fun same => apart' (Option.some.inj same).symm)
        (fun a member same => (starts a member).1 (Option.some.inj same).symm)
    rw [same, m_def, Heap.setSize, write_self]
  · refine insertSpan_apart some_wanted ?_ outApart
    exact .inl (Nat.le_refl _)
  · intro v some_len all
    obtain ⟨first, others⟩ := carved.keeps v some_len all
    exact ⟨(parts v first).1, insertSpan_apart some_len (parts v first).2 others⟩
  · intro address
    rw [carved.covers, insertSpan_covers, ← or_assoc, ← Span.has_join touch, whole]
  · rw [insertSpan_total, carved.sum]
    simp only [left_def, out_def]
    omega
  · intro address outside
    rw [carved.covers, ← whole, Span.has_join touch] at outside
    have first : address ≠ out.start := by
      rintro rfl
      exact outside (.inl (.inl ⟨Nat.le_refl _, Nat.lt_add_of_pos_right some_wanted⟩))
    have second : address ≠ left.start := by
      rintro rfl
      exact outside (.inl (.inr ⟨Nat.le_refl _, Nat.lt_add_of_pos_right leftFits.some_len⟩))
    have same : g.memory address = m.memory address := by
      refine result.others (some address) (Option.some_ne_none _)
        (fun same => second (Option.some.inj same)) ?_
      intro a member same
      obtain rfl := Option.some.inj same
      exact outside (.inr ⟨a, member, Nat.le_refl _,
        Nat.lt_add_of_pos_right (carved.fits a member).some_len⟩)
    rw [same, memory address first second]
    refine carved.others address ?_
    rw [carved.covers, ← whole, Span.has_join touch]
    exact outside

/-- The block that was found goes out, whole or its first part. -/
theorem takeBlock_spec {previous : Option Nat} {found : Span} {others : List Span} {wanted : Nat}
    (kept : Kept lo hi h free used) (size : hi ≤ lo + 16376)
    (fit : firstFit wanted free = some (found, others))
    (result : Found h none previous found others) (some_wanted : 0 < wanted)
    (aligned : wanted % 8 = 0) :
    ∃ k rest u, takeBlock h previous found.start wanted =
        some (u.start + xHeapStructSize, handOut k u) ∧ wanted ≤ u.len ∧ u.start = found.start ∧
      Carved lo hi h k free rest u := by
  have large := (firstFit_found fit).1
  have carved := result.carved kept fit
  set k := h.setNext previous (h.memory found.start).pxNextFreeBlock with k_def
  have finish {g : Heap} {rest : List Span} {u : Span} (out : Carved lo hi h g free rest u) :
      handOut g u = { g with
        xFreeBytesRemaining := g.xFreeBytesRemaining - (g.memory u.start).xBlockSize
        xMinimumEverFreeBytesRemaining :=
          min (g.xFreeBytesRemaining - (g.memory u.start).xBlockSize)
            g.xMinimumEverFreeBytesRemaining }.write u.start
          ⟨0, (g.memory u.start).xBlockSize ||| g.xBlockAllocatedBit⟩ := by
    rw [handOut, out.size, out.counts.bit, kept.bit]
  rw [takeBlock, result.next, ← k_def, carved.size]
  by_cases split : found.len - wanted > heapMinimumBlockSize
  · have larger : wanted < found.len := by
      rw [heapMinimumBlockSize] at split
      omega
    obtain ⟨g, inserted, out⟩ := carved.split kept size some_wanted aligned larger
    refine ⟨g, _, ⟨found.start, wanted⟩, ?_, Nat.le_refl _, rfl, out⟩
    rw [if_pos split, finish out]
    simp only [inserted, Option.bind_eq_bind, Option.bind_some]
  · refine ⟨k, others, found, ?_, large, rfl, carved⟩
    rw [if_neg split, finish carved]
    rfl

/-- The block for a request is aligned and has room for the header, with at most seven
bytes to spare. -/
theorem blockSize_spec (wanted : Nat) :
    blockSize wanted % 8 = 0 ∧ wanted + 8 ≤ blockSize wanted ∧ blockSize wanted < wanted + 16 := by
  unfold blockSize
  dsimp only
  split <;> simp only [portByteAlignmentMask, xHeapStructSize] at * <;> omega

/-- An allocation fails, or it hands out the first free block that is large enough, or a part
of it. -/
theorem allocate_spec (kept : Kept lo hi h free used) (size : hi ≤ lo + 16376)
    (placed : 0 < lo) (marked : 0 < hi) (ucHeap : Nat) {wanted : Nat} (small : wanted < 2 ^ 32) :
    (allocate ucHeap h wanted = some (0, h) ∧
        (wanted = 0 ∨ 2 ^ 31 ≤ wanted ∨ ∀ a ∈ free, a.len < blockSize wanted)) ∨
      ∃ k rest u, allocate ucHeap h wanted = some (u.start + xHeapStructSize, handOut k u) ∧
        0 < wanted ∧ wanted < 2 ^ 31 ∧ blockSize wanted ≤ u.len ∧
        (∀ a ∈ free, blockSize wanted ≤ a.len → u.start ≤ a.start) ∧
        Carved lo hi h k free rest u := by
  have ready : h.pxEnd ≠ 0 := by
    rw [kept.pxEnd]
    omega
  rw [allocate, Heap.setUp]
  simp only [ready, ↓reduceIte, kept.bit, and_bit_eq_zero small]
  by_cases high : wanted < 2 ^ 31
  · by_cases none_wanted : 0 < wanted
    · obtain ⟨aligned, above, _⟩ := blockSize_spec wanted
      have some_size : 0 < blockSize wanted := by omega
      rw [if_pos high, if_pos none_wanted]
      by_cases enough : blockSize wanted ≤ h.xFreeBytesRemaining
      · rw [if_pos ⟨some_size, enough⟩]
        have begins : Chain h (h.link none).pxNextFreeBlock free := kept.chain
        rcases @find_spec h free none (blockSize wanted) _ begins
          (Nat.pos_of_ne_zero ready) (kept.pxEnd ▸ kept.marker)
          (fun a member => Nat.lt_of_lt_of_le placed (kept.freeFits a member).lower) kept.separated
          (fun a _ => (Option.some_ne_none a.start).symm) (kept.few size) with
          ⟨nothing, previous, loop⟩ | ⟨found, others, previous, fit, loop, result⟩
        · refine .inl ⟨?_, .inr (.inr (firstFit_none nothing))⟩
          simp only [Heap.link] at loop
          simp [loop]
        · obtain ⟨k, rest, u, taken, large, start, carved⟩ :=
            takeBlock_spec kept size fit result some_size aligned
          refine .inr ⟨k, rest, u, ?_, none_wanted, high, large,
            start ▸ firstFit_least fit kept.separated, carved⟩
          have member : found ∈ free :=
            (firstFit_found fit).2.1.symm.subset List.mem_cons_self
          have inside : found.start ≠ h.pxEnd := by
            have upper := (kept.freeFits found member).upper
            have reach := (kept.freeFits found member).some_len
            rw [kept.pxEnd]
            simp only [Span.stop] at upper
            omega
          simp only [Heap.link] at loop
          simp only [loop, Option.bind_eq_bind, Option.bind_some, ne_eq, inside, not_false_eq_true,
            ↓reduceIte, taken]
      · rw [if_neg (fun both => enough both.2)]
        refine .inl ⟨rfl, .inr (.inr fun a member => ?_)⟩
        have less := len_le_total member
        rw [← kept.counted] at less
        omega
    · rw [if_pos high, if_neg none_wanted, if_neg (fun both => none_wanted both.1)]
      exact .inl ⟨rfl, .inl (Nat.eq_zero_of_not_pos none_wanted)⟩
  · rw [if_neg high]
    exact .inl ⟨rfl, .inr (.inl (Nat.le_of_not_lt high))⟩

/-- The ends of the heap are aligned and inside the array. -/
theorem heap_bounds (ucHeap : Nat) :
    ucHeap ≤ alignedHeap ucHeap ∧ alignedHeap ucHeap % 8 = 0 ∧ heapEnd ucHeap % 8 = 0 ∧
      alignedHeap ucHeap < heapEnd ucHeap ∧ heapEnd ucHeap ≤ alignedHeap ucHeap + 16376 ∧
      heapEnd ucHeap + xHeapStructSize ≤ ucHeap + configTotalHeapSize := by
  have low : ucHeap ≤ alignedHeap ucHeap ∧ alignedHeap ucHeap < ucHeap + 8 ∧
      alignedHeap ucHeap % 8 = 0 := by
    unfold alignedHeap
    split <;> simp only [portByteAlignmentMask] at * <;> omega
  simp only [heapEnd, configTotalHeapSize, portByteAlignmentMask, xHeapStructSize]
  omega

/-- After its set-up the heap is one free block. -/
theorem prvHeapInit_kept (ucHeap : Nat) (h : Heap) :
    Kept (alignedHeap ucHeap) (heapEnd ucHeap) (prvHeapInit ucHeap h)
      [⟨alignedHeap ucHeap, heapEnd ucHeap - alignedHeap ucHeap⟩] [] := by
  obtain ⟨_, low, high, order, size, _⟩ := heap_bounds ucHeap
  have stored : (prvHeapInit ucHeap h).memory (alignedHeap ucHeap) =
      ⟨heapEnd ucHeap, heapEnd ucHeap - alignedHeap ucHeap⟩ := Function.update_self _ _ _
  have marker : (prvHeapInit ucHeap h).memory (heapEnd ucHeap) = ⟨0, 0⟩ :=
    (Function.update_of_ne (Nat.ne_of_gt order) _ _).trans (Function.update_self _ _ _)
  have fits : Fits (alignedHeap ucHeap) (heapEnd ucHeap)
      ⟨alignedHeap ucHeap, heapEnd ucHeap - alignedHeap ucHeap⟩ :=
    ⟨Nat.le_refl _, by simp only [Span.stop]; omega, Nat.sub_pos_of_lt order, low, by
      simp only; omega⟩
  have none {P : Span → Prop} : ∀ u ∈ ([] : List Span), P u := by
    intro u member
    cases member
  refine ⟨rfl, rfl, ⟨rfl, by rw [stored], by rw [stored]; rfl⟩, marker,
    ⟨List.pairwise_singleton _ _, List.forall_mem_singleton.mpr fits.some_len⟩,
    List.forall_mem_singleton.mpr fits, none, List.Pairwise.nil, none, none, ?_, rfl, rfl⟩
  intro address lower upper
  refine .inl ⟨_, List.mem_singleton_self _, lower, ?_⟩
  simp only [Span.stop]
  omega

/-- Whether the heap is set up by this call or was before makes no difference. -/
theorem allocate_setUp (ucHeap : Nat) (h : Heap) (wanted : Nat) :
    allocate ucHeap (h.setUp ucHeap) wanted = allocate ucHeap h wanted := by
  have again : (h.setUp ucHeap).setUp ucHeap = h.setUp ucHeap := by
    have marked : (h.setUp ucHeap).pxEnd ≠ 0 := by
      rw [Heap.setUp]
      split
      · obtain ⟨_, _, _, order, _⟩ := heap_bounds ucHeap
        exact Nat.ne_zero_of_lt order
      · assumption
    exact if_neg marked
  rw [allocate, allocate, again]

section Hook

variable {ucHeap wanted pv : Nat} {g : Heap}

/-- What is handed out is returned. -/
theorem pvPortMalloc_granted (hook : MallocFailedHook)
    (granted : allocate ucHeap h wanted = some (pv, g)) (some_pv : pv ≠ 0) :
    pvPortMalloc hook ucHeap h wanted = some (pv, g) := by
  rw [pvPortMalloc, granted, Option.bind_eq_bind, Option.bind_some]
  simp only [some_pv, ↓reduceIte]
  rfl

/-- Whether a null pointer is returned is up to the hook. -/
theorem pvPortMalloc_refused (hook : MallocFailedHook)
    (refused : allocate ucHeap h wanted = some (0, g)) :
    pvPortMalloc hook ucHeap h wanted =
      (vApplicationMallocFailedHook hook g).map fun g => (0, g) := by
  rw [pvPortMalloc, refused, Option.bind_eq_bind, Option.bind_some]
  cases hook <;> rfl

end Hook

/-- The application writes where there is no header. -/
theorem Kept.written (kept : Kept lo hi h free used) {address : Nat} (value : BlockLink)
    (end_mark : address ≠ hi) (inFree : ∀ a ∈ free, address ≠ a.start)
    (inUse : ∀ u ∈ used, address ≠ u.start) : Kept lo hi (h.write address value) free used := by
  have memory (other : Nat) (different : address ≠ other) :
      (h.write address value).memory other = h.memory other :=
    Function.update_of_ne different.symm _ _
  exact ⟨kept.pxEnd, kept.bit, kept.chain.congr rfl (fun a member => memory _ (inFree a member)),
    (memory hi end_mark).trans kept.marker, kept.separated, kept.freeFits, kept.usedFits,
    kept.apart, kept.between, fun u member => (memory _ (inUse u member)).trans
      (kept.headers u member), kept.covers, kept.sum, kept.counted⟩

/-- The order in which the blocks in use are listed is of no consequence. -/
theorem Kept.perm (kept : Kept lo hi h free used) {others : List Span} (perm : used.Perm others) :
    Kept lo hi h free others := by
  have back := fun u (member : u ∈ others) => perm.symm.subset member
  refine ⟨kept.pxEnd, kept.bit, kept.chain, kept.marker, kept.separated, kept.freeFits,
    fun u member => kept.usedFits u (back u member),
    (perm.pairwise_iff Span.Apart.symm).mp kept.apart,
    fun u member => kept.between u (back u member),
    fun u member => kept.headers u (back u member), ?_, ?_, kept.counted⟩
  · intro address lower upper
    rw [← covers_perm perm]
    exact kept.covers address lower upper
  · rw [← total_perm perm]
    exact kept.sum

end Calls

/-! ## Every run -/

/-- The blocks that the application has, as the list of them in the heap. -/
def Usage.blocks (s : Usage) : List Span := s.allocated.map Allocation.block

/-- The heap is in order, and every block is large enough and holds what was written. -/
structure Sound (ucHeap : Nat) (s : Usage) (free : List Span) : Prop where
  kept : Kept (alignedHeap ucHeap) (heapEnd ucHeap) s.heap free s.blocks
  enough : ∀ a ∈ s.allocated, blockSize a.wanted ≤ a.block.len
  contents : ∀ a ∈ s.allocated, ∀ address, Usage.payload a address →
    s.heap.memory address = s.written address

/-- The heap has not been set up, or it is in order. -/
def Inv (ucHeap : Nat) (s : Usage) : Prop :=
  s.heap.pxEnd = 0 ∧ s.allocated = [] ∨ ∃ free, Sound ucHeap s free

section Runs

open Runs

variable {hook : MallocFailedHook} {ucHeap : Nat} {s next : Usage} {free : List Span}
  {a : Allocation}

/-- A place behind the header of a block in use is outside the free ones and behind the
headers of the other blocks. -/
theorem Sound.payload_outside (sound : Sound ucHeap s free) (member : a ∈ s.allocated)
    {address : Nat} (inside : Usage.payload a address) :
    address ≠ heapEnd ucHeap ∧ ¬Covers free address ∧ ∀ u ∈ s.blocks, address ≠ u.start := by
  have listed : a.block ∈ s.blocks := List.mem_map_of_mem member
  have fits := sound.kept.usedFits a.block listed
  have has : a.block.Has address := ⟨Nat.le_of_lt inside.1, inside.2⟩
  refine ⟨Nat.ne_of_lt (Nat.lt_of_lt_of_le inside.2 fits.upper), ?_, ?_⟩
  · rintro ⟨b, among, other⟩
    exact (sound.kept.between a.block listed b among).not_has has other
  · intro u used same
    by_cases self : u = a.block
    · exact absurd (self ▸ same) (Nat.ne_of_gt inside.1)
    · have apart := sound.kept.others_apart listed u
        ((List.mem_erase_of_ne self).mpr used)
      refine apart.not_has ⟨Nat.le_of_eq same.symm, ?_⟩ has
      rw [same]
      exact Nat.lt_add_of_pos_right (sound.kept.usedFits u used).some_len

/-- The blocks of two allocations are apart. -/
theorem Sound.apart (sound : Sound ucHeap s free) :
    s.allocated.Pairwise (fun a b => a.block.Apart b.block) :=
  List.pairwise_map.mp sound.kept.apart

/-- What a request that is granted leads to. -/
structure Granted (ucHeap : Nat) (s : Usage) (free : List Span) (wanted : Nat) (heap : Heap)
    (u : Span) : Prop where
  some_wanted : 0 < wanted
  small : wanted < 2 ^ 31
  large : blockSize wanted ≤ u.len
  least : ∀ a ∈ free, blockSize wanted ≤ a.len → u.start ≤ a.start
  fits : Fits (alignedHeap ucHeap) (heapEnd ucHeap) u
  apart : ∀ a ∈ s.allocated, u.Apart a.block
  sound : ∃ rest, Sound ucHeap (s.given heap ⟨u, wanted⟩) rest

/-- A block that has left the free ones is one more of the application's. -/
theorem Sound.given (sound : Sound ucHeap s free) {k : Heap} {rest : List Span} {u : Span}
    {wanted : Nat} (large : blockSize wanted ≤ u.len)
    (carved : Carved (alignedHeap ucHeap) (heapEnd ucHeap) s.heap k free rest u)
    (away : ∀ b ∈ s.allocated, u.Apart b.block) :
    Sound ucHeap (s.given (handOut k u) ⟨u, wanted⟩) rest := by
  have handed := carved.handed sound.kept
  refine ⟨?_, ?_, ?_⟩
  · rw [Usage.blocks, Usage.given, List.map_append]
    exact handed
  · exact List.forall_mem_append.mpr ⟨sound.enough, List.forall_mem_singleton.mpr large⟩
  · intro b member address inside
    rw [Usage.given]
    dsimp only
    by_cases new : Usage.payload ⟨u, wanted⟩ address
    · rw [if_pos new]
    · rw [if_neg new]
      rcases List.mem_append.mp member with old | last
      · have outside := sound.payload_outside old inside
        have other : address ≠ u.start := by
          rintro rfl
          exact (away b old).not_has
            ⟨Nat.le_refl _, Nat.lt_add_of_pos_right carved.block.some_len⟩
            ⟨Nat.le_of_lt inside.1, inside.2⟩
        have same : (handOut k u).memory address = k.memory address :=
          Function.update_of_ne other _ _
        rw [same, carved.others address outside.2.1, sound.contents b old address inside]
      · rw [List.mem_singleton.mp last] at inside
        exact absurd inside new

/-- What a request leads to: nothing is handed out and nothing changes before the hook, or
there is one block more. -/
theorem Sound.malloc (sound : Sound ucHeap s free) (placed : 0 < ucHeap) (wanted : UInt32) :
    (allocate ucHeap s.heap wanted.toNat = some (0, s.heap) ∧
        (wanted = 0 ∨ 2 ^ 31 ≤ wanted.toNat ∨ ∀ a ∈ free, a.len < blockSize wanted.toNat)) ∨
      ∃ heap u, allocate ucHeap s.heap wanted.toNat = some (u.start + xHeapStructSize, heap) ∧
        Usage.step hook ucHeap s (.malloc wanted) = some (s.given heap ⟨u, wanted.toNat⟩) ∧
        Granted ucHeap s free wanted.toNat heap u := by
  obtain ⟨low, _, _, order, size, _⟩ := heap_bounds ucHeap
  rcases allocate_spec sound.kept size (Nat.lt_of_lt_of_le placed low)
    (Nat.zero_lt_of_lt order) ucHeap wanted.toNat_lt with
    ⟨failed, why⟩ | ⟨k, rest, u, done, some_wanted, small, large, least, carved⟩
  · refine .inl ⟨failed, why.imp_left ?_⟩
    exact fun none_wanted => UInt32.toNat_inj.mp none_wanted
  · have away (b : Allocation) (member : b ∈ s.allocated) : u.Apart b.block :=
      have listed : b.block ∈ s.blocks := List.mem_map_of_mem member
      (carved.keeps b.block (sound.kept.usedFits _ listed).some_len
        (sound.kept.between _ listed)).1.symm
    have less : u.len < 2 ^ 31 := by
      have lower := carved.block.lower
      have upper := carved.block.upper
      rw [Span.stop] at upper
      omega
    have stored : (handOut k u).memory u.start = ⟨0, u.len ||| 2 ^ 31⟩ := Function.update_self _ _ _
    have bit := (carved.handed sound.kept).bit
    have returned : u.start + xHeapStructSize ≠ 0 := Nat.succ_ne_zero _
    refine .inr ⟨_, u, done, ?_, some_wanted, small, large, least, carved.block, away, rest,
      sound.given large carved away⟩
    rw [Usage.step, pvPortMalloc_granted hook done returned, Option.map_some]
    simp only [returned, ↓reduceIte, Nat.add_sub_cancel, stored, bit, or_bit_masked less]

/-- A block that is given back leaves the others as they are. -/
theorem Sound.freed (sound : Sound ucHeap s free) (member : a ∈ s.allocated) :
    ∃ next, Usage.step hook ucHeap s (.free a) = some next ∧ next.allocated = s.allocated.erase a ∧
      Sound ucHeap next (insertSpan a.block free) := by
  obtain ⟨_, _, _, _, size, _⟩ := heap_bounds ucHeap
  have listed : a.block ∈ s.blocks := List.mem_map_of_mem member
  obtain ⟨heap, freed, kept, others⟩ := vPortFree_spec sound.kept size listed
  have left : (s.blocks.erase a.block).Perm ((s.allocated.erase a).map Allocation.block) :=
    List.Perm.trans ((List.perm_cons_erase listed).symm.trans
      ((List.perm_cons_erase member).map Allocation.block)).cons_inv (List.Perm.refl _)
  refine ⟨{ s with heap := heap, allocated := s.allocated.erase a }, ?_, rfl, kept.perm left, ?_,
    ?_⟩
  · rw [Usage.step, if_pos member, Allocation.pv, freed, Option.map_some]
  · exact fun b stays => sound.enough b (List.mem_of_mem_erase stays)
  · intro b stays address inside
    have old := List.mem_of_mem_erase stays
    obtain ⟨_, outside, behind⟩ := sound.payload_outside old inside
    refine (others address (behind a.block listed) ?_).trans (sound.contents b old address inside)
    rintro c among rfl
    exact outside ⟨c, among, Nat.le_refl _,
      Nat.lt_add_of_pos_right (sound.kept.freeFits c among).some_len⟩

/-- What the application writes stays in its block. -/
theorem Sound.wrote (sound : Sound ucHeap s free) {unit : Nat} {value : BlockLink}
    (taken : Usage.step hook ucHeap s (.write a unit value) = some next) :
    Sound ucHeap next free := by
  rw [Usage.step, Option.ite_none_right_eq_some] at taken
  obtain ⟨⟨member, inside⟩, same⟩ := taken
  obtain rfl := Option.some.inj same
  obtain ⟨marker, outside, behind⟩ := sound.payload_outside member inside
  refine ⟨sound.kept.written value marker ?_ behind, sound.enough, ?_⟩
  · rintro c among same
    exact outside ⟨c, among, Nat.le_of_eq same.symm, by
      rw [same]
      exact Nat.lt_add_of_pos_right (sound.kept.freeFits c among).some_len⟩
  · intro b other address within
    by_cases here : address = a.block.start + xHeapStructSize * unit
    · subst here
      exact (write_self s.heap _ value).trans (Function.update_self _ value s.written).symm
    · refine (Function.update_of_ne here _ _).trans ?_
      exact (sound.contents b other address within).trans (Function.update_of_ne here _ _).symm

/-- Before the first request the heap can be taken to be set up already. -/
theorem Inv.setUp (inv : Inv ucHeap s) :
    ∃ free, Sound ucHeap { s with heap := s.heap.setUp ucHeap } free := by
  rcases inv with ⟨empty, nothing⟩ | ⟨free, sound⟩
  · have kept := prvHeapInit_kept ucHeap s.heap
    refine ⟨[⟨alignedHeap ucHeap, heapEnd ucHeap - alignedHeap ucHeap⟩], ?_, ?_, ?_⟩
    · rw [Usage.blocks, nothing, Heap.setUp, if_pos empty]
      exact kept
    · rw [nothing]
      nofun
    · rw [nothing]
      nofun
  · have marked : s.heap.pxEnd ≠ 0 := by
      obtain ⟨_, _, _, order, _⟩ := heap_bounds ucHeap
      rw [sound.kept.pxEnd]
      exact Nat.ne_zero_of_lt order
    rw [Heap.setUp, if_neg marked]
    exact ⟨free, sound⟩

/-- One call, or one write, keeps the heap in order. -/
theorem Inv.step (inv : Inv ucHeap s) (placed : 0 < ucHeap) {event : UsageEvent}
    (taken : Usage.step hook ucHeap s event = some next) : Inv ucHeap next := by
  cases event with
  | malloc wanted =>
    obtain ⟨free, sound⟩ := inv.setUp
    have taken' : Usage.step hook ucHeap { s with heap := s.heap.setUp ucHeap } (.malloc wanted) =
        some next := by
      rw [← taken, Usage.step, Usage.step, pvPortMalloc, pvPortMalloc, allocate_setUp]
      rfl
    rcases sound.malloc placed wanted with ⟨refused, _⟩ | ⟨_, _, _, done, granted⟩
    · rw [Usage.step, pvPortMalloc_refused hook refused] at taken'
      cases hook with
      | appFreertos => cases taken'
      | cmsisOs2 =>
        obtain rfl := Option.some.inj taken'
        exact .inr ⟨free, sound⟩
    · obtain rfl := Option.some.inj (done.symm.trans taken')
      exact .inr granted.sound
  | free a =>
    have member : a ∈ s.allocated := by
      rw [Usage.step, Option.ite_none_right_eq_some] at taken
      exact taken.1
    rcases inv with ⟨_, nothing⟩ | ⟨free, sound⟩
    · rw [nothing] at member
      cases member
    · obtain ⟨other, done, _, after⟩ := sound.freed member
      obtain rfl := Option.some.inj (done.symm.trans taken)
      exact .inr ⟨_, after⟩
  | write a unit value =>
    rcases inv with ⟨_, nothing⟩ | ⟨free, sound⟩
    · rw [Usage.step, nothing, Option.ite_none_right_eq_some] at taken
      cases taken.1.1
    · exact .inr ⟨free, sound.wrote taken⟩

/-- Every run keeps the heap in order. -/
theorem inv_run {memory : Nat → BlockLink} {events : List UsageEvent} (placed : 0 < ucHeap)
    (ran : run (Usage.step hook ucHeap) (Usage.initial memory) events = some s) : Inv ucHeap s :=
  invariant_run (Usage.step hook ucHeap) (fun _ _ => True) (Inv ucHeap)
    (fun _ _ _ inv _ taken => inv.step placed taken) _ s events (.inl ⟨rfl, rfl⟩)
    (along_of_forall _ _ _ _ (fun _ _ _ => trivial)) ran

/-- A place for a block: inside the heap, and apart from the blocks in use. -/
def Room (ucHeap : Nat) (s : Usage) (room : Span) : Prop :=
  alignedHeap ucHeap ≤ room.start ∧ room.stop ≤ heapEnd ucHeap ∧
    ∀ a ∈ s.allocated, room.Apart a.block

/-- Where there is room, it is in one of the free blocks. -/
theorem Sound.room_free (sound : Sound ucHeap s free) {room : Span} (some_len : 0 < room.len)
    (here : Room ucHeap s room) : ∃ a ∈ free, a.start ≤ room.start ∧ room.stop ≤ a.stop := by
  obtain ⟨lower, upper, apart⟩ := here
  refine sound.kept.separated.stretch some_len ?_
  intro address has
  rcases sound.kept.covers address (Nat.le_trans lower has.1) (Nat.lt_of_lt_of_le has.2 upper) with
    covered | ⟨u, used, other⟩
  · exact covered
  · obtain ⟨a, member, rfl⟩ := List.mem_map.mp used
    exact absurd other ((apart a member).not_has has)

/-- A free block that is large enough starts no later than any place for the request. -/
theorem Sound.room_large (sound : Sound ucHeap s free) {room : Span} {wanted : Nat}
    (size : room.len = blockSize wanted) (here : Room ucHeap s room) :
    ∃ a ∈ free, a.start ≤ room.start ∧ blockSize wanted ≤ a.len := by
  have header := (blockSize_spec wanted).2.1
  have some_len : 0 < room.len := by omega
  obtain ⟨a, member, lower, upper⟩ := sound.room_free some_len here
  refine ⟨a, member, lower, ?_⟩
  simp only [Span.stop] at upper
  omega

/-- The block that is granted has room for the request from its start on. -/
theorem Granted.room {wanted : Nat} {heap : Heap} {u : Span}
    (granted : Granted ucHeap s free wanted heap u) :
    Room ucHeap s ⟨u.start, blockSize wanted⟩ := by
  have large := granted.large
  have upper := granted.fits.upper
  simp only [Span.stop] at upper
  refine ⟨granted.fits.lower, ?_, ?_⟩
  · simp only [Span.stop]
    omega
  · intro a member
    have apart := granted.apart a member
    simp only [Span.Apart, Span.stop] at apart ⊢
    omega

/-- No block is lost: when none is in use, the free ones are one again. -/
theorem Sound.all_free (sound : Sound ucHeap s free) (nothing : s.allocated = []) :
    free = [⟨alignedHeap ucHeap, heapEnd ucHeap - alignedHeap ucHeap⟩] := by
  obtain ⟨_, _, _, order, _⟩ := heap_bounds ucHeap
  refine sound.kept.separated.whole order (fun a member =>
    ⟨(sound.kept.freeFits a member).lower, (sound.kept.freeFits a member).upper⟩) ?_
  intro address lower upper
  rcases sound.kept.covers address lower upper with covered | ⟨u, used, _⟩
  · exact covered
  · rw [Usage.blocks, nothing] at used
    cases used

/-- Giving back all blocks, in any order, succeeds. The induction is on the blocks that are
still to be given back. -/
theorem Sound.give_back (sound : Sound ucHeap s free) (order : List Allocation)
    (perm : order.Perm s.allocated) :
    ∃ last rest, run (Usage.step hook ucHeap) s (order.map .free) = some last ∧
      last.allocated = [] ∧ Sound ucHeap last rest := by
  induction order generalizing s free with
  | nil => exact ⟨s, free, rfl, List.Perm.nil_eq perm |>.symm, sound⟩
  | cons a others ih =>
    have member : a ∈ s.allocated := perm.subset List.mem_cons_self
    obtain ⟨next, taken, left, after⟩ := sound.freed member
    have remaining : others.Perm next.allocated := by
      rw [left]
      exact (perm.trans (List.perm_cons_erase member)).cons_inv
    obtain ⟨last, rest, ran, nothing, done⟩ := ih after remaining
    exact ⟨last, rest, (run_cons_iff _ _ _ _ _).mpr ⟨next, taken, ran⟩, nothing, done⟩

/-- Whatever has been allocated, written and given back: the blocks in use are aligned, large
enough, inside the array and apart, and each holds what the application wrote. The list in
memory leads through free blocks that are apart from them, and between its first aligned
address and the end marker the heap has no byte that is neither in a free block nor in one in
use. -/
theorem blocks_apart (hook : MallocFailedHook) (ucHeap : Nat) (memory : Nat → BlockLink)
    (events : List UsageEvent) (s : Usage) (placed : 0 < ucHeap)
    (ran : run (Usage.step hook ucHeap) (Usage.initial memory) events = some s) :
    (∀ a ∈ s.allocated, a.pv % (portByteAlignmentMask + 1) = 0 ∧ ucHeap ≤ a.block.start ∧
      a.pv + a.wanted ≤ a.block.stop ∧ a.block.stop ≤ ucHeap + configTotalHeapSize ∧
      ∀ address, Usage.payload a address → s.heap.memory address = s.written address) ∧
    s.allocated.Pairwise (fun a b => a.block.Apart b.block) ∧
    (s.heap.pxEnd ≠ 0 → ∃ free, Chain s.heap s.heap.xStart.pxNextFreeBlock free ∧
      Separated free ∧
      (∀ b ∈ free, alignedHeap ucHeap ≤ b.start ∧ b.stop ≤ heapEnd ucHeap ∧
        ∀ a ∈ s.allocated, a.block.Apart b) ∧
      (∀ address, alignedHeap ucHeap ≤ address → address < heapEnd ucHeap →
        Covers free address ∨ Covers s.blocks address) ∧
      s.heap.xFreeBytesRemaining = total free ∧
      s.heap.xFreeBytesRemaining + total s.blocks = heapEnd ucHeap - alignedHeap ucHeap) := by
  rcases inv_run placed ran with ⟨empty, nothing⟩ | ⟨free, sound⟩
  · rw [nothing]
    exact ⟨nofun, List.Pairwise.nil, absurd empty⟩
  · obtain ⟨low, _, _, _, _, high⟩ := heap_bounds ucHeap
    refine ⟨?_, sound.apart, fun _ => ⟨free, sound.kept.chain, sound.kept.separated, ?_,
      sound.kept.covers, sound.kept.counted, ?_⟩⟩
    · intro a member
      obtain ⟨lower, upper, _, start, _⟩ := sound.kept.usedFits a.block (List.mem_map_of_mem member)
      have large := sound.enough a member
      have header := (blockSize_spec a.wanted).2.1
      refine ⟨?_, Nat.le_trans low lower, ?_, ?_, sound.contents a member⟩
      · rw [Allocation.pv, xHeapStructSize, portByteAlignmentMask]
        omega
      · rw [Allocation.pv, xHeapStructSize, Span.stop]
        omega
      · omega
    · intro b among
      have fits := sound.kept.freeFits b among
      refine ⟨fits.lower, fits.upper, ?_⟩
      exact fun a member => sound.kept.between a.block (List.mem_map_of_mem member) b among
    · rw [sound.kept.counted]
      exact sound.kept.sum

/-- A heap in use, with a gap where its first block was. -/
def inUse : List UsageEvent :=
  [.malloc 100, .malloc 30, .malloc 2000, .write ⟨⟨0x10020078, 40⟩, 30⟩ 1 ⟨5, 6⟩,
    .free ⟨⟨0x10020008, 112⟩, 100⟩, .malloc 150]

/-- The parts of the heap in use are apart, and 14160 bytes are in the free list. -/
theorem blocks_apart_sample :
    ∃ s, run (Usage.step .appFreertos 0x10020001) (Usage.initial fun _ => ⟨0, 0⟩) inUse = some s ∧
      s.allocated.length = 3 ∧ s.allocated.Pairwise (fun a b => a.block.Apart b.block) ∧
      ∃ free, Chain s.heap s.heap.xStart.pxNextFreeBlock free ∧ total free = 14160 := by
  obtain ⟨_, apart, whole⟩ := blocks_apart .appFreertos 0x10020001 (fun _ => ⟨0, 0⟩) inUse _
    (by decide) (Option.some_get (by decide)).symm
  obtain ⟨free, chain, _, _, _, counted, _⟩ := whole (by decide)
  exact ⟨_, (Option.some_get _).symm, by decide, apart, free, chain, counted.symm.trans (by decide)⟩

/-- A request that can be met: its size is neither 0 nor has the top bit, and the heap has
room for it somewhere. -/
def Grantable (ucHeap : Nat) (s : Usage) (wanted : UInt32) : Prop :=
  wanted ≠ 0 ∧ wanted.toNat < 2 ^ 31 ∧
    ∃ room : Span, room.len = blockSize wanted.toNat ∧ Room ucHeap s room

/-- A request that can be met is met, at the lowest address with room for it. For any other
request nothing is taken, and the hook is called: the one of app_freertos.c lets no call
return, and with the dummy the null pointer is returned. -/
theorem malloc_exact (hook : MallocFailedHook) (ucHeap : Nat) (memory : Nat → BlockLink)
    (events : List UsageEvent) (s : Usage) (wanted : UInt32) (placed : 0 < ucHeap)
    (ran : run (Usage.step hook ucHeap) (Usage.initial memory) events = some s) :
    (Grantable ucHeap s wanted → ∃ pv heap,
      pvPortMalloc hook ucHeap s.heap wanted.toNat = some (pv, heap) ∧ pv ≠ 0 ∧
      Room ucHeap s ⟨pv - xHeapStructSize, blockSize wanted.toNat⟩ ∧
      ∀ room : Span, room.len = blockSize wanted.toNat → Room ucHeap s room →
        pv ≤ room.start + xHeapStructSize) ∧
    (¬Grantable ucHeap s wanted →
      allocate ucHeap s.heap wanted.toNat = some (0, s.heap.setUp ucHeap) ∧
      (hook = .appFreertos → pvPortMalloc hook ucHeap s.heap wanted.toNat = none) ∧
      (hook = .cmsisOs2 →
        pvPortMalloc hook ucHeap s.heap wanted.toNat = some (0, s.heap.setUp ucHeap))) := by
  obtain ⟨free, sound⟩ := (inv_run placed ran).setUp
  rcases @Sound.malloc hook ucHeap _ free sound placed wanted with
    ⟨refused, why⟩ | ⟨after, u, done, _, granted⟩
  · rw [allocate_setUp] at refused
    refine ⟨?_, fun _ => ⟨refused, ?_, ?_⟩⟩
    · rintro ⟨some_wanted, small, room, size, here⟩
      rcases why with nothing | high | short
      · exact absurd nothing some_wanted
      · exact absurd small (Nat.not_lt_of_le high)
      · obtain ⟨a, member, _, large⟩ := sound.room_large size here
        exact absurd (short a member) (Nat.not_lt_of_le large)
    · rintro rfl
      exact pvPortMalloc_refused _ refused
    · rintro rfl
      exact pvPortMalloc_refused _ refused
  · rw [allocate_setUp] at done
    refine ⟨fun _ => ?_, fun refused => ?_⟩
    · have returned : u.start + xHeapStructSize ≠ 0 := Nat.succ_ne_zero _
      refine ⟨u.start + xHeapStructSize, after, pvPortMalloc_granted hook done returned, returned,
        granted.room, ?_⟩
      intro other size here
      obtain ⟨a, member, lower, large⟩ := sound.room_large size here
      have least := granted.least a member large
      omega
    · refine absurd ⟨?_, granted.small, _, rfl, granted.room⟩ refused
      rintro rfl
      exact absurd granted.some_wanted (Nat.lt_irrefl 0)

/-- The gap in front serves a request for 40 bytes; none serves one for 20000. -/
theorem malloc_exact_sample :
    ∃ s, run (Usage.step .appFreertos 0x10020001) (Usage.initial fun _ => ⟨0, 0⟩) inUse = some s ∧
      (∃ pv heap, pvPortMalloc .appFreertos 0x10020001 s.heap (40 : UInt32).toNat =
        some (pv, heap) ∧ pv ≠ 0 ∧ pv ≤ 0x10020010) ∧
      pvPortMalloc .appFreertos 0x10020001 s.heap (20000 : UInt32).toNat = none := by
  have request (wanted : UInt32) := malloc_exact .appFreertos 0x10020001 (fun _ => ⟨0, 0⟩) inUse _
    wanted (by decide) (Option.some_get (by decide)).symm
  refine ⟨_, (Option.some_get (by decide)).symm, ?_, ((request 20000).2 ?_).2.1 rfl⟩
  · obtain ⟨pv, heap, done, returned, _, lowest⟩ :=
      (request 40).1 ⟨by decide, by decide, ⟨0x10020008, 48⟩, rfl, by decide, by decide, by decide⟩
    exact ⟨pv, heap, done, returned,
      lowest ⟨0x10020008, 48⟩ rfl ⟨by decide, by decide, by decide⟩⟩
  · rintro ⟨_, _, room, size, lower, upper, _⟩
    have sizes : blockSize (20000 : UInt32).toNat = 20008 ∧ alignedHeap 0x10020001 = 0x10020008 ∧
        heapEnd 0x10020001 = 0x10023ff8 := by decide
    rw [Span.stop] at upper
    omega

/-- The heap does not fragment for good: once all blocks have been given back, in whatever
order, it is one free block as at its set-up. -/
theorem all_returned (hook : MallocFailedHook) (ucHeap : Nat) (memory : Nat → BlockLink)
    (events : List UsageEvent) (s : Usage) (order : List Allocation) (placed : 0 < ucHeap)
    (ran : run (Usage.step hook ucHeap) (Usage.initial memory) events = some s)
    (ready : s.heap.pxEnd ≠ 0) (perm : order.Perm s.allocated) :
    ∃ last, run (Usage.step hook ucHeap) s (order.map .free) = some last ∧ last.allocated = [] ∧
      last.heap.xStart.pxNextFreeBlock = alignedHeap ucHeap ∧
      last.heap.memory (alignedHeap ucHeap) =
        ⟨heapEnd ucHeap, heapEnd ucHeap - alignedHeap ucHeap⟩ ∧
      last.heap.xFreeBytesRemaining = heapEnd ucHeap - alignedHeap ucHeap := by
  rcases inv_run placed ran with ⟨empty, _⟩ | ⟨free, sound⟩
  · exact absurd empty ready
  · obtain ⟨last, rest, freed, nothing, after⟩ := sound.give_back order perm
    have whole := after.all_free nothing
    have chain := after.kept.chain
    have counted := after.kept.counted
    rw [whole] at chain counted
    obtain ⟨start, size, next⟩ := chain
    refine ⟨last, freed, nothing, start, ?_, counted⟩
    rw [BlockLink.mk.injEq]
    exact ⟨next.trans after.kept.pxEnd, size⟩

/-- Given back in reverse order, the blocks leave the whole heap free. -/
theorem all_returned_sample :
    ∃ s last, run (Usage.step .cmsisOs2 0x10020001) (Usage.initial fun _ => ⟨0, 0⟩) inUse = some s ∧
      run (Usage.step .cmsisOs2 0x10020001) s (s.allocated.reverse.map .free) = some last ∧
      last.heap.xFreeBytesRemaining = 16368 := by
  obtain ⟨last, ran, _, _, _, whole⟩ := all_returned .cmsisOs2 0x10020001 (fun _ => ⟨0, 0⟩) inUse
    _ _ (by decide) (Option.some_get (by decide)).symm (by decide) (List.reverse_perm _)
  exact ⟨_, last, (Option.some_get _).symm, ran, whole⟩

end Runs

end Stm32Ecu.Heap4
