import Stm32Ecu.FreeRunning
import Stm32Ecu.LinkedChain

/-!
# The virtqueue

The two processors exchange buffers over a vring: a table of descriptors, a ring in
which the master makes descriptor heads available, and a ring in which the slave hands
them back. Each side has a control block of its own. The functions here are those of
`virtqueue.c`, for both roles, over the shared ring and the caller's control block. The
firmware of the M4 is compiled with `VIRTIO_SLAVE_ONLY`, which takes the branches for the
master out of it; the file is followed as it is compiled without, when one side has each
role.

The parameter checks and assertions of the source are compiled only with
`VQUEUE_DEBUG`, which is not set, so they are not part of the functions.
An access outside the descriptor table, or a walk that does not end, has no result.
Cache maintenance is empty: `VIRTIO_CACHED_VRINGS` is not set either.
-/

namespace Stm32Ecu.Virtio

/-- A value kept in a `uint16_t`. -/
def u16 (value : Nat) : Nat := value % 65536

/-- The difference of two values kept in `uint16_t`, wrapped. -/
def u16Sub (left right : Nat) : Nat := FreeRunning.distance 65536 right left

/-- `VQ_RING_DESC_CHAIN_END`. -/
def descChainEnd : Nat := 32768

/-- `VRING_DESC_F_NEXT`. -/
def descFNext : Nat := 1

/-- `VRING_DESC_F_WRITE`. -/
def descFWrite : Nat := 2

/-- `VRING_DESC_F_INDIRECT`. -/
def descFIndirect : Nat := 4

/-- `VRING_USED_F_NO_NOTIFY` and `VRING_AVAIL_F_NO_INTERRUPT`. -/
def ringFNoNotify : Nat := 1

/-- `struct vring_desc`. -/
structure VringDesc where
  addr : Nat
  len : Nat
  flags : Nat
  next : Nat
deriving DecidableEq

/-- `struct vring_used_elem`. Its `event` is the low half of its `id`. -/
structure VringUsedElem where
  id : Nat
  len : Nat
deriving DecidableEq

/-- `struct vring` with what its pointers lead to. Both rings have one entry more than
there are descriptors, which holds the event index of the other side. -/
structure Vring where
  num : Nat
  desc : Nat → VringDesc
  availFlags : Nat
  availIdx : Nat
  availRing : Nat → Nat
  usedFlags : Nat
  usedIdx : Nat
  usedRing : Nat → VringUsedElem

/-- `VIRTIO_DEV_MASTER` and `VIRTIO_DEV_SLAVE`. -/
inductive VirtioRole where
  | master
  | slave
deriving DecidableEq

/-- `struct virtqueue_buf`. -/
structure VirtqueueBuf where
  buf : Nat
  len : Nat
deriving DecidableEq

/-- `struct vq_desc_extra`. A missing cookie is the null pointer. -/
structure VqDescExtra where
  cookie : Option Nat
  ndescs : Nat
deriving DecidableEq

/-- The address translation of `shm_io`. -/
structure ShmIo where
  virtToPhys : Nat → Nat
  physToVirt : Nat → Nat

/-- `struct virtqueue`, with the role and the features of its device. -/
structure Virtqueue where
  role : VirtioRole
  features : Nat
  nentries : Nat
  freeCnt : Nat
  queuedCnt : Nat
  shmIo : ShmIo
  descHeadIdx : Nat
  usedConsIdx : Nat
  availableIdx : Nat
  descx : Nat → VqDescExtra

/-- `features & VIRTIO_RING_F_EVENT_IDX`. -/
def Virtqueue.hasEventIdx (vq : Virtqueue) : Bool := vq.features.testBit 29

/-- The successors the descriptors name. -/
def links (desc : Nat → VringDesc) (idx : Nat) : Nat := (desc idx).next

/-- `vring_used_event`. -/
def vringUsedEvent (ring : Vring) : Nat := ring.availRing ring.num

/-- Assignment to `vring_used_event`. -/
def setVringUsedEvent (ring : Vring) (idx : Nat) : Vring :=
  { ring with availRing := Function.update ring.availRing ring.num idx }

/-- `vring_avail_event`. -/
def vringAvailEvent (ring : Vring) : Nat := u16 (ring.usedRing ring.num).id

/-- Assignment to `vring_avail_event`: the high half of the `id` stays. -/
def setVringAvailEvent (ring : Vring) (idx : Nat) : Vring :=
  let elem := ring.usedRing ring.num
  let written : VringUsedElem := { elem with id := elem.id - u16 elem.id + idx }
  { ring with usedRing := Function.update ring.usedRing ring.num written }

/-- The loop of `vq_ring_init`, which chains the descriptors in table order, with the
memory cleared before. -/
def initDesc (num idx : Nat) : VringDesc where
  addr := 0
  len := 0
  flags := 0
  next := if idx + 1 < num then idx + 1 else if idx + 1 = num then descChainEnd else 0

/-- The ring as `virtio_create_virtqueues` leaves it for the master: cleared, and its
descriptors chained. -/
def Vring.created (num : Nat) : Vring where
  num := num
  desc := initDesc num
  availFlags := 0
  availIdx := 0
  availRing := fun _ => 0
  usedFlags := 0
  usedIdx := 0
  usedRing := fun _ => ⟨0, 0⟩

/-- `virtqueue_create` on a control block fresh from `virtqueue_allocate`. -/
def virtqueueCreate (role : VirtioRole) (features numDescs : Nat) (shmIo : ShmIo) :
    Virtqueue where
  role := role
  features := features
  nentries := numDescs
  freeCnt := numDescs
  queuedCnt := 0
  shmIo := shmIo
  descHeadIdx := 0
  usedConsIdx := 0
  availableIdx := 0
  descx := fun _ => ⟨none, 0⟩

/-! ## The master's side -/

/-- The flags of the buffer at a position of its chain. Readable buffers come before
writable ones. -/
def bufferFlags (needed readable position : Nat) : Nat :=
  (if position < needed - 1 then descFNext else 0) |||
    (if readable ≤ position then descFWrite else 0)

/-- The loop of `vq_ring_add_buffer`: write one descriptor for each buffer, following
the free chain. -/
def addBufferLoop (vq : Virtqueue) (num needed readable : Nat) :
    List VirtqueueBuf → Nat → (Nat → VringDesc) → Nat → Option ((Nat → VringDesc) × Nat)
  | [], _, desc, idx => some (desc, idx)
  | entry :: rest, position, desc, idx =>
      if idx < num then
        let written : VringDesc :=
          { desc idx with
            addr := vq.shmIo.virtToPhys entry.buf
            len := entry.len
            flags := bufferFlags needed readable position }
        addBufferLoop vq num needed readable rest (position + 1)
          (Function.update desc idx written) written.next
      else none

/-- `vq_ring_add_buffer`. -/
def vqRingAddBuffer (vq : Virtqueue) (ring : Vring) (headIdx : Nat)
    (bufList : List VirtqueueBuf) (readable writable : Nat) : Option (Vring × Nat) :=
  let needed := readable + writable
  (addBufferLoop vq ring.num needed readable (bufList.take needed) 0 ring.desc headIdx).map
    (fun (desc, idx) => ({ ring with desc := desc }, idx))

/-- `vq_ring_update_avail` up to its fence: the head goes into the next slot. -/
def updateAvailStore (vq : Virtqueue) (ring : Vring) (descIdx : Nat) : Vring :=
  let availIdx := ring.availIdx &&& (vq.nentries - 1)
  { ring with availRing := Function.update ring.availRing availIdx descIdx }

/-- `vq_ring_update_avail` after its fence: the slot becomes visible. -/
def updateAvailPublish (vq : Virtqueue) (ring : Vring) : Virtqueue × Vring :=
  ({ vq with queuedCnt := u16 (vq.queuedCnt + 1) },
    { ring with availIdx := u16 (ring.availIdx + 1) })

/-- `virtqueue_add_buffer` up to the fence in `vq_ring_update_avail`. -/
def addBufferStore (vq : Virtqueue) (ring : Vring) (bufList : List VirtqueueBuf)
    (readable writable cookie : Nat) : Option (Virtqueue × Vring) := do
  let needed := readable + writable
  let headIdx := vq.descHeadIdx
  let (filled, idx) ← vqRingAddBuffer vq ring headIdx bufList readable writable
  let taken : Virtqueue :=
    { vq with
      descx := Function.update vq.descx headIdx ⟨some cookie, u16 needed⟩
      descHeadIdx := idx
      freeCnt := u16Sub vq.freeCnt needed }
  pure (taken, updateAvailStore taken filled headIdx)

/-- `virtqueue_add_buffer`. -/
def virtqueueAddBuffer (vq : Virtqueue) (ring : Vring) (bufList : List VirtqueueBuf)
    (readable writable cookie : Nat) : Option (Virtqueue × Vring) := do
  let (stored, filled) ← addBufferStore vq ring bufList readable writable cookie
  pure (updateAvailPublish stored filled)

/-- The loop of `vq_ring_free_chain`: go to the last descriptor of the chain, counting
`ndescs` down. -/
def freeChainLoop (num : Nat) (desc : Nat → VringDesc) : Nat → Nat → Nat → Option (Nat × Nat)
  | 0, _, _ => none
  | fuel + 1, dp, ndescs =>
      if (desc dp).flags &&& descFNext ≠ 0 then
        if (desc dp).next < num then
          freeChainLoop num desc fuel (desc dp).next (u16Sub ndescs 1)
        else none
      else some (dp, ndescs)

/-- `vq_ring_free_chain`. A chain has at most as many descriptors as the table, so that
many turns of the loop are enough for any chain that ends. -/
def vqRingFreeChain (vq : Virtqueue) (ring : Vring) (descIdx : Nat) :
    Option (Virtqueue × Vring) :=
  if descIdx < ring.num then do
    let extra := vq.descx descIdx
    let (last, ndescs) ←
      if (ring.desc descIdx).flags &&& descFIndirect = 0 then
        freeChainLoop ring.num ring.desc ring.num descIdx (u16Sub extra.ndescs 1)
      else some (descIdx, u16Sub extra.ndescs 1)
    let relinked : VringDesc := { ring.desc last with next := vq.descHeadIdx }
    pure ({ vq with
        freeCnt := u16 (vq.freeCnt + extra.ndescs)
        descx := Function.update vq.descx descIdx { extra with ndescs := ndescs }
        descHeadIdx := descIdx },
      { ring with desc := Function.update ring.desc last relinked })
  else none

/-- What `virtqueue_get_buffer` returns: the cookie, the length and the slot. -/
structure UsedBuffer where
  cookie : Option Nat
  len : Nat
  idx : Nat
deriving DecidableEq

/-- The test at the start of `virtqueue_get_buffer`. -/
def hasUsed (vq : Virtqueue) (ring : Vring) : Bool := vq.usedConsIdx ≠ ring.usedIdx

/-- `virtqueue_get_buffer` after its test. -/
def getBufferTake (vq : Virtqueue) (ring : Vring) : Option (UsedBuffer × Virtqueue × Vring) := do
  let usedIdx := vq.usedConsIdx &&& (vq.nentries - 1)
  let uep := ring.usedRing usedIdx
  let descIdx := u16 uep.id
  let (freed, after) ←
    vqRingFreeChain { vq with usedConsIdx := u16 (vq.usedConsIdx + 1) } ring descIdx
  let extra := freed.descx descIdx
  pure (⟨extra.cookie, uep.len, usedIdx⟩,
    { freed with descx := Function.update freed.descx descIdx { extra with cookie := none } },
    after)

/-- `virtqueue_get_buffer`. Without a used buffer the null pointer is returned and
nothing changes. -/
def virtqueueGetBuffer (vq : Virtqueue) (ring : Vring) :
    Option (Option UsedBuffer × Virtqueue × Vring) :=
  if hasUsed vq ring then
    (getBufferTake vq ring).map (fun (buffer, rest) => (some buffer, rest))
  else some (none, vq, ring)

/-! ## The slave's side -/

/-- What `virtqueue_get_available_buffer` returns: the buffer, the head and the length. -/
structure AvailableBuffer where
  buffer : Nat
  availIdx : Nat
  len : Nat
deriving DecidableEq

/-- The test at the start of `virtqueue_get_available_buffer`. -/
def hasAvailable (vq : Virtqueue) (ring : Vring) : Bool := vq.availableIdx ≠ ring.availIdx

/-- `virtqueue_get_available_buffer` after its test. -/
def getAvailableTake (vq : Virtqueue) (ring : Vring) : Option (AvailableBuffer × Virtqueue) :=
  let headIdx := vq.availableIdx &&& (vq.nentries - 1)
  let availIdx := ring.availRing headIdx
  if availIdx < ring.num then
    some (⟨vq.shmIo.physToVirt (ring.desc availIdx).addr, availIdx, (ring.desc availIdx).len⟩,
      { vq with availableIdx := u16 (vq.availableIdx + 1) })
  else none

/-- `virtqueue_get_available_buffer`. -/
def virtqueueGetAvailableBuffer (vq : Virtqueue) (ring : Vring) :
    Option (Option AvailableBuffer × Virtqueue) :=
  if hasAvailable vq ring then
    (getAvailableTake vq ring).map (fun (buffer, rest) => (some buffer, rest))
  else some (none, vq)

/-- `virtqueue_get_desc_size`: the length of the buffer that would be taken next. -/
def virtqueueGetDescSize (vq : Virtqueue) (ring : Vring) : Nat :=
  if hasAvailable vq ring then
    (ring.desc (ring.availRing (vq.availableIdx &&& (vq.nentries - 1)))).len
  else 0

/-- `virtqueue_get_buffer_length`. -/
def virtqueueGetBufferLength (ring : Vring) (idx : Nat) : Nat := (ring.desc idx).len

/-- `virtqueue_add_consumed_buffer` up to its fence. -/
def addConsumedStore (vq : Virtqueue) (ring : Vring) (headIdx len : Nat) : Vring :=
  let usedIdx := ring.usedIdx &&& (vq.nentries - 1)
  { ring with usedRing := Function.update ring.usedRing usedIdx ⟨headIdx, len⟩ }

/-- `virtqueue_add_consumed_buffer` after its fence. -/
def addConsumedPublish (vq : Virtqueue) (ring : Vring) : Virtqueue × Vring :=
  ({ vq with queuedCnt := u16 (vq.queuedCnt + 1) },
    { ring with usedIdx := u16 (ring.usedIdx + 1) })

/-- `virtqueue_add_consumed_buffer`: the flag is `VQUEUE_SUCCESS` against
`ERROR_VRING_NO_BUFF`. The test lets the number of descriptors itself pass. -/
def virtqueueAddConsumedBuffer (vq : Virtqueue) (ring : Vring) (headIdx len : Nat) :
    Bool × Virtqueue × Vring :=
  if vq.nentries < headIdx then (false, vq, ring)
  else (true, addConsumedPublish vq (addConsumedStore vq ring headIdx len))

/-! ## Notification -/

/-- `vring_need_event`. -/
def vringNeedEvent (eventIdx newIdx old : Nat) : Bool :=
  u16Sub (u16Sub newIdx eventIdx) 1 < u16Sub newIdx old

/-- `vq_ring_must_notify`. -/
def vqRingMustNotify (vq : Virtqueue) (ring : Vring) : Bool :=
  match vq.hasEventIdx, vq.role with
  | true, .master =>
      vringNeedEvent (vringAvailEvent ring) ring.availIdx (u16Sub ring.availIdx vq.queuedCnt)
  | true, .slave =>
      vringNeedEvent (vringUsedEvent ring) ring.usedIdx (u16Sub ring.usedIdx vq.queuedCnt)
  | false, .master => ring.usedFlags &&& ringFNoNotify = 0
  | false, .slave => ring.availFlags &&& ringFNoNotify = 0

/-- `virtqueue_kick`: the flag says whether the other side is notified. -/
def virtqueueKick (vq : Virtqueue) (ring : Vring) : Bool × Virtqueue :=
  (vqRingMustNotify vq ring, { vq with queuedCnt := 0 })

/-- `virtqueue_nused`. -/
def virtqueueNused (vq : Virtqueue) (ring : Vring) : Nat := u16Sub ring.usedIdx vq.usedConsIdx

/-- `virtqueue_navail`. -/
def virtqueueNavail (vq : Virtqueue) (ring : Vring) : Nat :=
  u16Sub ring.availIdx vq.availableIdx

/-- The flags with `NO_NOTIFY` taken out. -/
def clearNoNotify (flags : Nat) : Nat := flags - (flags &&& ringFNoNotify)

/-- `vq_ring_enable_interrupt` up to its fence. -/
def enableInterruptStore (vq : Virtqueue) (ring : Vring) (ndesc : Nat) : Vring :=
  match vq.hasEventIdx, vq.role with
  | true, .master => setVringUsedEvent ring (u16 (vq.usedConsIdx + ndesc))
  | true, .slave => setVringAvailEvent ring (u16 (vq.availableIdx + ndesc))
  | false, .master => { ring with availFlags := clearNoNotify ring.availFlags }
  | false, .slave => { ring with usedFlags := clearNoNotify ring.usedFlags }

/-- `vq_ring_enable_interrupt` after its fence: whether there is already more than the
threshold. -/
def enableInterruptRecheck (vq : Virtqueue) (ring : Vring) (ndesc : Nat) : Bool :=
  match vq.role with
  | .master => ndesc < virtqueueNused vq ring
  | .slave => ndesc < virtqueueNavail vq ring

/-- `virtqueue_enable_cb`. -/
def virtqueueEnableCb (vq : Virtqueue) (ring : Vring) : Bool × Vring :=
  let armed := enableInterruptStore vq ring 0
  (enableInterruptRecheck vq armed 0, armed)

/-- `virtqueue_disable_cb`. -/
def virtqueueDisableCb (vq : Virtqueue) (ring : Vring) : Vring :=
  match vq.hasEventIdx, vq.role with
  | true, .master => setVringUsedEvent ring (u16Sub (u16Sub vq.usedConsIdx vq.nentries) 1)
  | true, .slave => setVringAvailEvent ring (u16Sub (u16Sub vq.availableIdx vq.nentries) 1)
  | false, .master => { ring with availFlags := ring.availFlags ||| ringFNoNotify }
  | false, .slave => { ring with usedFlags := ring.usedFlags ||| ringFNoNotify }

/-! ## What the calls leave alone -/

/-- Posting a chain writes descriptors, one slot of the available ring, and what the
master keeps about descriptors. -/
theorem addBufferStore_shape {vq stored : Virtqueue} {ring filled : Vring}
    {bufList : List VirtqueueBuf} {readable writable cookie : Nat}
    (ran : addBufferStore vq ring bufList readable writable cookie = some (stored, filled)) :
    ∃ desc descx head free,
      filled = { ring with
        desc := desc
        availRing := Function.update ring.availRing (ring.availIdx &&& (vq.nentries - 1))
          vq.descHeadIdx } ∧
      stored = { vq with descx := descx, descHeadIdx := head, freeCnt := free } := by
  simp only [addBufferStore, vqRingAddBuffer, Option.bind_eq_bind, Option.bind_eq_some_iff,
    Option.map_eq_some_iff, Option.pure_def, Option.some.injEq, Prod.mk.injEq, Prod.exists]
    at ran
  obtain ⟨_, idx, ⟨desc, _, _, rfl, rfl⟩, rfl, rfl⟩ := ran
  exact ⟨desc, _, _, _, rfl, rfl⟩

/-- Freeing a chain writes descriptors and what the master keeps about them. -/
theorem vqRingFreeChain_shape {vq after : Virtqueue} {ring freed : Vring} {descIdx : Nat}
    (ran : vqRingFreeChain vq ring descIdx = some (after, freed)) :
    ∃ desc descx head free,
      freed = { ring with desc := desc } ∧
      after = { vq with descx := descx, descHeadIdx := head, freeCnt := free } := by
  unfold vqRingFreeChain at ran
  obtain ⟨_, result⟩ := Option.ite_none_right_eq_some.mp ran
  simp only [Option.bind_eq_bind, Option.pure_def] at result
  split at result
  · obtain ⟨⟨last, ndescs⟩, _, written⟩ := Option.bind_eq_some_iff.mp result
    obtain ⟨rfl, rfl⟩ := Prod.mk.inj (Option.some.inj written)
    exact ⟨_, _, _, _, rfl, rfl⟩
  · obtain ⟨rfl, rfl⟩ := Prod.mk.inj (Option.some.inj result)
    exact ⟨_, _, _, _, rfl, rfl⟩

/-- Taking a chain back also moves the master's place in the used ring. -/
theorem getBufferTake_shape {vq after : Virtqueue} {ring freed : Vring} {buffer : UsedBuffer}
    (ran : getBufferTake vq ring = some (buffer, after, freed)) :
    ∃ desc descx head free,
      freed = { ring with desc := desc } ∧
      after = { vq with
        usedConsIdx := u16 (vq.usedConsIdx + 1)
        descx := descx
        descHeadIdx := head
        freeCnt := free } := by
  unfold getBufferTake at ran
  simp only [Option.bind_eq_bind, Option.pure_def] at ran
  obtain ⟨⟨middle, memory⟩, chainFreed, result⟩ := Option.bind_eq_some_iff.mp ran
  obtain ⟨desc, descx, head, free, rfl, rfl⟩ := vqRingFreeChain_shape chainFreed
  obtain ⟨_, taken⟩ := Prod.mk.inj (Option.some.inj result)
  obtain ⟨rfl, rfl⟩ := Prod.mk.inj taken
  exact ⟨_, _, _, _, rfl, rfl⟩

/-- Two rings differ at most in their flags and in the entries behind their last slots. -/
structure SameData (before after : Vring) : Prop where
  num : after.num = before.num
  desc : after.desc = before.desc
  availIdx : after.availIdx = before.availIdx
  usedIdx : after.usedIdx = before.usedIdx
  availRing : ∀ idx < before.num, after.availRing idx = before.availRing idx
  usedRing : ∀ idx < before.num, after.usedRing idx = before.usedRing idx

/-- The event index of the master is not part of the data. -/
theorem setVringUsedEvent_sameData (ring : Vring) (event : Nat) :
    SameData ring (setVringUsedEvent ring event) := by
  refine ⟨rfl, rfl, rfl, rfl, ?_, fun _ _ => rfl⟩
  intro idx inside
  exact Function.update_of_ne (Nat.ne_of_lt inside) _ _

/-- Nor is that of the slave. -/
theorem setVringAvailEvent_sameData (ring : Vring) (event : Nat) :
    SameData ring (setVringAvailEvent ring event) := by
  refine ⟨rfl, rfl, rfl, rfl, fun _ _ => rfl, ?_⟩
  intro idx inside
  exact Function.update_of_ne (Nat.ne_of_lt inside) _ _

/-- Asking for notifications touches no descriptor, no index and no entry of a ring. -/
theorem enableInterruptStore_sameData (vq : Virtqueue) (ring : Vring) (ndesc : Nat) :
    SameData ring (enableInterruptStore vq ring ndesc) := by
  unfold enableInterruptStore
  cases vq.hasEventIdx with
  | true =>
    cases vq.role with
    | master => exact setVringUsedEvent_sameData ring _
    | slave => exact setVringAvailEvent_sameData ring _
  | false => cases vq.role <;> exact ⟨rfl, rfl, rfl, rfl, fun _ _ => rfl, fun _ _ => rfl⟩

/-- Neither does declining them. -/
theorem virtqueueDisableCb_sameData (vq : Virtqueue) (ring : Vring) :
    SameData ring (virtqueueDisableCb vq ring) := by
  unfold virtqueueDisableCb
  cases vq.hasEventIdx with
  | true =>
    cases vq.role with
    | master => exact setVringUsedEvent_sameData ring _
    | slave => exact setVringAvailEvent_sameData ring _
  | false => cases vq.role <;> exact ⟨rfl, rfl, rfl, rfl, fun _ _ => rfl, fun _ _ => rfl⟩

/-- `vring_need_event` is exact while the counts behind its arguments are within a word of
each other: it asks for an event exactly when the event index was passed by the move from
the old index to the new one. -/
theorem vringNeedEvent_iff (event old new : Nat) (past : event ≤ new) (near : new - event < 65536)
    (moved : old ≤ new) (short : new - old < 65536) :
    vringNeedEvent (event % 65536) (new % 65536) (old % 65536) = true ↔
      old ≤ event ∧ event < new := by
  have toEvent : u16Sub (new % 65536) (event % 65536) = new - event :=
    FreeRunning.distance_mod 65536 event new past near
  have toOld : u16Sub (new % 65536) (old % 65536) = new - old :=
    FreeRunning.distance_mod 65536 old new moved short
  rw [vringNeedEvent, decide_eq_true_eq, toEvent, toOld, u16Sub, FreeRunning.distance]
  omega

/-- Going back from an index by the entries queued behind it. -/
theorem u16Sub_queued (new queued : Nat) (earlier : queued ≤ new) (small : queued < 65536) :
    u16Sub (new % 65536) queued = (new - queued) % 65536 := by
  unfold u16Sub FreeRunning.distance
  omega

/-- The flag is out after it was cleared. -/
theorem clearNoNotify_clear (flags : Nat) : clearNoNotify flags &&& ringFNoNotify = 0 := by
  unfold clearNoNotify ringFNoNotify
  rw [Nat.and_one_is_mod, Nat.and_one_is_mod]
  omega

/-- What is written to `vring_avail_event` is read back. -/
theorem vringAvailEvent_set (ring : Vring) (event : Nat) (small : event < 65536) :
    vringAvailEvent (setVringAvailEvent ring event) = event := by
  simp only [vringAvailEvent, setVringAvailEvent, Function.update_self, u16]
  omega

/-- What is written to `vring_used_event` is read back. -/
theorem vringUsedEvent_set (ring : Vring) (event : Nat) :
    vringUsedEvent (setVringUsedEvent ring event) = event := by
  simp only [vringUsedEvent, setVringUsedEvent, Function.update_self]

/-! ## What the two chain loops do -/

/-- A small number is unchanged by the cut to 16 bits. -/
theorem u16_of_lt (value : Nat) (small : value < 65536) : u16 value = value :=
  Nat.mod_eq_of_lt small

/-- A difference of small numbers does not wrap. -/
theorem u16Sub_of_le (left right : Nat) (ordered : right ≤ left) (small : left < 65536) :
    u16Sub left right = left - right := by
  unfold u16Sub FreeRunning.distance
  omega

/-- A chain goes on after every buffer but the last. -/
theorem bufferFlags_next (needed readable position : Nat) :
    bufferFlags needed readable position &&& descFNext ≠ 0 ↔ position < needed - 1 := by
  unfold bufferFlags
  by_cases more : position < needed - 1 <;> by_cases writes : readable ≤ position <;>
    simp [more, writes, descFNext, descFWrite]

/-- No buffer is posted as an indirect one. -/
theorem bufferFlags_indirect (needed readable position : Nat) :
    bufferFlags needed readable position &&& descFIndirect = 0 := by
  unfold bufferFlags
  by_cases more : position < needed - 1 <;> by_cases writes : readable ≤ position <;>
    simp [more, writes, descFNext, descFWrite, descFIndirect]

/-- The descriptors from an index on describe the buffers, from a position of their
chain on. -/
def Posted (io : ShmIo) (needed readable : Nat) :
    List VirtqueueBuf → Nat → (Nat → VringDesc) → Nat → Prop
  | [], _, _, _ => True
  | entry :: rest, position, desc, idx =>
      (desc idx).addr = io.virtToPhys entry.buf ∧
      (desc idx).len = entry.len ∧
      (desc idx).flags = bufferFlags needed readable position ∧
      Posted io needed readable rest (position + 1) desc (links desc idx)

/-- Buffers stay posted while nothing writes to their descriptors. -/
theorem posted_frame (io : ShmIo) (needed readable : Nat) (bufs : List VirtqueueBuf)
    (position : Nat) (desc other : Nat → VringDesc) (idx : Nat)
    (agree : ∀ entry ∈ List.iterate (links desc) idx bufs.length, other entry = desc entry)
    (posted : Posted io needed readable bufs position desc idx) :
    Posted io needed readable bufs position other idx := by
  induction bufs generalizing position idx with
  | nil => trivial
  | cons entry rest ih =>
    rw [List.length_cons, List.iterate, List.forall_mem_cons] at agree
    obtain ⟨here, later⟩ := agree
    obtain ⟨addr, len, flags, tail⟩ := posted
    have same : links other idx = links desc idx := by rw [links, here, links]
    refine ⟨?_, ?_, ?_, ?_⟩
    · rw [here, addr]
    · rw [here, len]
    · rw [here, flags]
    · rw [same]
      exact ih (position + 1) (links desc idx) later tail

/-- Along a chain of distinct descriptors of the table, the loop of `vq_ring_add_buffer`
posts all buffers and returns what comes after them. It moves no link and writes to no
other descriptor. The induction is on the buffers still to be posted. -/
theorem addBufferLoop_spec (vq : Virtqueue) (num needed readable : Nat)
    (bufs : List VirtqueueBuf) (position : Nat) (desc : Nat → VringDesc) (idx : Nat)
    (inside : ∀ entry ∈ List.iterate (links desc) idx bufs.length, entry < num)
    (distinct : (List.iterate (links desc) idx bufs.length).Nodup) :
    ∃ filled,
      addBufferLoop vq num needed readable bufs position desc idx =
        some (filled, (links desc)^[bufs.length] idx) ∧
      links filled = links desc ∧
      (∀ entry, entry ∉ List.iterate (links desc) idx bufs.length →
        filled entry = desc entry) ∧
      Posted vq.shmIo needed readable bufs position filled idx := by
  induction bufs generalizing position desc idx with
  | nil => exact ⟨desc, rfl, rfl, fun _ _ => rfl, trivial⟩
  | cons entry rest ih =>
    rw [List.length_cons, List.iterate] at inside distinct
    obtain ⟨here, later⟩ := List.forall_mem_cons.mp inside
    obtain ⟨fresh, tailDistinct⟩ := List.nodup_cons.mp distinct
    let written : VringDesc :=
      { desc idx with
        addr := vq.shmIo.virtToPhys entry.buf
        len := entry.len
        flags := bufferFlags needed readable position }
    have sameLinks : links (Function.update desc idx written) = links desc := by
      funext other
      by_cases same : other = idx
      · subst same
        simp [links, written]
      · simp [links, same]
    obtain ⟨filled, ran, kept, frame, posted⟩ :=
      ih (position + 1) (Function.update desc idx written) (links desc idx)
        (by rw [sameLinks]; exact later) (by rw [sameLinks]; exact tailDistinct)
    rw [sameLinks] at ran kept frame
    have head : filled idx = written := by
      rw [frame idx fresh, Function.update_self]
    refine ⟨filled, ?_, kept, ?_, ?_⟩
    · rw [addBufferLoop, if_pos here]
      exact ran
    · intro other outside
      rw [List.length_cons, List.iterate, List.mem_cons, not_or] at outside
      rw [frame other outside.2, Function.update_of_ne outside.1]
    · refine ⟨by rw [head], by rw [head], by rw [head], ?_⟩
      have step : links filled idx = links desc idx := congrFun kept idx
      rw [step]
      exact posted

/-- On a posted chain the loop of `vq_ring_free_chain` stops at its last descriptor,
having counted every descriptor after the first. The induction is on the buffers after
the first. -/
theorem freeChainLoop_spec (io : ShmIo) (num needed readable : Nat) (entry : VirtqueueBuf)
    (rest : List VirtqueueBuf) (position : Nat) (desc : Nat → VringDesc) (idx fuel ndescs : Nat)
    (whole : position + (rest.length + 1) = needed) (enough : rest.length < fuel)
    (inside : ∀ entry ∈ List.iterate (links desc) idx (rest.length + 1), entry < num)
    (counted : rest.length ≤ ndescs) (small : ndescs < 65536)
    (posted : Posted io needed readable (entry :: rest) position desc idx) :
    freeChainLoop num desc fuel idx ndescs =
      some ((links desc)^[rest.length] idx, ndescs - rest.length) := by
  induction rest generalizing entry position idx fuel ndescs with
  | nil =>
    obtain ⟨turns, rfl⟩ := Nat.exists_eq_succ_of_ne_zero (Nat.ne_of_gt enough)
    obtain ⟨_, _, flags, _⟩ := posted
    have stops : ¬ (desc idx).flags &&& descFNext ≠ 0 := by
      rw [flags, bufferFlags_next]
      simp only [List.length_nil] at whole
      omega
    rw [freeChainLoop, if_neg stops]
    rfl
  | cons second rest ih =>
    rw [List.length_cons] at whole enough counted
    obtain ⟨turns, rfl⟩ := Nat.exists_eq_succ_of_ne_zero (Nat.ne_of_gt (Nat.zero_lt_of_lt enough))
    obtain ⟨_, _, flags, tail⟩ := posted
    rw [List.length_cons, List.iterate] at inside
    have later := (List.forall_mem_cons.mp inside).2
    have goes : (desc idx).flags &&& descFNext ≠ 0 := by
      rw [flags, bufferFlags_next]
      omega
    have nextInside : (desc idx).next < num := by
      refine later (links desc idx) ?_
      rw [List.iterate]
      exact List.mem_cons_self
    rw [freeChainLoop, if_pos goes, if_pos nextInside,
      u16Sub_of_le ndescs 1 (by omega) small]
    rw [show (desc idx).next = links desc idx from rfl,
      ih second (position + 1) (links desc idx) turns (ndescs - 1) (by omega) (by omega) later
        (by omega) (by omega) tail]
    rw [List.length_cons, Function.iterate_succ_apply]
    congr 2
    omega

end Stm32Ecu.Virtio
