import Stm32Ecu.Runs
import Stm32Ecu.VringOwnership

/-!
# Master and slave on one vring

The master posts chains of buffers and takes them back; the slave takes them, holds them
as long as it likes and returns them in any order. The two run on different processors.
A step of the system is what one of them does between two fences: the test of an index,
the reads behind it, the writes before an index is moved, and the move itself. The
steps of the two sides come in any order.

The callers do what the functions ask of them. The master posts a nonempty chain, its
readable buffers first, only where there are free descriptors for all of it; the slave
returns only what it holds. A ring has up to 2^15 descriptors.

The system also records what went over the calls: the chains posted, the buffers the
slave was handed, what it returned and what the master was handed back. A chain on its
way carries the number of the offer it was posted for, which no processor can see.
-/

namespace Stm32Ecu.Virtio

open Runs

/-- Where the master stands: between calls, before the move of `avail->idx`, behind the
test of `virtqueue_get_buffer`, or before the second look of `virtqueue_enable_cb`. -/
inductive MasterAt where
  | idle
  | publishing
  | reaping
  | arming
deriving DecidableEq

/-- Where the slave stands: between calls, behind the test of
`virtqueue_get_available_buffer`, before the move of `used->idx`, or before the second
look of `virtqueue_enable_cb`. -/
inductive SlaveAt where
  | idle
  | taking
  | publishing
  | arming
deriving DecidableEq

/-- The shared ring, the two control blocks, and the record of the calls. A side is
asleep from an `virtqueue_enable_cb` that found nothing until it is notified or goes on
by itself. -/
structure Transport where
  ring : Vring
  master : Virtqueue
  slave : Virtqueue
  masterAt : MasterAt
  slaveAt : SlaveAt
  masterAsleep : Bool
  slaveAsleep : Bool
  held : List Flight
  offered : List Offer
  taken : List AvailableBuffer
  consumed : List Consumed
  reclaimed : List UsedBuffer

/-- The steps of the two sides. -/
inductive TransportEvent where
  | addStore (offer : Offer)
  | addPublish
  | getPoll
  | getTake
  | masterKick
  | masterEnable
  | masterRecheck
  | masterDisable
  | availablePoll
  | availableTake
  | consumedStore (flight : Flight) (len : Nat)
  | consumedPublish
  | slaveKick
  | slaveEnable
  | slaveRecheck
  | slaveDisable
deriving DecidableEq

/-- Whether an event is a step of the master. -/
def TransportEvent.ofMaster : TransportEvent → Bool
  | .addStore _ => true
  | .addPublish => true
  | .getPoll => true
  | .getTake => true
  | .masterKick => true
  | .masterEnable => true
  | .masterRecheck => true
  | .masterDisable => true
  | _ => false

namespace Transport

/-- Both sides have created their virtqueue over a ring that the master has set up. -/
def initial (bits features : Nat) (masterIo slaveIo : ShmIo) : Transport where
  ring := Vring.created (2 ^ bits)
  master := virtqueueCreate .master features (2 ^ bits) masterIo
  slave := virtqueueCreate .slave features (2 ^ bits) slaveIo
  masterAt := .idle
  slaveAt := .idle
  masterAsleep := false
  slaveAsleep := false
  held := []
  offered := []
  taken := []
  consumed := []
  reclaimed := []

/-- The master's caller has a nonempty chain of buffers, its readable ones first, and
there are free descriptors for all of them. -/
def mayAdd (t : Transport) (offer : Offer) : Bool :=
  offer.bufs ≠ [] ∧ offer.readable ≤ offer.bufs.length ∧ offer.bufs.length ≤ t.master.freeCnt

/-- A step of the master. -/
def masterStep (t : Transport) : TransportEvent → Option Transport
  | .addStore offer =>
      if t.masterAt = .idle ∧ t.mayAdd offer then do
        let (master, ring) ← addBufferStore t.master t.ring offer.bufs offer.readable
          (offer.bufs.length - offer.readable) offer.cookie
        pure { t with master, ring, masterAt := .publishing, offered := t.offered ++ [offer] }
      else none
  | .addPublish =>
      if t.masterAt = .publishing then
        let (master, ring) := updateAvailPublish t.master t.ring
        some { t with master, ring, masterAt := .idle }
      else none
  | .getPoll =>
      if t.masterAt = .idle then
        some { t with masterAt := if hasUsed t.master t.ring then .reaping else .idle }
      else none
  | .getTake =>
      if t.masterAt = .reaping then do
        let (buffer, master, ring) ← getBufferTake t.master t.ring
        pure { t with
          master, ring, masterAt := .idle, masterAsleep := false,
          reclaimed := t.reclaimed ++ [buffer] }
      else none
  | .masterKick =>
      if t.masterAt = .idle then
        let (notified, master) := virtqueueKick t.master t.ring
        some { t with master, slaveAsleep := t.slaveAsleep && !notified }
      else none
  | .masterEnable =>
      if t.masterAt = .idle then
        some { t with
          ring := enableInterruptStore t.master t.ring 0
          masterAt := .arming
          masterAsleep := false }
      else none
  | .masterRecheck =>
      if t.masterAt = .arming then
        some { t with
          masterAt := .idle, masterAsleep := !enableInterruptRecheck t.master t.ring 0 }
      else none
  | .masterDisable =>
      if t.masterAt = .idle then
        some { t with ring := virtqueueDisableCb t.master t.ring, masterAsleep := false }
      else none
  | _ => none

/-- A step of the slave. -/
def slaveStep (t : Transport) : TransportEvent → Option Transport
  | .availablePoll =>
      if t.slaveAt = .idle then
        some { t with slaveAt := if hasAvailable t.slave t.ring then .taking else .idle }
      else none
  | .availableTake =>
      if t.slaveAt = .taking then do
        let (buffer, slave) ← getAvailableTake t.slave t.ring
        pure { t with
          slave, slaveAt := .idle, slaveAsleep := false,
          held := t.held ++ [⟨buffer.availIdx, t.taken.length⟩]
          taken := t.taken ++ [buffer] }
      else none
  | .consumedStore flight len =>
      -- the test of `virtqueue_add_consumed_buffer` comes before its writes
      if t.slaveAt = .idle ∧ flight ∈ t.held ∧ flight.head ≤ t.slave.nentries then
        some { t with
          ring := addConsumedStore t.slave t.ring flight.head len
          slaveAt := .publishing
          held := t.held.erase flight
          consumed := t.consumed ++ [⟨flight, len⟩] }
      else none
  | .consumedPublish =>
      if t.slaveAt = .publishing then
        let (slave, ring) := addConsumedPublish t.slave t.ring
        some { t with slave, ring, slaveAt := .idle }
      else none
  | .slaveKick =>
      if t.slaveAt = .idle then
        let (notified, slave) := virtqueueKick t.slave t.ring
        some { t with slave, masterAsleep := t.masterAsleep && !notified }
      else none
  | .slaveEnable =>
      if t.slaveAt = .idle then
        some { t with
          ring := enableInterruptStore t.slave t.ring 0
          slaveAt := .arming
          slaveAsleep := false }
      else none
  | .slaveRecheck =>
      if t.slaveAt = .arming then
        some { t with
          slaveAt := .idle, slaveAsleep := !enableInterruptRecheck t.slave t.ring 0 }
      else none
  | .slaveDisable =>
      if t.slaveAt = .idle then
        some { t with ring := virtqueueDisableCb t.slave t.ring, slaveAsleep := false }
      else none
  | _ => none

/-- One step of one side. -/
def step (t : Transport) (event : TransportEvent) : Option Transport :=
  if event.ofMaster then t.masterStep event else t.slaveStep event

/-! ## The steps of a call, one after another

When the other side takes no step in between, and nobody is in the middle of a call, the
steps of a call are the call. -/

section Alone

variable (t : Transport)

/-- The two steps of a post are `virtqueueAddBuffer`. -/
theorem addBuffer_alone (offer : Offer) (idle : t.masterAt = .idle) (may : t.mayAdd offer = true) :
    run step t [.addStore offer, .addPublish] =
      (virtqueueAddBuffer t.master t.ring offer.bufs offer.readable
        (offer.bufs.length - offer.readable) offer.cookie).map fun (master, ring) =>
          { t with master, ring, masterAt := .idle, offered := t.offered ++ [offer] } := by
  rw [virtqueueAddBuffer]
  cases stored : addBufferStore t.master t.ring offer.bufs offer.readable
    (offer.bufs.length - offer.readable) offer.cookie <;>
    simp [run, step, TransportEvent.ofMaster, masterStep, idle, may, stored]

/-- The look at the used index, and the take behind it, are `virtqueueGetBuffer`. -/
theorem getBuffer_alone (idle : t.masterAt = .idle) :
    run step t (.getPoll :: if hasUsed t.master t.ring then [.getTake] else []) =
      (virtqueueGetBuffer t.master t.ring).map fun (buffer, master, ring) =>
        { t with
          master, ring, masterAt := .idle, masterAsleep := t.masterAsleep && buffer.isNone
          reclaimed := t.reclaimed ++ buffer.toList } := by
  rw [virtqueueGetBuffer]
  cases visible : hasUsed t.master t.ring with
  | false =>
    simp [run, step, TransportEvent.ofMaster, masterStep, idle, visible]
  | true =>
    cases took : getBufferTake t.master t.ring <;>
      simp [run, step, TransportEvent.ofMaster, masterStep, idle, visible, took]

/-- The look at the available index, and the take behind it, are
`virtqueueGetAvailableBuffer`. -/
theorem getAvailableBuffer_alone (idle : t.slaveAt = .idle) :
    run step t (.availablePoll :: if hasAvailable t.slave t.ring then [.availableTake] else []) =
      (virtqueueGetAvailableBuffer t.slave t.ring).map fun (buffer, slave) =>
        { t with
          slave, slaveAt := .idle, slaveAsleep := t.slaveAsleep && buffer.isNone
          held := t.held ++ buffer.toList.map fun buffer => ⟨buffer.availIdx, t.taken.length⟩
          taken := t.taken ++ buffer.toList } := by
  rw [virtqueueGetAvailableBuffer]
  cases visible : hasAvailable t.slave t.ring with
  | false =>
    simp [run, step, TransportEvent.ofMaster, slaveStep, idle, visible]
  | true =>
    cases took : getAvailableTake t.slave t.ring <;>
      simp [run, step, TransportEvent.ofMaster, slaveStep, idle, visible, took]

/-- The two steps of a return are `virtqueueAddConsumedBuffer`, which refuses a head beyond the
table. -/
theorem addConsumedBuffer_alone (flight : Flight) (len : Nat) (idle : t.slaveAt = .idle)
    (holds : flight ∈ t.held) :
    run step t [.consumedStore flight len, .consumedPublish] =
      let (accepted, slave, ring) := virtqueueAddConsumedBuffer t.slave t.ring flight.head len
      if accepted then
        some { t with
          slave, ring, slaveAt := .idle, held := t.held.erase flight
          consumed := t.consumed ++ [⟨flight, len⟩] }
      else none := by
  rw [virtqueueAddConsumedBuffer]
  by_cases beyond : t.slave.nentries < flight.head
  · simp [run, step, TransportEvent.ofMaster, slaveStep, idle, holds, beyond]
  · have inside : flight.head ≤ t.slave.nentries := Nat.le_of_not_lt beyond
    simp [run, step, TransportEvent.ofMaster, slaveStep, idle, holds, inside, beyond,
      addConsumedPublish]

/-- Setting the event index and looking again are `virtqueueEnableCb`, for the master -/
theorem masterEnableCb_alone (idle : t.masterAt = .idle) :
    run step t [.masterEnable, .masterRecheck] =
      some { t with
        ring := (virtqueueEnableCb t.master t.ring).2
        masterAt := .idle
        masterAsleep := !(virtqueueEnableCb t.master t.ring).1 } := by
  simp [run, step, TransportEvent.ofMaster, masterStep, idle, virtqueueEnableCb]

/-- and for the slave. -/
theorem slaveEnableCb_alone (idle : t.slaveAt = .idle) :
    run step t [.slaveEnable, .slaveRecheck] =
      some { t with
        ring := (virtqueueEnableCb t.slave t.ring).2
        slaveAt := .idle
        slaveAsleep := !(virtqueueEnableCb t.slave t.ring).1 } := by
  simp [run, step, TransportEvent.ofMaster, slaveStep, idle, virtqueueEnableCb]

end Alone

/-! ## The invariant

The counters behind the indices are the lengths of the records. What the memory holds
does not depend on the indices or on where the two sides stand, so the invariant has
two parts, and a step that only moves an index or a side touches only the first. -/

/-- Offers stored but not yet visible to the slave. -/
def unpublished (t : Transport) : Nat := if t.masterAt = .publishing then 1 else 0

/-- Returned buffers stored but not yet visible to the master. -/
def unreturned (t : Transport) : Nat := if t.slaveAt = .publishing then 1 else 0

/-- The indices are the counts of what happened, and no side runs ahead of the other. -/
structure Counted (t : Transport) : Prop where
  availIdx : t.ring.availIdx = (t.offered.length - t.unpublished) % 65536
  availableIdx : t.slave.availableIdx = t.taken.length % 65536
  usedIdx : t.ring.usedIdx = (t.consumed.length - t.unreturned) % 65536
  usedConsIdx : t.master.usedConsIdx = t.reclaimed.length % 65536
  takenVisible : t.taken.length + t.unpublished ≤ t.offered.length
  reclaimedVisible : t.reclaimed.length + t.unreturned ≤ t.consumed.length
  taking : t.slaveAt = .taking → t.taken.length + t.unpublished < t.offered.length
  reaping : t.masterAt = .reaping → t.reclaimed.length + t.unreturned < t.consumed.length

/-- The chains in the available ring that the slave has not taken. -/
def availableFlights (t : Transport) : List Flight :=
  (List.range' t.taken.length (t.offered.length - t.taken.length)).map
    (fun serial => ⟨t.ring.availRing (serial % t.ring.num), serial⟩)

/-- The chains in the used ring that the master has not taken back. -/
def usedFlights (t : Transport) : List Flight :=
  (t.consumed.drop t.reclaimed.length).map (·.flight)

/-- All chains on their way: available, held by the slave, and used. -/
def flights (t : Transport) : List Flight := t.availableFlights ++ t.held ++ t.usedFlights

/-- The buffer the slave is shown of an offer: the first of its chain. -/
def shown (t : Transport) (offer : Offer) : Nat × Nat :=
  let first := offer.bufs.headD ⟨0, 0⟩
  (t.slave.shmIo.physToVirt (t.master.shmIo.virtToPhys first.buf), first.len)

/-- The table is shared out, the used ring holds what the slave returned, every buffer
taken is held or was returned, and both sides were handed what they should be. -/
structure Stored (bits : Nat) (t : Transport) : Prop where
  num : t.ring.num = 2 ^ bits
  masterEntries : t.master.nentries = 2 ^ bits
  slaveEntries : t.slave.nentries = 2 ^ bits
  owned : Owned t.ring.num t.ring.desc t.master t.offered t.flights
  used : FreeRunning.window t.ring.usedRing t.ring.num t.reclaimed.length t.consumed.length =
    (t.consumed.drop t.reclaimed.length).map (fun entry => ⟨entry.flight.head, entry.len⟩)
  serials : (t.consumed.map (·.flight.serial) ++ t.held.map (·.serial)).Perm
    (List.range t.taken.length)
  delivered : t.taken.map (fun buffer => (buffer.buffer, buffer.len)) =
    (t.offered.take t.taken.length).map t.shown
  returned : t.reclaimed.map (fun buffer => (buffer.cookie, buffer.len)) =
    (t.consumed.take t.reclaimed.length).map
      (fun entry => ((t.offered[entry.flight.serial]?).map (·.cookie), entry.len))

/-- Both parts together. -/
structure Inv (bits : Nat) (t : Transport) : Prop where
  counted : t.Counted
  stored : Stored bits t

section Initial

variable (bits features : Nat) (masterIo slaveIo : ShmIo)

/-- A fresh ring is in order. -/
theorem initial_inv : Inv bits (initial bits features masterIo slaveIo) where
  counted := by constructor <;> simp [initial, unpublished, unreturned, Vring.created,
    virtqueueCreate]
  stored :=
    { num := rfl
      masterEntries := rfl
      slaveEntries := rfl
      owned := Owned.created (2 ^ bits) features masterIo (Nat.two_pow_pos bits)
      used := rfl
      serials := List.Perm.refl _
      delivered := rfl
      returned := rfl }

end Initial

/-! ## What each step keeps -/

section Steps

variable {bits : Nat} {t : Transport}

/-- A masked index is the slot of the count behind it. -/
theorem masked (small : bits ≤ 15) (count entries : Nat) (size : entries = 2 ^ bits) :
    count % 65536 &&& (entries - 1) = count % 2 ^ bits := by
  rw [size]
  exact FreeRunning.mask_eq_slot bits 16 count (by omega)

/-- The ring has at most half as many entries as there are index values. -/
theorem num_le (small : bits ≤ 15) : 2 ^ bits ≤ 32768 :=
  Nat.pow_le_pow_right (by decide) small

/-- How many chains are on their way. -/
theorem flights_length (t : Transport) : t.flights.length =
    t.offered.length - t.taken.length + t.held.length +
      (t.consumed.length - t.reclaimed.length) := by
  simp [flights, availableFlights, usedFlights, Nat.add_assoc]

/-- The oldest available chain comes first. -/
theorem availableFlights_pop (some_left : t.taken.length < t.offered.length) :
    t.availableFlights =
      ⟨t.ring.availRing (t.taken.length % t.ring.num), t.taken.length⟩ ::
        (List.range' (t.taken.length + 1) (t.offered.length - (t.taken.length + 1))).map
          (fun serial => ⟨t.ring.availRing (serial % t.ring.num), serial⟩) := by
  have count : t.offered.length - t.taken.length =
      (t.offered.length - (t.taken.length + 1)) + 1 := by omega
  rw [availableFlights, count, List.range'_succ, List.map_cons]

/-- What the slave returned it had taken. -/
theorem Stored.serial_lt (stored : Stored bits t) {entry : Consumed}
    (member : entry ∈ t.consumed) : entry.flight.serial < t.taken.length := by
  have listed : entry.flight.serial ∈
      t.consumed.map (·.flight.serial) ++ t.held.map (·.serial) :=
    List.mem_append_left _ (List.mem_map.mpr ⟨entry, member, rfl⟩)
  exact List.mem_range.mp (stored.serials.mem_iff.mp listed)

/-- `virtqueue_add_buffer` up to its fence: it does not leave the table, and what it
posts is on its way from then on. -/
theorem addStore_spec (small : bits ≤ 15) (inv : Inv bits t) (offer : Offer)
    (idle : t.masterAt = .idle) (may : t.mayAdd offer = true) :
    ∃ next, t.step (.addStore offer) = some next ∧ Inv bits next := by
  obtain ⟨counted, stored⟩ := inv
  simp only [mayAdd, decide_eq_true_eq] at may
  obtain ⟨nonempty, ordered, fits⟩ := may
  have bound : t.ring.num ≤ 32768 := by
    rw [stored.num]
    exact num_le small
  have room := stored.owned.room
  rw [flights_length] at room
  have none_pending : t.unpublished = 0 := by simp [unpublished, idle]
  have visible := counted.takenVisible
  have posted : 0 < offer.bufs.length := List.length_pos_iff.mpr nonempty
  obtain ⟨filled, ran, owned⟩ :=
    stored.owned.addBufferStore bound offer nonempty ordered fits
  have slot : t.ring.availIdx &&& (t.master.nentries - 1) =
      t.offered.length % t.ring.num := by
    rw [counted.availIdx, none_pending, Nat.sub_zero,
      masked small _ _ stored.masterEntries, stored.num]
  rw [slot] at ran
  let ring : Vring :=
    { t.ring with
      desc := filled
      availRing := Function.update t.ring.availRing (t.offered.length % t.ring.num)
        t.master.descHeadIdx }
  let next : Transport :=
    { t with
      ring
      master := t.master.afterAdd t.ring.desc offer
      masterAt := .publishing
      offered := t.offered ++ [offer] }
  have sameAvailable : next.availableFlights =
      t.availableFlights ++ [⟨t.master.descHeadIdx, t.offered.length⟩] := by
    have count : (t.offered ++ [offer]).length - t.taken.length =
        t.offered.length - t.taken.length + 1 := by
      rw [List.length_append, List.length_singleton]
      omega
    have reach : t.taken.length + (t.offered.length - t.taken.length) = t.offered.length := by
      omega
    simp only [availableFlights, next, ring, count, List.range'_concat, List.map_append,
      List.map_singleton, Nat.one_mul, reach, Function.update_self]
    congr 1
    refine List.map_congr_left ?_
    intro serial member
    obtain ⟨_, upper⟩ := List.mem_range'_1.mp member
    rw [Function.update_of_ne]
    exact FreeRunning.mod_ne_of_lt _ _ _ (by omega) (by omega)
  have sameUsed : next.usedFlights = t.usedFlights := rfl
  refine ⟨next, ?_, ⟨?_, ?_⟩⟩
  · simp only [step, TransportEvent.ofMaster, masterStep, idle, mayAdd, nonempty, ordered, fits,
      ran, ne_eq, not_false_eq_true, and_self, decide_true, if_true, Option.bind_eq_bind,
      Option.bind_some, Option.pure_def]
    rfl
  · have pending : next.unpublished = 1 := by simp [unpublished, next]
    have length : next.offered.length = t.offered.length + 1 := by simp [next]
    refine ⟨?_, counted.availableIdx, counted.usedIdx, counted.usedConsIdx, ?_,
      counted.reclaimedVisible, ?_, ?_⟩
    · rw [pending, length, Nat.add_sub_cancel]
      simpa only [none_pending, Nat.sub_zero] using counted.availIdx
    · rw [pending, length]
      have same : next.taken = t.taken := rfl
      rw [same]
      omega
    · intro taking
      have before := counted.taking taking
      have same : next.taken = t.taken := rfl
      rw [pending, length, same]
      omega
    · intro reaping
      simp [next] at reaping
  · refine ⟨stored.num, stored.masterEntries, stored.slaveEntries, ?_, stored.used,
      stored.serials, ?_, ?_⟩
    · refine owned.perm ?_
      rw [flights, sameAvailable, sameUsed, flights]
      simp only [List.append_assoc]
      refine List.Perm.append_left _ ?_
      rw [← List.append_assoc t.held]
      exact List.perm_append_comm
    · have same : next.taken = t.taken := rfl
      rw [same, stored.delivered, show next.offered = t.offered ++ [offer] from rfl,
        List.take_append_of_le_length (by omega)]
      rfl
    · have same : next.reclaimed = t.reclaimed := rfl
      rw [same, stored.returned]
      refine List.map_congr_left ?_
      intro entry member
      have earlier := stored.serial_lt (List.mem_of_mem_take member)
      rw [show next.offered = t.offered ++ [offer] from rfl,
        List.getElem?_append_left (by omega)]

/-- `virtqueue_get_buffer` behind its test: there is a used entry to read, its chain is
in the table and ends, and the caller gets the cookie the chain was posted with. -/
theorem getTake_spec (small : bits ≤ 15) (inv : Inv bits t) (reaping : t.masterAt = .reaping) :
    ∃ next, t.step .getTake = some next ∧ Inv bits next := by
  obtain ⟨counted, stored⟩ := inv
  have bound : t.ring.num ≤ 32768 := by
    rw [stored.num]
    exact num_le small
  have some_left := counted.reaping reaping
  have inside : t.reclaimed.length < t.consumed.length := by omega
  have split := List.drop_eq_getElem_cons inside
  obtain ⟨entry, shape⟩ : ∃ entry, t.consumed[t.reclaimed.length] = entry := ⟨_, rfl⟩
  rw [shape] at split
  have window := stored.used
  rw [FreeRunning.window_pop _ _ _ _ inside, split, List.map_cons] at window
  obtain ⟨slotHolds, restHolds⟩ := List.cons.inj window
  have slot : t.master.usedConsIdx &&& (t.master.nentries - 1) =
      t.reclaimed.length % t.ring.num := by
    rw [counted.usedConsIdx, masked small _ _ stored.masterEntries, stored.num]
  have used : t.ring.usedRing (t.master.usedConsIdx &&& (t.master.nentries - 1)) =
      ⟨entry.flight.head, entry.len⟩ := by
    rw [slot]
    exact slotHolds
  have listed : t.flights =
      t.availableFlights ++ t.held ++
        entry.flight :: (t.consumed.drop (t.reclaimed.length + 1)).map (·.flight) := by
    rw [flights, usedFlights, split, List.map_cons]
  have inFront : (entry.flight :: (t.availableFlights ++ t.held ++
      (t.consumed.drop (t.reclaimed.length + 1)).map (·.flight))).Perm t.flights := by
    rw [listed]
    exact List.perm_middle.symm
  obtain ⟨offer, freed, found, ran, owned⟩ :=
    (stored.owned.perm inFront).getBufferTake bound used
  let buffer : UsedBuffer :=
    ⟨some offer.cookie, entry.len, t.master.usedConsIdx &&& (t.master.nentries - 1)⟩
  let next : Transport :=
    { t with
      ring := { t.ring with desc := freed }
      master := t.master.afterGet entry.flight.head offer.bufs.length
      masterAt := .idle
      masterAsleep := false
      reclaimed := t.reclaimed ++ [buffer] }
  have length : next.reclaimed.length = t.reclaimed.length + 1 := by simp [next]
  have noneBefore : t.unpublished = 0 := by simp [unpublished, reaping]
  have noneAfter : next.unpublished = 0 := by simp [unpublished, next]
  refine ⟨next, ?_, ⟨?_, ?_⟩⟩
  · simp only [step, TransportEvent.ofMaster, masterStep, reaping, ran, if_true,
      Option.bind_eq_bind, Option.bind_some, Option.pure_def]
    rfl
  · refine ⟨?_, counted.availableIdx, counted.usedIdx, ?_, ?_, ?_, ?_, ?_⟩
    · rw [noneAfter]
      simpa only [noneBefore] using counted.availIdx
    · rw [length]
      have moved : next.master.usedConsIdx = u16 (t.master.usedConsIdx + 1) := rfl
      rw [moved, counted.usedConsIdx, u16, FreeRunning.mod_succ]
    · rw [noneAfter]
      simpa only [noneBefore] using counted.takenVisible
    · rw [length, show next.unreturned = t.unreturned from rfl,
        show next.consumed = t.consumed from rfl]
      omega
    · intro taking
      rw [noneAfter]
      simpa only [noneBefore] using counted.taking taking
    · intro again
      simp [next] at again
  · refine ⟨stored.num, stored.masterEntries, stored.slaveEntries, ?_, ?_, stored.serials,
      stored.delivered, ?_⟩
    · have after : next.flights = t.availableFlights ++ t.held ++
          (t.consumed.drop (t.reclaimed.length + 1)).map (·.flight) := by
        rw [flights, usedFlights, length]
        rfl
      rw [after]
      exact owned
    · rw [length]
      exact restHolds
    · rw [length, show next.reclaimed = t.reclaimed ++ [buffer] from rfl, List.map_append,
        stored.returned, show next.consumed = t.consumed from rfl, List.take_add_one,
        List.map_append]
      congr 1
      rw [List.getElem?_eq_getElem inside, shape]
      simp [buffer, next, found]

/-- `virtqueue_get_available_buffer` behind its test: the head it reads is in the table,
and the buffer is the first one of the oldest offer not taken yet. -/
theorem availableTake_spec (small : bits ≤ 15) (inv : Inv bits t)
    (taking : t.slaveAt = .taking) :
    ∃ next, t.step .availableTake = some next ∧ Inv bits next := by
  obtain ⟨counted, stored⟩ := inv
  have some_left := counted.taking taking
  have inside : t.taken.length < t.offered.length := by omega
  have slot : t.slave.availableIdx &&& (t.slave.nentries - 1) =
      t.taken.length % t.ring.num := by
    rw [counted.availableIdx, masked small _ _ stored.slaveEntries, stored.num]
  have available := availableFlights_pop inside
  have onWay : (⟨t.ring.availRing (t.taken.length % t.ring.num), t.taken.length⟩ : Flight) ∈
      t.flights := by
    rw [flights, available]
    exact List.mem_append_left _ (List.mem_append_left _ List.mem_cons_self)
  have inTable := stored.owned.head_lt onWay
  obtain ⟨offer, found, nonempty, _, posted⟩ := stored.owned.carries _ onWay
  obtain ⟨first, more, shape⟩ := List.exists_cons_of_ne_nil nonempty
  rw [shape] at posted
  let head := t.ring.availRing (t.taken.length % t.ring.num)
  let buffer : AvailableBuffer :=
    ⟨t.slave.shmIo.physToVirt (t.ring.desc head).addr, head, (t.ring.desc head).len⟩
  let next : Transport :=
    { t with
      slave := { t.slave with availableIdx := u16 (t.slave.availableIdx + 1) }
      slaveAt := .idle
      slaveAsleep := false
      held := t.held ++ [⟨head, t.taken.length⟩]
      taken := t.taken ++ [buffer] }
  have length : next.taken.length = t.taken.length + 1 := by simp [next]
  have noneBefore : t.unreturned = 0 := by simp [unreturned, taking]
  have noneAfter : next.unreturned = 0 := by simp [unreturned, next]
  have shown : (buffer.buffer, buffer.len) = t.shown offer := by
    simp only [Transport.shown, shape, List.headD_cons, buffer]
    rw [posted.1, posted.2.1]
  refine ⟨next, ?_, ⟨?_, ?_⟩⟩
  · simp only [step, TransportEvent.ofMaster, slaveStep, taking, getAvailableTake, slot, inTable,
      if_true, Option.bind_eq_bind, Option.bind_some, Option.pure_def]
    rfl
  · refine ⟨counted.availIdx, ?_, ?_, counted.usedConsIdx, ?_, ?_, ?_, ?_⟩
    · rw [length]
      have moved : next.slave.availableIdx = u16 (t.slave.availableIdx + 1) := rfl
      rw [moved, counted.availableIdx, u16, FreeRunning.mod_succ]
    · rw [noneAfter]
      simpa only [noneBefore] using counted.usedIdx
    · rw [length, show next.unpublished = t.unpublished from rfl,
        show next.offered = t.offered from rfl]
      omega
    · rw [noneAfter]
      simpa only [noneBefore] using counted.reclaimedVisible
    · intro again
      simp [next] at again
    · intro reaping
      rw [noneAfter]
      simpa only [noneBefore] using counted.reaping reaping
  · refine ⟨stored.num, stored.masterEntries, stored.slaveEntries, ?_, stored.used, ?_, ?_,
      stored.returned⟩
    · refine stored.owned.perm ?_
      have rest : next.availableFlights =
          (List.range' (t.taken.length + 1) (t.offered.length - (t.taken.length + 1))).map
            (fun serial => ⟨t.ring.availRing (serial % t.ring.num), serial⟩) := by
        rw [availableFlights, length]
      rw [flights, rest, flights, available, show next.usedFlights = t.usedFlights from rfl,
        show next.held = t.held ++ [⟨head, t.taken.length⟩] from rfl]
      simp only [List.append_assoc, List.cons_append, List.nil_append]
      rw [← List.append_assoc]
      refine List.perm_middle.trans ?_
      rw [List.append_assoc]
    · rw [length, List.range_succ, show next.consumed = t.consumed from rfl,
        show next.held = t.held ++ [⟨head, t.taken.length⟩] from rfl, List.map_append,
        ← List.append_assoc]
      exact stored.serials.append_right _
    · rw [length, show next.taken = t.taken ++ [buffer] from rfl, List.map_append,
        stored.delivered, show next.offered = t.offered from rfl, List.take_add_one, found,
        List.map_append]
      simp only [List.map_singleton, Option.toList_some]
      rw [shown]
      rfl

/-- `virtqueue_add_consumed_buffer` up to its fence: a held head passes its test, and the
slot it writes holds nothing the master still has to read. -/
theorem consumedStore_spec (small : bits ≤ 15) (inv : Inv bits t) (flight : Flight) (len : Nat)
    (idle : t.slaveAt = .idle) (holds : flight ∈ t.held) :
    ∃ next, t.step (.consumedStore flight len) = some next ∧ Inv bits next := by
  obtain ⟨counted, stored⟩ := inv
  have onWay : flight ∈ t.flights :=
    List.mem_append_left _ (List.mem_append_right _ holds)
  have inTable := stored.owned.head_lt onWay
  have room := stored.owned.room
  rw [flights_length] at room
  have oneHeld : 0 < t.held.length := List.length_pos_of_mem holds
  have visible := counted.reclaimedVisible
  have noneBefore : t.unreturned = 0 := by simp [unreturned, idle]
  have slot : t.ring.usedIdx &&& (t.slave.nentries - 1) =
      t.consumed.length % t.ring.num := by
    rw [counted.usedIdx, noneBefore, Nat.sub_zero,
      masked small _ _ stored.slaveEntries, stored.num]
  let next : Transport :=
    { t with
      ring := addConsumedStore t.slave t.ring flight.head len
      slaveAt := .publishing
      held := t.held.erase flight
      consumed := t.consumed ++ [⟨flight, len⟩] }
  have length : next.consumed.length = t.consumed.length + 1 := by simp [next]
  have pending : next.unreturned = 1 := by simp [unreturned, next]
  have passes : flight.head ≤ t.slave.nentries := by
    rw [stored.slaveEntries, ← stored.num]
    exact Nat.le_of_lt inTable
  have dropped : next.consumed.drop next.reclaimed.length =
      t.consumed.drop t.reclaimed.length ++ [⟨flight, len⟩] := by
    rw [show next.consumed = t.consumed ++ [⟨flight, len⟩] from rfl,
      show next.reclaimed = t.reclaimed from rfl]
    exact List.drop_append_of_le_length (by omega)
  refine ⟨next, ?_, ⟨?_, ?_⟩⟩
  · simp only [step, TransportEvent.ofMaster, slaveStep, idle, holds, passes, and_self, if_true]
    rfl
  · refine ⟨counted.availIdx, counted.availableIdx, ?_, counted.usedConsIdx,
      counted.takenVisible, ?_, ?_, ?_⟩
    · rw [pending, length, Nat.add_sub_cancel, show next.ring.usedIdx = t.ring.usedIdx from rfl]
      simpa only [noneBefore, Nat.sub_zero] using counted.usedIdx
    · rw [pending, length, show next.reclaimed = t.reclaimed from rfl]
      omega
    · intro taking
      simp [next] at taking
    · intro reaping
      have before := counted.reaping reaping
      rw [pending, length, show next.reclaimed = t.reclaimed from rfl]
      omega
  · have swapped := List.perm_cons_erase holds
    refine ⟨stored.num, stored.masterEntries, stored.slaveEntries, ?_, ?_, ?_,
      stored.delivered, ?_⟩
    · refine stored.owned.perm ?_
      rw [flights, usedFlights, dropped, List.map_append, flights]
      simp only [List.append_assoc]
      refine List.Perm.append_left _ ?_
      refine List.Perm.trans ?_ (List.Perm.append_right _ swapped.symm)
      rw [← List.append_assoc]
      exact List.perm_append_comm
    · have table : next.ring.usedRing =
          Function.update t.ring.usedRing (t.consumed.length % t.ring.num)
            ⟨flight.head, len⟩ := by
        simp only [next, addConsumedStore, slot]
      rw [length, dropped, table, show next.ring.num = t.ring.num from rfl,
        show next.reclaimed = t.reclaimed from rfl,
        FreeRunning.window_succ _ _ _ _ (by omega),
        FreeRunning.window_update _ _ _ _ _ (by omega), stored.used, Function.update_self,
        List.map_append]
      rfl
    · rw [show next.consumed = t.consumed ++ [⟨flight, len⟩] from rfl,
        show next.held = t.held.erase flight from rfl, List.map_append, List.append_assoc]
      refine List.Perm.trans ?_ stored.serials
      refine List.Perm.append_left _ ?_
      exact (swapped.map _).symm
    · rw [show next.reclaimed = t.reclaimed from rfl, stored.returned,
        show next.consumed = t.consumed ++ [⟨flight, len⟩] from rfl,
        List.take_append_of_le_length (by omega)]

/-- What is stored does not depend on the indices, on where the two sides stand, on the
flags, or on the two event indices behind the rings. -/
theorem Stored.frame (stored : Stored bits t) {u : Transport}
    (sameNum : u.ring.num = t.ring.num) (sameDesc : u.ring.desc = t.ring.desc)
    (sameAvail : ∀ idx < t.ring.num, u.ring.availRing idx = t.ring.availRing idx)
    (sameUsed : ∀ idx < t.ring.num, u.ring.usedRing idx = t.ring.usedRing idx)
    (sameMaster : u.master = { t.master with queuedCnt := u.master.queuedCnt })
    (sameSlave : u.slave = { t.slave with queuedCnt := u.slave.queuedCnt })
    (sameHeld : u.held = t.held) (sameOffered : u.offered = t.offered)
    (sameTaken : u.taken = t.taken) (sameConsumed : u.consumed = t.consumed)
    (sameReclaimed : u.reclaimed = t.reclaimed) : Stored bits u := by
  have positive : 0 < t.ring.num := by
    rw [stored.num]
    exact Nat.two_pow_pos bits
  have sameFlights : u.flights = t.flights := by
    simp only [flights, availableFlights, usedFlights, sameHeld, sameOffered, sameTaken,
      sameConsumed, sameReclaimed, sameNum]
    congr 2
    refine List.map_congr_left ?_
    intro serial _
    rw [sameAvail _ (Nat.mod_lt _ positive)]
  have sameShown : u.shown = t.shown := by
    funext offer
    rw [shown, shown, sameMaster, sameSlave]
  refine ⟨?_, ?_, ?_, ?_, ?_, ?_, ?_, ?_⟩
  · rw [sameNum, stored.num]
  · rw [sameMaster]
    exact stored.masterEntries
  · rw [sameSlave]
    exact stored.slaveEntries
  · rw [sameNum, sameDesc, sameMaster, sameOffered, sameFlights]
    exact ⟨stored.owned.accounted, stored.owned.freeEnd, stored.owned.carries⟩
  · rw [sameNum, sameReclaimed, sameConsumed, ← stored.used]
    refine FreeRunning.window_congr _ _ _ _ _ ?_
    intro count _ _
    exact sameUsed _ (Nat.mod_lt _ positive)
  · rw [sameConsumed, sameHeld, sameTaken]
    exact stored.serials
  · rw [sameTaken, sameOffered, sameShown]
    exact stored.delivered
  · rw [sameReclaimed, sameConsumed, sameOffered]
    exact stored.returned

/-- A step that changes no more of the ring than notification does, and moves neither
side into or out of a call on buffers, keeps the invariant. -/
theorem Inv.notified (inv : Inv bits t) {u : Transport} (same : SameData t.ring u.ring)
    (sameMaster : u.master = { t.master with queuedCnt := u.master.queuedCnt })
    (sameSlave : u.slave = { t.slave with queuedCnt := u.slave.queuedCnt })
    (sameUnpublished : u.unpublished = t.unpublished)
    (sameUnreturned : u.unreturned = t.unreturned)
    (sameTaking : u.slaveAt = .taking → t.slaveAt = .taking)
    (sameReaping : u.masterAt = .reaping → t.masterAt = .reaping)
    (sameHeld : u.held = t.held) (sameOffered : u.offered = t.offered)
    (sameTaken : u.taken = t.taken) (sameConsumed : u.consumed = t.consumed)
    (sameReclaimed : u.reclaimed = t.reclaimed) : Inv bits u := by
  obtain ⟨counted, stored⟩ := inv
  refine ⟨⟨?_, ?_, ?_, ?_, ?_, ?_, ?_, ?_⟩, ?_⟩
  · rw [same.availIdx, sameOffered, sameUnpublished, counted.availIdx]
  · rw [sameSlave, sameTaken, ← counted.availableIdx]
  · rw [same.usedIdx, sameConsumed, sameUnreturned, counted.usedIdx]
  · rw [sameMaster, sameReclaimed, ← counted.usedConsIdx]
  · rw [sameTaken, sameUnpublished, sameOffered]
    exact counted.takenVisible
  · rw [sameReclaimed, sameUnreturned, sameConsumed]
    exact counted.reclaimedVisible
  · rw [sameTaken, sameUnpublished, sameOffered]
    exact fun taking => counted.taking (sameTaking taking)
  · rw [sameReclaimed, sameUnreturned, sameConsumed]
    exact fun reaping => counted.reaping (sameReaping reaping)
  · exact stored.frame same.num same.desc same.availRing same.usedRing sameMaster sameSlave
      sameHeld sameOffered sameTaken sameConsumed sameReclaimed

/-- The available index moves: one more offer is visible. -/
theorem addPublish_inv (inv : Inv bits t) (publishing : t.masterAt = .publishing)
    {u : Transport} (moved : u = { t with
      master := (updateAvailPublish t.master t.ring).1
      ring := (updateAvailPublish t.master t.ring).2
      masterAt := .idle }) : Inv bits u := by
  obtain ⟨counted, stored⟩ := inv
  have before : t.unpublished = 1 := by simp [unpublished, publishing]
  have after : u.unpublished = 0 := by simp [unpublished, moved]
  have visible := counted.takenVisible
  have offered : u.offered = t.offered := by rw [moved]
  have taken : u.taken = t.taken := by rw [moved]
  refine ⟨⟨?_, ?_, ?_, ?_, ?_, ?_, ?_, ?_⟩, ?_⟩
  · have index : u.ring.availIdx = u16 (t.ring.availIdx + 1) := by rw [moved]; rfl
    rw [index, counted.availIdx, u16, FreeRunning.mod_succ, after, offered, before]
    congr 1
    omega
  · rw [moved]
    exact counted.availableIdx
  · rw [moved]
    exact counted.usedIdx
  · rw [moved]
    exact counted.usedConsIdx
  · rw [after, offered, taken]
    omega
  · rw [moved]
    exact counted.reclaimedVisible
  · intro taking
    rw [after, offered, taken]
    omega
  · intro reaping
    simp [moved] at reaping
  · rw [moved]
    exact stored.frame rfl rfl (fun _ _ => rfl) (fun _ _ => rfl) rfl rfl rfl rfl rfl rfl rfl

/-- The used index moves: one more returned buffer is visible. -/
theorem consumedPublish_inv (inv : Inv bits t) (publishing : t.slaveAt = .publishing)
    {u : Transport} (moved : u = { t with
      slave := (addConsumedPublish t.slave t.ring).1
      ring := (addConsumedPublish t.slave t.ring).2
      slaveAt := .idle }) : Inv bits u := by
  obtain ⟨counted, stored⟩ := inv
  have before : t.unreturned = 1 := by simp [unreturned, publishing]
  have after : u.unreturned = 0 := by simp [unreturned, moved]
  have visible := counted.reclaimedVisible
  have consumed : u.consumed = t.consumed := by rw [moved]
  have reclaimed : u.reclaimed = t.reclaimed := by rw [moved]
  refine ⟨⟨?_, ?_, ?_, ?_, ?_, ?_, ?_, ?_⟩, ?_⟩
  · rw [moved]
    exact counted.availIdx
  · rw [moved]
    exact counted.availableIdx
  · have index : u.ring.usedIdx = u16 (t.ring.usedIdx + 1) := by rw [moved]; rfl
    rw [index, counted.usedIdx, u16, FreeRunning.mod_succ, after, consumed, before]
    congr 1
    omega
  · rw [moved]
    exact counted.usedConsIdx
  · rw [moved]
    exact counted.takenVisible
  · rw [after, consumed, reclaimed]
    omega
  · intro taking
    simp [moved] at taking
  · intro reaping
    rw [after, consumed, reclaimed]
    omega
  · rw [moved]
    exact stored.frame rfl rfl (fun _ _ => rfl) (fun _ _ => rfl) rfl rfl rfl rfl rfl rfl rfl

/-- The test of `virtqueue_get_available_buffer` is exact, across every wrap of the
indices. -/
theorem Inv.hasAvailable_iff (small : bits ≤ 15) (inv : Inv bits t) :
    hasAvailable t.slave t.ring = true ↔ t.taken.length + t.unpublished < t.offered.length := by
  obtain ⟨counted, stored⟩ := inv
  have room := stored.owned.room
  have bound := num_le small
  have visible := counted.takenVisible
  rw [flights_length, stored.num] at room
  have exactly := FreeRunning.mod_eq_iff 65536 t.taken.length
    (t.offered.length - t.unpublished) (by omega) (by omega)
  rw [hasAvailable, decide_eq_true_eq, counted.availableIdx, counted.availIdx, ne_eq, exactly]
  omega

/-- So is the test of `virtqueue_get_buffer`. -/
theorem Inv.hasUsed_iff (small : bits ≤ 15) (inv : Inv bits t) :
    hasUsed t.master t.ring = true ↔ t.reclaimed.length + t.unreturned < t.consumed.length := by
  obtain ⟨counted, stored⟩ := inv
  have room := stored.owned.room
  have bound := num_le small
  have visible := counted.reclaimedVisible
  rw [flights_length, stored.num] at room
  have exactly := FreeRunning.mod_eq_iff 65536 t.reclaimed.length
    (t.consumed.length - t.unreturned) (by omega) (by omega)
  rw [hasUsed, decide_eq_true_eq, counted.usedConsIdx, counted.usedIdx, ne_eq, exactly]
  omega

/-- The look of the master at the used index changes nothing in the ring. -/
theorem getPoll_inv (small : bits ≤ 15) (inv : Inv bits t) (idle : t.masterAt = .idle)
    {u : Transport}
    (moved : u = { t with masterAt := if hasUsed t.master t.ring then .reaping else .idle }) :
    Inv bits u := by
  have exactly := inv.hasUsed_iff small
  obtain ⟨counted, stored⟩ := inv
  have before : t.unpublished = 0 := by simp [unpublished, idle]
  have after : u.unpublished = 0 := by
    rw [moved, unpublished]
    by_cases found : hasUsed t.master t.ring = true <;> simp [found]
  refine ⟨⟨?_, ?_, ?_, ?_, ?_, ?_, ?_, ?_⟩, ?_⟩
  · rw [after, moved]
    simpa only [before] using counted.availIdx
  · rw [moved]
    exact counted.availableIdx
  · rw [moved]
    exact counted.usedIdx
  · rw [moved]
    exact counted.usedConsIdx
  · rw [after, moved]
    simpa only [before] using counted.takenVisible
  · rw [moved]
    exact counted.reclaimedVisible
  · rw [after, moved]
    simpa only [before] using counted.taking
  · intro reaping
    have found : hasUsed t.master t.ring = true := by
      by_contra nothing
      simp [moved, nothing] at reaping
    rw [moved]
    exact exactly.mp found
  · rw [moved]
    exact stored.frame rfl rfl (fun _ _ => rfl) (fun _ _ => rfl) rfl rfl rfl rfl rfl rfl rfl

/-- The look of the slave at the available index changes nothing in the ring. -/
theorem availablePoll_inv (small : bits ≤ 15) (inv : Inv bits t) (idle : t.slaveAt = .idle)
    {u : Transport}
    (moved : u = { t with slaveAt := if hasAvailable t.slave t.ring then .taking else .idle }) :
    Inv bits u := by
  have exactly := inv.hasAvailable_iff small
  obtain ⟨counted, stored⟩ := inv
  have before : t.unreturned = 0 := by simp [unreturned, idle]
  have after : u.unreturned = 0 := by
    rw [moved, unreturned]
    by_cases found : hasAvailable t.slave t.ring = true <;> simp [found]
  refine ⟨⟨?_, ?_, ?_, ?_, ?_, ?_, ?_, ?_⟩, ?_⟩
  · rw [moved]
    exact counted.availIdx
  · rw [moved]
    exact counted.availableIdx
  · rw [after, moved]
    simpa only [before] using counted.usedIdx
  · rw [moved]
    exact counted.usedConsIdx
  · rw [moved]
    exact counted.takenVisible
  · rw [after, moved]
    simpa only [before] using counted.reclaimedVisible
  · intro taking
    have found : hasAvailable t.slave t.ring = true := by
      by_contra nothing
      simp [moved, nothing] at taking
    rw [moved]
    exact exactly.mp found
  · rw [after, moved]
    simpa only [before] using counted.reaping
  · rw [moved]
    exact stored.frame rfl rfl (fun _ _ => rfl) (fun _ _ => rfl) rfl rfl rfl rfl rfl rfl rfl

/-- A step that is enabled has the result its description gives. -/
theorem of_spec {event : TransportEvent} {next : Transport}
    (spec : ∃ other, t.step event = some other ∧ Inv bits other)
    (taken : t.step event = some next) : Inv bits next := by
  obtain ⟨other, ran, holds⟩ := spec
  have same : other = next := Option.some.inj (ran.symm.trans taken)
  exact same ▸ holds

/-- Every step of the master keeps the invariant. -/
theorem masterStep_inv (small : bits ≤ 15) (event : TransportEvent) (next : Transport)
    (inv : Inv bits t) (taken : t.masterStep event = some next) : Inv bits next := by
  cases event with
  | addStore offer =>
    obtain ⟨⟨idle, may⟩, _⟩ := Option.ite_none_right_eq_some.mp taken
    exact of_spec (addStore_spec small inv offer idle may) taken
  | addPublish =>
    obtain ⟨publishing, result⟩ := Option.ite_none_right_eq_some.mp taken
    exact addPublish_inv inv publishing (Option.some.inj result).symm
  | getPoll =>
    obtain ⟨idle, result⟩ := Option.ite_none_right_eq_some.mp taken
    exact getPoll_inv small inv idle (Option.some.inj result).symm
  | getTake =>
    obtain ⟨reaping, _⟩ := Option.ite_none_right_eq_some.mp taken
    exact of_spec (getTake_spec small inv reaping) taken
  | masterKick =>
    obtain ⟨idle, result⟩ := Option.ite_none_right_eq_some.mp taken
    obtain rfl := Option.some.inj result
    exact inv.notified ⟨rfl, rfl, rfl, rfl, fun _ _ => rfl, fun _ _ => rfl⟩ rfl rfl rfl rfl
      id id rfl rfl rfl rfl rfl
  | masterEnable =>
    obtain ⟨idle, result⟩ := Option.ite_none_right_eq_some.mp taken
    obtain rfl := Option.some.inj result
    exact inv.notified (enableInterruptStore_sameData _ _ _) rfl rfl
      (by simp [unpublished, idle]) rfl id (by simp) rfl rfl rfl rfl rfl
  | masterRecheck =>
    obtain ⟨arming, result⟩ := Option.ite_none_right_eq_some.mp taken
    obtain rfl := Option.some.inj result
    exact inv.notified ⟨rfl, rfl, rfl, rfl, fun _ _ => rfl, fun _ _ => rfl⟩ rfl rfl
      (by simp [unpublished, arming]) rfl id (by simp) rfl rfl rfl rfl rfl
  | masterDisable =>
    obtain ⟨idle, result⟩ := Option.ite_none_right_eq_some.mp taken
    obtain rfl := Option.some.inj result
    exact inv.notified (virtqueueDisableCb_sameData _ _) rfl rfl rfl rfl id id rfl rfl rfl rfl rfl
  | _ => cases taken

/-- Every step of the slave keeps the invariant. -/
theorem slaveStep_inv (small : bits ≤ 15) (event : TransportEvent) (next : Transport)
    (inv : Inv bits t) (taken : t.slaveStep event = some next) : Inv bits next := by
  cases event with
  | availablePoll =>
    obtain ⟨idle, result⟩ := Option.ite_none_right_eq_some.mp taken
    exact availablePoll_inv small inv idle (Option.some.inj result).symm
  | availableTake =>
    obtain ⟨taking, _⟩ := Option.ite_none_right_eq_some.mp taken
    exact of_spec (availableTake_spec small inv taking) taken
  | consumedStore flight len =>
    obtain ⟨⟨idle, holds, _⟩, _⟩ := Option.ite_none_right_eq_some.mp taken
    exact of_spec (consumedStore_spec small inv flight len idle holds) taken
  | consumedPublish =>
    obtain ⟨publishing, result⟩ := Option.ite_none_right_eq_some.mp taken
    exact consumedPublish_inv inv publishing (Option.some.inj result).symm
  | slaveKick =>
    obtain ⟨idle, result⟩ := Option.ite_none_right_eq_some.mp taken
    obtain rfl := Option.some.inj result
    exact inv.notified ⟨rfl, rfl, rfl, rfl, fun _ _ => rfl, fun _ _ => rfl⟩ rfl rfl rfl rfl
      id id rfl rfl rfl rfl rfl
  | slaveEnable =>
    obtain ⟨idle, result⟩ := Option.ite_none_right_eq_some.mp taken
    obtain rfl := Option.some.inj result
    exact inv.notified (enableInterruptStore_sameData _ _ _) rfl rfl rfl
      (by simp [unreturned, idle]) (by simp) id rfl rfl rfl rfl rfl
  | slaveRecheck =>
    obtain ⟨arming, result⟩ := Option.ite_none_right_eq_some.mp taken
    obtain rfl := Option.some.inj result
    exact inv.notified ⟨rfl, rfl, rfl, rfl, fun _ _ => rfl, fun _ _ => rfl⟩ rfl rfl rfl
      (by simp [unreturned, arming]) (by simp) id rfl rfl rfl rfl rfl
  | slaveDisable =>
    obtain ⟨idle, result⟩ := Option.ite_none_right_eq_some.mp taken
    obtain rfl := Option.some.inj result
    exact inv.notified (virtqueueDisableCb_sameData _ _) rfl rfl rfl rfl id id rfl rfl rfl rfl rfl
  | _ => cases taken

/-- So does every step of either side. -/
theorem step_inv (small : bits ≤ 15) (event : TransportEvent) (next : Transport)
    (inv : Inv bits t) (taken : t.step event = some next) : Inv bits next := by
  unfold step at taken
  by_cases ofMaster : event.ofMaster = true
  · rw [if_pos ofMaster] at taken
    exact masterStep_inv small event next inv taken
  · rw [if_neg ofMaster] at taken
    exact slaveStep_inv small event next inv taken

end Steps

/-! ## Every run -/

section Runs

variable (bits features : Nat) (masterIo slaveIo : ShmIo) (events : List TransportEvent)
  (t : Transport)

/-- Every run keeps the ring in order. -/
theorem run_inv (small : bits ≤ 15)
    (ran : run step (initial bits features masterIo slaveIo) events = some t) : Inv bits t :=
  invariant_run step (fun _ _ => True) (Inv bits)
    (fun _ event next inv _ taken => step_inv small event next inv taken)
    _ t events (initial_inv bits features masterIo slaveIo)
    (along_of_forall _ _ _ _ (fun _ _ _ => trivial)) ran

/-- Offers on their way are those not handed back yet. -/
theorem Inv.onWay_count {bits : Nat} {t : Transport} (inv : Inv bits t) :
    t.flights.length + t.reclaimed.length = t.offered.length := by
  have total := inv.stored.serials.length_eq
  have taken := inv.counted.takenVisible
  have reclaimed := inv.counted.reclaimedVisible
  rw [List.length_append, List.length_map, List.length_map, List.length_range] at total
  rw [flights_length]
  omega

/-- On a ring of up to 2^15 descriptors, with a master that posts only chains that fit the
free ones and a slave that returns only what it holds: in every reachable state each
descriptor of the table is on the free chain or on the chain of one head that is
available, held by the slave or used, and it is so once. The free chain is ended by
`VQ_RING_DESC_CHAIN_END`, which is the head exactly when nothing is free; and everything
is free exactly when every offer was handed back. -/
theorem descriptors_shared_out (small : bits ≤ 15)
    (ran : run step (initial bits features masterIo slaveIo) events = some t) :
    (freeChain t.ring.desc t.master ++
        (t.availableFlights ++ t.held ++ t.usedFlights).flatMap
          (chainOf t.ring.desc t.master)).Perm (List.range (2 ^ bits)) ∧
      (links t.ring.desc)^[t.master.freeCnt] t.master.descHeadIdx = descChainEnd ∧
      (t.master.descHeadIdx = descChainEnd ↔ t.master.freeCnt = 0) ∧
      (t.master.freeCnt = t.master.nentries ↔ t.reclaimed.length = t.offered.length) := by
  have inv := run_inv bits features masterIo slaveIo events t small ran
  have stored := inv.stored
  have owned := stored.owned
  have accounted := owned.accounted
  rw [stored.num] at accounted
  have bound := num_le small
  refine ⟨accounted, owned.freeEnd, ?_, ?_⟩
  · constructor
    · intro ended
      by_contra some_free
      obtain ⟨count, positive⟩ := Nat.exists_eq_succ_of_ne_zero some_free
      have first : t.master.descHeadIdx ∈ freeChain t.ring.desc t.master := by
        rw [freeChain, positive, List.iterate]
        exact List.mem_cons_self
      have inTable := owned.free_lt _ first
      rw [ended, stored.num, descChainEnd] at inTable
      omega
    · intro nothing
      have ended := owned.freeEnd
      rw [nothing] at ended
      exact ended
  · have count := inv.onWay_count
    have room := owned.room
    have total := accounted.length_eq
    rw [List.length_append, List.length_range, freeChain, List.length_iterate] at total
    rw [stored.masterEntries]
    rw [stored.num] at room
    constructor
    · intro all
      omega
    · intro back
      have none_onWay : t.flights = [] := List.length_eq_zero_iff.mp (by omega)
      rw [none_onWay, List.flatMap_nil, List.length_nil] at total
      omega

/-- A run on a ring of two descriptors that uses both, hands them back and reuses one. -/
def sampleRun : List TransportEvent :=
  [.addStore ⟨[⟨16, 512⟩], 1, 7⟩, .addPublish, .addStore ⟨[⟨32, 512⟩], 1, 8⟩, .addPublish,
    .availablePoll, .availableTake, .availablePoll, .availableTake,
    .consumedStore ⟨1, 1⟩ 20, .consumedPublish, .getPoll, .getTake,
    .addStore ⟨[⟨48, 512⟩], 0, 9⟩, .addPublish]

/-- The descriptors of a ring of two, in the middle of a run. -/
theorem descriptors_shared_out_sample :
    ∃ t, run step (initial 1 0 ⟨id, id⟩ ⟨id, id⟩) sampleRun = some t ∧
      (freeChain t.ring.desc t.master ++
        (t.availableFlights ++ t.held ++ t.usedFlights).flatMap
          (chainOf t.ring.desc t.master)).Perm (List.range (2 ^ 1)) :=
  have enabled : (run step (initial 1 0 ⟨id, id⟩ ⟨id, id⟩) sampleRun).isSome = true := by decide
  ⟨_, (Option.some_get enabled).symm,
    (descriptors_shared_out 1 0 ⟨id, id⟩ ⟨id, id⟩ sampleRun _ (by decide)
      (Option.some_get enabled).symm).1⟩

/-- Under the same conditions the slave has been handed the buffers in the order in which
they were offered, with their lengths, and none the master has not made visible; each
taken buffer is held or was returned, and once; and the master has been handed back, in
the order of return, the cookie of the offer each returned buffer was posted for, with
the length the slave gave. -/
theorem buffers_handed_over (small : bits ≤ 15)
    (ran : run step (initial bits features masterIo slaveIo) events = some t) :
    t.taken.map (fun buffer => (buffer.buffer, buffer.len)) =
        (t.offered.take t.taken.length).map t.shown ∧
      t.taken.length + t.unpublished ≤ t.offered.length ∧
      (t.consumed.map (·.flight.serial) ++ t.held.map (·.serial)).Perm
        (List.range t.taken.length) ∧
      t.reclaimed.map (fun buffer => (buffer.cookie, buffer.len)) =
        (t.consumed.take t.reclaimed.length).map
          (fun entry => ((t.offered[entry.flight.serial]?).map (·.cookie), entry.len)) ∧
      t.reclaimed.length + t.unreturned ≤ t.consumed.length := by
  obtain ⟨counted, stored⟩ := run_inv bits features masterIo slaveIo events t small ran
  exact ⟨stored.delivered, counted.takenVisible, stored.serials, stored.returned,
    counted.reclaimedVisible⟩

/-- What came back in the same run, with its cookies and lengths. -/
theorem buffers_handed_over_sample :
    ∃ t, run step (initial 1 0 ⟨id, id⟩ ⟨id, id⟩) sampleRun = some t ∧
      t.reclaimed.map (fun buffer => (buffer.cookie, buffer.len)) =
        (t.consumed.take t.reclaimed.length).map
          (fun entry => ((t.offered[entry.flight.serial]?).map (·.cookie), entry.len)) :=
  have enabled : (run step (initial 1 0 ⟨id, id⟩ ⟨id, id⟩) sampleRun).isSome = true := by decide
  ⟨_, (Option.some_get enabled).symm,
    (buffers_handed_over 1 0 ⟨id, id⟩ ⟨id, id⟩ sampleRun _ (by decide)
      (Option.some_get enabled).symm).2.2.2.1⟩

/-- In no state reached under these conditions does a call leave the table or walk without
end: whatever is started can be finished, a master with enough free descriptors can post
a chain, and a slave can return any buffer it holds. The tests that guard the calls are
exact, whatever the indices have wrapped to. -/
theorem calls_stay_inside (small : bits ≤ 15)
    (ran : run step (initial bits features masterIo slaveIo) events = some t) :
    (∀ offer, t.masterAt = .idle → t.mayAdd offer = true →
        (t.step (.addStore offer)).isSome) ∧
      (t.masterAt = .reaping → (t.step .getTake).isSome) ∧
      (t.slaveAt = .taking → (t.step .availableTake).isSome) ∧
      (∀ flight ∈ t.held, ∀ len, t.slaveAt = .idle →
        (t.step (.consumedStore flight len)).isSome) ∧
      (hasAvailable t.slave t.ring = true ↔
        t.taken.length + t.unpublished < t.offered.length) ∧
      (hasUsed t.master t.ring = true ↔
        t.reclaimed.length + t.unreturned < t.consumed.length) := by
  have inv := run_inv bits features masterIo slaveIo events t small ran
  refine ⟨?_, ?_, ?_, ?_, inv.hasAvailable_iff small, inv.hasUsed_iff small⟩
  · intro offer idle may
    obtain ⟨next, taken, _⟩ := addStore_spec small inv offer idle may
    rw [taken]
    rfl
  · intro reaping
    obtain ⟨next, taken, _⟩ := getTake_spec small inv reaping
    rw [taken]
    rfl
  · intro taking
    obtain ⟨next, taken, _⟩ := availableTake_spec small inv taking
    rw [taken]
    rfl
  · intro flight holds len idle
    obtain ⟨next, taken, _⟩ := consumedStore_spec small inv flight len idle holds
    rw [taken]
    rfl

/-- The slave sees that there is nothing to take there. -/
theorem calls_stay_inside_sample :
    ∃ t, run step (initial 1 0 ⟨id, id⟩ ⟨id, id⟩) sampleRun = some t ∧
      (hasAvailable t.slave t.ring = true ↔
        t.taken.length + t.unpublished < t.offered.length) :=
  have enabled : (run step (initial 1 0 ⟨id, id⟩ ⟨id, id⟩) sampleRun).isSome = true := by decide
  ⟨_, (Option.some_get enabled).symm,
    (calls_stay_inside 1 0 ⟨id, id⟩ ⟨id, id⟩ sampleRun _ (by decide)
      (Option.some_get enabled).symm).2.2.2.2.1⟩

end Runs

end Transport

end Stm32Ecu.Virtio
