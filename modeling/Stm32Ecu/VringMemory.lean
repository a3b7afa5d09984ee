import Stm32Ecu.VringTransport

/-!
# What is in the buffers

The buffers are memory that both processors reach. The vring says who may touch one: the
master from the moment it is handed back until it is posted again, the slave from the
moment it takes it until it returns it, and nobody in between. The master has its buffers
from a pool whose addresses are all different; it posts one buffer at a time, with the
buffer itself as the cookie.

Nothing is assumed about what a buffer holds. What the slave finds in a buffer is what
the master left there, and the master finds what the slave left, although the buffers
are reused and the slave may keep some of them for long.
-/

namespace Stm32Ecu.Virtio

open Runs

/-! ## What a step puts on record -/

/-- The records of the calls, without the memory behind them. -/
structure Records where
  offered : List Offer
  taken : List AvailableBuffer
  held : List Flight
  consumed : List Consumed
  reclaimed : List UsedBuffer

namespace Transport

/-- The records of a transport. -/
def records (t : Transport) : Records := ⟨t.offered, t.taken, t.held, t.consumed, t.reclaimed⟩

/-- The two maps between the address spaces, which no step changes. -/
def maps (t : Transport) : ShmIo × ShmIo := (t.master.shmIo, t.slave.shmIo)

/-- Whether an event adds nothing to the records. -/
def silent : TransportEvent → Bool
  | .addStore _ => false
  | .getTake => false
  | .availableTake => false
  | .consumedStore _ _ => false
  | _ => true

/-- What the step of an event does to the records. -/
inductive Recorded (t u : Transport) : TransportEvent → Prop where
  | offered (offer : Offer)
      (records : u.records = { t.records with offered := t.offered ++ [offer] }) :
      Recorded t u (.addStore offer)
  | taken (buffer : AvailableBuffer)
      (records : u.records = { t.records with
        taken := t.taken ++ [buffer]
        held := t.held ++ [⟨buffer.availIdx, t.taken.length⟩] }) :
      Recorded t u .availableTake
  | consumed (flight : Flight) (len : Nat) (holds : flight ∈ t.held)
      (records : u.records = { t.records with
        held := t.held.erase flight
        consumed := t.consumed ++ [⟨flight, len⟩] }) :
      Recorded t u (.consumedStore flight len)
  | reclaimed (buffer : UsedBuffer)
      (records : u.records = { t.records with reclaimed := t.reclaimed ++ [buffer] }) :
      Recorded t u .getTake
  | nothing (event : TransportEvent) (quiet : silent event = true)
      (records : u.records = t.records) : Recorded t u event

section Recorded

variable {t u : Transport} {event : TransportEvent}

/-- What a step of the master records. -/
theorem masterStep_recorded (taken : t.masterStep event = some u) :
    Recorded t u event ∧ u.maps = t.maps := by
  cases event with
  | addStore offer =>
    obtain ⟨_, rest⟩ := Option.ite_none_right_eq_some.mp taken
    obtain ⟨⟨master, ring⟩, ran, result⟩ := Option.bind_eq_some_iff.mp rest
    obtain ⟨desc, descx, head, free, rfl, rfl⟩ := addBufferStore_shape ran
    obtain rfl := Option.some.inj result
    exact ⟨.offered offer rfl, rfl⟩
  | getTake =>
    obtain ⟨_, rest⟩ := Option.ite_none_right_eq_some.mp taken
    obtain ⟨⟨buffer, master, ring⟩, ran, result⟩ := Option.bind_eq_some_iff.mp rest
    obtain ⟨desc, descx, head, free, rfl, rfl⟩ := getBufferTake_shape ran
    obtain rfl := Option.some.inj result
    exact ⟨.reclaimed buffer rfl, rfl⟩
  | addPublish | getPoll | masterKick | masterEnable | masterRecheck | masterDisable =>
    obtain ⟨_, result⟩ := Option.ite_none_right_eq_some.mp taken
    obtain rfl := Option.some.inj result
    exact ⟨.nothing _ rfl rfl, rfl⟩
  | _ => cases taken

/-- What a step of the slave records. -/
theorem slaveStep_recorded (taken : t.slaveStep event = some u) :
    Recorded t u event ∧ u.maps = t.maps := by
  cases event with
  | availableTake =>
    obtain ⟨_, rest⟩ := Option.ite_none_right_eq_some.mp taken
    obtain ⟨⟨buffer, slave⟩, ran, result⟩ := Option.bind_eq_some_iff.mp rest
    obtain ⟨_, found⟩ := Option.ite_none_right_eq_some.mp ran
    obtain ⟨rfl, rfl⟩ := Prod.mk.inj (Option.some.inj found)
    obtain rfl := Option.some.inj result
    exact ⟨.taken _ rfl, rfl⟩
  | consumedStore flight len =>
    obtain ⟨⟨_, holds, _⟩, result⟩ := Option.ite_none_right_eq_some.mp taken
    obtain rfl := Option.some.inj result
    exact ⟨.consumed flight len holds rfl, rfl⟩
  | availablePoll | consumedPublish | slaveKick | slaveEnable | slaveRecheck | slaveDisable =>
    obtain ⟨_, result⟩ := Option.ite_none_right_eq_some.mp taken
    obtain rfl := Option.some.inj result
    exact ⟨.nothing _ rfl rfl, rfl⟩
  | _ => cases taken

/-- A step of the master leaves the slave where it stands. -/
theorem masterStep_slaveAt (taken : t.masterStep event = some u) : u.slaveAt = t.slaveAt := by
  cases event with
  | addStore offer =>
    obtain ⟨_, rest⟩ := Option.ite_none_right_eq_some.mp taken
    obtain ⟨_, _, result⟩ := Option.bind_eq_some_iff.mp rest
    obtain rfl := Option.some.inj result
    rfl
  | getTake =>
    obtain ⟨_, rest⟩ := Option.ite_none_right_eq_some.mp taken
    obtain ⟨_, _, result⟩ := Option.bind_eq_some_iff.mp rest
    obtain rfl := Option.some.inj result
    rfl
  | addPublish | getPoll | masterKick | masterEnable | masterRecheck | masterDisable =>
    obtain ⟨_, result⟩ := Option.ite_none_right_eq_some.mp taken
    obtain rfl := Option.some.inj result
    rfl
  | _ => cases taken

/-- A step of the slave leaves the master where it stands. -/
theorem slaveStep_masterAt (taken : t.slaveStep event = some u) : u.masterAt = t.masterAt := by
  cases event with
  | availableTake =>
    obtain ⟨_, rest⟩ := Option.ite_none_right_eq_some.mp taken
    obtain ⟨_, _, result⟩ := Option.bind_eq_some_iff.mp rest
    obtain rfl := Option.some.inj result
    rfl
  | consumedStore flight len =>
    obtain ⟨_, result⟩ := Option.ite_none_right_eq_some.mp taken
    obtain rfl := Option.some.inj result
    rfl
  | availablePoll | consumedPublish | slaveKick | slaveEnable | slaveRecheck | slaveDisable =>
    obtain ⟨_, result⟩ := Option.ite_none_right_eq_some.mp taken
    obtain rfl := Option.some.inj result
    rfl
  | _ => cases taken

/-- The steps of the slave are those that are not the master's. -/
theorem step_slave (ofSlave : event.ofMaster = false) (taken : t.step event = some u) :
    t.slaveStep event = some u := by
  rw [step, ofSlave] at taken
  exact taken

/-- A step does to the records what its event says. -/
theorem step_recorded (taken : t.step event = some u) : Recorded t u event ∧ u.maps = t.maps := by
  unfold step at taken
  by_cases ofMaster : event.ofMaster = true
  · rw [if_pos ofMaster] at taken
    exact masterStep_recorded taken
  · rw [if_neg ofMaster] at taken
    exact slaveStep_recorded taken

end Recorded

/-! ## Taking everything back

The master can always end the call that it is in, and then take back what the slave has
returned, one buffer after the other. -/

/-- Whether the master ends a call or takes a buffer back with a step. -/
def collecting : TransportEvent → Bool
  | .addPublish => true
  | .getPoll => true
  | .getTake => true
  | .masterRecheck => true
  | _ => false

/-- The master gets from one state to the other with such steps. -/
def Collects (t u : Transport) : Prop :=
  ∃ events, (∀ event ∈ events, collecting event = true) ∧ run step t events = some u

section Collecting

variable {bits : Nat} {t u v : Transport} {event : TransportEvent}

/-- Such a step is one of the master. -/
theorem ofMaster_of_collecting (back : collecting event = true) : event.ofMaster = true := by
  cases event <;> first | rfl | cases back

/-- Such a step leaves the slave and what it returned. -/
theorem collecting_frame (back : collecting event = true) (taken : t.step event = some u) :
    u.slaveAt = t.slaveAt ∧ u.consumed = t.consumed := by
  have standing : u.slaveAt = t.slaveAt := by
    rw [step, if_pos (ofMaster_of_collecting back)] at taken
    exact masterStep_slaveAt taken
  refine ⟨standing, ?_⟩
  cases (step_recorded taken).1 with
  | reclaimed buffer records =>
    simp only [Transport.records, Records.mk.injEq] at records
    exact records.2.2.2.1
  | nothing event quiet records =>
    simp only [Transport.records, Records.mk.injEq] at records
    exact records.2.2.2.1
  | _ => cases back

/-- Standing still collects nothing. -/
theorem Collects.refl (t : Transport) : Collects t t := ⟨[], by simp, rfl⟩

/-- One more step at the start. -/
theorem Collects.head (back : collecting event = true) (taken : t.step event = some u)
    (rest : Collects u v) : Collects t v := by
  obtain ⟨events, all, ran⟩ := rest
  refine ⟨event :: events, ?_, (run_cons_iff _ _ _ _ _).mpr ⟨u, taken, ran⟩⟩
  intro other member
  rcases List.mem_cons.mp member with rfl | later
  · exact back
  · exact all other later

/-- Collecting, and then collecting more. -/
theorem Collects.trans (first : Collects t u) (second : Collects u v) : Collects t v := by
  obtain ⟨before, early, finished⟩ := first
  obtain ⟨after, late, collected⟩ := second
  refine ⟨before ++ after, ?_, run_append step _ _ _ _ _ finished collected⟩
  intro event member
  exact (List.mem_append.mp member).elim (early event) (late event)

/-- Any number of such steps keeps the invariant, the slave and what it returned. The
induction is on the steps. -/
theorem Collects.keeps (small : bits ≤ 15) (inv : Inv bits t) (back : Collects t u) :
    Inv bits u ∧ u.slaveAt = t.slaveAt ∧ u.consumed = t.consumed := by
  obtain ⟨events, all, ran⟩ := back
  induction events generalizing t with
  | nil =>
    obtain rfl := Option.some.inj ran
    exact ⟨inv, rfl, rfl⟩
  | cons event rest ih =>
    obtain ⟨next, taken, remaining⟩ := (run_cons_iff _ _ _ _ _).mp ran
    obtain ⟨standing, consumed⟩ := collecting_frame (all event List.mem_cons_self) taken
    obtain ⟨after, later, unchanged⟩ := ih (step_inv small event next inv taken)
      (fun other member => all other (List.mem_cons_of_mem _ member)) remaining
    exact ⟨after, later.trans standing, unchanged.trans consumed⟩

/-- Behind `virtqueue_get_buffer` the master is in no call and has one buffer more. -/
theorem getTake_result (taken : t.step .getTake = some u) :
    u.masterAt = .idle ∧ u.reclaimed.length = t.reclaimed.length + 1 := by
  constructor
  · have stepped : t.masterStep .getTake = some u := taken
    obtain ⟨_, rest⟩ := Option.ite_none_right_eq_some.mp stepped
    obtain ⟨_, _, result⟩ := Option.bind_eq_some_iff.mp rest
    rw [← Option.some.inj result]
  · cases (step_recorded taken).1 with
    | reclaimed buffer records =>
      simp only [Transport.records, Records.mk.injEq] at records
      rw [records.2.2.2.2, List.length_append, List.length_singleton]
    | nothing event quiet records => cases quiet

/-- The master ends the call that it is in. -/
theorem master_finishes (small : bits ≤ 15) (inv : Inv bits t) :
    ∃ u, Collects t u ∧ u.masterAt = .idle := by
  cases standing : t.masterAt with
  | idle => exact ⟨t, Collects.refl t, standing⟩
  | publishing =>
    have moved : t.step .addPublish = some _ := if_pos standing
    exact ⟨_, Collects.head rfl moved (Collects.refl _), rfl⟩
  | reaping =>
    obtain ⟨u, taken, _⟩ := getTake_spec small inv standing
    exact ⟨u, Collects.head rfl taken (Collects.refl u), (getTake_result taken).1⟩
  | arming =>
    have moved : t.step .masterRecheck = some _ := if_pos standing
    exact ⟨_, Collects.head rfl moved (Collects.refl _), rfl⟩

/-- Out of any call it takes one buffer back, if there is one. -/
theorem master_takes (small : bits ≤ 15) (inv : Inv bits t) (idle : t.masterAt = .idle)
    (left : t.reclaimed.length + t.unreturned < t.consumed.length) :
    ∃ u, Collects t u ∧ u.masterAt = .idle ∧
      u.reclaimed.length = t.reclaimed.length + 1 := by
  have found := (inv.hasUsed_iff small).mpr left
  have polled : t.step .getPoll = some { t with masterAt := .reaping } := by
    change (if t.masterAt = .idle then _ else _) = _
    rw [if_pos idle, found, if_pos rfl]
  have after := step_inv small .getPoll _ inv polled
  obtain ⟨u, taken, _⟩ := getTake_spec small after rfl
  obtain ⟨free, more⟩ := getTake_result taken
  exact ⟨u, Collects.head rfl polled (Collects.head rfl taken (Collects.refl u)), free, more⟩

/-- It takes back everything that is visible. The induction is on what is left. -/
theorem master_takes_all (small : bits ≤ 15) (left : Nat) (inv : Inv bits t)
    (idle : t.masterAt = .idle) (visible : t.slaveAt ≠ .publishing)
    (count : t.consumed.length = t.reclaimed.length + left) :
    ∃ u, Collects t u ∧ u.reclaimed.length = t.consumed.length := by
  induction left generalizing t with
  | zero => exact ⟨t, Collects.refl t, count.symm⟩
  | succ left ih =>
    have none_left : t.unreturned = 0 := by rw [unreturned, if_neg visible]
    obtain ⟨v, back, free, more⟩ := master_takes small inv idle (by omega)
    obtain ⟨after, standing, consumed⟩ := back.keeps small inv
    obtain ⟨u, further, all⟩ := ih after free (standing ▸ visible) (by rw [consumed]; omega)
    exact ⟨u, back.trans further, all.trans (congrArg List.length consumed)⟩

/-- The master ends its call and takes back everything that the slave has returned. -/
theorem master_collects (small : bits ≤ 15) (inv : Inv bits t)
    (visible : t.slaveAt ≠ .publishing) :
    ∃ u, Collects t u ∧ u.reclaimed.length = t.consumed.length := by
  obtain ⟨v, finishing, idle⟩ := master_finishes small inv
  obtain ⟨after, standing, consumed⟩ := finishing.keeps small inv
  have order := after.counted.reclaimedVisible
  obtain ⟨u, further, all⟩ := master_takes_all small (v.consumed.length - v.reclaimed.length)
    after idle (standing ▸ visible) (by omega)
  exact ⟨u, finishing.trans further, all.trans (congrArg List.length consumed)⟩

end Collecting

/-! ## Buffers on their way -/

/-- The numbers of the offers on their way: available, held by the slave, used. -/
def onWay (t : Transport) : List Nat :=
  List.range' t.taken.length (t.offered.length - t.taken.length) ++ t.held.map (·.serial) ++
    (t.consumed.drop t.reclaimed.length).map (·.flight.serial)

/-- The buffer of an offer, by the master's address. -/
def bufOf (t : Transport) (serial : Nat) : Nat := ((t.offered[serial]?).map (·.cookie)).getD 0

/-- Where the slave sees a buffer of the master. -/
def place (t : Transport) (buf : Nat) : Nat :=
  t.slave.shmIo.physToVirt (t.master.shmIo.virtToPhys buf)

/-- The address the slave was handed for a buffer it holds. -/
def handed (t : Transport) (flight : Flight) : Nat :=
  ((t.taken[flight.serial]?).map (·.buffer)).getD 0

/-- A buffer is in the slave's hands. -/
structure Has (t : Transport) (buffer : AvailableBuffer) (serial : Nat) : Prop where
  holds : ⟨buffer.availIdx, serial⟩ ∈ t.held
  found : t.taken[serial]? = some buffer

/-- A buffer that the slave has is the one that was handed over. -/
theorem Has.handed {t : Transport} {buffer : AvailableBuffer} {serial : Nat}
    (has : t.Has buffer serial) : t.handed ⟨buffer.availIdx, serial⟩ = buffer.buffer := by
  rw [Transport.handed, has.found]
  rfl

end Transport

/-! ## The memory -/

/-- The two sides with the memory of the buffers, by the addresses the slave sees. The
master owns the buffers that are not on their way. On record is what a buffer held when
the master posted it and when the slave found it, and when the slave returned it and the
master found it. -/
structure Shared (α : Type) where
  transport : Transport
  owned : List VirtqueueBuf
  memory : Nat → α
  posted : List α
  seen : List α
  returned : List α
  reaped : List α

/-- A call, or a write to a buffer by one of the sides. -/
inductive SharedEvent (α : Type) where
  | call (event : TransportEvent)
  | masterWrite (buf : Nat) (value : α)
  | slaveWrite (flight : Flight) (value : α)
deriving DecidableEq

namespace Shared

variable {α : Type}

/-- Both sides are set up, and the master has all buffers of the pool. -/
def initial (bits features : Nat) (masterIo slaveIo : ShmIo) (pool : List VirtqueueBuf)
    (memory : Nat → α) : Shared α where
  transport := Transport.initial bits features masterIo slaveIo
  owned := pool
  memory := memory
  posted := []
  seen := []
  returned := []
  reaped := []

/-- The master posts single buffers that it owns, with the buffer as the cookie. -/
def admits (s : Shared α) : TransportEvent → Bool
  | .addStore ⟨[buf], _, cookie⟩ => buf ∈ s.owned ∧ cookie = buf.buf
  | .addStore _ => false
  | _ => true

/-- What a call that led to the transport `u` puts on record. -/
def record (s : Shared α) (u : Transport) : TransportEvent → Shared α
  | .addStore offer =>
      { s with
        transport := u
        owned := s.owned.erase (offer.bufs.headD ⟨0, 0⟩)
        posted := s.posted ++ [s.memory (u.place offer.cookie)] }
  | .availableTake =>
      { s with
        transport := u
        seen := s.seen ++
          (u.taken.drop s.transport.taken.length).map (fun buffer => s.memory buffer.buffer) }
  | .consumedStore flight _ =>
      { s with
        transport := u
        returned := s.returned ++ [s.memory (s.transport.handed flight)] }
  | .getTake =>
      let new := u.reclaimed.drop s.transport.reclaimed.length
      { s with
        transport := u
        owned := s.owned ++ new.map (fun buffer => ⟨buffer.cookie.getD 0, buffer.len⟩)
        reaped := s.reaped ++
          new.map (fun buffer => s.memory (u.place (buffer.cookie.getD 0))) }
  | _ => { s with transport := u }

/-- One step. A side writes only to a buffer that it has. -/
def step (s : Shared α) : SharedEvent α → Option (Shared α)
  | .call event =>
      if s.admits event then (s.transport.step event).map (fun u => s.record u event) else none
  | .masterWrite buf value =>
      if buf ∈ s.owned.map (·.buf) then
        some { s with memory := Function.update s.memory (s.transport.place buf) value }
      else none
  | .slaveWrite flight value =>
      if flight ∈ s.transport.held then
        some { s with memory := Function.update s.memory (s.transport.handed flight) value }
      else none

/-- Every buffer of the pool is with the master or on its way, and only once; a buffer
that is available holds what it was posted with, and one that is used what it was
returned with; and both sides found what the other one left. -/
structure Kept (bits : Nat) (pool : List VirtqueueBuf) (s : Shared α) : Prop where
  inv : Transport.Inv bits s.transport
  apart : ((pool.map (·.buf)).map s.transport.place).Nodup
  single : ∀ offer ∈ s.transport.offered, ∃ len, offer.bufs = [⟨offer.cookie, len⟩]
  conserved : (s.owned.map (·.buf) ++ s.transport.onWay.map s.transport.bufOf).Perm
    (pool.map (·.buf))
  available : ∀ serial, s.transport.taken.length ≤ serial →
    serial < s.transport.offered.length →
      s.posted[serial]? = some (s.memory (s.transport.place (s.transport.bufOf serial)))
  used : ∀ place entry, s.transport.reclaimed.length ≤ place →
    s.transport.consumed[place]? = some entry →
      s.returned[place]? =
        some (s.memory (s.transport.place (s.transport.bufOf entry.flight.serial)))
  seen : s.seen = s.posted.take s.transport.taken.length
  reaped : s.reaped = s.returned.take s.transport.reclaimed.length
  postedAll : s.posted.length = s.transport.offered.length
  returnedAll : s.returned.length = s.transport.consumed.length

section Calls

variable {s v : Shared α} {event : TransportEvent}

/-- A call is a step of the transport that is admitted, and its record. -/
theorem step_call_iff : s.step (.call event) = some v ↔
    s.admits event = true ∧ ∃ u, s.transport.step event = some u ∧ s.record u event = v := by
  simp only [step, Option.ite_none_right_eq_some, Option.map_eq_some_iff]

/-- The record of a step is beside the transport. -/
@[simp] theorem record_transport (u : Transport) : (s.record u event).transport = u := by
  cases event <;> rfl

/-- A call moves no contents. -/
@[simp] theorem record_memory (u : Transport) : (s.record u event).memory = s.memory := by
  cases event <;> rfl

/-- An event that adds nothing to the records adds nothing here. -/
theorem record_nothing (u : Transport) (quiet : Transport.silent event = true) :
    s.record u event = { s with transport := u } := by
  cases event <;> first | rfl | cases quiet

end Calls

section Places

variable {bits : Nat} {pool : List VirtqueueBuf} {s : Shared α} {t u : Transport}

/-- Offers on their way are offers. -/
theorem onWay_lt (inv : Transport.Inv bits t) {serial : Nat} (member : serial ∈ t.onWay) :
    serial < t.offered.length := by
  have visible := inv.counted.takenVisible
  have taken : ∀ serial ∈ t.consumed.map (·.flight.serial) ++ t.held.map (·.serial),
      serial < t.taken.length := by
    intro serial listed
    exact List.mem_range.mp (inv.stored.serials.mem_iff.mp listed)
  simp only [Transport.onWay, List.mem_append, List.mem_range'_1] at member
  rcases member with (⟨_, upper⟩ | held) | used
  · omega
  · have := taken serial (List.mem_append_right _ held)
    omega
  · have listed := (List.Sublist.map (fun entry : Consumed => entry.flight.serial)
      (List.drop_sublist t.reclaimed.length t.consumed)).subset used
    have := taken serial (List.mem_append_left _ listed)
    omega

/-- The address of a buffer depends on the maps only. -/
theorem place_same (maps : u.maps = t.maps) : u.place = t.place := by
  obtain ⟨master, slave⟩ := Prod.mk.inj maps
  funext buf
  rw [Transport.place, Transport.place, master, slave]

/-- The slave was handed the buffers that were offered, where the master has them. -/
theorem taken_shown (inv : Transport.Inv bits t)
    (single : ∀ offer ∈ t.offered, ∃ len, offer.bufs = [⟨offer.cookie, len⟩]) {serial : Nat}
    {buffer : AvailableBuffer} (found : t.taken[serial]? = some buffer) :
    buffer.buffer = t.place (t.bufOf serial) ∧
      ∃ offer ∈ t.offered, offer.bufs = [⟨offer.cookie, buffer.len⟩] := by
  have visible := inv.counted.takenVisible
  obtain ⟨taken, _⟩ := List.getElem?_eq_some_iff.mp found
  have offered : serial < t.offered.length := by omega
  have delivered := congrArg (fun list => list[serial]?) inv.stored.delivered
  simp only [List.getElem?_map, List.getElem?_take_of_lt taken] at delivered
  rw [found, List.getElem?_eq_getElem offered, Option.map_some, Option.map_some,
    Option.some.injEq, Prod.mk.injEq] at delivered
  obtain ⟨len, bufs⟩ := single _ (List.getElem_mem offered)
  rw [Transport.shown, bufs] at delivered
  refine ⟨?_, t.offered[serial], List.getElem_mem offered, ?_⟩
  · rw [Transport.bufOf, List.getElem?_eq_getElem offered, delivered.1]
    rfl
  · rw [bufs, delivered.2]
    rfl

/-- What the slave holds was taken. -/
theorem Kept.held_lt (kept : Kept bits pool s) {flight : Flight}
    (holds : flight ∈ s.transport.held) : flight.serial < s.transport.taken.length := by
  have listed : flight.serial ∈
      s.transport.consumed.map (·.flight.serial) ++ s.transport.held.map (·.serial) :=
    List.mem_append_right _ (List.mem_map.mpr ⟨flight, holds, rfl⟩)
  exact List.mem_range.mp (kept.inv.stored.serials.mem_iff.mp listed)

/-- No offer is in the slave's hands twice. -/
theorem Kept.held_nodup (kept : Kept bits pool s) :
    (s.transport.held.map (·.serial)).Nodup := by
  have serials := kept.inv.stored.serials.nodup_iff.mpr List.nodup_range
  rw [List.nodup_append] at serials
  exact serials.2.1

/-- The slave finds a buffer it holds at its place. -/
theorem Kept.handed (kept : Kept bits pool s) {flight : Flight}
    (holds : flight ∈ s.transport.held) :
    s.transport.handed flight = s.transport.place (s.transport.bufOf flight.serial) := by
  have found := List.getElem?_eq_getElem (kept.held_lt holds)
  rw [Transport.handed, found, Option.map_some, Option.getD_some]
  exact (taken_shown kept.inv kept.single found).1

/-- No two buffers are in one place. -/
theorem Kept.distinct (kept : Kept bits pool s) :
    ((s.owned.map (·.buf) ++ s.transport.onWay.map s.transport.bufOf).map
      s.transport.place).Nodup :=
  (kept.conserved.map s.transport.place).nodup_iff.mpr kept.apart

/-- A write to a place where no buffer is available or used. -/
theorem Kept.written (kept : Kept bits pool s) (addr : Nat) (value : α)
    (notAvailable : ∀ serial, s.transport.taken.length ≤ serial →
      serial < s.transport.offered.length →
        s.transport.place (s.transport.bufOf serial) ≠ addr)
    (notUsed : ∀ entry ∈ s.transport.consumed.drop s.transport.reclaimed.length,
      s.transport.place (s.transport.bufOf entry.flight.serial) ≠ addr) :
    Kept bits pool { s with memory := Function.update s.memory addr value } where
  inv := kept.inv
  apart := kept.apart
  single := kept.single
  conserved := kept.conserved
  available := by
    intro serial lower upper
    change s.posted[serial]? = some (Function.update s.memory addr value _)
    rw [Function.update_of_ne (notAvailable serial lower upper)]
    exact kept.available serial lower upper
  used := by
    intro place entry lower found
    have member : entry ∈ s.transport.consumed.drop s.transport.reclaimed.length := by
      refine List.mem_of_getElem? (i := place - s.transport.reclaimed.length) ?_
      rw [List.getElem?_drop, Nat.add_sub_cancel' lower]
      exact found
    change s.returned[place]? = some (Function.update s.memory addr value _)
    rw [Function.update_of_ne (notUsed entry member)]
    exact kept.used place entry lower found
  seen := kept.seen
  reaped := kept.reaped
  postedAll := kept.postedAll
  returnedAll := kept.returnedAll

/-- The master writes to a buffer that it owns. -/
theorem Kept.masterWritten (kept : Kept bits pool s) {buf : Nat} (value : α)
    (owns : buf ∈ s.owned.map (·.buf)) :
    Kept bits pool
      { s with memory := Function.update s.memory (s.transport.place buf) value } := by
  have distinct := kept.distinct
  rw [List.map_append, List.nodup_append] at distinct
  have apart : ∀ serial ∈ s.transport.onWay,
      s.transport.place (s.transport.bufOf serial) ≠ s.transport.place buf := by
    intro serial member same
    exact distinct.2.2 _ (List.mem_map_of_mem owns) _
      (List.mem_map_of_mem (List.mem_map_of_mem member)) same.symm
  refine kept.written _ value ?_ ?_
  · intro serial lower upper
    refine apart serial ?_
    simp only [Transport.onWay, List.mem_append, List.mem_range'_1]
    exact Or.inl (Or.inl ⟨lower, by omega⟩)
  · intro entry member
    exact apart _ (List.mem_append_right _ (List.mem_map_of_mem member))

/-- The slave writes to a buffer that it holds. -/
theorem Kept.slaveWritten (kept : Kept bits pool s) {flight : Flight} (value : α)
    (holds : flight ∈ s.transport.held) :
    Kept bits pool
      { s with memory := Function.update s.memory (s.transport.handed flight) value } := by
  have distinct := kept.distinct
  rw [List.map_append, List.nodup_append] at distinct
  have onWay := distinct.2.1
  rw [List.map_map, Transport.onWay, List.map_append, List.map_append, List.nodup_append,
    List.nodup_append] at onWay
  have listed := List.mem_map_of_mem (f := s.transport.place ∘ s.transport.bufOf)
    (List.mem_map_of_mem (f := (·.serial)) holds)
  rw [kept.handed holds]
  refine kept.written _ value ?_ ?_
  · intro serial lower upper
    refine onWay.1.2.2 _ (List.mem_map_of_mem ?_) _ listed
    exact List.mem_range'_1.mpr ⟨lower, by omega⟩
  · intro entry member same
    exact onWay.2.2 _ (List.mem_append_right _ listed) _
      (List.mem_map_of_mem (List.mem_map_of_mem member)) same.symm

/-- The master posts one buffer of its own at a time, with the buffer as cookie. -/
theorem admits_addStore {offer : Offer} (admitted : s.admits (.addStore offer) = true) :
    ∃ len, offer.bufs = [⟨offer.cookie, len⟩] ∧ ⟨offer.cookie, len⟩ ∈ s.owned := by
  obtain ⟨bufs, readable, cookie⟩ := offer
  cases bufs with
  | nil => cases admitted
  | cons buf rest =>
    cases rest with
    | nil =>
      obtain ⟨owns, rfl⟩ := decide_eq_true_eq.mp admitted
      exact ⟨buf.len, rfl, owns⟩
    | cons second others => cases admitted

/-- An offer that was there before keeps its buffer. -/
theorem bufOf_same (offers : List Offer) (offered : u.offered = t.offered ++ offers)
    {serial : Nat} (old : serial < t.offered.length) : u.bufOf serial = t.bufOf serial := by
  rw [Transport.bufOf, Transport.bufOf, offered, List.getElem?_append_left old]

/-- The master posts a buffer. -/
theorem Kept.offered (kept : Kept bits pool s) (inv : Transport.Inv bits u)
    (maps : u.maps = s.transport.maps) (offer : Offer)
    (records : u.records =
      { s.transport.records with offered := s.transport.offered ++ [offer] })
    (admitted : s.admits (.addStore offer) = true) :
    Kept bits pool (s.record u (.addStore offer)) := by
  obtain ⟨len, bufs, owns⟩ := admits_addStore admitted
  simp only [Transport.records, Records.mk.injEq] at records
  obtain ⟨offered, taken, held, consumed, reclaimed⟩ := records
  have visible := kept.inv.counted.takenVisible
  have samePlace := place_same maps
  have sameBuf : ∀ serial < s.transport.offered.length,
      u.bufOf serial = s.transport.bufOf serial := fun serial old => bufOf_same [offer] offered old
  have newBuf : u.bufOf s.transport.offered.length = offer.cookie := by
    rw [Transport.bufOf, offered, List.getElem?_concat_length]
    rfl
  have way : u.onWay.Perm (s.transport.offered.length :: s.transport.onWay) := by
    have count : u.offered.length - s.transport.taken.length =
        s.transport.offered.length - s.transport.taken.length + 1 := by
      rw [offered, List.length_append, List.length_singleton]
      omega
    have last : s.transport.taken.length +
        1 * (s.transport.offered.length - s.transport.taken.length) =
          s.transport.offered.length := by omega
    rw [Transport.onWay, Transport.onWay, taken, held, consumed, reclaimed, count,
      List.range'_concat, last, List.append_assoc, List.append_assoc, List.append_assoc,
      List.singleton_append]
    exact List.perm_middle
  have conserved : ((s.owned.erase ⟨offer.cookie, len⟩).map (·.buf) ++
      u.onWay.map u.bufOf).Perm (pool.map (·.buf)) := by
    have moved : (u.onWay.map u.bufOf).Perm
        (offer.cookie :: s.transport.onWay.map s.transport.bufOf) := by
      refine (way.map u.bufOf).trans ?_
      rw [List.map_cons, newBuf]
      refine List.Perm.of_eq (congrArg _ (List.map_congr_left ?_))
      intro serial member
      exact sameBuf serial (onWay_lt kept.inv member)
    refine (List.Perm.append_left _ moved).trans (List.perm_middle.trans ?_)
    refine List.Perm.trans ?_ kept.conserved
    exact ((List.perm_cons_erase owns).symm.map (·.buf)).append_right _
  refine ⟨inv, ?_, ?_, ?_, ?_, ?_, ?_, ?_, ?_, ?_⟩
  · change ((pool.map (·.buf)).map u.place).Nodup
    rw [samePlace]
    exact kept.apart
  · change ∀ other ∈ u.offered, _
    rw [offered]
    intro other member
    rcases List.mem_append.mp member with old | new
    · exact kept.single other old
    · rw [List.mem_singleton.mp new]
      exact ⟨len, bufs⟩
  · change ((s.owned.erase (offer.bufs.headD ⟨0, 0⟩)).map (·.buf) ++ _).Perm _
    rw [bufs]
    exact conserved
  · intro serial lower upper
    change (s.posted ++ [s.memory (u.place offer.cookie)])[serial]? =
      some (s.memory (u.place (u.bufOf serial)))
    change u.taken.length ≤ serial at lower
    change serial < u.offered.length at upper
    rw [offered, List.length_append, List.length_singleton] at upper
    by_cases new : serial = s.transport.offered.length
    · rw [new, newBuf, ← kept.postedAll, List.getElem?_concat_length]
    · have old : serial < s.transport.offered.length := by omega
      rw [List.getElem?_append_left (by rw [kept.postedAll]; exact old), sameBuf serial old,
        samePlace]
      exact kept.available serial (taken ▸ lower) old
  · intro place entry lower found
    change s.returned[place]? = some (s.memory (u.place (u.bufOf entry.flight.serial)))
    change u.reclaimed.length ≤ place at lower
    change u.consumed[place]? = some entry at found
    rw [consumed] at found
    have earlier := kept.inv.stored.serial_lt (List.mem_of_getElem? found)
    rw [sameBuf _ (by omega), samePlace]
    exact kept.used place entry (reclaimed ▸ lower) found
  · change s.seen = (s.posted ++ [_]).take u.taken.length
    rw [taken, List.take_append_of_le_length (by rw [kept.postedAll]; omega)]
    exact kept.seen
  · change s.reaped = s.returned.take u.reclaimed.length
    rw [reclaimed]
    exact kept.reaped
  · change (s.posted ++ [_]).length = u.offered.length
    rw [offered, List.length_append, List.length_append, kept.postedAll, List.length_singleton,
      List.length_singleton]
  · change s.returned.length = u.consumed.length
    rw [consumed]
    exact kept.returnedAll

/-- A call that adds no offer and touches no buffer. -/
theorem Kept.moved {v : Shared α} (kept : Kept bits pool s)
    (inv : Transport.Inv bits v.transport) (maps : v.transport.maps = s.transport.maps)
    (offered : v.transport.offered = s.transport.offered) (memory : v.memory = s.memory)
    (posted : v.posted = s.posted)
    (further : s.transport.taken.length ≤ v.transport.taken.length)
    (conserved : (v.owned.map (·.buf) ++ v.transport.onWay.map s.transport.bufOf).Perm
      (s.owned.map (·.buf) ++ s.transport.onWay.map s.transport.bufOf))
    (used : ∀ place entry, v.transport.reclaimed.length ≤ place →
      v.transport.consumed[place]? = some entry →
        v.returned[place]? =
          some (s.memory (s.transport.place (s.transport.bufOf entry.flight.serial))))
    (seen : v.seen = s.posted.take v.transport.taken.length)
    (reaped : v.reaped = v.returned.take v.transport.reclaimed.length)
    (returnedAll : v.returned.length = v.transport.consumed.length) : Kept bits pool v := by
  have samePlace := place_same maps
  have sameBuf : v.transport.bufOf = s.transport.bufOf := by
    funext serial
    rw [Transport.bufOf, Transport.bufOf, offered]
  refine ⟨inv, ?_, ?_, ?_, ?_, ?_, ?_, reaped, ?_, returnedAll⟩
  · rw [samePlace]
    exact kept.apart
  · rw [offered]
    exact kept.single
  · rw [sameBuf]
    exact conserved.trans kept.conserved
  · intro serial lower upper
    rw [posted, memory, samePlace, sameBuf]
    exact kept.available serial (further.trans lower) (offered ▸ upper)
  · intro place entry lower found
    rw [memory, samePlace, sameBuf]
    exact used place entry lower found
  · rw [posted]
    exact seen
  · rw [posted, offered]
    exact kept.postedAll

/-- The slave takes a buffer, and finds in it what it was posted with. -/
theorem Kept.taken (kept : Kept bits pool s) (inv : Transport.Inv bits u)
    (maps : u.maps = s.transport.maps) (buffer : AvailableBuffer)
    (records : u.records = { s.transport.records with
      taken := s.transport.taken ++ [buffer]
      held := s.transport.held ++ [⟨buffer.availIdx, s.transport.taken.length⟩] }) :
    Kept bits pool (s.record u .availableTake) := by
  simp only [Transport.records, Records.mk.injEq] at records
  obtain ⟨offered, taken, held, consumed, reclaimed⟩ := records
  have count : u.taken.length = s.transport.taken.length + 1 := by
    rw [taken, List.length_append, List.length_singleton]
  have left : s.transport.taken.length < s.transport.offered.length := by
    have visible := inv.counted.takenVisible
    rw [offered, count] at visible
    omega
  have way : u.onWay.Perm s.transport.onWay := by
    have split : s.transport.offered.length - s.transport.taken.length =
        s.transport.offered.length - (s.transport.taken.length + 1) + 1 := by omega
    simp only [Transport.onWay, offered, count, held, consumed, reclaimed, split,
      List.range'_succ, List.map_append, List.map_singleton, List.append_assoc,
      List.cons_append, List.nil_append]
    rw [← List.append_assoc, ← List.append_assoc]
    exact List.perm_middle
  have address : s.memory buffer.buffer =
      s.memory (s.transport.place (s.transport.bufOf s.transport.taken.length)) := by
    have found : u.taken[s.transport.taken.length]? = some buffer := by
      rw [taken, List.getElem?_concat_length]
    rw [(taken_shown inv (offered ▸ kept.single) found).1, place_same maps, Transport.bufOf,
      offered]
    rfl
  refine kept.moved inv maps offered rfl rfl (by rw [record, count]; omega) ?_ ?_ ?_ ?_ ?_
  · exact (way.map s.transport.bufOf).append_left _
  · intro place entry lower found
    exact kept.used place entry (reclaimed ▸ lower) (consumed ▸ found)
  · change s.seen ++ (u.taken.drop s.transport.taken.length).map _ = s.posted.take u.taken.length
    rw [taken, List.drop_left, List.map_singleton, ← taken, count, List.take_add_one,
      kept.available _ le_rfl left, kept.seen, address]
    rfl
  · change s.reaped = s.returned.take u.reclaimed.length
    rw [reclaimed]
    exact kept.reaped
  · change s.returned.length = u.consumed.length
    rw [consumed]
    exact kept.returnedAll

/-- The slave returns a buffer. -/
theorem Kept.consumed (kept : Kept bits pool s) (inv : Transport.Inv bits u)
    (maps : u.maps = s.transport.maps) (flight : Flight) (len : Nat)
    (holds : flight ∈ s.transport.held)
    (records : u.records = { s.transport.records with
      held := s.transport.held.erase flight
      consumed := s.transport.consumed ++ [⟨flight, len⟩] }) :
    Kept bits pool (s.record u (.consumedStore flight len)) := by
  simp only [Transport.records, Records.mk.injEq] at records
  obtain ⟨offered, taken, held, consumed, reclaimed⟩ := records
  have earlier : s.transport.reclaimed.length ≤ s.transport.consumed.length := by
    have visible := kept.inv.counted.reclaimedVisible
    omega
  have way : u.onWay.Perm s.transport.onWay := by
    rw [Transport.onWay, Transport.onWay, offered, taken, held, consumed, reclaimed,
      List.drop_append_of_le_length earlier, List.map_append, List.append_assoc,
      List.append_assoc]
    refine List.Perm.append_left _ ?_
    have moved : (s.transport.held.map (·.serial)).Perm
        (flight.serial :: (s.transport.held.erase flight).map (·.serial)) :=
      (List.perm_cons_erase holds).map (·.serial)
    refine List.Perm.trans ?_ (moved.append_right _).symm
    rw [← List.append_assoc, List.map_singleton]
    exact List.perm_append_comm
  refine kept.moved inv maps offered rfl rfl (by rw [record, taken]) ?_ ?_ ?_ ?_ ?_
  · exact (way.map s.transport.bufOf).append_left _
  · intro place entry lower found
    change (s.returned ++ [s.memory (s.transport.handed flight)])[place]? = _
    change u.consumed[place]? = some entry at found
    rw [consumed] at found
    by_cases new : place = s.transport.consumed.length
    · rw [new, List.getElem?_concat_length] at found
      rw [new, ← kept.returnedAll, List.getElem?_concat_length, ← Option.some.inj found,
        kept.handed holds]
    · have old : place < s.transport.consumed.length := by
        obtain ⟨bound, _⟩ := List.getElem?_eq_some_iff.mp found
        rw [List.length_append, List.length_singleton] at bound
        omega
      rw [List.getElem?_append_left old] at found
      rw [List.getElem?_append_left (by rw [kept.returnedAll]; exact old)]
      exact kept.used place entry (reclaimed ▸ lower) found
  · change s.seen = s.posted.take u.taken.length
    rw [taken]
    exact kept.seen
  · change s.reaped = (s.returned ++ [_]).take u.reclaimed.length
    rw [reclaimed, List.take_append_of_le_length (by rw [kept.returnedAll]; exact earlier)]
    exact kept.reaped
  · change (s.returned ++ [_]).length = u.consumed.length
    rw [consumed, List.length_append, List.length_append, kept.returnedAll,
      List.length_singleton, List.length_singleton]

/-- The buffer the master is handed back is the next one the slave returned. -/
theorem reclaimed_entry (inv : Transport.Inv bits u) {before : List UsedBuffer}
    {buffer : UsedBuffer} (reclaimed : u.reclaimed = before ++ [buffer]) :
    ∃ entry, u.consumed[before.length]? = some entry ∧
      buffer.cookie = (u.offered[entry.flight.serial]?).map (·.cookie) ∧
      buffer.len = entry.len := by
  have count : u.reclaimed.length = before.length + 1 := by
    rw [reclaimed, List.length_append, List.length_singleton]
  have visible := inv.counted.reclaimedVisible
  have inside : before.length < u.consumed.length := by omega
  have returned := inv.stored.returned
  rw [count, reclaimed] at returned
  have last := congrArg (fun list => list[before.length]?) returned
  simp only [List.getElem?_map, List.getElem?_take_of_lt (Nat.lt_succ_self _),
    List.getElem?_eq_getElem inside, List.getElem?_concat_length, Option.map_some,
    Option.some.injEq, Prod.mk.injEq] at last
  exact ⟨_, List.getElem?_eq_getElem inside, last.1, last.2⟩

/-- The master is handed a buffer back, and finds in it what it was returned with. -/
theorem Kept.reclaimed (kept : Kept bits pool s) (inv : Transport.Inv bits u)
    (maps : u.maps = s.transport.maps) (buffer : UsedBuffer)
    (records : u.records =
      { s.transport.records with reclaimed := s.transport.reclaimed ++ [buffer] }) :
    Kept bits pool (s.record u .getTake) := by
  simp only [Transport.records, Records.mk.injEq] at records
  obtain ⟨offered, taken, held, consumed, reclaimed⟩ := records
  have count : u.reclaimed.length = s.transport.reclaimed.length + 1 := by
    rw [reclaimed, List.length_append, List.length_singleton]
  have left : s.transport.reclaimed.length < s.transport.consumed.length := by
    have visible := inv.counted.reclaimedVisible
    rw [consumed, count] at visible
    omega
  obtain ⟨entry, found, given, _⟩ := reclaimed_entry inv reclaimed
  rw [consumed] at found
  have cookie : buffer.cookie = some (s.transport.bufOf entry.flight.serial) := by
    have serial := kept.inv.stored.serial_lt (List.mem_of_getElem? found)
    have visible := kept.inv.counted.takenVisible
    rw [given, offered, Transport.bufOf, List.getElem?_eq_getElem (by omega)]
    rfl
  have newest : (u.reclaimed.drop s.transport.reclaimed.length) = [buffer] := by
    rw [reclaimed, List.drop_left]
  refine kept.moved inv maps offered rfl rfl (by rw [record, taken]) ?_ ?_ ?_ ?_ ?_
  · change ((s.owned ++ (u.reclaimed.drop s.transport.reclaimed.length).map
      (fun buffer => VirtqueueBuf.mk (buffer.cookie.getD 0) buffer.len)).map (·.buf) ++
        u.onWay.map s.transport.bufOf).Perm _
    have way : s.transport.onWay.Perm (entry.flight.serial :: u.onWay) := by
      rw [Transport.onWay, Transport.onWay, offered, taken, held, consumed, count,
        List.drop_eq_getElem_cons left, List.map_cons]
      rw [List.getElem?_eq_getElem left] at found
      rw [Option.some.inj found]
      exact List.perm_middle
    rw [newest, List.map_singleton, List.map_append, List.map_singleton, cookie,
      List.append_assoc, Option.getD_some]
    exact ((way.map s.transport.bufOf).symm).append_left _
  · intro place other lower listed
    change u.reclaimed.length ≤ place at lower
    exact kept.used place other (by omega) (consumed ▸ listed)
  · change s.seen = s.posted.take u.taken.length
    rw [taken]
    exact kept.seen
  · change s.reaped ++ (u.reclaimed.drop s.transport.reclaimed.length).map _ =
      s.returned.take u.reclaimed.length
    rw [newest, List.map_singleton, count, List.take_add_one, kept.used _ entry le_rfl found,
      kept.reaped, cookie, place_same maps]
    rfl
  · change s.returned.length = u.consumed.length
    rw [consumed]
    exact kept.returnedAll

/-- A call that puts nothing on record. -/
theorem Kept.nothing (kept : Kept bits pool s) (inv : Transport.Inv bits u)
    (maps : u.maps = s.transport.maps) (records : u.records = s.transport.records) :
    Kept bits pool { s with transport := u } := by
  simp only [Transport.records, Records.mk.injEq] at records
  obtain ⟨offered, taken, held, consumed, reclaimed⟩ := records
  have way : u.onWay = s.transport.onWay := by
    rw [Transport.onWay, Transport.onWay, offered, taken, held, consumed, reclaimed]
  refine kept.moved inv maps offered rfl rfl (by rw [taken]) ?_ ?_ ?_ ?_ ?_
  · change (s.owned.map (·.buf) ++ u.onWay.map s.transport.bufOf).Perm _
    rw [way]
  · intro place entry lower found
    exact kept.used place entry (reclaimed ▸ lower) (consumed ▸ found)
  · change s.seen = s.posted.take u.taken.length
    rw [taken]
    exact kept.seen
  · change s.reaped = s.returned.take u.reclaimed.length
    rw [reclaimed]
    exact kept.reaped
  · change s.returned.length = u.consumed.length
    rw [consumed]
    exact kept.returnedAll

/-- Every step keeps the buffers. -/
theorem step_kept (small : bits ≤ 15) (s : Shared α) (event : SharedEvent α) (next : Shared α)
    (kept : Kept bits pool s) (taken : s.step event = some next) : Kept bits pool next := by
  cases event with
  | call event =>
    obtain ⟨admitted, moved⟩ := Option.ite_none_right_eq_some.mp taken
    obtain ⟨u, ran, rfl⟩ := Option.map_eq_some_iff.mp moved
    have inv := Transport.step_inv small event u kept.inv ran
    obtain ⟨recorded, maps⟩ := Transport.step_recorded ran
    cases recorded with
    | offered offer records => exact kept.offered inv maps offer records admitted
    | taken buffer records => exact kept.taken inv maps buffer records
    | consumed flight len holds records => exact kept.consumed inv maps flight len holds records
    | reclaimed buffer records => exact kept.reclaimed inv maps buffer records
    | nothing event quiet records =>
      rw [record_nothing u quiet]
      exact kept.nothing inv maps records
  | masterWrite buf value =>
    obtain ⟨owns, result⟩ := Option.ite_none_right_eq_some.mp taken
    obtain rfl := Option.some.inj result
    exact kept.masterWritten value owns
  | slaveWrite flight value =>
    obtain ⟨holds, result⟩ := Option.ite_none_right_eq_some.mp taken
    obtain rfl := Option.some.inj result
    exact kept.slaveWritten value holds

end Places

/-! ## For whoever fills the buffers -/

section Frames

variable {bits : Nat} {pool : List VirtqueueBuf} {s v : Shared α} {event : TransportEvent}

/-- Only the return of a buffer adds to what was returned. -/
theorem record_returned (u : Transport)
    (other : ∀ flight len, event ≠ .consumedStore flight len) :
    (s.record u event).returned = s.returned := by
  cases event with
  | consumedStore flight len => exact absurd rfl (other flight len)
  | _ => rfl

/-- Nothing happens to a buffer in the slave's hands. -/
structure Undisturbed (s v : Shared α) (flight : Flight) : Prop where
  holds : flight ∈ v.transport.held
  found : v.transport.taken[flight.serial]? = s.transport.taken[flight.serial]?
  posted : v.posted[flight.serial]? = s.posted[flight.serial]?
  contents : v.memory (s.transport.handed flight) = s.memory (s.transport.handed flight)

/-- Whoever has an undisturbed buffer has it still, with what is in it. -/
theorem Undisturbed.has {buffer : AvailableBuffer} {serial : Nat}
    (same : Undisturbed s v ⟨buffer.availIdx, serial⟩) (has : s.transport.Has buffer serial) :
    v.transport.Has buffer serial ∧ v.memory buffer.buffer = s.memory buffer.buffer := by
  refine ⟨⟨same.holds, same.found.trans has.found⟩, ?_⟩
  rw [← has.handed]
  exact same.contents

/-- What the slave holds is what it was handed, at an address of its own. -/
theorem Kept.handed_apart (kept : Kept bits pool s) {first second : Flight}
    (one : first ∈ s.transport.held) (two : second ∈ s.transport.held)
    (different : first.serial ≠ second.serial) :
    s.transport.handed first ≠ s.transport.handed second := by
  have distinct := kept.distinct
  rw [List.map_append, List.nodup_append] at distinct
  have onWay := distinct.2.1
  rw [List.map_map] at onWay
  rw [kept.handed one, kept.handed two]
  have listed : ∀ flight ∈ s.transport.held, flight.serial ∈ s.transport.onWay := by
    intro flight holds
    exact List.mem_append_left _ (List.mem_append_right _ (List.mem_map_of_mem holds))
  intro same
  exact different
    (List.inj_on_of_nodup_map onWay (listed first one) (listed second two) same)

/-- A buffer of the master is in no place the slave has in its hands. -/
theorem Kept.owned_apart (kept : Kept bits pool s) {flight : Flight}
    (holds : flight ∈ s.transport.held) {buf : Nat} (owns : buf ∈ s.owned.map (·.buf)) :
    s.transport.handed flight ≠ s.transport.place buf := by
  have distinct := kept.distinct
  rw [List.map_append, List.nodup_append] at distinct
  rw [kept.handed holds]
  intro same
  refine distinct.2.2 _ (List.mem_map_of_mem owns) _ (List.mem_map_of_mem (List.mem_map_of_mem ?_))
    same.symm
  exact List.mem_append_left _ (List.mem_append_right _ (List.mem_map_of_mem holds))

/-- A call of the master leaves the slave and what it has in its hands. -/
theorem master_frame (ofMaster : event.ofMaster = true) (ran : s.step (.call event) = some v) :
    v.transport.held = s.transport.held ∧ v.transport.taken = s.transport.taken ∧
      v.transport.slaveAt = s.transport.slaveAt ∧ ∃ more, v.posted = s.posted ++ more := by
  obtain ⟨_, u, moved, rfl⟩ := step_call_iff.mp ran
  rw [record_transport]
  have standing : u.slaveAt = s.transport.slaveAt := by
    rw [Transport.step, if_pos ofMaster] at moved
    exact Transport.masterStep_slaveAt moved
  cases (Transport.step_recorded moved).1 with
  | offered offer records =>
    simp only [Transport.records, Records.mk.injEq] at records
    exact ⟨records.2.2.1, records.2.1, standing, _, rfl⟩
  | reclaimed buffer records =>
    simp only [Transport.records, Records.mk.injEq] at records
    exact ⟨records.2.2.1, records.2.1, standing, [], (List.append_nil _).symm⟩
  | nothing event quiet records =>
    simp only [Transport.records, Records.mk.injEq] at records
    rw [record_nothing u quiet]
    exact ⟨records.2.2.1, records.2.1, standing, [], (List.append_nil _).symm⟩
  | taken buffer records => cases ofMaster
  | consumed flight len holds records => cases ofMaster

/-- A call of the slave leaves the master and what it has offered. -/
theorem slave_frame (ofSlave : event.ofMaster = false) (ran : s.step (.call event) = some v) :
    v.transport.offered = s.transport.offered ∧
      v.transport.masterAt = s.transport.masterAt ∧ v.posted = s.posted := by
  obtain ⟨_, u, moved, rfl⟩ := step_call_iff.mp ran
  have standing := Transport.slaveStep_masterAt (Transport.step_slave ofSlave moved)
  cases (Transport.step_recorded moved).1 with
  | offered offer records => cases ofSlave
  | reclaimed buffer records => cases ofSlave
  | taken buffer records =>
    simp only [Transport.records, Records.mk.injEq] at records
    exact ⟨records.1, standing, rfl⟩
  | consumed flight len holds records =>
    simp only [Transport.records, Records.mk.injEq] at records
    exact ⟨records.1, standing, rfl⟩
  | nothing event quiet records =>
    simp only [Transport.records, Records.mk.injEq] at records
    rw [record_nothing u quiet]
    exact ⟨records.1, standing, rfl⟩

/-- A call that puts nothing on record leaves what is in the slave's hands. -/
theorem quiet_frame (quiet : Transport.silent event = true)
    (ran : s.step (.call event) = some v) :
    v.transport.held = s.transport.held ∧ v.transport.taken = s.transport.taken ∧
      v.posted = s.posted := by
  obtain ⟨_, u, moved, rfl⟩ := step_call_iff.mp ran
  have records : u.records = s.transport.records := by
    cases (Transport.step_recorded moved).1 with
    | nothing event quiet records => exact records
    | _ => cases quiet
  simp only [Transport.records, Records.mk.injEq] at records
  rw [record_nothing u quiet]
  exact ⟨records.2.2.1, records.2.1, rfl⟩

/-- The slave takes a buffer into its hands, with what it was posted with. -/
theorem take_frame (before : Kept bits pool s) (after : Kept bits pool v)
    (ran : s.step (.call .availableTake) = some v) :
    ∃ buffer, v.transport.taken = s.transport.taken ++ [buffer] ∧
      v.transport.held = s.transport.held ++ [⟨buffer.availIdx, s.transport.taken.length⟩] ∧
      v.transport.slaveAt = .idle ∧ v.posted = s.posted ∧
      v.posted[s.transport.taken.length]? = some (v.memory buffer.buffer) := by
  obtain ⟨_, u, moved, rfl⟩ := step_call_iff.mp ran
  obtain ⟨recorded, maps⟩ := Transport.step_recorded moved
  have standing : u.slaveAt = .idle := by
    obtain ⟨_, later⟩ := Option.ite_none_right_eq_some.mp (Transport.step_slave rfl moved)
    obtain ⟨_, _, final⟩ := Option.bind_eq_some_iff.mp later
    rw [← Option.some.inj final]
  cases recorded with
  | taken buffer records =>
    simp only [Transport.records, Records.mk.injEq] at records
    obtain ⟨offered, taken, held, _, _⟩ := records
    have left : s.transport.taken.length < s.transport.offered.length := by
      have visible := after.inv.counted.takenVisible
      rw [record_transport, offered, taken, List.length_append, List.length_singleton] at visible
      omega
    have found : u.taken[s.transport.taken.length]? = some buffer := by
      rw [taken, List.getElem?_concat_length]
    have address : buffer.buffer =
        s.transport.place (s.transport.bufOf s.transport.taken.length) := by
      rw [(taken_shown after.inv after.single found).1]
      change u.place (u.bufOf _) = _
      rw [place_same maps, Transport.bufOf, Transport.bufOf, offered]
    refine ⟨buffer, taken, held, standing, rfl, ?_⟩
    rw [record_memory, address]
    exact before.available _ le_rfl left
  | nothing event quiet records => cases quiet

/-- The slave gives a buffer out of its hands. -/
theorem return_frame {flight : Flight} {len : Nat}
    (ran : s.step (.call (.consumedStore flight len)) = some v) :
    v.transport.held = s.transport.held.erase flight ∧
      v.transport.taken = s.transport.taken ∧ v.transport.slaveAt = .publishing ∧
      v.posted = s.posted := by
  obtain ⟨_, u, moved, rfl⟩ := step_call_iff.mp ran
  have standing : u.slaveAt = .publishing := by
    obtain ⟨_, final⟩ := Option.ite_none_right_eq_some.mp (Transport.step_slave rfl moved)
    rw [← Option.some.inj final]
  cases (Transport.step_recorded moved).1 with
  | consumed flight len holds records =>
    simp only [Transport.records, Records.mk.injEq] at records
    exact ⟨records.2.2.1, records.2.1, standing, rfl⟩
  | nothing event quiet records => cases quiet

/-- A call disturbs no buffer in the slave's hands but the one it returns. -/
theorem call_undisturbed (kept : Kept bits pool s) (ran : s.step (.call event) = some v)
    {flight : Flight} (holds : flight ∈ s.transport.held)
    (other : ∀ len, event ≠ .consumedStore flight len) : Undisturbed s v flight := by
  have taken := kept.held_lt holds
  have posted : flight.serial < s.posted.length := by
    have visible := kept.inv.counted.takenVisible
    rw [kept.postedAll]
    omega
  obtain ⟨_, u, moved, rfl⟩ := step_call_iff.mp ran
  cases (Transport.step_recorded moved).1 with
  | offered offer records =>
    simp only [Transport.records, Records.mk.injEq] at records
    refine ⟨records.2.2.1 ▸ holds, congrArg (fun list => list[flight.serial]?) records.2.1, ?_, rfl⟩
    exact List.getElem?_append_left posted
  | taken buffer records =>
    simp only [Transport.records, Records.mk.injEq] at records
    refine ⟨?_, ?_, rfl, rfl⟩
    · change flight ∈ u.held
      rw [records.2.2.1]
      exact List.mem_append_left _ holds
    · change u.taken[flight.serial]? = _
      rw [records.2.1, List.getElem?_append_left taken]
  | consumed returned len _ records =>
    simp only [Transport.records, Records.mk.injEq] at records
    refine ⟨?_, congrArg (fun list => list[flight.serial]?) records.2.1, rfl, rfl⟩
    change flight ∈ u.held
    rw [records.2.2.1]
    refine (List.mem_erase_of_ne ?_).mpr holds
    rintro rfl
    exact other len rfl
  | reclaimed buffer records =>
    simp only [Transport.records, Records.mk.injEq] at records
    exact ⟨records.2.2.1 ▸ holds, congrArg (fun list => list[flight.serial]?) records.2.1, rfl, rfl⟩
  | nothing event quiet records =>
    simp only [Transport.records, Records.mk.injEq] at records
    rw [record_nothing u quiet]
    exact ⟨records.2.2.1 ▸ holds, congrArg (fun list => list[flight.serial]?) records.2.1, rfl, rfl⟩

/-- A write of the slave disturbs no other buffer in its hands. -/
theorem slaveWrite_undisturbed (kept : Kept bits pool s) {written flight : Flight} {value : α}
    (ran : s.step (.slaveWrite written value) = some v) (holds : flight ∈ s.transport.held)
    (different : flight.serial ≠ written.serial) : Undisturbed s v flight := by
  obtain ⟨also, result⟩ := Option.ite_none_right_eq_some.mp ran
  obtain rfl := Option.some.inj result
  exact ⟨holds, rfl, rfl, Function.update_of_ne (kept.handed_apart holds also different) _ _⟩

/-- A write of the master disturbs none. -/
theorem masterWrite_undisturbed (kept : Kept bits pool s) {flight : Flight} {buf : Nat}
    {value : α} (ran : s.step (.masterWrite buf value) = some v)
    (holds : flight ∈ s.transport.held) : Undisturbed s v flight := by
  obtain ⟨owns, result⟩ := Option.ite_none_right_eq_some.mp ran
  obtain rfl := Option.some.inj result
  exact ⟨holds, rfl, rfl, Function.update_of_ne (kept.owned_apart holds owns) _ _⟩

/-- What the slave writes is in its buffer, and the transport stays. -/
theorem slaveWrite_value {flight : Flight} {value : α}
    (ran : s.step (.slaveWrite flight value) = some v) :
    v.transport = s.transport ∧ v.memory (s.transport.handed flight) = value := by
  obtain ⟨_, result⟩ := Option.ite_none_right_eq_some.mp ran
  obtain rfl := Option.some.inj result
  exact ⟨rfl, Function.update_self _ _ _⟩

/-- The index of a buffer in the slave's hands is not cut by its 16 bits. -/
theorem Kept.idx_small (small : bits ≤ 15) (kept : Kept bits pool s)
    {buffer : AvailableBuffer} {serial : Nat} (has : s.transport.Has buffer serial) :
    u16 buffer.availIdx = buffer.availIdx := by
  have onWay : (⟨buffer.availIdx, serial⟩ : Flight) ∈ s.transport.flights :=
    List.mem_append_left _ (List.mem_append_right _ has.holds)
  have inTable : buffer.availIdx < s.transport.ring.num :=
    kept.inv.stored.owned.head_lt onWay
  rw [kept.inv.stored.num] at inTable
  have bound := Transport.num_le small
  exact u16_of_lt _ (by omega)

/-- A call of the slave is let through whenever the vring lets it. -/
theorem call_enabled (ofSlave : event.ofMaster = false) {u : Transport}
    (moved : s.transport.slaveStep event = some u) :
    ∃ next, s.step (.call event) = some next := by
  have admitted : s.admits event = true := by
    cases event with
    | addStore offer => cases ofSlave
    | _ => rfl
  have stepped : s.transport.step event = some u := by
    rw [Transport.step, ofSlave]
    exact moved
  exact ⟨s.record u event, step_call_iff.mpr ⟨admitted, u, stepped, rfl⟩⟩

/-- A master that is before the move of the available index can move it. -/
theorem addPublish_enabled (before : s.transport.masterAt = .publishing) :
    ∃ next, s.step (.call .addPublish) = some next ∧ next.transport.masterAt = .idle ∧
      next.posted = s.posted := by
  have moved : s.transport.step .addPublish = some _ := if_pos before
  exact ⟨_, step_call_iff.mpr ⟨rfl, _, moved, rfl⟩, rfl, rfl⟩

/-- The slave can write to what it has in its hands. -/
theorem write_enabled {flight : Flight} (holds : flight ∈ s.transport.held) (value : α) :
    ∃ next, s.step (.slaveWrite flight value) = some next := by
  rw [step, if_pos holds]
  exact ⟨_, rfl⟩

/-- After the look for a buffer the slave stands behind the test or where it was. -/
theorem poll_stands (ran : s.step (.call .availablePoll) = some v) :
    v.transport.slaveAt = .taking ∨ v.transport.slaveAt = .idle := by
  obtain ⟨_, u, moved, rfl⟩ := step_call_iff.mp ran
  obtain ⟨_, polled⟩ := Option.ite_none_right_eq_some.mp (Transport.step_slave rfl moved)
  obtain rfl := Option.some.inj polled
  change (if _ then SlaveAt.taking else SlaveAt.idle) = _ ∨ (if _ then _ else _) = _
  split
  · exact Or.inl rfl
  · exact Or.inr rfl

/-- The slave has finished its call when the entry is published. -/
theorem publish_stands (ran : s.step (.call .consumedPublish) = some v) :
    v.transport.slaveAt = .idle := by
  obtain ⟨_, u, moved, rfl⟩ := step_call_iff.mp ran
  obtain ⟨_, final⟩ := Option.ite_none_right_eq_some.mp (Transport.step_slave rfl moved)
  rw [record_transport, ← Option.some.inj final]

/-- A kick leaves the slave where it is. -/
theorem kick_stands (ran : s.step (.call .slaveKick) = some v) :
    v.transport.slaveAt = s.transport.slaveAt := by
  obtain ⟨_, u, moved, rfl⟩ := step_call_iff.mp ran
  obtain ⟨_, final⟩ := Option.ite_none_right_eq_some.mp (Transport.step_slave rfl moved)
  rw [record_transport, ← Option.some.inj final]

/-- A run of such steps of the master on the vring is one with the buffers, and adds
nothing to what was returned. -/
theorem run_collects {t u : Transport} (at_start : s.transport = t)
    (back : Transport.Collects t u) :
    ∃ (events : List TransportEvent) (r : Shared α), (∀ event ∈ events, event.ofMaster = true) ∧
      run step s (events.map .call) = some r ∧ r.transport = u ∧ r.returned = s.returned := by
  obtain ⟨events, all, ran⟩ := back
  have follows : ∀ t event next (within : Shared α), Transport.collecting event = true →
      within.transport = t ∧ within.returned = s.returned → t.step event = some next →
        ∃ after, within.step (.call event) = some after ∧
          after.transport = next ∧ after.returned = s.returned := by
    rintro _ event next within collecting ⟨rfl, returned⟩ taken
    have admitted : within.admits event = true := by
      cases event with
      | addStore offer => cases collecting
      | _ => rfl
    have other : ∀ flight len, event ≠ .consumedStore flight len := by
      rintro flight len rfl
      cases collecting
    exact ⟨within.record next event, step_call_iff.mpr ⟨admitted, next, taken, rfl⟩,
      record_transport next, (record_returned next other).trans returned⟩
  obtain ⟨r, followed, same, returned⟩ := simulation_run Transport.step step SharedEvent.call
    (fun event => Transport.collecting event = true)
    (fun t within => within.transport = t ∧ within.returned = s.returned) follows t u s events all
    ⟨at_start, rfl⟩ ran
  exact ⟨events, r, fun event member => Transport.ofMaster_of_collecting (all event member),
    followed, same, returned⟩

/-- As long as the slave is not before the move of its index, the master can come to find
everything that the slave has returned. -/
theorem Kept.collects (small : bits ≤ 15) (kept : Kept bits pool s)
    (visible : s.transport.slaveAt ≠ .publishing) :
    ∃ (events : List TransportEvent) (r : Shared α), (∀ event ∈ events, event.ofMaster = true) ∧
      run step s (events.map .call) = some r ∧ r.returned = s.returned ∧
      r.reaped = s.returned := by
  obtain ⟨u, back, all⟩ := Transport.master_collects small kept.inv visible
  obtain ⟨events, r, ofMaster, ran, rfl, returned⟩ := run_collects rfl back
  have after : Kept bits pool r := invariant_run step (fun _ _ => True) (Kept bits pool)
    (fun state event next kept _ taken => step_kept small state event next kept taken) _ _ _ kept
    (along_of_forall _ _ _ _ (fun _ _ _ => trivial)) ran
  refine ⟨events, r, ofMaster, ran, returned, ?_⟩
  rw [after.reaped, returned, all, ← kept.returnedAll, List.take_length]

/-! A master that posts its buffers with the length it has them with, and a slave that
returns them with the length of their descriptor, keep all buffers at one size. -/

/-- All buffers have one size. -/
structure Sized (size : Nat) (s : Shared α) : Prop where
  owned : ∀ buf ∈ s.owned, buf.len = size
  offered : ∀ offer ∈ s.transport.offered, ∀ buf ∈ offer.bufs, buf.len = size
  consumed : ∀ entry ∈ s.transport.consumed, entry.len = size

/-- A call keeps the size, unless it returns a buffer with another one. -/
theorem Sized.call {size : Nat} (sized : Sized size s) (kept : Kept bits pool v)
    (ran : s.step (.call event) = some v)
    (length : ∀ flight len, event = .consumedStore flight len → len = size) :
    Sized size v := by
  obtain ⟨admitted, u, moved, rfl⟩ := step_call_iff.mp ran
  have inv := kept.inv
  rw [record_transport] at inv
  cases (Transport.step_recorded moved).1 with
  | offered offer records =>
    obtain ⟨len, bufs, owns⟩ := admits_addStore admitted
    simp only [Transport.records, Records.mk.injEq] at records
    refine ⟨?_, ?_, ?_⟩
    · intro buf member
      exact sized.owned buf (List.mem_of_mem_erase member)
    · change ∀ other ∈ u.offered, _
      rw [records.1]
      intro other member buf listed
      rcases List.mem_append.mp member with old | new
      · exact sized.offered other old buf listed
      · rw [List.mem_singleton.mp new, bufs, List.mem_singleton] at listed
        rw [listed]
        exact sized.owned _ owns
    · change ∀ entry ∈ u.consumed, _
      rw [records.2.2.2.1]
      exact sized.consumed
  | taken buffer records =>
    simp only [Transport.records, Records.mk.injEq] at records
    exact ⟨sized.owned, records.1 ▸ sized.offered, records.2.2.2.1 ▸ sized.consumed⟩
  | consumed flight len holds records =>
    simp only [Transport.records, Records.mk.injEq] at records
    refine ⟨sized.owned, records.1 ▸ sized.offered, ?_⟩
    change ∀ entry ∈ u.consumed, _
    rw [records.2.2.2.1]
    intro entry member
    rcases List.mem_append.mp member with old | new
    · exact sized.consumed entry old
    · rw [List.mem_singleton.mp new]
      exact length flight len rfl
  | reclaimed buffer records =>
    simp only [Transport.records, Records.mk.injEq] at records
    refine ⟨?_, records.1 ▸ sized.offered, records.2.2.2.1 ▸ sized.consumed⟩
    obtain ⟨entry, found, _, given⟩ := reclaimed_entry inv records.2.2.2.2
    rw [records.2.2.2.1] at found
    intro buf member
    rcases List.mem_append.mp member with old | new
    · exact sized.owned buf old
    · rw [records.2.2.2.2, List.drop_left, List.map_singleton, List.mem_singleton] at new
      rw [new]
      exact given.trans (sized.consumed entry (List.mem_of_getElem? found))
  | nothing event quiet records =>
    simp only [Transport.records, Records.mk.injEq] at records
    rw [record_nothing u quiet]
    exact ⟨sized.owned, records.1 ▸ sized.offered, records.2.2.2.1 ▸ sized.consumed⟩

/-- A buffer that was handed to the slave has the size. -/
theorem Sized.handed {size : Nat} (sized : Sized size s) (kept : Kept bits pool s)
    {serial : Nat} {buffer : AvailableBuffer}
    (found : s.transport.taken[serial]? = some buffer) : buffer.len = size := by
  obtain ⟨_, offer, offered, bufs⟩ := taken_shown kept.inv kept.single found
  exact sized.offered offer offered ⟨offer.cookie, buffer.len⟩ (bufs ▸ List.mem_singleton_self _)

/-- So has its descriptor. -/
theorem Sized.descriptor {size : Nat} (sized : Sized size s) (kept : Kept bits pool s)
    {flight : Flight} (holds : flight ∈ s.transport.held) :
    virtqueueGetBufferLength s.transport.ring flight.head = size := by
  have onWay : flight ∈ s.transport.flights :=
    List.mem_append_left _ (List.mem_append_right _ holds)
  obtain ⟨offer, found, _, _, posted⟩ := kept.inv.stored.owned.carries flight onWay
  have offered := List.mem_of_getElem? found
  obtain ⟨len, bufs⟩ := kept.single offer offered
  rw [bufs] at posted
  exact posted.2.1.trans
    (sized.offered offer offered ⟨offer.cookie, len⟩ (bufs ▸ List.mem_singleton_self _))

end Frames

/-! ## Every run -/

section Runs

variable (bits features : Nat) (masterIo slaveIo : ShmIo) (pool : List VirtqueueBuf)
  (memory : Nat → α)

/-- At the start the master owns the pool. -/
theorem initial_kept
    (apart : ((pool.map (·.buf)).map
      (fun buf => slaveIo.physToVirt (masterIo.virtToPhys buf))).Nodup) :
    Kept bits pool (initial bits features masterIo slaveIo pool memory) where
  inv := Transport.initial_inv bits features masterIo slaveIo
  apart := apart
  single := fun _ member => absurd member List.not_mem_nil
  conserved := List.Perm.of_eq (List.append_nil _)
  available := fun serial _ upper => absurd upper (Nat.not_lt_zero serial)
  used := fun _ _ _ found => absurd found (by simp [initial, Transport.initial])
  seen := rfl
  reaped := rfl
  postedAll := rfl
  returnedAll := rfl

variable (events : List (SharedEvent α)) (s : Shared α)

/-- Every run keeps the accounts. -/
theorem run_kept (small : bits ≤ 15)
    (apart : ((pool.map (·.buf)).map
      (fun buf => slaveIo.physToVirt (masterIo.virtToPhys buf))).Nodup)
    (ran : run step (initial bits features masterIo slaveIo pool memory) events = some s) :
    Kept bits pool s :=
  invariant_run step (fun _ _ => True) (Kept bits pool)
    (fun state event next kept _ taken => step_kept small state event next kept taken)
    _ s events (initial_kept bits features masterIo slaveIo pool memory apart)
    (along_of_forall _ _ _ _ (fun _ _ _ => trivial)) ran

/-- The master posts one buffer at a time, with the buffer as its cookie, and no two buffers
of the pool have one address. Whatever the two sides post, take, return and write then, and
in whatever order, each buffer of the pool is with the master or on its way and not both;
the slave has found in the buffers, in the order of posting, what the master had left
there; and the master has found, in the order of return, what the slave had left. -/
theorem contents_handed_over (small : bits ≤ 15)
    (apart : ((pool.map (·.buf)).map
      (fun buf => slaveIo.physToVirt (masterIo.virtToPhys buf))).Nodup)
    (ran : run step (initial bits features masterIo slaveIo pool memory) events = some s) :
    (s.owned.map (·.buf) ++ s.transport.onWay.map s.transport.bufOf).Perm
        (pool.map (·.buf)) ∧
      s.seen = s.posted.take s.transport.taken.length ∧
      s.reaped = s.returned.take s.transport.reclaimed.length ∧
      s.posted.length = s.transport.offered.length ∧
      s.returned.length = s.transport.consumed.length := by
  have kept := run_kept bits features masterIo slaveIo pool memory events s small apart ran
  exact ⟨kept.conserved, kept.seen, kept.reaped, kept.postedAll, kept.returnedAll⟩

/-- Two buffers go over and come back in the other order, written on both sides. -/
def exchange : List (SharedEvent Nat) :=
  [.masterWrite 4096 10, .call (.addStore ⟨[⟨4096, 512⟩], 1, 4096⟩), .call .addPublish,
    .masterWrite 8192 20, .call (.addStore ⟨[⟨8192, 512⟩], 1, 8192⟩), .call .addPublish,
    .call .availablePoll, .call .availableTake, .call .availablePoll, .call .availableTake,
    .slaveWrite ⟨1, 1⟩ 21, .call (.consumedStore ⟨1, 1⟩ 512), .call .consumedPublish,
    .slaveWrite ⟨0, 0⟩ 11, .call (.consumedStore ⟨0, 0⟩ 512), .call .consumedPublish,
    .call .getPoll, .call .getTake]

/-- Two messages to the slave and one back. -/
theorem contents_handed_over_sample :
    ∃ s, run step (initial 1 0 ⟨id, id⟩ ⟨id, id⟩ [⟨4096, 512⟩, ⟨8192, 512⟩] (fun _ => 0))
        exchange = some s ∧
      s.seen = [10, 20] ∧ s.reaped = [21] ∧
      s.reaped = s.returned.take s.transport.reclaimed.length :=
  ⟨(run step (initial 1 0 ⟨id, id⟩ ⟨id, id⟩ [⟨4096, 512⟩, ⟨8192, 512⟩] (fun _ => 0))
      exchange).get (by decide), (Option.some_get _).symm, by decide, by decide,
    (contents_handed_over 1 0 ⟨id, id⟩ ⟨id, id⟩ [⟨4096, 512⟩, ⟨8192, 512⟩] (fun _ => 0)
      exchange _ (by decide) (by decide) (Option.some_get _).symm).2.2.1⟩

end Runs

end Shared

end Stm32Ecu.Virtio
