import Stm32Ecu.Doorbell
import Stm32Ecu.VringTransport

/-!
# No lost wake-up on the vring

Either side may go to sleep after `virtqueue_enable_cb` has found nothing, and the other
side decides in `virtqueue_kick` whether to wake it: by a flag, or with
`VIRTIO_RING_F_EVENT_IDX` by an event index and the number of entries queued since the
last kick. Both directions are doorbells in the sense of the library, with the two
mechanisms behind the asking.

The number of queued entries is kept in 16 bits. As long as it does not wrap between two
kicks, a side that sleeps while the other has kicked for everything has nothing to do.
-/

namespace Stm32Ecu.Virtio.Transport

open Runs

/-- Offers the slave can see. -/
def published (t : Transport) : Nat := t.offered.length - t.unpublished

/-- Returned buffers the master can see. -/
def returned (t : Transport) : Nat := t.consumed.length - t.unreturned

/-- The slave has asked to be woken at what it will take next. -/
def slaveAsked (t : Transport) : Prop :=
  if t.slave.hasEventIdx then vringAvailEvent t.ring = t.taken.length % 65536
  else t.ring.usedFlags &&& ringFNoNotify = 0

/-- The master has asked to be woken at what it will take back next. -/
def masterAsked (t : Transport) : Prop :=
  if t.master.hasEventIdx then vringUsedEvent t.ring = t.reclaimed.length % 65536
  else t.ring.availFlags &&& ringFNoNotify = 0

/-- The bell the master rings for the slave. -/
def slaveBell (t : Transport) : Bell where
  visible := t.published
  consumed := t.taken.length
  unrung := t.master.queuedCnt
  asked := t.slaveAsked
  looking := t.slaveAt = .arming
  asleep := t.slaveAsleep = true

/-- The bell the slave rings for the master. -/
def masterBell (t : Transport) : Bell where
  visible := t.returned
  consumed := t.reclaimed.length
  unrung := t.slave.queuedCnt
  asked := t.masterAsked
  looking := t.masterAt = .arming
  asleep := t.masterAsleep = true

/-- The two control blocks belong to the two ends of one device, and each side has at
most queued what it has made visible. -/
structure Paired (t : Transport) : Prop where
  masterRole : t.master.role = .master
  slaveRole : t.slave.role = .slave
  sameFeatures : t.slave.features = t.master.features
  masterQueued : t.master.queuedCnt ≤ t.published
  slaveQueued : t.slave.queuedCnt ≤ t.returned
  masterSmall : t.master.queuedCnt < 65536
  slaveSmall : t.slave.queuedCnt < 65536

/-- The counts of queued entries do not wrap at this step. -/
def queueRoom (t : Transport) (event : TransportEvent) : Prop :=
  (event = .addPublish → t.master.queuedCnt < 65535) ∧
    (event = .consumedPublish → t.slave.queuedCnt < 65535)

instance (t : Transport) (event : TransportEvent) : Decidable (t.queueRoom event) :=
  inferInstanceAs (Decidable (_ ∧ _))

section Kicks

variable {bits : Nat} {t : Transport}

/-- A kick of the master reaches a slave that has asked and is behind. -/
theorem masterKick_reaches (small : bits ≤ 15) (inv : Inv bits t) (paired : t.Paired)
    (asked : t.slaveAsked) (behind : t.taken.length < t.published)
    (queued : t.published ≤ t.taken.length + t.master.queuedCnt) :
    vqRingMustNotify t.master t.ring = true := by
  obtain ⟨counted, stored⟩ := inv
  have room := stored.owned.room
  have bound := num_le small
  have fits := paired.masterSmall
  have earlier := paired.masterQueued
  rw [flights_length, stored.num] at room
  have visible : t.published ≤ t.offered.length := Nat.sub_le _ _
  have sameIdx : t.slave.hasEventIdx = t.master.hasEventIdx := by
    rw [Virtqueue.hasEventIdx, paired.sameFeatures, Virtqueue.hasEventIdx]
  unfold slaveAsked at asked
  rw [sameIdx] at asked
  unfold vqRingMustNotify
  rw [paired.masterRole]
  cases mode : t.master.hasEventIdx with
  | true =>
    rw [mode, if_pos rfl] at asked
    have index : t.ring.availIdx = t.published % 65536 := counted.availIdx
    simp only
    rw [asked, index, u16Sub_queued _ _ earlier fits,
      vringNeedEvent_iff _ _ _ (Nat.le_of_lt behind) (by omega) (Nat.sub_le _ _) (by omega)]
    omega
  | false =>
    rw [mode] at asked
    simpa using asked

/-- A kick of the slave reaches a master that has asked and is behind. -/
theorem slaveKick_reaches (small : bits ≤ 15) (inv : Inv bits t) (paired : t.Paired)
    (asked : t.masterAsked) (behind : t.reclaimed.length < t.returned)
    (queued : t.returned ≤ t.reclaimed.length + t.slave.queuedCnt) :
    vqRingMustNotify t.slave t.ring = true := by
  obtain ⟨counted, stored⟩ := inv
  have room := stored.owned.room
  have bound := num_le small
  have fits := paired.slaveSmall
  have earlier := paired.slaveQueued
  rw [flights_length, stored.num] at room
  have visible : t.returned ≤ t.consumed.length := Nat.sub_le _ _
  have sameIdx : t.slave.hasEventIdx = t.master.hasEventIdx := by
    rw [Virtqueue.hasEventIdx, paired.sameFeatures, Virtqueue.hasEventIdx]
  unfold masterAsked at asked
  unfold vqRingMustNotify
  rw [paired.slaveRole, sameIdx]
  cases mode : t.master.hasEventIdx with
  | true =>
    rw [mode, if_pos rfl] at asked
    have index : t.ring.usedIdx = t.returned % 65536 := counted.usedIdx
    simp only
    rw [asked, index, u16Sub_queued _ _ earlier fits,
      vringNeedEvent_iff _ _ _ (Nat.le_of_lt behind) (by omega) (Nat.sub_le _ _) (by omega)]
    omega
  | false =>
    rw [mode] at asked
    simpa using asked

end Kicks

section Moves

variable {bits : Nat} {t u : Transport}

/-- A step that changes nothing the slave's bell is made of. -/
theorem slaveBell_stays (sameVisible : u.published = t.published)
    (sameConsumed : u.taken.length = t.taken.length)
    (sameQueued : u.master.queuedCnt = t.master.queuedCnt)
    (sameAsked : u.slaveAsked ↔ t.slaveAsked)
    (sameAt : u.slaveAt = .arming ↔ t.slaveAt = .arming)
    (sameAsleep : u.slaveAsleep = t.slaveAsleep) : Bell.Move t.slaveBell u.slaveBell := by
  have same : u.slaveBell = t.slaveBell := by
    simp only [slaveBell, sameVisible, sameConsumed, sameQueued, sameAsked, sameAt, sameAsleep]
  rw [same]
  exact .stay _

/-- A step that changes nothing the master's bell is made of. -/
theorem masterBell_stays (sameVisible : u.returned = t.returned)
    (sameConsumed : u.reclaimed.length = t.reclaimed.length)
    (sameQueued : u.slave.queuedCnt = t.slave.queuedCnt)
    (sameAsked : u.masterAsked ↔ t.masterAsked)
    (sameAt : u.masterAt = .arming ↔ t.masterAt = .arming)
    (sameAsleep : u.masterAsleep = t.masterAsleep) : Bell.Move t.masterBell u.masterBell := by
  have same : u.masterBell = t.masterBell := by
    simp only [masterBell, sameVisible, sameConsumed, sameQueued, sameAsked, sameAt, sameAsleep]
  rw [same]
  exact .stay _

/-- A step that changes neither a role, nor a feature, nor a count of queued or visible
entries. -/
theorem Paired.stays (paired : t.Paired) (sameMasterRole : u.master.role = t.master.role)
    (sameSlaveRole : u.slave.role = t.slave.role)
    (sameMaster : u.master.features = t.master.features)
    (sameSlave : u.slave.features = t.slave.features)
    (samePublished : u.published = t.published) (sameReturned : u.returned = t.returned)
    (sameMasterQueued : u.master.queuedCnt = t.master.queuedCnt)
    (sameSlaveQueued : u.slave.queuedCnt = t.slave.queuedCnt) : u.Paired where
  masterRole := sameMasterRole.trans paired.masterRole
  slaveRole := sameSlaveRole.trans paired.slaveRole
  sameFeatures := (sameSlave.trans paired.sameFeatures).trans sameMaster.symm
  masterQueued := by
    rw [sameMasterQueued, samePublished]
    exact paired.masterQueued
  slaveQueued := by
    rw [sameSlaveQueued, sameReturned]
    exact paired.slaveQueued
  masterSmall := sameMasterQueued ▸ paired.masterSmall
  slaveSmall := sameSlaveQueued ▸ paired.slaveSmall

/-- A step that makes one more offer visible. -/
theorem slaveBell_publishes (visible : u.published = t.published + 1)
    (sameConsumed : u.taken.length = t.taken.length)
    (queued : u.master.queuedCnt = t.master.queuedCnt + 1)
    (sameAsked : u.slaveAsked ↔ t.slaveAsked)
    (sameAt : u.slaveAt = .arming ↔ t.slaveAt = .arming)
    (sameAsleep : u.slaveAsleep = t.slaveAsleep) : Bell.Move t.slaveBell u.slaveBell := by
  have grown := Bell.Move.publish t.slaveBell
  simpa only [slaveBell, visible, sameConsumed, queued, sameAsked, sameAt, sameAsleep] using grown

/-- A step that makes one more returned buffer visible. -/
theorem masterBell_publishes (visible : u.returned = t.returned + 1)
    (sameConsumed : u.reclaimed.length = t.reclaimed.length)
    (queued : u.slave.queuedCnt = t.slave.queuedCnt + 1)
    (sameAsked : u.masterAsked ↔ t.masterAsked)
    (sameAt : u.masterAt = .arming ↔ t.masterAt = .arming)
    (sameAsleep : u.masterAsleep = t.masterAsleep) : Bell.Move t.masterBell u.masterBell := by
  have grown := Bell.Move.publish t.masterBell
  simpa only [masterBell, visible, sameConsumed, queued, sameAsked, sameAt, sameAsleep] using grown

/-- The slave's request is in its features, the event index or the flags of the used ring,
and its own count. -/
theorem slaveAsked_same (sameFeatures : u.slave.features = t.slave.features)
    (sameEvent : vringAvailEvent u.ring = vringAvailEvent t.ring)
    (sameFlags : u.ring.usedFlags = t.ring.usedFlags)
    (sameConsumed : u.taken.length = t.taken.length) : u.slaveAsked ↔ t.slaveAsked := by
  rw [slaveAsked, slaveAsked, Virtqueue.hasEventIdx, Virtqueue.hasEventIdx, sameFeatures,
    sameEvent, sameFlags, sameConsumed]

/-- The master's request is in its features, the event index or the flags of the available
ring, and its own count. -/
theorem masterAsked_same (sameFeatures : u.master.features = t.master.features)
    (sameEvent : vringUsedEvent u.ring = vringUsedEvent t.ring)
    (sameFlags : u.ring.availFlags = t.ring.availFlags)
    (sameConsumed : u.reclaimed.length = t.reclaimed.length) : u.masterAsked ↔ t.masterAsked := by
  rw [masterAsked, masterAsked, Virtqueue.hasEventIdx, Virtqueue.hasEventIdx, sameFeatures,
    sameEvent, sameFlags, sameConsumed]

/-- A masked index is inside the ring, so a slot is never the entry behind the ring. -/
theorem masked_ne_num (stored : Stored bits t) (idx entries : Nat) (size : entries = 2 ^ bits) :
    idx &&& (entries - 1) ≠ t.ring.num := by
  rw [size, Nat.and_two_pow_sub_one_eq_mod, stored.num]
  exact Nat.ne_of_lt (Nat.mod_lt _ (Nat.two_pow_pos bits))

/-- Posting a chain moves neither bell. -/
theorem addStore_moves (inv : Inv bits t) (paired : t.Paired) {offer : Offer}
    (taken : t.masterStep (.addStore offer) = some u) :
    Bell.Move t.slaveBell u.slaveBell ∧ Bell.Move t.masterBell u.masterBell ∧ u.Paired := by
  obtain ⟨⟨idle, _⟩, rest⟩ := Option.ite_none_right_eq_some.mp taken
  obtain ⟨⟨master, ring⟩, ran, result⟩ := Option.bind_eq_some_iff.mp rest
  obtain ⟨desc, descx, head, free, rfl, rfl⟩ := addBufferStore_shape ran
  obtain rfl := Option.some.inj result
  have slot := masked_ne_num inv.stored t.ring.availIdx _ inv.stored.masterEntries
  have visible : (t.offered ++ [offer]).length - 1 = t.published := by
    simp [published, unpublished, idle]
  have sameEvent : ∀ value, Function.update t.ring.availRing
      (t.ring.availIdx &&& (t.master.nentries - 1)) value t.ring.num =
        t.ring.availRing t.ring.num :=
    fun value => Function.update_of_ne slot.symm _ _
  exact ⟨slaveBell_stays visible rfl rfl Iff.rfl Iff.rfl rfl,
    masterBell_stays rfl rfl rfl (masterAsked_same rfl (sameEvent _) rfl rfl) (by simp [idle]) rfl,
    paired.stays rfl rfl rfl rfl visible rfl rfl rfl⟩

/-- The available index moves: one more entry behind the slave's bell. -/
theorem addPublish_moves (inv : Inv bits t) (paired : t.Paired)
    (room : t.master.queuedCnt < 65535)
    (taken : t.masterStep .addPublish = some u) :
    Bell.Move t.slaveBell u.slaveBell ∧ Bell.Move t.masterBell u.masterBell ∧ u.Paired := by
  obtain ⟨publishing, result⟩ := Option.ite_none_right_eq_some.mp taken
  obtain rfl := Option.some.inj result
  have before : t.unpublished = 1 := by simp [unpublished, publishing]
  have some_offer := inv.counted.takenVisible
  have count : u16 (t.master.queuedCnt + 1) = t.master.queuedCnt + 1 := u16_of_lt _ (by omega)
  have visible : t.offered.length - 0 = t.published + 1 := by
    rw [published, before]
    omega
  refine ⟨slaveBell_publishes visible rfl count Iff.rfl Iff.rfl rfl,
    masterBell_stays rfl rfl rfl Iff.rfl (by simp [publishing]) rfl,
    ⟨paired.masterRole, paired.slaveRole, paired.sameFeatures, ?_, paired.slaveQueued, ?_,
      paired.slaveSmall⟩⟩
  · have queued := paired.masterQueued
    change u16 (t.master.queuedCnt + 1) ≤ t.offered.length - 0
    omega
  · change u16 (t.master.queuedCnt + 1) < 65536
    omega

/-- Looking for a used buffer moves neither bell. -/
theorem getPoll_moves (paired : t.Paired) (taken : t.masterStep .getPoll = some u) :
    Bell.Move t.slaveBell u.slaveBell ∧ Bell.Move t.masterBell u.masterBell ∧ u.Paired := by
  obtain ⟨idle, result⟩ := Option.ite_none_right_eq_some.mp taken
  obtain rfl := Option.some.inj result
  have visible : published
      { t with masterAt := if hasUsed t.master t.ring then .reaping else .idle } =
        t.published := by
    by_cases found : hasUsed t.master t.ring = true <;> simp [published, unpublished, idle, found]
  refine ⟨slaveBell_stays visible rfl rfl Iff.rfl Iff.rfl rfl,
    masterBell_stays rfl rfl rfl Iff.rfl ?_ rfl,
    paired.stays rfl rfl rfl rfl visible rfl rfl rfl⟩
  by_cases found : hasUsed t.master t.ring = true <;> simp [idle, found]

/-- A master that takes a buffer back is awake. -/
theorem getTake_moves (paired : t.Paired) (taken : t.masterStep .getTake = some u) :
    Bell.Move t.slaveBell u.slaveBell ∧ Bell.Move t.masterBell u.masterBell ∧ u.Paired := by
  obtain ⟨reaping, rest⟩ := Option.ite_none_right_eq_some.mp taken
  obtain ⟨⟨buffer, master, ring⟩, ran, result⟩ := Option.bind_eq_some_iff.mp rest
  obtain ⟨desc, descx, head, free, rfl, rfl⟩ := getBufferTake_shape ran
  obtain rfl := Option.some.inj result
  have visible : t.offered.length - 0 = t.published := by
    simp [published, unpublished, reaping]
  exact ⟨slaveBell_stays visible rfl rfl Iff.rfl Iff.rfl rfl,
    .awake _ _ (by simp [masterBell]) (by simp [masterBell]),
    paired.stays rfl rfl rfl rfl visible rfl rfl rfl⟩

/-- A kick of the master rings the slave's bell. -/
theorem masterKick_moves (small : bits ≤ 15) (inv : Inv bits t) (paired : t.Paired)
    (taken : t.masterStep .masterKick = some u) :
    Bell.Move t.slaveBell u.slaveBell ∧ Bell.Move t.masterBell u.masterBell ∧ u.Paired := by
  obtain ⟨idle, result⟩ := Option.ite_none_right_eq_some.mp taken
  obtain rfl := Option.some.inj result
  refine ⟨?_, masterBell_stays rfl rfl rfl Iff.rfl Iff.rfl rfl,
    ⟨paired.masterRole, paired.slaveRole, paired.sameFeatures, Nat.zero_le _,
      paired.slaveQueued, by simp, paired.slaveSmall⟩⟩
  have rung := Bell.Move.ring t.slaveBell (vqRingMustNotify t.master t.ring = true)
    (masterKick_reaches small inv paired)
  have asleep : ((t.slaveAsleep && !vqRingMustNotify t.master t.ring) = true) =
      (t.slaveAsleep = true ∧ ¬ vqRingMustNotify t.master t.ring = true) := by
    simp
  simp only [slaveBell, asleep]
  exact rung

/-- A request of the master goes into the available ring. -/
theorem masterEnable_moves (inv : Inv bits t) (paired : t.Paired)
    (taken : t.masterStep .masterEnable = some u) :
    Bell.Move t.slaveBell u.slaveBell ∧ Bell.Move t.masterBell u.masterBell ∧ u.Paired := by
  obtain ⟨idle, result⟩ := Option.ite_none_right_eq_some.mp taken
  obtain rfl := Option.some.inj result
  have visible : t.offered.length - 0 = t.published := by
    simp [published, unpublished, idle]
  have sameUsed : (enableInterruptStore t.master t.ring 0).usedRing = t.ring.usedRing ∧
      (enableInterruptStore t.master t.ring 0).usedFlags = t.ring.usedFlags ∧
      (enableInterruptStore t.master t.ring 0).num = t.ring.num := by
    unfold enableInterruptStore
    rw [paired.masterRole]
    cases t.master.hasEventIdx <;> exact ⟨rfl, rfl, rfl⟩
  have sameEvent : vringAvailEvent (enableInterruptStore t.master t.ring 0) =
      vringAvailEvent t.ring := by
    rw [vringAvailEvent, sameUsed.1, sameUsed.2.2, vringAvailEvent]
  refine ⟨slaveBell_stays visible rfl rfl (slaveAsked_same rfl sameEvent sameUsed.2.1 rfl)
      Iff.rfl rfl,
    .ask _ _ ?_ (by simp [masterBell]), paired.stays rfl rfl rfl rfl visible rfl rfl rfl⟩
  · have count : u16 (t.reclaimed.length % 65536 + 0) = t.reclaimed.length % 65536 :=
      Nat.mod_mod _ _
    simp only [masterBell, masterAsked, enableInterruptStore, paired.masterRole]
    cases t.master.hasEventIdx with
    | true => rw [if_pos rfl, vringUsedEvent_set, inv.counted.usedConsIdx, count]
    | false => exact clearNoNotify_clear _

/-- The second look of the master sees whatever is visible. -/
theorem masterRecheck_moves (small : bits ≤ 15) (inv : Inv bits t) (paired : t.Paired)
    (taken : t.masterStep .masterRecheck = some u) :
    Bell.Move t.slaveBell u.slaveBell ∧ Bell.Move t.masterBell u.masterBell ∧ u.Paired := by
  obtain ⟨arming, result⟩ := Option.ite_none_right_eq_some.mp taken
  obtain rfl := Option.some.inj result
  have visible : t.offered.length - 0 = t.published := by
    simp [published, unpublished, arming]
  have sees : t.reclaimed.length < t.returned →
      enableInterruptRecheck t.master t.ring 0 = true := by
    intro behind
    obtain ⟨counted, stored⟩ := inv
    have room := stored.owned.room
    have bound := num_le small
    rw [flights_length, stored.num] at room
    have all : t.returned ≤ t.consumed.length := Nat.sub_le _ _
    have nused : virtqueueNused t.master t.ring = t.returned - t.reclaimed.length := by
      rw [virtqueueNused, counted.usedIdx, counted.usedConsIdx]
      exact FreeRunning.distance_mod 65536 _ _ (Nat.le_of_lt behind) (by omega)
    simp only [enableInterruptRecheck, paired.masterRole, nused, decide_eq_true_eq]
    omega
  refine ⟨slaveBell_stays visible rfl rfl Iff.rfl Iff.rfl rfl, ?_,
    paired.stays rfl rfl rfl rfl visible rfl rfl rfl⟩
  · have looked := Bell.Move.look t.masterBell arming
      (enableInterruptRecheck t.master t.ring 0 = true) sees
    have asleep : ((!enableInterruptRecheck t.master t.ring 0) = true) =
        ¬ enableInterruptRecheck t.master t.ring 0 = true := by
      simp
    have notLooking : (MasterAt.idle = MasterAt.arming) = False := by simp
    simp only [masterBell, asleep, notLooking]
    exact looked

/-- A master that declines notifications is awake. -/
theorem masterDisable_moves (paired : t.Paired)
    (taken : t.masterStep .masterDisable = some u) :
    Bell.Move t.slaveBell u.slaveBell ∧ Bell.Move t.masterBell u.masterBell ∧ u.Paired := by
  obtain ⟨idle, result⟩ := Option.ite_none_right_eq_some.mp taken
  obtain rfl := Option.some.inj result
  have sameUsed : (virtqueueDisableCb t.master t.ring).usedRing = t.ring.usedRing ∧
      (virtqueueDisableCb t.master t.ring).usedFlags = t.ring.usedFlags ∧
      (virtqueueDisableCb t.master t.ring).num = t.ring.num := by
    unfold virtqueueDisableCb
    rw [paired.masterRole]
    cases t.master.hasEventIdx <;> exact ⟨rfl, rfl, rfl⟩
  have sameEvent : vringAvailEvent (virtqueueDisableCb t.master t.ring) =
      vringAvailEvent t.ring := by
    rw [vringAvailEvent, sameUsed.1, sameUsed.2.2, vringAvailEvent]
  exact ⟨slaveBell_stays rfl rfl rfl (slaveAsked_same rfl sameEvent sameUsed.2.1 rfl)
      Iff.rfl rfl,
    .awake _ _ (by simp [masterBell]) (by simp [masterBell, idle]),
    paired.stays rfl rfl rfl rfl rfl rfl rfl rfl⟩

/-- Looking for an available buffer moves neither bell. -/
theorem availablePoll_moves (paired : t.Paired) (taken : t.slaveStep .availablePoll = some u) :
    Bell.Move t.slaveBell u.slaveBell ∧ Bell.Move t.masterBell u.masterBell ∧ u.Paired := by
  obtain ⟨idle, result⟩ := Option.ite_none_right_eq_some.mp taken
  obtain rfl := Option.some.inj result
  have visible : returned
      { t with slaveAt := if hasAvailable t.slave t.ring then .taking else .idle } =
        t.returned := by
    by_cases found : hasAvailable t.slave t.ring = true <;>
      simp [returned, unreturned, idle, found]
  refine ⟨slaveBell_stays rfl rfl rfl Iff.rfl ?_ rfl,
    masterBell_stays visible rfl rfl Iff.rfl Iff.rfl rfl,
    paired.stays rfl rfl rfl rfl rfl visible rfl rfl⟩
  by_cases found : hasAvailable t.slave t.ring = true <;> simp [idle, found]

/-- A slave that takes a buffer is awake. -/
theorem availableTake_moves (paired : t.Paired) (taken : t.slaveStep .availableTake = some u) :
    Bell.Move t.slaveBell u.slaveBell ∧ Bell.Move t.masterBell u.masterBell ∧ u.Paired := by
  obtain ⟨taking, rest⟩ := Option.ite_none_right_eq_some.mp taken
  obtain ⟨⟨buffer, slave⟩, ran, result⟩ := Option.bind_eq_some_iff.mp rest
  obtain ⟨_, read⟩ := Option.ite_none_right_eq_some.mp ran
  obtain ⟨rfl, rfl⟩ := Prod.mk.inj (Option.some.inj read)
  obtain rfl := Option.some.inj result
  have visible : t.consumed.length - 0 = t.returned := by
    simp [returned, unreturned, taking]
  exact ⟨.awake _ _ (by simp [slaveBell]) (by simp [slaveBell]),
    masterBell_stays visible rfl rfl Iff.rfl Iff.rfl rfl,
    paired.stays rfl rfl rfl rfl rfl visible rfl rfl⟩

/-- Returning a buffer moves neither bell before its index moves. -/
theorem consumedStore_moves (inv : Inv bits t) (paired : t.Paired) {flight : Flight} {len : Nat}
    (taken : t.slaveStep (.consumedStore flight len) = some u) :
    Bell.Move t.slaveBell u.slaveBell ∧ Bell.Move t.masterBell u.masterBell ∧ u.Paired := by
  obtain ⟨⟨idle, _⟩, result⟩ := Option.ite_none_right_eq_some.mp taken
  obtain rfl := Option.some.inj result
  have slot := masked_ne_num inv.stored t.ring.usedIdx _ inv.stored.slaveEntries
  have visible : (t.consumed ++ [(⟨flight, len⟩ : Consumed)]).length - 1 = t.returned := by
    simp [returned, unreturned, idle]
  have sameEvent : vringAvailEvent (addConsumedStore t.slave t.ring flight.head len) =
      vringAvailEvent t.ring := by
    simp only [vringAvailEvent, addConsumedStore, Function.update_of_ne slot.symm]
  exact ⟨slaveBell_stays rfl rfl rfl (slaveAsked_same rfl sameEvent rfl rfl) (by simp [idle]) rfl,
    masterBell_stays visible rfl rfl Iff.rfl Iff.rfl rfl,
    paired.stays rfl rfl rfl rfl rfl visible rfl rfl⟩

/-- The used index moves: one more entry behind the master's bell. -/
theorem consumedPublish_moves (inv : Inv bits t) (paired : t.Paired)
    (room : t.slave.queuedCnt < 65535)
    (taken : t.slaveStep .consumedPublish = some u) :
    Bell.Move t.slaveBell u.slaveBell ∧ Bell.Move t.masterBell u.masterBell ∧ u.Paired := by
  obtain ⟨publishing, result⟩ := Option.ite_none_right_eq_some.mp taken
  obtain rfl := Option.some.inj result
  have before : t.unreturned = 1 := by simp [unreturned, publishing]
  have some_returned := inv.counted.reclaimedVisible
  have count : u16 (t.slave.queuedCnt + 1) = t.slave.queuedCnt + 1 := u16_of_lt _ (by omega)
  have visible : t.consumed.length - 0 = t.returned + 1 := by
    rw [returned, before]
    omega
  refine ⟨slaveBell_stays rfl rfl rfl Iff.rfl (by simp [publishing]) rfl,
    masterBell_publishes visible rfl count Iff.rfl Iff.rfl rfl,
    ⟨paired.masterRole, paired.slaveRole, paired.sameFeatures, paired.masterQueued, ?_,
      paired.masterSmall, ?_⟩⟩
  · have queued := paired.slaveQueued
    change u16 (t.slave.queuedCnt + 1) ≤ t.consumed.length - 0
    omega
  · change u16 (t.slave.queuedCnt + 1) < 65536
    omega

/-- A kick of the slave rings the master's bell. -/
theorem slaveKick_moves (small : bits ≤ 15) (inv : Inv bits t) (paired : t.Paired)
    (taken : t.slaveStep .slaveKick = some u) :
    Bell.Move t.slaveBell u.slaveBell ∧ Bell.Move t.masterBell u.masterBell ∧ u.Paired := by
  obtain ⟨idle, result⟩ := Option.ite_none_right_eq_some.mp taken
  obtain rfl := Option.some.inj result
  refine ⟨slaveBell_stays rfl rfl rfl Iff.rfl Iff.rfl rfl, ?_,
    ⟨paired.masterRole, paired.slaveRole, paired.sameFeatures, paired.masterQueued,
      Nat.zero_le _, paired.masterSmall, by simp⟩⟩
  have rung := Bell.Move.ring t.masterBell (vqRingMustNotify t.slave t.ring = true)
    (slaveKick_reaches small inv paired)
  have asleep : ((t.masterAsleep && !vqRingMustNotify t.slave t.ring) = true) =
      (t.masterAsleep = true ∧ ¬ vqRingMustNotify t.slave t.ring = true) := by
    simp
  simp only [masterBell, asleep]
  exact rung

/-- A request of the slave goes into the used ring. -/
theorem slaveEnable_moves (inv : Inv bits t) (paired : t.Paired)
    (taken : t.slaveStep .slaveEnable = some u) :
    Bell.Move t.slaveBell u.slaveBell ∧ Bell.Move t.masterBell u.masterBell ∧ u.Paired := by
  obtain ⟨idle, result⟩ := Option.ite_none_right_eq_some.mp taken
  obtain rfl := Option.some.inj result
  have visible : t.consumed.length - 0 = t.returned := by
    simp [returned, unreturned, idle]
  have sameAvail : (enableInterruptStore t.slave t.ring 0).availRing = t.ring.availRing ∧
      (enableInterruptStore t.slave t.ring 0).availFlags = t.ring.availFlags ∧
      (enableInterruptStore t.slave t.ring 0).num = t.ring.num := by
    unfold enableInterruptStore
    rw [paired.slaveRole]
    cases t.slave.hasEventIdx <;> exact ⟨rfl, rfl, rfl⟩
  have sameEvent : vringUsedEvent (enableInterruptStore t.slave t.ring 0) =
      vringUsedEvent t.ring := by
    rw [vringUsedEvent, sameAvail.1, sameAvail.2.2, vringUsedEvent]
  refine ⟨.ask _ _ ?_ (by simp [slaveBell]),
    masterBell_stays visible rfl rfl (masterAsked_same rfl sameEvent sameAvail.2.1 rfl)
      Iff.rfl rfl,
    paired.stays rfl rfl rfl rfl rfl visible rfl rfl⟩
  have count : u16 (t.taken.length % 65536 + 0) = t.taken.length % 65536 := Nat.mod_mod _ _
  have below : t.taken.length % 65536 < 65536 := Nat.mod_lt _ (by decide)
  simp only [slaveBell, slaveAsked, enableInterruptStore, paired.slaveRole]
  cases t.slave.hasEventIdx with
  | true => rw [if_pos rfl, inv.counted.availableIdx, count, vringAvailEvent_set _ _ below]
  | false => exact clearNoNotify_clear _

/-- The second look of the slave sees whatever is visible. -/
theorem slaveRecheck_moves (small : bits ≤ 15) (inv : Inv bits t) (paired : t.Paired)
    (taken : t.slaveStep .slaveRecheck = some u) :
    Bell.Move t.slaveBell u.slaveBell ∧ Bell.Move t.masterBell u.masterBell ∧ u.Paired := by
  obtain ⟨arming, result⟩ := Option.ite_none_right_eq_some.mp taken
  obtain rfl := Option.some.inj result
  have visible : t.consumed.length - 0 = t.returned := by
    simp [returned, unreturned, arming]
  have sees : t.taken.length < t.published →
      enableInterruptRecheck t.slave t.ring 0 = true := by
    intro behind
    obtain ⟨counted, stored⟩ := inv
    have room := stored.owned.room
    have bound := num_le small
    rw [flights_length, stored.num] at room
    have all : t.published ≤ t.offered.length := Nat.sub_le _ _
    have navail : virtqueueNavail t.slave t.ring = t.published - t.taken.length := by
      rw [virtqueueNavail, counted.availIdx, counted.availableIdx]
      exact FreeRunning.distance_mod 65536 _ _ (Nat.le_of_lt behind) (by omega)
    simp only [enableInterruptRecheck, paired.slaveRole, navail, decide_eq_true_eq]
    omega
  refine ⟨?_, masterBell_stays visible rfl rfl Iff.rfl Iff.rfl rfl,
    paired.stays rfl rfl rfl rfl rfl visible rfl rfl⟩
  have looked := Bell.Move.look t.slaveBell arming
    (enableInterruptRecheck t.slave t.ring 0 = true) sees
  have asleep : ((!enableInterruptRecheck t.slave t.ring 0) = true) =
      ¬ enableInterruptRecheck t.slave t.ring 0 = true := by
    simp
  have notLooking : (SlaveAt.idle = SlaveAt.arming) = False := by simp
  simp only [slaveBell, asleep, notLooking]
  exact looked

/-- A slave that declines notifications is awake. -/
theorem slaveDisable_moves (paired : t.Paired)
    (taken : t.slaveStep .slaveDisable = some u) :
    Bell.Move t.slaveBell u.slaveBell ∧ Bell.Move t.masterBell u.masterBell ∧ u.Paired := by
  obtain ⟨idle, result⟩ := Option.ite_none_right_eq_some.mp taken
  obtain rfl := Option.some.inj result
  have sameAvail : (virtqueueDisableCb t.slave t.ring).availRing = t.ring.availRing ∧
      (virtqueueDisableCb t.slave t.ring).availFlags = t.ring.availFlags ∧
      (virtqueueDisableCb t.slave t.ring).num = t.ring.num := by
    unfold virtqueueDisableCb
    rw [paired.slaveRole]
    cases t.slave.hasEventIdx <;> exact ⟨rfl, rfl, rfl⟩
  have sameEvent : vringUsedEvent (virtqueueDisableCb t.slave t.ring) =
      vringUsedEvent t.ring := by
    rw [vringUsedEvent, sameAvail.1, sameAvail.2.2, vringUsedEvent]
  exact ⟨.awake _ _ (by simp [slaveBell]) (by simp [slaveBell, idle]),
    masterBell_stays rfl rfl rfl (masterAsked_same rfl sameEvent sameAvail.2.1 rfl)
      Iff.rfl rfl,
    paired.stays rfl rfl rfl rfl rfl rfl rfl rfl⟩

/-- Every step of either side is a move of both bells. -/
theorem step_moves (small : bits ≤ 15) (inv : Inv bits t) (paired : t.Paired)
    (event : TransportEvent) (room : t.queueRoom event) (taken : t.step event = some u) :
    Bell.Move t.slaveBell u.slaveBell ∧ Bell.Move t.masterBell u.masterBell ∧ u.Paired := by
  cases event with
  | addStore offer => exact addStore_moves inv paired taken
  | addPublish => exact addPublish_moves inv paired (room.1 rfl) taken
  | getPoll => exact getPoll_moves paired taken
  | getTake => exact getTake_moves paired taken
  | masterKick => exact masterKick_moves small inv paired taken
  | masterEnable => exact masterEnable_moves inv paired taken
  | masterRecheck => exact masterRecheck_moves small inv paired taken
  | masterDisable => exact masterDisable_moves paired taken
  | availablePoll => exact availablePoll_moves paired taken
  | availableTake => exact availableTake_moves paired taken
  | consumedStore flight len => exact consumedStore_moves inv paired taken
  | consumedPublish => exact consumedPublish_moves inv paired (room.2 rfl) taken
  | slaveKick => exact slaveKick_moves small inv paired taken
  | slaveEnable => exact slaveEnable_moves inv paired taken
  | slaveRecheck => exact slaveRecheck_moves small inv paired taken
  | slaveDisable => exact slaveDisable_moves paired taken

end Moves

/-- Everything that holds of the bells along a run. -/
structure Wakes (bits : Nat) (t : Transport) : Prop where
  inv : Inv bits t
  paired : t.Paired
  slaveSafe : t.slaveBell.Safe
  masterSafe : t.masterBell.Safe

section Runs

variable (bits features : Nat) (masterIo slaveIo : ShmIo) (events : List TransportEvent)
  (t : Transport)

/-- At the start nobody sleeps. -/
theorem initial_wakes : Wakes bits (initial bits features masterIo slaveIo) where
  inv := initial_inv bits features masterIo slaveIo
  paired := by constructor <;> simp [initial, virtqueueCreate]
  slaveSafe := by constructor <;> simp [initial, slaveBell]
  masterSafe := by constructor <;> simp [initial, masterBell]

/-- In every run in which fewer than 65536 entries are queued between two kicks, with
event indices or with flags, a side that sleeps while the other has kicked for all it
made visible has nothing waiting for it. -/
theorem no_wakeup_lost (small : bits ≤ 15)
    (ran : run step (initial bits features masterIo slaveIo) events = some t)
    (roomy : Along step queueRoom (initial bits features masterIo slaveIo) events) :
    (t.slaveAsleep = true → t.master.queuedCnt = 0 → hasAvailable t.slave t.ring = false) ∧
      (t.masterAsleep = true → t.slave.queuedCnt = 0 → hasUsed t.master t.ring = false) := by
  have wakes : Wakes bits t := by
    refine invariant_run step queueRoom (Wakes bits) ?_ _ t events
      (initial_wakes bits features masterIo slaveIo) roomy ran
    intro state event next wakes room taken
    obtain ⟨slaveMoves, masterMoves, paired⟩ :=
      step_moves small wakes.inv wakes.paired event room taken
    exact ⟨step_inv small event next wakes.inv taken, paired, slaveMoves.safe wakes.slaveSafe,
      masterMoves.safe wakes.masterSafe⟩
  constructor
  · intro asleep rung
    have nothing := wakes.slaveSafe.nothing_missed asleep rung
    have exactly := wakes.inv.hasAvailable_iff small
    have visible := wakes.inv.counted.takenVisible
    change t.offered.length - t.unpublished ≤ t.taken.length at nothing
    rw [Bool.eq_false_iff, ne_eq, exactly]
    omega
  · intro asleep rung
    have nothing := wakes.masterSafe.nothing_missed asleep rung
    have exactly := wakes.inv.hasUsed_iff small
    have visible := wakes.inv.counted.reclaimedVisible
    change t.consumed.length - t.unreturned ≤ t.reclaimed.length at nothing
    rw [Bool.eq_false_iff, ne_eq, exactly]
    omega

/-- The slave sleeps, is woken by a kick, takes the buffer and sleeps again, all with
event indices. -/
def sleepRun : List TransportEvent :=
  [.slaveEnable, .slaveRecheck, .addStore ⟨[⟨16, 512⟩], 1, 7⟩, .addPublish, .masterKick,
    .availablePoll, .availableTake, .slaveEnable, .slaveRecheck]

/-- The slave sleeps, and there is nothing for it. -/
theorem no_wakeup_lost_sample :
    ∃ t, run step (initial 1 (2 ^ 29) ⟨id, id⟩ ⟨id, id⟩) sleepRun = some t ∧
      t.slaveAsleep = true ∧ hasAvailable t.slave t.ring = false :=
  ⟨(run step (initial 1 (2 ^ 29) ⟨id, id⟩ ⟨id, id⟩) sleepRun).get (by decide),
    (Option.some_get _).symm, by decide,
    (no_wakeup_lost 1 (2 ^ 29) ⟨id, id⟩ ⟨id, id⟩ sleepRun _ (by decide)
      (Option.some_get _).symm (by decide)).1 (by decide) (by decide)⟩

end Runs

end Stm32Ecu.Virtio.Transport
