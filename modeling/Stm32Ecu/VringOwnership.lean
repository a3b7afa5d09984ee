import Stm32Ecu.Virtqueue

/-!
# Who has a descriptor

Every descriptor of the table is on the free chain or on the chain of exactly one head
on its way. The two functions that move descriptors between these are
`virtqueue_add_buffer` and `virtqueue_get_buffer`, and each is described here once: what
it returns, what it leaves in the control block, and that the table stays shared out.

A chain on its way carries the number of the offer it was posted for. No processor sees
that number; it tells apart offers that reuse a descriptor or a cookie.
-/

namespace Stm32Ecu.Virtio

/-- What the master's caller hands to `virtqueue_add_buffer`. -/
structure Offer where
  bufs : List VirtqueueBuf
  readable : Nat
  cookie : Nat
deriving DecidableEq

/-- The head of a chain, and the number of the offer it was posted for. -/
structure Flight where
  head : Nat
  serial : Nat
deriving DecidableEq

/-- What the slave's caller hands to `virtqueue_add_consumed_buffer`. -/
structure Consumed where
  flight : Flight
  len : Nat
deriving DecidableEq

/-- The descriptors the master has free. -/
def freeChain (desc : Nat → VringDesc) (vq : Virtqueue) : List Nat :=
  List.iterate (links desc) vq.descHeadIdx vq.freeCnt

/-- The descriptors behind a head, as many as the master noted for it. -/
def chainOf (desc : Nat → VringDesc) (vq : Virtqueue) (flight : Flight) : List Nat :=
  List.iterate (links desc) flight.head (vq.descx flight.head).ndescs

/-- The chain of a head describes the buffers of its offer, and the master has noted
the cookie and the length of that offer for it. -/
def Carries (desc : Nat → VringDesc) (vq : Virtqueue) (offers : List Offer)
    (flight : Flight) : Prop :=
  ∃ offer, offers[flight.serial]? = some offer ∧ offer.bufs ≠ [] ∧
    vq.descx flight.head = ⟨some offer.cookie, offer.bufs.length⟩ ∧
    Posted vq.shmIo offer.bufs.length offer.readable offer.bufs 0 desc flight.head

/-- The free chain and the chains on their way share out the table, the free chain is
properly ended, and what is on its way is what was offered. -/
structure Owned (num : Nat) (desc : Nat → VringDesc) (vq : Virtqueue) (offers : List Offer)
    (flights : List Flight) : Prop where
  accounted : (freeChain desc vq ++ flights.flatMap (chainOf desc vq)).Perm (List.range num)
  freeEnd : (links desc)^[vq.freeCnt] vq.descHeadIdx = descChainEnd
  carries : ∀ flight ∈ flights, Carries desc vq offers flight

section Ownership

variable {num : Nat} {desc : Nat → VringDesc} {vq : Virtqueue} {offers : List Offer}
  {flights : List Flight}

/-- A head is the first descriptor of its own chain. -/
theorem Carries.head_mem {flight : Flight} (carries : Carries desc vq offers flight) :
    flight.head ∈ chainOf desc vq flight := by
  obtain ⟨offer, _, nonempty, extra, _⟩ := carries
  obtain ⟨entry, rest, shape⟩ := List.exists_cons_of_ne_nil nonempty
  rw [chainOf, extra, shape, List.length_cons, List.iterate]
  exact List.mem_cons_self

/-- The order in which the chains are listed does not matter. -/
theorem Owned.perm (owned : Owned num desc vq offers flights) {others : List Flight}
    (same : others.Perm flights) : Owned num desc vq offers others where
  accounted := ((same.flatMap_right _).append_left _).trans owned.accounted
  freeEnd := owned.freeEnd
  carries := fun flight member => owned.carries flight (same.mem_iff.mp member)

/-- No descriptor is in two places. -/
theorem Owned.distinct (owned : Owned num desc vq offers flights) :
    (freeChain desc vq ++ flights.flatMap (chainOf desc vq)).Nodup :=
  owned.accounted.nodup_iff.mpr List.nodup_range

/-- Whatever is followed stays inside the table. -/
theorem Owned.free_lt (owned : Owned num desc vq offers flights) :
    ∀ entry ∈ freeChain desc vq, entry < num := by
  intro entry member
  exact List.mem_range.mp (owned.accounted.mem_iff.mp (List.mem_append_left _ member))

/-- The descriptors of a chain on its way are in the ring. -/
theorem Owned.chain_lt (owned : Owned num desc vq offers flights) {flight : Flight}
    (onWay : flight ∈ flights) : ∀ entry ∈ chainOf desc vq flight, entry < num := by
  intro entry member
  have listed : entry ∈ flights.flatMap (chainOf desc vq) :=
    List.mem_flatMap.mpr ⟨flight, onWay, member⟩
  exact List.mem_range.mp (owned.accounted.mem_iff.mp (List.mem_append_right _ listed))

/-- So is its head. -/
theorem Owned.head_lt (owned : Owned num desc vq offers flights) {flight : Flight}
    (onWay : flight ∈ flights) : flight.head < num :=
  owned.chain_lt onWay _ (owned.carries flight onWay).head_mem

/-- A chain on its way has no free descriptor. -/
theorem Owned.free_apart (owned : Owned num desc vq offers flights) {flight : Flight}
    (onWay : flight ∈ flights) {entry : Nat} (free : entry ∈ freeChain desc vq) :
    entry ∉ chainOf desc vq flight := by
  intro chained
  have listed : entry ∈ flights.flatMap (chainOf desc vq) :=
    List.mem_flatMap.mpr ⟨flight, onWay, chained⟩
  exact List.disjoint_of_nodup_append owned.distinct free listed

/-- There are at least as many descriptors on their way as heads. -/
theorem length_le_flatMap (owned : ∀ flight ∈ flights, Carries desc vq offers flight) :
    flights.length ≤ (flights.flatMap (chainOf desc vq)).length := by
  induction flights with
  | nil => exact Nat.zero_le _
  | cons flight rest ih =>
    obtain ⟨first, later⟩ := List.forall_mem_cons.mp owned
    have positive : 0 < (chainOf desc vq flight).length :=
      List.length_pos_of_mem first.head_mem
    have bound := ih later
    rw [List.flatMap_cons, List.length_append, List.length_cons]
    omega

/-- Free descriptors and heads on their way are together no more than the table. -/
theorem Owned.room (owned : Owned num desc vq offers flights) :
    vq.freeCnt + flights.length ≤ num := by
  have total := owned.accounted.length_eq
  have heads := length_le_flatMap owned.carries
  rw [List.length_append, List.length_range, freeChain, List.length_iterate] at total
  omega

/-- An offer is not lost from sight when more are recorded behind it. -/
theorem Carries.append {flight : Flight} (carries : Carries desc vq offers flight)
    (more : List Offer) : Carries desc vq (offers ++ more) flight := by
  obtain ⟨offer, found, rest⟩ := carries
  refine ⟨offer, ?_, rest⟩
  have inside : flight.serial < offers.length := (List.getElem?_eq_some_iff.mp found).1
  rw [List.getElem?_append_left inside, found]

/-- What a head carries depends only on the descriptors of its chain and on what the
master noted for it. -/
theorem Carries.frame {flight : Flight} (carries : Carries desc vq offers flight)
    {other : Nat → VringDesc} {after : Virtqueue}
    (sameIo : after.shmIo = vq.shmIo)
    (sameExtra : after.descx flight.head = vq.descx flight.head)
    (sameDesc : ∀ entry ∈ chainOf desc vq flight, other entry = desc entry) :
    Carries other after offers flight := by
  obtain ⟨offer, found, nonempty, extra, posted⟩ := carries
  refine ⟨offer, found, nonempty, sameExtra.trans extra, ?_⟩
  rw [chainOf, extra] at sameDesc
  rw [sameIo]
  exact posted_frame _ _ _ _ _ desc other _ sameDesc posted

end Ownership

/-- The control block after an offer was posted at its head. -/
def Virtqueue.afterAdd (vq : Virtqueue) (desc : Nat → VringDesc) (offer : Offer) : Virtqueue :=
  { vq with
    descx := Function.update vq.descx vq.descHeadIdx ⟨some offer.cookie, offer.bufs.length⟩
    descHeadIdx := (links desc)^[offer.bufs.length] vq.descHeadIdx
    freeCnt := vq.freeCnt - offer.bufs.length }

/-- The control block after a used chain of some length was taken back. -/
def Virtqueue.afterGet (vq : Virtqueue) (head length : Nat) : Virtqueue :=
  { vq with
    usedConsIdx := u16 (vq.usedConsIdx + 1)
    descHeadIdx := head
    freeCnt := vq.freeCnt + length
    descx := Function.update vq.descx head ⟨none, 0⟩ }

section Fields

variable (vq : Virtqueue) (desc : Nat → VringDesc) (offer : Offer) (head length : Nat)

/-- The cookie and the length are stored at the head of the new chain. -/
@[simp] theorem afterAdd_descx_self :
    (vq.afterAdd desc offer).descx vq.descHeadIdx = ⟨some offer.cookie, offer.bufs.length⟩ :=
  Function.update_self _ _ _

/-- The other entries stay. -/
@[simp] theorem afterAdd_descx_of_ne (other : Nat) (different : other ≠ vq.descHeadIdx) :
    (vq.afterAdd desc offer).descx other = vq.descx other :=
  Function.update_of_ne different _ _

/-- The free chain now starts behind the new one. -/
@[simp] theorem afterAdd_descHeadIdx : (vq.afterAdd desc offer).descHeadIdx =
    (links desc)^[offer.bufs.length] vq.descHeadIdx := rfl

/-- The descriptors of the new chain are no longer free. -/
@[simp] theorem afterAdd_freeCnt :
    (vq.afterAdd desc offer).freeCnt = vq.freeCnt - offer.bufs.length := rfl

/-- Only the entry at the head is cleared. -/
@[simp] theorem afterGet_descx_of_ne (other : Nat) (different : other ≠ head) :
    (vq.afterGet head length).descx other = vq.descx other :=
  Function.update_of_ne different _ _

/-- The chain goes in front of the free one. -/
@[simp] theorem afterGet_descHeadIdx : (vq.afterGet head length).descHeadIdx = head := rfl

/-- Its descriptors are free again. -/
@[simp] theorem afterGet_freeCnt :
    (vq.afterGet head length).freeCnt = vq.freeCnt + length := rfl

end Fields

/-- With free descriptors for all of its buffers, an offer is posted: the first of the
free descriptors become its chain, and the head goes into the next available slot. -/
theorem Owned.addBufferStore {ring : Vring} {vq : Virtqueue} {offers : List Offer}
    {flights : List Flight} (owned : Owned ring.num ring.desc vq offers flights)
    (small : ring.num ≤ 32768) (offer : Offer) (nonempty : offer.bufs ≠ [])
    (ordered : offer.readable ≤ offer.bufs.length)
    (fits : offer.bufs.length ≤ vq.freeCnt) :
    ∃ filled,
      addBufferStore vq ring offer.bufs offer.readable (offer.bufs.length - offer.readable)
          offer.cookie =
        some (vq.afterAdd ring.desc offer,
          { ring with
            desc := filled
            availRing := Function.update ring.availRing (ring.availIdx &&& (vq.nentries - 1))
              vq.descHeadIdx }) ∧
      Owned ring.num filled (vq.afterAdd ring.desc offer) (offers ++ [offer])
        (flights ++ [⟨vq.descHeadIdx, offers.length⟩]) := by
  have room := owned.room
  have needed : offer.readable + (offer.bufs.length - offer.readable) = offer.bufs.length := by
    omega
  have split : vq.freeCnt = offer.bufs.length + (vq.freeCnt - offer.bufs.length) := by omega
  have parted : freeChain ring.desc vq =
      List.iterate (links ring.desc) vq.descHeadIdx offer.bufs.length ++
        List.iterate (links ring.desc) ((links ring.desc)^[offer.bufs.length] vq.descHeadIdx)
          (vq.freeCnt - offer.bufs.length) := by
    rw [freeChain, ← List.iterate_add, ← split]
  have inside : ∀ entry ∈ List.iterate (links ring.desc) vq.descHeadIdx offer.bufs.length,
      entry < ring.num := by
    intro entry member
    exact owned.free_lt entry (by rw [parted]; exact List.mem_append_left _ member)
  have distinct : (List.iterate (links ring.desc) vq.descHeadIdx offer.bufs.length).Nodup := by
    have all := (List.nodup_append.mp owned.distinct).1
    rw [parted] at all
    exact (List.nodup_append.mp all).1
  obtain ⟨filled, ran, sameLinks, frame, posted⟩ :=
    addBufferLoop_spec vq ring.num offer.bufs.length offer.readable offer.bufs 0 ring.desc
      vq.descHeadIdx inside distinct
  obtain ⟨entry, rest, shape⟩ := List.exists_cons_of_ne_nil nonempty
  have headFree : vq.descHeadIdx ∈ freeChain ring.desc vq := by
    rw [parted, shape, List.length_cons, List.iterate]
    exact List.mem_append_left _ List.mem_cons_self
  refine ⟨filled, ?_, ?_⟩
  · simp only [Virtio.addBufferStore, vqRingAddBuffer, needed, List.take_length, ran,
      Option.map_some, Option.bind_eq_bind, Option.bind_some, Option.pure_def,
      updateAvailStore]
    rw [u16_of_lt _ (by omega), u16Sub_of_le _ _ fits (by omega)]
    rfl
  · -- the chains already on their way keep their descriptors and their notes
    have others : ∀ flight ∈ flights, vq.descHeadIdx ≠ flight.head := by
      intro flight onWay same
      exact owned.free_apart onWay headFree (same ▸ (owned.carries flight onWay).head_mem)
    refine ⟨?_, ?_, ?_⟩
    · have sameChains : ∀ flight ∈ flights,
          chainOf filled (vq.afterAdd ring.desc offer) flight = chainOf ring.desc vq flight := by
        intro flight onWay
        rw [chainOf, chainOf, sameLinks,
          afterAdd_descx_of_ne _ _ _ _ (others flight onWay).symm]
      have newChain : chainOf filled (vq.afterAdd ring.desc offer)
          ⟨vq.descHeadIdx, offers.length⟩ =
            List.iterate (links ring.desc) vq.descHeadIdx offer.bufs.length := by
        rw [chainOf, sameLinks, afterAdd_descx_self]
      refine List.Perm.trans ?_ owned.accounted
      rw [List.flatMap_append, List.flatMap_congr sameChains, List.flatMap_singleton, newChain,
        parted, ← List.append_assoc, List.append_assoc (List.iterate _ vq.descHeadIdx _),
        freeChain, sameLinks, afterAdd_descHeadIdx, afterAdd_freeCnt]
      exact List.perm_append_comm
    · rw [sameLinks, afterAdd_descHeadIdx, afterAdd_freeCnt, ← Function.iterate_add_apply,
        Nat.add_comm, ← split]
      exact owned.freeEnd
    · intro flight member
      rcases List.mem_append.mp member with old | new
      · have carries := (owned.carries flight old).append [offer]
        refine carries.frame rfl (afterAdd_descx_of_ne _ _ _ _ (others flight old).symm) ?_
        intro entry chained
        refine frame entry ?_
        intro posted
        have free : entry ∈ freeChain ring.desc vq := by
          rw [parted]
          exact List.mem_append_left _ posted
        exact owned.free_apart old free chained
      · obtain rfl := List.mem_singleton.mp new
        refine ⟨offer, ?_, nonempty, afterAdd_descx_self _ _ _, posted⟩
        rw [List.getElem?_append_right (Nat.le_refl _), Nat.sub_self]
        rfl

/-- A used chain goes back to the front of the free chain, and the caller gets the cookie
of the offer it was posted for. -/
theorem Owned.getBufferTake {ring : Vring} {vq : Virtqueue} {offers : List Offer}
    {flight : Flight} {rest : List Flight} {len : Nat}
    (owned : Owned ring.num ring.desc vq offers (flight :: rest)) (small : ring.num ≤ 32768)
    (used : ring.usedRing (vq.usedConsIdx &&& (vq.nentries - 1)) = ⟨flight.head, len⟩) :
    ∃ offer freed,
      offers[flight.serial]? = some offer ∧
      getBufferTake vq ring =
        some (⟨some offer.cookie, len, vq.usedConsIdx &&& (vq.nentries - 1)⟩,
          vq.afterGet flight.head offer.bufs.length, { ring with desc := freed }) ∧
      Owned ring.num freed (vq.afterGet flight.head offer.bufs.length) offers rest := by
  have onWay : flight ∈ flight :: rest := List.mem_cons_self
  obtain ⟨offer, found, nonempty, extra, posted⟩ := owned.carries flight onWay
  obtain ⟨first, more, shape⟩ := List.exists_cons_of_ne_nil nonempty
  have inTable : flight.head < ring.num := owned.head_lt onWay
  have length : offer.bufs.length = more.length + 1 := by rw [shape, List.length_cons]
  have chain : chainOf ring.desc vq flight =
      List.iterate (links ring.desc) flight.head (more.length + 1) := by
    rw [chainOf, extra, length]
  have total : vq.freeCnt + offer.bufs.length ≤ ring.num := by
    have sum := owned.accounted.length_eq
    rw [List.flatMap_cons, List.length_append, List.length_append, List.length_range, freeChain,
      List.length_iterate, chain, List.length_iterate] at sum
    omega
  have inside := owned.chain_lt onWay
  rw [chain] at inside
  rw [shape] at posted
  have last : freeChainLoop ring.num ring.desc ring.num flight.head
      (u16Sub (more.length + 1) 1) =
        some ((links ring.desc)^[more.length] flight.head, 0) := by
    rw [u16Sub_of_le _ _ (by omega) (by omega)]
    have walked := freeChainLoop_spec vq.shmIo ring.num (more.length + 1) offer.readable first
      more 0 ring.desc flight.head ring.num more.length (by omega) (by omega) inside
      (Nat.le_refl _) (by omega) posted
    rw [Nat.sub_self] at walked
    exact walked
  have direct : (ring.desc flight.head).flags &&& descFIndirect = 0 := by
    rw [posted.2.2.1, bufferFlags_indirect]
  let lastIdx := (links ring.desc)^[more.length] flight.head
  let relinked : VringDesc := { ring.desc lastIdx with next := vq.descHeadIdx }
  refine ⟨offer, Function.update ring.desc lastIdx relinked, found, ?_, ?_⟩
  · have head : u16 flight.head = flight.head := u16_of_lt _ (by omega)
    simp only [Virtio.getBufferTake, used, head, vqRingFreeChain, if_pos inTable, direct,
      if_true, extra, length, last, Option.bind_eq_bind, Option.bind_some, Option.pure_def,
      Function.update_self, Function.update_idem]
    rw [u16_of_lt _ (by omega)]
    rfl
  · -- only the last link of the chain moves, and it is on no other chain
    have sameLinks : links (Function.update ring.desc lastIdx relinked) =
        Function.update (links ring.desc) lastIdx vq.descHeadIdx := by
      funext entry
      by_cases same : entry = lastIdx
      · subst same
        simp [links, relinked]
      · simp [links, same]
    have distinct := owned.distinct
    rw [List.flatMap_cons, chain] at distinct
    have chainDistinct := (List.nodup_append.mp (List.nodup_append.mp distinct).2.1).1
    have lastMem : lastIdx ∈ List.iterate (links ring.desc) flight.head (more.length + 1) := by
      rw [LinkedChain.chain_last]
      exact List.mem_append_right _ List.mem_cons_self
    have apart : lastIdx ∉ freeChain ring.desc vq := by
      intro free
      exact owned.free_apart onWay free (by rw [chain]; exact lastMem)
    have othersApart : ∀ other ∈ rest, ∀ entry ∈ chainOf ring.desc vq other,
        entry ∉ List.iterate (links ring.desc) flight.head (more.length + 1) := by
      intro other onWayToo entry chained same
      have tail := List.disjoint_of_nodup_append (List.nodup_append.mp distinct).2.1
      exact tail same (List.mem_flatMap.mpr ⟨other, onWayToo, chained⟩)
    have headMem : flight.head ∈
        List.iterate (links ring.desc) flight.head (more.length + 1) := by
      rw [List.iterate]
      exact List.mem_cons_self
    have otherHead : ∀ other ∈ rest, other.head ≠ flight.head := by
      intro other onWayToo same
      have mine := (owned.carries other (List.mem_cons_of_mem _ onWayToo)).head_mem
      exact othersApart other onWayToo other.head mine (same ▸ headMem)
    refine ⟨?_, ?_, ?_⟩
    · have sameChains : ∀ other ∈ rest,
          chainOf (Function.update ring.desc lastIdx relinked)
            (vq.afterGet flight.head offer.bufs.length) other = chainOf ring.desc vq other := by
        intro other onWayToo
        rw [chainOf, sameLinks, afterGet_descx_of_ne _ _ _ _ (otherHead other onWayToo)]
        refine LinkedChain.chain_same _ _ _ _ ?_
        intro entry chained
        refine Function.update_of_ne ?_ _ _
        intro same
        exact othersApart other onWayToo entry chained (same ▸ lastMem)
      have grown : freeChain (Function.update ring.desc lastIdx relinked)
          (vq.afterGet flight.head offer.bufs.length) =
            chainOf ring.desc vq flight ++ freeChain ring.desc vq := by
        rw [freeChain, sameLinks, afterGet_descHeadIdx, afterGet_freeCnt, length,
          Nat.add_comm vq.freeCnt,
          LinkedChain.relinked_chain _ _ _ _ _ chainDistinct apart, ← chain, freeChain]
      refine List.Perm.trans ?_ owned.accounted
      rw [List.flatMap_congr sameChains, grown, List.flatMap_cons, ← List.append_assoc]
      exact List.Perm.append_right _ List.perm_append_comm
    · rw [sameLinks, afterGet_descHeadIdx, afterGet_freeCnt, length, Nat.add_comm vq.freeCnt,
        LinkedChain.relinked_chain_end _ _ _ _ _ chainDistinct apart]
      exact owned.freeEnd
    · intro other onWayToo
      refine (owned.carries other (List.mem_cons_of_mem _ onWayToo)).frame rfl
        (afterGet_descx_of_ne _ _ _ _ (otherHead other onWayToo)) ?_
      intro entry chained
      refine Function.update_of_ne ?_ _ _
      intro same
      exact othersApart other onWayToo entry chained (same ▸ lastMem)

/-- Set up in table order, the descriptors from one on are chained one after the other. -/
theorem created_chain (num start count : Nat) (reaches : start + count = num) :
    List.iterate (links (initDesc num)) start count = List.range' start count := by
  induction count generalizing start with
  | zero => rfl
  | succ count ih =>
    rw [List.iterate, List.range'_succ]
    cases count with
    | zero => rfl
    | succ count =>
      have step : links (initDesc num) start = start + 1 := by
        simp only [links, initDesc]
        rw [if_pos (by omega)]
      rw [step, ih (start + 1) (by omega)]

/-- The chain set up at first ends behind the last descriptor. -/
theorem created_end (num start count : Nat) (reaches : start + (count + 1) = num) :
    (links (initDesc num))^[count + 1] start = descChainEnd := by
  induction count generalizing start with
  | zero =>
    rw [Function.iterate_one, links, initDesc]
    rw [if_neg (by omega), if_pos (by omega)]
  | succ count ih =>
    have step : links (initDesc num) start = start + 1 := by
      simp only [links, initDesc]
      rw [if_pos (by omega)]
    rw [Function.iterate_succ_apply, step]
    exact ih (start + 1) (by omega)

/-- At first every descriptor is free. -/
theorem Owned.created (num features : Nat) (io : ShmIo) (positive : 0 < num) :
    Owned num (Vring.created num).desc (virtqueueCreate .master features num io) [] [] where
  accounted := by
    have chain := created_chain num 0 num (Nat.zero_add num)
    rw [List.flatMap_nil, List.append_nil, List.range_eq_range']
    exact List.Perm.of_eq chain
  freeEnd := by
    obtain ⟨count, rfl⟩ := Nat.exists_eq_succ_of_ne_zero (Nat.ne_of_gt positive)
    exact created_end (count + 1) 0 count (Nat.zero_add _)
  carries := by
    intro flight member
    exact absurd member List.not_mem_nil

end Stm32Ecu.Virtio
