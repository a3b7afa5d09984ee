import Mathlib.Data.Nat.Bitwise
import Stm32Ecu.RpmsgNs

/-!
# Receiving messages

`rpmsg_virtio_rx_callback` on the slave, over the vring it receives on, with the
endpoints of the device and with `rpmsg_hold_rx_buffer` and `rpmsg_release_rx_buffer`. A
message is handed to the endpoint that is found under its destination. The callback of
the endpoint may hold the buffer; then it is returned by whoever releases it, which may
be in any order and at any time from the hold on, with the index that the receiver left in
the `reserved` word of the buffer.

The lock is released while an endpoint's callback runs, so endpoints come and go between
the look-up and the call. And a buffer that was held may have been released, returned and
filled anew before the receiver looks whether it was held: it looks into the buffer, does
not find the mark, and returns the buffer a second time. The model goes as far as that.
-/

namespace Stm32Ecu.Rpmsg

open Runs Virtio

/-- `RPMSG_BUF_HELD`. -/
def bufHeld : Nat := 2 ^ 31

/-- `~RPMSG_BUF_HELD`, in 32 bits. -/
def bufHeldMask : Nat := 2 ^ 31 - 1

/-! ## The receiver -/

/-- Where `rpmsg_virtio_rx_callback` stands. A buffer that it works on comes with the number
of its offer, and from the callback on with whether that has held it; it sees neither. The
last place is before a second return of one buffer. -/
inductive RxAt where
  | idle
  | taking
  | marking (buffer : AvailableBuffer) (serial : Nat)
  | looking (buffer : AvailableBuffer) (serial : Nat)
  | binding (buffer : AvailableBuffer) (serial : Nat) (endpoints : List RpmsgEndpoint)
      (ept : RpmsgEndpoint)
  | calling (buffer : AvailableBuffer) (serial : Nat) (ept : RpmsgEndpoint) (held : Bool)
  | settling (buffer : AvailableBuffer) (serial : Nat) (held : Bool)
  | publishing
  | polling
  | kicking
  | twice (buffer : AvailableBuffer) (serial : Nat)
deriving DecidableEq

/-- Who has `rdev->lock` for more than one step. -/
inductive RxLock where
  | receiver
  | releaser
deriving DecidableEq

/-- A message that was looked at: the endpoints at that time, the one that it was handed
to, and the message. -/
structure Handled where
  endpoints : List RpmsgEndpoint
  ept : Option RpmsgEndpoint
  message : Message
deriving DecidableEq

/-- The vring with its buffers, the endpoints, the lock, the receiver, the buffers that
callbacks have held and nobody has released, the releases that have read their index, and
the messages so far. -/
structure Receiver where
  shared : Shared RpmsgBuf
  registry : Registry
  lock : Option RxLock
  rx : RxAt
  holding : List (AvailableBuffer × Nat)
  releasing : List Flight
  handled : List Handled

/-- A step of the master, of the receiver, of a callback, of a release, or of somebody
who creates and destroys endpoints. -/
inductive ReceiverEvent where
  | master (event : TransportEvent)
  | masterWrite (buf : Nat) (value : RpmsgBuf)
  | notified
  | advance
  | hold
  | release (buffer : AvailableBuffer) (serial : Nat)
  | releaseStore (flight : Flight)
  | releasePublish
  | registry (event : RegistryEvent)
deriving DecidableEq

namespace Receiver

/-- The device as `rpmsg_init_vdev` leaves it. -/
def initial (bits features : Nat) (masterIo slaveIo : ShmIo) (pool : List VirtqueueBuf)
    (memory : Nat → RpmsgBuf) (supportNs : Bool) : Receiver where
  shared := Shared.initial bits features masterIo slaveIo pool memory
  registry := Registry.initial supportNs
  lock := none
  rx := .idle
  holding := []
  releasing := []
  handled := []

/-- The write of the sender's address to the endpoint structure, which may have left the
list since the look-up. -/
def bind (registry : Registry) (key src : Nat) : Registry :=
  match registry.endpoint? key with
  | some ept =>
      if ept.destAddr = addrAny then
        { registry with device := setDestAddr registry.device ept src }
      else registry
  | none => registry

/-- The next step of the receiver. -/
def advance (r : Receiver) : Option Receiver :=
  match r.rx with
  | .idle => none
  | .taking => do
      let serial := r.shared.transport.taken.length
      let shared ← r.shared.step (.call .availableTake)
      let buffer ← shared.transport.taken[serial]?
      pure { r with shared := shared, lock := none, rx := .marking buffer serial }
  | .marking buffer serial => do
      let old := r.shared.memory buffer.buffer
      let shared ← r.shared.step
        (.slaveWrite ⟨buffer.availIdx, serial⟩ { old with reserved := buffer.availIdx })
      pure { r with shared := shared, rx := .looking buffer serial }
  | .looking buffer serial =>
      if r.lock = none then
        let endpoints := r.registry.device.endpoints
        let message := (r.shared.memory buffer.buffer).message
        match rpmsgGetEptFromAddr r.registry.device message.dst with
        | some ept => some { r with rx := .binding buffer serial endpoints ept }
        | none =>
            some { r with
              rx := .settling buffer serial false
              handled := r.handled ++ [⟨endpoints, none, message⟩] }
      else none
  | .binding buffer serial endpoints ept =>
      let message := (r.shared.memory buffer.buffer).message
      some { r with
        registry := bind r.registry ept.key message.src
        rx := .calling buffer serial ept false
        handled := r.handled ++ [⟨endpoints, some ept, message⟩] }
  | .calling buffer serial ept held =>
      -- the device's own endpoint has the name service behind it
      if ept.key = 0 then
        if r.lock = none then
          let dev := rpmsgVirtioNsCallback r.registry.device (r.shared.memory buffer.buffer)
          some { r with
            registry := { r.registry with device := dev }
            rx := .settling buffer serial held }
        else none
      else some { r with rx := .settling buffer serial held }
  | .settling buffer serial _ =>
      if r.lock = none then
        if (r.shared.memory buffer.buffer).reserved &&& bufHeld ≠ 0 then
          some { r with lock := some .receiver, rx := .polling }
        else if ⟨buffer.availIdx, serial⟩ ∈ r.shared.transport.held then
          (r.shared.step (.call (.consumedStore ⟨buffer.availIdx, serial⟩ buffer.len))).map
            (fun shared =>
              { r with shared := shared, lock := some .receiver, rx := .publishing })
        else some { r with lock := some .receiver, rx := .twice buffer serial }
      else none
  | .publishing =>
      (r.shared.step (.call .consumedPublish)).map
        (fun shared => { r with shared := shared, rx := .polling })
  | .polling =>
      (r.shared.step (.call .availablePoll)).map (fun shared =>
        { r with
          shared := shared
          rx := if shared.transport.slaveAt = .taking then .taking else .kicking })
  | .kicking =>
      (r.shared.step (.call .slaveKick)).map
        (fun shared => { r with shared := shared, lock := none, rx := .idle })
  -- the index goes into the used ring once more
  | .twice _ _ => none

/-- What tasks do to the endpoints: they come and go, but for the device's own. -/
def ofTask : RegistryEvent → Bool
  | .create key _ _ _ => key ≠ 0
  | .announced _ _ => true
  | .destroy key => key ≠ 0
  | _ => false

/-- One event. A callback holds the buffer it was called with, again only while nobody has
released it, and a buffer is released once for its hold. -/
def step (r : Receiver) : ReceiverEvent → Option Receiver
  | .master event =>
      if event.ofMaster then
        (r.shared.step (.call event)).map (fun shared => { r with shared := shared })
      else none
  | .masterWrite buf value =>
      (r.shared.step (.masterWrite buf value)).map (fun shared => { r with shared := shared })
  | .notified =>
      if r.rx = .idle ∧ r.lock = none then
        (r.shared.step (.call .availablePoll)).map (fun shared =>
          if shared.transport.slaveAt = .taking then
            { r with shared := shared, lock := some .receiver, rx := .taking }
          else { r with shared := shared })
      else none
  | .advance => r.advance
  | .hold =>
      match r.rx with
      | .calling buffer serial ept held =>
          if ept.key = 0 ∨ (held = true ∧ (buffer, serial) ∉ r.holding) then none
          else
            let old := r.shared.memory buffer.buffer
            (r.shared.step (.slaveWrite ⟨buffer.availIdx, serial⟩
              { old with reserved := old.reserved ||| bufHeld })).map (fun shared =>
                { r with
                  shared := shared
                  rx := .calling buffer serial ept true
                  holding := if held then r.holding else r.holding ++ [(buffer, serial)] })
      | _ => none
  | .release buffer serial =>
      if (buffer, serial) ∈ r.holding then
        let idx := u16 ((r.shared.memory buffer.buffer).reserved &&& bufHeldMask)
        some { r with
          holding := r.holding.erase (buffer, serial)
          releasing := r.releasing ++ [⟨idx, serial⟩] }
      else none
  | .releaseStore flight =>
      if r.lock = none ∧ flight ∈ r.releasing then
        let len := virtqueueGetBufferLength r.shared.transport.ring flight.head
        (r.shared.step (.call (.consumedStore flight len))).map (fun shared =>
          { r with
            shared := shared
            lock := some .releaser
            releasing := r.releasing.erase flight })
      else none
  | .releasePublish =>
      if r.lock = some .releaser then
        (r.shared.step (.call .consumedPublish)).map
          (fun shared => { r with shared := shared, lock := none })
      else none
  | .registry event =>
      if r.lock = none ∧ ofTask event then
        (r.registry.step event).map (fun registry => { r with registry := registry })
      else none

end Receiver

/-! ## The invariant -/

/-- The buffer in the receiver's hands, which is no longer there when it is held. -/
def RxAt.hand : RxAt → List Flight
  | .marking buffer serial => [⟨buffer.availIdx, serial⟩]
  | .looking buffer serial => [⟨buffer.availIdx, serial⟩]
  | .binding buffer serial _ _ => [⟨buffer.availIdx, serial⟩]
  | .calling buffer serial _ false => [⟨buffer.availIdx, serial⟩]
  | .settling buffer serial false => [⟨buffer.availIdx, serial⟩]
  | _ => []

/-- The buffer that was held and whose mark the receiver has not looked at. -/
def RxAt.given : RxAt → List Flight
  | .calling buffer serial _ true => [⟨buffer.availIdx, serial⟩]
  | .settling buffer serial true => [⟨buffer.availIdx, serial⟩]
  | _ => []

/-- Whether the receiver has the lock. -/
def RxAt.locked : RxAt → Bool
  | .taking => true
  | .publishing => true
  | .polling => true
  | .kicking => true
  | .twice _ _ => true
  | _ => false

/-- How many messages the receiver has taken and not handled. -/
def RxAt.unhandled : RxAt → Nat
  | .marking _ _ => 1
  | .looking _ _ => 1
  | .binding _ _ _ _ => 1
  | _ => 0

/-- The message was handed to the first endpoint with its address, if there was one. -/
def Handled.Addressed (entry : Handled) : Prop :=
  entry.ept = entry.endpoints.find? (fun other => decide (other.addr = entry.message.dst))

namespace Receiver

/-- A buffer is in the slave's hands, and its message is the one it was posted with. -/
structure Intact (s : Shared RpmsgBuf) (buffer : AvailableBuffer) (serial : Nat) : Prop where
  has : s.transport.Has buffer serial
  message : (s.posted[serial]?).map RpmsgBuf.message = some (s.memory buffer.buffer).message

/-- A buffer that is held: it is as it was received, with its index under the mark. -/
structure Held (s : Shared RpmsgBuf) (buffer : AvailableBuffer) (serial : Nat) : Prop where
  intact : Intact s buffer serial
  reserved : (s.memory buffer.buffer).reserved = bufHeld + buffer.availIdx

/-- What the receiver can rely on where it stands. Of a buffer that was held it knows only
that it took it. -/
def Doing (s : Shared RpmsgBuf) : RxAt → Prop
  | .idle => True
  | .taking => s.transport.slaveAt = .taking
  | .marking buffer serial => Intact s buffer serial
  | .looking buffer serial =>
      Intact s buffer serial ∧ (s.memory buffer.buffer).reserved = buffer.availIdx
  | .binding buffer serial endpoints ept =>
      Intact s buffer serial ∧ (s.memory buffer.buffer).reserved = buffer.availIdx ∧
        endpoints.find? (fun other => decide (other.addr = (s.memory buffer.buffer).dst)) =
          some ept
  | .calling buffer serial _ false =>
      Intact s buffer serial ∧ (s.memory buffer.buffer).reserved = buffer.availIdx
  | .settling buffer serial false =>
      Intact s buffer serial ∧ (s.memory buffer.buffer).reserved = buffer.availIdx
  | .calling buffer serial _ true => s.transport.taken[serial]? = some buffer
  | .settling buffer serial true => s.transport.taken[serial]? = some buffer
  | .publishing => s.transport.slaveAt = .publishing
  | .polling => s.transport.slaveAt = .idle
  | .kicking => s.transport.slaveAt = .idle
  | .twice buffer serial =>
      s.transport.taken[serial]? = some buffer ∧
        ⟨buffer.availIdx, serial⟩ ∉ s.transport.held

/-- A buffer on record as a chain on its way. -/
def flightOf (pair : AvailableBuffer × Nat) : Flight := ⟨pair.1.availIdx, pair.2⟩

/-- Every buffer that was taken and not returned is in the receiver's hands, held, or
being released; what is held is as it was received; and what was received is what was
sent. -/
structure Sound (bits : Nat) (pool : List VirtqueueBuf) (r : Receiver) : Prop where
  kept : Shared.Kept bits pool r.shared
  sized : Shared.Sized rpmsgBufferSize r.shared
  tracks : Tracks r.registry.device
  free : r.lock = none → r.shared.transport.slaveAt = .idle
  owner : r.rx.locked = true ↔ r.lock = some .receiver
  releaser : r.lock = some .releaser → r.shared.transport.slaveAt = .publishing
  hands : r.shared.transport.held.Perm
    (r.rx.hand ++ r.holding.map flightOf ++ r.releasing)
  doing : Doing r.shared r.rx
  holding : ∀ pair ∈ r.holding, Held r.shared pair.1 pair.2
  releasing : ∀ flight ∈ r.releasing, ∃ buffer,
    flightOf (buffer, flight.serial) = flight ∧ Held r.shared buffer flight.serial
  count : r.handled.length + r.rx.unhandled = r.shared.transport.taken.length
  next : r.rx.unhandled = 1 → ∀ flight ∈ r.rx.hand, flight.serial = r.handled.length
  order : r.handled.map (·.message) =
    (r.shared.posted.map RpmsgBuf.message).take r.handled.length
  found : ∀ entry ∈ r.handled, entry.Addressed

section Frames

variable {s v : Shared RpmsgBuf}

/-- A buffer that nothing happens to stays as it is. -/
theorem Intact.frame {buffer : AvailableBuffer} {serial : Nat} (intact : Intact s buffer serial)
    (same : Shared.Undisturbed s v ⟨buffer.availIdx, serial⟩) :
    Intact v buffer serial ∧ v.memory buffer.buffer = s.memory buffer.buffer := by
  obtain ⟨has, contents⟩ := same.has intact.has
  refine ⟨⟨has, ?_⟩, contents⟩
  rw [same.posted, contents]
  exact intact.message

/-- What leaves a flight undisturbed leaves the buffer held. -/
theorem Held.frame {buffer : AvailableBuffer} {serial : Nat} (held : Held s buffer serial)
    (same : Shared.Undisturbed s v ⟨buffer.availIdx, serial⟩) : Held v buffer serial := by
  obtain ⟨intact, contents⟩ := held.intact.frame same
  exact ⟨intact, contents ▸ held.reserved⟩

/-- What was taken stays on record. -/
theorem found_later {taken : List AvailableBuffer} {buffer : AvailableBuffer} {serial : Nat}
    (further : s.transport.taken <+: taken)
    (found : s.transport.taken[serial]? = some buffer) : taken[serial]? = some buffer := by
  obtain ⟨more, rfl⟩ := further
  rw [List.getElem?_append_left (List.getElem?_eq_some_iff.mp found).1]
  exact found

/-- It can rely on it as long as nothing happens to the buffer in its hands. -/
theorem Doing.frame {place : RxAt} (doing : Doing s place)
    (same : ∀ flight ∈ place.hand, Shared.Undisturbed s v flight)
    (further : s.transport.taken <+: v.transport.taken)
    (standing : place.locked = true →
      v.transport.slaveAt = s.transport.slaveAt ∧ v.transport.held = s.transport.held) :
    Doing v place := by
  cases place with
  | idle => trivial
  | taking => exact (standing rfl).1.trans doing
  | marking buffer serial => exact (Intact.frame doing (same _ (List.mem_singleton_self _))).1
  | looking buffer serial =>
    obtain ⟨intact, contents⟩ := doing.1.frame (same _ (List.mem_singleton_self _))
    exact ⟨intact, contents ▸ doing.2⟩
  | binding buffer serial endpoints ept =>
    obtain ⟨intact, contents⟩ := doing.1.frame (same _ (List.mem_singleton_self _))
    exact ⟨intact, contents ▸ doing.2.1, contents ▸ doing.2.2⟩
  | calling buffer serial ept held =>
    cases held with
    | false =>
      obtain ⟨intact, contents⟩ := doing.1.frame (same _ (List.mem_singleton_self _))
      exact ⟨intact, contents ▸ doing.2⟩
    | true => exact found_later further doing
  | settling buffer serial held =>
    cases held with
    | false =>
      obtain ⟨intact, contents⟩ := doing.1.frame (same _ (List.mem_singleton_self _))
      exact ⟨intact, contents ▸ doing.2⟩
    | true => exact found_later further doing
  | publishing => exact (standing rfl).1.trans doing
  | polling => exact (standing rfl).1.trans doing
  | kicking => exact (standing rfl).1.trans doing
  | twice buffer serial =>
    exact ⟨found_later further doing.1, (standing rfl).2 ▸ doing.2⟩

end Frames

/-! ## What the steps keep -/

section Steps

variable {bits : Nat} {pool : List VirtqueueBuf} {r : Receiver} {v : Shared RpmsgBuf}

/-- What somebody has is in the slave's hands. -/
theorem Sound.hand_held (sound : Sound bits pool r) {flight : Flight}
    (mine : flight ∈ r.rx.hand) : flight ∈ r.shared.transport.held :=
  sound.hands.mem_iff.mpr (List.mem_append_left _ (List.mem_append_left _ mine))

/-- A buffer that a callback holds has not been returned. -/
theorem Sound.holding_held (sound : Sound bits pool r) {pair : AvailableBuffer × Nat}
    (member : pair ∈ r.holding) : flightOf pair ∈ r.shared.transport.held :=
  sound.hands.mem_iff.mpr
    (List.mem_append_left _ (List.mem_append_right _ (List.mem_map_of_mem member)))

/-- Nor has one that is being released. -/
theorem Sound.releasing_held (sound : Sound bits pool r) {flight : Flight}
    (member : flight ∈ r.releasing) : flight ∈ r.shared.transport.held :=
  sound.hands.mem_iff.mpr (List.mem_append_right _ member)

/-- Nothing is in two hands. -/
theorem Sound.hands_nodup (sound : Sound bits pool r) :
    ((r.rx.hand ++ r.holding.map flightOf ++ r.releasing).map (·.serial)).Nodup :=
  (sound.hands.map (·.serial)).nodup_iff.mp sound.kept.held_nodup

/-- What is being released is in nobody else's hands. -/
theorem Sound.releasing_apart (sound : Sound bits pool r) {flight other : Flight}
    (member : flight ∈ r.releasing) (elsewhere : other ∈ r.rx.hand ++ r.holding.map flightOf) :
    other.serial ≠ flight.serial := by
  have nodup := sound.hands_nodup
  rw [List.map_append, List.nodup_append] at nodup
  exact nodup.2.2 _ (List.mem_map_of_mem elsewhere) _ (List.mem_map_of_mem member)

/-- Two holds are of two buffers. -/
theorem Sound.holding_inj (sound : Sound bits pool r) {pair other : AvailableBuffer × Nat}
    (one : pair ∈ r.holding) (two : other ∈ r.holding) (same : pair.2 = other.2) :
    pair = other := by
  have found := (sound.holding pair one).intact.has.found
  rw [same, (sound.holding other two).intact.has.found] at found
  exact Prod.ext (Option.some.inj found).symm same

/-- Nor is what callbacks hold in the receiver's hands. -/
theorem Sound.holding_apart (sound : Sound bits pool r) {flight : Flight}
    (mine : flight ∈ r.rx.hand) {pair : AvailableBuffer × Nat} (member : pair ∈ r.holding) :
    (flightOf pair).serial ≠ flight.serial := by
  have nodup := sound.hands_nodup
  rw [List.map_append, List.map_append, List.nodup_append, List.nodup_append] at nodup
  intro same
  exact nodup.1.2.2 _ (List.mem_map_of_mem mine) _
    (List.mem_map_of_mem (List.mem_map_of_mem member)) same.symm

/-- What is held stays so as long as nothing happens to it. -/
theorem Sound.holding_frame (sound : Sound bits pool r)
    (same : ∀ pair ∈ r.holding, Shared.Undisturbed r.shared v (flightOf pair)) :
    ∀ pair ∈ r.holding, Held v pair.1 pair.2 :=
  fun pair member => (sound.holding pair member).frame (same pair member)

/-- So does what is being released. -/
theorem Sound.releasing_frame (sound : Sound bits pool r) {releasing : List Flight}
    (fewer : ∀ flight ∈ releasing, flight ∈ r.releasing)
    (same : ∀ flight ∈ releasing, Shared.Undisturbed r.shared v flight) :
    ∀ flight ∈ releasing, ∃ buffer,
      flightOf (buffer, flight.serial) = flight ∧ Held v buffer flight.serial := by
  intro flight member
  obtain ⟨buffer, own, held⟩ := sound.releasing flight (fewer flight member)
  refine ⟨buffer, own, held.frame ?_⟩
  change Shared.Undisturbed r.shared v (flightOf (buffer, flight.serial))
  rw [own]
  exact same flight member

/-- A buffer that the receiver took and that nobody returned has its index under the mark,
if it is not in the receiver's hands. -/
theorem Sound.marked (sound : Sound bits pool r) {buffer : AvailableBuffer} {serial : Nat}
    (found : r.shared.transport.taken[serial]? = some buffer) (away : r.rx.hand = [])
    (holds : ⟨buffer.availIdx, serial⟩ ∈ r.shared.transport.held) :
    Held r.shared buffer serial := by
  have somewhere := sound.hands.mem_iff.mp holds
  rw [away, List.nil_append] at somewhere
  rcases List.mem_append.mp somewhere with held | released
  · obtain ⟨pair, member, same⟩ := List.mem_map.mp held
    obtain rfl : pair.2 = serial := congrArg Flight.serial same
    have own := sound.holding pair member
    obtain rfl : buffer = pair.1 := Option.some.inj (found.symm.trans own.intact.has.found)
    exact own
  · obtain ⟨other, _, own⟩ := sound.releasing _ released
    obtain rfl : buffer = other := Option.some.inj (found.symm.trans own.intact.has.found)
    exact own

/-- Messages that are posted later do not change what was received. -/
theorem Sound.order_frame (sound : Sound bits pool r) {more : List RpmsgBuf}
    (posted : v.posted = r.shared.posted ++ more) :
    r.handled.map (·.message) = (v.posted.map RpmsgBuf.message).take r.handled.length := by
  have count := sound.count
  have visible := sound.kept.inv.counted.takenVisible
  have all := sound.kept.postedAll
  rw [posted, List.map_append, List.take_append_of_le_length (by rw [List.length_map]; omega)]
  exact sound.order

/-- A call that puts nothing on record, with the receiver somewhere else after it. -/
theorem Sound.quiet (small : bits ≤ 15) (sound : Sound bits pool r) {event : TransportEvent}
    (ran : r.shared.step (.call event) = some v) (quiet : Transport.silent event = true)
    {lock : Option RxLock} {rx : RxAt} (hand : rx.hand = r.rx.hand)
    (unhandled : rx.unhandled = r.rx.unhandled)
    (free : lock = none → v.transport.slaveAt = .idle)
    (owner : rx.locked = true ↔ lock = some .receiver)
    (releaser : lock = some .releaser → v.transport.slaveAt = .publishing)
    (doing : Doing v rx) :
    Sound bits pool { r with shared := v, lock := lock, rx := rx } := by
  have kept := Shared.step_kept small _ _ _ sound.kept ran
  have other : ∀ flight len, event ≠ .consumedStore flight len := by
    rintro flight len rfl
    cases quiet
  obtain ⟨held, taken, posted⟩ := Shared.quiet_frame quiet ran
  refine ⟨kept, sound.sized.call kept ran (fun flight len same => absurd same (other flight len)),
    sound.tracks, free, owner, releaser, ?_, doing, ?_, ?_, ?_, ?_, ?_, sound.found⟩
  · change v.transport.held.Perm (rx.hand ++ _ ++ _)
    rw [held, hand]
    exact sound.hands
  · refine sound.holding_frame ?_
    intro pair member
    exact Shared.call_undisturbed sound.kept ran (sound.holding_held member) (other _)
  · refine sound.releasing_frame (fun _ member => member) ?_
    intro flight member
    exact Shared.call_undisturbed sound.kept ran (sound.releasing_held member) (other _)
  · change r.handled.length + rx.unhandled = v.transport.taken.length
    rw [taken, unhandled]
    exact sound.count
  · change rx.unhandled = 1 → ∀ flight ∈ rx.hand, _
    rw [unhandled, hand]
    exact sound.next
  · exact sound.order_frame (posted.trans (List.append_nil _).symm)

/-- The return of a buffer out of somebody's hands. -/
theorem Sound.returned (small : bits ≤ 15) (sound : Sound bits pool r) {flight : Flight}
    {len : Nat} (ran : r.shared.step (.call (.consumedStore flight len)) = some v)
    (size : len = rpmsgBufferSize) {lock : RxLock} {rx : RxAt} {releasing : List Flight}
    (split : (r.rx.hand ++ r.holding.map flightOf ++ r.releasing).Perm
      (flight :: (rx.hand ++ r.holding.map flightOf ++ releasing)))
    (fewer : ∀ other ∈ rx.hand, other ∈ r.rx.hand)
    (left : ∀ other ∈ releasing, other ∈ r.releasing)
    (unhandled : rx.unhandled = r.rx.unhandled)
    (owner : rx.locked = true ↔ some lock = some .receiver) (doing : Doing v rx) :
    Sound bits pool
      { r with shared := v, lock := some lock, rx := rx, releasing := releasing } := by
  have kept := Shared.step_kept small _ _ _ sound.kept ran
  obtain ⟨held, taken, standing, posted⟩ := Shared.return_frame ran
  have sized : Shared.Sized rpmsgBufferSize v := by
    refine sound.sized.call kept ran ?_
    intro other other_len same
    rw [← (TransportEvent.consumedStore.inj same).2]
    exact size
  have nodup := (split.map (·.serial)).nodup_iff.mp sound.hands_nodup
  rw [List.map_cons, List.nodup_cons] at nodup
  have apart : ∀ other ∈ rx.hand ++ r.holding.map flightOf ++ releasing, ∀ more,
      TransportEvent.consumedStore flight len ≠ .consumedStore other more := by
    intro other member more same
    rw [(TransportEvent.consumedStore.inj same).1] at nodup
    exact nodup.1 (List.mem_map_of_mem member)
  refine ⟨kept, sized, sound.tracks, by simp, owner, fun _ => standing, ?_, doing, ?_, ?_, ?_, ?_,
    ?_, sound.found⟩
  · change v.transport.held.Perm _
    rw [held]
    have first := (sound.hands.trans split).erase flight
    rw [List.erase_cons_head] at first
    exact first
  · refine sound.holding_frame ?_
    intro pair member
    exact Shared.call_undisturbed sound.kept ran (sound.holding_held member)
      (apart _ (List.mem_append_left _ (List.mem_append_right _ (List.mem_map_of_mem member))))
  · refine sound.releasing_frame left ?_
    intro other member
    exact Shared.call_undisturbed sound.kept ran (sound.releasing_held (left other member))
      (apart other (List.mem_append_right _ member))
  · change r.handled.length + rx.unhandled = v.transport.taken.length
    rw [taken, unhandled]
    exact sound.count
  · intro waiting other mine
    exact sound.next (unhandled.symm.trans waiting) other (fewer other mine)
  · exact sound.order_frame (posted.trans (List.append_nil _).symm)

/-- The mark is set above the index. -/
theorem or_held {idx : Nat} (small : idx < 2 ^ 31) : idx ||| bufHeld = bufHeld + idx := by
  rw [Nat.or_comm, bufHeld]
  exact (Nat.two_pow_add_eq_or_of_lt small 1).symm

/-- It can be set again. -/
theorem held_or {idx : Nat} (small : idx < 2 ^ 31) :
    (bufHeld + idx) ||| bufHeld = bufHeld + idx := by
  rw [← or_held small, Nat.or_assoc, Nat.or_self]

/-- An index does not look like the mark. -/
theorem and_held {idx : Nat} (small : idx < 2 ^ 31) : idx &&& bufHeld = 0 := by
  rw [bufHeld, Nat.and_two_pow, Nat.testBit_lt_two_pow small]
  rfl

/-- The mark is found above an index. -/
theorem held_and {idx : Nat} (small : idx < 2 ^ 31) : (bufHeld + idx) &&& bufHeld = bufHeld := by
  rw [← or_held small, Nat.and_comm, Nat.and_or_distrib_left, Nat.and_comm bufHeld idx,
    and_held small, Nat.zero_or, Nat.and_self]

/-- The index is found under the mark. -/
theorem held_masked {idx : Nat} (small : idx < 2 ^ 31) : (bufHeld + idx) &&& bufHeldMask = idx := by
  rw [bufHeld, bufHeldMask, Nat.and_two_pow_sub_one_eq_mod, Nat.add_mod_left,
    Nat.mod_eq_of_lt small]

/-- The mark does not run into the index. -/
theorem Intact.idx_lt (small : bits ≤ 15) {s : Shared RpmsgBuf} (kept : Shared.Kept bits pool s)
    {buffer : AvailableBuffer} {serial : Nat} (intact : Intact s buffer serial) :
    buffer.availIdx < 2 ^ 31 := by
  have short := kept.idx_small small intact.has
  rw [← short, u16]
  omega

/-- A write of the receiver, or of the callback it has called, to the buffer in its hands
or to one that is held. -/
theorem Sound.wrote (small : bits ≤ 15) (sound : Sound bits pool r) {flight : Flight}
    {value : RpmsgBuf} (ran : r.shared.step (.slaveWrite flight value) = some v)
    (mine : flight ∈ r.rx.hand ++ r.holding.map flightOf) {rx : RxAt}
    {holding : List (AvailableBuffer × Nat)}
    (hands : (rx.hand ++ holding.map flightOf).Perm (r.rx.hand ++ r.holding.map flightOf))
    (unhandled : rx.unhandled = r.rx.unhandled)
    (hand : rx.unhandled = 1 → rx.hand = r.rx.hand) (locked : rx.locked = r.rx.locked)
    (doing : Doing v rx)
    (written : ∀ pair ∈ holding, pair.2 = flight.serial → Held v pair.1 pair.2)
    (others : ∀ pair ∈ holding, pair.2 ≠ flight.serial → pair ∈ r.holding) :
    Sound bits pool { r with shared := v, rx := rx, holding := holding } := by
  have kept := Shared.step_kept small _ _ _ sound.kept ran
  have held : ∀ pair ∈ holding, Held v pair.1 pair.2 := by
    intro pair member
    by_cases same : pair.2 = flight.serial
    · exact written pair member same
    · have old := others pair member same
      exact (sound.holding pair old).frame
        (Shared.slaveWrite_undisturbed sound.kept ran (sound.holding_held old) same)
  have releasing := sound.releasing_frame (fun _ member => member) (fun other member =>
    Shared.slaveWrite_undisturbed sound.kept ran (sound.releasing_held member)
      (sound.releasing_apart member mine).symm)
  obtain ⟨_, result⟩ := Option.ite_none_right_eq_some.mp ran
  obtain rfl := Option.some.inj result
  refine ⟨kept, ⟨sound.sized.owned, sound.sized.offered, sound.sized.consumed⟩, sound.tracks,
    sound.free, ?_, sound.releaser, ?_, doing, held, releasing, ?_, ?_, sound.order, sound.found⟩
  · change rx.locked = true ↔ _
    rw [locked]
    exact sound.owner
  · exact sound.hands.trans (hands.symm.append_right _)
  · change r.handled.length + rx.unhandled = _
    rw [unhandled]
    exact sound.count
  · intro waiting other member
    change rx.unhandled = 1 at waiting
    change other ∈ rx.hand at member
    rw [hand waiting] at member
    exact sound.next (unhandled ▸ waiting) other member

/-- A message is taken. -/
theorem taking_sound (small : bits ≤ 15) (sound : Sound bits pool r) {next : Receiver}
    (standing : r.rx = .taking) (taken : r.advance = some next) : Sound bits pool next := by
  simp only [advance, standing] at taken
  obtain ⟨shared, ran, rest⟩ := Option.bind_eq_some_iff.mp taken
  obtain ⟨buffer, found, result⟩ := Option.bind_eq_some_iff.mp rest
  obtain rfl := Option.some.inj result
  have kept := Shared.step_kept small _ _ _ sound.kept ran
  obtain ⟨other, record, held, idle, posted, contents⟩ :=
    Shared.take_frame sound.kept kept ran
  have same : other = buffer := by
    rw [record, List.getElem?_concat_length] at found
    exact Option.some.inj found
  subst same
  have undisturbed := fun pair (member : pair ∈ r.holding) =>
    Shared.call_undisturbed sound.kept ran (sound.holding_held member) (by simp)
  have releasing := sound.releasing_frame (fun _ member => member) (fun flight member =>
    Shared.call_undisturbed sound.kept ran (sound.releasing_held member) (by simp))
  have hands := sound.hands
  have count := sound.count
  rw [standing] at hands count
  refine ⟨kept, sound.sized.call kept ran (by simp), sound.tracks, fun _ => idle, ?_, by simp, ?_,
    ⟨⟨?_, found⟩, ?_⟩, sound.holding_frame undisturbed, releasing, ?_, ?_,
    sound.order_frame (posted.trans (List.append_nil _).symm), sound.found⟩
  · simp [RxAt.locked]
  · change shared.transport.held.Perm _
    rw [held]
    exact (List.perm_append_singleton _ _).trans (hands.cons _)
  · change _ ∈ shared.transport.held
    rw [held]
    exact List.mem_append_right _ (List.mem_singleton_self _)
  · change (shared.posted[_]?).map _ = _
    rw [contents]
    rfl
  · change r.handled.length + 1 = shared.transport.taken.length
    rw [record, List.length_append, List.length_singleton, ← count]
    rfl
  · intro _ flight mine
    rw [List.mem_singleton.mp mine]
    exact count.symm

/-- What the receiver finds where it stands. -/
theorem Sound.doing_at (sound : Sound bits pool r) {place : RxAt} (standing : r.rx = place) :
    Doing r.shared place :=
  standing ▸ sound.doing

/-- A write to the `reserved` word leaves the message. -/
theorem Intact.marked {s : Shared RpmsgBuf} {buffer : AvailableBuffer} {serial reserved : Nat}
    (intact : Intact s buffer serial)
    (ran : s.step (.slaveWrite ⟨buffer.availIdx, serial⟩
      { s.memory buffer.buffer with reserved := reserved }) = some v) :
    Intact v buffer serial ∧ (v.memory buffer.buffer).reserved = reserved := by
  obtain ⟨transport, value⟩ := Shared.slaveWrite_value ran
  rw [intact.has.handed] at value
  have posted : v.posted = s.posted := by
    obtain ⟨_, result⟩ := Option.ite_none_right_eq_some.mp ran
    rw [← Option.some.inj result]
  refine ⟨⟨transport ▸ intact.has, ?_⟩, by rw [value]⟩
  rw [posted, intact.message, value]
  rfl

/-- The index goes into the buffer. -/
theorem marking_sound (small : bits ≤ 15) (sound : Sound bits pool r) {next : Receiver}
    {buffer : AvailableBuffer} {serial : Nat} (standing : r.rx = .marking buffer serial)
    (taken : r.advance = some next) : Sound bits pool next := by
  have intact : Intact r.shared buffer serial := sound.doing_at standing
  have mine : (⟨buffer.availIdx, serial⟩ : Flight) ∈ r.rx.hand := by
    rw [standing]
    exact List.mem_singleton_self _
  simp only [advance, standing] at taken
  obtain ⟨shared, ran, result⟩ := Option.bind_eq_some_iff.mp taken
  obtain rfl := Option.some.inj result
  refine sound.wrote small ran (List.mem_append_left _ mine) (by rw [standing]; rfl)
    (by rw [standing]; rfl) (fun _ => by rw [standing]; rfl) (by rw [standing]; rfl)
    (intact.marked ran) ?_ (fun _ member _ => member)
  intro pair member same
  exact absurd same (sound.holding_apart mine member)

/-- A callback that holds its buffer marks it, and so it is no longer in the receiver's
hands; a second mark changes nothing. -/
theorem hold_sound (small : bits ≤ 15) (sound : Sound bits pool r) {next : Receiver}
    (taken : r.step .hold = some next) : Sound bits pool next := by
  cases standing : r.rx with
  | calling buffer serial ept held =>
    simp only [step, standing] at taken
    obtain ⟨may, later⟩ := Option.ite_none_left_eq_some.mp taken
    obtain ⟨shared, ran, rfl⟩ := Option.map_eq_some_iff.mp later
    cases held with
    | false =>
      obtain ⟨intact, plain⟩ := sound.doing_at standing
      obtain ⟨still, reserved⟩ := intact.marked ran
      rw [plain, or_held (intact.idx_lt small sound.kept)] at reserved
      have mine : (⟨buffer.availIdx, serial⟩ : Flight) ∈ r.rx.hand := by
        rw [standing]
        exact List.mem_singleton_self _
      refine sound.wrote small ran (List.mem_append_left _ mine) ?_ (by rw [standing]; rfl)
        (by simp [RxAt.unhandled]) (by rw [standing]; rfl) still.has.found ?_ ?_
      · rw [standing]
        simp only [Bool.false_eq_true, if_false, RxAt.hand, List.nil_append, List.map_append,
          List.singleton_append]
        exact List.perm_append_singleton _ _
      · intro pair member same
        rcases List.mem_append.mp member with old | new
        · exact absurd same (sound.holding_apart mine old)
        · rw [List.mem_singleton.mp new]
          exact ⟨still, reserved⟩
      · intro pair member different
        refine (List.mem_append.mp member).resolve_right ?_
        intro new
        rw [List.mem_singleton.mp new] at different
        exact different rfl
    | true =>
      have member : (buffer, serial) ∈ r.holding := by
        by_contra missing
        exact may (Or.inr ⟨rfl, missing⟩)
      obtain ⟨intact, marked⟩ := sound.holding _ member
      obtain ⟨still, reserved⟩ := intact.marked ran
      rw [marked, held_or (intact.idx_lt small sound.kept)] at reserved
      have mine : (⟨buffer.availIdx, serial⟩ : Flight) ∈ r.holding.map flightOf :=
        List.mem_map_of_mem (f := flightOf) member
      refine sound.wrote small ran (List.mem_append_right _ mine) (by rw [standing]; rfl)
        (by rw [standing]) (by simp [RxAt.unhandled]) (by rw [standing])
        still.has.found ?_ (fun _ member _ => member)
      intro pair also same
      rw [sound.holding_inj also member same]
      exact ⟨still, reserved⟩
  | _ => simp [step, standing] at taken

/-- A step of the receiver that changes nothing but where it stands, the endpoints and
what it has handled. -/
theorem Sound.looked (sound : Sound bits pool r) {rx : RxAt} {registry : Registry}
    {handled : List Handled} (tracks : Tracks registry.device) (hand : rx.hand = r.rx.hand)
    (locked : rx.locked = r.rx.locked) (doing : Doing r.shared rx)
    (count : handled.length + rx.unhandled = r.handled.length + r.rx.unhandled)
    (next : rx.unhandled = 1 → ∀ flight ∈ rx.hand, flight.serial = handled.length)
    (order : handled.map (·.message) =
      (r.shared.posted.map RpmsgBuf.message).take handled.length)
    (found : ∀ entry ∈ handled, entry.Addressed) :
    Sound bits pool { r with rx := rx, registry := registry, handled := handled } := by
  refine ⟨sound.kept, sound.sized, tracks, sound.free, ?_, sound.releaser, ?_, doing,
    sound.holding, sound.releasing, count.trans sound.count, next, order, found⟩
  · change rx.locked = true ↔ _
    rw [locked]
    exact sound.owner
  · change r.shared.transport.held.Perm (rx.hand ++ _ ++ _)
    rw [hand]
    exact sound.hands

/-- The message in the receiver's hands is the next one that was posted. -/
theorem Sound.order_next (sound : Sound bits pool r) {buffer : AvailableBuffer} {serial : Nat}
    (intact : Intact r.shared buffer serial) (next : serial = r.handled.length)
    (entry : Handled) (same : entry.message = (r.shared.memory buffer.buffer).message) :
    (r.handled ++ [entry]).map (·.message) =
      (r.shared.posted.map RpmsgBuf.message).take (r.handled ++ [entry]).length := by
  have message := intact.message
  rw [← List.getElem?_map, next] at message
  rw [List.map_append, List.map_singleton, List.length_append, List.length_singleton,
    List.take_add_one, ← sound.order, message, same]
  rfl

/-- One more message that was handed to the right endpoint. -/
theorem found_append {handled : List Handled} {new : Handled}
    (found : ∀ entry ∈ handled, entry.Addressed) (addressed : new.Addressed) :
    ∀ entry ∈ handled ++ [new], entry.Addressed := by
  intro other member
  rcases List.mem_append.mp member with old | last
  · exact found other old
  · rw [List.mem_singleton.mp last]
    exact addressed

/-- The endpoint is looked up. -/
theorem looking_sound (sound : Sound bits pool r) {next : Receiver} {buffer : AvailableBuffer}
    {serial : Nat} (standing : r.rx = .looking buffer serial)
    (taken : r.advance = some next) : Sound bits pool next := by
  obtain ⟨intact, plain⟩ := sound.doing_at standing
  have newest : serial = r.handled.length :=
    sound.next (by rw [standing]; rfl) ⟨buffer.availIdx, serial⟩
      (by rw [standing]; exact List.mem_singleton_self _)
  simp only [advance, standing] at taken
  obtain ⟨_, later⟩ := Option.ite_none_right_eq_some.mp taken
  have lookup := sound.tracks.lookup (r.shared.memory buffer.buffer).message.dst
  cases found : rpmsgGetEptFromAddr r.registry.device
      (r.shared.memory buffer.buffer).message.dst with
  | some ept =>
    rw [found] at later lookup
    obtain rfl := Option.some.inj later
    refine sound.looked sound.tracks ?_ ?_ ⟨intact, plain, lookup.symm⟩ ?_ ?_ sound.order
      sound.found
    · rw [standing]
      rfl
    · rw [standing]
      rfl
    · rw [standing]
      rfl
    · intro _ flight mine
      rw [List.mem_singleton.mp mine]
      exact newest
  | none =>
    rw [found] at later lookup
    obtain rfl := Option.some.inj later
    refine sound.looked sound.tracks ?_ ?_ ⟨intact, plain⟩ ?_ ?_
      (sound.order_next intact newest _ rfl) (found_append sound.found lookup)
    · rw [standing]
      rfl
    · rw [standing]
      rfl
    · rw [standing, List.length_append]
      rfl
    · simp [RxAt.unhandled]

/-- The write of the sender's address touches no address of the device. -/
theorem bind_tracks {registry : Registry} (tracks : Tracks registry.device) (key src : Nat) :
    Tracks (bind registry key src).device := by
  unfold bind
  split
  · split
    · exact tracks.setDest _ _
    · exact tracks
  · exact tracks

/-- The sender's address goes into the endpoint, and the callback is called. -/
theorem binding_sound (sound : Sound bits pool r) {next : Receiver} {buffer : AvailableBuffer}
    {serial : Nat} {endpoints : List RpmsgEndpoint} {ept : RpmsgEndpoint}
    (standing : r.rx = .binding buffer serial endpoints ept)
    (taken : r.advance = some next) : Sound bits pool next := by
  obtain ⟨intact, plain, found⟩ := sound.doing_at standing
  have newest : serial = r.handled.length :=
    sound.next (by rw [standing]; rfl) ⟨buffer.availIdx, serial⟩
      (by rw [standing]; exact List.mem_singleton_self _)
  simp only [advance, standing] at taken
  obtain rfl := Option.some.inj taken
  refine sound.looked (bind_tracks sound.tracks _ _) ?_ ?_ ⟨intact, plain⟩ ?_ ?_
    (sound.order_next intact newest _ rfl) (found_append sound.found found.symm)
  · rw [standing]
    rfl
  · rw [standing]
    rfl
  · rw [standing, List.length_append]
    rfl
  · simp [RxAt.unhandled]

/-- Nor does an announcement. -/
theorem nsCallback_tracks {dev : RpmsgDevice} (tracks : Tracks dev) (buf : RpmsgBuf) :
    Tracks (rpmsgVirtioNsCallback dev buf) := by
  unfold rpmsgVirtioNsCallback
  split
  · exact tracks
  · exact tracks.announced _ _ _

/-- The callback returns. -/
theorem calling_sound (sound : Sound bits pool r) {next : Receiver} {buffer : AvailableBuffer}
    {serial : Nat} {ept : RpmsgEndpoint} {held : Bool}
    (standing : r.rx = .calling buffer serial ept held)
    (taken : r.advance = some next) : Sound bits pool next := by
  have doing : Doing r.shared (.settling buffer serial held) := by
    have before := sound.doing_at standing
    cases held <;> exact before
  have hand : (RxAt.settling buffer serial held).hand = r.rx.hand := by
    rw [standing]
    cases held <;> rfl
  have returns : ∀ registry : Registry, Tracks registry.device →
      Sound bits pool { r with rx := .settling buffer serial held, registry := registry } := by
    intro registry tracks
    refine sound.looked tracks hand ?_ doing ?_ ?_ sound.order sound.found
    · rw [standing]
      rfl
    · rw [standing]
      rfl
    · simp [RxAt.unhandled]
  simp only [advance, standing] at taken
  split at taken
  · obtain ⟨_, result⟩ := Option.ite_none_right_eq_some.mp taken
    obtain rfl := Option.some.inj result
    exact returns _ (nsCallback_tracks sound.tracks _)
  · obtain rfl := Option.some.inj taken
    exact returns r.registry sound.tracks

/-- A buffer that the receiver works on and that was not returned is marked exactly if it
was held. -/
theorem Sound.settled (small : bits ≤ 15) (sound : Sound bits pool r) {buffer : AvailableBuffer}
    {serial : Nat} {held : Bool} (standing : r.rx = .settling buffer serial held)
    (holds : ⟨buffer.availIdx, serial⟩ ∈ r.shared.transport.held) :
    Intact r.shared buffer serial ∧
      ((r.shared.memory buffer.buffer).reserved &&& bufHeld ≠ 0 ↔ held = true) := by
  cases held with
  | false =>
    obtain ⟨intact, plain⟩ := sound.doing_at standing
    refine ⟨intact, ?_⟩
    rw [plain, and_held (intact.idx_lt small sound.kept)]
    simp
  | true =>
    obtain ⟨intact, reserved⟩ :=
      sound.marked (sound.doing_at standing) (by rw [standing]; rfl) holds
    refine ⟨intact, ?_⟩
    rw [reserved, held_and (intact.idx_lt small sound.kept)]
    simp [bufHeld]

/-- The receiver looks whether the buffer was held. -/
theorem settling_sound (small : bits ≤ 15) (sound : Sound bits pool r) {next : Receiver}
    {buffer : AvailableBuffer} {serial : Nat} {held : Bool}
    (standing : r.rx = .settling buffer serial held)
    (taken : r.advance = some next) : Sound bits pool next := by
  have settled := sound.settled small standing
  have inside : held = false → (⟨buffer.availIdx, serial⟩ : Flight) ∈ r.rx.hand := by
    rintro rfl
    rw [standing]
    exact List.mem_singleton_self _
  have found : r.shared.transport.taken[serial]? = some buffer := by
    have before := sound.doing_at standing
    cases held with
    | false => exact before.1.has.found
    | true => exact before
  have hands := sound.hands
  have count := sound.count
  rw [standing] at hands count
  simp only [advance, standing] at taken
  obtain ⟨unlocked, later⟩ := Option.ite_none_right_eq_some.mp taken
  -- the receiver leaves a buffer that was held to its release
  have leaves : ∀ rx : RxAt, held = true → rx.hand = [] → rx.unhandled = 0 → rx.locked = true →
      Doing r.shared rx → Sound bits pool { r with lock := some .receiver, rx := rx } := by
    rintro rx rfl away nothing locked doing
    refine ⟨sound.kept, sound.sized, sound.tracks, by simp, by simp [locked], by simp, ?_, doing,
      sound.holding, sound.releasing, ?_, by simp [nothing], sound.order, sound.found⟩
    · rw [away]
      exact hands
    · rw [nothing]
      exact count
  split at later
  · rename_i marked
    obtain rfl := Option.some.inj later
    have was : held = true := by
      cases held with
      | true => rfl
      | false => exact ((settled (sound.hand_held (inside rfl))).2.mp marked)
    exact leaves .polling was rfl rfl rfl (sound.free unlocked)
  · rename_i plain
    split at later
    · rename_i holds
      obtain ⟨intact, mark⟩ := settled holds
      obtain rfl : held = false := by
        rw [Bool.eq_false_iff]
        exact fun was => plain (mark.mpr was)
      obtain ⟨shared, ran, rfl⟩ := Option.map_eq_some_iff.mp later
      refine sound.returned small ran (sound.sized.handed sound.kept intact.has.found) ?_
        (by simp [RxAt.hand]) (fun _ member => member) ?_ (by simp [RxAt.locked])
        (Shared.return_frame ran).2.2.1
      · rw [standing]
        exact List.Perm.refl _
      · rw [standing]
        rfl
    · rename_i gone
      obtain rfl := Option.some.inj later
      have was : held = true := by
        cases held with
        | true => rfl
        | false => exact absurd (sound.hand_held (inside rfl)) gone
      exact leaves (.twice buffer serial) was rfl rfl rfl ⟨found, gone⟩

/-- The index of the used ring moves. -/
theorem publishing_sound (small : bits ≤ 15) (sound : Sound bits pool r) {next : Receiver}
    (standing : r.rx = .publishing) (taken : r.advance = some next) : Sound bits pool next := by
  have mine : r.lock = some .receiver := sound.owner.mp (by rw [standing]; rfl)
  simp only [advance, standing] at taken
  obtain ⟨shared, ran, rfl⟩ := Option.map_eq_some_iff.mp taken
  exact sound.quiet small ran rfl (by rw [standing]; rfl) (by rw [standing]; rfl) (by simp [mine])
    (by simp [RxAt.locked, mine]) (by simp [mine]) (Shared.publish_stands ran)

/-- The receiver looks for the next message. -/
theorem polling_sound (small : bits ≤ 15) (sound : Sound bits pool r) {next : Receiver}
    (standing : r.rx = .polling) (taken : r.advance = some next) : Sound bits pool next := by
  have mine : r.lock = some .receiver := sound.owner.mp (by rw [standing]; rfl)
  simp only [advance, standing] at taken
  obtain ⟨shared, ran, rfl⟩ := Option.map_eq_some_iff.mp taken
  by_cases found : shared.transport.slaveAt = .taking
  · rw [if_pos found]
    exact sound.quiet small ran rfl (by rw [standing]; rfl) (by rw [standing]; rfl)
      (by simp [mine]) (by simp [RxAt.locked, mine]) (by simp [mine]) found
  · rw [if_neg found]
    exact sound.quiet small ran rfl (by rw [standing]; rfl) (by rw [standing]; rfl)
      (by simp [mine]) (by simp [RxAt.locked, mine]) (by simp [mine])
      ((Shared.poll_stands ran).resolve_left found)

/-- The other side is notified, and the receiver is done. -/
theorem kicking_sound (small : bits ≤ 15) (sound : Sound bits pool r) {next : Receiver}
    (standing : r.rx = .kicking) (taken : r.advance = some next) : Sound bits pool next := by
  have before : r.shared.transport.slaveAt = .idle := sound.doing_at standing
  simp only [advance, standing] at taken
  obtain ⟨shared, ran, rfl⟩ := Option.map_eq_some_iff.mp taken
  have idle := (Shared.kick_stands ran).trans before
  exact sound.quiet small ran rfl (by rw [standing]; rfl) (by rw [standing]; rfl) (fun _ => idle)
    (by simp [RxAt.locked]) (by simp) trivial

/-- The next step of the receiver. -/
theorem advance_sound (small : bits ≤ 15) (sound : Sound bits pool r) {next : Receiver}
    (taken : r.advance = some next) : Sound bits pool next := by
  cases standing : r.rx with
  | idle =>
    rw [advance, standing] at taken
    cases taken
  | taking => exact taking_sound small sound standing taken
  | marking buffer serial => exact marking_sound small sound standing taken
  | looking buffer serial => exact looking_sound sound standing taken
  | binding buffer serial endpoints ept => exact binding_sound sound standing taken
  | calling buffer serial ept held => exact calling_sound sound standing taken
  | settling buffer serial held => exact settling_sound small sound standing taken
  | publishing => exact publishing_sound small sound standing taken
  | polling => exact polling_sound small sound standing taken
  | kicking => exact kicking_sound small sound standing taken
  | twice buffer serial =>
    rw [advance, standing] at taken
    cases taken

/-- The receiver is notified, and finds a message or does not. -/
theorem notified_sound (small : bits ≤ 15) (sound : Sound bits pool r) {next : Receiver}
    (taken : r.step .notified = some next) : Sound bits pool next := by
  obtain ⟨⟨standing, unlocked⟩, later⟩ := Option.ite_none_right_eq_some.mp taken
  obtain ⟨shared, ran, rfl⟩ := Option.map_eq_some_iff.mp later
  by_cases found : shared.transport.slaveAt = .taking
  · rw [if_pos found]
    exact sound.quiet small ran rfl (by rw [standing]; rfl) (by rw [standing]; rfl) (by simp)
      (by simp [RxAt.locked]) (by simp) found
  · rw [if_neg found]
    have idle := (Shared.poll_stands ran).resolve_left found
    refine sound.quiet small ran rfl rfl rfl (fun _ => idle) sound.owner (by simp [unlocked]) ?_
    rw [standing]
    trivial

/-- A release reads its index, which is that of the buffer. -/
theorem release_sound (small : bits ≤ 15) (sound : Sound bits pool r) {next : Receiver}
    {buffer : AvailableBuffer} {serial : Nat}
    (taken : r.step (.release buffer serial) = some next) : Sound bits pool next := by
  obtain ⟨member, result⟩ := Option.ite_none_right_eq_some.mp taken
  obtain rfl := Option.some.inj result
  obtain ⟨intact, reserved⟩ := sound.holding _ member
  have read : u16 ((r.shared.memory buffer.buffer).reserved &&& bufHeldMask) =
      buffer.availIdx := by
    rw [reserved, held_masked (intact.idx_lt small sound.kept)]
    exact sound.kept.idx_small small intact.has
  refine ⟨sound.kept, sound.sized, sound.tracks, sound.free, sound.owner, sound.releaser, ?_,
    sound.doing, ?_, ?_, sound.count, sound.next, sound.order, sound.found⟩
  · refine sound.hands.trans ?_
    change (_ ++ r.holding.map flightOf ++ r.releasing).Perm
      (_ ++ (r.holding.erase (buffer, serial)).map flightOf ++ (r.releasing ++ [⟨u16 _, serial⟩]))
    rw [read, List.append_assoc, List.append_assoc]
    refine List.Perm.append_left _ ?_
    refine (((List.perm_cons_erase member).map flightOf).append_right _).trans ?_
    rw [← List.append_assoc]
    exact (List.perm_append_singleton _ _).symm
  · intro pair left
    exact sound.holding pair (List.mem_of_mem_erase left)
  · intro flight listed
    rcases List.mem_append.mp listed with old | new
    · exact sound.releasing flight old
    · rw [List.mem_singleton.mp new, read]
      exact ⟨buffer, rfl, intact, reserved⟩

/-- The return of a released buffer. -/
theorem releaseStore_sound (small : bits ≤ 15) (sound : Sound bits pool r) {next : Receiver}
    {flight : Flight} (taken : r.step (.releaseStore flight) = some next) :
    Sound bits pool next := by
  obtain ⟨⟨unlocked, member⟩, later⟩ := Option.ite_none_right_eq_some.mp taken
  obtain ⟨shared, ran, rfl⟩ := Option.map_eq_some_iff.mp later
  have outside : r.rx.locked = false := by
    rw [Bool.eq_false_iff, ne_eq, sound.owner, unlocked]
    exact (Option.some_ne_none _).symm
  refine sound.returned small ran
    (sound.sized.descriptor sound.kept (sound.releasing_held member)) ?_ (fun _ mine => mine)
    (fun _ left => List.mem_of_mem_erase left) rfl ?_ ?_
  · exact ((List.perm_cons_erase member).append_left _).trans List.perm_middle
  · rw [outside]
    simp
  · refine sound.doing.frame ?_ ?_ ?_
    · intro other mine
      refine Shared.call_undisturbed sound.kept ran (sound.hand_held mine) ?_
      intro len same
      rw [(TransportEvent.consumedStore.inj same).1] at member
      exact sound.releasing_apart member (List.mem_append_left _ mine) rfl
    · exact (Shared.return_frame ran).2.1 ▸ List.prefix_rfl
    · rw [outside]
      exact fun locked => absurd locked Bool.false_ne_true

/-- The index of the used ring moves for a release. -/
theorem releasePublish_sound (small : bits ≤ 15) (sound : Sound bits pool r) {next : Receiver}
    (taken : r.step .releasePublish = some next) : Sound bits pool next := by
  obtain ⟨theirs, later⟩ := Option.ite_none_right_eq_some.mp taken
  obtain ⟨shared, ran, rfl⟩ := Option.map_eq_some_iff.mp later
  have outside : r.rx.locked = false := by
    rw [Bool.eq_false_iff, ne_eq, sound.owner, theirs]
    decide
  refine sound.quiet small ran rfl rfl rfl (fun _ => Shared.publish_stands ran) ?_ (by simp) ?_
  · rw [outside]
    simp
  · refine sound.doing.frame ?_ ?_ ?_
    · intro flight mine
      exact Shared.call_undisturbed sound.kept ran (sound.hand_held mine) (by simp)
    · exact (Shared.quiet_frame rfl ran).2.1 ▸ List.prefix_rfl
    · rw [outside]
      exact fun locked => absurd locked Bool.false_ne_true

/-- Every event keeps the receiver in order. -/
theorem step_sound (small : bits ≤ 15) (r : Receiver) (event : ReceiverEvent) (next : Receiver)
    (sound : Sound bits pool r) (taken : r.step event = some next) : Sound bits pool next := by
  cases event with
  | master event =>
    obtain ⟨ofMaster, moved⟩ := Option.ite_none_right_eq_some.mp taken
    obtain ⟨shared, ran, rfl⟩ := Option.map_eq_some_iff.mp moved
    have other : ∀ flight len, event ≠ .consumedStore flight len := by
      rintro flight len rfl
      cases ofMaster
    have kept := Shared.step_kept small _ _ _ sound.kept ran
    obtain ⟨held, record, standing, more, posted⟩ := Shared.master_frame ofMaster ran
    refine ⟨kept, sound.sized.call kept ran (fun flight len same => absurd same (other flight len)),
      sound.tracks, fun unlocked => standing.trans (sound.free unlocked), sound.owner,
      fun theirs => standing.trans (sound.releaser theirs), held ▸ sound.hands, ?_, ?_, ?_,
      record ▸ sound.count, sound.next, sound.order_frame posted, sound.found⟩
    · refine sound.doing.frame ?_ (record ▸ List.prefix_rfl) (fun _ => ⟨standing, held⟩)
      intro flight mine
      exact Shared.call_undisturbed sound.kept ran (sound.hand_held mine) (other flight)
    · refine sound.holding_frame ?_
      intro pair member
      exact Shared.call_undisturbed sound.kept ran (sound.holding_held member) (other _)
    · refine sound.releasing_frame (fun _ member => member) ?_
      intro flight member
      exact Shared.call_undisturbed sound.kept ran (sound.releasing_held member) (other _)
  | masterWrite buf value =>
    obtain ⟨shared, ran, rfl⟩ := Option.map_eq_some_iff.mp taken
    have kept := Shared.step_kept small _ _ _ sound.kept ran
    have undisturbed := fun flight (holds : flight ∈ r.shared.transport.held) =>
      Shared.masterWrite_undisturbed sound.kept ran holds
    have holding := sound.holding_frame (fun pair member =>
      undisturbed _ (sound.holding_held member))
    have releasing := sound.releasing_frame (fun _ member => member) (fun flight member =>
      undisturbed _ (sound.releasing_held member))
    obtain ⟨_, result⟩ := Option.ite_none_right_eq_some.mp ran
    obtain rfl := Option.some.inj result
    exact ⟨kept, ⟨sound.sized.owned, sound.sized.offered, sound.sized.consumed⟩, sound.tracks,
      sound.free, sound.owner, sound.releaser, sound.hands,
      sound.doing.frame (fun flight mine => undisturbed flight (sound.hand_held mine))
        List.prefix_rfl (fun _ => ⟨rfl, rfl⟩),
      holding, releasing, sound.count, sound.next, sound.order, sound.found⟩
  | notified => exact notified_sound small sound taken
  | advance => exact advance_sound small sound taken
  | hold => exact hold_sound small sound taken
  | release buffer serial => exact release_sound small sound taken
  | releaseStore flight => exact releaseStore_sound small sound taken
  | releasePublish => exact releasePublish_sound small sound taken
  | registry event =>
    obtain ⟨_, moved⟩ := Option.ite_none_right_eq_some.mp taken
    obtain ⟨registry, ran, rfl⟩ := Option.map_eq_some_iff.mp moved
    exact ⟨sound.kept, sound.sized, Registry.step_tracks _ _ _ sound.tracks ran, sound.free,
      sound.owner, sound.releaser, sound.hands, sound.doing, sound.holding, sound.releasing,
      sound.count, sound.next, sound.order, sound.found⟩

/-- The receiver can go on while it has the lock or nobody has it, up to a second return. -/
theorem Sound.goes_on (small : bits ≤ 15) (sound : Sound bits pool r) (busy : r.rx ≠ .idle)
    (once : ∀ buffer serial, r.rx ≠ .twice buffer serial)
    (turn : r.lock = none ∨ r.lock = some .receiver) : ∃ next, r.advance = some next := by
  have unlocked : r.rx.locked = false → r.lock = none := by
    intro outside
    refine turn.resolve_right ?_
    rw [← sound.owner, outside]
    exact Bool.false_ne_true
  have doing := sound.doing
  unfold advance
  cases standing : r.rx with
  | idle => exact absurd standing busy
  | taking =>
    rw [standing] at doing
    obtain ⟨u, moved, _⟩ := Transport.availableTake_spec small sound.kept.inv doing
    obtain ⟨shared, ran⟩ := Shared.call_enabled rfl (Transport.step_slave rfl moved)
    have kept := Shared.step_kept small _ _ _ sound.kept ran
    obtain ⟨buffer, record, _⟩ := Shared.take_frame sound.kept kept ran
    have found : shared.transport.taken[r.shared.transport.taken.length]? = some buffer := by
      rw [record, List.getElem?_concat_length]
    simp only [ran, found, Option.bind_eq_bind, Option.bind_some]
    exact ⟨_, rfl⟩
  | marking buffer serial =>
    rw [standing] at doing
    obtain ⟨shared, ran⟩ := Shared.write_enabled doing.has.holds
      { r.shared.memory buffer.buffer with reserved := buffer.availIdx }
    simp only [ran, Option.bind_eq_bind, Option.bind_some]
    exact ⟨_, rfl⟩
  | looking buffer serial =>
    have free := unlocked (by rw [standing]; rfl)
    simp only [free, if_true]
    split
    · exact ⟨_, rfl⟩
    · exact ⟨_, rfl⟩
  | binding buffer serial endpoints ept => exact ⟨_, rfl⟩
  | calling buffer serial ept held =>
    have free := unlocked (by rw [standing]; rfl)
    simp only [free, if_true]
    split
    · exact ⟨_, rfl⟩
    · exact ⟨_, rfl⟩
  | settling buffer serial held =>
    have free := unlocked (by rw [standing]; rfl)
    simp only [free, if_true]
    split
    · exact ⟨_, rfl⟩
    · split
      · rename_i holds
        obtain ⟨u, moved, _⟩ := Transport.consumedStore_spec small sound.kept.inv
          ⟨buffer.availIdx, serial⟩ buffer.len (sound.free free) holds
        obtain ⟨shared, ran⟩ := Shared.call_enabled rfl (Transport.step_slave rfl moved)
        simp only [ran, Option.map_some]
        exact ⟨_, rfl⟩
      · exact ⟨_, rfl⟩
  | publishing =>
    rw [standing] at doing
    obtain ⟨shared, ran⟩ := Shared.call_enabled rfl
      (show r.shared.transport.slaveStep .consumedPublish = _ from if_pos doing)
    simp only [ran, Option.map_some]
    exact ⟨_, rfl⟩
  | polling =>
    rw [standing] at doing
    obtain ⟨shared, ran⟩ := Shared.call_enabled rfl
      (show r.shared.transport.slaveStep .availablePoll = _ from if_pos doing)
    simp only [ran, Option.map_some]
    exact ⟨_, rfl⟩
  | kicking =>
    rw [standing] at doing
    obtain ⟨shared, ran⟩ := Shared.call_enabled rfl
      (show r.shared.transport.slaveStep .slaveKick = _ from if_pos doing)
    simp only [ran, Option.map_some]
    exact ⟨_, rfl⟩
  | twice buffer serial => exact absurd standing (once buffer serial)

/-- A release can go on as soon as it gets the lock. -/
theorem Sound.release_goes_on (small : bits ≤ 15) (sound : Sound bits pool r) :
    (r.lock = none → ∀ flight ∈ r.releasing, ∃ next, r.step (.releaseStore flight) = some next) ∧
      (r.lock = some .releaser → ∃ next, r.step .releasePublish = some next) := by
  constructor
  · intro free flight member
    obtain ⟨u, moved, _⟩ := Transport.consumedStore_spec small sound.kept.inv flight
      (virtqueueGetBufferLength r.shared.transport.ring flight.head) (sound.free free)
      (sound.releasing_held member)
    obtain ⟨shared, ran⟩ := Shared.call_enabled rfl (Transport.step_slave rfl moved)
    simp only [step, free, member, and_self, if_true, ran, Option.map_some]
    exact ⟨_, rfl⟩
  · intro theirs
    obtain ⟨shared, ran⟩ := Shared.call_enabled rfl
      (show r.shared.transport.slaveStep .consumedPublish = _ from if_pos (sound.releaser theirs))
    simp only [step, theirs, if_true, ran, Option.map_some]
    exact ⟨_, rfl⟩

/-! ## Releases that wait

Where a release returns its buffer only after the receiver has looked at the mark, the
receiver returns nothing twice, and can come to handle everything that was posted. -/

/-- A release waits with the return of its buffer until the receiver has looked at the
mark. -/
def patient (r : Receiver) : ReceiverEvent → Bool
  | .releaseStore flight => flight ∉ r.rx.given
  | _ => true

/-- The buffer whose mark the receiver has not looked at was not returned, and nothing is
about to be returned a second time. -/
structure InTime (r : Receiver) : Prop where
  given : ∀ flight ∈ r.rx.given, flight ∈ r.shared.transport.held
  once : ∀ buffer serial, r.rx ≠ .twice buffer serial

/-- The receiver finds the mark of a buffer that was held. -/
theorem settling_inTime (sound : Sound bits pool r) (inTime : InTime r) {next : Receiver}
    {buffer : AvailableBuffer} {serial : Nat} {held : Bool}
    (standing : r.rx = .settling buffer serial held)
    (taken : r.advance = some next) : InTime next := by
  have here : (⟨buffer.availIdx, serial⟩ : Flight) ∈ r.shared.transport.held := by
    cases held with
    | false => exact sound.hand_held (by rw [standing]; exact List.mem_singleton_self _)
    | true => exact inTime.given _ (by rw [standing]; exact List.mem_singleton_self _)
  simp only [advance, standing, here, if_true] at taken
  obtain ⟨_, later⟩ := Option.ite_none_right_eq_some.mp taken
  split at later
  · obtain rfl := Option.some.inj later
    exact ⟨by simp [RxAt.given], by simp⟩
  · obtain ⟨shared, _, rfl⟩ := Option.map_eq_some_iff.mp later
    exact ⟨by simp [RxAt.given], by simp⟩

/-- No step of the receiver takes it out of time. -/
theorem advance_inTime (sound : Sound bits pool r) (inTime : InTime r) {next : Receiver}
    (taken : r.advance = some next) : InTime next := by
  cases standing : r.rx with
  | settling buffer serial held => exact settling_inTime sound inTime standing taken
  | calling buffer serial ept held =>
    have given : (RxAt.settling buffer serial held).given = r.rx.given := by
      rw [standing]
      cases held <;> rfl
    simp only [advance, standing] at taken
    split at taken
    · obtain ⟨_, result⟩ := Option.ite_none_right_eq_some.mp taken
      obtain rfl := Option.some.inj result
      exact ⟨fun flight member => inTime.given flight (given ▸ member), by simp⟩
    · obtain rfl := Option.some.inj taken
      exact ⟨fun flight member => inTime.given flight (given ▸ member), by simp⟩
  | looking buffer serial =>
    simp only [advance, standing] at taken
    obtain ⟨_, later⟩ := Option.ite_none_right_eq_some.mp taken
    split at later
    · obtain rfl := Option.some.inj later
      exact ⟨by simp [RxAt.given], by simp⟩
    · obtain rfl := Option.some.inj later
      exact ⟨by simp [RxAt.given], by simp⟩
  | binding buffer serial endpoints ept =>
    simp only [advance, standing] at taken
    obtain rfl := Option.some.inj taken
    exact ⟨by simp [RxAt.given], by simp⟩
  | taking =>
    simp only [advance, standing] at taken
    obtain ⟨_, _, rest⟩ := Option.bind_eq_some_iff.mp taken
    obtain ⟨_, _, result⟩ := Option.bind_eq_some_iff.mp rest
    obtain rfl := Option.some.inj result
    exact ⟨by simp [RxAt.given], by simp⟩
  | marking buffer serial =>
    simp only [advance, standing] at taken
    obtain ⟨_, _, result⟩ := Option.bind_eq_some_iff.mp taken
    obtain rfl := Option.some.inj result
    exact ⟨by simp [RxAt.given], by simp⟩
  | polling =>
    simp only [advance, standing] at taken
    obtain ⟨shared, _, rfl⟩ := Option.map_eq_some_iff.mp taken
    by_cases found : shared.transport.slaveAt = .taking
    · simp only [found, if_true]
      exact ⟨by simp [RxAt.given], by simp⟩
    · simp only [found, if_false]
      exact ⟨by simp [RxAt.given], by simp⟩
  | publishing | kicking =>
    simp only [advance, standing] at taken
    obtain ⟨_, _, rfl⟩ := Option.map_eq_some_iff.mp taken
    exact ⟨by simp [RxAt.given], by simp⟩
  | idle | twice buffer serial =>
    simp only [advance, standing] at taken
    cases taken

/-- As long as the releases wait, the receiver stays in time. -/
theorem step_inTime (sound : Sound bits pool r) (inTime : InTime r) {event : ReceiverEvent}
    {next : Receiver} (waits : patient r event = true) (taken : r.step event = some next) :
    InTime next := by
  cases event with
  | master event =>
    obtain ⟨ofMaster, moved⟩ := Option.ite_none_right_eq_some.mp taken
    obtain ⟨shared, ran, rfl⟩ := Option.map_eq_some_iff.mp moved
    have held := (Shared.master_frame ofMaster ran).1
    exact ⟨fun flight member => held ▸ inTime.given flight member, inTime.once⟩
  | masterWrite buf value =>
    obtain ⟨shared, ran, rfl⟩ := Option.map_eq_some_iff.mp taken
    obtain ⟨_, result⟩ := Option.ite_none_right_eq_some.mp ran
    obtain rfl := Option.some.inj result
    exact ⟨inTime.given, inTime.once⟩
  | notified =>
    obtain ⟨⟨standing, _⟩, later⟩ := Option.ite_none_right_eq_some.mp taken
    obtain ⟨shared, _, rfl⟩ := Option.map_eq_some_iff.mp later
    split
    · exact ⟨by simp [RxAt.given], by simp⟩
    · exact ⟨by simp [standing, RxAt.given], inTime.once⟩
  | advance => exact advance_inTime sound inTime taken
  | hold =>
    cases standing : r.rx with
    | calling buffer serial ept held =>
      simp only [step, standing] at taken
      obtain ⟨_, later⟩ := Option.ite_none_left_eq_some.mp taken
      obtain ⟨shared, ran, rfl⟩ := Option.map_eq_some_iff.mp later
      obtain ⟨holds, _⟩ := Option.ite_none_right_eq_some.mp ran
      refine ⟨?_, by simp⟩
      intro flight member
      rw [List.mem_singleton.mp member]
      change _ ∈ shared.transport.held
      rw [(Shared.slaveWrite_value ran).1]
      exact holds
    | _ => simp [step, standing] at taken
  | release buffer serial =>
    obtain ⟨_, result⟩ := Option.ite_none_right_eq_some.mp taken
    obtain rfl := Option.some.inj result
    exact ⟨inTime.given, inTime.once⟩
  | releaseStore flight =>
    obtain ⟨_, later⟩ := Option.ite_none_right_eq_some.mp taken
    obtain ⟨shared, ran, rfl⟩ := Option.map_eq_some_iff.mp later
    have away : flight ∉ r.rx.given := of_decide_eq_true waits
    refine ⟨?_, inTime.once⟩
    intro other member
    change other ∈ shared.transport.held
    rw [(Shared.return_frame ran).1]
    refine (List.mem_erase_of_ne ?_).mpr (inTime.given other member)
    rintro rfl
    exact away member
  | releasePublish =>
    obtain ⟨_, later⟩ := Option.ite_none_right_eq_some.mp taken
    obtain ⟨shared, ran, rfl⟩ := Option.map_eq_some_iff.mp later
    have held := (Shared.quiet_frame rfl ran).1
    exact ⟨fun flight member => held ▸ inTime.given flight member, inTime.once⟩
  | registry event =>
    obtain ⟨_, moved⟩ := Option.ite_none_right_eq_some.mp taken
    obtain ⟨registry, _, rfl⟩ := Option.map_eq_some_iff.mp moved
    exact ⟨inTime.given, inTime.once⟩

end Steps

/-! ## Getting on

With each of its steps the receiver takes one more message or comes closer to being done
with the one it has. -/

/-- How many steps the receiver is from the place where it takes the next message, or from
being done. -/
def distance : RxAt → Nat
  | .marking _ _ => 11
  | .looking _ _ => 10
  | .binding _ _ _ _ => 9
  | .calling _ _ _ _ => 8
  | .settling _ _ _ => 7
  | .publishing => 6
  | .polling => 5
  | .kicking => 4
  | .idle => 3
  | .taking => 2
  | .twice _ _ => 0

/-- What is left of the messages that the master has posted, in steps of the receiver. -/
def left (r : Receiver) : Nat :=
  10 * (r.shared.transport.offered.length - r.shared.transport.taken.length) + distance r.rx

/-- A step of the receiver brings it closer and leaves the master. -/
structure Closer (r next : Receiver) : Prop where
  sooner : left next < left r
  posted : next.shared.posted = r.shared.posted
  masterAt : next.shared.transport.masterAt = r.shared.transport.masterAt
  turn : next.lock ≠ some .releaser

section Steps

variable {bits : Nat} {pool : List VirtqueueBuf} {r : Receiver} {v : Shared RpmsgBuf}

/-- A step that does not touch the memory or the vring. -/
theorem Closer.aside {rx : RxAt} {lock : Option RxLock} {registry : Registry}
    {holding : List (AvailableBuffer × Nat)} {handled : List Handled}
    (nearer : distance rx < distance r.rx) (turn : lock ≠ some .releaser) :
    Closer r { r with
      rx := rx, lock := lock, registry := registry, holding := holding, handled := handled } :=
  ⟨Nat.add_lt_add_left nearer _, rfl, rfl, turn⟩

/-- A call of the receiver that takes no message. -/
theorem Closer.call {event : TransportEvent} {rx : RxAt} {lock : Option RxLock}
    (ran : r.shared.step (.call event) = some v) (ofSlave : event.ofMaster = false)
    (taken : v.transport.taken = r.shared.transport.taken)
    (nearer : distance rx < distance r.rx) (turn : lock ≠ some .releaser) :
    Closer r { r with shared := v, rx := rx, lock := lock } := by
  obtain ⟨offered, masterAt, posted⟩ := Shared.slave_frame ofSlave ran
  refine ⟨?_, posted, masterAt, turn⟩
  change 10 * (v.transport.offered.length - v.transport.taken.length) + distance rx < left r
  rw [offered, taken]
  exact Nat.add_lt_add_left nearer _

/-- So does a write to the buffer. -/
theorem Closer.write {flight : Flight} {value : RpmsgBuf} {rx : RxAt}
    (ran : r.shared.step (.slaveWrite flight value) = some v)
    (nearer : distance rx < distance r.rx) (turn : r.lock ≠ some .releaser) :
    Closer r { r with shared := v, rx := rx } := by
  obtain ⟨_, result⟩ := Option.ite_none_right_eq_some.mp ran
  obtain rfl := Option.some.inj result
  exact ⟨Nat.add_lt_add_left nearer _, rfl, rfl, turn⟩

/-- One message less is left. -/
theorem taking_closer (small : bits ≤ 15) (sound : Sound bits pool r) {next : Receiver}
    (standing : r.rx = .taking) (taken : r.advance = some next) : Closer r next := by
  have visible := sound.kept.inv.counted.taking (sound.doing_at standing)
  simp only [advance, standing] at taken
  obtain ⟨shared, ran, rest⟩ := Option.bind_eq_some_iff.mp taken
  obtain ⟨buffer, _, result⟩ := Option.bind_eq_some_iff.mp rest
  obtain rfl := Option.some.inj result
  obtain ⟨_, record, _⟩ :=
    Shared.take_frame sound.kept (Shared.step_kept small _ _ _ sound.kept ran) ran
  obtain ⟨offered, masterAt, posted⟩ := Shared.slave_frame rfl ran
  refine ⟨?_, posted, masterAt, by simp⟩
  change 10 * (shared.transport.offered.length - shared.transport.taken.length) + 11 < left r
  rw [left, standing, offered, record, List.length_append, List.length_singleton, distance]
  omega

/-- Every step of the receiver brings it closer. -/
theorem advance_closer (small : bits ≤ 15) (sound : Sound bits pool r) (inTime : InTime r)
    (turn : r.lock ≠ some .releaser) {next : Receiver} (taken : r.advance = some next) :
    Closer r next := by
  have later := advance_inTime sound inTime taken
  cases standing : r.rx with
  | taking => exact taking_closer small sound standing taken
  | marking buffer serial =>
    simp only [advance, standing] at taken
    obtain ⟨shared, ran, result⟩ := Option.bind_eq_some_iff.mp taken
    obtain rfl := Option.some.inj result
    exact Closer.write ran (by rw [standing]; exact Nat.lt_succ_self 10) turn
  | looking buffer serial =>
    simp only [advance, standing] at taken
    obtain ⟨_, result⟩ := Option.ite_none_right_eq_some.mp taken
    split at result
    · obtain rfl := Option.some.inj result
      exact Closer.aside (by rw [standing]; exact Nat.lt_succ_self 9) turn
    · obtain rfl := Option.some.inj result
      exact Closer.aside (by rw [standing, distance, distance]; omega) turn
  | binding buffer serial endpoints ept =>
    simp only [advance, standing] at taken
    obtain rfl := Option.some.inj taken
    exact Closer.aside (by rw [standing]; exact Nat.lt_succ_self 8) turn
  | calling buffer serial ept held =>
    simp only [advance, standing] at taken
    split at taken
    · obtain ⟨_, result⟩ := Option.ite_none_right_eq_some.mp taken
      obtain rfl := Option.some.inj result
      exact Closer.aside (by rw [standing]; exact Nat.lt_succ_self 7) turn
    · obtain rfl := Option.some.inj taken
      exact Closer.aside (by rw [standing]; exact Nat.lt_succ_self 7) turn
  | settling buffer serial held =>
    simp only [advance, standing] at taken
    obtain ⟨_, rest⟩ := Option.ite_none_right_eq_some.mp taken
    split at rest
    · obtain rfl := Option.some.inj rest
      exact Closer.aside (by rw [standing, distance, distance]; omega) (by simp)
    · split at rest
      · obtain ⟨shared, ran, rfl⟩ := Option.map_eq_some_iff.mp rest
        exact Closer.call ran rfl (Shared.return_frame ran).2.1
          (by rw [standing, distance, distance]; omega) (by simp)
      · obtain rfl := Option.some.inj rest
        exact absurd rfl (later.once buffer serial)
  | publishing =>
    simp only [advance, standing] at taken
    obtain ⟨shared, ran, rfl⟩ := Option.map_eq_some_iff.mp taken
    exact Closer.call ran rfl (Shared.quiet_frame rfl ran).2.1 (by rw [standing]; decide) turn
  | polling =>
    simp only [advance, standing] at taken
    obtain ⟨shared, ran, rfl⟩ := Option.map_eq_some_iff.mp taken
    refine Closer.call ran rfl (Shared.quiet_frame rfl ran).2.1 ?_ turn
    rw [standing]
    split <;> decide
  | kicking =>
    simp only [advance, standing] at taken
    obtain ⟨shared, ran, rfl⟩ := Option.map_eq_some_iff.mp taken
    exact Closer.call ran rfl (Shared.quiet_frame rfl ran).2.1 (by rw [standing]; decide)
      (by simp)
  | idle | twice buffer serial =>
    simp only [advance, standing] at taken
    cases taken

/-- A receiver that is done finds a message that is visible. -/
theorem notified_closer (small : bits ≤ 15) (sound : Sound bits pool r) (idle : r.rx = .idle)
    (unlocked : r.lock = none) (visible : r.shared.transport.masterAt ≠ .publishing)
    (more : r.shared.transport.taken.length < r.shared.transport.offered.length) :
    ∃ next, r.step .notified = some next ∧ Closer r next := by
  have none_hidden : r.shared.transport.unpublished = 0 := by
    rw [Transport.unpublished, if_neg visible]
  have found := (sound.kept.inv.hasAvailable_iff small).mpr (by omega)
  have polled : r.shared.transport.slaveStep .availablePoll =
      some { r.shared.transport with slaveAt := .taking } := by
    change (if r.shared.transport.slaveAt = .idle then _ else _) = _
    rw [if_pos (sound.free unlocked), found, if_pos rfl]
  obtain ⟨shared, ran⟩ := Shared.call_enabled rfl polled
  have standing : shared.transport.slaveAt = .taking := by
    obtain ⟨_, u, moved, rfl⟩ := Shared.step_call_iff.mp ran
    rw [Shared.record_transport,
      ← Option.some.inj (polled.symm.trans (Transport.step_slave rfl moved))]
  refine ⟨{ r with shared := shared, lock := some .receiver, rx := .taking }, ?_, ?_⟩
  · simp only [step, idle, unlocked, and_self, if_true, ran, Option.map_some, standing]
  · exact Closer.call ran rfl (Shared.quiet_frame rfl ran).2.1 (by rw [idle]; decide) (by simp)

/-- A receiver that is in time can come to handle everything that is visible. The induction
is on what is left. -/
theorem Sound.handles (small : bits ≤ 15) (steps : Nat) (sound : Sound bits pool r)
    (inTime : InTime r) (turn : r.lock ≠ some .releaser)
    (visible : r.shared.transport.masterAt ≠ .publishing) (bound : r.left ≤ steps) :
    ∃ more q, run step r more = some q ∧ Sound bits pool q ∧
      q.shared.posted = r.shared.posted ∧ q.handled.length = q.shared.posted.length := by
  induction steps generalizing r with
  | zero =>
    have near : distance r.rx = 0 := by
      rw [left] at bound
      omega
    cases standing : r.rx with
    | twice buffer serial => exact absurd standing (inTime.once buffer serial)
    | _ =>
      rw [standing] at near
      cases near
  | succ steps ih =>
    have onwards : ∀ event next, patient r event = true → r.step event = some next →
        Closer r next → ∃ more q, run step r more = some q ∧ Sound bits pool q ∧
          q.shared.posted = r.shared.posted ∧ q.handled.length = q.shared.posted.length := by
      intro event next waits taken closer
      have further := closer.sooner
      obtain ⟨more, q, ran, after, posted, all⟩ := ih (step_sound small r event next sound taken)
        (step_inTime sound inTime waits taken) closer.turn (closer.masterAt ▸ visible)
        (by omega)
      exact ⟨event :: more, q, (run_cons_iff _ _ _ _ _).mpr ⟨next, taken, ran⟩, after,
        posted.trans closer.posted, all⟩
    by_cases idle : r.rx = .idle
    · have unlocked : r.lock = none := by
        cases held : r.lock with
        | none => rfl
        | some who =>
          cases who with
          | releaser => exact absurd held turn
          | receiver =>
            have locked := sound.owner.mpr held
            rw [idle] at locked
            cases locked
      by_cases more : r.shared.transport.taken.length < r.shared.transport.offered.length
      · obtain ⟨next, taken, closer⟩ :=
          notified_closer small sound idle unlocked visible more
        exact onwards .notified next rfl taken closer
      · have count := sound.count
        have order := sound.kept.inv.counted.takenVisible
        rw [idle] at count
        change r.handled.length + 0 = _ at count
        refine ⟨[], r, rfl, sound, rfl, ?_⟩
        rw [sound.kept.postedAll]
        omega
    · have mayGo : r.lock = none ∨ r.lock = some .receiver := by
        cases held : r.lock with
        | none => exact Or.inl rfl
        | some who =>
          cases who with
          | releaser => exact absurd held turn
          | receiver => exact Or.inr rfl
      obtain ⟨next, taken⟩ := sound.goes_on small idle inTime.once mayGo
      exact onwards .advance next rfl taken (advance_closer small sound inTime turn taken)

/-- A receiver that is in time can come to handle everything that was posted: a release
that is before the move of the used index moves it, and so does the master with the
available index. -/
theorem Sound.catches_up (small : bits ≤ 15) (sound : Sound bits pool r) (inTime : InTime r) :
    ∃ more q, run step r more = some q ∧ q.shared.posted = r.shared.posted ∧
      q.handled.map (·.message) = r.shared.posted.map RpmsgBuf.message := by
  obtain ⟨first, u, unlocking, after, still, same, turn⟩ : ∃ first u, run step r first = some u ∧
      Sound bits pool u ∧ InTime u ∧ u.shared.posted = r.shared.posted ∧
        u.lock ≠ some .releaser := by
    by_cases theirs : r.lock = some .releaser
    · obtain ⟨u, taken⟩ := (sound.release_goes_on small).2 theirs
      refine ⟨[.releasePublish], u, (run_cons_iff _ _ _ _ _).mpr ⟨u, taken, rfl⟩,
        step_sound small r _ u sound taken, step_inTime sound inTime rfl taken, ?_⟩
      obtain ⟨_, later⟩ := Option.ite_none_right_eq_some.mp taken
      obtain ⟨shared, ran, rfl⟩ := Option.map_eq_some_iff.mp later
      exact ⟨(Shared.quiet_frame rfl ran).2.2, by simp⟩
    · exact ⟨[], r, rfl, sound, inTime, rfl, theirs⟩
  obtain ⟨second, w, publishing, done, kept, unchanged, free, visible⟩ : ∃ second w,
      run step u second = some w ∧ Sound bits pool w ∧ InTime w ∧
        w.shared.posted = u.shared.posted ∧ w.lock ≠ some .releaser ∧
          w.shared.transport.masterAt ≠ .publishing := by
    by_cases before : u.shared.transport.masterAt = .publishing
    · obtain ⟨shared, ran, idle, posted⟩ := Shared.addPublish_enabled before
      have taken : u.step (.master .addPublish) = some { u with shared := shared } := by
        simp only [step, TransportEvent.ofMaster, if_true, ran, Option.map_some]
      refine ⟨[.master .addPublish], _, (run_cons_iff _ _ _ _ _).mpr ⟨_, taken, rfl⟩,
        step_sound small u _ _ after taken, step_inTime after still rfl taken, posted, turn, ?_⟩
      change shared.transport.masterAt ≠ .publishing
      rw [idle]
      exact MasterAt.noConfusion
    · exact ⟨[], u, rfl, after, still, rfl, turn, before⟩
  obtain ⟨third, q, handling, final, posted, all⟩ :=
    done.handles small w.left kept free visible le_rfl
  refine ⟨first ++ (second ++ third), q, run_append step _ _ _ _ _ unlocking
    (run_append step _ _ _ _ _ publishing handling), posted.trans (unchanged.trans same), ?_⟩
  rw [final.order, all, ← List.length_map (f := RpmsgBuf.message), List.take_length, posted,
    unchanged, same]

/-- What is returned a second time was returned before. -/
theorem Sound.twice_returned (sound : Sound bits pool r) {buffer : AvailableBuffer}
    {serial : Nat} (again : r.rx = .twice buffer serial) :
    serial ∈ r.shared.transport.consumed.map (·.flight.serial) := by
  obtain ⟨found, away⟩ := sound.doing_at again
  have inside := (List.getElem?_eq_some_iff.mp found).1
  have listed := sound.kept.inv.stored.serials.mem_iff.mpr (List.mem_range.mpr inside)
  refine (List.mem_append.mp listed).resolve_right ?_
  intro held
  obtain ⟨flight, holds, rfl⟩ := List.mem_map.mp held
  have somewhere := sound.hands.mem_iff.mp holds
  rw [again] at somewhere
  rcases List.mem_append.mp somewhere with holding | released
  · obtain ⟨pair, member, rfl⟩ := List.mem_map.mp holding
    have own := (sound.holding pair member).intact.has.found
    obtain rfl : buffer = pair.1 := Option.some.inj (found.symm.trans own)
    exact away holds
  · obtain ⟨other, own, marked⟩ := sound.releasing flight released
    obtain rfl : buffer = other := Option.some.inj (found.symm.trans marked.intact.has.found)
    exact away (own ▸ holds)

end Steps

/-! ## Every run -/

section Runs

variable (bits features : Nat) (masterIo slaveIo : ShmIo) (pool : List VirtqueueBuf)
  (memory : Nat → RpmsgBuf) (supportNs : Bool)

/-- The device starts in order. -/
theorem initial_sound
    (apart : ((pool.map (·.buf)).map
      (fun buf => slaveIo.physToVirt (masterIo.virtToPhys buf))).Nodup)
    (full : ∀ buf ∈ pool, buf.len = rpmsgBufferSize) :
    Sound bits pool (initial bits features masterIo slaveIo pool memory supportNs) where
  kept := Shared.initial_kept bits features masterIo slaveIo pool memory apart
  sized := ⟨full, fun _ member => absurd member List.not_mem_nil,
    fun _ member => absurd member List.not_mem_nil⟩
  tracks := initial_tracks supportNs
  free := fun _ => rfl
  owner := iff_of_false Bool.false_ne_true (Option.some_ne_none _).symm
  releaser := fun theirs => absurd theirs (Option.some_ne_none _).symm
  hands := List.Perm.refl _
  doing := trivial
  holding := fun _ member => absurd member List.not_mem_nil
  releasing := fun _ member => absurd member List.not_mem_nil
  count := rfl
  next := fun waiting => absurd waiting Nat.zero_ne_one
  order := rfl
  found := fun _ member => absurd member List.not_mem_nil

variable (events : List ReceiverEvent) (r : Receiver)

/-- Every run keeps the receiver in order. -/
theorem run_sound (small : bits ≤ 15)
    (apart : ((pool.map (·.buf)).map
      (fun buf => slaveIo.physToVirt (masterIo.virtToPhys buf))).Nodup)
    (full : ∀ buf ∈ pool, buf.len = rpmsgBufferSize)
    (ran : run step (initial bits features masterIo slaveIo pool memory supportNs) events =
      some r) : Sound bits pool r :=
  invariant_run step (fun _ _ => True) (Sound bits pool)
    (fun state event next sound _ taken => step_sound small state event next sound taken)
    _ r events (initial_sound bits features masterIo slaveIo pool memory supportNs apart full)
    (along_of_forall _ _ _ _ (fun _ _ _ => trivial)) ran

/-- A run in which every release waits keeps the receiver in time. -/
theorem run_inTime (small : bits ≤ 15)
    (apart : ((pool.map (·.buf)).map
      (fun buf => slaveIo.physToVirt (masterIo.virtToPhys buf))).Nodup)
    (full : ∀ buf ∈ pool, buf.len = rpmsgBufferSize)
    (waits : Along step (fun state event => patient state event = true)
      (initial bits features masterIo slaveIo pool memory supportNs) events)
    (ran : run step (initial bits features masterIo slaveIo pool memory supportNs) events =
      some r) : InTime r := by
  have both := invariant_run step (fun state event => patient state event = true)
    (fun state => Sound bits pool state ∧ InTime state)
    (fun state event next holds admitted taken =>
      ⟨step_sound small state event next holds.1 taken,
        step_inTime holds.1 holds.2 admitted taken⟩)
    _ r events
    ⟨initial_sound bits features masterIo slaveIo pool memory supportNs apart full,
      ⟨fun _ member => absurd member List.not_mem_nil, fun _ _ => RxAt.noConfusion⟩⟩ waits ran
  exact both.2

/-- Whatever endpoints come and go, whatever callbacks hold and whenever it is released,
the messages are handled in the order in which the master posted them, each once and as
it was posted, and all that were taken are handled when the receiver is done; and each is
handed to the first endpoint that had its destination when it was looked up, or to none
if there was none. Where every release waits until the receiver has looked at the mark of
its buffer, the receiver can come to handle everything that was posted. -/
theorem received_in_order (small : bits ≤ 15)
    (apart : ((pool.map (·.buf)).map
      (fun buf => slaveIo.physToVirt (masterIo.virtToPhys buf))).Nodup)
    (full : ∀ buf ∈ pool, buf.len = rpmsgBufferSize)
    (ran : run step (initial bits features masterIo slaveIo pool memory supportNs) events =
      some r) :
    r.handled.map (·.message) =
        (r.shared.posted.map RpmsgBuf.message).take r.handled.length ∧
      r.handled.length ≤ r.shared.transport.taken.length ∧
      (r.rx = .idle → r.handled.length = r.shared.transport.taken.length) ∧
      (∀ entry ∈ r.handled, entry.ept =
        entry.endpoints.find? (fun other => decide (other.addr = entry.message.dst))) ∧
      (Along step (fun state event => patient state event = true)
          (initial bits features masterIo slaveIo pool memory supportNs) events →
        ∃ more q, run step r more = some q ∧ q.shared.posted = r.shared.posted ∧
          q.handled.map (·.message) = r.shared.posted.map RpmsgBuf.message) := by
  have sound := run_sound bits features masterIo slaveIo pool memory supportNs events r small
    apart full ran
  have count := sound.count
  refine ⟨sound.order, by omega, ?_, sound.found, ?_⟩
  · intro idle
    rw [idle] at count
    exact count
  · intro waits
    exact sound.catches_up small (run_inTime bits features masterIo slaveIo pool memory supportNs
      events r small apart full waits ran)

/-- Two messages come in for an endpoint that is created first. Its callback holds the
first one, which is released after the second was returned. -/
def heldBack : List ReceiverEvent :=
  [.registry (.create 1 [65] addrAny 7),
    .masterWrite 4096 ⟨7, 1024, 0, 2, 0, [1, 2]⟩,
    .master (.addStore ⟨[⟨4096, 512⟩], 1, 4096⟩), .master .addPublish,
    .masterWrite 8192 ⟨7, 1024, 0, 1, 0, [3]⟩,
    .master (.addStore ⟨[⟨8192, 512⟩], 1, 8192⟩), .master .addPublish,
    .notified, .advance, .advance, .advance, .advance, .hold, .advance, .advance,
    .advance, .advance, .advance, .advance, .advance, .advance, .advance, .advance, .advance,
    .advance, .release ⟨4096, 0, 512⟩ 0, .releaseStore ⟨0, 0⟩, .releasePublish]

/-- A buffer is held back and the next message is handled meanwhile. -/
theorem received_in_order_sample :
    ∃ r, run step (initial 1 0 ⟨id, id⟩ ⟨id, id⟩ [⟨4096, 512⟩, ⟨8192, 512⟩] Sender.blank true)
        heldBack = some r ∧
      r.handled.map (·.message) = [⟨7, 1024, 2, [1, 2]⟩, ⟨7, 1024, 1, [3]⟩] ∧
      r.handled.map (·.message) =
        (r.shared.posted.map RpmsgBuf.message).take r.handled.length ∧
      ∃ more q, run step r more = some q ∧ q.shared.posted = r.shared.posted ∧
        q.handled.map (·.message) = r.shared.posted.map RpmsgBuf.message := by
  have all := received_in_order 1 0 ⟨id, id⟩ ⟨id, id⟩ [⟨4096, 512⟩, ⟨8192, 512⟩] Sender.blank true
    heldBack
    ((run step (initial 1 0 ⟨id, id⟩ ⟨id, id⟩ [⟨4096, 512⟩, ⟨8192, 512⟩] Sender.blank true)
      heldBack).get (by decide)) (by decide) (by decide) (by decide) (Option.some_get _).symm
  exact ⟨_, (Option.some_get _).symm, by decide, all.1, all.2.2.2.2 (by decide)⟩

/-- No receive buffer is lost: each that was taken and not returned is in the receiver's
hands, held by a callback, or being released, and in one of them only. Each was returned
at most once, up to the place where the receiver is about to return one that was held,
released and returned before it looked; and it gets there in no run in which every release
waits until it has looked. A message that is held stays as it was posted, and its release
finds the index of its own buffer. Once the receiver is done and everything held was
released, everything was returned, and every buffer has its full size. -/
theorem receive_buffers_accounted (small : bits ≤ 15)
    (apart : ((pool.map (·.buf)).map
      (fun buf => slaveIo.physToVirt (masterIo.virtToPhys buf))).Nodup)
    (full : ∀ buf ∈ pool, buf.len = rpmsgBufferSize)
    (ran : run step (initial bits features masterIo slaveIo pool memory supportNs) events =
      some r) :
    r.shared.transport.held.Perm (r.rx.hand ++ r.holding.map flightOf ++ r.releasing) ∧
      r.shared.transport.held.Nodup ∧
      (r.shared.transport.consumed.map (·.flight.serial)).Nodup ∧
      (∀ buffer serial, r.rx = .twice buffer serial →
        serial ∈ r.shared.transport.consumed.map (·.flight.serial)) ∧
      (Along step (fun state event => patient state event = true)
          (initial bits features masterIo slaveIo pool memory supportNs) events →
        ∀ buffer serial, r.rx ≠ .twice buffer serial) ∧
      (∀ pair ∈ r.holding,
        (r.shared.posted[pair.2]?).map RpmsgBuf.message =
            some (r.shared.memory pair.1.buffer).message ∧
          u16 ((r.shared.memory pair.1.buffer).reserved &&& bufHeldMask) = pair.1.availIdx) ∧
      (r.rx = .idle → r.holding = [] → r.releasing = [] →
        r.shared.transport.consumed.length = r.shared.transport.taken.length) ∧
      ∀ entry ∈ r.shared.transport.consumed, entry.len = rpmsgBufferSize := by
  have sound := run_sound bits features masterIo slaveIo pool memory supportNs events r small
    apart full ran
  have serials := sound.kept.inv.stored.serials.nodup_iff.mpr List.nodup_range
  rw [List.nodup_append] at serials
  refine ⟨sound.hands, List.Nodup.of_map _ sound.kept.held_nodup, serials.1,
    fun _ _ => sound.twice_returned, ?_, ?_, ?_, sound.sized.consumed⟩
  · intro waits
    exact (run_inTime bits features masterIo slaveIo pool memory supportNs events r small apart
      full waits ran).once
  · intro pair member
    obtain ⟨intact, reserved⟩ := sound.holding pair member
    refine ⟨intact.message, ?_⟩
    rw [reserved, held_masked (intact.idx_lt small sound.kept)]
    exact sound.kept.idx_small small intact.has
  · intro idle nothingHeld nothingReleasing
    have total := sound.kept.inv.stored.serials.length_eq
    have hands := sound.hands.length_eq
    rw [idle, nothingHeld, nothingReleasing] at hands
    change r.shared.transport.held.length = 0 at hands
    rw [List.length_append, List.length_map, List.length_map, List.length_range] at total
    omega

/-- The buffer held back is returned second. -/
theorem receive_buffers_accounted_sample :
    ∃ r, run step (initial 1 0 ⟨id, id⟩ ⟨id, id⟩ [⟨4096, 512⟩, ⟨8192, 512⟩] Sender.blank true)
        heldBack = some r ∧
      r.shared.transport.consumed.map (·.flight) = [⟨1, 1⟩, ⟨0, 0⟩] ∧
      r.shared.transport.held.Perm (r.rx.hand ++ r.holding.map flightOf ++ r.releasing) ∧
      ∀ buffer serial, r.rx ≠ .twice buffer serial := by
  have all := receive_buffers_accounted 1 0 ⟨id, id⟩ ⟨id, id⟩ [⟨4096, 512⟩, ⟨8192, 512⟩]
    Sender.blank true heldBack
    ((run step (initial 1 0 ⟨id, id⟩ ⟨id, id⟩ [⟨4096, 512⟩, ⟨8192, 512⟩] Sender.blank true)
      heldBack).get (by decide)) (by decide) (by decide) (by decide) (Option.some_get _).symm
  exact ⟨_, (Option.some_get _).symm, by decide, all.1, all.2.2.2.2.1 (by decide)⟩

/-- The callback holds its buffer, and a task releases it before the receiver looks at the
mark. The other side takes the buffer back and writes a new header into it. -/
def releasedEarly : List ReceiverEvent :=
  heldBack.take 4 ++
    [.notified, .advance, .advance, .advance, .advance, .hold, .release ⟨4096, 0, 512⟩ 0,
      .releaseStore ⟨0, 0⟩, .releasePublish, .master .getPoll, .master .getTake,
      .masterWrite 4096 ⟨7, 1024, 0, 1, 0, [3]⟩, .advance, .advance]

/-- The receiver is about to return the buffer once more. -/
example :
    ∃ r, run step (initial 1 0 ⟨id, id⟩ ⟨id, id⟩ [⟨4096, 512⟩, ⟨8192, 512⟩] Sender.blank true)
        releasedEarly = some r ∧
      r.rx = .twice ⟨4096, 0, 512⟩ 0 ∧ r.shared.transport.consumed.map (·.flight) = [⟨0, 0⟩] :=
  ⟨(run step (initial 1 0 ⟨id, id⟩ ⟨id, id⟩ [⟨4096, 512⟩, ⟨8192, 512⟩] Sender.blank true)
      releasedEarly).get (by decide), (Option.some_get _).symm, by decide, by decide⟩

/-- Nothing in the receiver gets stuck, up to a second return: whoever has the lock can go
on, and while nobody has it the receiver and every release can. Where every release waits
until the receiver has looked at the mark, there is no second return. -/
theorem receiver_goes_on (small : bits ≤ 15)
    (apart : ((pool.map (·.buf)).map
      (fun buf => slaveIo.physToVirt (masterIo.virtToPhys buf))).Nodup)
    (full : ∀ buf ∈ pool, buf.len = rpmsgBufferSize)
    (ran : run step (initial bits features masterIo slaveIo pool memory supportNs) events =
      some r) :
    (r.rx ≠ .idle → (∀ buffer serial, r.rx ≠ .twice buffer serial) →
        r.lock = none ∨ r.lock = some .receiver → (r.step .advance).isSome) ∧
      (Along step (fun state event => patient state event = true)
          (initial bits features masterIo slaveIo pool memory supportNs) events →
        ∀ buffer serial, r.rx ≠ .twice buffer serial) ∧
      (r.lock = some .receiver → r.rx ≠ .idle) ∧
      (∀ pair ∈ r.holding, (r.step (.release pair.1 pair.2)).isSome) ∧
      (r.lock = none → ∀ flight ∈ r.releasing, (r.step (.releaseStore flight)).isSome) ∧
      (r.lock = some .releaser → (r.step .releasePublish).isSome) := by
  have sound := run_sound bits features masterIo slaveIo pool memory supportNs events r small
    apart full ran
  obtain ⟨stores, publishes⟩ := sound.release_goes_on small
  refine ⟨?_, ?_, ?_, ?_, ?_, ?_⟩
  · intro busy once turn
    exact Option.isSome_iff_exists.mpr (sound.goes_on small busy once turn)
  · intro waits
    exact (run_inTime bits features masterIo slaveIo pool memory supportNs events r small apart
      full waits ran).once
  · intro mine idle
    have locked := sound.owner.mpr mine
    rw [idle] at locked
    cases locked
  · intro pair member
    rw [step, if_pos member]
    rfl
  · intro free flight member
    exact Option.isSome_iff_exists.mpr (stores free flight member)
  · intro theirs
    exact Option.isSome_iff_exists.mpr (publishes theirs)

/-- A receiver in the middle of a message can go on. -/
theorem receiver_goes_on_sample :
    ∃ r, run step (initial 1 0 ⟨id, id⟩ ⟨id, id⟩ [⟨4096, 512⟩, ⟨8192, 512⟩] Sender.blank true)
        (heldBack.take 16) = some r ∧
      r.rx ≠ .idle ∧ (r.step .advance).isSome := by
  have all := receiver_goes_on 1 0 ⟨id, id⟩ ⟨id, id⟩ [⟨4096, 512⟩, ⟨8192, 512⟩] Sender.blank true
    (heldBack.take 16)
    ((run step (initial 1 0 ⟨id, id⟩ ⟨id, id⟩ [⟨4096, 512⟩, ⟨8192, 512⟩] Sender.blank true)
      (heldBack.take 16)).get (by decide)) (by decide) (by decide) (by decide)
    (Option.some_get _).symm
  exact ⟨_, (Option.some_get _).symm, by decide,
    all.1 (by decide) (all.2.1 (by decide)) (by decide)⟩

end Runs

end Receiver

end Stm32Ecu.Rpmsg
