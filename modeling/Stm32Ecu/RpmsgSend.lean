import Stm32Ecu.RpmsgDevice
import Stm32Ecu.VringMemory

/-!
# Sending a message

`rpmsg_send_offchannel_raw` on the slave, over the vring it sends on. A send takes a
buffer of the master under the lock, fills it with the lock released, and returns it
under the lock; several tasks may be at it at once. Between taking and returning, the
index of the buffer is nowhere but in the `reserved` word of the buffer itself, in
memory that the other processor reaches.

The master hands the buffers it got back out again with the length it got them back
with, so a buffer that came back shorter would stay short.
-/

namespace Stm32Ecu.Rpmsg

open Runs Virtio

/-- `sizeof(struct rpmsg_hdr)`. -/
def hdrSize : Nat := 16

/-- `RPMSG_BUFFER_SIZE`. -/
def rpmsgBufferSize : Nat := 512

/-- `RPMSG_TICK_COUNT / RPMSG_TICKS_PER_INTERVAL`. -/
def tickCount : Nat := 15000000 / 1000

/-- A buffer: `struct rpmsg_hdr`, and the bytes behind it. -/
structure RpmsgBuf where
  src : Nat
  dst : Nat
  reserved : Nat
  len : Nat
  flags : Nat
  data : List UInt8
deriving DecidableEq

/-- What a receiver makes of a buffer: the addresses, the length in the header, and as many
bytes. -/
structure Message where
  src : Nat
  dst : Nat
  len : Nat
  data : List UInt8
deriving DecidableEq

/-- The message in a buffer. -/
def RpmsgBuf.message (buf : RpmsgBuf) : Message :=
  ⟨buf.src, buf.dst, buf.len, buf.data.take buf.len⟩

/-- The arguments of `rpmsg_send_offchannel_raw`. -/
structure SendRequest where
  src : Nat
  dst : Nat
  data : List UInt8
  wait : Bool
deriving DecidableEq

/-- The message that a request comes to: what does not fit a buffer is cut off. -/
def SendRequest.message (request : SendRequest) : Message :=
  ⟨request.src, request.dst, min request.data.length (rpmsgBufferSize - hdrSize),
    request.data.take (rpmsgBufferSize - hdrSize)⟩

/-- Where a task stands in a send. A buffer in its hands comes with the number of its
offer, which the task does not see. -/
inductive SendAt where
  | idle
  | trying (request : SendRequest) (ticks : Nat)
  | taking (request : SendRequest)
  | marking (request : SendRequest) (buffer : AvailableBuffer) (serial : Nat)
  | copying (request : SendRequest) (buffer : AvailableBuffer) (serial : Nat)
  | framing (request : SendRequest) (buffer : AvailableBuffer) (serial : Nat) (len : Nat)
  | enqueuing (request : SendRequest) (idx : Nat) (serial : Nat) (len : Nat)
  | publishing (request : SendRequest) (len : Nat)
  | kicking (request : SendRequest) (len : Nat)
  | returning (request : SendRequest) (len : Nat)
deriving DecidableEq

/-- A send that returned, with the number of bytes sent or the error. -/
structure SendResult where
  task : Nat
  request : SendRequest
  result : Except RpmsgStatus Nat
deriving DecidableEq

/-- The vring with its buffers, `rdev->lock`, the tasks, the requests whose buffer was
returned with the task that did it, and the sends that returned. -/
structure Sender where
  shared : Shared RpmsgBuf
  lock : Option Nat
  tasks : Nat → SendAt
  sent : List (Nat × SendRequest)
  results : List SendResult

/-- A step of the master, the start of a send, or the next step of one. -/
inductive SenderEvent where
  | master (event : TransportEvent)
  | masterWrite (buf : Nat) (value : RpmsgBuf)
  | start (task : Nat) (request : SendRequest) (driverOk : Bool)
  | advance (task : Nat)
deriving DecidableEq

namespace Sender

/-- The device as `rpmsg_init_vdev` leaves it, with "tx-complete" interrupts suppressed. -/
def initial (bits features : Nat) (masterIo slaveIo : ShmIo) (pool : List VirtqueueBuf)
    (memory : Nat → RpmsgBuf) : Sender :=
  let start := Shared.initial bits features masterIo slaveIo pool memory
  let quiet := virtqueueDisableCb start.transport.slave start.transport.ring
  { shared := { start with transport := { start.transport with ring := quiet } }
    lock := none
    tasks := fun _ => .idle
    sent := []
    results := [] }

/-- A send returns. -/
def finish (s : Sender) (task : Nat) (request : SendRequest) (result : Except RpmsgStatus Nat) :
    Sender :=
  { s with
    tasks := Function.update s.tasks task .idle
    results := s.results ++ [⟨task, request, result⟩] }

/-- The checks before a buffer is looked for. -/
def begin (s : Sender) (task : Nat) (request : SendRequest) (driverOk : Bool) : Sender :=
  if request.dst = addrAny then s.finish task request (.error .errParam)
  else if driverOk then
    let ticks := if request.wait then tickCount else 0
    { s with tasks := Function.update s.tasks task (.trying request ticks) }
  else s.finish task request (.error .errNoBuff)

/-- A task goes on with the buffers in a new state. -/
def goOn (s : Sender) (task : Nat) (next : SendAt) (shared : Shared RpmsgBuf) : Sender :=
  { s with shared := shared, tasks := Function.update s.tasks task next }

/-- The next step of a task. A task that needs the lock waits until it is free. -/
def advance (s : Sender) (task : Nat) : Option Sender :=
  match s.tasks task with
  | .idle => none
  | .trying request ticks =>
      if s.lock = none then do
        let shared ← s.shared.step (.call .availablePoll)
        if shared.transport.slaveAt = .taking then
          pure { s.goOn task (.taking request) shared with lock := some task }
        else if ticks = 0 then
          pure ({ s with shared := shared }.finish task request (.error .errNoBuff))
        else pure (s.goOn task (.trying request (ticks - 1)) shared)
      else none
  | .taking request => do
      let serial := s.shared.transport.taken.length
      let shared ← s.shared.step (.call .availableTake)
      let buffer ← shared.transport.taken[serial]?
      pure { s.goOn task (.marking request buffer serial) shared with lock := none }
  | .marking request buffer serial => do
      let old := s.shared.memory buffer.buffer
      let shared ← s.shared.step
        (.slaveWrite ⟨buffer.availIdx, serial⟩ { old with reserved := buffer.availIdx })
      pure (s.goOn task (.copying request buffer serial) shared)
  | .copying request buffer serial =>
      -- otherwise the length of the payload wraps
      if hdrSize ≤ buffer.len then do
        let old := s.shared.memory buffer.buffer
        let len := min request.data.length (buffer.len - hdrSize)
        let shared ← s.shared.step (.slaveWrite ⟨buffer.availIdx, serial⟩
          { old with data := request.data.take len ++ old.data.drop len })
        pure (s.goOn task (.framing request buffer serial len) shared)
      else none
  | .framing request buffer serial len => do
      let old := s.shared.memory buffer.buffer
      let idx := u16 old.reserved
      let shared ← s.shared.step (.slaveWrite ⟨buffer.availIdx, serial⟩
        ⟨request.src, request.dst, 0, u16 len, 0, old.data⟩)
      pure (s.goOn task (.enqueuing request idx serial len) shared)
  | .enqueuing request idx serial len =>
      if s.lock = none then do
        let buffLen := virtqueueGetBufferLength s.shared.transport.ring idx
        let shared ← s.shared.step (.call (.consumedStore ⟨idx, serial⟩ buffLen))
        pure { s.goOn task (.publishing request len) shared with
          lock := some task, sent := s.sent ++ [(task, request)] }
      else none
  | .publishing request len => do
      let shared ← s.shared.step (.call .consumedPublish)
      pure (s.goOn task (.kicking request len) shared)
  | .kicking request len => do
      let shared ← s.shared.step (.call .slaveKick)
      pure { s.goOn task (.returning request len) shared with lock := none }
  -- the lock is free again, so others may return before this one
  | .returning request len => some (s.finish task request (.ok len))

/-- One event. -/
def step (s : Sender) : SenderEvent → Option Sender
  | .master event =>
      if event.ofMaster then
        (s.shared.step (.call event)).map (fun shared => { s with shared := shared })
      else none
  | .masterWrite buf value =>
      (s.shared.step (.masterWrite buf value)).map (fun shared => { s with shared := shared })
  | .start task request driverOk =>
      if s.tasks task = .idle then some (s.begin task request driverOk) else none
  | .advance task => s.advance task

/-! ## What holds of a task

Only the task that has a buffer in its hands writes to it, so what it wrote is still
there when it goes on. -/

/-- The bytes of a request that fit a buffer. -/
def fitting (request : SendRequest) : Nat :=
  min request.data.length (rpmsgBufferSize - hdrSize)

end Sender

/-- The number of the offer whose buffer a task has in its hands. -/
def SendAt.serial? : SendAt → Option Nat
  | .marking _ _ serial => some serial
  | .copying _ _ serial => some serial
  | .framing _ _ serial _ => some serial
  | .enqueuing _ _ serial _ => some serial
  | _ => none

/-- Whether the next step of a task takes the lock. -/
def SendAt.acquires : SendAt → Bool
  | .trying _ _ => true
  | .enqueuing _ _ _ _ => true
  | _ => false

/-- Whether a task has the lock. -/
def SendAt.locked : SendAt → Bool
  | .taking _ => true
  | .publishing _ _ => true
  | .kicking _ _ => true
  | _ => false

/-- The request of a task whose buffer was returned and whose send has not returned. -/
def SendAt.returned : SendAt → List SendRequest
  | .publishing request _ => [request]
  | .kicking request _ => [request]
  | .returning request _ => [request]
  | _ => []

namespace Sender

/-- What a task that stands somewhere in a send can rely on. -/
def Doing (s : Shared RpmsgBuf) : SendAt → Prop
  | .idle => True
  | .trying _ _ => True
  | .taking _ => s.transport.slaveAt = .taking
  | .marking _ buffer serial => s.transport.Has buffer serial
  | .copying _ buffer serial =>
      s.transport.Has buffer serial ∧
        (s.memory buffer.buffer).reserved = buffer.availIdx
  | .framing request buffer serial len =>
      s.transport.Has buffer serial ∧
        (s.memory buffer.buffer).reserved = buffer.availIdx ∧ len = fitting request ∧
        (s.memory buffer.buffer).data.take len = request.data.take len
  | .enqueuing request idx serial len =>
      len = fitting request ∧
        ∃ buffer, s.transport.Has buffer serial ∧ idx = buffer.availIdx ∧
          (s.memory buffer.buffer).message = request.message
  | .publishing request len => s.transport.slaveAt = .publishing ∧ len = fitting request
  | .kicking request len => s.transport.slaveAt = .idle ∧ len = fitting request
  | .returning request len => len = fitting request

section Tasks

variable {s v : Shared RpmsgBuf} {place : SendAt}

/-- It can rely on it as long as nothing happens to the buffer in its hands. -/
theorem Doing.frame (doing : Doing s place)
    (same : ∀ flight ∈ s.transport.held, place.serial? = some flight.serial →
      Shared.Undisturbed s v flight)
    (standing : place.locked = true → v.transport.slaveAt = s.transport.slaveAt) :
    Doing v place := by
  have keeps : ∀ buffer serial, place.serial? = some serial → s.transport.Has buffer serial →
      v.transport.Has buffer serial ∧ v.memory buffer.buffer = s.memory buffer.buffer :=
    fun buffer serial mine has => (same _ has.holds mine).has has
  cases place with
  | idle => trivial
  | trying request ticks => trivial
  | taking request => exact (standing rfl).trans doing
  | marking request buffer serial => exact (keeps buffer serial rfl doing).1
  | copying request buffer serial =>
    obtain ⟨has, marked⟩ := doing
    obtain ⟨still, contents⟩ := keeps buffer serial rfl has
    exact ⟨still, contents ▸ marked⟩
  | framing request buffer serial len =>
    obtain ⟨has, marked, fits, copied⟩ := doing
    obtain ⟨still, contents⟩ := keeps buffer serial rfl has
    exact ⟨still, contents ▸ marked, fits, contents ▸ copied⟩
  | enqueuing request idx serial len =>
    obtain ⟨fits, buffer, has, mine, framed⟩ := doing
    obtain ⟨still, contents⟩ := keeps buffer serial rfl has
    exact ⟨fits, buffer, still, mine, contents ▸ framed⟩
  | publishing request len => exact ⟨(standing rfl).trans doing.1, doing.2⟩
  | kicking request len => exact ⟨(standing rfl).trans doing.1, doing.2⟩
  | returning request len => exact doing

/-- The buffer in its hands was taken. -/
theorem Doing.serial_lt (doing : Doing s place) {serial : Nat}
    (mine : place.serial? = some serial) : serial < s.transport.taken.length := by
  obtain ⟨buffer, found⟩ : ∃ buffer, s.transport.taken[serial]? = some buffer := by
    cases place with
    | marking request buffer serial =>
      obtain rfl := Option.some.inj mine
      exact ⟨buffer, doing.found⟩
    | copying request buffer serial =>
      obtain rfl := Option.some.inj mine
      exact ⟨buffer, doing.1.found⟩
    | framing request buffer serial len =>
      obtain rfl := Option.some.inj mine
      exact ⟨buffer, doing.1.found⟩
    | enqueuing request idx serial len =>
      obtain rfl := Option.some.inj mine
      obtain ⟨_, buffer, has, _⟩ := doing
      exact ⟨buffer, has.found⟩
    | _ => cases mine
  exact (List.getElem?_eq_some_iff.mp found).1

/-- A call disturbs no task that does not have the lock, unless it returns the buffer in
the task's hands. -/
theorem Doing.call {bits : Nat} {pool : List VirtqueueBuf} (doing : Doing s place)
    (kept : Shared.Kept bits pool s) {event : TransportEvent}
    (ran : s.step (.call event) = some v)
    (other : ∀ flight len, event = .consumedStore flight len →
      place.serial? ≠ some flight.serial)
    (standing : place.locked = true → v.transport.slaveAt = s.transport.slaveAt) :
    Doing v place := by
  refine doing.frame ?_ standing
  intro flight holds mine
  refine Shared.call_undisturbed kept ran holds ?_
  intro len returned
  exact other flight len returned mine

end Tasks

/-! ## The invariant -/

/-- The requests of a task whose sends have returned with success, in that order. -/
def succeeded (results : List SendResult) (task : Nat) : List SendRequest :=
  (results.filter (fun entry => entry.task = task)).filterMap (fun entry =>
    match entry.result with
    | .ok _ => some entry.request
    | .error _ => none)

/-- The requests of a task whose buffers were returned, in that order. -/
def sentBy (s : Sender) (task : Nat) : List SendRequest :=
  (s.sent.filter (fun entry => entry.1 = task)).map (·.2)

/-- Every task finds what it relies on, no two have one buffer, what was returned is what
was asked for, and of each task the buffers returned are those of its sends that returned
with success and of the one that is about to. -/
structure Sound (bits : Nat) (pool : List VirtqueueBuf) (s : Sender) : Prop where
  kept : Shared.Kept bits pool s.shared
  sized : Shared.Sized rpmsgBufferSize s.shared
  free : s.lock = none → s.shared.transport.slaveAt = .idle
  owner : ∀ task, (s.tasks task).locked = true ↔ s.lock = some task
  apart : ∀ first second serial, (s.tasks first).serial? = some serial →
    (s.tasks second).serial? = some serial → first = second
  doing : ∀ task, Doing s.shared (s.tasks task)
  order : s.shared.returned.map RpmsgBuf.message = s.sent.map (·.2.message)
  done : ∀ task, s.sentBy task = succeeded s.results task ++ (s.tasks task).returned
  lengths : ∀ entry ∈ s.results, ∀ len, entry.result = .ok len → len = fitting entry.request

section Steps

variable {bits : Nat} {pool : List VirtqueueBuf} {s r : Sender}

/-- A task goes on and the others stay where they are. -/
theorem Sound.moved (sound : Sound bits pool s) {task : Nat} {place : SendAt}
    (tasks : r.tasks = Function.update s.tasks task place)
    (kept : Shared.Kept bits pool r.shared) (sized : Shared.Sized rpmsgBufferSize r.shared)
    (free : r.lock = none → r.shared.transport.slaveAt = .idle)
    (stays : ∀ other ≠ task, s.lock = some other ↔ r.lock = some other)
    (locks : place.locked = true ↔ r.lock = some task)
    (takes : ∀ serial, place.serial? = some serial →
      ∀ other ≠ task, (s.tasks other).serial? ≠ some serial)
    (others : ∀ other ≠ task, Doing r.shared (s.tasks other))
    (own : Doing r.shared place)
    (order : r.shared.returned.map RpmsgBuf.message = r.sent.map (·.2.message))
    (done : r.sentBy task = succeeded r.results task ++ place.returned)
    (elsewhere : ∀ other ≠ task,
      r.sentBy other = s.sentBy other ∧ succeeded r.results other = succeeded s.results other)
    (lengths : ∀ entry ∈ r.results, ∀ len, entry.result = .ok len →
      len = fitting entry.request) : Sound bits pool r := by
  refine ⟨kept, sized, free, ?_, ?_, ?_, order, ?_, lengths⟩
  · intro other
    rw [tasks]
    by_cases mine : other = task
    · subst mine
      rw [Function.update_self]
      exact locks
    · rw [Function.update_of_ne mine]
      exact (sound.owner other).trans (stays other mine)
  · intro first second serial one two
    rw [tasks] at one two
    by_cases mineOne : first = task <;> by_cases mineTwo : second = task
    · rw [mineOne, mineTwo]
    · subst mineOne
      rw [Function.update_self] at one
      rw [Function.update_of_ne mineTwo] at two
      exact absurd two (takes serial one second mineTwo)
    · subst mineTwo
      rw [Function.update_self] at two
      rw [Function.update_of_ne mineOne] at one
      exact absurd one (takes serial two first mineOne)
    · rw [Function.update_of_ne mineOne] at one
      rw [Function.update_of_ne mineTwo] at two
      exact sound.apart first second serial one two
  · intro other
    rw [tasks]
    by_cases mine : other = task
    · subst mine
      rw [Function.update_self]
      exact own
    · rw [Function.update_of_ne mine]
      exact others other mine
  · intro other
    rw [tasks]
    by_cases mine : other = task
    · subst mine
      rw [Function.update_self]
      exact done
    · obtain ⟨sent, results⟩ := elsewhere other mine
      rw [Function.update_of_ne mine, sent, results]
      exact sound.done other

/-- What a task that stands at a place can rely on. -/
theorem Sound.doing_at (sound : Sound bits pool s) {task : Nat} {place : SendAt}
    (standing : s.tasks task = place) : Doing s.shared place :=
  standing ▸ sound.doing task

/-- While a task that is about to take the lock finds it free, nobody stands behind it. -/
theorem Sound.nobody_locked (sound : Sound bits pool s) (unlocked : s.lock = none) (task : Nat) :
    (s.tasks task).locked = false := by
  rw [Bool.eq_false_iff]
  intro locked
  rw [(sound.owner task).mp locked] at unlocked
  cases unlocked

/-- While one task has the lock, no other one stands behind it. -/
theorem Sound.other_unlocked (sound : Sound bits pool s) {task other : Nat}
    (locked : s.lock = some task) (different : other ≠ task) :
    (s.tasks other).locked = false := by
  rw [Bool.eq_false_iff]
  intro both
  rw [(sound.owner other).mp both] at locked
  exact different (Option.some.inj locked)

/-- A write of a task to the buffer in its hands. -/
theorem Sound.wrote (small : bits ≤ 15) (sound : Sound bits pool s) {task : Nat}
    {flight : Flight} {value : RpmsgBuf} {shared : Shared RpmsgBuf} {place : SendAt}
    (ran : s.shared.step (.slaveWrite flight value) = some shared)
    (mine : (s.tasks task).serial? = some flight.serial)
    (still : place.serial? = some flight.serial)
    (own : Doing shared place) : Sound bits pool (s.goOn task place shared) := by
  have kept := Shared.step_kept small _ _ _ sound.kept ran
  have unlocked : place.locked = false := by cases place <;> first | rfl | cases still
  have outside : s.lock ≠ some task := by
    rw [ne_eq, ← sound.owner task]
    cases standing : s.tasks task <;> rw [standing] at mine <;>
      first | exact Bool.false_ne_true | cases mine
  have before : (s.tasks task).returned = [] := by
    cases standing : s.tasks task <;> rw [standing] at mine <;> first | rfl | cases mine
  have after : place.returned = [] := by cases place <;> first | rfl | cases still
  obtain ⟨holds, result⟩ := Option.ite_none_right_eq_some.mp ran
  obtain rfl := Option.some.inj result
  refine sound.moved rfl kept ⟨sound.sized.owned, sound.sized.offered, sound.sized.consumed⟩
    sound.free (fun _ _ => Iff.rfl) ?_ ?_ ?_ own sound.order ?_ (fun _ _ => ⟨rfl, rfl⟩)
    sound.lengths
  · rw [unlocked]
    exact iff_of_false Bool.false_ne_true outside
  · intro serial has other different also
    rw [still] at has
    exact different (sound.apart other task _ also (mine.trans has))
  · intro other different
    refine (sound.doing other).frame ?_ (fun _ => rfl)
    intro third holds also
    refine Shared.slaveWrite_undisturbed sound.kept ran holds ?_
    intro same
    exact different (sound.apart other task _ also (same ▸ mine))
  · have done := sound.done task
    rw [before] at done
    rw [after]
    exact done

/-- A call of a task that returns no buffer, made under the lock. -/
theorem Sound.called (small : bits ≤ 15) (sound : Sound bits pool s) {task : Nat}
    {event : TransportEvent} {shared : Shared RpmsgBuf} {place : SendAt} {lock : Option Nat}
    {results : List SendResult} (ran : s.shared.step (.call event) = some shared)
    (other : ∀ flight len, event ≠ .consumedStore flight len)
    (mayLock : s.lock = none ∨ s.lock = some task)
    (free : lock = none → shared.transport.slaveAt = .idle)
    (locks : place.locked = true ↔ lock = some task)
    (mine : ∀ other, lock = some other → other = task)
    (takes : ∀ serial, place.serial? = some serial →
      ∀ other ≠ task, (s.tasks other).serial? ≠ some serial)
    (own : Doing shared place)
    (done : s.sentBy task = succeeded results task ++ place.returned)
    (elsewhere : ∀ other ≠ task, succeeded results other = succeeded s.results other)
    (lengths : ∀ entry ∈ results, ∀ len, entry.result = .ok len →
      len = fitting entry.request) :
    Sound bits pool { s with
      shared := shared, lock := lock, results := results,
      tasks := Function.update s.tasks task place } := by
  have kept := Shared.step_kept small _ _ _ sound.kept ran
  have sized := sound.sized.call kept ran (fun flight len same => absurd same (other flight len))
  have returned : shared.returned = s.shared.returned := by
    obtain ⟨_, u, _, rfl⟩ := Shared.step_call_iff.mp ran
    exact Shared.record_returned u other
  have alone : ∀ other ≠ task, (s.tasks other).locked = false := by
    intro other different
    rcases mayLock with unlocked | held
    · exact sound.nobody_locked unlocked other
    · exact sound.other_unlocked held different
  refine sound.moved rfl kept sized free ?_ locks takes ?_ own ?_ done
    (fun third different => ⟨rfl, elsewhere third different⟩) lengths
  · intro other different
    refine iff_of_false ?_ (fun locked => different (mine other locked))
    rcases mayLock with unlocked | held
    · rw [unlocked]
      exact (Option.some_ne_none other).symm
    · rw [held]
      exact fun same => different (Option.some.inj same).symm
  · intro third different
    refine (sound.doing third).call sound.kept ran
      (fun flight len same => absurd same (other flight len)) ?_
    intro locked
    rw [alone third different] at locked
    cases locked
  · rw [returned]
    exact sound.order

/-- What a task that stands at a place got its buffers returned for. -/
theorem Sound.done_at (sound : Sound bits pool s) {task : Nat} {place : SendAt}
    (standing : s.tasks task = place) :
    s.sentBy task = succeeded s.results task ++ place.returned :=
  standing ▸ sound.done task

/-- A success is one of its task. -/
theorem succeeded_ok (results : List SendResult) (task : Nat) (request : SendRequest)
    (len : Nat) :
    succeeded (results ++ [⟨task, request, .ok len⟩]) task =
      succeeded results task ++ [request] := by
  simp [succeeded]

/-- A failure is no success. -/
theorem succeeded_error (results : List SendResult) (task : Nat) (request : SendRequest)
    (status : RpmsgStatus) (other : Nat) :
    succeeded (results ++ [⟨task, request, .error status⟩]) other = succeeded results other := by
  by_cases same : task = other <;> simp [succeeded, same]

/-- What one task gets back is nothing to the others. -/
theorem succeeded_other (results : List SendResult) (task : Nat) (request : SendRequest)
    (result : Except RpmsgStatus Nat) {other : Nat} (different : other ≠ task) :
    succeeded (results ++ [⟨task, request, result⟩]) other = succeeded results other := by
  simp [succeeded, different.symm]

/-- A send that returned something true leaves the lengths true. -/
theorem lengths_append {results : List SendResult}
    (lengths : ∀ entry ∈ results, ∀ len, entry.result = .ok len → len = fitting entry.request)
    {new : SendResult} (right : ∀ len, new.result = .ok len → len = fitting new.request) :
    ∀ entry ∈ results ++ [new], ∀ len, entry.result = .ok len → len = fitting entry.request := by
  intro entry member
  rcases List.mem_append.mp member with old | last
  · exact lengths entry old
  · rw [List.mem_singleton.mp last]
    exact right

/-- The look for a buffer, which may be the last. -/
theorem trying_sound (small : bits ≤ 15) (sound : Sound bits pool s) {task : Nat}
    {request : SendRequest} {ticks : Nat} (standing : s.tasks task = .trying request ticks)
    (taken : s.advance task = some r) : Sound bits pool r := by
  have done := sound.done_at standing
  simp only [advance, standing] at taken
  obtain ⟨unlocked, rest⟩ := Option.ite_none_right_eq_some.mp taken
  obtain ⟨shared, ran, result⟩ := Option.bind_eq_some_iff.mp rest
  by_cases found : shared.transport.slaveAt = .taking
  · rw [if_pos found] at result
    obtain rfl := Option.some.inj result
    exact sound.called small ran (by simp) (Or.inl unlocked) (by simp) (by simp [SendAt.locked])
      (by simp [eq_comm]) (by simp [SendAt.serial?]) found done (fun _ _ => rfl) sound.lengths
  · have idle := (Shared.poll_stands ran).resolve_left found
    rw [if_neg found] at result
    by_cases last : ticks = 0
    · rw [if_pos last] at result
      obtain rfl := Option.some.inj result
      refine sound.called small ran (by simp) (Or.inl unlocked) (fun _ => idle)
        (by simp [SendAt.locked, unlocked]) (by simp [unlocked]) (by simp [SendAt.serial?])
        trivial ?_ (fun other _ => succeeded_error _ _ _ _ other)
        (lengths_append sound.lengths (by simp))
      rw [succeeded_error]
      exact done
    · rw [if_neg last] at result
      obtain rfl := Option.some.inj result
      exact sound.called small ran (by simp) (Or.inl unlocked) (fun _ => idle)
        (by simp [SendAt.locked, unlocked]) (by simp [unlocked]) (by simp [SendAt.serial?])
        trivial done (fun _ _ => rfl) sound.lengths

/-- A buffer comes into the hands of a task. -/
theorem taking_sound (small : bits ≤ 15) (sound : Sound bits pool s) {task : Nat}
    {request : SendRequest} (standing : s.tasks task = .taking request)
    (taken : s.advance task = some r) : Sound bits pool r := by
  have mine : s.lock = some task := (sound.owner task).mp (by rw [standing]; rfl)
  have done := sound.done_at standing
  simp only [advance, standing] at taken
  obtain ⟨shared, ran, rest⟩ := Option.bind_eq_some_iff.mp taken
  obtain ⟨buffer, found, result⟩ := Option.bind_eq_some_iff.mp rest
  obtain rfl := Option.some.inj result
  have kept := Shared.step_kept small _ _ _ sound.kept ran
  obtain ⟨other, record, held, idle, _, _⟩ := Shared.take_frame sound.kept kept ran
  obtain rfl : other = buffer := by
    rw [record, List.getElem?_concat_length] at found
    exact Option.some.inj found
  refine sound.called small ran (by simp) (Or.inr mine) (fun _ => idle)
    (by simp [SendAt.locked]) (by simp) ?_ ⟨?_, found⟩ done (fun _ _ => rfl) sound.lengths
  · intro serial new third _ also
    have earlier := (sound.doing third).serial_lt also
    obtain rfl := Option.some.inj new
    omega
  · change _ ∈ shared.transport.held
    rw [held]
    exact List.mem_append_right _ (List.mem_singleton_self _)

/-- The index goes into the buffer. -/
theorem marking_sound (small : bits ≤ 15) (sound : Sound bits pool s) {task : Nat}
    {request : SendRequest} {buffer : AvailableBuffer} {serial : Nat}
    (standing : s.tasks task = .marking request buffer serial)
    (taken : s.advance task = some r) : Sound bits pool r := by
  have has : s.shared.transport.Has buffer serial := sound.doing_at standing
  simp only [advance, standing] at taken
  obtain ⟨shared, ran, result⟩ := Option.bind_eq_some_iff.mp taken
  obtain rfl := Option.some.inj result
  obtain ⟨same, value⟩ := Shared.slaveWrite_value ran
  rw [has.handed] at value
  refine sound.wrote small ran (by rw [standing]; rfl) rfl ⟨same ▸ has, ?_⟩
  rw [value]

/-- The payload goes into the buffer. -/
theorem copying_sound (small : bits ≤ 15) (sound : Sound bits pool s) {task : Nat}
    {request : SendRequest} {buffer : AvailableBuffer} {serial : Nat}
    (standing : s.tasks task = .copying request buffer serial)
    (taken : s.advance task = some r) : Sound bits pool r := by
  obtain ⟨has, marked⟩ := sound.doing_at standing
  simp only [advance, standing] at taken
  obtain ⟨_, rest⟩ := Option.ite_none_right_eq_some.mp taken
  obtain ⟨shared, ran, result⟩ := Option.bind_eq_some_iff.mp rest
  obtain rfl := Option.some.inj result
  obtain ⟨same, value⟩ := Shared.slaveWrite_value ran
  rw [has.handed] at value
  have size := sound.sized.handed sound.kept has.found
  refine sound.wrote small ran (by rw [standing]; rfl) rfl ⟨same ▸ has, ?_, ?_, ?_⟩
  · rw [value]
    exact marked
  · rw [size]
    rfl
  · rw [value, List.take_append_of_le_length, List.take_take, Nat.min_self]
    rw [List.length_take]
    omega

/-- The index is read back, and the header goes into the buffer. -/
theorem framing_sound (small : bits ≤ 15) (sound : Sound bits pool s) {task : Nat}
    {request : SendRequest} {buffer : AvailableBuffer} {serial len : Nat}
    (standing : s.tasks task = .framing request buffer serial len)
    (taken : s.advance task = some r) : Sound bits pool r := by
  obtain ⟨has, marked, fits, copied⟩ := sound.doing_at standing
  simp only [advance, standing] at taken
  obtain ⟨shared, ran, result⟩ := Option.bind_eq_some_iff.mp taken
  obtain rfl := Option.some.inj result
  obtain ⟨same, value⟩ := Shared.slaveWrite_value ran
  rw [has.handed] at value
  have short : u16 len = len := by
    refine u16_of_lt _ ?_
    rw [fits, fitting, rpmsgBufferSize, hdrSize]
    omega
  refine sound.wrote small ran (by rw [standing]; rfl) rfl
    ⟨fits, buffer, same ▸ has, ?_, ?_⟩
  · rw [marked]
    exact sound.kept.idx_small small has
  · rw [value, RpmsgBuf.message, SendRequest.message, short, copied, fits, fitting, Nat.min_comm,
      ← List.take_eq_take_min]

/-- The buffer goes into the used ring. -/
theorem enqueuing_sound (small : bits ≤ 15) (sound : Sound bits pool s) {task : Nat}
    {request : SendRequest} {idx serial len : Nat}
    (standing : s.tasks task = .enqueuing request idx serial len)
    (taken : s.advance task = some r) : Sound bits pool r := by
  obtain ⟨fits, buffer, has, rfl, framed⟩ := sound.doing_at standing
  have mine : (s.tasks task).serial? = some serial := by rw [standing]; rfl
  have done := sound.done_at standing
  simp only [advance, standing] at taken
  obtain ⟨unlocked, rest⟩ := Option.ite_none_right_eq_some.mp taken
  obtain ⟨shared, ran, result⟩ := Option.bind_eq_some_iff.mp rest
  obtain rfl := Option.some.inj result
  have kept := Shared.step_kept small _ _ _ sound.kept ran
  have size := sound.sized.descriptor sound.kept has.holds
  have sized : Shared.Sized rpmsgBufferSize shared := by
    refine sound.sized.call kept ran ?_
    intro flight len same
    rw [← (TransportEvent.consumedStore.inj same).2]
    exact size
  have publishing := (Shared.return_frame ran).2.2.1
  obtain ⟨_, u, _, recorded⟩ := Shared.step_call_iff.mp ran
  refine sound.moved rfl kept sized (by simp) ?_ (by simp [SendAt.locked])
    (by simp [SendAt.serial?]) ?_ ⟨publishing, fits⟩ ?_ ?_ ?_ sound.lengths
  · intro other different
    rw [unlocked]
    exact iff_of_false (Option.some_ne_none other).symm
      (fun same => different (Option.some.inj same).symm)
  · intro other different
    refine (sound.doing other).call sound.kept ran ?_ ?_
    · intro flight len same also
      rw [← (TransportEvent.consumedStore.inj same).1] at also
      exact different (sound.apart other task serial also mine)
    · rw [sound.nobody_locked unlocked other]
      exact fun locked => absurd locked Bool.false_ne_true
  · change shared.returned.map _ = (s.sent ++ [(task, request)]).map _
    rw [← recorded, List.map_append, ← sound.order]
    change (s.shared.returned ++ [s.shared.memory _]).map _ = _
    rw [List.map_append, List.map_singleton, List.map_singleton, has.handed, framed]
  · change ((s.sent ++ [(task, request)]).filter _).map _ = succeeded s.results task ++ [request]
    rw [show succeeded s.results task = s.sentBy task from
      (done.trans (List.append_nil _)).symm]
    simp [sentBy]
  · intro other different
    refine ⟨?_, rfl⟩
    change ((s.sent ++ [(task, request)]).filter _).map _ = _
    simp [sentBy, different.symm]

/-- The index of the used ring moves. -/
theorem publishing_sound (small : bits ≤ 15) (sound : Sound bits pool s) {task : Nat}
    {request : SendRequest} {len : Nat} (standing : s.tasks task = .publishing request len)
    (taken : s.advance task = some r) : Sound bits pool r := by
  have mine : s.lock = some task := (sound.owner task).mp (by rw [standing]; rfl)
  obtain ⟨_, fits⟩ := sound.doing_at standing
  simp only [advance, standing] at taken
  obtain ⟨shared, ran, result⟩ := Option.bind_eq_some_iff.mp taken
  obtain rfl := Option.some.inj result
  have idle := Shared.publish_stands ran
  have done : s.sentBy task = succeeded s.results task ++ [request] := sound.done_at standing
  exact sound.called small ran (by simp) (Or.inr mine) (fun _ => idle)
    (by simp [SendAt.locked, mine]) (by simp [mine, eq_comm]) (by simp [SendAt.serial?])
    ⟨idle, fits⟩ done (fun _ _ => rfl) sound.lengths

/-- The other side is notified, and the lock is free again. -/
theorem kicking_sound (small : bits ≤ 15) (sound : Sound bits pool s) {task : Nat}
    {request : SendRequest} {len : Nat} (standing : s.tasks task = .kicking request len)
    (taken : s.advance task = some r) : Sound bits pool r := by
  have mine : s.lock = some task := (sound.owner task).mp (by rw [standing]; rfl)
  obtain ⟨before, fits⟩ := sound.doing_at standing
  simp only [advance, standing] at taken
  obtain ⟨shared, ran, result⟩ := Option.bind_eq_some_iff.mp taken
  obtain rfl := Option.some.inj result
  have idle := (Shared.kick_stands ran).trans before
  have done : s.sentBy task = succeeded s.results task ++ [request] := sound.done_at standing
  exact sound.called small ran (by simp) (Or.inr mine) (fun _ => idle)
    (by simp [SendAt.locked]) (by simp) (by simp [SendAt.serial?]) fits done
    (fun _ _ => rfl) sound.lengths

/-- The send returns. -/
theorem returning_sound (sound : Sound bits pool s) {task : Nat} {request : SendRequest}
    {len : Nat} (standing : s.tasks task = .returning request len)
    (taken : s.advance task = some r) : Sound bits pool r := by
  have fits : len = fitting request := sound.doing_at standing
  have outside : s.lock ≠ some task := by
    rw [ne_eq, ← sound.owner task, standing]
    exact Bool.false_ne_true
  have done : s.sentBy task = succeeded s.results task ++ [request] := sound.done_at standing
  simp only [advance, standing] at taken
  obtain rfl := Option.some.inj taken
  refine sound.moved (rfl : _ = Function.update s.tasks task .idle) sound.kept sound.sized
    sound.free (fun _ _ => Iff.rfl) (iff_of_false Bool.false_ne_true outside)
    (by simp [SendAt.serial?])
    (fun other _ => sound.doing other) trivial sound.order ?_
    (fun other different => ⟨rfl, succeeded_other _ _ _ _ different⟩)
    (lengths_append sound.lengths ?_)
  · change s.sentBy task = succeeded (s.results ++ [⟨task, request, .ok len⟩]) task ++ []
    rw [succeeded_ok, List.append_nil]
    exact done
  · intro other same
    rw [← Except.ok.inj same]
    exact fits

/-- The next step of any task. -/
theorem advance_sound (small : bits ≤ 15) (sound : Sound bits pool s) (task : Nat)
    (taken : s.advance task = some r) : Sound bits pool r := by
  cases standing : s.tasks task with
  | idle =>
    rw [advance, standing] at taken
    cases taken
  | trying request ticks => exact trying_sound small sound standing taken
  | taking request => exact taking_sound small sound standing taken
  | marking request buffer serial => exact marking_sound small sound standing taken
  | copying request buffer serial => exact copying_sound small sound standing taken
  | framing request buffer serial len => exact framing_sound small sound standing taken
  | enqueuing request idx serial len => exact enqueuing_sound small sound standing taken
  | publishing request len => exact publishing_sound small sound standing taken
  | kicking request len => exact kicking_sound small sound standing taken
  | returning request len => exact returning_sound sound standing taken

/-- The start of a send, or its return without a look at the buffers. -/
theorem begin_sound (sound : Sound bits pool s) {task : Nat} (idle : s.tasks task = .idle)
    (request : SendRequest) (driverOk : Bool) :
    Sound bits pool (s.begin task request driverOk) := by
  have outside : s.lock ≠ some task := by
    rw [ne_eq, ← sound.owner task, idle]
    exact Bool.false_ne_true
  have done := sound.done_at idle
  have stays : ∀ (place : SendAt) (results : List SendResult), place.locked = false →
      place.serial? = none → place.returned = [] → Doing s.shared place →
      (∀ other, succeeded results other = succeeded s.results other) →
      (∀ entry ∈ results, ∀ len, entry.result = .ok len → len = fitting entry.request) →
      Sound bits pool
        { s with tasks := Function.update s.tasks task place, results := results } := by
    intro place results unlocked handless nothing own same lengths
    refine sound.moved rfl sound.kept sound.sized sound.free (fun _ _ => Iff.rfl) ?_ ?_
      (fun other _ => sound.doing other) own sound.order ?_
      (fun other _ => ⟨rfl, same other⟩) lengths
    · rw [unlocked]
      exact iff_of_false Bool.false_ne_true outside
    · intro serial has
      rw [handless] at has
      cases has
    · rw [same, nothing]
      exact done
  unfold begin
  split
  · exact stays .idle _ rfl rfl rfl trivial (succeeded_error _ _ _ _)
      (lengths_append sound.lengths (by simp))
  · split
    · exact stays (.trying request _) s.results rfl rfl rfl trivial (fun _ => rfl) sound.lengths
    · exact stays .idle _ rfl rfl rfl trivial (succeeded_error _ _ _ _)
        (lengths_append sound.lengths (by simp))

/-- Every event keeps the tasks in order. -/
theorem step_sound (small : bits ≤ 15) (s : Sender) (event : SenderEvent) (r : Sender)
    (sound : Sound bits pool s) (taken : s.step event = some r) : Sound bits pool r := by
  cases event with
  | master event =>
    obtain ⟨ofMaster, moved⟩ := Option.ite_none_right_eq_some.mp taken
    obtain ⟨shared, ran, rfl⟩ := Option.map_eq_some_iff.mp moved
    have other : ∀ flight len, event ≠ .consumedStore flight len := by
      rintro flight len rfl
      cases ofMaster
    have kept := Shared.step_kept small _ _ _ sound.kept ran
    obtain ⟨_, _, standing, _⟩ := Shared.master_frame ofMaster ran
    obtain ⟨_, u, _, recorded⟩ := Shared.step_call_iff.mp ran
    refine ⟨kept, sound.sized.call kept ran (fun flight len same => absurd same (other flight len)),
      ?_, sound.owner, sound.apart, ?_, ?_, sound.done, sound.lengths⟩
    · intro unlocked
      exact standing.trans (sound.free unlocked)
    · intro task
      exact (sound.doing task).call sound.kept ran
        (fun flight len same => absurd same (other flight len)) (fun _ => standing)
    · change shared.returned.map _ = _
      rw [← recorded, Shared.record_returned u other]
      exact sound.order
  | masterWrite buf value =>
    obtain ⟨shared, ran, rfl⟩ := Option.map_eq_some_iff.mp taken
    have kept := Shared.step_kept small _ _ _ sound.kept ran
    have undisturbed := fun flight (holds : flight ∈ s.shared.transport.held) =>
      Shared.masterWrite_undisturbed sound.kept ran holds
    obtain ⟨_, result⟩ := Option.ite_none_right_eq_some.mp ran
    obtain rfl := Option.some.inj result
    have doing : ∀ task, Doing _ (s.tasks task) := fun task =>
      (sound.doing task).frame (fun flight holds _ => undisturbed flight holds) (fun _ => rfl)
    exact ⟨kept, ⟨sound.sized.owned, sound.sized.offered, sound.sized.consumed⟩, sound.free,
      sound.owner, sound.apart, doing, sound.order, sound.done, sound.lengths⟩
  | start task request driverOk =>
    obtain ⟨idle, result⟩ := Option.ite_none_right_eq_some.mp taken
    obtain rfl := Option.some.inj result
    exact begin_sound sound idle request driverOk
  | advance task => exact advance_sound small sound task taken

/-- A task that does not have to wait for the lock can go on. -/
theorem Sound.goes_on (small : bits ≤ 15) (sound : Sound bits pool s) (task : Nat)
    (busy : s.tasks task ≠ .idle)
    (turn : (s.tasks task).acquires = true → s.lock = none) :
    ∃ next, s.advance task = some next := by
  have doing := sound.doing task
  unfold advance
  cases standing : s.tasks task with
  | idle => exact absurd standing busy
  | trying request ticks =>
    have free := turn (by rw [standing]; rfl)
    obtain ⟨shared, ran⟩ := Shared.call_enabled rfl
      (show s.shared.transport.slaveStep .availablePoll = _ from if_pos (sound.free free))
    simp only [free, ran, if_true, Option.bind_eq_bind, Option.bind_some]
    split
    · exact ⟨_, rfl⟩
    · split
      · exact ⟨_, rfl⟩
      · exact ⟨_, rfl⟩
  | taking request =>
    rw [standing] at doing
    obtain ⟨u, moved, _⟩ := Transport.availableTake_spec small sound.kept.inv doing
    obtain ⟨shared, ran⟩ := Shared.call_enabled rfl (Transport.step_slave rfl moved)
    obtain ⟨buffer, record, _⟩ := Shared.take_frame sound.kept
      (Shared.step_kept small _ _ _ sound.kept ran) ran
    have found : shared.transport.taken[s.shared.transport.taken.length]? = some buffer := by
      rw [record, List.getElem?_concat_length]
    simp only [ran, found, Option.bind_eq_bind, Option.bind_some]
    exact ⟨_, rfl⟩
  | marking request buffer serial =>
    rw [standing] at doing
    obtain ⟨shared, ran⟩ := Shared.write_enabled doing.holds
      { s.shared.memory buffer.buffer with reserved := buffer.availIdx }
    simp only [ran, Option.bind_eq_bind, Option.bind_some]
    exact ⟨_, rfl⟩
  | copying request buffer serial =>
    rw [standing] at doing
    have long : hdrSize ≤ buffer.len := by
      rw [sound.sized.handed sound.kept doing.1.found]
      decide
    obtain ⟨shared, ran⟩ := Shared.write_enabled doing.1.holds
      { s.shared.memory buffer.buffer with
        data := request.data.take (min request.data.length (buffer.len - hdrSize)) ++
          (s.shared.memory buffer.buffer).data.drop
            (min request.data.length (buffer.len - hdrSize)) }
    simp only [long, ran, if_true, Option.bind_eq_bind, Option.bind_some]
    exact ⟨_, rfl⟩
  | framing request buffer serial len =>
    rw [standing] at doing
    obtain ⟨shared, ran⟩ := Shared.write_enabled doing.1.holds
      ⟨request.src, request.dst, 0, u16 len, 0, (s.shared.memory buffer.buffer).data⟩
    simp only [ran, Option.bind_eq_bind, Option.bind_some]
    exact ⟨_, rfl⟩
  | enqueuing request idx serial len =>
    have free := turn (by rw [standing]; rfl)
    rw [standing] at doing
    obtain ⟨_, buffer, has, rfl, _⟩ := doing
    obtain ⟨u, moved, _⟩ := Transport.consumedStore_spec small sound.kept.inv
      ⟨buffer.availIdx, serial⟩ (virtqueueGetBufferLength s.shared.transport.ring buffer.availIdx)
      (sound.free free) has.holds
    obtain ⟨shared, ran⟩ := Shared.call_enabled rfl (Transport.step_slave rfl moved)
    simp only [free, ran, if_true, Option.bind_eq_bind, Option.bind_some]
    exact ⟨_, rfl⟩
  | publishing request len =>
    rw [standing] at doing
    obtain ⟨shared, ran⟩ := Shared.call_enabled rfl
      (show s.shared.transport.slaveStep .consumedPublish = _ from if_pos doing.1)
    simp only [ran, Option.bind_eq_bind, Option.bind_some]
    exact ⟨_, rfl⟩
  | kicking request len =>
    rw [standing] at doing
    obtain ⟨shared, ran⟩ := Shared.call_enabled rfl
      (show s.shared.transport.slaveStep .slaveKick = _ from if_pos doing.1)
    simp only [ran, Option.bind_eq_bind, Option.bind_some]
    exact ⟨_, rfl⟩
  | returning request len => exact ⟨_, rfl⟩

/-- What was sent stays sent, in its place. -/
theorem step_sent {event : SenderEvent} (taken : s.step event = some r) :
    s.sent <+: r.sent := by
  cases event with
  | master event =>
    obtain ⟨_, moved⟩ := Option.ite_none_right_eq_some.mp taken
    obtain ⟨shared, _, rfl⟩ := Option.map_eq_some_iff.mp moved
    exact List.prefix_rfl
  | masterWrite buf value =>
    obtain ⟨shared, _, rfl⟩ := Option.map_eq_some_iff.mp taken
    exact List.prefix_rfl
  | start task request driverOk =>
    obtain ⟨_, result⟩ := Option.ite_none_right_eq_some.mp taken
    obtain rfl := Option.some.inj result
    unfold begin
    split
    · exact List.prefix_rfl
    · split <;> exact List.prefix_rfl
  | advance task =>
    have moved : s.advance task = some r := taken
    cases standing : s.tasks task with
    | idle =>
      simp only [advance, standing] at moved
      cases moved
    | trying request ticks =>
      simp only [advance, standing] at moved
      obtain ⟨_, rest⟩ := Option.ite_none_right_eq_some.mp moved
      obtain ⟨shared, _, result⟩ := Option.bind_eq_some_iff.mp rest
      split at result
      · exact Option.some.inj result ▸ List.prefix_rfl
      · split at result <;> exact Option.some.inj result ▸ List.prefix_rfl
    | taking request =>
      simp only [advance, standing] at moved
      obtain ⟨shared, _, rest⟩ := Option.bind_eq_some_iff.mp moved
      obtain ⟨buffer, _, result⟩ := Option.bind_eq_some_iff.mp rest
      exact Option.some.inj result ▸ List.prefix_rfl
    | copying request buffer serial =>
      simp only [advance, standing] at moved
      obtain ⟨_, rest⟩ := Option.ite_none_right_eq_some.mp moved
      obtain ⟨shared, _, result⟩ := Option.bind_eq_some_iff.mp rest
      exact Option.some.inj result ▸ List.prefix_rfl
    | enqueuing request idx serial len =>
      simp only [advance, standing] at moved
      obtain ⟨_, rest⟩ := Option.ite_none_right_eq_some.mp moved
      obtain ⟨shared, _, result⟩ := Option.bind_eq_some_iff.mp rest
      exact Option.some.inj result ▸ List.prefix_append _ _
    | returning request len =>
      simp only [advance, standing] at moved
      exact Option.some.inj moved ▸ List.prefix_rfl
    | marking request buffer serial | framing request buffer serial len
    | publishing request len | kicking request len =>
      simp only [advance, standing] at moved
      obtain ⟨shared, _, result⟩ := Option.bind_eq_some_iff.mp moved
      exact Option.some.inj result ▸ List.prefix_rfl

/-- The task that is before the move of the used index moves it. -/
theorem Sound.publishes (small : bits ≤ 15) (sound : Sound bits pool s) :
    ∃ more r, run step s more = some r ∧ Sound bits pool r ∧ r.sent = s.sent ∧
      r.shared.transport.slaveAt ≠ .publishing := by
  by_cases before : s.shared.transport.slaveAt = .publishing
  · have locked : s.lock ≠ none := by
      intro unlocked
      rw [sound.free unlocked] at before
      cases before
    obtain ⟨task, mine⟩ := Option.ne_none_iff_exists'.mp locked
    have inside := (sound.owner task).mpr mine
    have doing := sound.doing task
    cases standing : s.tasks task with
    | publishing request len =>
      obtain ⟨r, taken⟩ := sound.goes_on small task (by simp [standing])
        (by simp [standing, SendAt.acquires])
      refine ⟨[.advance task], r, (run_cons_iff _ _ _ _ _).mpr ⟨r, taken, rfl⟩,
        advance_sound small sound task taken, ?_⟩
      simp only [advance, standing] at taken
      obtain ⟨shared, ran, result⟩ := Option.bind_eq_some_iff.mp taken
      obtain rfl := Option.some.inj result
      refine ⟨rfl, ?_⟩
      change shared.transport.slaveAt ≠ .publishing
      rw [Shared.publish_stands ran]
      exact SlaveAt.noConfusion
    | taking request =>
      rw [standing] at doing
      cases before.symm.trans doing
    | kicking request len =>
      rw [standing] at doing
      cases before.symm.trans doing.1
    | _ =>
      rw [standing] at inside
      cases inside
  · exact ⟨[], s, rfl, sound, rfl, before⟩

/-- The sends and the master can go on, without another message, to where the master has
found all messages. -/
theorem Sound.arrives (small : bits ≤ 15) (sound : Sound bits pool s) :
    ∃ more r, run step s more = some r ∧ r.sent = s.sent ∧
      r.shared.reaped.map RpmsgBuf.message = s.sent.map (·.2.message) := by
  obtain ⟨first, u, published, after, same, visible⟩ := sound.publishes small
  obtain ⟨events, shared, ofMaster, ran, _, reaped⟩ := after.kept.collects small visible
  rw [run_map] at ran
  obtain ⟨r, collected, found, kept⟩ := simulation_run
    (fun state event => Shared.step state (.call event)) step SenderEvent.master
    (fun event => event.ofMaster = true)
    (fun shared within => within.shared = shared ∧ within.sent = u.sent)
    (by
      rintro _ event next within master ⟨rfl, sent⟩ taken
      refine ⟨{ within with shared := next }, ?_, rfl, sent⟩
      rw [step, if_pos master, taken]
      rfl)
    u.shared shared u events ofMaster ⟨rfl, rfl⟩ ran
  refine ⟨first ++ events.map .master, r, run_append step _ _ _ _ _ published collected,
    kept.trans same, ?_⟩
  rw [found, reaped, after.order, same]

end Steps

/-! ## Every run -/

section Runs

variable (bits features : Nat) (masterIo slaveIo : ShmIo) (pool : List VirtqueueBuf)
  (memory : Nat → RpmsgBuf)

/-- Before the first send everything is in order. -/
theorem initial_sound (small : bits ≤ 15)
    (apart : ((pool.map (·.buf)).map
      (fun buf => slaveIo.physToVirt (masterIo.virtToPhys buf))).Nodup)
    (full : ∀ buf ∈ pool, buf.len = rpmsgBufferSize) :
    Sound bits pool (initial bits features masterIo slaveIo pool memory) where
  kept := Shared.step_kept small _ (.call .slaveDisable) _
    (Shared.initial_kept bits features masterIo slaveIo pool memory apart) rfl
  sized := ⟨full, fun _ member => absurd member List.not_mem_nil,
    fun _ member => absurd member List.not_mem_nil⟩
  free := fun _ => rfl
  owner := fun _ => iff_of_false Bool.false_ne_true (Option.some_ne_none _).symm
  apart := fun _ _ _ one => absurd one (Option.some_ne_none _).symm
  doing := fun _ => trivial
  order := rfl
  done := fun _ => rfl
  lengths := fun _ member => absurd member List.not_mem_nil

variable (events : List SenderEvent) (s : Sender)

/-- Every run of sends keeps everything in order. -/
theorem run_sound (small : bits ≤ 15)
    (apart : ((pool.map (·.buf)).map
      (fun buf => slaveIo.physToVirt (masterIo.virtToPhys buf))).Nodup)
    (full : ∀ buf ∈ pool, buf.len = rpmsgBufferSize)
    (ran : run step (initial bits features masterIo slaveIo pool memory) events = some s) :
    Sound bits pool s :=
  invariant_run step (fun _ _ => True) (Sound bits pool)
    (fun state event next sound _ taken => step_sound small state event next sound taken)
    _ s events (initial_sound bits features masterIo slaveIo pool memory small apart full)
    (along_of_forall _ _ _ _ (fun _ _ _ => trivial)) ran

/-- What was sent at some point of a run comes first at its end. -/
theorem run_sent {m : Sender} (ran : run step m events = some s) : m.sent <+: s.sent :=
  invariant_run step (fun _ _ => True) (fun state => m.sent <+: state.sent)
    (fun _ _ _ before _ taken => before.trans (step_sent taken))
    m s events List.prefix_rfl (along_of_forall _ _ _ _ (fun _ _ _ => trivial)) ran

/-- However the sends of the tasks run into each other, the master finds in the buffers
it is handed back one message for each buffer that a task returned under the lock, in that
order, which does not change afterwards. The buffers of one task are those of its sends
that returned with success, in the order in which they did, and of the one that is about
to; a send that failed leaves nothing. Of a message that does not fit a buffer the first
496 bytes go over, and the result says so. And from every state the system can go on,
without another message, to where the master has found all of them. -/
theorem sent_messages_arrive (small : bits ≤ 15)
    (apart : ((pool.map (·.buf)).map
      (fun buf => slaveIo.physToVirt (masterIo.virtToPhys buf))).Nodup)
    (full : ∀ buf ∈ pool, buf.len = rpmsgBufferSize)
    (ran : run step (initial bits features masterIo slaveIo pool memory) events = some s) :
    s.shared.reaped.map RpmsgBuf.message =
        (s.sent.map (·.2.message)).take s.shared.transport.reclaimed.length ∧
      (∀ task, s.sentBy task = succeeded s.results task ++ (s.tasks task).returned) ∧
      (∀ task, (s.tasks task).returned.length ≤ 1) ∧
      (∀ entry ∈ s.results, ∀ len, entry.result = .ok len →
        len = min entry.request.data.length (rpmsgBufferSize - hdrSize)) ∧
      (∀ more r, run step s more = some r → s.sent <+: r.sent) ∧
      ∃ more r, run step s more = some r ∧ r.sent = s.sent ∧
        r.shared.reaped.map RpmsgBuf.message = s.sent.map (·.2.message) := by
  have sound := run_sound bits features masterIo slaveIo pool memory events s small apart full ran
  refine ⟨?_, sound.done, ?_, sound.lengths, fun more r => run_sent more r,
    sound.arrives small⟩
  · rw [sound.kept.reaped, List.map_take, sound.order]
  · intro task
    cases s.tasks task <;> simp [SendAt.returned]

/-- Two tasks send at once. The first has more than a buffer holds; the second returns its
buffer before it, and returns itself after it. -/
def overtaken : List SenderEvent :=
  [.master (.addStore ⟨[⟨4096, 512⟩], 0, 4096⟩), .master .addPublish,
    .master (.addStore ⟨[⟨8192, 512⟩], 0, 8192⟩), .master .addPublish,
    .start 1 ⟨1024, 7, List.replicate 500 1, true⟩ true, .start 2 ⟨1025, 8, [4, 5], false⟩ true,
    .advance 1, .advance 1, .advance 2, .advance 2, .advance 1, .advance 2, .advance 2,
    .advance 2, .advance 2, .advance 2, .advance 2, .advance 1, .advance 1, .advance 1,
    .advance 1, .advance 1, .advance 1, .advance 2, .master .getPoll, .master .getTake,
    .master .getPoll, .master .getTake]

/-- Memory with nothing in it. -/
def blank : Nat → RpmsgBuf := fun _ => ⟨0, 0, 0, 0, 0, []⟩

/-- The second task overtakes the first between the unlock and the return. -/
theorem sent_messages_arrive_sample :
    ∃ s, run step (initial 1 0 ⟨id, id⟩ ⟨id, id⟩ [⟨4096, 512⟩, ⟨8192, 512⟩] blank) overtaken =
        some s ∧
      s.results.map (·.result) = [.ok 496, .ok 2] ∧ s.sent.map (·.1) = [2, 1] ∧
      s.shared.reaped.map RpmsgBuf.message =
        (s.sent.map (·.2.message)).take s.shared.transport.reclaimed.length :=
  ⟨(run step (initial 1 0 ⟨id, id⟩ ⟨id, id⟩ [⟨4096, 512⟩, ⟨8192, 512⟩] blank) overtaken).get
      (by decide), (Option.some_get _).symm, by decide +kernel, by decide +kernel,
    (sent_messages_arrive 1 0 ⟨id, id⟩ ⟨id, id⟩ [⟨4096, 512⟩, ⟨8192, 512⟩] blank overtaken _
      (by decide) (by decide) (by decide) (Option.some_get _).symm).1⟩

/-- No send gets stuck: whoever has the lock can go on, and so can everybody while it is
free, and everybody who is not about to take it at any time. The index that a task read
back from the buffer is that of the buffer in its hands, and the room that is left behind
the header does not wrap; for every buffer keeps its full size however often it goes over
and back. -/
theorem sends_go_on (small : bits ≤ 15)
    (apart : ((pool.map (·.buf)).map
      (fun buf => slaveIo.physToVirt (masterIo.virtToPhys buf))).Nodup)
    (full : ∀ buf ∈ pool, buf.len = rpmsgBufferSize)
    (ran : run step (initial bits features masterIo slaveIo pool memory) events = some s) :
    (∀ task, s.tasks task ≠ .idle → s.lock = none ∨ s.lock = some task →
        (s.step (.advance task)).isSome) ∧
      (∀ task, s.tasks task ≠ .idle → (s.tasks task).acquires = false →
        (s.step (.advance task)).isSome) ∧
      (∀ task, s.lock = some task → s.tasks task ≠ .idle) ∧
      (∀ task request idx serial len, s.tasks task = .enqueuing request idx serial len →
        ∃ buffer, s.shared.transport.Has buffer serial ∧ idx = buffer.availIdx) ∧
      (∀ buf ∈ s.shared.owned, buf.len = rpmsgBufferSize) ∧
      ∀ buffer ∈ s.shared.transport.taken, buffer.len = rpmsgBufferSize := by
  have sound := run_sound bits features masterIo slaveIo pool memory events s small apart full ran
  refine ⟨?_, ?_, ?_, ?_, sound.sized.owned, ?_⟩
  · intro task busy turn
    have waits : (s.tasks task).acquires = true → s.lock = none := by
      intro acquires
      refine turn.resolve_right ?_
      rw [← sound.owner task]
      cases standing : s.tasks task <;> rw [standing] at acquires <;>
        first | exact Bool.false_ne_true | cases acquires
    obtain ⟨next, taken⟩ := sound.goes_on small task busy waits
    rw [step, taken]
    rfl
  · intro task busy free
    obtain ⟨next, taken⟩ := sound.goes_on small task busy (by simp [free])
    rw [step, taken]
    rfl
  · intro task locked idle
    have inside := (sound.owner task).mpr locked
    rw [idle] at inside
    cases inside
  · intro task request idx serial len standing
    obtain ⟨_, buffer, has, same, _⟩ := sound.doing_at standing
    exact ⟨buffer, has, same⟩
  · intro buffer member
    obtain ⟨place, found⟩ := List.getElem?_of_mem member
    exact sound.sized.handed sound.kept found

/-- A task whose message is posted goes on to return. -/
theorem sends_go_on_sample :
    ∃ s, run step (initial 1 0 ⟨id, id⟩ ⟨id, id⟩ [⟨4096, 512⟩, ⟨8192, 512⟩] blank)
        (overtaken.take 11) = some s ∧
      s.lock = none ∧ (s.step (.advance 1)).isSome :=
  ⟨(run step (initial 1 0 ⟨id, id⟩ ⟨id, id⟩ [⟨4096, 512⟩, ⟨8192, 512⟩] blank)
      (overtaken.take 11)).get (by decide), (Option.some_get _).symm, by decide,
    (sends_go_on 1 0 ⟨id, id⟩ ⟨id, id⟩ [⟨4096, 512⟩, ⟨8192, 512⟩] blank (overtaken.take 11) _
      (by decide) (by decide) (by decide) (Option.some_get _).symm).1 1 (by decide)
      (by decide)⟩

end Runs

end Sender

end Stm32Ecu.Rpmsg
