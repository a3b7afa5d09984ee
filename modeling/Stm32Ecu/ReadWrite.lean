import Mathlib.Logic.Function.Basic
import Mathlib.Tactic.Ring
import Stm32Ecu.Driver

/-!
# Reading and writing the device file

`ioctl_read` asks the queue of replies for its size and takes that for the number
of replies waiting. The size of a kfifo is its capacity, so the loop always makes
as many gets as the caller asked for, up to 256, and counts each of them whether
or not it found a reply. A read is right exactly when the queue holds that many.

`ioctl_write` checks every message of its buffer before it sends the first, and
then sends until a send fails. What it hands over and what it returns are exact.
The tokens it leaves are not: one is put before anything else is done, so there
is one more than messages, as far as the token queue has room.

The caller's buffer is given by the frame at each index. `kfifo_get` writes to it
directly; a page that cannot be written is below this view.
-/

namespace Stm32Ecu

/-- What `ioctl_read` leaves: its value, the driver and the caller's buffer. -/
structure ReadOutcome where
  ret : Int
  state : Driver
  buf : Nat → InterprocMsg

def POLLIN : UInt32 := 0x0001
def POLLOUT : UInt32 := 0x0004
def POLLRDNORM : UInt32 := 0x0040
def POLLWRNORM : UInt32 := 0x0100

namespace Driver

/-- The loop of `ioctl_read` with this many turns to go. The result of the get is
not looked at: on an empty queue nothing is written, and the bytes count all the
same. -/
def readLoop (lib : Interproc) :
    Nat → Nat → Driver → (Nat → InterprocMsg) → Int → ReadOutcome
  | 0, _, s, buf, bytesRead => ⟨bytesRead, s, buf⟩
  | turns + 1, i, s, buf, bytesRead =>
      match s.fifoExternalMsg.get with
      | none => readLoop lib turns (i + 1) s buf (bytesRead + lib.sizeofMsg)
      | some (msg, queue) =>
          readLoop lib turns (i + 1) { s with fifoExternalMsg := queue }
            (Function.update buf i msg) (bytesRead + lib.sizeofMsg)

/-- `ioctl_read`. -/
def ioctlRead (lib : Interproc) (buf : Nat → InterprocMsg) (len : Nat) (s : Driver) :
    ReadOutcome :=
  let numMsgs := len / lib.sizeofMsg
  let expectedLen := lib.sizeofMsg * numMsgs
  if len ≠ expectedLen then ⟨0, s, buf⟩
  else
    let numStoredMsgs := s.fifoExternalMsg.size
    if 0 = numStoredMsgs then ⟨0, s, buf⟩
    else
      let numOutputMsgs := min numMsgs numStoredMsgs
      readLoop lib numOutputMsgs 0 s buf 0

/-- `poll_cb`: always writable, readable while a reply is queued. -/
def pollCb (s : Driver) : UInt32 :=
  let mask := POLLOUT ||| POLLWRNORM
  if s.fifoExternalMsg.isEmpty = false then mask ||| (POLLIN ||| POLLRDNORM) else mask

/-- A buffer with these frames laid over it from an index on. -/
def overlay (buf : Nat → InterprocMsg) (i : Nat) (msgs : List InterprocMsg) :
    Nat → InterprocMsg :=
  fun j => if i ≤ j then msgs.getD (j - i) (buf j) else buf j

/-- Nothing copied leaves the buffer. -/
@[simp] theorem overlay_nil (buf : Nat → InterprocMsg) (i : Nat) : overlay buf i [] = buf := by
  funext j
  simp [overlay]

/-- Laying over one frame and then the others is laying over all of them. -/
theorem overlay_cons (buf : Nat → InterprocMsg) (i : Nat) (msg : InterprocMsg)
    (msgs : List InterprocMsg) :
    overlay (Function.update buf i msg) (i + 1) msgs = overlay buf i (msg :: msgs) := by
  funext j
  unfold overlay
  rcases Nat.lt_trichotomy j i with before | rfl | after
  · have left : ¬ i ≤ j := by omega
    have right : ¬ i + 1 ≤ j := by omega
    simp [left, right, Nat.ne_of_lt before]
  · simp
  · obtain ⟨k, rfl⟩ := Nat.exists_eq_add_of_lt after
    have shift : i + k + 1 - i = (i + k + 1 - (i + 1)) + 1 := by omega
    have different : i + k + 1 ≠ i := by omega
    simp only [shift, List.getD_cons_succ, Function.update_of_ne different]
    rw [if_pos (by omega), if_pos (by omega)]

/-- The loop takes what the queue holds, up to its number of turns, lays it over
the buffer in order, and counts every turn. The induction is on the turns. -/
theorem readLoop_exact (lib : Interproc) (turns i : Nat) (s : Driver)
    (buf : Nat → InterprocMsg) (bytes : Int) :
    ∃ queue, queue.items = s.fifoExternalMsg.items.drop turns ∧
      readLoop lib turns i s buf bytes =
        ⟨bytes + turns * lib.sizeofMsg, { s with fifoExternalMsg := queue },
          overlay buf i (s.fifoExternalMsg.items.take turns)⟩ := by
  induction turns generalizing i s buf bytes with
  | zero =>
    refine ⟨s.fifoExternalMsg, rfl, ?_⟩
    simp [readLoop]
  | succ turns ih =>
    have counted : bytes + lib.sizeofMsg + turns * lib.sizeofMsg =
        bytes + (turns + 1 : Nat) * lib.sizeofMsg := by
      push_cast
      ring
    cases held : s.fifoExternalMsg.items with
    | nil =>
      obtain ⟨queue, remaining, result⟩ := ih (i + 1) s buf (bytes + lib.sizeofMsg)
      refine ⟨queue, by simpa [held] using remaining, ?_⟩
      simp only [readLoop, BoundedFifo.get_empty _ held]
      rw [result, counted, held]
      simp
    | cons msg rest =>
      obtain ⟨after, taken, left⟩ := BoundedFifo.get_items _ _ _ held
      obtain ⟨queue, remaining, result⟩ := ih (i + 1) { s with fifoExternalMsg := after }
        (Function.update buf i msg) (bytes + lib.sizeofMsg)
      refine ⟨queue, by simpa [left] using remaining, ?_⟩
      simp only [readLoop, taken]
      rw [result, counted, left, overlay_cons]
      rfl

/-- A read of whole frames takes what is queued, up to the number asked for and
the capacity, and returns the bytes asked for, up to the capacity, whatever is
queued. -/
theorem ioctlRead_whole (lib : Interproc) (buf : Nat → InterprocMsg) (len : Nat) (s : Driver)
    (whole : len = lib.sizeofMsg * (len / lib.sizeofMsg)) :
    ∃ queue, queue.items = s.fifoExternalMsg.items.drop (min (len / lib.sizeofMsg) 256) ∧
      ioctlRead lib buf len s =
        ⟨(min (len / lib.sizeofMsg) 256 : Nat) * lib.sizeofMsg,
          { s with fifoExternalMsg := queue },
          overlay buf 0 (s.fifoExternalMsg.items.take (min (len / lib.sizeofMsg) 256))⟩ := by
  obtain ⟨queue, remaining, result⟩ :=
    readLoop_exact lib (min (len / lib.sizeofMsg) 256) 0 s buf 0
  refine ⟨queue, remaining, ?_⟩
  unfold ioctlRead
  rw [if_neg (by simpa using whole), if_neg (by simp [BoundedFifo.size])]
  simpa [BoundedFifo.size] using result

/-- `poll_cb` reports `POLLIN` exactly while a reply is queued. -/
theorem pollCb_in_iff (s : Driver) :
    s.pollCb &&& POLLIN ≠ 0 ↔ s.fifoExternalMsg.items ≠ [] := by
  unfold pollCb BoundedFifo.isEmpty
  cases s.fifoExternalMsg.items with
  | nil => decide
  | cons first rest =>
    simp only [List.isEmpty_cons, ↓reduceIte, ne_eq, reduceCtorEq, not_false_eq_true, iff_true]
    decide

/-- A read delivers exactly the queued replies: none for a length that is not one
of whole frames, and otherwise as many as were asked for and are there, in order,
each taken from the queue and each counted. While `poll_cb` does not report input
it returns 0. -/
structure ReadsQueued (lib : Interproc) (buf : Nat → InterprocMsg) (len : Nat) (s : Driver) :
    Prop where
  rejected : ¬ lib.sizeofMsg ∣ len → ioctlRead lib buf len s = ⟨0, s, buf⟩
  delivered : lib.sizeofMsg ∣ len → ∃ queue,
    queue.items = s.fifoExternalMsg.items.drop
      (min (len / lib.sizeofMsg) s.fifoExternalMsg.items.length) ∧
    ioctlRead lib buf len s =
      ⟨(min (len / lib.sizeofMsg) s.fifoExternalMsg.items.length : Nat) * lib.sizeofMsg,
        { s with fifoExternalMsg := queue },
        overlay buf 0 (s.fifoExternalMsg.items.take
          (min (len / lib.sizeofMsg) s.fifoExternalMsg.items.length))⟩
  unready : s.pollCb &&& POLLIN = 0 → (ioctlRead lib buf len s).ret = 0

/-- A length is one of whole frames exactly when the code's own test says so. -/
theorem whole_iff (lib : Interproc) (len : Nat) :
    len = lib.sizeofMsg * (len / lib.sizeofMsg) ↔ lib.sizeofMsg ∣ len := by
  constructor
  · intro whole
    exact ⟨_, whole⟩
  · intro divides
    exact (Nat.mul_div_cancel' divides).symm

/-- A length that is not one of whole frames is refused. -/
theorem ioctlRead_odd (lib : Interproc) (buf : Nat → InterprocMsg) (len : Nat) (s : Driver)
    (odd : ¬ lib.sizeofMsg ∣ len) : ioctlRead lib buf len s = ⟨0, s, buf⟩ := by
  rw [← whole_iff] at odd
  simp [ioctlRead, odd]

/-- A read that asks for no more than is queued takes as much as it asked for and is
there. -/
theorem ioctlRead_enough (lib : Interproc) (buf : Nat → InterprocMsg) (len : Nat) (s : Driver)
    (divides : lib.sizeofMsg ∣ len)
    (enough : min (len / lib.sizeofMsg) 256 ≤ s.fifoExternalMsg.items.length) :
    ∃ queue, queue.items = s.fifoExternalMsg.items.drop
        (min (len / lib.sizeofMsg) s.fifoExternalMsg.items.length) ∧
      ioctlRead lib buf len s =
        ⟨(min (len / lib.sizeofMsg) s.fifoExternalMsg.items.length : Nat) * lib.sizeofMsg,
          { s with fifoExternalMsg := queue },
          overlay buf 0 (s.fifoExternalMsg.items.take
            (min (len / lib.sizeofMsg) s.fifoExternalMsg.items.length))⟩ := by
  have count : min (len / lib.sizeofMsg) s.fifoExternalMsg.items.length =
      min (len / lib.sizeofMsg) 256 := by
    have fits := s.fifoExternalMsg.fits
    omega
  rw [count]
  exact ioctlRead_whole lib buf len s ((whole_iff lib len).mpr divides)

/-- A read is right if and only if its length is not one of whole frames, or the
queue holds as many replies as were asked for, up to its capacity. -/
theorem reads_queued_iff (lib : Interproc) (buf : Nat → InterprocMsg) (len : Nat) (s : Driver) :
    ReadsQueued lib buf len s ↔
      (lib.sizeofMsg ∣ len →
        min (len / lib.sizeofMsg) 256 ≤ s.fifoExternalMsg.items.length) := by
  have positive : (lib.sizeofMsg : Int) ≠ 0 := by
    have size := lib.sizeofMsg_pos
    omega
  constructor
  · intro reads divides
    obtain ⟨_, _, result⟩ := ioctlRead_whole lib buf len s ((whole_iff lib len).mpr divides)
    obtain ⟨_, _, expected⟩ := reads.delivered divides
    have bytes := congrArg ReadOutcome.ret (result.symm.trans expected)
    have count : min (len / lib.sizeofMsg) 256 =
        min (len / lib.sizeofMsg) s.fifoExternalMsg.items.length := by
      have same := Int.eq_of_mul_eq_mul_right positive bytes
      exact_mod_cast same
    omega
  · intro enough
    refine ⟨ioctlRead_odd lib buf len s, fun divides =>
      ioctlRead_enough lib buf len s divides (enough divides), ?_⟩
    intro unready
    have none_queued : s.fifoExternalMsg.items = [] := by
      by_contra queued
      exact (pollCb_in_iff s).mpr queued unready
    by_cases divides : lib.sizeofMsg ∣ len
    · obtain ⟨_, _, result⟩ := ioctlRead_enough lib buf len s divides (enough divides)
      simp [result, none_queued]
    · rw [ioctlRead_odd lib buf len s divides]

/-- Not every read is right: asked for one frame while nothing is queued, it
reports one. -/
theorem empty_read_counts :
    ¬ ∀ (lib : Interproc) (buf : Nat → InterprocMsg) (len : Nat) (s : Driver),
      ReadsQueued lib buf len s := by
  intro law
  have reads := law crc32Interproc (fun _ => crc32Interproc.stamp .ping Data.zero) 16 loaded
  exact absurd (reads.unready (by decide)) (by decide)

/-- The loop in which `main` waits for the first reply, with this many attempts
left to repeat: it reads one frame until something is read. `states` is the driver
that each attempt meets. The result is the number of attempts made and the value
of the last one. -/
def startupRead (lib : Interproc) (buf : Nat → InterprocMsg) (states : Nat → Driver) :
    Nat → Nat → Nat × Int
  | 0, attempt => (attempt + 1, (ioctlRead lib buf lib.sizeofMsg (states attempt)).ret)
  | again + 1, attempt =>
      let bytesRead := (ioctlRead lib buf lib.sizeofMsg (states attempt)).ret
      if 0 = bytesRead then startupRead lib buf states again (attempt + 1)
      else (attempt + 1, bytesRead)

/-- The loop never waits: its first read reports a whole frame, whether a reply has
come or not. -/
theorem startupRead_once (lib : Interproc) (buf : Nat → InterprocMsg) (states : Nat → Driver) :
    startupRead lib buf states 10 0 = (1, (lib.sizeofMsg : Int)) := by
  have size := lib.sizeofMsg_pos
  have one : lib.sizeofMsg / lib.sizeofMsg = 1 := Nat.div_self size
  obtain ⟨_, _, result⟩ := ioctlRead_whole lib buf lib.sizeofMsg (states 0) (by simp [one])
  have bytes : (ioctlRead lib buf lib.sizeofMsg (states 0)).ret = lib.sizeofMsg := by
    simp [result, one]
  simp only [startupRead, bytes]
  rw [if_neg (by omega)]

/-- The number of messages a write hands over, read off its inputs: none if it is
turned away or has no device to send to, and otherwise those before the first send
that fails. -/
def handedOver (lib : Interproc) (kernel : Kernel) (buf : Nat → InterprocMsg) (len : Nat)
    (s : Driver) : Nat :=
  match s.rproc with
  | .error _ => 0
  | .ok _ =>
      if ReachesLoop lib kernel buf len then sendsBefore kernel 0 (len / lib.sizeofMsg) else 0

/-- It is at most the number of messages in the buffer. -/
theorem handedOver_le (lib : Interproc) (kernel : Kernel) (buf : Nat → InterprocMsg) (len : Nat)
    (s : Driver) : handedOver lib kernel buf len s ≤ len / lib.sizeofMsg := by
  have bounded : sendsBefore kernel 0 (len / lib.sizeofMsg) ≤ len / lib.sizeofMsg := by
    have front : (List.range' 0 (len / lib.sizeofMsg)).takeWhile
        (fun position => kernel.rpmsgSend position = 0) <+: List.range' 0 (len / lib.sizeofMsg) :=
      List.takeWhile_prefix _
    simpa [sendsBefore] using front.length_le
  unfold handedOver
  split
  · exact Nat.zero_le _
  · split
    · exact bounded
    · exact Nat.zero_le _

/-- A write that does not reach the loop, or has no device there, hands over
nothing. -/
theorem ioctlWrite_stopped (lib : Interproc) (kernel : Kernel) (buf : Nat → InterprocMsg)
    (len : Nat) (s : Driver)
    (stopped : ¬ (ReachesLoop lib kernel buf len ∧ ∃ device, s.rproc = .ok device)) :
    (ioctlWrite lib kernel buf len s).sent = [] ∧ handedOver lib kernel buf len s = 0 := by
  by_cases reached : ReachesLoop lib kernel buf len
  · cases target : s.rproc with
    | ok device => exact absurd ⟨reached, device, target⟩ stopped
    | error fault =>
      obtain ⟨msg, rest, state, loops, sameRef⟩ := ioctlWrite_reached lib kernel buf len s reached
      rw [target] at sameRef
      refine ⟨?_, by simp [handedOver, target]⟩
      simp only [loops, sendLoop, sameRef]
  · refine ⟨(ioctlWrite_unreached lib kernel buf len s reached).1, ?_⟩
    unfold handedOver
    split
    · rfl
    · rw [if_neg reached]

/-- A write that reaches the loop with a device hands over the messages before the
first send that fails, returns their bytes, and has put a token for each and one more
while they fit. -/
theorem ioctlWrite_batch (lib : Interproc) (kernel : Kernel) (buf : Nat → InterprocMsg)
    (len : Nat) (s : Driver) (reached : ReachesLoop lib kernel buf len) (device : Device)
    (target : s.rproc = .ok device) :
    (ioctlWrite lib kernel buf len s).sent = ((List.range (len / lib.sizeofMsg)).map buf).take
        (sendsBefore kernel 0 (len / lib.sizeofMsg)) ∧
      (ioctlWrite lib kernel buf len s).ret =
        .ok (lib.sizeofMsg * sendsBefore kernel 0 (len / lib.sizeofMsg)) ∧
      (ioctlWrite lib kernel buf len s).state.fifoSendTypes.items =
        (s.fifoSendTypes.items ++ List.replicate
          (sendsBefore kernel 0 (len / lib.sizeofMsg) + 1) SentMsg.externalFifo).take 512 := by
  obtain ⟨sent, ret, tokens⟩ := sendLoop_exact lib kernel 0
    ((List.range (len / lib.sizeofMsg)).map buf)
    { (s.putSendType .externalFifo).2 with heap := heapAfterWrite lib kernel len s.heap } 0
    device target
  rw [List.length_map, List.length_range] at sent ret tokens
  have first : (s.putSendType .externalFifo).2.fifoSendTypes.items =
      (s.fifoSendTypes.items ++ [SentMsg.externalFifo]).take 512 :=
    BoundedFifo.put_take s.fifoSendTypes .externalFifo
  rw [ioctlWrite_looped lib kernel buf len s reached]
  refine ⟨sent, ret.trans ?_, tokens.trans ?_⟩
  · rw [Int.zero_add, Int.mul_comm]
  · rw [first, BoundedFifo.take_take_append, List.append_assoc]
    rfl

/-- A write hands over that many messages from the front of its buffer, and puts a
token for each and one more while they fit. -/
theorem ioctlWrite_exact (lib : Interproc) (kernel : Kernel) (buf : Nat → InterprocMsg)
    (len : Nat) (s : Driver) :
    (ioctlWrite lib kernel buf len s).sent =
        ((List.range (len / lib.sizeofMsg)).map buf).take (handedOver lib kernel buf len s) ∧
      (ioctlWrite lib kernel buf len s).state.fifoSendTypes.items =
        (s.fifoSendTypes.items ++ List.replicate (handedOver lib kernel buf len s + 1)
          SentMsg.externalFifo).take 512 := by
  by_cases proceeds : ReachesLoop lib kernel buf len ∧ ∃ device, s.rproc = .ok device
  · obtain ⟨reached, device, target⟩ := proceeds
    obtain ⟨sent, _, tokens⟩ := ioctlWrite_batch lib kernel buf len s reached device target
    have count : handedOver lib kernel buf len s =
        sendsBefore kernel 0 (len / lib.sizeofMsg) := by
      simp [handedOver, target, reached]
    rw [count]
    exact ⟨sent, tokens⟩
  · obtain ⟨silent, nothing⟩ := ioctlWrite_stopped lib kernel buf len s proceeds
    rw [ioctlWrite_silent lib kernel buf len s silent, silent, nothing]
    exact ⟨rfl, BoundedFifo.put_take s.fifoSendTypes .externalFifo⟩

/-- With memory for its block, a write that does not reach the loop returns 0 and
hands over nothing. -/
theorem ioctlWrite_refused (lib : Interproc) (kernel : Kernel) (buf : Nat → InterprocMsg)
    (len : Nat) (s : Driver) (memory : kernel.vmalloc = true)
    (unreached : ¬ ReachesLoop lib kernel buf len) :
    (ioctlWrite lib kernel buf len s).sent = [] ∧
      (ioctlWrite lib kernel buf len s).ret = .ok 0 := by
  obtain ⟨silent, ⟨_, short, _⟩ | ⟨_, returned⟩⟩ :=
    ioctlWrite_unreached lib kernel buf len s unreached
  · rw [memory] at short
    cases short
  · exact ⟨silent, returned⟩

/-- With memory for its block, a write that is turned away for its length, its copy
or a checksum hands over nothing and returns 0. Otherwise it hands over the longest
prefix of its buffer before the first send that fails, in order, and returns the
size of that prefix. The sends of a buffer that is not empty go to a bound device. -/
theorem writes_checked_batches (lib : Interproc) (kernel : Kernel) (buf : Nat → InterprocMsg)
    (len : Nat) (s : Driver) (memory : kernel.vmalloc = true) :
    (¬ lib.sizeofMsg ∣ len ∨ kernel.copyFromUser = false ∨
        (∃ i, i < len / lib.sizeofMsg ∧ lib.crcOk (buf i) = false) →
      (ioctlWrite lib kernel buf len s).sent = [] ∧
        (ioctlWrite lib kernel buf len s).ret = .ok 0) ∧
    (lib.sizeofMsg ∣ len → kernel.copyFromUser = true →
      (∀ i, i < len / lib.sizeofMsg → lib.crcOk (buf i) = true) →
      (len ≠ 0 → ∃ device, s.rproc = .ok device) →
      (ioctlWrite lib kernel buf len s).sent =
          ((List.range (len / lib.sizeofMsg)).map buf).take
            (sendsBefore kernel 0 (len / lib.sizeofMsg)) ∧
        (ioctlWrite lib kernel buf len s).ret =
          .ok (lib.sizeofMsg * sendsBefore kernel 0 (len / lib.sizeofMsg))) := by
  constructor
  · intro rejected
    apply ioctlWrite_refused lib kernel buf len s memory
    rintro ⟨whole, _, copies, checked⟩
    rcases rejected with odd | faulty | ⟨i, inside, mismatch⟩
    · exact odd ((whole_iff lib len).mp whole.2)
    · rw [copies] at faulty
      cases faulty
    · rw [checked i inside] at mismatch
      cases mismatch
  · intro divides copies checked bound
    by_cases empty : len = 0
    · subst empty
      have nothing := ioctlWrite_refused lib kernel buf 0 s memory (fun reached => reached.1.1 rfl)
      simpa [sendsBefore] using nothing
    · have reached : ReachesLoop lib kernel buf len :=
        ⟨⟨empty, (whole_iff lib len).mpr divides⟩, memory, copies, checked⟩
      obtain ⟨device, target⟩ := bound empty
      obtain ⟨sent, ret, _⟩ := ioctlWrite_batch lib kernel buf len s reached device target
      exact ⟨sent, ret⟩

/-- The module loaded and a device probed. -/
def probed : Driver := (rpmsgSampleProbe {} 0 loaded).state

/-- The third send of the operation fails. -/
def thirdSendFails : Kernel := { rpmsgSend := fun i => if i = 2 then -EINVAL else 0 }

/-- The law at a batch of three pings: two are handed over and counted. -/
theorem third_send_cuts_batch :
    (ioctlWrite crc32Interproc thirdSendFails (fun _ => crc32Interproc.stamp .ping Data.zero) 48
        probed).sent =
        [crc32Interproc.stamp .ping Data.zero, crc32Interproc.stamp .ping Data.zero] ∧
      (ioctlWrite crc32Interproc thirdSendFails (fun _ => crc32Interproc.stamp .ping Data.zero) 48
        probed).ret = .ok 32 :=
  (writes_checked_batches crc32Interproc thirdSendFails
    (fun _ => crc32Interproc.stamp .ping Data.zero) 48 probed rfl).2 (by decide) rfl
    (fun _ _ => crc32Interproc.crcOk_stamp .ping Data.zero) (fun _ => ⟨0, rfl⟩)

/-- The write appended one token for each message it handed over. -/
def KeepsCount (lib : Interproc) (kernel : Kernel) (buf : Nat → InterprocMsg) (len : Nat)
    (s : Driver) : Prop :=
  (ioctlWrite lib kernel buf len s).state.fifoSendTypes.items =
    s.fifoSendTypes.items ++
      List.replicate (ioctlWrite lib kernel buf len s).sent.length .externalFifo

/-- No put of a token after a send was refused: the tokens after the first one are
as many as the messages. -/
def RecordsEach (lib : Interproc) (kernel : Kernel) (buf : Nat → InterprocMsg) (len : Nat)
    (s : Driver) : Prop :=
  (ioctlWrite lib kernel buf len s).state.fifoSendTypes.items =
    (s.putSendType .externalFifo).2.fifoSendTypes.items ++
      List.replicate (ioctlWrite lib kernel buf len s).sent.length .externalFifo

/-- What fits of some items and one copy more than `count` is all of them and
`count` copies exactly when that fills the capacity. -/
theorem take_surplus_iff {α : Type} (items : List α) (item : α) (count capacity : Nat)
    (fits : items.length ≤ capacity) :
    (items ++ List.replicate (count + 1) item).take capacity =
        items ++ List.replicate count item ↔ items.length + count = capacity := by
  constructor
  · intro same
    have lengths := congrArg List.length same
    simp only [List.length_take, List.length_append, List.length_replicate] at lengths
    omega
  · intro fills
    rw [List.take_append, List.take_of_length_le fits, List.take_replicate]
    congr 2
    omega

/-- What fits of them is what fits of the items and one copy, and `count` more,
exactly when the last copy still fits or there are none. -/
theorem take_recorded_iff {α : Type} (items : List α) (item : α) (count capacity : Nat)
    (fits : items.length ≤ capacity) :
    (items ++ List.replicate (count + 1) item).take capacity =
        (items ++ [item]).take capacity ++ List.replicate count item ↔
      items.length + count + 1 ≤ capacity ∨ count = 0 := by
  constructor
  · intro same
    have lengths := congrArg List.length same
    simp only [List.length_take, List.length_append, List.length_replicate,
      List.length_singleton] at lengths
    omega
  · rintro (room | rfl)
    · rw [List.take_of_length_le (by simp; omega), List.take_of_length_le (by simp; omega),
        List.append_assoc]
      rfl
    · simp

/-- A write keeps the token count if and only if the messages it hands over are just
as many as there is room in the token queue for: it puts one token too many, and the
full queue refuses it. The put of a message it sends is then refused, unless the
queue was full and nothing was sent. -/
theorem write_keeps_count_iff (lib : Interproc) (kernel : Kernel) (buf : Nat → InterprocMsg)
    (len : Nat) (s : Driver) :
    (KeepsCount lib kernel buf len s ↔
      s.fifoSendTypes.items.length + handedOver lib kernel buf len s = 512) ∧
    (KeepsCount lib kernel buf len s ∧ RecordsEach lib kernel buf len s ↔
      s.fifoSendTypes.items.length = 512 ∧ handedOver lib kernel buf len s = 0) := by
  obtain ⟨sent, tokens⟩ := ioctlWrite_exact lib kernel buf len s
  have fits := s.fifoSendTypes.fits
  have first : (s.putSendType .externalFifo).2.fifoSendTypes.items =
      (s.fifoSendTypes.items ++ [SentMsg.externalFifo]).take 512 :=
    BoundedFifo.put_take s.fifoSendTypes .externalFifo
  have count : (ioctlWrite lib kernel buf len s).sent.length = handedOver lib kernel buf len s := by
    have within := handedOver_le lib kernel buf len s
    rw [sent, List.length_take, List.length_map, List.length_range]
    omega
  have keeps : KeepsCount lib kernel buf len s ↔
      s.fifoSendTypes.items.length + handedOver lib kernel buf len s = 512 := by
    rw [KeepsCount, tokens, count, take_surplus_iff _ _ _ _ fits]
  refine ⟨keeps, ?_⟩
  rw [keeps, RecordsEach, tokens, count, first, take_recorded_iff _ _ _ _ fits]
  omega

/-- The count is not always kept: an empty write sends nothing and leaves a token. -/
theorem empty_write_leaves_token :
    ¬ ∀ (lib : Interproc) (kernel : Kernel) (buf : Nat → InterprocMsg) (len : Nat) (s : Driver),
      KeepsCount lib kernel buf len s := by
  intro law
  have keeps := law crc32Interproc {} (fun _ => crc32Interproc.stamp .ping Data.zero) 0 probed
  exact absurd (congrArg List.length keeps) (by decide)

end Driver

end Stm32Ecu
