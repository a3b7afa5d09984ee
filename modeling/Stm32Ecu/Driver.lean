import Mathlib.Tactic.Ring
import Stm32Ecu.BoundedFifo
import Stm32Ecu.SlotMap
import Stm32Ecu.InterprocMsg

/-!
# The Linux character driver

The state of `stm32ecu.c` and its file operations as functions of that state.
Three structures pair replies with requests: `fifo_send_types` holds one token
for each outstanding message, `fifo_unique_ids` one id for each outstanding
`STM32ECU_SEND_MSG`, and `rx_unique_buffer` the ids given out and the replies
stored under them. Replies to `write()` wait in `fifo_external_msg`.

Whatever the kernel answers to a call the driver makes is an input of the
operation: a user copy that fails, the return value of each `rpmsg_send`, an
allocation without memory. An operation returns its value, the new state, the
messages it handed to the remote and what it copied to the caller. Following
`global_rproc_ref` while it is null, or after its device was removed, ends the
operation with a fault.

Ids are natural numbers; the driver's limits keep them between 1 and 1024. Log
lines and the receive counter are left out, since nothing reads them.
-/

namespace Stm32Ecu

/-- `enum sent_msg_t`: who asked for the message a reply answers. -/
inductive SentMsg where
  | internal
  | externalUnique
  | externalFifo
deriving DecidableEq

/-- A `vmalloc` block that holds one reply. -/
structure Block where
  address : Nat
  msg : InterprocMsg
deriving DecidableEq

/-- The addresses `vmalloc` has handed out and nobody has freed. -/
structure Heap where
  live : List Nat
  fresh : Nat
deriving DecidableEq

/-- An rpmsg device, known to the driver by its address. -/
abbrev Device := Nat

/-- Why an operation does not return: it writes through a null `vmalloc` result, or
follows `global_rproc_ref` to no device or to a removed one. -/
inductive Fault where
  | nullBlock
  | nullDereference
  | useAfterRemove (device : Device)
deriving DecidableEq

/-- The static data of the module, and of the kernel the devices now bound to
the driver. `next` is the static cursor inside `STM32ECU_SEND_MSG`. -/
structure Driver where
  fifoSendTypes : BoundedFifo SentMsg 512
  fifoExternalMsg : BoundedFifo InterprocMsg 256
  fifoUniqueIds : BoundedFifo Nat 256
  rxUniqueBuffer : SlotMap Block
  next : Nat
  value : Int
  globalRprocRef : Option Device
  bound : List Device
  heap : Heap

/-- The kernel's answers to the calls one operation makes. Copies, allocations
and stores answer whether they succeed; `rpmsgSend` gives the return value of
the operation's sends by position. `stackId` is whatever an uninitialised local
id happens to hold, and `partialValue` what a copy that fails part way leaves in
`value`. -/
structure Kernel where
  copyFromUser : Bool := true
  copyToUser : Bool := true
  rpmsgSend : Nat → Int := fun _ => 0
  vmalloc : Bool := true
  xaAlloc : Bool := true
  xaStore : Bool := true
  devmKzalloc : Bool := true
  offline : Bool := false
  stackId : Nat := 0
  partialValue : Int := 0

/-- The commands of `ioctl_call`, with what each reads from its argument. -/
inductive IoctlCmd where
  | reset
  | offline
  | setState (arg : Int)
  | getState
  | pingRproc
  | sendMsg (arg : InterprocMsg)
  | recvMsg (id : Nat)
  | unlisted (cmd : Nat)
deriving DecidableEq

/-- What an operation copies to its caller. -/
inductive Copied where
  | nothing
  | state (value : Int)
  | uid (id : Nat)
  | reply (msg : InterprocMsg)
deriving DecidableEq

/-- What one operation does: its return value or fault, the state it leaves, the
messages it handed to the remote in order, and the data it copied out. -/
structure Outcome where
  ret : Except Fault Int
  state : Driver
  sent : List InterprocMsg := []
  copied : Copied := .nothing

def EAGAIN : Int := 11
def ENOMEM : Int := 12
def EINVAL : Int := 22

namespace Heap

/-- `vmalloc`: null when memory is short, and always for an empty request. -/
def vmalloc (heap : Heap) (available : Bool) (len : Nat) : Option Nat × Heap :=
  if available = true ∧ len ≠ 0 then
    (some heap.fresh, ⟨heap.fresh :: heap.live, heap.fresh + 1⟩)
  else (none, heap)

end Heap

namespace Driver

/-- The module as loading leaves it: empty queues, no device. -/
def loaded : Driver where
  fifoSendTypes := .empty
  fifoExternalMsg := .empty
  fifoUniqueIds := .empty
  rxUniqueBuffer := .empty
  next := 1
  value := 0
  globalRprocRef := none
  bound := []
  heap := ⟨[], 0⟩

/-- Follow `global_rproc_ref`. The pointer itself says nothing about its device:
`rpmsg_sample_remove` leaves it in place. -/
def rproc (s : Driver) : Except Fault Device :=
  match s.globalRprocRef with
  | none => .error .nullDereference
  | some device => if device ∈ s.bound then .ok device else .error (.useAfterRemove device)

/-- `kfifo_put(&fifo_send_types, token)` with its return value. -/
def putSendType (s : Driver) (token : SentMsg) : Bool × Driver :=
  ((s.fifoSendTypes.put token).1, { s with fifoSendTypes := (s.fifoSendTypes.put token).2 })

/-- `kfifo_put(&fifo_unique_ids, id)` with its return value. -/
def putUniqueId (s : Driver) (id : Nat) : Bool × Driver :=
  ((s.fifoUniqueIds.put id).1, { s with fifoUniqueIds := (s.fifoUniqueIds.put id).2 })

/-- `xa_alloc_cyclic(&rx_unique_buffer, &id, NULL, XA_LIMIT(1, 1024), &next, ..)`:
reserve an id, or nothing when all are taken or memory is short. -/
def allocUniqueId (s : Driver) (available : Bool) : Option (Nat × Driver) :=
  if available then
    (s.rxUniqueBuffer.allocCyclic 1 1024 s.next).map (fun (id, buffer, next) =>
      (id, { s with rxUniqueBuffer := buffer, next := next }))
  else none

/-- The transmission loop of `ioctl_write` from message `i` on. A failing send
ends it with the bytes written so far. The token's own put is not checked. -/
def sendLoop (lib : Interproc) (kernel : Kernel) :
    Nat → List InterprocMsg → Driver → Int → Outcome
  | _, [], s, bytesWritten => { ret := .ok bytesWritten, state := s }
  | i, msg :: rest, s, bytesWritten =>
      match s.rproc with
      | .error fault => { ret := .error fault, state := s }
      | .ok _ =>
          if kernel.rpmsgSend i ≠ 0 then { ret := .ok bytesWritten, state := s }
          else
            let after := sendLoop lib kernel (i + 1) rest (s.putSendType .externalFifo).2
              (bytesWritten + lib.sizeofMsg)
            { after with sent := msg :: after.sent }

/-- `ioctl_write`. The user buffer is given by the frame at each index. The first
statement puts a token before anything is checked or sent. -/
def ioctlWrite (lib : Interproc) (kernel : Kernel) (buf : Nat → InterprocMsg) (len : Nat)
    (s : Driver) : Outcome :=
  let s := (s.putSendType .externalFifo).2
  let numMsgs := len / lib.sizeofMsg
  let expectedLen := lib.sizeofMsg * numMsgs
  if len ≠ expectedLen then { ret := .ok 0, state := s }
  else
    let (msgList, heap) := s.heap.vmalloc kernel.vmalloc len
    let s := { s with heap := heap }
    -- Copying into a null block faults unless there is nothing to copy.
    if msgList = none ∧ len ≠ 0 then { ret := .error .nullBlock, state := s }
    else if kernel.copyFromUser = false then { ret := .ok 0, state := s }
    else
      let msgs := (List.range numMsgs).map buf
      if msgs.all lib.crcOk then sendLoop lib kernel 0 msgs s 0
      else { ret := .ok 0, state := s }

/-- `ioctl_call`, case `STM32ECU_PING_RPROC`. The check of the pointer already
reads a field behind it. -/
def ioctlPingRproc (lib : Interproc) (kernel : Kernel) (s : Driver) : Outcome :=
  match s.globalRprocRef with
  | none => { ret := .ok (-EINVAL), state := s }
  | some _ =>
      match s.rproc with
      | .error fault => { ret := .error fault, state := s }
      | .ok _ =>
          if kernel.offline then { ret := .ok (-EINVAL), state := s }
          else
            let msg := lib.stamp .ping Data.zero
            if kernel.rpmsgSend 0 ≠ 0 then { ret := .ok (kernel.rpmsgSend 0), state := s }
            else
              let (accepted, s) := s.putSendType .internal
              if accepted then { ret := .ok 0, state := s, sent := [msg] }
              else { ret := .ok (-EINVAL), state := s, sent := [msg] }

/-- The bookkeeping of `STM32ECU_SEND_MSG` after its send: token, id, queued id,
copy to the caller. Each failure leaves the earlier effects in place. -/
def bookSendMsg (kernel : Kernel) (s : Driver) : Outcome :=
  let (accepted, s) := s.putSendType .externalUnique
  if accepted = false then { ret := .ok (-EINVAL), state := s }
  else
    match s.allocUniqueId kernel.xaAlloc with
    | none => { ret := .ok (-EINVAL), state := s }
    | some (id, s) =>
        let (accepted, s) := s.putUniqueId id
        if accepted = false then { ret := .ok (-EINVAL), state := s }
        else if kernel.copyToUser = false then { ret := .ok (-EINVAL), state := s }
        else { ret := .ok 0, state := s, copied := .uid id }

/-- `ioctl_call`, case `STM32ECU_SEND_MSG`. Neither the pointer nor the caller's
checksum is checked. -/
def ioctlSendMsg (kernel : Kernel) (arg : InterprocMsg) (s : Driver) : Outcome :=
  if kernel.copyFromUser = false then { ret := .ok (-EINVAL), state := s }
  else
    match s.rproc with
    | .error fault => { ret := .error fault, state := s }
    | .ok _ =>
        if kernel.rpmsgSend 0 ≠ 0 then { ret := .ok (kernel.rpmsgSend 0), state := s }
        else { bookSendMsg kernel s with sent := [arg] }

/-- `ioctl_call`, case `STM32ECU_RECV_MSG`. The slot is erased before the copy to
the caller is tried, and the block is not freed. -/
def ioctlRecvMsg (kernel : Kernel) (id : Nat) (s : Driver) : Outcome :=
  if kernel.copyFromUser = false then { ret := .ok (-EINVAL), state := s }
  else
    match s.rxUniqueBuffer.load id with
    | none => { ret := .ok (-EAGAIN), state := s }
    | some block =>
        let s := { s with rxUniqueBuffer := s.rxUniqueBuffer.erase id }
        if kernel.copyToUser = false then { ret := .ok (-EINVAL), state := s }
        else { ret := .ok 0, state := s, copied := .reply block.msg }

/-- `ioctl_call`, case `STM32ECU_SET_STATE`. The copy goes straight to `value`. -/
def ioctlSetState (kernel : Kernel) (arg : Int) (s : Driver) : Outcome :=
  if kernel.copyFromUser = false then
    { ret := .ok (-EINVAL), state := { s with value := kernel.partialValue } }
  else { ret := .ok 0, state := { s with value := arg } }

/-- `ioctl_call`, case `STM32ECU_GET_STATE`. -/
def ioctlGetState (kernel : Kernel) (s : Driver) : Outcome :=
  if kernel.copyToUser = false then { ret := .ok (-EINVAL), state := s }
  else { ret := .ok 0, state := s, copied := .state s.value }

/-- `ioctl_call`. Reset, offline and commands outside the list do nothing. -/
def ioctlCall (lib : Interproc) (kernel : Kernel) (cmd : IoctlCmd) (s : Driver) : Outcome :=
  match cmd with
  | .reset => { ret := .ok 0, state := s }
  | .offline => { ret := .ok 0, state := s }
  | .setState arg => s.ioctlSetState kernel arg
  | .getState => s.ioctlGetState kernel
  | .pingRproc => s.ioctlPingRproc lib kernel
  | .sendMsg arg => s.ioctlSendMsg kernel arg
  | .recvMsg id => s.ioctlRecvMsg kernel id
  | .unlisted _ => { ret := .ok 0, state := s }

/-- `rpmsg_sample_cb`. A frame of another size, or no frame, is ignored. The
token is taken before the checksum is looked at. When the id queue is empty the
local id keeps what the stack held. -/
def rpmsgSampleCb (lib : Interproc) (kernel : Kernel) (data : Option InterprocMsg) (len : Nat)
    (s : Driver) : Outcome :=
  match data with
  | none => { ret := .ok 0, state := s }
  | some msg =>
      if len ≠ lib.sizeofMsg then { ret := .ok 0, state := s }
      else
        match s.fifoSendTypes.get with
        | none => { ret := .ok (-EINVAL), state := s }
        | some (sentType, types) =>
            let s := { s with fifoSendTypes := types }
            if lib.crcOk msg = false then { ret := .ok 0, state := s }
            else
              match sentType with
              | .externalFifo =>
                  let (accepted, queue) := s.fifoExternalMsg.put msg
                  let s := { s with fifoExternalMsg := queue }
                  if accepted then { ret := .ok 0, state := s }
                  else { ret := .ok (-EINVAL), state := s }
              | .externalUnique =>
                  let (id, ids) := match s.fifoUniqueIds.get with
                    | none => (kernel.stackId, s.fifoUniqueIds)
                    | some (id, ids) => (id, ids)
                  let (ptr, heap) := s.heap.vmalloc kernel.vmalloc lib.sizeofMsg
                  let s := { s with fifoUniqueIds := ids, heap := heap }
                  match ptr with
                  | none => { ret := .error .nullBlock, state := s }
                  | some address =>
                      if kernel.xaStore = false then { ret := .ok (-EINVAL), state := s }
                      else
                        { ret := .ok 0
                          state := { s with
                            rxUniqueBuffer := s.rxUniqueBuffer.store id ⟨address, msg⟩ } }
              | .internal => { ret := .ok 0, state := s }

/-- `rpmsg_sample_probe`: on success the newly bound device becomes the target
of every send. A failed probe leaves the device unbound and the pointer alone. -/
def rpmsgSampleProbe (kernel : Kernel) (device : Device) (s : Driver) : Outcome :=
  if kernel.devmKzalloc = false then { ret := .ok (-ENOMEM), state := s }
  else
    { ret := .ok 0
      state := { s with globalRprocRef := some device, bound := device :: s.bound } }

/-- `rpmsg_sample_remove` only logs. The kernel unbinds the device; the driver's
pointer to it stays. -/
def rpmsgSampleRemove (device : Device) (s : Driver) : Outcome :=
  { ret := .ok 0, state := { s with bound := s.bound.filter (· ≠ device) } }

/-- A token is accepted, or the queue is full and nothing changes. -/
theorem putSendType_cases (s : Driver) (token : SentMsg) :
    (∃ after, s.putSendType token = (true, after)) ∨ s.putSendType token = (false, s) := by
  by_cases room : s.fifoSendTypes.items.length < 512
  · exact Or.inl ⟨_, by simp [putSendType, room]; rfl⟩
  · exact Or.inr (by simp [putSendType, room, BoundedFifo.put_full])

/-- An id is accepted, or the queue is full and nothing changes. -/
theorem putUniqueId_cases (s : Driver) (id : Nat) :
    (∃ after, s.putUniqueId id = (true, after)) ∨ s.putUniqueId id = (false, s) := by
  by_cases room : s.fifoUniqueIds.items.length < 256
  · exact Or.inl ⟨_, by simp [putUniqueId, room]; rfl⟩
  · exact Or.inr (by simp [putUniqueId, room, BoundedFifo.put_full])

/-- A pointer that can be followed is not null. -/
theorem rproc_ok (s : Driver) (device : Device) (bound : s.rproc = .ok device) :
    s.globalRprocRef = some device := by
  unfold rproc at bound
  split at bound
  · cases bound
  · rename_i found present
    split at bound
    · rw [present, Except.ok.inj bound]
    · cases bound

/-- Following the pointer never ends with a missing block. -/
theorem rproc_error (s : Driver) (fault : Fault) (failed : s.rproc = .error fault) :
    fault ≠ .nullBlock := by
  unfold rproc at failed
  split at failed
  · rintro rfl
    cases failed
  · split at failed
    · cases failed
    · rintro rfl
      cases failed

/-- Tokens do not move the device pointer, so a loop that only puts tokens keeps
following the same device. -/
@[simp] theorem putSendType_rproc (s : Driver) (token : SentMsg) :
    (s.putSendType token).2.rproc = s.rproc := rfl

/-- A reservation gives a free id between 1 and 1024, marks it reserved and
changes only the id map and its cursor. -/
theorem allocUniqueId_some (s next : Driver) (available : Bool) (id : Nat)
    (taken : s.allocUniqueId available = some (id, next)) :
    1 ≤ id ∧ id ≤ 1024 ∧ s.rxUniqueBuffer.slot id = .free ∧
      next = { s with rxUniqueBuffer := s.rxUniqueBuffer.set id .reserved, next := id + 1 } := by
  unfold allocUniqueId at taken
  split at taken
  · obtain ⟨⟨found, buffer, cursor⟩, search, same⟩ := Option.map_eq_some_iff.mp taken
    obtain ⟨above, below, free, rfl, rfl⟩ := SlotMap.allocCyclic_some _ _ _ _ _ _ _ search
    simp only [Prod.mk.injEq] at same
    obtain ⟨rfl, rfl⟩ := same
    exact ⟨above, below, free, rfl⟩
  · cases taken

/-- The transmission loop changes the token queue only. -/
theorem sendLoop_frame (lib : Interproc) (kernel : Kernel) (i : Nat) (msgs : List InterprocMsg)
    (s : Driver) (bytes : Int) :
    (sendLoop lib kernel i msgs s bytes).state =
      { s with fifoSendTypes := (sendLoop lib kernel i msgs s bytes).state.fifoSendTypes } := by
  induction msgs generalizing i s bytes with
  | nil => rfl
  | cons msg rest ih =>
    simp only [sendLoop]
    split
    · rfl
    · split
      · rfl
      · rw [ih]
        rfl

/-- How many of `count` sends, the first of them the `i`-th of its operation,
succeed before one fails. -/
def sendsBefore (kernel : Kernel) (i count : Nat) : Nat :=
  ((List.range' i count).takeWhile (fun position => kernel.rpmsgSend position = 0)).length

/-- A send that fails ends the count. -/
theorem sendsBefore_failed (kernel : Kernel) (i count : Nat) (failed : kernel.rpmsgSend i ≠ 0) :
    sendsBefore kernel i count = 0 := by
  cases count with
  | zero => rfl
  | succ count => simp [sendsBefore, List.range'_succ, failed]

/-- A send that succeeds counts. -/
theorem sendsBefore_succ (kernel : Kernel) (i count : Nat) (delivered : kernel.rpmsgSend i = 0) :
    sendsBefore kernel i (count + 1) = sendsBefore kernel (i + 1) count + 1 := by
  simp [sendsBefore, List.range'_succ, delivered]

/-- Without a failing send all of them succeed. -/
theorem sendsBefore_all (kernel : Kernel) (i count : Nat)
    (delivered : ∀ position, kernel.rpmsgSend position = 0) :
    sendsBefore kernel i count = count := by
  induction count generalizing i with
  | zero => rfl
  | succ count ih => rw [sendsBefore_succ kernel i count (delivered i), ih]

/-- With a bound device the loop hands over its batch in order until a send fails,
returns the bytes of what it handed over, and puts a token for each message while
they fit. The induction is on the batch. -/
theorem sendLoop_exact (lib : Interproc) (kernel : Kernel) (i : Nat) (msgs : List InterprocMsg)
    (s : Driver) (bytes : Int) (device : Device) (bound : s.rproc = .ok device) :
    (sendLoop lib kernel i msgs s bytes).sent = msgs.take (sendsBefore kernel i msgs.length) ∧
      (sendLoop lib kernel i msgs s bytes).ret =
        .ok (bytes + sendsBefore kernel i msgs.length * lib.sizeofMsg) ∧
      (sendLoop lib kernel i msgs s bytes).state.fifoSendTypes.items =
        (s.fifoSendTypes.items ++
          List.replicate (sendsBefore kernel i msgs.length) SentMsg.externalFifo).take 512 := by
  have whole : s.fifoSendTypes.items.take 512 = s.fifoSendTypes.items :=
    List.take_of_length_le s.fifoSendTypes.fits
  induction msgs generalizing i s bytes with
  | nil => simp [sendLoop, sendsBefore, whole]
  | cons msg rest ih =>
    by_cases failed : kernel.rpmsgSend i ≠ 0
    · simp [sendLoop, bound, failed, sendsBefore_failed, whole]
    · have delivered : kernel.rpmsgSend i = 0 := not_not.mp failed
      have fits := List.take_of_length_le (s.putSendType .externalFifo).2.fifoSendTypes.fits
      obtain ⟨sent, ret, tokens⟩ := ih (i + 1) (s.putSendType .externalFifo).2
        (bytes + lib.sizeofMsg) (by rw [putSendType_rproc]; exact bound) fits
      have added : (s.putSendType .externalFifo).2.fifoSendTypes.items =
          (s.fifoSendTypes.items ++ [SentMsg.externalFifo]).take 512 :=
        BoundedFifo.put_take s.fifoSendTypes .externalFifo
      simp only [sendLoop, bound, delivered, ne_eq, not_true_eq_false, ↓reduceIte,
        List.length_cons, sendsBefore_succ kernel i rest.length delivered]
      refine ⟨by rw [sent, List.take_succ_cons], ?_, ?_⟩
      · rw [ret]
        push_cast
        ring_nf
      · rw [tokens, added, BoundedFifo.take_take_append, List.append_assoc]
        rfl

/-- The loop hands over messages of its batch and nothing else. -/
theorem sendLoop_sent_mem (lib : Interproc) (kernel : Kernel) (i : Nat)
    (msgs : List InterprocMsg) (s : Driver) (bytes : Int) (msg : InterprocMsg)
    (sent : msg ∈ (sendLoop lib kernel i msgs s bytes).sent) : msg ∈ msgs := by
  induction msgs generalizing i s bytes with
  | nil => cases sent
  | cons first rest ih =>
    simp only [sendLoop] at sent
    split at sent
    · cases sent
    · split at sent
      · cases sent
      · rcases List.mem_cons.mp sent with rfl | later
        · exact List.mem_cons_self
        · exact List.mem_cons_of_mem _ (ih _ _ _ later)

/-- The heap after a write: a block is taken for every length of whole messages,
and none is given back. -/
def heapAfterWrite (lib : Interproc) (kernel : Kernel) (len : Nat) (heap : Heap) : Heap :=
  if len = lib.sizeofMsg * (len / lib.sizeofMsg) then (heap.vmalloc kernel.vmalloc len).2
  else heap

/-- A write is rejected, having put its first token and perhaps taken a block, or
runs the transmission loop over the whole buffer from that state. -/
theorem ioctlWrite_cases (lib : Interproc) (kernel : Kernel) (buf : Nat → InterprocMsg)
    (len : Nat) (s : Driver) :
    ((ioctlWrite lib kernel buf len s).sent = [] ∧
      (ioctlWrite lib kernel buf len s).state =
        { (s.putSendType .externalFifo).2 with heap := heapAfterWrite lib kernel len s.heap }) ∨
    ioctlWrite lib kernel buf len s =
      sendLoop lib kernel 0 ((List.range (len / lib.sizeofMsg)).map buf)
        { (s.putSendType .externalFifo).2 with heap := heapAfterWrite lib kernel len s.heap }
        0 := by
  unfold ioctlWrite heapAfterWrite
  dsimp only
  split
  · exact Or.inl ⟨rfl, rfl⟩
  · rename_i even
    rw [if_pos (not_not.mp even)]
    split
    · exact Or.inl ⟨rfl, rfl⟩
    · split
      · exact Or.inl ⟨rfl, rfl⟩
      · split
        · exact Or.inr rfl
        · exact Or.inl ⟨rfl, rfl⟩

/-- The length of a write is that of a whole number of messages, at least one. -/
def WholeMessages (lib : Interproc) (len : Nat) : Prop :=
  len ≠ 0 ∧ len = lib.sizeofMsg * (len / lib.sizeofMsg)

/-- A write gets as far as its first `rpmsg_send`. -/
def ReachesLoop (lib : Interproc) (kernel : Kernel) (buf : Nat → InterprocMsg) (len : Nat) :
    Prop :=
  WholeMessages lib len ∧ kernel.vmalloc = true ∧ kernel.copyFromUser = true ∧
    ∀ i, i < len / lib.sizeofMsg → lib.crcOk (buf i) = true

instance (lib : Interproc) (len : Nat) : Decidable (WholeMessages lib len) :=
  inferInstanceAs (Decidable (_ ∧ _))

instance (lib : Interproc) (kernel : Kernel) (buf : Nat → InterprocMsg) (len : Nat) :
    Decidable (ReachesLoop lib kernel buf len) :=
  inferInstanceAs (Decidable (_ ∧ _))

/-- A length of whole messages holds at least one. -/
theorem WholeMessages.count {lib : Interproc} {len : Nat} (whole : WholeMessages lib len) :
    ∃ count, len / lib.sizeofMsg = count + 1 := by
  apply Nat.exists_eq_succ_of_ne_zero
  intro none_fit
  have empty := whole.2
  rw [none_fit, Nat.mul_zero] at empty
  exact whole.1 empty

/-- A write that reaches the loop runs it over the whole buffer. -/
theorem ioctlWrite_looped (lib : Interproc) (kernel : Kernel) (buf : Nat → InterprocMsg)
    (len : Nat) (s : Driver) (reached : ReachesLoop lib kernel buf len) :
    ioctlWrite lib kernel buf len s =
      sendLoop lib kernel 0 ((List.range (len / lib.sizeofMsg)).map buf)
        { (s.putSendType .externalFifo).2 with heap := heapAfterWrite lib kernel len s.heap }
        0 := by
  obtain ⟨⟨nonzero, whole⟩, memory, copies, checked⟩ := reached
  have allChecked : ((List.range (len / lib.sizeofMsg)).map buf).all lib.crcOk = true := by
    simpa using checked
  simp only [ioctlWrite, heapAfterWrite, ← whole, memory, copies, allChecked, Heap.vmalloc,
    nonzero, ne_eq, not_true_eq_false, not_false_eq_true, and_self, ↓reduceIte, reduceCtorEq,
    false_and]
  rfl

/-- A write that reaches the loop has at least one message there and the device
pointer it was called with. -/
theorem ioctlWrite_reached (lib : Interproc) (kernel : Kernel) (buf : Nat → InterprocMsg)
    (len : Nat) (s : Driver) (reached : ReachesLoop lib kernel buf len) :
    ∃ msg rest state, ioctlWrite lib kernel buf len s =
        sendLoop lib kernel 0 (msg :: rest) state 0 ∧ state.rproc = s.rproc := by
  obtain ⟨count, counted⟩ := reached.1.count
  have batch : (List.range (len / lib.sizeofMsg)).map buf =
      buf 0 :: (List.range count).map (fun i => buf (i + 1)) := by
    rw [counted, List.range_succ_eq_map]
    simp [Function.comp_def]
  have looped := ioctlWrite_looped lib kernel buf len s reached
  rw [batch] at looped
  exact ⟨_, _, _, looped, rfl⟩

/-- `vmalloc` gives no block for a write of some length only when memory is short. -/
theorem vmalloc_none_iff (heap : Heap) (available : Bool) (len : Nat) :
    ((heap.vmalloc available len).1 = none ∧ len ≠ 0) ↔ (len ≠ 0 ∧ available = false) := by
  unfold Heap.vmalloc
  cases available <;> by_cases empty : len = 0 <;> simp [empty]

/-- A write that does not reach the loop sends nothing. It returns, unless it has
no block to copy its messages to. -/
theorem ioctlWrite_unreached (lib : Interproc) (kernel : Kernel) (buf : Nat → InterprocMsg)
    (len : Nat) (s : Driver) (unreached : ¬ ReachesLoop lib kernel buf len) :
    (ioctlWrite lib kernel buf len s).sent = [] ∧
      ((WholeMessages lib len ∧ kernel.vmalloc = false ∧
          (ioctlWrite lib kernel buf len s).ret = .error .nullBlock) ∨
        (¬ (WholeMessages lib len ∧ kernel.vmalloc = false) ∧
          (ioctlWrite lib kernel buf len s).ret = .ok 0)) := by
  unfold ioctlWrite
  dsimp only
  split
  · rename_i odd
    exact ⟨rfl, Or.inr ⟨fun lacks => odd lacks.1.2, rfl⟩⟩
  · rename_i even
    have whole : len = lib.sizeofMsg * (len / lib.sizeofMsg) := not_not.mp even
    split
    · rename_i stops
      have lacks := (vmalloc_none_iff _ _ _).mp stops
      exact ⟨rfl, Or.inl ⟨⟨lacks.1, whole⟩, lacks.2, rfl⟩⟩
    · rename_i proceeds
      have block : ¬ (WholeMessages lib len ∧ kernel.vmalloc = false) := fun lacks =>
        proceeds ((vmalloc_none_iff _ _ _).mpr ⟨lacks.1.1, lacks.2⟩)
      split
      · exact ⟨rfl, Or.inr ⟨block, rfl⟩⟩
      · rename_i copies
        split
        · rename_i checked
          have empty : len = 0 := by
            by_contra nonzero
            refine unreached ⟨⟨nonzero, whole⟩, ?_, ?_, by simpa using checked⟩
            · simpa [WholeMessages, nonzero, ← whole] using block
            · simpa using copies
          subst empty
          simpa [sendLoop] using block
        · exact ⟨rfl, Or.inr ⟨block, rfl⟩⟩

/-- A write takes one block exactly when its length is one of whole messages and
there is memory. -/
theorem heapAfterWrite_cases (lib : Interproc) (kernel : Kernel) (len : Nat) (heap : Heap) :
    (WholeMessages lib len ∧ kernel.vmalloc = true) ∧
        heapAfterWrite lib kernel len heap = ⟨heap.fresh :: heap.live, heap.fresh + 1⟩ ∨
      ¬ (WholeMessages lib len ∧ kernel.vmalloc = true) ∧
        heapAfterWrite lib kernel len heap = heap := by
  by_cases taken : WholeMessages lib len ∧ kernel.vmalloc = true
  · refine Or.inl ⟨taken, ?_⟩
    simp [heapAfterWrite, Heap.vmalloc, taken.2, taken.1.1, ← taken.1.2]
  · refine Or.inr ⟨taken, ?_⟩
    unfold heapAfterWrite
    split
    · rename_i whole
      have short : ¬ (kernel.vmalloc = true ∧ len ≠ 0) :=
        fun both => taken ⟨⟨both.2, whole⟩, both.1⟩
      rw [Heap.vmalloc, if_neg short]
    · rfl

/-- The transmission loop hands over nothing only if it ends at its first message
or has none, and then it has put no token. -/
theorem sendLoop_silent (lib : Interproc) (kernel : Kernel) (i : Nat) (msgs : List InterprocMsg)
    (s : Driver) (bytes : Int) (silent : (sendLoop lib kernel i msgs s bytes).sent = []) :
    (sendLoop lib kernel i msgs s bytes).state = s := by
  cases msgs with
  | nil => rfl
  | cons msg rest =>
    revert silent
    simp only [sendLoop]
    split
    · exact fun _ => rfl
    · split
      · exact fun _ => rfl
      · intro silent
        cases silent

/-- A write that hands over nothing leaves its first token and perhaps a block. -/
theorem ioctlWrite_silent (lib : Interproc) (kernel : Kernel) (buf : Nat → InterprocMsg)
    (len : Nat) (s : Driver) (silent : (ioctlWrite lib kernel buf len s).sent = []) :
    (ioctlWrite lib kernel buf len s).state =
      { (s.putSendType .externalFifo).2 with heap := heapAfterWrite lib kernel len s.heap } := by
  rcases ioctlWrite_cases lib kernel buf len s with ⟨_, state⟩ | looped
  · exact state
  · rw [looped] at silent ⊢
    exact sendLoop_silent _ _ _ _ _ _ silent

/-- A write changes the token queue and the heap only. -/
theorem ioctlWrite_frame (lib : Interproc) (kernel : Kernel) (buf : Nat → InterprocMsg)
    (len : Nat) (s : Driver) :
    ∃ types, (ioctlWrite lib kernel buf len s).state =
      { s with fifoSendTypes := types, heap := heapAfterWrite lib kernel len s.heap } := by
  rcases ioctlWrite_cases lib kernel buf len s with ⟨_, state⟩ | looped
  · exact ⟨_, state⟩
  · rw [looped, sendLoop_frame]
    exact ⟨_, rfl⟩

/-- A write hands over frames of its buffer and nothing else. -/
theorem ioctlWrite_sent_mem (lib : Interproc) (kernel : Kernel) (buf : Nat → InterprocMsg)
    (len : Nat) (s : Driver) (msg : InterprocMsg)
    (sent : msg ∈ (ioctlWrite lib kernel buf len s).sent) :
    ∃ i, i < len / lib.sizeofMsg ∧ buf i = msg := by
  rcases ioctlWrite_cases lib kernel buf len s with ⟨none_sent, _⟩ | looped
  · rw [none_sent] at sent
    cases sent
  · rw [looped] at sent
    simpa using sendLoop_sent_mem _ _ _ _ _ _ _ sent

/-- A write that meets a bound device, memory, and no failing send puts one token
for the call and one for every message it hands over, whatever its length and
contents: the rejected calls hand over nothing and still leave their token. -/
theorem ioctlWrite_tokens (lib : Interproc) (kernel : Kernel) (buf : Nat → InterprocMsg)
    (len : Nat) (s : Driver) (device : Device) (bound : s.rproc = .ok device)
    (delivered : ∀ position, kernel.rpmsgSend position = 0)
    (room : s.fifoSendTypes.items.length + 1 +
      (ioctlWrite lib kernel buf len s).sent.length ≤ 512) :
    (ioctlWrite lib kernel buf len s).state.fifoSendTypes.items =
      s.fifoSendTypes.items ++ .externalFifo ::
        List.replicate (ioctlWrite lib kernel buf len s).sent.length .externalFifo := by
  have first : s.fifoSendTypes.items.length < 512 := by omega
  have added : (s.putSendType .externalFifo).2.fifoSendTypes.items =
      s.fifoSendTypes.items ++ [.externalFifo] :=
    BoundedFifo.put_items s.fifoSendTypes .externalFifo first
  rcases ioctlWrite_cases lib kernel buf len s with ⟨sent, state⟩ | looped
  · simp [sent, state, added]
  · obtain ⟨sent, _, tokens⟩ := sendLoop_exact lib kernel 0
      ((List.range (len / lib.sizeofMsg)).map buf)
      { (s.putSendType .externalFifo).2 with heap := heapAfterWrite lib kernel len s.heap } 0
      device bound
    rw [sendsBefore_all kernel _ _ delivered] at sent tokens
    rw [List.take_length] at sent
    rw [looped, sent] at room ⊢
    rw [tokens, added, List.take_of_length_le]
    · simp
    · rw [List.length_append, List.length_append, List.length_replicate]
      exact room

/-- A ping either hands nothing over and changes nothing, or hands over the ping
frame and tries to put its token; it fails after the send only when the token
queue is full. -/
theorem ioctlPingRproc_cases (lib : Interproc) (kernel : Kernel) (s : Driver) :
    ((ioctlPingRproc lib kernel s).sent = [] ∧ (ioctlPingRproc lib kernel s).state = s) ∨
    ((ioctlPingRproc lib kernel s).sent = [lib.stamp .ping Data.zero] ∧
      (ioctlPingRproc lib kernel s).state = (s.putSendType .internal).2 ∧
      (ioctlPingRproc lib kernel s).ret =
        .ok (if s.fifoSendTypes.items.length < 512 then 0 else -EINVAL)) := by
  unfold ioctlPingRproc
  split
  · exact Or.inl ⟨rfl, rfl⟩
  · split
    · exact Or.inl ⟨rfl, rfl⟩
    · split
      · exact Or.inl ⟨rfl, rfl⟩
      · dsimp only
        split
        · exact Or.inl ⟨rfl, rfl⟩
        · refine Or.inr ?_
          by_cases room : s.fifoSendTypes.items.length < 512 <;>
            simp [putSendType, room]

/-- A send either hands nothing over and changes nothing, or hands over exactly
the caller's frame and does its bookkeeping. -/
theorem ioctlSendMsg_cases (kernel : Kernel) (arg : InterprocMsg) (s : Driver) :
    ((ioctlSendMsg kernel arg s).sent = [] ∧ (ioctlSendMsg kernel arg s).state = s) ∨
    (ioctlSendMsg kernel arg s = { bookSendMsg kernel s with sent := [arg] }) := by
  unfold ioctlSendMsg
  split
  · exact Or.inl ⟨rfl, rfl⟩
  · split
    · exact Or.inl ⟨rfl, rfl⟩
    · split
      · exact Or.inl ⟨rfl, rfl⟩
      · exact Or.inr rfl

/-- Of the ioctls only a ping and a send hand anything over: the ping frame, or the
caller's frame as it is. -/
theorem ioctlCall_sent_mem (lib : Interproc) (kernel : Kernel) (cmd : IoctlCmd) (s : Driver)
    (msg : InterprocMsg) (sent : msg ∈ (ioctlCall lib kernel cmd s).sent) :
    cmd = .pingRproc ∧ msg = lib.stamp .ping Data.zero ∨ cmd = .sendMsg msg := by
  cases cmd with
  | pingRproc =>
    simp only [ioctlCall] at sent
    rcases ioctlPingRproc_cases lib kernel s with ⟨none_sent, _⟩ | ⟨one, _⟩
    · rw [none_sent] at sent
      cases sent
    · rw [one, List.mem_singleton] at sent
      exact Or.inl ⟨rfl, sent⟩
  | sendMsg arg =>
    simp only [ioctlCall] at sent
    rcases ioctlSendMsg_cases kernel arg s with ⟨none_sent, _⟩ | booked
    · rw [none_sent] at sent
      cases sent
    · rw [booked, List.mem_singleton] at sent
      exact Or.inr (by rw [sent])
  | setState arg =>
    simp only [ioctlCall, ioctlSetState] at sent
    split at sent <;> cases sent
  | getState =>
    simp only [ioctlCall, ioctlGetState] at sent
    split at sent <;> cases sent
  | recvMsg id =>
    simp only [ioctlCall, ioctlRecvMsg] at sent
    split at sent
    · cases sent
    · split at sent
      · cases sent
      · split at sent <;> cases sent
  | reset => cases sent
  | offline => cases sent
  | unlisted cmd => cases sent

/-- Bookkeeping that returns zero queued one token and one id, the id having been
free and now reserved, and copied that id to the caller. -/
theorem bookSendMsg_zero (kernel : Kernel) (s : Driver)
    (returned : (bookSendMsg kernel s).ret = .ok 0) :
    ∃ id types ids,
      types.items = s.fifoSendTypes.items ++ [.externalUnique] ∧
      ids.items = s.fifoUniqueIds.items ++ [id] ∧
      1 ≤ id ∧ id ≤ 1024 ∧ s.rxUniqueBuffer.slot id = .free ∧
      (bookSendMsg kernel s).copied = .uid id ∧
      (bookSendMsg kernel s).state = { s with
        fifoSendTypes := types
        fifoUniqueIds := ids
        rxUniqueBuffer := s.rxUniqueBuffer.set id .reserved
        next := id + 1 } := by
  revert returned
  unfold bookSendMsg
  dsimp only
  split
  · simp [EINVAL]
  · rename_i tokenTaken
    have tokenRoom : s.fifoSendTypes.items.length < 512 := by
      simpa [putSendType] using tokenTaken
    split
    · simp [EINVAL]
    · rename_i id reserved taken
      obtain ⟨above, below, free, rfl⟩ := allocUniqueId_some _ _ _ _ taken
      split
      · simp [EINVAL]
      · rename_i idTaken
        have idRoom : s.fifoUniqueIds.items.length < 256 := by
          simpa [putUniqueId, putSendType] using idTaken
        split
        · simp [EINVAL]
        · intro _
          exact ⟨id, _, _, BoundedFifo.put_items _ _ tokenRoom,
            BoundedFifo.put_items _ _ idRoom, above, below, free, rfl, rfl⟩

/-- Bookkeeping always returns. -/
theorem bookSendMsg_ret (kernel : Kernel) (s : Driver) :
    ∃ ret, (bookSendMsg kernel s).ret = .ok ret := by
  unfold bookSendMsg
  dsimp only
  split
  · exact ⟨_, rfl⟩
  · split
    · exact ⟨_, rfl⟩
    · split
      · exact ⟨_, rfl⟩
      · split <;> exact ⟨_, rfl⟩

/-- Bookkeeping touches neither the device pointer nor the bindings. -/
theorem bookSendMsg_device (kernel : Kernel) (s : Driver) :
    (bookSendMsg kernel s).state.globalRprocRef = s.globalRprocRef ∧
      (bookSendMsg kernel s).state.bound = s.bound := by
  unfold bookSendMsg
  dsimp only
  split
  · exact ⟨rfl, rfl⟩
  · split
    · exact ⟨rfl, rfl⟩
    · rename_i id reserved taken
      obtain ⟨_, _, _, rfl⟩ := allocUniqueId_some _ _ _ _ taken
      split
      · exact ⟨rfl, rfl⟩
      · split <;> exact ⟨rfl, rfl⟩

/-- With room for the token and the id, a free id and memory for it, and a copy
that succeeds, the bookkeeping returns zero. -/
theorem bookSendMsg_returns (kernel : Kernel) (s : Driver) (memory : kernel.xaAlloc = true)
    (copies : kernel.copyToUser = true) (tokenRoom : s.fifoSendTypes.items.length < 512)
    (idRoom : s.fifoUniqueIds.items.length < 256)
    (free : ∃ id, 1 ≤ id ∧ id ≤ 1024 ∧ s.rxUniqueBuffer.slot id = .free) :
    (bookSendMsg kernel s).ret = .ok 0 := by
  obtain ⟨id, above, below, isFree⟩ := free
  have available : s.rxUniqueBuffer.allocCyclic 1 1024 s.next ≠ none := by
    rw [ne_eq, SlotMap.allocCyclic_none_iff]
    intro taken
    exact taken id above below isFree
  obtain ⟨⟨found, buffer, next⟩, reserved⟩ := Option.ne_none_iff_exists'.mp available
  simp [bookSendMsg, putSendType, tokenRoom, allocUniqueId, memory, reserved, putUniqueId,
    idRoom, copies]

/-- A fetch that returns zero found a stored reply, copied it out and freed the
id. -/
theorem ioctlRecvMsg_zero (kernel : Kernel) (id : Nat) (s : Driver)
    (returned : (ioctlRecvMsg kernel id s).ret = .ok 0) :
    ∃ block, s.rxUniqueBuffer.slot id = .filled block ∧
      (ioctlRecvMsg kernel id s).copied = .reply block.msg ∧
      (ioctlRecvMsg kernel id s).state =
        { s with rxUniqueBuffer := s.rxUniqueBuffer.erase id } := by
  revert returned
  unfold ioctlRecvMsg
  split
  · simp [EINVAL]
  · split
    · simp [EAGAIN]
    · rename_i block found
      dsimp only
      split
      · simp [EINVAL]
      · intro _
        exact ⟨block, SlotMap.slot_of_load _ _ _ found, rfl, rfl⟩

/-- Unless the copy to the caller fails, a fetch that does not return zero leaves
the driver as it was. -/
theorem ioctlRecvMsg_nonzero (kernel : Kernel) (id : Nat) (s : Driver)
    (copies : kernel.copyToUser = true)
    (returned : (ioctlRecvMsg kernel id s).ret ≠ .ok 0) :
    (ioctlRecvMsg kernel id s).state = s := by
  revert returned
  unfold ioctlRecvMsg
  split
  · simp
  · split
    · simp
    · simp [copies]

/-- A frame that is missing or of another size changes nothing. -/
theorem rpmsgSampleCb_ignored (lib : Interproc) (kernel : Kernel) (data : Option InterprocMsg)
    (len : Nat) (s : Driver) (ignored : ∀ msg, data = some msg → len ≠ lib.sizeofMsg) :
    rpmsgSampleCb lib kernel data len s = { ret := .ok 0, state := s } := by
  cases data with
  | none => rfl
  | some msg => simp [rpmsgSampleCb, ignored msg rfl]

section Callback

variable (lib : Interproc) (kernel : Kernel) (msg : InterprocMsg) (s : Driver)
  (rest : List SentMsg)

/-- A valid reply under a write token goes to the end of the read queue. -/
theorem rpmsgSampleCb_fifo (valid : lib.crcOk msg = true)
    (head : s.fifoSendTypes.items = .externalFifo :: rest)
    (room : s.fifoExternalMsg.items.length < 256) :
    ∃ types queue, types.items = rest ∧ queue.items = s.fifoExternalMsg.items ++ [msg] ∧
      rpmsgSampleCb lib kernel (some msg) lib.sizeofMsg s =
        { ret := .ok 0, state := { s with fifoSendTypes := types, fifoExternalMsg := queue } } := by
  obtain ⟨types, taken, remaining⟩ := BoundedFifo.get_items _ _ _ head
  refine ⟨types, (s.fifoExternalMsg.put msg).2, remaining, BoundedFifo.put_items _ _ room, ?_⟩
  simp [rpmsgSampleCb, taken, valid, room]

/-- A valid reply under a ping token is dropped. -/
theorem rpmsgSampleCb_internal (valid : lib.crcOk msg = true)
    (head : s.fifoSendTypes.items = .internal :: rest) :
    ∃ types, types.items = rest ∧
      rpmsgSampleCb lib kernel (some msg) lib.sizeofMsg s =
        { ret := .ok 0, state := { s with fifoSendTypes := types } } := by
  obtain ⟨types, taken, remaining⟩ := BoundedFifo.get_items _ _ _ head
  exact ⟨types, remaining, by simp [rpmsgSampleCb, taken, valid]⟩

/-- The id a reply is stored under and the queue behind it. Without a queued id the
local keeps what the stack held. -/
def takeUniqueId : Nat × BoundedFifo Nat 256 :=
  match s.fifoUniqueIds.get with
  | none => (kernel.stackId, s.fifoUniqueIds)
  | some (id, ids) => (id, ids)

/-- The id at the head leaves its queue. -/
theorem takeUniqueId_queue : (s.takeUniqueId kernel).2.items = s.fifoUniqueIds.items.tail := by
  cases held : s.fifoUniqueIds.items with
  | nil => simp [takeUniqueId, BoundedFifo.get_empty _ held, held]
  | cons first others =>
    obtain ⟨after, found, left⟩ := BoundedFifo.get_items _ _ _ held
    simp [takeUniqueId, found, left]

/-- From an empty queue the id is what was on the stack. -/
theorem takeUniqueId_id :
    (s.takeUniqueId kernel).1 = s.fifoUniqueIds.items.headD kernel.stackId := by
  cases held : s.fifoUniqueIds.items with
  | nil => simp [takeUniqueId, BoundedFifo.get_empty _ held]
  | cons first others =>
    obtain ⟨after, found, left⟩ := BoundedFifo.get_items _ _ _ held
    simp [takeUniqueId, found]

/-- What the branch for `SENT_MSG_EXTERNAL_UNIQUE` leaves once the token is taken.
The id is gone whatever happens next, and a block whose store fails stays taken. -/
def storeUnique : Outcome :=
  let (id, ids) := s.takeUniqueId kernel
  if kernel.vmalloc = false then
    { ret := .error .nullBlock, state := { s with fifoUniqueIds := ids } }
  else if kernel.xaStore = false then
    { ret := .ok (-EINVAL)
      state := { s with
        fifoUniqueIds := ids
        heap := ⟨s.heap.fresh :: s.heap.live, s.heap.fresh + 1⟩ } }
  else
    { ret := .ok 0
      state := { s with
        fifoUniqueIds := ids
        heap := ⟨s.heap.fresh :: s.heap.live, s.heap.fresh + 1⟩
        rxUniqueBuffer := s.rxUniqueBuffer.store id ⟨s.heap.fresh, msg⟩ } }

/-- A valid reply under a send token takes the token and goes to be stored. -/
theorem rpmsgSampleCb_send (valid : lib.crcOk msg = true)
    (head : s.fifoSendTypes.items = .externalUnique :: rest) :
    ∃ types, types.items = rest ∧
      rpmsgSampleCb lib kernel (some msg) lib.sizeofMsg s =
        storeUnique kernel msg { s with fifoSendTypes := types } := by
  obtain ⟨types, taken, remaining⟩ := BoundedFifo.get_items _ _ _ head
  have size : lib.sizeofMsg ≠ 0 := Nat.ne_of_gt lib.sizeofMsg_pos
  refine ⟨types, remaining, ?_⟩
  cases memory : kernel.vmalloc <;> cases stores : kernel.xaStore <;>
    simp [rpmsgSampleCb, storeUnique, takeUniqueId, taken, valid, Heap.vmalloc, memory, stores,
      size]

/-- Whatever memory and the store answer, the queue of ids has lost its head. -/
theorem storeUnique_queues :
    (storeUnique kernel msg s).state.fifoSendTypes = s.fifoSendTypes ∧
      (storeUnique kernel msg s).state.fifoUniqueIds.items = s.fifoUniqueIds.items.tail := by
  unfold storeUnique
  dsimp only
  split
  · exact ⟨rfl, takeUniqueId_queue kernel s⟩
  · split
    · exact ⟨rfl, takeUniqueId_queue kernel s⟩
    · exact ⟨rfl, takeUniqueId_queue kernel s⟩

/-- A reply stored is not copied to the user yet. -/
theorem storeUnique_copied : (storeUnique kernel msg s).copied = .nothing := by
  unfold storeUnique
  dsimp only
  split
  · rfl
  · split
    · rfl
    · rfl

/-- The reply is stored exactly when it gets a block and the store succeeds. -/
theorem storeUnique_buffer :
    (storeUnique kernel msg s).state.rxUniqueBuffer =
      if kernel.vmalloc = true ∧ kernel.xaStore = true then
        s.rxUniqueBuffer.store (s.takeUniqueId kernel).1 ⟨s.heap.fresh, msg⟩
      else s.rxUniqueBuffer := by
  cases memory : kernel.vmalloc <;> cases stores : kernel.xaStore <;>
    simp [storeUnique, memory, stores]

/-- A full-size frame that is no valid reply to a send takes its token and touches
at most the read queue. -/
theorem rpmsgSampleCb_plain (token : SentMsg) (head : s.fifoSendTypes.items = token :: rest)
    (plain : ¬ (token = .externalUnique ∧ lib.crcOk msg = true)) :
    ∃ ret types queue, types.items = rest ∧
      rpmsgSampleCb lib kernel (some msg) lib.sizeofMsg s =
        { ret := .ok ret
          state := { s with fifoSendTypes := types, fifoExternalMsg := queue } } := by
  obtain ⟨types, taken, remaining⟩ := BoundedFifo.get_items _ _ _ head
  cases valid : lib.crcOk msg with
  | false => exact ⟨0, types, s.fifoExternalMsg, remaining, by simp [rpmsgSampleCb, taken, valid]⟩
  | true =>
    cases token with
    | internal =>
      exact ⟨0, types, s.fifoExternalMsg, remaining, by simp [rpmsgSampleCb, taken, valid]⟩
    | externalUnique => exact absurd ⟨rfl, valid⟩ plain
    | externalFifo =>
      simp only [rpmsgSampleCb, taken, valid, ne_eq, not_true_eq_false, ↓reduceIte, reduceCtorEq]
      split
      · exact ⟨0, types, _, remaining, rfl⟩
      · exact ⟨-EINVAL, types, _, remaining, rfl⟩

/-- Whatever memory and the store answer, a valid reply takes one token, and one
id as well when the token is a send's. -/
theorem rpmsgSampleCb_queues (token : SentMsg) (valid : lib.crcOk msg = true)
    (head : s.fifoSendTypes.items = token :: rest) :
    (rpmsgSampleCb lib kernel (some msg) lib.sizeofMsg s).state.fifoSendTypes.items = rest ∧
      (rpmsgSampleCb lib kernel (some msg) lib.sizeofMsg s).state.fifoUniqueIds.items =
        if token = .externalUnique then s.fifoUniqueIds.items.tail
        else s.fifoUniqueIds.items := by
  by_cases isSend : token = .externalUnique
  · subst isSend
    obtain ⟨types, remaining, handled⟩ := rpmsgSampleCb_send lib kernel msg s rest valid head
    obtain ⟨sameTypes, ids⟩ := storeUnique_queues kernel msg { s with fifoSendTypes := types }
    rw [handled, sameTypes, ids]
    exact ⟨remaining, rfl⟩
  · obtain ⟨ret, types, queue, remaining, handled⟩ := rpmsgSampleCb_plain lib kernel msg s rest
      token head (fun both => isSend both.1)
    rw [handled, if_neg isSend]
    exact ⟨remaining, rfl⟩

/-- A valid reply under a send token is stored in a fresh block under the oldest
queued id. -/
theorem rpmsgSampleCb_unique (id : Nat) (others : List Nat) (valid : lib.crcOk msg = true)
    (memory : kernel.vmalloc = true) (stores : kernel.xaStore = true)
    (head : s.fifoSendTypes.items = .externalUnique :: rest)
    (queued : s.fifoUniqueIds.items = id :: others) :
    ∃ types ids heap address, types.items = rest ∧ ids.items = others ∧
      rpmsgSampleCb lib kernel (some msg) lib.sizeofMsg s =
        { ret := .ok 0
          state := { s with
            fifoSendTypes := types
            fifoUniqueIds := ids
            heap := heap
            rxUniqueBuffer := s.rxUniqueBuffer.store id ⟨address, msg⟩ } } := by
  obtain ⟨types, remaining, handled⟩ := rpmsgSampleCb_send lib kernel msg s rest valid head
  obtain ⟨ids, dequeued, behind⟩ := BoundedFifo.get_items _ _ _ queued
  refine ⟨types, ids, ⟨s.heap.fresh :: s.heap.live, s.heap.fresh + 1⟩, s.heap.fresh,
    remaining, behind, ?_⟩
  rw [handled]
  simp [storeUnique, takeUniqueId, dequeued, memory, stores]

end Callback

end Driver

end Stm32Ecu
