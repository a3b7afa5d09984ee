import Stm32Ecu.Parameters
import Stm32Ecu.Server

/-!
# The request `sendMsg` and its wait for a reply

`sendMsg` asks the remote for a parameter and fetches the reply by the id it was
given. One buffer serves in turn as the request, as the carrier of the id, and as the
reply. The loop around the fetch is meant to try again while the reply is not there:
it compares the value of `ioctl` with `-EAGAIN`, ten times at most.

That is the value the driver returns. The caller of libc never sees it: a failing
`ioctl` returns `-1`, and the code is in `errno`, which the handler does not read. So
the loop ends at its first attempt, and a reply that is not there by then is never
fetched. Under the driver's own convention the same loop does wait.
-/

namespace Stm32Ecu

/-- The first four bytes of the frame in memory, where `STM32ECU_SEND_MSG` puts the id
and `STM32ECU_RECV_MSG` takes it from. The layout is the shared header's. -/
structure FirstWord where
  read : InterprocMsg → UInt32
  write : UInt32 → InterprocMsg → InterprocMsg
  read_write : ∀ id msg, read (write id msg) = id

/-- The value of `ioctl` to a caller of libc, from the error of the call if there is
one. The code itself goes to `errno`. -/
def libcStatus : Option Int → Int
  | none => 0
  | some _ => -1

/-- The value of the same call inside the kernel. -/
def kernelStatus : Option Int → Int
  | none => 0
  | some errno => -errno

/-- The error of a call. -/
def failure {α : Type} : Except Int α → Option Int
  | .ok _ => none
  | .error errno => some errno

/-- The fields `sendMsg` sets in its response. -/
structure Response where
  command : Nat
  data : List UInt8
  checksum : UInt32
deriving DecidableEq

/-- The response made from the buffer. The command is cast without change. -/
def Response.of (msg : InterprocMsg) : Response :=
  ⟨msg.command.code, msg.data.toList, msg.checksum⟩

/-- What a call of `sendMsg` comes to: its status, its response if it set one, and the
ids it passed to `STM32ECU_RECV_MSG` in order. -/
structure SendMsgRun where
  status : GrpcStatus
  response : Option Response
  passed : List UInt32
deriving DecidableEq

/-- The loop goes on at most ten times. -/
theorem afterRecv_receiving {loopCount next : Nat} {status : Int}
    (again : afterRecv loopCount status = .receiving next) :
    status = -EAGAIN ∧ loopCount < 10 ∧ next = loopCount + 1 := by
  unfold afterRecv at again
  split at again
  · rename_i retries
    exact ⟨retries.1, retries.2, (RpcPc.receiving.inj again).symm⟩
  · split at again
    · cases again
    · split at again
      · cases again
      · split at again
        · cases again
        · cases again

/-- The loop of `sendMsg` from one attempt on, and what follows it. An attempt passes
the first word of the buffer; a delivery overwrites the buffer, and a failure to find
the reply leaves it. -/
def receive (wrapper : Option Int → Int) (word : FirstWord)
    (results : Nat → Except Int InterprocMsg) (loopCount : Nat) (msg : InterprocMsg) :
    SendMsgRun :=
  let buffer := match results loopCount with
    | .ok reply => reply
    | .error _ => msg
  match _ : afterRecv loopCount (wrapper (failure (results loopCount))) with
  | .receiving next =>
      let rest := receive wrapper word results next buffer
      { rest with passed := word.read msg :: rest.passed }
  | .returned .ok => ⟨.ok, some (Response.of buffer), [word.read msg]⟩
  | _ => ⟨.cancelled, none, [word.read msg]⟩
termination_by 10 - loopCount
decreasing_by
  rename_i again
  obtain ⟨_, below, rfl⟩ := afterRecv_receiving again
  omega

/-- `RouteGuideImpl::sendMsg`: the request for the double `"position"`, with the result
of its `STM32ECU_SEND_MSG` and of each `STM32ECU_RECV_MSG`. -/
def sendMsg (wrapper : Option Int → Int) (lib : Interproc) (word : FirstWord) (doubleTag : UInt8)
    (sent : Except Int UInt32) (results : Nat → Except Int InterprocMsg) : SendMsgRun :=
  let msg := RpmsgManager.paramRequest lib doubleTag RpmsgManager.position
  let buffer := match sent with
    | .ok id => word.write id msg
    | .error _ => msg
  match Rpc.sendMsg.afterIoctl (wrapper (failure sent)) with
  | .receiving loopCount => receive wrapper word results loopCount buffer
  | _ => ⟨.cancelled, none, []⟩

section Attempts

variable (wrapper : Option Int → Int) (word : FirstWord) (results : Nat → Except Int InterprocMsg)
  (loopCount : Nat) (msg : InterprocMsg)

/-- An attempt that is told to try again is followed by the next one, with the buffer
as it was. -/
theorem receive_again (errno : Int) (failed : results loopCount = .error errno)
    (again : wrapper (some errno) = -EAGAIN) (below : loopCount < 10) :
    receive wrapper word results loopCount msg =
      { receive wrapper word results (loopCount + 1) msg with
        passed := word.read msg :: (receive wrapper word results (loopCount + 1) msg).passed } := by
  have goes : afterRecv loopCount (wrapper (failure (results loopCount))) =
      .receiving (loopCount + 1) := by
    simp [afterRecv, failed, failure, again, below]
  rw [receive]
  split
  · rename_i next taken
    obtain rfl := RpcPc.receiving.inj (goes.symm.trans taken)
    simp only [failed]
  · rename_i taken
    cases goes.symm.trans taken
  · rename_i notAgain _
    exact absurd goes (notAgain _)

/-- An attempt that delivers ends the loop with its message. -/
theorem receive_delivered (reply : InterprocMsg) (delivered : results loopCount = .ok reply)
    (succeeds : wrapper none = 0) :
    receive wrapper word results loopCount msg =
      ⟨.ok, some (Response.of reply), [word.read msg]⟩ := by
  have goes : afterRecv loopCount (wrapper (failure (results loopCount))) = .returned .ok := by
    simp [afterRecv, delivered, failure, succeeds, EAGAIN, EINVAL]
  rw [receive]
  split
  · rename_i next taken
    cases goes.symm.trans taken
  · simp only [delivered]
  · rename_i _ notOk
    exact absurd goes notOk

/-- An attempt that fails in another way, or for the eleventh time, ends the loop
without a response. -/
theorem receive_failed (errno : Int) (failed : results loopCount = .error errno)
    (negative : wrapper (some errno) < 0)
    (stops : wrapper (some errno) ≠ -EAGAIN ∨ 10 ≤ loopCount) :
    receive wrapper word results loopCount msg = ⟨.cancelled, none, [word.read msg]⟩ := by
  have goes : afterRecv loopCount (wrapper (failure (results loopCount))) = .closing := by
    have spent : ¬ (wrapper (some errno) = -EAGAIN ∧ loopCount < 10) := by omega
    simp only [afterRecv, failed, failure, if_neg spent, if_pos negative, ite_self]
  rw [receive]
  split
  · rename_i next taken
    cases goes.symm.trans taken
  · rename_i taken
    cases goes.symm.trans taken
  · rfl

/-- Attempts that are told to try again are passed over, each with the same id. The
induction is on their number. -/
theorem receive_skips (again : wrapper (some EAGAIN) = -EAGAIN) (count : Nat)
    (below : loopCount + count ≤ 10)
    (early : ∀ k, loopCount ≤ k → k < loopCount + count → results k = .error EAGAIN) :
    receive wrapper word results loopCount msg =
      { receive wrapper word results (loopCount + count) msg with
        passed := List.replicate count (word.read msg) ++
          (receive wrapper word results (loopCount + count) msg).passed } := by
  induction count generalizing loopCount with
  | zero => simp
  | succ count ih =>
    have first : results loopCount = .error EAGAIN := early loopCount (Nat.le_refl _) (by omega)
    have others := ih (loopCount + 1) (by omega) (fun k above within =>
      early k (by omega) (by omega))
    rw [receive_again wrapper word results loopCount msg EAGAIN first again (by omega), others,
      Nat.add_right_comm, Nat.add_assoc, List.replicate_succ, List.cons_append]

end Attempts

/-- The attempt delivers this message, and all before it found no reply yet. -/
def AnsweredAt (results : Nat → Except Int InterprocMsg) (k : Nat) (msg : InterprocMsg) : Prop :=
  results k = .ok msg ∧ ∀ j, j < k → results j = .error EAGAIN

/-- `sendMsg` waits for its reply: after an accepted send it answers with the message
of the first attempt that finds one, if that is one of eleven and the others found
none yet, and is cancelled otherwise. Every attempt passes the id of the send. -/
structure WaitsForReply (wrapper : Option Int → Int) (lib : Interproc) (word : FirstWord)
    (doubleTag : UInt8) (results : Nat → Except Int InterprocMsg) : Prop where
  answered : ∀ id k msg, k < 11 → AnsweredAt results k msg →
    (sendMsg wrapper lib word doubleTag (.ok id) results).status = .ok ∧
      (sendMsg wrapper lib word doubleTag (.ok id) results).response = some (Response.of msg)
  unanswered : ∀ id, (¬ ∃ k msg, k < 11 ∧ AnsweredAt results k msg) →
    (sendMsg wrapper lib word doubleTag (.ok id) results).status = .cancelled
  sameId : ∀ id, ∀ passed ∈ (sendMsg wrapper lib word doubleTag (.ok id) results).passed,
    passed = id

section Calls

variable (lib : Interproc) (word : FirstWord) (doubleTag : UInt8)
  (results : Nat → Except Int InterprocMsg)

/-- After an accepted send the loop begins with the id in the buffer. -/
theorem sendMsg_accepted (wrapper : Option Int → Int) (succeeds : wrapper none = 0)
    (id : UInt32) :
    ∃ msg, word.read msg = id ∧
      sendMsg wrapper lib word doubleTag (.ok id) results = receive wrapper word results 0 msg := by
  refine ⟨word.write id (RpmsgManager.paramRequest lib doubleTag RpmsgManager.position),
    word.read_write id _, ?_⟩
  have accepted : Rpc.sendMsg.afterIoctl 0 = .receiving 0 := by decide
  simp only [sendMsg, failure, succeeds, accepted]

/-- The first attempt decides: libc never gives the value the loop compares with. -/
theorem first_attempt_decides (id : UInt32) :
    (∃ msg, results 0 = .ok msg ∧ sendMsg libcStatus lib word doubleTag (.ok id) results =
        ⟨.ok, some (Response.of msg), [id]⟩) ∨
      ∃ errno, results 0 = .error errno ∧
        sendMsg libcStatus lib word doubleTag (.ok id) results = ⟨.cancelled, none, [id]⟩ := by
  obtain ⟨buffer, carried, begins⟩ := sendMsg_accepted lib word doubleTag results libcStatus rfl id
  rw [begins, ← carried]
  cases first : results 0 with
  | ok msg =>
    exact Or.inl ⟨msg, rfl, receive_delivered libcStatus word results 0 buffer msg first rfl⟩
  | error errno =>
    refine Or.inr ⟨errno, rfl, receive_failed libcStatus word results 0 buffer errno first ?_ ?_⟩
    · simp [libcStatus]
    · exact Or.inl (by simp [libcStatus, EAGAIN])

/-- A reply that is there at the first attempt, or not at all, is dealt with as it
should be. -/
theorem waits_of_prompt (prompt : ¬ ∃ k msg, 0 < k ∧ k < 11 ∧ AnsweredAt results k msg) :
    WaitsForReply libcStatus lib word doubleTag results := by
  have atOnce (k : Nat) (msg : InterprocMsg) (below : k < 11)
      (answered : AnsweredAt results k msg) : results 0 = .ok msg := by
    rcases Nat.eq_zero_or_pos k with rfl | later
    · exact answered.1
    · exact absurd ⟨k, msg, later, below, answered⟩ prompt
  constructor
  · intro id k msg below answered
    have first := atOnce k msg below answered
    rcases first_attempt_decides lib word doubleTag results id with ⟨reply, found, run⟩ |
      ⟨errno, found, _⟩
    · obtain rfl := Except.ok.inj (found.symm.trans first)
      rw [run]
      exact ⟨rfl, rfl⟩
    · rw [found] at first
      cases first
  · intro id unanswered
    rcases first_attempt_decides lib word doubleTag results id with ⟨reply, found, _⟩ |
      ⟨errno, _, run⟩
    · exact absurd ⟨0, reply, by decide, found, fun j below => absurd below (Nat.not_lt_zero j)⟩
        unanswered
    · rw [run]
  · intro id passed member
    rcases first_attempt_decides lib word doubleTag results id with ⟨_, _, run⟩ | ⟨_, _, run⟩
    · rw [run] at member
      exact List.mem_singleton.mp member
    · rw [run] at member
      exact List.mem_singleton.mp member

/-- `sendMsg` waits for its reply, whatever the results of its attempts, if and only if
they are not those of a late reply: one that an attempt after the first delivers. -/
theorem waits_iff_no_late_reply :
    WaitsForReply libcStatus lib word doubleTag results ↔
      ¬ ∃ k msg, 0 < k ∧ k < 11 ∧ AnsweredAt results k msg := by
  refine ⟨?_, waits_of_prompt lib word doubleTag results⟩
  rintro waits ⟨k, msg, later, below, answered⟩
  have status := (waits.answered 0 k msg below answered).1
  rcases first_attempt_decides lib word doubleTag results 0 with ⟨reply, first, _⟩ |
    ⟨errno, _, run⟩
  · rw [answered.2 0 later] at first
    cases first
  · rw [run] at status
    cases status

/-- What the driver's fetch is to its caller: the message it copied, or its error. -/
def Reports (outcome : Outcome) : Except Int InterprocMsg → Prop
  | .ok msg => outcome.ret = .ok 0 ∧ outcome.copied = .reply msg
  | .error errno => outcome.ret = .ok (-errno)

/-- A reply that the driver has not stored when it is first asked for is never waited
for, whatever the later attempts would give. -/
theorem early_fetch_cancels (s : Driver) (kernel : Kernel) (id : UInt32)
    (absent : s.rxUniqueBuffer.load id.toNat = none)
    (reports : Reports (s.ioctlRecvMsg kernel id.toNat) (results 0)) :
    (sendMsg libcStatus lib word doubleTag (.ok id) results).status = .cancelled := by
  have silent : (s.ioctlRecvMsg kernel id.toNat).copied = .nothing := by
    simp only [Driver.ioctlRecvMsg, absent]
    split <;> rfl
  rcases first_attempt_decides lib word doubleTag results id with ⟨msg, first, _⟩ | ⟨_, _, run⟩
  · rw [first] at reports
    cases silent.symm.trans reports.2
  · rw [run]

/-- Under the driver's convention the attempts that find no reply are passed over. -/
theorem kernelStatus_skips (id : UInt32) (k : Nat) (below : k ≤ 10)
    (early : ∀ j, j < k → results j = .error EAGAIN) :
    ∃ msg, word.read msg = id ∧ sendMsg kernelStatus lib word doubleTag (.ok id) results =
      { receive kernelStatus word results k msg with
        passed := List.replicate k id ++ (receive kernelStatus word results k msg).passed } := by
  obtain ⟨msg, carried, begins⟩ := sendMsg_accepted lib word doubleTag results kernelStatus rfl id
  have skips := receive_skips kernelStatus word results 0 msg rfl k (by omega)
    (fun j _ within => early j (by omega))
  rw [Nat.zero_add, carried] at skips
  exact ⟨msg, carried, begins.trans skips⟩

/-- The attempt that delivers gives the response. -/
theorem kernelStatus_answers (id : UInt32) (k : Nat) (reply : InterprocMsg) (below : k < 11)
    (answered : AnsweredAt results k reply) :
    sendMsg kernelStatus lib word doubleTag (.ok id) results =
      ⟨.ok, some (Response.of reply), List.replicate k id ++ [id]⟩ := by
  obtain ⟨msg, carried, run⟩ := kernelStatus_skips lib word doubleTag results id k (by omega)
    answered.2
  rw [run, receive_delivered kernelStatus word results k msg reply answered.1 rfl, carried]

/-- Without such an attempt the loop ends at the first other error, or at the eleventh
attempt. -/
theorem kernelStatus_cancels (coded : ∀ k errno, results k = .error errno → 0 < errno)
    (id : UInt32) (unanswered : ¬ ∃ k msg, k < 11 ∧ AnsweredAt results k msg) :
    ∃ k, sendMsg kernelStatus lib word doubleTag (.ok id) results =
      ⟨.cancelled, none, List.replicate k id ++ [id]⟩ := by
  have ends : ∃ k, results k ≠ .error EAGAIN ∨ k = 10 := ⟨10, Or.inr rfl⟩
  obtain ⟨k, stops, first⟩ := Nat.findX ends
  have early : ∀ j, j < k → results j = .error EAGAIN := by
    intro j before
    by_contra other
    exact first j before (Or.inl other)
  have below : k ≤ 10 := by
    by_contra beyond
    exact first 10 (by omega) (Or.inr rfl)
  obtain ⟨msg, carried, run⟩ := kernelStatus_skips lib word doubleTag results id k below early
  cases found : results k with
  | ok reply => exact absurd ⟨k, reply, by omega, found, early⟩ unanswered
  | error errno =>
    have positive := coded k errno found
    have negative : kernelStatus (some errno) < 0 := by
      simp only [kernelStatus]
      omega
    have last : kernelStatus (some errno) ≠ -EAGAIN ∨ 10 ≤ k := by
      rcases stops with other | eleventh
      · refine Or.inl ?_
        intro same
        have isAgain : errno = EAGAIN := Int.neg_inj.mp same
        exact other (isAgain ▸ found)
      · exact Or.inr (Nat.le_of_eq eleventh.symm)
    refine ⟨k, ?_⟩
    rw [run, receive_failed kernelStatus word results k msg errno found negative last, carried]

/-- With the driver's own return value in place of libc's the loop does wait. -/
theorem kernel_status_waits (coded : ∀ k errno, results k = .error errno → 0 < errno) :
    WaitsForReply kernelStatus lib word doubleTag results := by
  have same (id : UInt32) (k : Nat) : ∀ passed ∈ List.replicate k id ++ [id], passed = id := by
    intro passed member
    rcases List.mem_append.mp member with repeated | last
    · exact List.eq_of_mem_replicate repeated
    · exact List.mem_singleton.mp last
  constructor
  · intro id k msg below answered
    rw [kernelStatus_answers lib word doubleTag results id k msg below answered]
    exact ⟨rfl, rfl⟩
  · intro id unanswered
    obtain ⟨k, run⟩ := kernelStatus_cancels lib word doubleTag results coded id unanswered
    rw [run]
  · intro id
    by_cases answered : ∃ k msg, k < 11 ∧ AnsweredAt results k msg
    · obtain ⟨k, msg, below, answeredAt⟩ := answered
      rw [kernelStatus_answers lib word doubleTag results id k msg below answeredAt]
      exact same id k
    · obtain ⟨k, run⟩ := kernelStatus_cancels lib word doubleTag results coded id answered
      rw [run]
      exact same id k

end Calls

/-- With a command of four bytes the first word of a frame is its command. -/
def commandWord : FirstWord where
  read := fun msg => .ofNat msg.command.code
  write := fun id msg => { msg with command := .ofCode id.toNat }
  read_write := fun id _ => (congrArg UInt32.ofNat (Command.code_ofCode id.toNat)).trans
    UInt32.ofNat_toNat

/-- The reply is there at the second attempt. -/
def lateReply : Nat → Except Int InterprocMsg
  | 0 => .error EAGAIN
  | _ + 1 => .ok (crc32Interproc.stamp .ack Data.zero)

/-- `sendMsg` does not always wait: a reply that is there at the second attempt is not
fetched. -/
theorem late_reply_cancelled :
    ¬ ∀ (lib : Interproc) (word : FirstWord) (doubleTag : UInt8)
      (results : Nat → Except Int InterprocMsg),
      WaitsForReply libcStatus lib word doubleTag results := by
  intro law
  have waits := law crc32Interproc commandWord 3 lateReply
  have early : ∀ j, j < 1 → lateReply j = .error EAGAIN := by
    intro j first
    rw [Nat.lt_one_iff.mp first]
    rfl
  have answered := (waits.answered 1 1 _ (by decide) ⟨rfl, early⟩).1
  rcases first_attempt_decides crc32Interproc commandWord 3 lateReply 1 with ⟨_, first, _⟩ |
    ⟨_, _, run⟩
  · cases first
  · rw [run] at answered
    cases answered

end Stm32Ecu
