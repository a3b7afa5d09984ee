import Mathlib.Logic.Function.Basic
import Stm32Ecu.Runs
import Stm32Ecu.Routing

/-!
# The steps of a send, one at a time

The driver takes no lock. `STM32ECU_SEND_MSG` is five steps that other calls and
the receive callback may separate: hand the message over, put the token, reserve
an id, queue the id, copy it to the caller. `STM32ECU_PING_RPROC` is the first
two. The machine below takes one step of one caller, or one callback, at a time.

It remembers the order in which callers handed their messages over, put their
tokens and queued their ids. The driver reads none of this; the laws compare the
three orders. Taken without interruption, the steps of one call are exactly the
atomic operation of the driver's model.
-/

namespace Stm32Ecu

/-- The two ioctls that send one message of their own. -/
inductive Call where
  | pingRproc
  | sendMsg (arg : InterprocMsg)
deriving DecidableEq

namespace Call

def isSend : Call → Bool
  | .pingRproc => false
  | .sendMsg _ => true

/-- The token the call puts for its message. -/
def token : Call → SentMsg
  | .pingRproc => .internal
  | .sendMsg _ => .externalUnique

end Call

/-- The exits of the two calls after `rpmsg_send`. -/
inductive Exit where
  | sendFailed (ret : Int)
  | tokenRefused
  | noId
  | idRefused (id : Nat)
  | copyFailed (id : Nat)
  | pinged
  | returned (id : Nat)
deriving DecidableEq

/-- The value the caller sees. -/
def Exit.ret : Exit → Int
  | .sendFailed ret => ret
  | .tokenRefused => -EINVAL
  | .noId => -EINVAL
  | .idRefused _ => -EINVAL
  | .copyFailed _ => -EINVAL
  | .pinged => 0
  | .returned _ => 0

/-- What the caller is given. -/
def Exit.copied : Exit → Copied
  | .returned id => .uid id
  | _ => .nothing

/-- Where a caller stands, named by the last step it has taken. -/
inductive Pc where
  | ready
  | sent
  | tokenPut
  | allocated (id : Nat)
  | idPut (id : Nat)
  | exited (exit : Exit)
deriving DecidableEq

namespace Pc

/-- The caller's message has been handed over. -/
def onWire : Pc → Bool
  | .ready => false
  | .exited (.sendFailed _) => false
  | _ => true

/-- The caller's token was accepted. -/
def tokened : Pc → Bool
  | .ready => false
  | .sent => false
  | .exited (.sendFailed _) => false
  | .exited .tokenRefused => false
  | _ => true

/-- The id the caller has queued. -/
def queuedId : Pc → Option Nat
  | .idPut id => some id
  | .exited (.copyFailed id) => some id
  | .exited (.returned id) => some id
  | _ => none

/-- The id reserved for the caller, queued or not. -/
def heldId : Pc → Option Nat
  | .allocated id => some id
  | .exited (.idRefused id) => some id
  | pc => pc.queuedId

/-- The caller is between its first step and its exit. -/
def inFlight : Pc → Bool
  | .ready => false
  | .exited _ => false
  | _ => true

/-- The caller has left by an error. -/
def refused : Pc → Bool
  | .exited .pinged => false
  | .exited (.returned _) => false
  | .exited _ => true
  | _ => false

/-- The caller has not begun or has left with success. -/
def done : Pc → Bool
  | .ready => true
  | .exited .pinged => true
  | .exited (.returned _) => true
  | _ => false

/-- A queued id is a reserved one. -/
theorem heldId_of_queuedId (pc : Pc) (id : Nat) (queued : pc.queuedId = some id) :
    pc.heldId = some id := by
  cases pc with
  | exited exit => cases exit <;> simp_all [queuedId, heldId]
  | _ => simp_all [queuedId, heldId]

end Pc

/-- After its token a ping is done and a send goes on to its id. -/
def Call.afterToken : Call → Pc
  | .pingRproc => .exited .pinged
  | .sendMsg _ => .tokenPut

/-- Whether a call can stand at this point: a ping has no id, and only a ping is
done after its token. -/
def Call.reaches (call : Call) : Pc → Bool
  | .tokenPut => call.isSend
  | .allocated _ => call.isSend
  | .idPut _ => call.isSend
  | .exited .noId => call.isSend
  | .exited (.idRefused _) => call.isSend
  | .exited (.copyFailed _) => call.isSend
  | .exited (.returned _) => call.isSend
  | .exited .pinged => !call.isSend
  | _ => true

/-- The driver, its callers, and the orders in which they took their steps. -/
structure Machine (ι : Type) where
  driver : Driver
  pc : ι → Pc
  wire : List ι
  tokenPuts : List ι
  idPuts : List ι
  answered : Nat

/-- One step of one caller, with the kernel's answer to it, or one callback. -/
inductive Event (ι : Type) where
  | rpmsgSend (caller : ι) (ret : Int)
  | putToken (caller : ι)
  | xaAllocCyclic (caller : ι) (memory : Bool)
  | putId (caller : ι)
  | copyId (caller : ι) (succeeds : Bool)
  | callback (kernel : Kernel) (reply : InterprocMsg)

namespace Machine

variable {ι : Type} [DecidableEq ι]

/-- Every caller is about to send; nothing is on the wire. -/
def start (driver : Driver) : Machine ι where
  driver := driver
  pc := fun _ => .ready
  wire := []
  tokenPuts := []
  idPuts := []
  answered := 0

/-- A caller moves on. -/
def move (m : Machine ι) (caller : ι) (pc : Pc) : Machine ι :=
  { m with pc := Function.update m.pc caller pc }

/-- One step. A callback needs a message on the wire that is still unanswered,
and brings a full-size reply with a valid checksum. -/
def step (lib : Interproc) (call : ι → Call) (m : Machine ι) : Event ι → Option (Machine ι)
  | .rpmsgSend caller ret =>
      match m.pc caller, m.driver.rproc with
      | .ready, .ok _ =>
          if ret = 0 then some { m.move caller .sent with wire := m.wire ++ [caller] }
          else some (m.move caller (.exited (.sendFailed ret)))
      | _, _ => none
  | .putToken caller =>
      match m.pc caller with
      | .sent =>
          let (accepted, driver) := m.driver.putSendType (call caller).token
          if accepted then
            some { m.move caller (call caller).afterToken with
              driver := driver
              tokenPuts := m.tokenPuts ++ [caller] }
          else some (m.move caller (.exited .tokenRefused))
      | _ => none
  | .xaAllocCyclic caller memory =>
      match m.pc caller with
      | .tokenPut =>
          match m.driver.allocUniqueId memory with
          | none => some (m.move caller (.exited .noId))
          | some (id, driver) => some { m.move caller (.allocated id) with driver := driver }
      | _ => none
  | .putId caller =>
      match m.pc caller with
      | .allocated id =>
          let (accepted, driver) := m.driver.putUniqueId id
          if accepted then
            some { m.move caller (.idPut id) with
              driver := driver
              idPuts := m.idPuts ++ [caller] }
          else some (m.move caller (.exited (.idRefused id)))
      | _ => none
  | .copyId caller succeeds =>
      match m.pc caller with
      | .idPut id =>
          if succeeds then some (m.move caller (.exited (.returned id)))
          else some (m.move caller (.exited (.copyFailed id)))
      | _ => none
  | .callback kernel reply =>
      if m.answered < m.wire.length ∧ lib.crcOk reply = true then
        (m.driver.rpmsgSampleCb lib kernel (some reply) lib.sizeofMsg).settled.map
          (fun outcome => { m with driver := outcome.state, answered := m.answered + 1 })
      else none

/-- The log names exactly the callers that have passed a point, each once. -/
structure Logged (passed : Pc → Bool) (pc : ι → Pc) (log : List ι) : Prop where
  unique : log.Nodup
  complete : ∀ caller, caller ∈ log ↔ passed (pc caller) = true

/-- A caller that does not pass the point leaves the log right. -/
theorem Logged.stay {passed : Pc → Bool} {pc : ι → Pc} {log : List ι}
    (logged : Logged passed pc log) (caller : ι) (before after : Pc)
    (stands : pc caller = before) (same : passed after = passed before) :
    Logged passed (Function.update pc caller after) log := by
  constructor
  · exact logged.unique
  · intro other
    by_cases moved : other = caller
    · subst moved
      rw [logged.complete, Function.update_self, same, stands]
    · rw [logged.complete, Function.update_of_ne moved]

/-- A caller that passes the point is entered in the log. -/
theorem Logged.enter {passed : Pc → Bool} {pc : ι → Pc} {log : List ι}
    (logged : Logged passed pc log) (caller : ι) (before after : Pc)
    (stands : pc caller = before) (ahead : passed before = false) (behind : passed after = true) :
    Logged passed (Function.update pc caller after) (log ++ [caller]) := by
  have absent : caller ∉ log := by
    rw [logged.complete, stands, ahead]
    simp
  constructor
  · rw [List.nodup_append_comm, List.singleton_append, List.nodup_cons]
    exact ⟨absent, logged.unique⟩
  · intro other
    rw [List.mem_append, List.mem_singleton]
    by_cases moved : other = caller
    · subst moved
      simp [behind]
    · simp [logged.complete, moved]

/-- A move that a reading of the pc does not notice changes it for nobody. -/
theorem reading_move {γ : Type} (reading : Pc → γ) (pc : ι → Pc) (caller : ι)
    (before after : Pc) (stands : pc caller = before) (same : reading after = reading before)
    (other : ι) : reading (Function.update pc caller after other) = reading (pc other) := by
  by_cases moved : other = caller
  · subst moved
    rw [Function.update_self, same, stands]
  · rw [Function.update_of_ne moved]

/-- The caller stands somewhere it can, wherever the others stand. -/
theorem reaches_move {call : ι → Call} {pc : ι → Pc} (caller : ι) (after : Pc)
    (reaches : ∀ caller, (call caller).reaches (pc caller) = true)
    (here : (call caller).reaches after = true) (other : ι) :
    (call other).reaches (Function.update pc caller after other) = true := by
  by_cases moved : other = caller
  · subst moved
    rw [Function.update_self]
    exact here
  · rw [Function.update_of_ne moved]
    exact reaches other

/-- Everything a step can do, with the state it needs. Invariants are proved by
cases on this relation. -/
inductive Taken (lib : Interproc) (call : ι → Call) (m : Machine ι) :
    Event ι → Machine ι → Prop where
  | sent (caller : ι) (at_ready : m.pc caller = .ready) :
      Taken lib call m (.rpmsgSend caller 0)
        { m.move caller .sent with wire := m.wire ++ [caller] }
  | sendFailed (caller : ι) (ret : Int) (failed : ret ≠ 0) (at_ready : m.pc caller = .ready) :
      Taken lib call m (.rpmsgSend caller ret) (m.move caller (.exited (.sendFailed ret)))
  | tokenPut (caller : ι) (types : BoundedFifo SentMsg 512) (at_sent : m.pc caller = .sent)
      (added : types.items = m.driver.fifoSendTypes.items ++ [(call caller).token]) :
      Taken lib call m (.putToken caller)
        { m.move caller (call caller).afterToken with
          driver := { m.driver with fifoSendTypes := types }
          tokenPuts := m.tokenPuts ++ [caller] }
  | tokenRefused (caller : ι) (at_sent : m.pc caller = .sent) :
      Taken lib call m (.putToken caller) (m.move caller (.exited .tokenRefused))
  | allocated (caller : ι) (memory : Bool) (id : Nat) (at_token : m.pc caller = .tokenPut)
      (free : m.driver.rxUniqueBuffer.slot id = .free) :
      Taken lib call m (.xaAllocCyclic caller memory)
        { m.move caller (.allocated id) with
          driver := { m.driver with
            rxUniqueBuffer := m.driver.rxUniqueBuffer.set id .reserved
            next := id + 1 } }
  | noId (caller : ι) (memory : Bool) (at_token : m.pc caller = .tokenPut) :
      Taken lib call m (.xaAllocCyclic caller memory) (m.move caller (.exited .noId))
  | idPut (caller : ι) (id : Nat) (ids : BoundedFifo Nat 256)
      (at_allocated : m.pc caller = .allocated id)
      (added : ids.items = m.driver.fifoUniqueIds.items ++ [id]) :
      Taken lib call m (.putId caller)
        { m.move caller (.idPut id) with
          driver := { m.driver with fifoUniqueIds := ids }
          idPuts := m.idPuts ++ [caller] }
  | idRefused (caller : ι) (id : Nat) (at_allocated : m.pc caller = .allocated id) :
      Taken lib call m (.putId caller) (m.move caller (.exited (.idRefused id)))
  | returned (caller : ι) (id : Nat) (at_id : m.pc caller = .idPut id) :
      Taken lib call m (.copyId caller true) (m.move caller (.exited (.returned id)))
  | copyFailed (caller : ι) (id : Nat) (at_id : m.pc caller = .idPut id) :
      Taken lib call m (.copyId caller false) (m.move caller (.exited (.copyFailed id)))
  | callback (kernel : Kernel) (reply : InterprocMsg) (pending : m.answered < m.wire.length)
      (valid : lib.crcOk reply = true) :
      Taken lib call m (.callback kernel reply)
        { m with
          driver := (m.driver.rpmsgSampleCb lib kernel (some reply) lib.sizeofMsg).state
          answered := m.answered + 1 }

/-- The relation describes every step the machine takes. -/
theorem taken_of_step (lib : Interproc) (call : ι → Call) (m next : Machine ι) (event : Event ι)
    (taken : step lib call m event = some next) : Taken lib call m event next := by
  cases event with
  | rpmsgSend caller ret =>
    simp only [step] at taken
    split at taken
    · rename_i device atReady _
      split at taken
      · rename_i zero
        subst zero
        obtain rfl := Option.some.inj taken
        exact .sent caller atReady
      · rename_i failed
        obtain rfl := Option.some.inj taken
        exact .sendFailed caller ret failed atReady
    · cases taken
  | putToken caller =>
    simp only [step] at taken
    split at taken
    · rename_i atSent
      split at taken
      · rename_i accepted
        obtain rfl := Option.some.inj taken
        have room : m.driver.fifoSendTypes.items.length < 512 := by
          simpa [Driver.putSendType] using accepted
        exact .tokenPut caller _ atSent (BoundedFifo.put_items _ _ room)
      · obtain rfl := Option.some.inj taken
        exact .tokenRefused caller atSent
    · cases taken
  | xaAllocCyclic caller memory =>
    simp only [step] at taken
    split at taken
    · rename_i atToken
      split at taken
      · obtain rfl := Option.some.inj taken
        exact .noId caller memory atToken
      · rename_i id driver reserved
        obtain rfl := Option.some.inj taken
        obtain ⟨_, _, free, rfl⟩ := Driver.allocUniqueId_some _ _ _ _ reserved
        exact .allocated caller memory id atToken free
    · cases taken
  | putId caller =>
    simp only [step] at taken
    split at taken
    · rename_i id atAllocated
      split at taken
      · rename_i accepted
        obtain rfl := Option.some.inj taken
        have room : m.driver.fifoUniqueIds.items.length < 256 := by
          simpa [Driver.putUniqueId] using accepted
        exact .idPut caller id _ atAllocated (BoundedFifo.put_items _ _ room)
      · obtain rfl := Option.some.inj taken
        exact .idRefused caller id atAllocated
    · cases taken
  | copyId caller succeeds =>
    simp only [step] at taken
    split at taken
    · rename_i id atId
      split at taken
      · rename_i copied
        obtain rfl := Option.some.inj taken
        subst copied
        exact .returned caller id atId
      · rename_i failed
        obtain rfl := Option.some.inj taken
        have isFalse : succeeds = false := by simpa using failed
        subst isFalse
        exact .copyFailed caller id atId
    · cases taken
  | callback kernel reply =>
    simp only [step] at taken
    split at taken
    · rename_i admitted
      obtain ⟨outcome, settled, rfl⟩ := Option.map_eq_some_iff.mp taken
      obtain rfl := Outcome.settled_some _ _ settled
      exact .callback kernel reply admitted.1 admitted.2
    · cases taken

/-- One caller's steps with nothing in between; what no longer applies after an
exit is passed over. -/
def uninterrupted (lib : Interproc) (call : ι → Call) (kernel : Kernel) (caller : ι)
    (m : Machine ι) : Machine ι :=
  [.rpmsgSend caller (kernel.rpmsgSend 0), .putToken caller,
    .xaAllocCyclic caller kernel.xaAlloc, .putId caller,
    .copyId caller kernel.copyToUser].foldl (fun m event => (step lib call m event).getD m) m

/-- The driver, the return value and what the caller was given are those of the
operation. -/
def Performs (m : Machine ι) (caller : ι) (outcome : Outcome) : Prop :=
  m.driver = outcome.state ∧ ∃ exit, m.pc caller = .exited exit ∧
    outcome.ret = .ok exit.ret ∧ outcome.copied = exit.copied

section Refinement

variable (lib : Interproc) (call : ι → Call) (kernel : Kernel) (caller : ι) (m : Machine ι)
  (device : Device)

/-- A send that fails is the last step of its caller. -/
theorem uninterrupted_failed (atReady : m.pc caller = .ready) (bound : m.driver.rproc = .ok device)
    (failed : kernel.rpmsgSend 0 ≠ 0) :
    uninterrupted lib call kernel caller m =
      m.move caller (.exited (.sendFailed (kernel.rpmsgSend 0))) := by
  simp [uninterrupted, step, atReady, bound, failed, move]

/-- So is a token that finds no room. -/
theorem uninterrupted_refused (atReady : m.pc caller = .ready) (bound : m.driver.rproc = .ok device)
    (delivered : kernel.rpmsgSend 0 = 0)
    (full : m.driver.putSendType (call caller).token = (false, m.driver)) :
    uninterrupted lib call kernel caller m =
      { m.move caller (.exited .tokenRefused) with wire := m.wire ++ [caller] } := by
  simp [uninterrupted, step, atReady, bound, delivered, move, full]

/-- Uninterrupted, the two steps of a ping are the atomic operation. -/
theorem uninterrupted_ping (kind : call caller = .pingRproc) (atReady : m.pc caller = .ready)
    (bound : m.driver.rproc = .ok device) (online : kernel.offline = false) :
    (uninterrupted lib call kernel caller m).Performs caller
      (m.driver.ioctlPingRproc lib kernel) := by
  have present := Driver.rproc_ok m.driver device bound
  by_cases delivered : kernel.rpmsgSend 0 = 0
  · rcases m.driver.putSendType_cases .internal with ⟨tokened, accepted⟩ | full
    · refine ⟨?_, .pinged, ?_, ?_, ?_⟩ <;>
        simp [uninterrupted, step, atReady, bound, delivered, kind, move, accepted,
          Call.afterToken, Call.token, Driver.ioctlPingRproc, present, online, Exit.ret,
          Exit.copied]
    · rw [uninterrupted_refused lib call kernel caller m device atReady bound delivered
        (by rw [kind]; exact full)]
      refine ⟨?_, .tokenRefused, ?_, ?_, ?_⟩ <;>
        simp [move, full, bound, delivered, Driver.ioctlPingRproc, present, online, Exit.ret,
          Exit.copied]
  · rw [uninterrupted_failed lib call kernel caller m device atReady bound delivered]
    refine ⟨?_, .sendFailed (kernel.rpmsgSend 0), ?_, ?_, ?_⟩ <;>
      simp [move, bound, delivered, Driver.ioctlPingRproc, present, online, Exit.ret, Exit.copied]

/-- Uninterrupted, the five steps of a send are the atomic operation. -/
theorem uninterrupted_send (arg : InterprocMsg) (kind : call caller = .sendMsg arg)
    (atReady : m.pc caller = .ready) (bound : m.driver.rproc = .ok device)
    (copies : kernel.copyFromUser = true) :
    (uninterrupted lib call kernel caller m).Performs caller
      (m.driver.ioctlSendMsg kernel arg) := by
  by_cases delivered : kernel.rpmsgSend 0 = 0
  · rcases m.driver.putSendType_cases .externalUnique with ⟨tokened, accepted⟩ | full
    · cases reserved : tokened.allocUniqueId kernel.xaAlloc with
      | none =>
        refine ⟨?_, .noId, ?_, ?_, ?_⟩ <;>
          simp [uninterrupted, step, atReady, bound, delivered, kind, move, accepted, reserved,
            Call.afterToken, Call.token, Driver.ioctlSendMsg, Driver.bookSendMsg, copies,
            Exit.ret, Exit.copied]
      | some pair =>
        obtain ⟨id, allocated⟩ := pair
        rcases allocated.putUniqueId_cases id with ⟨queued, idAccepted⟩ | idFull
        · cases copied : kernel.copyToUser with
          | false =>
            refine ⟨?_, .copyFailed id, ?_, ?_, ?_⟩ <;>
              simp [uninterrupted, step, atReady, bound, delivered, kind, move, accepted,
                reserved, idAccepted, copied, Call.afterToken, Call.token, Driver.ioctlSendMsg,
                Driver.bookSendMsg, copies, Exit.ret, Exit.copied]
          | true =>
            refine ⟨?_, .returned id, ?_, ?_, ?_⟩ <;>
              simp [uninterrupted, step, atReady, bound, delivered, kind, move, accepted,
                reserved, idAccepted, copied, Call.afterToken, Call.token, Driver.ioctlSendMsg,
                Driver.bookSendMsg, copies, Exit.ret, Exit.copied]
        · refine ⟨?_, .idRefused id, ?_, ?_, ?_⟩ <;>
            simp [uninterrupted, step, atReady, bound, delivered, kind, move, accepted, reserved,
              idFull, Call.afterToken, Call.token, Driver.ioctlSendMsg, Driver.bookSendMsg, copies,
              Exit.ret, Exit.copied]
    · rw [uninterrupted_refused lib call kernel caller m device atReady bound delivered
        (by rw [kind]; exact full)]
      refine ⟨?_, .tokenRefused, ?_, ?_, ?_⟩ <;>
        simp [move, full, bound, delivered, Driver.ioctlSendMsg, Driver.bookSendMsg, copies,
          Exit.ret, Exit.copied]
  · rw [uninterrupted_failed lib call kernel caller m device atReady bound delivered]
    refine ⟨?_, .sendFailed (kernel.rpmsgSend 0), ?_, ?_, ?_⟩ <;>
      simp [move, bound, delivered, Driver.ioctlSendMsg, copies, Exit.ret, Exit.copied]

end Refinement

end Machine

end Stm32Ecu
