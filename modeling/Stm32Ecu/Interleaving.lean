import Stm32Ecu.Matching
import Stm32Ecu.SendSteps

/-!
# Concurrent senders

Several callers share the driver and their steps interleave in any way. A reply
is routed by three orders that are fixed at three different steps: the order of
messages on the wire, the order of tokens and the order of queued ids. Once all
callers are done and the remote answers in wire order, each caller finds its own
reply under its id exactly when the tokens stand in wire order as far as pings
and sends can be told apart, and the ids of the sends are queued in wire order.

The driver does nothing to bring the three orders together, so the condition is
one on the schedule. It is stated on the events themselves.
-/

namespace Stm32Ecu

open Runs Matching

variable {ι : Type}

namespace Event

def isCallback : Event ι → Bool
  | .callback _ _ => true
  | _ => false

/-- The caller whose message this step hands over. -/
def sender : Event ι → Option ι
  | .rpmsgSend caller _ => some caller
  | _ => none

/-- The caller whose token this step puts. -/
def tokenPutter : Event ι → Option ι
  | .putToken caller => some caller
  | _ => none

/-- The caller whose id this step queues. -/
def idPutter : Event ι → Option ι
  | .putId caller => some caller
  | _ => none

end Event

namespace Machine

/-- What any interleaving keeps before the first reply: each queue and each log
records the callers past its point, and no id is held twice. -/
structure Tracked (call : ι → Call) (m : Machine ι) : Prop where
  unanswered : m.answered = 0
  tokens : m.driver.fifoSendTypes.items = m.tokenPuts.map (fun caller => (call caller).token)
  ids : m.driver.fifoUniqueIds.items.map some =
    m.idPuts.map (fun caller => (m.pc caller).queuedId)
  sent : Logged Pc.onWire m.pc m.wire
  tokened : Logged Pc.tokened m.pc m.tokenPuts
  queued : Logged (fun pc => pc.queuedId.isSome) m.pc m.idPuts
  distinct : ∀ first second id, (m.pc first).heldId = some id →
    (m.pc second).heldId = some id → first = second
  reserved : ∀ caller id, (m.pc caller).heldId = some id →
    m.driver.rxUniqueBuffer.slot id = .reserved
  reaches : ∀ caller, (call caller).reaches (m.pc caller) = true

/-- Nobody has moved and the queues are empty. -/
theorem start_tracked (call : ι → Call) (driver : Driver)
    (noTokens : driver.fifoSendTypes.items = []) (noIds : driver.fifoUniqueIds.items = []) :
    Tracked call (start driver) := by
  constructor
  · rfl
  · exact noTokens
  · simp [start, noIds]
  · exact ⟨List.nodup_nil, by simp [start, Pc.onWire]⟩
  · exact ⟨List.nodup_nil, by simp [start, Pc.tokened]⟩
  · exact ⟨List.nodup_nil, by simp [start, Pc.queuedId]⟩
  · simp [start, Pc.heldId, Pc.queuedId]
  · simp [start, Pc.heldId, Pc.queuedId]
  · simp [start, Call.reaches]

variable [DecidableEq ι]

/-- A move that passes no point and changes no id. -/
theorem Tracked.move {call : ι → Call} {m : Machine ι} (tracked : m.Tracked call) (caller : ι)
    (before after : Pc) (stands : m.pc caller = before) (wire : after.onWire = before.onWire)
    (token : after.tokened = before.tokened) (queued : after.queuedId = before.queuedId)
    (held : after.heldId = before.heldId) (here : (call caller).reaches after = true) :
    (m.move caller after).Tracked call := by
  have sameQueued := reading_move Pc.queuedId m.pc caller before after stands queued
  have sameHeld := reading_move Pc.heldId m.pc caller before after stands held
  constructor
  · exact tracked.unanswered
  · exact tracked.tokens
  · simpa only [Machine.move, sameQueued] using tracked.ids
  · exact tracked.sent.stay caller before after stands wire
  · exact tracked.tokened.stay caller before after stands token
  · exact tracked.queued.stay caller before after stands (congrArg Option.isSome queued)
  · simpa only [Machine.move, sameHeld] using tracked.distinct
  · simpa only [Machine.move, sameHeld] using tracked.reserved
  · exact reaches_move caller after tracked.reaches here

/-- A message handed over is entered on the wire. -/
theorem Tracked.send {call : ι → Call} {m : Machine ι} (tracked : m.Tracked call) (caller : ι)
    (atReady : m.pc caller = .ready) :
    Tracked call { m.move caller .sent with wire := m.wire ++ [caller] } := by
  have sameQueued := reading_move Pc.queuedId m.pc caller .ready .sent atReady rfl
  have sameHeld := reading_move Pc.heldId m.pc caller .ready .sent atReady rfl
  constructor
  · exact tracked.unanswered
  · exact tracked.tokens
  · simpa only [Machine.move, sameQueued] using tracked.ids
  · exact tracked.sent.enter caller .ready .sent atReady rfl rfl
  · exact tracked.tokened.stay caller .ready .sent atReady rfl
  · exact tracked.queued.stay caller .ready .sent atReady rfl
  · simpa only [Machine.move, sameHeld] using tracked.distinct
  · simpa only [Machine.move, sameHeld] using tracked.reserved
  · exact reaches_move caller .sent tracked.reaches rfl

/-- An accepted token is entered behind the others. -/
theorem Tracked.putToken {call : ι → Call} {m : Machine ι} (tracked : m.Tracked call)
    (caller : ι) (types : BoundedFifo SentMsg 512) (atSent : m.pc caller = .sent)
    (added : types.items = m.driver.fifoSendTypes.items ++ [(call caller).token]) :
    Tracked call { m.move caller (call caller).afterToken with
      driver := { m.driver with fifoSendTypes := types }
      tokenPuts := m.tokenPuts ++ [caller] } := by
  have sameQueued := reading_move Pc.queuedId m.pc caller .sent (call caller).afterToken atSent
    (by cases call caller <;> rfl)
  have sameHeld := reading_move Pc.heldId m.pc caller .sent (call caller).afterToken atSent
    (by cases call caller <;> rfl)
  constructor
  · exact tracked.unanswered
  · simp [added, tracked.tokens]
  · simpa only [Machine.move, sameQueued] using tracked.ids
  · exact tracked.sent.stay caller .sent _ atSent (by cases call caller <;> rfl)
  · exact tracked.tokened.enter caller .sent _ atSent rfl (by cases call caller <;> rfl)
  · exact tracked.queued.stay caller .sent _ atSent (by cases call caller <;> rfl)
  · simpa only [Machine.move, sameHeld] using tracked.distinct
  · simpa only [Machine.move, sameHeld] using tracked.reserved
  · exact reaches_move caller _ tracked.reaches (by cases call caller <;> rfl)

/-- A fresh id is held by its caller alone: every held id is reserved and the
fresh one was free. -/
theorem Tracked.allocate {call : ι → Call} {m : Machine ι} (tracked : m.Tracked call)
    (caller : ι) (id : Nat) (atToken : m.pc caller = .tokenPut)
    (free : m.driver.rxUniqueBuffer.slot id = .free) :
    Tracked call { m.move caller (.allocated id) with
      driver := { m.driver with
        rxUniqueBuffer := m.driver.rxUniqueBuffer.set id .reserved
        next := id + 1 } } := by
  have sameQueued := reading_move Pc.queuedId m.pc caller .tokenPut (.allocated id) atToken rfl
  have unheld : ∀ other held, (m.pc other).heldId = some held → held ≠ id := by
    rintro other held holds rfl
    rw [tracked.reserved other held holds] at free
    cases free
  constructor
  · exact tracked.unanswered
  · exact tracked.tokens
  · simpa only [Machine.move, sameQueued] using tracked.ids
  · exact tracked.sent.stay caller .tokenPut _ atToken rfl
  · exact tracked.tokened.stay caller .tokenPut _ atToken rfl
  · exact tracked.queued.stay caller .tokenPut _ atToken rfl
  · intro first second held holdsFirst holdsSecond
    simp only [Machine.move, Function.update_apply] at holdsFirst holdsSecond
    split at holdsFirst
    · rename_i isFirst
      split at holdsSecond
      · rename_i isSecond
        rw [isFirst, isSecond]
      · have same : id = held := Option.some.inj holdsFirst
        exact absurd same.symm (unheld second held holdsSecond)
    · split at holdsSecond
      · have same : id = held := Option.some.inj holdsSecond
        exact absurd same.symm (unheld first held holdsFirst)
      · exact tracked.distinct first second held holdsFirst holdsSecond
  · intro other held holds
    simp only [Machine.move, Function.update_apply] at holds
    split at holds
    · have same : id = held := Option.some.inj holds
      rw [← same]
      exact SlotMap.set_slot_same _ _ _
    · rw [SlotMap.set_slot_other _ _ _ _ (unheld other held holds)]
      exact tracked.reserved other held holds
  · have here := tracked.reaches caller
    rw [atToken] at here
    exact reaches_move caller _ tracked.reaches here

/-- A queued id is entered behind the others. -/
theorem Tracked.putId {call : ι → Call} {m : Machine ι} (tracked : m.Tracked call)
    (caller : ι) (id : Nat) (ids : BoundedFifo Nat 256) (atAllocated : m.pc caller = .allocated id)
    (added : ids.items = m.driver.fifoUniqueIds.items ++ [id]) :
    Tracked call { m.move caller (.idPut id) with
      driver := { m.driver with fifoUniqueIds := ids }
      idPuts := m.idPuts ++ [caller] } := by
  have sameHeld := reading_move Pc.heldId m.pc caller (.allocated id) (.idPut id) atAllocated rfl
  have entered := tracked.queued.enter caller (.allocated id) (.idPut id) atAllocated rfl rfl
  have absent : caller ∉ m.idPuts := by
    rw [tracked.queued.complete, atAllocated]
    simp [Pc.queuedId]
  constructor
  · exact tracked.unanswered
  · exact tracked.tokens
  · have earlier : m.idPuts.map
        (fun other => (Function.update m.pc caller (.idPut id) other).queuedId) =
        m.idPuts.map (fun other => (m.pc other).queuedId) := by
      apply List.map_congr_left
      intro other member
      have apart : other ≠ caller := fun same => absent (same ▸ member)
      rw [Function.update_of_ne apart]
    have last : (Function.update m.pc caller (.idPut id) caller).queuedId = some id := by
      rw [Function.update_self]
      rfl
    simp only [Machine.move, added, List.map_append, List.map_cons, List.map_nil, tracked.ids,
      earlier, last]
  · exact tracked.sent.stay caller (.allocated id) _ atAllocated rfl
  · exact tracked.tokened.stay caller (.allocated id) _ atAllocated rfl
  · exact entered
  · simpa only [Machine.move, sameHeld] using tracked.distinct
  · simpa only [Machine.move, sameHeld] using tracked.reserved
  · have here := tracked.reaches caller
    rw [atAllocated] at here
    exact reaches_move caller _ tracked.reaches here

/-- Every step of a caller keeps the logs right. -/
theorem tracked_step {lib : Interproc} {call : ι → Call} {m next : Machine ι} {event : Event ι}
    (tracked : m.Tracked call) (own : event.isCallback = false)
    (taken : Taken lib call m event next) : next.Tracked call := by
  -- A refusal leaves the caller, as far as logs and ids can tell, where it stood.
  cases taken with
  | sent caller atReady => exact tracked.send caller atReady
  | sendFailed caller ret failed atReady =>
    exact tracked.move caller .ready _ atReady rfl rfl rfl rfl rfl
  | tokenPut caller types atSent added => exact tracked.putToken caller types atSent added
  | tokenRefused caller atSent =>
    exact tracked.move caller .sent _ atSent rfl rfl rfl rfl rfl
  | allocated caller memory id atToken free => exact tracked.allocate caller id atToken free
  | noId caller memory atToken =>
    have here := tracked.reaches caller
    rw [atToken] at here
    exact tracked.move caller .tokenPut _ atToken rfl rfl rfl rfl here
  | idPut caller id ids atAllocated added => exact tracked.putId caller id ids atAllocated added
  | idRefused caller id atAllocated =>
    have here := tracked.reaches caller
    rw [atAllocated] at here
    exact tracked.move caller (.allocated id) _ atAllocated rfl rfl rfl rfl here
  | returned caller id atId =>
    have here := tracked.reaches caller
    rw [atId] at here
    exact tracked.move caller (.idPut id) _ atId rfl rfl rfl rfl here
  | copyFailed caller id atId =>
    have here := tracked.reaches caller
    rw [atId] at here
    exact tracked.move caller (.idPut id) _ atId rfl rfl rfl rfl here
  | callback kernel reply pending valid => cases own

/-- A run of callers' steps keeps the logs right. -/
theorem tracked_run {lib : Interproc} {call : ι → Call} {m final : Machine ι}
    {events : List (Event ι)} (tracked : m.Tracked call)
    (own : ∀ event ∈ events, event.isCallback = false)
    (ran : run (step lib call) m events = some final) : final.Tracked call := by
  refine invariant_run (step lib call) (fun _ event => event.isCallback = false)
    (fun m => m.Tracked call) ?_ m final events tracked
    (along_of_forall _ _ m events (fun event member _ => own event member)) ran
  intro state event next holds isOwn taken
  exact tracked_step holds isOwn (taken_of_step lib call state next event taken)

/-- While nobody is refused, each step is entered in its log. -/
theorem orders_step {lib : Interproc} {call : ι → Call} {m next : Machine ι} {event : Event ι}
    (own : event.isCallback = false) (taken : Taken lib call m event next)
    (accepted : ∀ caller, (next.pc caller).refused = false) :
    (∀ caller, (m.pc caller).refused = false) ∧
      next.wire = m.wire ++ event.sender.toList ∧
      next.tokenPuts = m.tokenPuts ++ event.tokenPutter.toList ∧
      next.idPuts = m.idPuts ++ event.idPutter.toList := by
  have earlier : ∀ (caller : ι) (before after : Pc), m.pc caller = before →
      before.refused = false → next.pc = Function.update m.pc caller after →
      ∀ other, (m.pc other).refused = false := by
    intro caller before after stands fine moved other
    by_cases same : other = caller
    · rw [same, stands, fine]
    · have kept := accepted other
      rw [moved, Function.update_of_ne same] at kept
      exact kept
  have refusal : ∀ (caller : ι) (after : Pc), after.refused = true →
      next.pc ≠ Function.update m.pc caller after := by
    intro caller after isRefused moved
    have fine := accepted caller
    rw [moved, Function.update_self, isRefused] at fine
    cases fine
  cases taken with
  | sent caller atReady =>
    exact ⟨earlier caller .ready .sent atReady rfl rfl, by simp [Event.sender],
      by simp [Machine.move, Event.tokenPutter], by simp [Machine.move, Event.idPutter]⟩
  | sendFailed caller ret failed atReady => exact absurd rfl (refusal caller _ rfl)
  | tokenPut caller types atSent added =>
    exact ⟨earlier caller .sent _ atSent rfl rfl, by simp [Machine.move, Event.sender],
      by simp [Event.tokenPutter], by simp [Machine.move, Event.idPutter]⟩
  | tokenRefused caller atSent => exact absurd rfl (refusal caller _ rfl)
  | allocated caller memory id atToken free =>
    exact ⟨earlier caller .tokenPut _ atToken rfl rfl, by simp [Machine.move, Event.sender],
      by simp [Machine.move, Event.tokenPutter], by simp [Machine.move, Event.idPutter]⟩
  | noId caller memory atToken => exact absurd rfl (refusal caller _ rfl)
  | idPut caller id ids atAllocated added =>
    exact ⟨earlier caller (.allocated id) _ atAllocated rfl rfl,
      by simp [Machine.move, Event.sender], by simp [Machine.move, Event.tokenPutter],
      by simp [Event.idPutter]⟩
  | idRefused caller id atAllocated => exact absurd rfl (refusal caller _ rfl)
  | returned caller id atId =>
    exact ⟨earlier caller (.idPut id) _ atId rfl rfl, by simp [Machine.move, Event.sender],
      by simp [Machine.move, Event.tokenPutter], by simp [Machine.move, Event.idPutter]⟩
  | copyFailed caller id atId => exact absurd rfl (refusal caller _ rfl)
  | callback kernel reply pending valid => cases own

omit [DecidableEq ι] in
/-- The order of a run begins with what its first event contributes. -/
theorem filterMap_cons_toList (reads : Event ι → Option ι) (event : Event ι)
    (rest : List (Event ι)) :
    (event :: rest).filterMap reads = (reads event).toList ++ rest.filterMap reads := by
  cases found : reads event <;> simp [found]

/-- In a run that refuses nobody the logs are the orders of the events. The
induction is on the events; a caller once refused stays refused, so it is enough
that nobody is at the end. -/
theorem orders_run {lib : Interproc} {call : ι → Call} {m final : Machine ι}
    {events : List (Event ι)} (own : ∀ event ∈ events, event.isCallback = false)
    (ran : run (step lib call) m events = some final)
    (accepted : ∀ caller, (final.pc caller).refused = false) :
    (∀ caller, (m.pc caller).refused = false) ∧
      final.wire = m.wire ++ events.filterMap Event.sender ∧
      final.tokenPuts = m.tokenPuts ++ events.filterMap Event.tokenPutter ∧
      final.idPuts = m.idPuts ++ events.filterMap Event.idPutter := by
  induction events generalizing m with
  | nil =>
    obtain rfl := Option.some.inj ran
    exact ⟨accepted, by simp, by simp, by simp⟩
  | cons event rest ih =>
    obtain ⟨next, taken, remaining⟩ := (run_cons_iff _ _ _ _ _).mp ran
    obtain ⟨fine, wire, tokens, ids⟩ :=
      ih (fun other member => own other (List.mem_cons_of_mem _ member)) remaining
    obtain ⟨before, wired, tokened, queued⟩ := orders_step (own event List.mem_cons_self)
      (taken_of_step lib call m next event taken) fine
    refine ⟨before, ?_, ?_, ?_⟩
    · rw [wire, wired, List.append_assoc, filterMap_cons_toList]
    · rw [tokens, tokened, List.append_assoc, filterMap_cons_toList]
    · rw [ids, queued, List.append_assoc, filterMap_cons_toList]

/-- The marks a list of callers leaves in the token queue, as the callback reads
them: a send is served from the id queue, a ping is not. -/
def marks (call : ι → Call) (callers : List ι) : List Bool :=
  callers.map (fun caller => (call caller).isSend)

/-- A callback that returns is a step. -/
theorem callback_taken (lib : Interproc) (call : ι → Call) (kernel : Kernel) (m : Machine ι)
    (reply : InterprocMsg) (ret : Int) (pending : m.answered < m.wire.length)
    (valid : lib.crcOk reply = true)
    (returns : (m.driver.rpmsgSampleCb lib kernel (some reply) lib.sizeofMsg).ret = .ok ret) :
    step lib call m (.callback kernel reply) = some { m with
      driver := (m.driver.rpmsgSampleCb lib kernel (some reply) lib.sizeofMsg).state
      answered := m.answered + 1 } := by
  simp [step, pending, valid, Outcome.settled, returns]

/-- A callback under a ping's token stores nothing. -/
theorem callback_ping (lib : Interproc) (call : ι → Call) (kernel : Kernel) (m : Machine ι)
    (reply : InterprocMsg) (caller : ι) (callers : List ι) (pending : m.answered < m.wire.length)
    (valid : lib.crcOk reply = true) (isPing : (call caller).isSend = false)
    (tokens : m.driver.fifoSendTypes.items =
      (caller :: callers).map (fun caller => (call caller).token)) :
    ∃ next, step lib call m (.callback kernel reply) = some next ∧
      next.wire = m.wire ∧ next.answered = m.answered + 1 ∧
      next.driver.fifoSendTypes.items = callers.map (fun caller => (call caller).token) ∧
      next.driver.fifoUniqueIds = m.driver.fifoUniqueIds ∧
      next.driver.rxUniqueBuffer = m.driver.rxUniqueBuffer := by
  have token : (call caller).token = .internal := by
    cases kind : call caller with
    | pingRproc => rfl
    | sendMsg arg => simp [kind, Call.isSend] at isPing
  rw [List.map_cons, token] at tokens
  obtain ⟨types, remaining, handled⟩ :=
    Driver.rpmsgSampleCb_internal lib kernel reply m.driver _ valid tokens
  have taken := callback_taken lib call kernel m reply 0 pending valid (by rw [handled])
  rw [handled] at taken
  exact ⟨_, taken, rfl, rfl, remaining, rfl, rfl⟩

/-- A callback under a send's token stores the reply under the oldest queued id. -/
theorem callback_send (lib : Interproc) (call : ι → Call) (kernel : Kernel) (m : Machine ι)
    (reply : InterprocMsg) (caller : ι) (callers : List ι) (id : Nat) (ids : List Nat)
    (memory : kernel.vmalloc = true) (stores : kernel.xaStore = true)
    (pending : m.answered < m.wire.length) (valid : lib.crcOk reply = true)
    (isSend : (call caller).isSend = true)
    (tokens : m.driver.fifoSendTypes.items =
      (caller :: callers).map (fun caller => (call caller).token))
    (queued : m.driver.fifoUniqueIds.items = id :: ids) :
    ∃ next address, step lib call m (.callback kernel reply) = some next ∧
      next.wire = m.wire ∧ next.answered = m.answered + 1 ∧
      next.driver.fifoSendTypes.items = callers.map (fun caller => (call caller).token) ∧
      next.driver.fifoUniqueIds.items = ids ∧
      next.driver.rxUniqueBuffer = m.driver.rxUniqueBuffer.store id ⟨address, reply⟩ := by
  have token : (call caller).token = .externalUnique := by
    cases kind : call caller with
    | pingRproc => simp [kind, Call.isSend] at isSend
    | sendMsg arg => rfl
  rw [List.map_cons, token] at tokens
  obtain ⟨types, others, heap, address, remaining, behind, handled⟩ :=
    Driver.rpmsgSampleCb_unique lib kernel reply m.driver _ id ids valid memory stores tokens
      queued
  have taken := callback_taken lib call kernel m reply 0 pending valid (by rw [handled])
  rw [handled] at taken
  exact ⟨_, address, taken, rfl, rfl, remaining, behind, rfl⟩

/-- Delivering the replies under the callers' tokens serves the marked ones, in
order, to the queued ids, and leaves every other buffer entry alone. -/
def Serves (lib : Interproc) (call : ι → Call) (kernel : Kernel) (m : Machine ι)
    (callers : List ι) (replies : List InterprocMsg) : Prop :=
  ∃ final, run (step lib call) m (replies.map (.callback kernel ·)) = some final ∧
    (∀ id, id ∉ m.driver.fifoUniqueIds.items →
      final.driver.rxUniqueBuffer.slot id = m.driver.rxUniqueBuffer.slot id) ∧
    ∀ (j id : Nat), m.driver.fifoUniqueIds.items[j]? = some id →
      (final.driver.rxUniqueBuffer.load id).map Block.msg =
        (select (marks call callers) replies)[j]?

/-- A ping's reply touches neither the ids nor the buffer, so the rest decides. -/
theorem serves_ping (lib : Interproc) (call : ι → Call) (kernel : Kernel) (m next : Machine ι)
    (caller : ι) (callers : List ι) (reply : InterprocMsg) (replies : List InterprocMsg)
    (isPing : (call caller).isSend = false)
    (taken : step lib call m (.callback kernel reply) = some next)
    (sameIds : next.driver.fifoUniqueIds = m.driver.fifoUniqueIds)
    (sameBuffer : next.driver.rxUniqueBuffer = m.driver.rxUniqueBuffer)
    (rest : Serves lib call kernel next callers replies) :
    Serves lib call kernel m (caller :: callers) (reply :: replies) := by
  obtain ⟨final, ran, others, found⟩ := rest
  rw [sameIds] at others found
  refine ⟨final, (run_cons_iff _ _ _ _ _).mpr ⟨next, taken, ran⟩, ?_, ?_⟩
  · rw [← sameBuffer]
    exact others
  · simpa [marks, isPing, select] using found

/-- A send's reply goes to the oldest id. No later reply overwrites it, since
that id is queued only once. -/
theorem serves_send (lib : Interproc) (call : ι → Call) (kernel : Kernel) (m next : Machine ι)
    (caller : ι) (callers : List ι) (reply : InterprocMsg) (replies : List InterprocMsg)
    (first : Nat) (ids : List Nat) (address : Nat) (isSend : (call caller).isSend = true)
    (taken : step lib call m (.callback kernel reply) = some next)
    (queued : m.driver.fifoUniqueIds.items = first :: ids) (fresh : first ∉ ids)
    (behind : next.driver.fifoUniqueIds.items = ids)
    (buffer : next.driver.rxUniqueBuffer = m.driver.rxUniqueBuffer.store first ⟨address, reply⟩)
    (rest : Serves lib call kernel next callers replies) :
    Serves lib call kernel m (caller :: callers) (reply :: replies) := by
  obtain ⟨final, ran, others, found⟩ := rest
  rw [behind] at others found
  refine ⟨final, (run_cons_iff _ _ _ _ _).mpr ⟨next, taken, ran⟩, ?_, ?_⟩
  · intro id absent
    rw [queued, List.mem_cons, not_or] at absent
    rw [others id absent.2, buffer]
    exact SlotMap.set_slot_other _ _ _ _ absent.1
  · intro j id atJ
    rw [queued] at atJ
    cases j with
    | zero =>
      obtain rfl : first = id := Option.some.inj atJ
      simp [SlotMap.load, others first fresh, buffer, SlotMap.store, Slot.value, marks, isSend,
        select]
    | succ j => simpa [marks, isSend, select] using found j id atJ

/-- Whatever replies arrive for the queued tokens, the marked ones are served.
The induction is on the replies. -/
theorem callback_run (lib : Interproc) (call : ι → Call) (kernel : Kernel)
    (memory : kernel.vmalloc = true) (stores : kernel.xaStore = true)
    (replies : List InterprocMsg) (m : Machine ι) (callers : List ι)
    (valid : ∀ reply ∈ replies, lib.crcOk reply = true)
    (pending : m.answered + replies.length ≤ m.wire.length)
    (sameLength : replies.length = callers.length)
    (tokens : m.driver.fifoSendTypes.items = callers.map (fun caller => (call caller).token))
    (served : m.driver.fifoUniqueIds.items.length = (marks call callers).count true)
    (unique : m.driver.fifoUniqueIds.items.Nodup) :
    Serves lib call kernel m callers replies := by
  induction replies generalizing m callers with
  | nil =>
    obtain rfl : callers = [] := List.eq_nil_of_length_eq_zero sameLength.symm
    have none_queued : m.driver.fifoUniqueIds.items = [] := List.eq_nil_of_length_eq_zero served
    refine ⟨m, rfl, fun _ _ => rfl, ?_⟩
    intro j id found
    rw [none_queued] at found
    cases found
  | cons reply replies ih =>
    cases callers with
    | nil => cases sameLength
    | cons caller callers =>
      have firstValid := valid reply List.mem_cons_self
      have restValid : ∀ other ∈ replies, lib.crcOk other = true :=
        fun other member => valid other (List.mem_cons_of_mem _ member)
      rw [List.length_cons] at pending
      have within : m.answered < m.wire.length := by omega
      cases kind : (call caller).isSend with
      | false =>
        obtain ⟨next, taken, sameWire, counted, remaining, sameIds, sameBuffer⟩ :=
          callback_ping lib call kernel m reply caller callers within firstValid kind tokens
        have rest := ih next callers restValid (by rw [counted, sameWire]; omega)
          (Nat.succ.inj sameLength) remaining
          (by simpa [sameIds, marks, kind] using served) (by rw [sameIds]; exact unique)
        exact serves_ping lib call kernel m next caller callers reply replies kind taken sameIds
          sameBuffer rest
      | true =>
        have someId : m.driver.fifoUniqueIds.items ≠ [] := by
          intro none_queued
          rw [none_queued, marks, List.map_cons, kind, List.count_cons_self] at served
          cases served
        obtain ⟨first, ids, queued⟩ := List.exists_cons_of_ne_nil someId
        obtain ⟨next, address, taken, sameWire, counted, remaining, behind, buffer⟩ :=
          callback_send lib call kernel m reply caller callers first ids memory stores within
            firstValid kind tokens queued
        rw [queued, List.nodup_cons] at unique
        have rest := ih next callers restValid (by rw [counted, sameWire]; omega)
          (Nat.succ.inj sameLength) remaining
          (by simpa [behind, queued, marks, kind] using served) (by rw [behind]; exact unique.2)
        exact serves_send lib call kernel m next caller callers reply replies first ids address
          kind taken queued unique.1 behind buffer rest

/-- Every call that began has succeeded. -/
def Done (m : Machine ι) : Prop := ∀ caller, (m.pc caller).done = true

omit [DecidableEq ι] in
/-- The queued id of a caller stands in the id queue where the caller stands in
the log. -/
theorem Tracked.queued_at {call : ι → Call} {m : Machine ι} (tracked : m.Tracked call)
    (j id : Nat) (caller : ι) (logged : m.idPuts[j]? = some caller)
    (queued : (m.pc caller).queuedId = some id) :
    m.driver.fifoUniqueIds.items[j]? = some id := by
  have same := congrArg (fun entries => entries[j]?) tracked.ids
  simp only [List.getElem?_map, logged, Option.map_some, queued] at same
  simpa using same

omit [DecidableEq ι] in
/-- No id is queued twice. -/
theorem Tracked.ids_nodup {call : ι → Call} {m : Machine ι} (tracked : m.Tracked call) :
    m.driver.fifoUniqueIds.items.Nodup := by
  apply List.Nodup.of_map some
  rw [tracked.ids]
  refine List.Nodup.map_on ?_ tracked.queued.unique
  intro first inLog second _ same
  have isSome := (tracked.queued.complete first).mp inLog
  obtain ⟨id, queued⟩ := Option.isSome_iff_exists.mp isSome
  exact tracked.distinct first second id (Pc.heldId_of_queuedId _ _ queued)
    (Pc.heldId_of_queuedId _ _ (same.symm.trans queued))

omit [DecidableEq ι] in
/-- When all calls have succeeded, every message on the wire has its token. -/
theorem Tracked.tokens_perm {call : ι → Call} {m : Machine ι} (tracked : m.Tracked call)
    (done : m.Done) : m.wire.Perm m.tokenPuts := by
  rw [List.perm_ext_iff_of_nodup tracked.sent.unique tracked.tokened.unique]
  intro caller
  rw [tracked.sent.complete, tracked.tokened.complete]
  have finished := done caller
  cases stands : m.pc caller with
  | exited exit => cases exit <;> simp_all [Pc.done, Pc.onWire, Pc.tokened]
  | _ => simp_all [Pc.done, Pc.onWire, Pc.tokened]

omit [DecidableEq ι] in
/-- When all calls have succeeded, exactly the sends have queued an id. -/
theorem Tracked.mem_idPuts {call : ι → Call} {m : Machine ι} (tracked : m.Tracked call)
    (done : m.Done) (caller : ι) :
    caller ∈ m.idPuts ↔ caller ∈ m.wire ∧ (call caller).isSend = true := by
  rw [tracked.queued.complete, tracked.sent.complete]
  have finished := done caller
  have here := tracked.reaches caller
  cases stands : m.pc caller with
  | exited exit =>
    cases exit <;> simp_all [Pc.done, Pc.onWire, Pc.queuedId, Call.reaches]
  | _ => simp_all [Pc.done, Pc.onWire, Pc.queuedId, Call.reaches]

omit [DecidableEq ι] in
/-- When all calls have succeeded, there is an id for every token of a send. -/
theorem Tracked.served {call : ι → Call} {m : Machine ι} (tracked : m.Tracked call)
    (done : m.Done) : m.idPuts.length = (marks call m.tokenPuts).count true := by
  have sends : m.idPuts.Perm (m.tokenPuts.filter (fun caller => (call caller).isSend)) := by
    rw [List.perm_ext_iff_of_nodup tracked.queued.unique (tracked.tokened.unique.filter _)]
    intro caller
    rw [tracked.mem_idPuts done, List.mem_filter, (tracked.tokens_perm done).mem_iff]
  rw [sends.length_eq, marks, List.count, List.countP_map, List.countP_eq_length_filter]
  congr 1
  apply List.filter_congr
  intro caller _
  simp

/-- In this schedule tokens tell pings and sends apart in wire order, and the
sends queue their ids in wire order. -/
def InWireOrder (call : ι → Call) (events : List (Event ι)) : Prop :=
  marks call (events.filterMap Event.tokenPutter) =
      marks call (events.filterMap Event.sender) ∧
    events.filterMap Event.idPutter =
      (events.filterMap Event.sender).filter (fun caller => (call caller).isSend)

/-- Each caller that was given an id finds under it the reply to the message it
sent, which is the reply at its place on the wire. -/
def OwnReplies (m final : Machine ι) (replies : List InterprocMsg) : Prop :=
  ∀ (caller : ι) (id k : Nat), m.pc caller = .exited (.returned id) →
    m.wire[k]? = some caller →
      (final.driver.rxUniqueBuffer.load id).map Block.msg = replies[k]?

/-- Whatever valid replies the remote gives to the messages on the wire, in their
order, each caller gets its own. -/
def RepliesReachCallers (lib : Interproc) (call : ι → Call) (m : Machine ι) : Prop :=
  ∀ (kernel : Kernel) (replies : List InterprocMsg), kernel.vmalloc = true →
    kernel.xaStore = true → replies.length = m.wire.length →
    (∀ reply ∈ replies, lib.crcOk reply = true) →
      ∃ final, run (step lib call) m (replies.map (.callback kernel ·)) = some final ∧
        OwnReplies m final replies

omit [DecidableEq ι] in
/-- A frame can be answered in two ways. -/
theorem stamp_injective (lib : Interproc) (command : Command) (first second : Data)
    (differ : first ≠ second) : lib.stamp command first ≠ lib.stamp command second := by
  intro same
  exact differ (congrArg InterprocMsg.data same)

/-- Delivery serves each caller from the mark its place in the id log gives it. -/
theorem Tracked.reach_iff_served {lib : Interproc} {call : ι → Call} {m : Machine ι}
    (tracked : m.Tracked call) (done : m.Done) :
    RepliesReachCallers lib call m ↔
      ∀ replies : List InterprocMsg, replies.length = m.wire.length →
        (∀ reply ∈ replies, lib.crcOk reply = true) →
        ∀ (j k : Nat) (caller : ι), m.idPuts[j]? = some caller → m.wire[k]? = some caller →
          (select (marks call m.tokenPuts) replies)[j]? = replies[k]? := by
  have sameLength : m.driver.fifoUniqueIds.items.length = m.idPuts.length := by
    simpa using congrArg List.length tracked.ids
  have delivered := fun (kernel : Kernel) (memory : kernel.vmalloc = true)
      (stores : kernel.xaStore = true) (replies : List InterprocMsg)
      (all : replies.length = m.wire.length)
      (valid : ∀ reply ∈ replies, lib.crcOk reply = true) =>
    callback_run lib call kernel memory stores replies m m.tokenPuts valid
      (by rw [tracked.unanswered, all, Nat.zero_add])
      (all.trans (tracked.tokens_perm done).length_eq) tracked.tokens
      (sameLength.trans (tracked.served done)) tracked.ids_nodup
  constructor
  · intro reach replies all valid j k caller logged wired
    obtain ⟨final, ran, own⟩ := reach {} replies rfl rfl all valid
    obtain ⟨other, sameRun, _, stored⟩ := delivered {} rfl rfl replies all valid
    obtain rfl : final = other := Option.some.inj (ran.symm.trans sameRun)
    have isSome := (tracked.queued.complete caller).mp (List.mem_of_getElem? logged)
    have finished := done caller
    obtain ⟨id, returned⟩ : ∃ id, m.pc caller = .exited (.returned id) := by
      cases stands : m.pc caller with
      | exited exit => cases exit <;> simp_all [Pc.done, Pc.queuedId]
      | _ => simp_all [Pc.done, Pc.queuedId]
    rw [← stored j id (tracked.queued_at j id caller logged (by rw [returned]; rfl))]
    exact own caller id k returned wired
  · intro serves kernel replies memory stores all valid
    obtain ⟨final, ran, _, stored⟩ := delivered kernel memory stores replies all valid
    refine ⟨final, ran, ?_⟩
    intro caller id k returned wired
    have inLog : caller ∈ m.idPuts := by
      rw [tracked.queued.complete, returned]
      rfl
    obtain ⟨j, logged⟩ := List.mem_iff_getElem?.mp inLog
    rw [stored j id (tracked.queued_at j id caller logged (by rw [returned]; rfl))]
    exact serves replies all valid j k caller logged wired

/-- Any number of pings and sends interleave, all succeed, and the remote answers
in wire order afterwards. Every sender finds its own reply, whatever the replies
are, exactly when the schedule put tokens and ids in wire order. -/
theorem own_replies_iff_in_wire_order (lib : Interproc) (call : ι → Call) (driver : Driver)
    (events : List (Event ι)) (m : Machine ι) (noTokens : driver.fifoSendTypes.items = [])
    (noIds : driver.fifoUniqueIds.items = [])
    (own : ∀ event ∈ events, event.isCallback = false)
    (ran : run (step lib call) (start driver) events = some m) (done : m.Done) :
    RepliesReachCallers lib call m ↔ InWireOrder call events := by
  have tracked : m.Tracked call := tracked_run (start_tracked call driver noTokens noIds) own ran
  have accepted : ∀ caller, (m.pc caller).refused = false := by
    intro caller
    have finished := done caller
    cases stands : m.pc caller with
    | exited exit => cases exit <;> simp_all [Pc.done, Pc.refused]
    | _ => rfl
  obtain ⟨_, wire, tokens, ids⟩ := orders_run own ran accepted
  have sameLength : m.wire.length = (marks call m.tokenPuts).length := by
    simp [marks, (tracked.tokens_perm done).length_eq]
  have asked : ∀ caller ∈ m.idPuts, caller ∈ m.wire :=
    fun caller member => ((tracked.mem_idPuts done caller).mp member).1
  have sends : ∀ caller ∈ m.idPuts, (call caller).isSend = true :=
    fun caller member => ((tracked.mem_idPuts done caller).mp member).2
  have complete : ∀ caller ∈ m.wire, (call caller).isSend = true → caller ∈ m.idPuts :=
    fun caller member isSend => (tracked.mem_idPuts done caller).mpr ⟨member, isSend⟩
  rw [tracked.reach_iff_served done,
    own_answers_iff (marks call m.tokenPuts) m.wire m.idPuts (fun reply => lib.crcOk reply = true)
      (lib.stamp .ack Data.zero) (lib.stamp .ack (Data.pad [1])) (by simp) (by simp)
      (stamp_injective lib .ack _ _ (by decide)) sameLength tracked.sent.unique asked
      (tracked.served done),
    select_eq_iff (marks call m.tokenPuts) m.wire m.idPuts (fun caller => (call caller).isSend)
      sameLength tracked.sent.unique sends complete]
  simp only [start, List.nil_append] at wire tokens ids
  rw [InWireOrder, ← wire, ← tokens, ← ids]
  rfl

/-- Caller 0 pings; callers 1 and 2 send. -/
def threeCalls : Fin 3 → Call
  | 0 => .pingRproc
  | 1 => .sendMsg (crc32Interproc.stamp .paramGet (Data.pad [1]))
  | 2 => .sendMsg (crc32Interproc.stamp .paramGet (Data.pad [2]))

/-- The three calls overlap; tokens and ids keep the wire order 1, 0, 2. -/
def orderedSchedule : List (Event (Fin 3)) :=
  [.rpmsgSend 1 0, .rpmsgSend 0 0, .putToken 1, .putToken 0, .xaAllocCyclic 1 true,
    .rpmsgSend 2 0, .putToken 2, .xaAllocCyclic 2 true, .putId 1, .putId 2, .copyId 2 true,
    .copyId 1 true]

set_option maxRecDepth 10000 in
/-- The law at that schedule: all three succeed and the senders get their own. -/
theorem ordered_schedule_reaches :
    ∃ m, run (step crc32Interproc threeCalls) (start (System.initial 0).driver)
        orderedSchedule = some m ∧ m.wire = [1, 0, 2] ∧
      RepliesReachCallers crc32Interproc threeCalls m := by
  refine ⟨_, rfl, rfl, (own_replies_iff_in_wire_order crc32Interproc threeCalls
    (System.initial 0).driver orderedSchedule _ rfl rfl (by decide) rfl ?_).mpr ?_⟩
  · intro caller
    match caller with
    | 0 => rfl
    | 1 => rfl
    | 2 => rfl
  · exact ⟨rfl, rfl⟩

/-- Two sends: the first to send is the second to queue its id. -/
def crossedSchedule : List (Event (Fin 3)) :=
  [.rpmsgSend 1 0, .rpmsgSend 2 0, .putToken 1, .putToken 2, .xaAllocCyclic 1 true,
    .xaAllocCyclic 2 true, .putId 2, .putId 1, .copyId 1 true, .copyId 2 true]

set_option maxRecDepth 10000 in
/-- Success of all calls is not enough: under this schedule each of the two
senders finds the other's reply. -/
theorem crossed_ids_swap_replies :
    ¬ ∀ (ι : Type) [DecidableEq ι] (lib : Interproc) (call : ι → Call) (driver : Driver)
        (events : List (Event ι)) (m : Machine ι), driver.fifoSendTypes.items = [] →
      driver.fifoUniqueIds.items = [] → (∀ event ∈ events, event.isCallback = false) →
      run (step lib call) (start driver) events = some m → m.Done →
      RepliesReachCallers lib call m := by
  intro law
  have reach := law (Fin 3) crc32Interproc threeCalls (System.initial 0).driver crossedSchedule _
    rfl rfl (by decide) rfl (fun | 0 => rfl | 1 => rfl | 2 => rfl)
  let replies :=
    [crc32Interproc.stamp .ack (Data.pad [1]), crc32Interproc.stamp .ack (Data.pad [2])]
  obtain ⟨final, ran, own⟩ := reach {} replies rfl rfl rfl (by simp [replies])
  obtain rfl := Option.some.inj ran
  have first := own 1 1 0 rfl rfl
  exact absurd first (by decide)

end Machine

end Stm32Ecu
