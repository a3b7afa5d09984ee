import Mathlib.Data.Fintype.Basic
import Stm32Ecu.SendSteps

/-!
# Bookkeeping and the reply that may overtake it

A single client issues one call after another, so calls do not overlap. What may
still cut in is the receive callback: the message is on the wire before its token
and its id are queued, and the remote may answer at once. As long as each reply
waits for its own request to be booked, the oldest token and the oldest id are
always those of the request being answered. A reply that comes earlier finds the
queue without its token.
-/

namespace Stm32Ecu

open Runs

variable {ι : Type}

/-- The call has queued its token and, if it is a send, its id. -/
def Call.booked (call : Call) (pc : Pc) : Bool :=
  pc.tokened && (!call.isSend || pc.queuedId.isSome)

namespace Machine

/-- The callers whose messages are still to be answered, in wire order. -/
def unanswered (m : Machine ι) : List ι := m.wire.drop m.answered

/-- Those among them whose token is queued. -/
def owners (m : Machine ι) : List ι := m.unanswered.filter (fun caller => (m.pc caller).tokened)

/-- The caller that put the oldest token still queued: the queue holds the latest
of the puts. -/
def oldestToken (m : Machine ι) : Option ι :=
  (m.tokenPuts.drop (m.tokenPuts.length - m.driver.fifoSendTypes.items.length)).head?

/-- A single client begins a call only while none is in flight. -/
def SingleClient (m : Machine ι) : Event ι → Prop
  | .rpmsgSend _ _ => ∀ caller, (m.pc caller).inFlight = false
  | _ => True

/-- A reply comes only after its own request was booked. -/
def RepliesAfterBooking (call : ι → Call) (m : Machine ι) : Event ι → Prop
  | .callback _ _ => ∀ caller, m.wire[m.answered]? = some caller →
      (call caller).booked (m.pc caller) = true
  | _ => True

instance [Fintype ι] (m : Machine ι) : ∀ event, Decidable (SingleClient m event)
  | .rpmsgSend _ _ => inferInstanceAs (Decidable (∀ caller, (m.pc caller).inFlight = false))
  | .putToken _ => isTrue trivial
  | .xaAllocCyclic _ _ => isTrue trivial
  | .putId _ => isTrue trivial
  | .copyId _ _ => isTrue trivial
  | .callback _ _ => isTrue trivial

instance [Fintype ι] [DecidableEq ι] (call : ι → Call) (m : Machine ι) :
    ∀ event, Decidable (RepliesAfterBooking call m event)
  | .rpmsgSend _ _ => isTrue trivial
  | .putToken _ => isTrue trivial
  | .xaAllocCyclic _ _ => isTrue trivial
  | .putId _ => isTrue trivial
  | .copyId _ _ => isTrue trivial
  | .callback _ _ => inferInstanceAs (Decidable (∀ caller, m.wire[m.answered]? = some caller →
      (call caller).booked (m.pc caller) = true))

/-- The callback that handles the reply to a request finds that request's token
at the head and, for a send, that request's id. -/
def HeadsMatch (call : ι → Call) (m : Machine ι) : Event ι → Prop
  | .callback _ _ => ∀ caller, m.wire[m.answered]? = some caller →
      m.oldestToken = some caller ∧
      m.driver.fifoSendTypes.items.head? = some (call caller).token ∧
      ((call caller).isSend = true → ∃ id, (m.pc caller).queuedId = some id ∧
        m.driver.fifoUniqueIds.items.head? = some id)
  | _ => True

/-- What a single client's runs keep: the queues hold the tokens and ids of the
unanswered requests in wire order, every answered request was booked, and only
the last request can be in flight. -/
structure Serial (call : ι → Call) (m : Machine ι) : Prop where
  within : m.answered ≤ m.wire.length
  sent : Logged Pc.onWire m.pc m.wire
  reaches : ∀ caller, (call caller).reaches (m.pc caller) = true
  last : ∀ caller, (m.pc caller).inFlight = true → m.wire.getLast? = some caller
  booked : ∀ caller ∈ m.wire.take m.answered, (call caller).booked (m.pc caller) = true
  latest : m.owners <:+ m.tokenPuts
  tokens : m.driver.fifoSendTypes.items = m.owners.map (fun caller => (call caller).token)
  ids : m.driver.fifoUniqueIds.items = m.unanswered.filterMap (fun caller => (m.pc caller).queuedId)

/-- Nothing is on the wire at the start. -/
theorem start_serial (call : ι → Call) (driver : Driver)
    (noTokens : driver.fifoSendTypes.items = []) (noIds : driver.fifoUniqueIds.items = []) :
    Serial call (start driver) := by
  constructor
  · exact Nat.le_refl 0
  · exact ⟨List.nodup_nil, by simp [start, Pc.onWire]⟩
  · simp [start, Call.reaches]
  · simp [start, Pc.inFlight]
  · simp [start]
  · simp [start, owners, unanswered]
  · simp [start, owners, unanswered, noTokens]
  · simp [start, unanswered, noIds]

/-- The request about to be answered is the first unanswered one. -/
theorem unanswered_cons (m : Machine ι) (caller : ι) (next : m.wire[m.answered]? = some caller) :
    m.unanswered = caller :: m.wire.drop (m.answered + 1) := by
  obtain ⟨inside, found⟩ := List.getElem?_eq_some_iff.mp next
  rw [unanswered, List.drop_eq_getElem_cons inside, found]

/-- The queues of a serial machine give every booked request its own heads. -/
theorem Serial.heads {call : ι → Call} {m : Machine ι} (serial : m.Serial call) (caller : ι)
    (next : m.wire[m.answered]? = some caller)
    (booked : (call caller).booked (m.pc caller) = true) :
    m.oldestToken = some caller ∧
      m.driver.fifoSendTypes.items.head? = some (call caller).token ∧
      ((call caller).isSend = true → ∃ id, (m.pc caller).queuedId = some id ∧
        m.driver.fifoUniqueIds.items.head? = some id) := by
  rw [Call.booked, Bool.and_eq_true] at booked
  have first : m.owners = caller :: (m.wire.drop (m.answered + 1)).filter
      (fun caller => (m.pc caller).tokened) := by
    simp [owners, unanswered_cons m caller next, booked.1]
  have sameLength : m.driver.fifoSendTypes.items.length = m.owners.length := by
    rw [serial.tokens, List.length_map]
  refine ⟨?_, ?_, ?_⟩
  · rw [oldestToken, sameLength, ← List.suffix_iff_eq_drop.mp serial.latest, first]
    rfl
  · rw [serial.tokens, first]
    rfl
  · intro isSend
    have queued : (m.pc caller).queuedId.isSome = true := by simpa [isSend] using booked.2
    obtain ⟨id, holds⟩ := Option.isSome_iff_exists.mp queued
    refine ⟨id, holds, ?_⟩
    simp [serial.ids, unanswered_cons m caller next, holds]

/-- A request in flight that is not yet booked is the last unanswered one. -/
theorem Serial.unbooked_last {call : ι → Call} {m : Machine ι} (serial : m.Serial call)
    (caller : ι) (flying : (m.pc caller).inFlight = true)
    (unbooked : (call caller).booked (m.pc caller) = false) :
    ∃ front, m.unanswered = front ++ [caller] ∧ caller ∉ front := by
  obtain ⟨front, wire⟩ := List.getLast?_eq_some_iff.mp (serial.last caller flying)
  have unique := serial.sent.unique
  rw [wire, List.nodup_append_comm, List.singleton_append, List.nodup_cons] at unique
  have within : m.answered ≤ front.length := by
    by_contra beyond
    have all : m.wire.take m.answered = m.wire := by
      apply List.take_of_length_le
      rw [wire, List.length_append, List.length_singleton]
      omega
    have member : caller ∈ m.wire.take m.answered := by
      rw [all, wire]
      simp
    rw [serial.booked caller member] at unbooked
    cases unbooked
  refine ⟨front.drop m.answered, ?_, ?_⟩
  · rw [unanswered, wire, List.drop_append_of_le_length within]
  · intro member
    exact unique.1 (List.mem_of_mem_drop member)

variable [DecidableEq ι]

/-- A move that queues nothing. -/
theorem Serial.move {call : ι → Call} {m : Machine ι} (serial : m.Serial call) (caller : ι)
    (before after : Pc) (stands : m.pc caller = before) (wire : after.onWire = before.onWire)
    (token : after.tokened = before.tokened) (queued : after.queuedId = before.queuedId)
    (flight : after.inFlight = true → before.inFlight = true)
    (here : (call caller).reaches after = true) : (m.move caller after).Serial call := by
  have sameToken := reading_move Pc.tokened m.pc caller before after stands token
  have sameQueued := reading_move Pc.queuedId m.pc caller before after stands queued
  constructor
  · exact serial.within
  · exact serial.sent.stay caller before after stands wire
  · exact reaches_move caller after serial.reaches here
  · intro other flying
    by_cases moved : other = caller
    · subst moved
      simp only [Machine.move, Function.update_self] at flying
      exact serial.last other (by rw [stands]; exact flight flying)
    · simp only [Machine.move, Function.update_of_ne moved] at flying
      exact serial.last other flying
  · simpa only [Machine.move, Call.booked, sameToken, sameQueued] using serial.booked
  · simpa only [Machine.move, owners, unanswered, sameToken] using serial.latest
  · simpa only [Machine.move, owners, unanswered, sameToken] using serial.tokens
  · simpa only [Machine.move, unanswered, sameQueued] using serial.ids

/-- A message is handed over while no call is in flight; it is now the last one. -/
theorem Serial.send {call : ι → Call} {m : Machine ι} (serial : m.Serial call) (caller : ι)
    (atReady : m.pc caller = .ready) (idle : ∀ other, (m.pc other).inFlight = false) :
    Serial call { m.move caller .sent with wire := m.wire ++ [caller] } := by
  have sameToken := reading_move Pc.tokened m.pc caller .ready .sent atReady rfl
  have sameQueued := reading_move Pc.queuedId m.pc caller .ready .sent atReady rfl
  have longer : (m.wire ++ [caller]).drop m.answered = m.unanswered ++ [caller] :=
    List.drop_append_of_le_length serial.within
  have noToken : (m.pc caller).tokened = false := by rw [atReady]; rfl
  have noId : (m.pc caller).queuedId = none := by rw [atReady]; rfl
  constructor
  · exact Nat.le_trans serial.within (by simp)
  · exact serial.sent.enter caller .ready .sent atReady rfl rfl
  · exact reaches_move caller .sent serial.reaches rfl
  · intro other flying
    by_cases moved : other = caller
    · simp [moved]
    · simp only [Machine.move, Function.update_of_ne moved, idle other] at flying
      cases flying
  · simpa only [Machine.move, Call.booked, sameToken, sameQueued,
      List.take_append_of_le_length serial.within] using serial.booked
  · simpa [Machine.move, owners, unanswered, longer, sameToken, noToken] using serial.latest
  · simpa [Machine.move, owners, unanswered, longer, sameToken, noToken] using serial.tokens
  · simpa [Machine.move, unanswered, longer, sameQueued, noId] using serial.ids

/-- The readings of earlier callers do not change when another caller moves. -/
theorem readings_of_others {γ : Type} (reading : Pc → γ) (pc : ι → Pc) (caller : ι) (after : Pc)
    (others : List ι) (absent : caller ∉ others) (other : ι) (member : other ∈ others) :
    reading (Function.update pc caller after other) = reading (pc other) := by
  have apart : other ≠ caller := fun same => absent (same ▸ member)
  rw [Function.update_of_ne apart]

/-- Answered requests stay booked while a caller that is not booked moves. -/
theorem booked_kept {call : ι → Call} {pc : ι → Pc} (caller : ι) (before after : Pc)
    (answered : List ι) (stands : pc caller = before)
    (unbooked : (call caller).booked before = false)
    (booked : ∀ other ∈ answered, (call other).booked (pc other) = true) (other : ι)
    (member : other ∈ answered) :
    (call other).booked (Function.update pc caller after other) = true := by
  have apart : other ≠ caller := by
    rintro rfl
    have holds := booked other member
    rw [stands, unbooked] at holds
    cases holds
  rw [Function.update_of_ne apart]
  exact booked other member

/-- The token of the last request goes to the end of the queue. -/
theorem Serial.putToken {call : ι → Call} {m : Machine ι} (serial : m.Serial call) (caller : ι)
    (types : BoundedFifo SentMsg 512) (atSent : m.pc caller = .sent)
    (added : types.items = m.driver.fifoSendTypes.items ++ [(call caller).token]) :
    Serial call { m.move caller (call caller).afterToken with
      driver := { m.driver with fifoSendTypes := types }
      tokenPuts := m.tokenPuts ++ [caller] } := by
  have sameQueued := reading_move Pc.queuedId m.pc caller .sent (call caller).afterToken atSent
    (by cases call caller <;> rfl)
  have nowTokened : (call caller).afterToken.tokened = true := by cases call caller <;> rfl
  have unbooked : (call caller).booked .sent = false := rfl
  obtain ⟨front, unanswered_eq, absent⟩ := serial.unbooked_last caller (by rw [atSent]; rfl)
    (by rw [atSent]; rfl)
  have before : m.owners = front.filter (fun other => (m.pc other).tokened) := by
    simp [owners, unanswered_eq, atSent, Pc.tokened]
  have after : m.unanswered.filter (fun other =>
      (Function.update m.pc caller (call caller).afterToken other).tokened) =
      m.owners ++ [caller] := by
    rw [unanswered_eq, List.filter_append, before]
    congr 1
    · exact List.filter_congr (readings_of_others Pc.tokened m.pc caller _ front absent)
    · simp [nowTokened]
  constructor
  · exact serial.within
  · exact serial.sent.stay caller .sent _ atSent (by cases call caller <;> rfl)
  · exact reaches_move caller _ serial.reaches (by cases call caller <;> rfl)
  · intro other flying
    by_cases moved : other = caller
    · exact serial.last other (by rw [moved, atSent]; rfl)
    · simp only [Machine.move, Function.update_of_ne moved] at flying
      exact serial.last other flying
  · exact booked_kept caller .sent _ _ atSent unbooked serial.booked
  · have grown : m.owners ++ [caller] <:+ m.tokenPuts ++ [caller] := by
      obtain ⟨earlier, whole⟩ := serial.latest
      exact ⟨earlier, by rw [← List.append_assoc, whole]⟩
    rw [← after] at grown
    exact grown
  · have queue : types.items = (m.owners ++ [caller]).map (fun other => (call other).token) := by
      rw [added, serial.tokens, List.map_append]
      rfl
    rw [← after] at queue
    exact queue
  · simpa only [Machine.move, unanswered, sameQueued] using serial.ids

/-- The id of the last request goes to the end of the queue. -/
theorem Serial.putId {call : ι → Call} {m : Machine ι} (serial : m.Serial call) (caller : ι)
    (id : Nat) (ids : BoundedFifo Nat 256) (atAllocated : m.pc caller = .allocated id)
    (added : ids.items = m.driver.fifoUniqueIds.items ++ [id]) :
    Serial call { m.move caller (.idPut id) with
      driver := { m.driver with fifoUniqueIds := ids }
      idPuts := m.idPuts ++ [caller] } := by
  have sameToken := reading_move Pc.tokened m.pc caller (.allocated id) (.idPut id) atAllocated rfl
  have isSend : (call caller).isSend = true := by
    have here := serial.reaches caller
    rw [atAllocated] at here
    exact here
  have unbooked : (call caller).booked (.allocated id) = false := by
    simp [Call.booked, isSend, Pc.queuedId]
  obtain ⟨front, unanswered_eq, absent⟩ := serial.unbooked_last caller (by rw [atAllocated]; rfl)
    (by rw [atAllocated]; exact unbooked)
  have after : m.unanswered.filterMap (fun other =>
      (Function.update m.pc caller (.idPut id) other).queuedId) =
      m.driver.fifoUniqueIds.items ++ [id] := by
    rw [serial.ids, unanswered_eq, List.filterMap_append, List.filterMap_append]
    congr 1
    · rw [List.filterMap_congr (readings_of_others Pc.queuedId m.pc caller _ front absent)]
      simp [atAllocated, Pc.queuedId]
    · simp [Pc.queuedId]
  constructor
  · exact serial.within
  · exact serial.sent.stay caller (.allocated id) _ atAllocated rfl
  · exact reaches_move caller _ serial.reaches isSend
  · intro other flying
    by_cases moved : other = caller
    · exact serial.last other (by rw [moved, atAllocated]; rfl)
    · simp only [Machine.move, Function.update_of_ne moved] at flying
      exact serial.last other flying
  · exact booked_kept caller (.allocated id) _ _ atAllocated unbooked serial.booked
  · simpa only [Machine.move, owners, unanswered, sameToken] using serial.latest
  · simpa only [Machine.move, owners, unanswered, sameToken] using serial.tokens
  · rw [← added] at after
    exact after.symm

omit [DecidableEq ι] in
/-- The reply to a booked request takes that request's token and id away. -/
theorem Serial.callback {call : ι → Call} {m : Machine ι} (serial : m.Serial call)
    (lib : Interproc) (kernel : Kernel) (reply : InterprocMsg) (caller : ι)
    (next : m.wire[m.answered]? = some caller) (valid : lib.crcOk reply = true)
    (booked : (call caller).booked (m.pc caller) = true) :
    Serial call { m with
      driver := (m.driver.rpmsgSampleCb lib kernel (some reply) lib.sizeofMsg).state
      answered := m.answered + 1 } := by
  have inside : m.answered < m.wire.length := (List.getElem?_eq_some_iff.mp next).1
  have split_eq := unanswered_cons m caller next
  have both := booked
  rw [Call.booked, Bool.and_eq_true] at both
  have first : m.owners = caller :: (m.wire.drop (m.answered + 1)).filter
      (fun other => (m.pc other).tokened) := by
    simp [owners, split_eq, both.1]
  have head := serial.tokens
  rw [first, List.map_cons] at head
  obtain ⟨tokens, ids⟩ := Driver.rpmsgSampleCb_queues lib kernel reply m.driver _ _ valid head
  constructor
  · exact inside
  · exact serial.sent
  · exact serial.reaches
  · exact serial.last
  · intro other member
    rw [List.take_add_one, next, List.mem_append] at member
    rcases member with earlier | same
    · exact serial.booked other earlier
    · obtain rfl : other = caller := by simpa using same
      exact booked
  · have shorter : (m.wire.drop (m.answered + 1)).filter (fun other => (m.pc other).tokened) <:+
        m.owners := by
      rw [first]
      exact List.suffix_cons _ _
    exact shorter.trans serial.latest
  · exact tokens
  · refine ids.trans ?_
    rw [serial.ids, split_eq]
    cases kind : call caller with
    | pingRproc =>
      have noId : (m.pc caller).queuedId = none := by
        have here := serial.reaches caller
        rw [kind] at here
        cases stands : m.pc caller with
        | exited exit => cases exit <;> simp_all [Call.reaches, Call.isSend, Pc.queuedId]
        | _ => simp_all [Call.reaches, Call.isSend, Pc.queuedId]
      simp [Call.token, noId, unanswered]
    | sendMsg arg =>
      have queued : (m.pc caller).queuedId.isSome = true := by
        simpa [kind, Call.isSend] using both.2
      obtain ⟨id, holds⟩ := Option.isSome_iff_exists.mp queued
      simp [Call.token, holds, unanswered]

/-- Every step of a single client whose replies wait keeps the queues in order. -/
theorem serial_step {lib : Interproc} {call : ι → Call} {m next : Machine ι} {event : Event ι}
    (serial : m.Serial call) (single : SingleClient m event)
    (waits : RepliesAfterBooking call m event) (taken : Taken lib call m event next) :
    next.Serial call := by
  cases taken with
  | sent caller atReady => exact serial.send caller atReady single
  | sendFailed caller ret failed atReady =>
    exact serial.move caller .ready _ atReady rfl rfl rfl nofun rfl
  | tokenPut caller types atSent added => exact serial.putToken caller types atSent added
  | tokenRefused caller atSent =>
    exact serial.move caller .sent _ atSent rfl rfl rfl nofun rfl
  | allocated caller memory id atToken free =>
    have here := serial.reaches caller
    rw [atToken] at here
    have moved := serial.move caller .tokenPut (.allocated id) atToken rfl rfl rfl (fun _ => rfl)
      here
    exact { moved with }
  | noId caller memory atToken =>
    have here := serial.reaches caller
    rw [atToken] at here
    exact serial.move caller .tokenPut _ atToken rfl rfl rfl nofun here
  | idPut caller id ids atAllocated added => exact serial.putId caller id ids atAllocated added
  | idRefused caller id atAllocated =>
    have here := serial.reaches caller
    rw [atAllocated] at here
    exact serial.move caller (.allocated id) _ atAllocated rfl rfl rfl nofun here
  | returned caller id atId =>
    have here := serial.reaches caller
    rw [atId] at here
    exact serial.move caller (.idPut id) _ atId rfl rfl rfl nofun here
  | copyFailed caller id atId =>
    have here := serial.reaches caller
    rw [atId] at here
    exact serial.move caller (.idPut id) _ atId rfl rfl rfl nofun here
  | callback kernel reply pending valid =>
    have next : m.wire[m.answered]? = some (m.wire.get ⟨m.answered, pending⟩) := by simp [pending]
    exact serial.callback lib kernel reply _ next valid (waits _ next)

/-- In every run of a single client, with callbacks between any two steps, each
callback finds the token and the id of the request it answers, provided that the
request was booked before its reply was handled. -/
theorem heads_match_after_booking (lib : Interproc) (call : ι → Call) (driver : Driver)
    (events : List (Event ι)) (noTokens : driver.fifoSendTypes.items = [])
    (noIds : driver.fifoUniqueIds.items = [])
    (single : Along (step lib call) SingleClient (start driver) events)
    (waits : Along (step lib call) (RepliesAfterBooking call) (start driver) events) :
    Along (step lib call) (HeadsMatch call) (start driver) events := by
  refine along_of_invariant (step lib call) _ (HeadsMatch call) (fun m => m.Serial call) ?_ ?_
    (start driver) events (start_serial call driver noTokens noIds)
    (along_and _ _ _ _ _ single waits)
  · intro m event next serial admitted taken
    exact serial_step serial admitted.1 admitted.2 (taken_of_step lib call m next event taken)
  · intro m event serial admitted
    cases event with
    | callback kernel reply =>
      intro caller next
      exact serial.heads caller next (admitted.2 caller next)
    | _ => trivial

/-- The first request is a ping, the second a send. -/
def pingThenSend : Fin 2 → Call
  | 0 => .pingRproc
  | 1 => .sendMsg (crc32Interproc.stamp .paramGet Data.zero)

/-- The send is answered after its id was queued and before the ioctl returns. -/
def bookedRun : List (Event (Fin 2)) :=
  [.rpmsgSend 0 0, .putToken 0, .rpmsgSend 1 0, .callback {} (crc32Interproc.stamp .ack Data.zero),
    .putToken 1, .xaAllocCyclic 1 true, .putId 1,
    .callback {} (crc32Interproc.stamp .ack Data.zero), .copyId 1 true]

set_option maxRecDepth 10000 in
/-- The law at that run, which takes all its steps. -/
theorem booked_run_heads_match :
    (∃ m, run (step crc32Interproc pingThenSend) (start (System.initial 0).driver) bookedRun =
        some m ∧ m.pc 1 = .exited (.returned 1)) ∧
      Along (step crc32Interproc pingThenSend) (HeadsMatch pingThenSend)
        (start (System.initial 0).driver) bookedRun := by
  refine ⟨⟨_, rfl, rfl⟩, heads_match_after_booking crc32Interproc pingThenSend
    (System.initial 0).driver bookedRun rfl rfl ?_ ?_⟩
  · decide +kernel
  · decide +kernel

/-- The reply to the first request arrives right after its `rpmsg_send`. -/
def earlyReplyRun : List (Event (Fin 2)) :=
  [.rpmsgSend 1 0, .callback {} (crc32Interproc.stamp .ack Data.zero)]

set_option maxRecDepth 10000 in
/-- A single client is not enough: a reply that overtakes the bookkeeping finds no
token and is dropped. -/
theorem early_reply_finds_no_token :
    ¬ ∀ (ι : Type) [DecidableEq ι] (lib : Interproc) (call : ι → Call) (driver : Driver)
        (events : List (Event ι)), driver.fifoSendTypes.items = [] →
      driver.fifoUniqueIds.items = [] →
      Along (step lib call) SingleClient (start driver) events →
      Along (step lib call) (HeadsMatch call) (start driver) events := by
  intro law
  have matched := law (Fin 2) crc32Interproc pingThenSend (System.initial 0).driver earlyReplyRun
    rfl rfl (by decide +kernel)
  obtain ⟨_, head, _⟩ := (matched.2 _ rfl).1 1 rfl
  cases head

end Machine

end Stm32Ecu
