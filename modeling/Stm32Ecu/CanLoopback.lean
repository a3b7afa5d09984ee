import Stm32Ecu.CanReceive
import Stm32Ecu.CanTransmit

/-!
# Traffic in loopback mode

The driver leaves the controller in loopback mode, so what `CANSPI_Transmit` hands over is
what `CANSPI_Receive` gets back. Each call is one or more SPI transactions, and between any
two of them the controller may move a pending frame to a free receive buffer, or drop it
when both are full. The driver keeps its status and its id registers in variables that all
calls share, so it is to be called only after the call before has returned: the calls here
follow one another.

Every accepted message is in one of four places: received, in a full receive buffer,
pending, or lost. A message is lost only while three are outstanding, and from any state
the traffic can be brought to an end with nothing more lost. The order is not kept, for
`CANSPI_Receive` prefers the first receive buffer to the older frame in the second. All of
this is about messages of at most eight bytes: a larger length, or the bit for remote
frames, comes back as something else.
-/

namespace Stm32Ecu

open Runs Mcp2515

/-- The receive flags of `ctrl_status_t`. -/
def rx0if (ctrlStatus : UInt8) : UInt8 := bitField ctrlStatus 0 1

/-- `RX1IF`. -/
def rx1if (ctrlStatus : UInt8) : UInt8 := bitField ctrlStatus 1 1

/-- `CANSPI_messagesInBuffer`. -/
def canspiMessagesInBuffer (c : Controller) : UInt8 :=
  let ctrlStatus := c.status
  let messageCount : UInt8 := if rx0if ctrlStatus ≠ 0 then 1 else 0
  if rx1if ctrlStatus ≠ 0 then messageCount + 1 else messageCount

namespace Mcp2515

/-- Both receive buffers. -/
def RxBuffer.all : List RxBuffer := [.rxb0, .rxb1]

/-- The frames in full receive buffers. -/
def Controller.held (c : Controller) : List Frame :=
  (RxBuffer.all.filter c.rxIf).map (fun m => (c.rx m).frame)

end Mcp2515

/-- Where the driver is: outside a call, or before the next transaction of one. -/
inductive CallAt where
  | idle
  | loading (msg : UCanMsg) (load rts : UInt8)
  | requesting (msg : UCanMsg) (rts : UInt8)
  | reading (rxStatus : UInt8)

/-- The controller with the frames that have left its transmit buffers, the messages for
which a call has returned 1, and the frames that found no receive buffer. -/
structure Loopback where
  bus : Bus
  callAt : CallAt
  accepted : List UCanMsg
  received : List UCanMsg
  lost : List Frame

/-- The transactions of the driver, with what memory holds behind a message when it is
loaded, and what the controller does by itself. -/
inductive LoopbackEvent where
  | transmit (msg : UCanMsg)
  | load (behind : Nat → UInt8)
  | request
  | receive
  | read
  | loop (n : TxBuffer) (m : RxBuffer)
  | overflow (n : TxBuffer)

/-- A message to be sent has at most eight bytes. -/
def LoopbackEvent.short : LoopbackEvent → Bool
  | .transmit msg => msg.dlc.toNat ≤ 8
  | _ => true

namespace Loopback

/-- A controller, before any traffic. -/
def start (c : Controller) : Loopback := ⟨⟨c, []⟩, .idle, [], [], []⟩

/-- One transaction, or one move of the controller. A call starts when none is under way. -/
def step (t : Loopback) : LoopbackEvent → Option Loopback
  | .transmit msg =>
      match t.callAt with
      | .idle =>
          match transmitBranch t.bus.controller.status with
          | some (load, rts) => some { t with callAt := .loading msg load rts }
          | none => some t
      | _ => none
  | .load behind =>
      match t.callAt with
      | .loading msg load rts =>
          let idReg := convertCANid2Reg msg.id msg.idType
          some { t with
            bus := t.bus.write (mcp2515LoadTxSequence load idReg msg.dlc (msg.dataFrom behind))
            callAt := .requesting msg rts }
      | _ => none
  | .request =>
      match t.callAt with
      | .requesting msg rts =>
          some { t with
            bus := t.bus.write [rts]
            callAt := .idle
            accepted := t.accepted ++ [msg] }
      | _ => none
  | .receive =>
      match t.callAt with
      | .idle =>
          let rxStatus := t.bus.controller.rxStatus
          some (if rxBuffer rxStatus ≠ 0 then { t with callAt := .reading rxStatus } else t)
      | _ => none
  | .read =>
      match t.callAt with
      | .reading rxStatus =>
          let read := receiveRead t.bus.controller rxStatus
          let rxReg : Registers := Registers.load (fun _ => 0) 0 read.1
          some { t with
            bus := { t.bus with controller := read.2 }
            callAt := .idle
            received := t.received ++ [messageOf (msgType rxStatus) rxReg] }
      | _ => none
  | .loop n m =>
      (t.bus.controller.loopback n m).map fun c =>
        { t with bus := ⟨c, t.bus.sent ++ [(t.bus.controller.tx n).frame]⟩ }
  | .overflow n =>
      if t.bus.controller.txReq n = true ∧ ∀ m ∈ RxBuffer.all, t.bus.controller.rxIf m = true then
        some { t with
          bus := t.bus.complete n
          lost := t.lost ++ [(t.bus.controller.tx n).frame] }
      else none

/-! ## What the buffers carry -/

section Buffers

/-- Bits 2 and 4 of `SIDL` say nothing about the frame. -/
theorem masked_sidl (sidl : UInt8) :
    (0xEB &&& sidl).toNat / 32 = sidl.toNat / 32 ∧ (0xEB &&& sidl).toNat % 4 = sidl.toNat % 4 ∧
      (0xEB &&& sidl).toNat / 8 % 2 = sidl.toNat / 8 % 2 := by
  have all : ∀ bits : BitVec 8,
      (0xEB#8 &&& bits).toNat / 32 = bits.toNat / 32 ∧
        (0xEB#8 &&& bits).toNat % 4 = bits.toNat % 4 ∧
        (0xEB#8 &&& bits).toNat / 8 % 2 = bits.toNat / 8 % 2 := by
    decide
  exact all sidl.toBitVec

/-- A short data frame arrives as it was. -/
theorem copied_frame (rx sent : Registers) (short : sent.dlc.toNat ≤ 8) :
    (rx.copy sent).frame = sent.frame ∧ (rx.copy sent).dlc = sent.dlc := by
  have whole : 0x0F &&& sent.dlc = sent.dlc := by
    have all : ∀ bits : BitVec 8, bits.toNat ≤ 8 → 0x0F#8 &&& bits = bits := by decide
    exact UInt8.toBitVec_inj.mp (all sent.dlc.toBitVec short)
  have dlc : (rx.copy sent).dlc = sent.dlc := whole
  obtain ⟨high, low, format⟩ := masked_sidl sent.sidl
  have extended : (rx.copy sent).extended = sent.extended := by
    rw [Registers.extended, Registers.extended, ← format]
    rfl
  have id : (rx.copy sent).id = sent.id := by
    rw [Registers.id, Registers.id, extended, ← high, ← low]
    rfl
  have remote : (rx.copy sent).remote = sent.remote := by
    rw [Registers.remote, Registers.remote, dlc]
  have length : (rx.copy sent).length = sent.length := by
    rw [Registers.length, Registers.length, remote, dlc]
  have few : sent.length ≤ 8 := by
    rw [Registers.length]
    split <;> omega
  have count : ((List.ofFn sent.data).take sent.length).length = sent.length := by
    rw [List.length_take, List.length_ofFn, Nat.min_eq_left few]
  have data : (List.ofFn (rx.copy sent).data).take sent.length =
      (List.ofFn sent.data).take sent.length := by
    have stored := Registers.load_data_take rx sent.sidh (0xEB &&& sent.sidl) sent.eid8 sent.eid0
      (0x0F &&& sent.dlc) ((List.ofFn sent.data).take sent.length) (by omega)
    rw [count] at stored
    exact stored
  refine ⟨?_, dlc⟩
  rw [Registers.frame, Registers.frame, extended, id, remote, dlc, length, data]

/-- What the driver makes of a short data frame stands for that frame. -/
theorem messageOf_frame (r : Registers) (short : r.dlc.toNat ≤ 8) :
    (messageOf (UInt8.ofNat r.msgType) r).frame = r.frame := by
  have remote : r.remote = false := ((plainData_iff r).mpr short).1
  obtain ⟨type, id⟩ := (messageOf_identifies r).mpr (by simp [remote])
  have sidh := r.sidh.toNat_lt
  have sidl := r.sidl.toNat_lt
  have eid8 := r.eid8.toNat_lt
  have eid0 := r.eid0.toNat_lt
  have length : r.length = r.dlc.toNat := by
    rw [Registers.length, remote]
    simp only [Bool.false_eq_true, ↓reduceIte]
    omega
  have dlc : (messageOf (UInt8.ofNat r.msgType) r).dlc = r.dlc := rfl
  have data : (messageOf (UInt8.ofNat r.msgType) r).data = r.data := rfl
  rw [UCanMsg.frame, Registers.frame, type, id, dlc, data, remote, length,
    Nat.mod_eq_of_lt (show r.dlc.toNat < 16 by omega)]
  cases extended : r.extended with
  | true =>
    have fits : r.id < 2 ^ 29 := by
      simp only [Registers.id, extended, ↓reduceIte]
      omega
    simpa using fits
  | false =>
    have fits : r.id < 2 ^ 11 := by
      simp only [Registers.id, extended, Bool.false_eq_true, ↓reduceIte]
      omega
    simpa [dStandardCanMsgId20B, dExtendedCanMsgId20B] using fits

/-- A frame that arrives in a free buffer joins those held. -/
theorem receive_held (c : Controller) (m : RxBuffer) (sent : Registers) (free : c.rxIf m = false) :
    (c.receive m sent).held.Perm (((c.rx m).copy sent).frame :: c.held) := by
  have present : m ∈ RxBuffer.all := by cases m <;> decide
  have added := (filter_update_perm RxBuffer.all (by decide) c.rxIf m present free).map
    (fun k => ((c.receive m sent).rx k).frame)
  rw [List.map_cons] at added
  have others : (RxBuffer.all.filter c.rxIf).map (fun k => ((c.receive m sent).rx k).frame) =
      c.held := by
    refine List.map_congr_left ?_
    intro k full
    have other : k ≠ m := by
      rintro rfl
      exact absurd (free.symm.trans (List.mem_filter.mp full).2) (by decide)
    exact congrArg Registers.frame (Function.update_of_ne other _ _)
  have new : (c.receive m sent).rx m = (c.rx m).copy sent := Function.update_self m _ _
  rw [others, new] at added
  exact added

/-- A buffer that is read gives up its frame. -/
theorem read_held (c : Controller) (m : RxBuffer) (full : c.rxIf m = true) :
    c.held.Perm ((c.rx m).frame ::
      Controller.held { c with rxIf := Function.update c.rxIf m false }) := by
  have present : m ∈ RxBuffer.all := by cases m <;> decide
  have restored : Function.update (Function.update c.rxIf m false) m true = c.rxIf := by
    rw [Function.update_idem, ← full, Function.update_eq_self]
  have added := filter_update_perm RxBuffer.all (by decide) (Function.update c.rxIf m false) m
    present (Function.update_self m _ _)
  rw [restored] at added
  exact added.map _

end Buffers

/-- `CANSPI_messagesInBuffer` counts the frames held. -/
theorem messagesInBuffer_held (c : Controller) :
    (canspiMessagesInBuffer c).toNat = c.held.length := by
  have all : ∀ rx0 rx1 req0 tx0 req1 tx1 req2 tx2 : Bool,
      let status := UInt8.ofNat (packed [rx0, rx1, req0, tx0, req1, tx1, req2, tx2])
      rx0if status = UInt8.ofNat rx0.toNat ∧ rx1if status = UInt8.ofNat rx1.toNat := by
    decide
  obtain ⟨first, second⟩ := all (c.rxIf .rxb0) (c.rxIf .rxb1) (c.txReq .txb0) (c.txIf .txb0)
    (c.txReq .txb1) (c.txIf .txb1) (c.txReq .txb2) (c.txIf .txb2)
  rw [← Controller.status] at first second
  simp only [canspiMessagesInBuffer, first, second, Controller.held, List.length_map,
    RxBuffer.all, List.filter]
  cases c.rxIf .rxb0 <;> cases c.rxIf .rxb1 <;> rfl

/-! ## Where every message is -/

/-- What the driver relies on between two transactions of a call. -/
def Doing (c : Controller) : CallAt → Prop
  | .idle => True
  | .loading msg load rts =>
      msg.dlc.toNat ≤ 8 ∧ ∃ n, Addresses load rts n ∧ c.txReq n = false
  | .requesting msg rts =>
      ∃ n, (∀ d : Controller, d.write [rts] = d.request n) ∧ c.txReq n = false ∧
        (c.tx n).frame = msg.frame ∧ (c.tx n).dlc.toNat ≤ 8
  | .reading rxStatus => ∃ m, Names c rxStatus m

/-- The frames that left or will leave are those of the accepted messages, those that have
left are received, held or lost, no frame in the controller is longer than eight bytes, and
a call finds what it relies on. -/
structure Sound (t : Loopback) : Prop where
  sent : t.bus.frames.Perm (t.accepted.map UCanMsg.frame)
  arrived : t.bus.sent.Perm (t.received.map UCanMsg.frame ++ t.bus.controller.held ++ t.lost)
  pendingShort : ∀ n, t.bus.controller.txReq n = true → (t.bus.controller.tx n).dlc.toNat ≤ 8
  heldShort : ∀ m, t.bus.controller.rxIf m = true → (t.bus.controller.rx m).dlc.toNat ≤ 8
  doing : Doing t.bus.controller t.callAt

section Steps

variable {t next : Loopback}

/-- Whatever raises no request, loads nothing and touches no full buffer leaves a call where
it was. -/
theorem Doing.kept {c d : Controller} {callAt : CallAt} (doing : Doing c callAt)
    (tx : d.tx = c.tx) (clear : ∀ n, c.txReq n = false → d.txReq n = false)
    (full : ∀ m, c.rxIf m = true → d.rxIf m = true ∧ d.rx m = c.rx m) : Doing d callAt := by
  cases callAt with
  | idle => trivial
  | loading msg load rts =>
    obtain ⟨short, n, addresses, free⟩ := doing
    exact ⟨short, n, addresses, clear n free⟩
  | requesting msg rts =>
    obtain ⟨n, requests, free, loaded⟩ := doing
    exact ⟨n, requests, clear n free, tx ▸ loaded⟩
  | reading rxStatus =>
    obtain ⟨m, names⟩ := doing
    obtain ⟨still, same⟩ := full m names.full
    exact ⟨m, still, same ▸ names.kind, names.reads⟩

/-- A transmission reads the status. -/
theorem transmit_sound (sound : Sound t) (msg : UCanMsg) (short : msg.dlc.toNat ≤ 8)
    (taken : t.step (.transmit msg) = some next) : Sound next := by
  cases standing : t.callAt with
  | idle =>
    simp only [step, standing] at taken
    rcases transmitBranch_cases t.bus.controller with
      ⟨_, branch⟩ | ⟨n, load, rts, free, branch, own⟩
    · rw [branch] at taken
      obtain rfl := Option.some.inj taken
      exact sound
    · rw [branch] at taken
      obtain rfl := Option.some.inj taken
      exact ⟨sound.sent, sound.arrived, sound.pendingShort, sound.heldShort, short, n, own, free⟩
  | _ =>
    simp only [step, standing] at taken
    cases taken

/-- It loads the buffer. -/
theorem load_sound (sound : Sound t) (behind : Nat → UInt8)
    (taken : t.step (.load behind) = some next) : Sound next := by
  cases standing : t.callAt with
  | loading msg load rts =>
    simp only [step, standing] at taken
    obtain rfl := Option.some.inj taken
    have doing := sound.doing
    rw [standing] at doing
    obtain ⟨short, n, addresses, free⟩ := doing
    have stored : (t.bus.loadTx n (msg.payload behind)).controller.tx n =
        (t.bus.controller.tx n).load 0 (msg.payload behind) := Function.update_self n _ _
    simp only [addresses.loads]
    refine ⟨?_, sound.arrived, ?_, sound.heldShort, n, addresses.2, free, ?_, ?_⟩
    · rw [Bus.loadTx_frames t.bus n _ free]
      exact sound.sent
    · intro k raised
      have other : k ≠ n := by
        rintro rfl
        exact absurd (free.symm.trans raised) (by decide)
      have same : (t.bus.loadTx n (msg.payload behind)).controller.tx k = t.bus.controller.tx k :=
        Function.update_of_ne other _ _
      rw [same]
      exact sound.pendingShort k raised
    · rw [stored]
      exact msg.loaded_frame behind _ short
    · rw [stored, (msg.loaded_header behind _).2]
      exact short
  | _ =>
    simp only [step, standing] at taken
    cases taken

/-- It raises the request. -/
theorem request_sound (sound : Sound t) (taken : t.step .request = some next) : Sound next := by
  cases standing : t.callAt with
  | requesting msg rts =>
    simp only [step, standing] at taken
    obtain rfl := Option.some.inj taken
    have doing := sound.doing
    rw [standing] at doing
    obtain ⟨n, requests, free, frame, short⟩ := doing
    have requested : t.bus.write [rts] = t.bus.request n :=
      congrArg (fun c => Bus.mk c t.bus.sent) (requests t.bus.controller)
    simp only [requested]
    refine ⟨?_, sound.arrived, ?_, sound.heldShort, trivial⟩
    · have added := Bus.request_frames t.bus n free
      rw [frame] at added
      rw [List.map_append, List.map_singleton]
      exact (added.trans (sound.sent.cons _)).trans (List.perm_append_singleton _ _).symm
    · intro k raised
      by_cases same : k = n
      · rw [same]
        exact short
      · exact sound.pendingShort k ((Function.update_of_ne same _ _).symm.trans raised)
  | _ =>
    simp only [step, standing] at taken
    cases taken

/-- A reception reads the receive status. -/
theorem receive_sound (sound : Sound t) (taken : t.step .receive = some next) : Sound next := by
  cases standing : t.callAt with
  | idle =>
    simp only [step, standing] at taken
    obtain rfl := Option.some.inj taken
    rcases rxStatus_names t.bus.controller with ⟨empty, _⟩ | ⟨arrived, m, _, names⟩
    · rw [if_neg (not_not.mpr empty)]
      exact sound
    · rw [if_pos arrived]
      exact ⟨sound.sent, sound.arrived, sound.pendingShort, sound.heldShort, m, names⟩
  | _ =>
    simp only [step, standing] at taken
    cases taken

/-- It reads the buffer. -/
theorem read_sound (sound : Sound t) (taken : t.step .read = some next) : Sound next := by
  cases standing : t.callAt with
  | reading rxStatus =>
    simp only [step, standing] at taken
    obtain rfl := Option.some.inj taken
    have doing := sound.doing
    rw [standing] at doing
    obtain ⟨m, names⟩ := doing
    simp only [names.reads, names.kind, Registers.load_ofFn]
    refine ⟨sound.sent, ?_, sound.pendingShort, ?_, trivial⟩
    · have message := messageOf_frame _ (sound.heldShort m names.full)
      rw [List.map_append, List.map_singleton, message]
      refine List.perm_iff_count.mpr fun frame => ?_
      have before := sound.arrived.count_eq frame
      have gone := (read_held t.bus.controller m names.full).count_eq frame
      rw [← List.singleton_append] at gone
      simp only [List.count_append] at before gone ⊢
      omega
    · intro k full
      refine sound.heldShort k ?_
      by_cases same : k = m
      · exact same ▸ names.full
      · exact (Function.update_of_ne same _ _).symm.trans full
  | _ =>
    simp only [step, standing] at taken
    cases taken

/-- A pending frame leaves. What it leaves behind is as before, one request less. -/
theorem complete_clear (c : Controller) (n k : TxBuffer) :
    (c.txReq k = false → (c.complete n).txReq k = false) ∧
      ((c.complete n).txReq k = true → c.txReq k = true) := by
  by_cases same : k = n
  · have cleared : (c.complete n).txReq k = false := by
      rw [same]
      exact Function.update_self n _ _
    exact ⟨fun _ => cleared, fun raised => absurd (cleared.symm.trans raised) (by decide)⟩
  · have kept : (c.complete n).txReq k = c.txReq k := Function.update_of_ne same _ _
    rw [kept]
    exact ⟨id, id⟩

/-- The controller moves a frame to a free receive buffer. -/
theorem loop_sound (sound : Sound t) (n : TxBuffer) (m : RxBuffer)
    (taken : t.step (.loop n m) = some next) : Sound next := by
  obtain ⟨c, looped, rfl⟩ := Option.map_eq_some_iff.mp taken
  obtain ⟨⟨raised, _, free⟩, copied⟩ := Option.ite_none_right_eq_some.mp looped
  obtain rfl := Option.some.inj copied
  have short := sound.pendingShort n raised
  obtain ⟨frame, dlc⟩ := copied_frame (t.bus.controller.rx m) (t.bus.controller.tx n) short
  have left : t.bus.complete n =
      ⟨t.bus.controller.complete n, t.bus.sent ++ [(t.bus.controller.tx n).frame]⟩ := if_pos raised
  refine ⟨?_, ?_, ?_, ?_, ?_⟩
  · have same := t.bus.complete_frames n
    rw [left] at same
    exact same.trans sound.sent
  · have joined := receive_held (t.bus.controller.complete n) m (t.bus.controller.tx n) free
    have copy : (t.bus.controller.complete n).rx m = t.bus.controller.rx m := rfl
    have others : (t.bus.controller.complete n).held = t.bus.controller.held := rfl
    rw [copy, frame, others] at joined
    refine List.perm_iff_count.mpr fun other => ?_
    have before := sound.arrived.count_eq other
    have gained := joined.count_eq other
    rw [← List.singleton_append] at gained
    simp only [List.count_append] at before gained ⊢
    omega
  · intro k still
    exact sound.pendingShort k ((complete_clear t.bus.controller n k).2 still)
  · intro k full
    by_cases same : k = m
    · subst same
      have stored : ((t.bus.controller.complete n).receive k (t.bus.controller.tx n)).rx k =
          (t.bus.controller.rx k).copy (t.bus.controller.tx n) := Function.update_self k _ _
      rw [stored, dlc]
      exact short
    · have stored : ((t.bus.controller.complete n).receive m (t.bus.controller.tx n)).rx k =
          t.bus.controller.rx k := Function.update_of_ne same _ _
      rw [stored]
      exact sound.heldShort k ((Function.update_of_ne same _ _).symm.trans full)
  · refine sound.doing.kept rfl (fun k => (complete_clear t.bus.controller n k).1) ?_
    intro k full
    have other : k ≠ m := by
      rintro rfl
      exact absurd (free.symm.trans full) (by decide)
    exact ⟨(Function.update_of_ne other _ _).trans full, Function.update_of_ne other _ _⟩

/-- It drops a frame that finds none. -/
theorem overflow_sound (sound : Sound t) (n : TxBuffer)
    (taken : t.step (.overflow n) = some next) : Sound next := by
  obtain ⟨⟨raised, _⟩, dropped⟩ := Option.ite_none_right_eq_some.mp taken
  obtain rfl := Option.some.inj dropped
  have same := t.bus.complete_frames n
  have left : t.bus.complete n =
      ⟨t.bus.controller.complete n, t.bus.sent ++ [(t.bus.controller.tx n).frame]⟩ := if_pos raised
  rw [left] at same
  simp only [left]
  refine ⟨same.trans sound.sent, ?_, ?_, sound.heldShort, ?_⟩
  · rw [← List.append_assoc]
    exact sound.arrived.append_right _
  · intro k still
    exact sound.pendingShort k ((complete_clear t.bus.controller n k).2 still)
  · exact sound.doing.kept rfl (fun k => (complete_clear t.bus.controller n k).1)
      (fun _ full => ⟨full, rfl⟩)

/-- Every step keeps the traffic in order. -/
theorem step_sound (t : Loopback) (event : LoopbackEvent) (next : Loopback) (sound : Sound t)
    (short : event.short = true) (taken : t.step event = some next) : Sound next := by
  cases event with
  | transmit msg => exact transmit_sound sound msg (of_decide_eq_true short) taken
  | load behind => exact load_sound sound behind taken
  | request => exact request_sound sound taken
  | receive => exact receive_sound sound taken
  | read => exact read_sound sound taken
  | loop n m => exact loop_sound sound n m taken
  | overflow n => exact overflow_sound sound n taken

end Steps

/-! ## A call with nothing in between -/

section Alone

variable (t : Loopback) (idle : t.callAt = .idle)

include idle

/-- A transmission that the controller does not interrupt is `canspiTransmit`. -/
theorem transmit_alone (msg : UCanMsg) (behind : Nat → UInt8) :
    (canspiTransmit behind t.bus msg [] [] = (0, t.bus) ∧
        run step t [.transmit msg] = some t) ∨
      ∃ bus, canspiTransmit behind t.bus msg [] [] = (1, bus) ∧
        run step t [.transmit msg, .load behind, .request] =
          some { t with bus := bus, accepted := t.accepted ++ [msg] } := by
  simp only [run, step, idle, transmitBranch, canspiTransmit]
  split
  · exact .inr ⟨_, rfl, rfl⟩
  · split
    · exact .inr ⟨_, rfl, rfl⟩
    · split
      · exact .inr ⟨_, rfl, rfl⟩
      · exact .inl ⟨rfl, rfl⟩

/-- And a reception is `canspiReceive`. -/
theorem receive_alone (tempCanMsg : UCanMsg) :
    (canspiReceive t.bus.controller tempCanMsg = (0, tempCanMsg, t.bus.controller) ∧
        run step t [.receive] = some t) ∨
      ∃ msg c, canspiReceive t.bus.controller tempCanMsg = (1, msg, c) ∧
        run step t [.receive, .read] =
          some { t with bus := ⟨c, t.bus.sent⟩, received := t.received ++ [msg] } := by
  simp only [run, step, idle, Option.bind_some, canspiReceive]
  split
  · exact .inr ⟨_, _, rfl, rfl⟩
  · exact .inl ⟨rfl, rfl⟩

end Alone

/-! ## Whole runs -/

section Runs

variable {c : Controller} {events : List LoopbackEvent} {t : Loopback}

/-- Empty buffers are in order. -/
theorem start_sound (noneSent : ∀ n, c.txReq n = false) (noneHeld : ∀ m, c.rxIf m = false) :
    Sound (start c) := by
  have pending : (start c).bus.pending = [] := by
    rw [Bus.pending, List.map_eq_nil_iff, List.filter_eq_nil_iff]
    exact fun n _ => Bool.eq_false_iff.mp (noneSent n)
  have held : c.held = [] := by
    rw [Controller.held, List.map_eq_nil_iff, List.filter_eq_nil_iff]
    exact fun m _ => Bool.eq_false_iff.mp (noneHeld m)
  refine ⟨?_, ?_, ?_, ?_, trivial⟩
  · rw [Bus.frames, pending]
    exact List.Perm.refl _
  · change List.Perm [] ([] ++ c.held ++ [])
    rw [held]
    exact List.Perm.refl _
  · exact fun n raised => absurd ((noneSent n).symm.trans raised) (by decide)
  · exact fun m full => absurd ((noneHeld m).symm.trans full) (by decide)

/-- So is what any run of short messages leads to. -/
theorem Sound.reached (sound : Sound t) {u : Loopback}
    (short : ∀ event ∈ events, event.short = true) (ran : run step t events = some u) :
    Sound u :=
  invariant_run step (fun _ event => event.short = true) Sound
    (fun s event next holds admitted => step_sound s event next holds admitted) t u events sound
    (along_of_forall _ _ _ _ (fun event member _ => short event member)) ran

/-- Every accepted message is in one of the four places. -/
theorem Sound.accounted (sound : Sound t) :
    (t.received.map UCanMsg.frame ++ t.bus.controller.held ++ t.bus.pending ++ t.lost).Perm
      (t.accepted.map UCanMsg.frame) := by
  refine List.perm_iff_count.mpr fun frame => ?_
  have sent := sound.sent.count_eq frame
  have arrived := sound.arrived.count_eq frame
  simp only [Bus.frames, List.count_append] at sent arrived ⊢
  omega

/-- With at most two messages outstanding a frame that is pending finds a free buffer. -/
theorem Sound.room (sound : Sound t) (few : t.accepted.length ≤ t.received.length + 2)
    (n : TxBuffer) (raised : t.bus.controller.txReq n = true) :
    ∃ m ∈ RxBuffer.all, t.bus.controller.rxIf m ≠ true := by
  by_contra full
  simp only [not_exists, not_and, not_not] at full
  have held : t.bus.controller.held.length = 2 := by
    rw [Controller.held, List.length_map, List.filter_eq_self.mpr full]
    rfl
  have pending : 0 < t.bus.pending.length := by
    rw [Bus.pending, List.length_map]
    exact List.length_pos_of_mem
      (List.mem_filter.mpr ⟨by cases n <;> decide, raised⟩ : n ∈ _)
  have total := sound.accounted.length_eq
  simp only [List.length_append, List.length_map] at total
  omega

/-- Nothing has been lost yet. -/
def Lossless (t : Loopback) : Prop := Sound t ∧ t.lost = []

/-- Only an overflow loses a frame. -/
theorem step_lost {event : LoopbackEvent} {next : Loopback} (taken : t.step event = some next) :
    next.lost = t.lost ∨ ∃ n, event = .overflow n := by
  cases event with
  | overflow n => exact .inr ⟨n, rfl⟩
  | loop n m =>
    obtain ⟨_, _, rfl⟩ := Option.map_eq_some_iff.mp taken
    exact .inl rfl
  | receive =>
    cases standing : t.callAt <;> simp only [step, standing] at taken <;> cases taken
    split <;> exact .inl rfl
  | transmit msg =>
    cases standing : t.callAt <;> simp only [step, standing] at taken
    case idle =>
      split at taken <;> (obtain rfl := Option.some.inj taken; exact .inl rfl)
    all_goals cases taken
  | _ =>
    cases standing : t.callAt <;> simp only [step, standing] at taken <;> cases taken
    exact .inl rfl

/-- With at most two messages outstanding nothing gets lost. -/
theorem step_lossless (t : Loopback) (event : LoopbackEvent) (next : Loopback)
    (lossless : Lossless t) (short : event.short = true)
    (few : t.accepted.length ≤ t.received.length + 2)
    (taken : t.step event = some next) : Lossless next := by
  obtain ⟨sound, nothing⟩ := lossless
  refine ⟨step_sound t event next sound short taken, ?_⟩
  rcases step_lost taken with same | ⟨n, rfl⟩
  · exact same.trans nothing
  · obtain ⟨⟨raised, full⟩, _⟩ := Option.ite_none_right_eq_some.mp taken
    obtain ⟨m, member, free⟩ := sound.room few n raised
    exact absurd (full m member) free

/-- In every run from a controller with nothing in its buffers, with calls that follow one
another and messages of at most eight bytes, however the controller's own steps fall between
the transactions, the frames received, held, pending and lost are together those of the
accepted messages, each as often as it was accepted, and `CANSPI_messagesInBuffer` counts
those held. If at no time more than two accepted messages were outstanding, nothing was
lost. -/
theorem loopback_accounted (noneSent : ∀ n, c.txReq n = false)
    (noneHeld : ∀ m, c.rxIf m = false) (short : ∀ event ∈ events, event.short = true)
    (ran : run step (start c) events = some t) :
    (t.received.map UCanMsg.frame ++ t.bus.controller.held ++ t.bus.pending ++ t.lost).Perm
        (t.accepted.map UCanMsg.frame) ∧
      (canspiMessagesInBuffer t.bus.controller).toNat = t.bus.controller.held.length ∧
      (Along step (fun s _ => s.accepted.length ≤ s.received.length + 2) (start c) events →
        t.lost = []) := by
  have begins := start_sound noneSent noneHeld
  have sound := begins.reached short ran
  refine ⟨sound.accounted, messagesInBuffer_held _, ?_⟩
  intro paced
  have admitted := along_and step _ _ (start c) events
    (along_of_forall step (fun _ event => event.short = true) (start c) events
      (fun event member _ => short event member)) paced
  exact (invariant_run step _ Lossless
    (fun s event next holds both => step_lossless s event next holds both.1 both.2)
    (start c) t events ⟨begins, rfl⟩ admitted ran).2

/-- Four messages of one byte: the third finds both receive buffers full, and the first is
received. -/
def crowded : List LoopbackEvent :=
  let message (n : Nat) : List LoopbackEvent :=
    [.transmit ⟨1, UInt32.ofNat n, 1, fun _ => UInt8.ofNat n⟩, .load fun _ => 0, .request]
  message 1 ++ message 2 ++ message 3 ++ [.loop .txb0 .rxb0, .loop .txb1 .rxb1] ++ message 4 ++
    [.overflow .txb2, .receive, .read]

/-- Two frames held, none lost yet. -/
theorem loopback_accounted_sample :
    ∃ t, run step (start Controller.idle) (crowded.take 8) = some t ∧ t.lost = [] ∧
      (canspiMessagesInBuffer t.bus.controller).toNat = t.bus.controller.held.length := by
  have ran : run step (start Controller.idle) (crowded.take 8) = some _ :=
    (Option.some_get (by decide)).symm
  have accounted := loopback_accounted (fun _ => rfl) (fun _ => rfl) (by decide) ran
  exact ⟨_, (Option.some_get _).symm, accounted.2.2 (by decide), accounted.2.1⟩

/-- What is left of a call runs to its end. -/
theorem Sound.finish (sound : Sound t) : ∃ more u, run step t more = some u ∧ Sound u ∧
    u.callAt = .idle ∧ u.lost = t.lost ∧ (t.callAt = .idle → u.accepted = t.accepted) := by
  cases standing : t.callAt with
  | idle => exact ⟨[], t, rfl, sound, standing, rfl, fun _ => rfl⟩
  | loading msg load rts =>
    have ran : ∃ u, run step t [.load fun _ => 0, .request] = some u ∧ u.callAt = .idle ∧
        u.lost = t.lost := by
      simp [run, step, standing]
    obtain ⟨u, ran, idle, lost⟩ := ran
    exact ⟨_, u, ran, sound.reached (by simp [LoopbackEvent.short]) ran, idle, lost, by simp⟩
  | requesting msg rts =>
    have ran : ∃ u, run step t [.request] = some u ∧ u.callAt = .idle ∧ u.lost = t.lost := by
      simp [run, step, standing]
    obtain ⟨u, ran, idle, lost⟩ := ran
    exact ⟨_, u, ran, sound.reached (by simp [LoopbackEvent.short]) ran, idle, lost, by simp⟩
  | reading rxStatus =>
    have ran : ∃ u, run step t [.read] = some u ∧ u.callAt = .idle ∧ u.lost = t.lost := by
      simp [run, step, standing]
    obtain ⟨u, ran, idle, lost⟩ := ran
    exact ⟨_, u, ran, sound.reached (by simp [LoopbackEvent.short]) ran, idle, lost, by simp⟩

/-- The frames on their way, those still pending counted twice: they have two moves to go. -/
def onWay (t : Loopback) : Nat := 2 * t.bus.pending.length + t.bus.controller.held.length

/-- A reception takes one frame out of the controller. -/
theorem Sound.receives (sound : Sound t) (idle : t.callAt = .idle)
    (some_held : t.bus.controller.held ≠ []) : ∃ more u, run step t more = some u ∧ Sound u ∧
      u.callAt = .idle ∧ u.lost = t.lost ∧ u.accepted = t.accepted ∧ u.onWay < t.onWay := by
  rcases canspiReceive_cases t.bus.controller ⟨0, 0, 0, fun _ => 0⟩ with
    ⟨none_full, _⟩ | ⟨m, _, full, result⟩
  · refine absurd ?_ some_held
    rw [Controller.held, List.map_eq_nil_iff, List.filter_eq_nil_iff]
    intro m _ full
    rw [Controller.firstFull] at none_full
    cases m with
    | rxb0 => simp [full] at none_full
    | rxb1 =>
      rw [if_pos full] at none_full
      split at none_full <;> cases none_full
  · rcases receive_alone t idle ⟨0, 0, 0, fun _ => 0⟩ with ⟨nothing, _⟩ | ⟨msg, c, got, ran⟩
    · rw [result] at nothing
      cases congrArg Prod.fst nothing
    · rw [result] at got
      simp only [Prod.mk.injEq, true_and] at got
      obtain ⟨rfl, rfl⟩ := got
      have fewer := (read_held t.bus.controller m full).length_eq
      rw [List.length_cons] at fewer
      refine ⟨_, _, ran, sound.reached (by simp [LoopbackEvent.short]) ran, idle, rfl, rfl, ?_⟩
      exact Nat.add_lt_add_left (Nat.lt_of_succ_le fewer.ge) (2 * t.bus.pending.length)

/-- A pending frame moves to a receive buffer when both are free. -/
theorem Sound.loops (sound : Sound t) (idle : t.callAt = .idle)
    (none_held : t.bus.controller.held = []) (some_pending : t.bus.pending ≠ []) :
    ∃ more u, run step t more = some u ∧ Sound u ∧ u.callAt = .idle ∧ u.lost = t.lost ∧
      u.accepted = t.accepted ∧ u.onWay < t.onWay := by
  obtain ⟨n, raised⟩ : ∃ n, t.bus.controller.txReq n = true := by
    by_contra none_raised
    simp only [not_exists, Bool.not_eq_true] at none_raised
    refine some_pending ?_
    rw [Bus.pending, List.map_eq_nil_iff, List.filter_eq_nil_iff]
    exact fun n _ => Bool.eq_false_iff.mp (none_raised n)
  have free : t.bus.controller.rxIf .rxb0 = false := by
    rw [Controller.held, List.map_eq_nil_iff, List.filter_eq_nil_iff] at none_held
    exact Bool.eq_false_iff.mpr (none_held .rxb0 (by decide))
  have dataFrame := ((plainData_iff _).mpr (sound.pendingShort n raised)).1
  have looped : t.step (.loop n .rxb0) = some { t with
      bus := ⟨(t.bus.controller.complete n).receive .rxb0 (t.bus.controller.tx n),
        t.bus.sent ++ [(t.bus.controller.tx n).frame]⟩ } := by
    rw [step, Controller.loopback, if_pos ⟨raised, dataFrame, free⟩]
    rfl
  have ran := (run_cons_iff step t _ _ []).mpr ⟨_, looped, rfl⟩
  refine ⟨_, _, ran, step_sound _ _ _ sound rfl looped, idle, rfl, rfl, ?_⟩
  have left := (t.bus.complete_frames n).length_eq
  have joined := (receive_held (t.bus.controller.complete n) .rxb0 (t.bus.controller.tx n)
    free).length_eq
  have same : (t.bus.controller.complete n).held = t.bus.controller.held := rfl
  rw [Bus.complete, if_pos raised] at left
  simp only [Bus.frames, List.length_append, List.length_singleton] at left
  rw [List.length_cons, same] at joined
  change 2 * (Bus.pending ⟨t.bus.controller.complete n,
      t.bus.sent ++ [(t.bus.controller.tx n).frame]⟩).length +
    ((t.bus.controller.complete n).receive .rxb0 (t.bus.controller.tx n)).held.length <
      2 * t.bus.pending.length + t.bus.controller.held.length
  omega

/-- Everything on its way is received, by induction on how far it has to go. -/
theorem Sound.drains (sound : Sound t) (idle : t.callAt = .idle) : ∃ more u,
    run step t more = some u ∧ Sound u ∧ u.callAt = .idle ∧ u.lost = t.lost ∧
      u.accepted = t.accepted ∧ u.bus.controller.held = [] ∧ u.bus.pending = [] := by
  induction way : t.onWay using Nat.strong_induction_on generalizing t with
  | _ way ih =>
    subst way
    have further (one : ∃ more u, run step t more = some u ∧ Sound u ∧ u.callAt = .idle ∧
        u.lost = t.lost ∧ u.accepted = t.accepted ∧ u.onWay < t.onWay) : ∃ more u,
        run step t more = some u ∧ Sound u ∧ u.callAt = .idle ∧ u.lost = t.lost ∧
          u.accepted = t.accepted ∧ u.bus.controller.held = [] ∧ u.bus.pending = [] := by
      obtain ⟨first, u, ran, kept, again, lost, accepted, fewer⟩ := one
      obtain ⟨rest, v, onward, final, outside, sameLost, sameAccepted, empty⟩ :=
        ih _ fewer kept again rfl
      exact ⟨first ++ rest, v, run_append step t u v first rest ran onward, final, outside,
        sameLost.trans lost, sameAccepted.trans accepted, empty⟩
    by_cases held : t.bus.controller.held = []
    · by_cases pending : t.bus.pending = []
      · exact ⟨[], t, rfl, sound, idle, rfl, rfl, held, pending⟩
      · exact further (sound.loops idle held pending)
    · exact further (sound.receives idle held)

/-- From every state of such a run the traffic can be brought to an end without a further
loss: no call is under way then, and every message accepted up to there has been received
or had been lost before. Where no call was under way before, no message is accepted
meanwhile. -/
theorem loopback_drains (noneSent : ∀ n, c.txReq n = false)
    (noneHeld : ∀ m, c.rxIf m = false) (short : ∀ event ∈ events, event.short = true)
    (ran : run step (start c) events = some t) :
    ∃ more u, run step t more = some u ∧ u.callAt = .idle ∧ u.lost = t.lost ∧
      (t.callAt = .idle → u.accepted = t.accepted) ∧
      (u.received.map UCanMsg.frame ++ t.lost).Perm (u.accepted.map UCanMsg.frame) := by
  have sound := (start_sound noneSent noneHeld).reached short ran
  obtain ⟨first, u, finished, kept, idle, lost, accepted⟩ := sound.finish
  obtain ⟨rest, v, drained, final, outside, sameLost, sameAccepted, held, pending⟩ :=
    kept.drains idle
  refine ⟨first ++ rest, v, run_append step t u v first rest finished drained, outside,
    sameLost.trans lost, fun before => sameAccepted.trans (accepted before), ?_⟩
  have whole := final.accounted
  rw [held, pending, List.append_nil, List.append_nil, sameLost, lost] at whole
  exact whole

/-- After a loss the rest is received, and the loss stays. -/
theorem loopback_drains_sample :
    ∃ t more u, run step (start Controller.idle) crowded = some t ∧ t.lost ≠ [] ∧
      run step t more = some u ∧ u.callAt = .idle ∧ u.lost = t.lost := by
  have before : run step (start Controller.idle) crowded = some _ :=
    (Option.some_get (by decide)).symm
  obtain ⟨more, u, ran, idle, lost, _⟩ :=
    loopback_drains (fun _ => rfl) (fun _ => rfl) (by decide) before
  exact ⟨_, more, u, before, by decide, ran, idle, lost⟩

end Runs

end Loopback

end Stm32Ecu
