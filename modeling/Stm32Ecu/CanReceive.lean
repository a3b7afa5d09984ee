import Stm32Ecu.CanSpi

/-!
# Reception, and loopback

The receive status names the full buffers and the type of the frame in the first of
them. The driver recognises an extended frame by the value that the type has for a data
frame, and takes the whole `DLC` register for the length. Data frames of at most eight
bytes come out right; remote frames and larger length codes do not.

In loopback mode only frames that the driver itself has loaded arrive, and a message
comes back as it went in.
-/

namespace Stm32Ecu

open Mcp2515

/-- Both fields of the receive status say what they should. -/
theorem rxStatus_fields (c : Controller) :
    msgType c.rxStatus =
        UInt8.ofNat ((c.firstFull.map fun m => (c.rx m).msgType).getD 0) ∧
      rxBuffer c.rxStatus = UInt8.ofNat ((c.rxIf .rxb0).toNat + 2 * (c.rxIf .rxb1).toNat) := by
  have all : ∀ (filter : Fin 8) (kind : Fin 4) (full0 full1 : Bool),
      let status := UInt8.ofNat (filter + 8 * kind.val + 64 * (full0.toNat + 2 * full1.toNat))
      msgType status = UInt8.ofNat kind ∧
        rxBuffer status = UInt8.ofNat (full0.toNat + 2 * full1.toNat) := by
    decide
  have few : (c.firstFull.map fun m => (c.rx m).msgType).getD 0 < 4 := by
    cases c.firstFull with
    | none => exact Nat.succ_pos 3
    | some m =>
      have first := (c.rx m).extended.toNat_le
      have second := (c.rx m).remote.toNat_le
      show 2 * _ + _ < 4
      omega
  exact all c.filter ⟨_, few⟩ (c.rxIf .rxb0) (c.rxIf .rxb1)

/-- The read transaction of `CANSPI_Receive` on a receive status. -/
def receiveRead (c : Controller) (rxStatus : UInt8) : List UInt8 × Controller :=
  if rxBuffer rxStatus = msgInRxb0 ∨ rxBuffer rxStatus = msgInBothBuffers then
    c.readRx mcp2515ReadRxb0sidh 13
  else if rxBuffer rxStatus = msgInRxb1 then c.readRx mcp2515ReadRxb1sidh 13
  else ([], c)

/-- A receive status that names a full buffer and the type of the frame in it. -/
structure Names (c : Controller) (rxStatus : UInt8) (m : RxBuffer) : Prop where
  full : c.rxIf m = true
  kind : msgType rxStatus = UInt8.ofNat (c.rx m).msgType
  reads : ∀ d : Controller, receiveRead d rxStatus =
    (((List.ofFn (d.rx m)).drop 0).take 13, { d with rxIf := Function.update d.rxIf m false })

/-- The status names the first full buffer, or there is none. -/
theorem rxStatus_names (c : Controller) :
    (rxBuffer c.rxStatus = 0 ∧ c.firstFull = none ∧ ∀ m, c.rxIf m = false) ∨
      rxBuffer c.rxStatus ≠ 0 ∧ ∃ m, c.firstFull = some m ∧ Names c c.rxStatus m := by
  obtain ⟨kind, buffers⟩ := rxStatus_fields c
  cases full0 : c.rxIf .rxb0 with
  | true =>
    have first : c.firstFull = some .rxb0 := by simp [Controller.firstFull, full0]
    have named : rxBuffer c.rxStatus = msgInRxb0 ∨ rxBuffer c.rxStatus = msgInBothBuffers := by
      rw [buffers, full0]
      cases c.rxIf .rxb1
      · exact .inl rfl
      · exact .inr rfl
    rw [first] at kind
    refine .inr ⟨?_, .rxb0, first, full0, kind, fun d => if_pos named⟩
    rcases named with alone | both
    · simp [alone, msgInRxb0]
    · simp [both, msgInBothBuffers]
  | false =>
    cases full1 : c.rxIf .rxb1 with
    | true =>
      have first : c.firstFull = some .rxb1 := by simp [Controller.firstFull, full0, full1]
      have named : rxBuffer c.rxStatus = msgInRxb1 := by
        rw [buffers, full0, full1]
        rfl
      rw [first] at kind
      refine .inr ⟨by simp [named, msgInRxb1], .rxb1, first, full1, kind, ?_⟩
      intro d
      rw [receiveRead, named]
      rfl
    | false =>
      refine .inl ⟨?_, by simp [Controller.firstFull, full0, full1],
        fun m => by cases m <;> assumption⟩
      rw [buffers, full0, full1]
      rfl

/-- Nothing has arrived and nothing is touched, or the first full buffer is read. -/
theorem canspiReceive_cases (c : Controller) (tempCanMsg : UCanMsg) :
    (c.firstFull = none ∧ canspiReceive c tempCanMsg = (0, tempCanMsg, c)) ∨
      ∃ m, c.firstFull = some m ∧ c.rxIf m = true ∧
        canspiReceive c tempCanMsg = (1, messageOf (UInt8.ofNat (c.rx m).msgType) (c.rx m),
          { c with rxIf := Function.update c.rxIf m false }) := by
  rcases rxStatus_names c with ⟨empty, first, _⟩ | ⟨arrived, m, first, names⟩
  · exact .inl ⟨first, by simp [canspiReceive, empty]⟩
  · refine .inr ⟨m, first, names.full, ?_⟩
    have read : canspiReceive c tempCanMsg =
        (1, messageOf (msgType c.rxStatus)
          (Registers.load (fun _ => 0) 0 (receiveRead c c.rxStatus).1),
          (receiveRead c c.rxStatus).2) := if_pos arrived
    rw [read, names.reads, names.kind, Registers.load_ofFn]

/-- The message has the type and the full id of the frame in a buffer. -/
def Identifies (msg : UCanMsg) (r : Registers) : Prop :=
  msg.idType = (if r.extended then dExtendedCanMsgId20B else dStandardCanMsgId20B) ∧
    msg.id.toNat = r.id

/-- Every kind of frame is told apart except the extended remote frame, whose type is not
the one the driver compares with. -/
theorem messageOf_identifies (r : Registers) :
    Identifies (messageOf (UInt8.ofNat r.msgType) r) r ↔
      ¬(r.extended = true ∧ r.remote = true) := by
  have standardId := convertReg2StandardCANid_toNat r.sidh r.sidl
  have extendedId := convertReg2ExtendedCANid_toNat r.eid8 r.eid0 r.sidh r.sidl
  cases extended : r.extended with
  | false =>
    have kind : UInt8.ofNat r.msgType ≠ dExtendedCanMsgId20B := by
      rw [Registers.msgType, extended]
      cases r.remote <;> decide
    simp [Identifies, messageOf, Registers.id, extended, kind, standardId]
  | true =>
    cases remote : r.remote with
    | false =>
      have kind : UInt8.ofNat r.msgType = dExtendedCanMsgId20B := by
        rw [Registers.msgType, extended, remote]
        rfl
      simp [Identifies, messageOf, Registers.id, extended, kind, extendedId]
    | true =>
      have kind : UInt8.ofNat r.msgType ≠ dExtendedCanMsgId20B := by
        rw [Registers.msgType, extended, remote]
        decide
      have wrong : dStandardCanMsgId20B ≠ dExtendedCanMsgId20B := by decide
      simp [Identifies, messageOf, extended, kind, wrong]

/-- A data frame whose length code is at most eight, with the reserved bits clear. -/
def PlainData (r : Registers) : Prop :=
  r.remote = false ∧ r.frame.dlc ≤ 8 ∧ r.ReservedClear

/-- Such a frame has nothing but its length in `DLC`. -/
theorem plainData_iff (r : Registers) : PlainData r ↔ r.dlc.toNat ≤ 8 := by
  simp only [PlainData, Registers.remote, Registers.frame, Registers.ReservedClear,
    decide_eq_false_iff_not]
  have bound := r.dlc.toNat_lt
  constructor
  · rintro ⟨_, _, _, _⟩
    omega
  · intro small
    refine ⟨?_, ?_, ?_, ?_⟩ <;> omega

/-- What a reception should guarantee: one full buffer has been read and the message
identifies the frame in it, its length is at most eight, and sending it on loads no more
than the eight bytes it has. -/
def Classified (c : Controller) (tempCanMsg : UCanMsg) : Prop :=
  let (returned, msg, after) := canspiReceive c tempCanMsg
  returned = 1 →
    (∃ m, c.rxIf m = true ∧ after.rxIf = Function.update c.rxIf m false ∧
        Identifies msg (c.rx m)) ∧
      msg.dlc.toNat ≤ 8 ∧
      ∀ load behind, (mcp2515LoadTxSequence load (convertCANid2Reg msg.id msg.idType) msg.dlc
        (msg.dataFrom behind)).length ≤ 1 + 4 + 1 + 8

/-- A reception is classified exactly when nothing has arrived or the buffer that is read
holds a data frame of at most eight bytes with the reserved bits clear. The type and the id
alone are right exactly when the frame is not an extended remote one. -/
theorem receive_classified_iff (c : Controller) (tempCanMsg : UCanMsg) :
    (Classified c tempCanMsg ↔ ∀ m, c.firstFull = some m → PlainData (c.rx m)) ∧
      ∀ m, c.firstFull = some m →
        (Identifies (canspiReceive c tempCanMsg).2.1 (c.rx m) ↔
          ¬((c.rx m).extended = true ∧ (c.rx m).remote = true)) := by
  rcases canspiReceive_cases c tempCanMsg with ⟨first, result⟩ | ⟨m, first, full, result⟩
  · simp [Classified, result, first]
  · refine ⟨?_, ?_⟩
    · simp only [Classified, result, first, Option.some.injEq, forall_eq']
      constructor
      · intro classified
        exact (plainData_iff (c.rx m)).mpr (classified trivial).2.1
      · intro plain _
        have small := (plainData_iff (c.rx m)).mp plain
        refine ⟨⟨m, full, rfl, (messageOf_identifies (c.rx m)).mpr ?_⟩, small, ?_⟩
        · rintro ⟨_, remote⟩
          exact absurd (plain.1.symm.trans remote) (by decide)
        · intro load behind
          have few : (messageOf (UInt8.ofNat (c.rx m).msgType) (c.rx m)).dlc.toNat ≤ 8 := small
          simp only [mcp2515LoadTxSequence, List.length_append, List.length_cons, List.length_nil,
            List.length_map, List.length_range]
          omega
    · intro k named
      rw [first] at named
      obtain rfl := Option.some.inj named
      rw [result]
      exact messageOf_identifies (c.rx m)

/-- A controller with one frame in its first receive buffer. -/
def arrived (sidh sidl eid8 eid0 dlc : UInt8) : Controller :=
  { Controller.idle with
    rx := fun _ => Registers.load (fun _ => 0) 0 [sidh, sidl, eid8, eid0, dlc]
    rxIf := fun m => m = .rxb0 }

/-- An extended data frame of three bytes. -/
theorem receive_classified_data :
    Classified (arrived 0x12 0x6B 0x34 0x56 0x03) ⟨0, 0, 0, fun _ => 0⟩ := by
  refine (receive_classified_iff (arrived 0x12 0x6B 0x34 0x56 0x03) _).1.mpr ?_
  intro m first
  obtain rfl : .rxb0 = m := Option.some.inj first
  exact (plainData_iff _).mpr (by decide)

/-- The extended remote frame with the same id: it is read as a standard frame with
another id and a length of 64. -/
theorem receive_misread_remote :
    let read := (canspiReceive (arrived 0x12 0x6B 0x34 0x56 0x40) ⟨0, 0, 0, fun _ => 0⟩).2.1
    read.idType = dStandardCanMsgId20B ∧ read.id = 0x93 ∧ read.dlc = 0x40 ∧
      ¬Classified (arrived 0x12 0x6B 0x34 0x56 0x40) ⟨0, 0, 0, fun _ => 0⟩ := by
  refine ⟨by decide, by decide, by decide, ?_⟩
  intro classified
  have few : (0x40 : UInt8).toNat ≤ 8 := (classified rfl).2.1
  exact absurd few (by decide)

/-! ## Both ways, in loopback mode -/

/-- The id registers of a message have bits 2 and 4 of `SIDL` clear. -/
theorem convertCANid2Reg_masked (id : UInt32) (idType : UInt8) :
    0xEB &&& (convertCANid2Reg id idType).sidl = (convertCANid2Reg id idType).sidl := by
  by_cases extended : idType = dExtendedCanMsgId20B
  · obtain ⟨_, sidl, _, _⟩ := convertCANid2Reg_extended id
    rw [← extended] at sidl
    exact (byte_masks _).2.2.2 (by omega) (by omega)
  · obtain ⟨_, sidl, _, _⟩ := convertCANid2Reg_standard id idType extended
    exact (byte_masks _).2.2.2 (by omega) (by omega)

/-- A loaded buffer, copied to a receive buffer, still holds the id registers, the length
and the data of the message. -/
theorem copied_registers (msg : UCanMsg) (behind : Nat → UInt8) (tx rx : Registers)
    (short : msg.dlc.toNat ≤ 8) :
    let got := rx.copy (tx.load 0 (msg.payload behind))
    idReg got = convertCANid2Reg msg.id msg.idType ∧ got.dlc = msg.dlc ∧
      ∀ i : Fin 8, i.val < msg.dlc.toNat → got.data i = msg.data i := by
  obtain ⟨held, dlc⟩ := msg.loaded_header behind tx
  have sidl : (tx.load 0 (msg.payload behind)).sidl = (convertCANid2Reg msg.id msg.idType).sidl :=
    congrArg IdReg.sidl held
  have data : (List.ofFn (tx.load 0 (msg.payload behind)).data).take
      (tx.load 0 (msg.payload behind)).length = msg.frame.data :=
    congrArg Frame.data (msg.loaded_frame behind tx short)
  have count : msg.frame.data.length = msg.dlc.toNat := by simp [UCanMsg.frame, short]
  have whole : 0x0F &&& msg.dlc = msg.dlc := by
    have all : ∀ bits : BitVec 8, bits.toNat ≤ 8 → 0x0F#8 &&& bits = bits := by decide
    exact UInt8.toBitVec_inj.mp (all msg.dlc.toBitVec short)
  simp only [Registers.copy, data, dlc, whole, sidl, convertCANid2Reg_masked]
  refine ⟨rfl, rfl, ?_⟩
  intro i given
  rw [Registers.load_data rx _ _ _ _ _ _ i (by omega)]
  simp only [UCanMsg.frame, List.getElem_take, List.getElem_ofFn]

/-- Taken apart again, the copy is the message. -/
theorem copied_message (msg : UCanMsg) (behind : Nat → UInt8) (tx rx : Registers)
    (wellFormed : msg.WellFormed) :
    let got := rx.copy (tx.load 0 (msg.payload behind))
    let message := messageOf (UInt8.ofNat got.msgType) got
    message.idType = msg.idType ∧ message.id = msg.id ∧ message.dlc = msg.dlc ∧
      ∀ i : Fin 8, i.val < msg.dlc.toNat → message.data i = msg.data i := by
  obtain ⟨typed, short⟩ := wellFormed
  obtain ⟨held, dlc, data⟩ := copied_registers msg behind tx rx short
  set got := rx.copy (tx.load 0 (msg.payload behind))
  obtain ⟨format, id⟩ := msg.header_id got held
  have dataFrame : ¬(got.extended = true ∧ got.remote = true) := by
    rintro ⟨_, remote⟩
    rw [Registers.remote, dlc, decide_eq_true_eq] at remote
    omega
  obtain ⟨sameType, sameId⟩ := (messageOf_identifies got).mpr dataFrame
  rw [format] at sameType
  rw [id] at sameId
  refine ⟨?_, ?_, dlc, data⟩
  · rw [sameType]
    rcases typed with ⟨standard, _⟩ | ⟨extended, _⟩
    · rw [UCanMsg.frame, standard]
      rfl
    · rw [UCanMsg.frame, extended]
      rfl
  · apply UInt32.toNat_inj.mp
    rw [sameId]
    rcases typed with ⟨standard, fits⟩ | ⟨extended, fits⟩
    · have other : msg.idType ≠ dExtendedCanMsgId20B := by
        rw [standard]
        decide
      simp only [UCanMsg.frame, other, ↓reduceIte]
      exact Nat.mod_eq_of_lt fits
    · simp only [UCanMsg.frame, extended, ↓reduceIte]
      exact Nat.mod_eq_of_lt fits

/-- When both receive buffers were empty, the one a frame arrives in is the first full. -/
theorem loopback_full (c : Controller) (n : TxBuffer) (m : RxBuffer)
    (empty : ∀ k, c.rxIf k = false) :
    ((c.complete n).receive m (c.tx n)).firstFull = some m := by
  have flags : ((c.complete n).receive m (c.tx n)).rxIf = Function.update c.rxIf m true := rfl
  rw [Controller.firstFull, flags]
  cases m with
  | rxb0 => simp
  | rxb1 => simp [empty .rxb0]

/-- What the driver then receives is the message that was loaded. -/
theorem received_copy (c : Controller) (msg tempCanMsg : UCanMsg) (behind : Nat → UInt8)
    (old : Registers) (n : TxBuffer) (m : RxBuffer) (empty : ∀ k, c.rxIf k = false)
    (loaded : c.tx n = old.load 0 (msg.payload behind)) (wellFormed : msg.WellFormed) :
    let (returned, received, _) :=
      canspiReceive ((c.complete n).receive m (c.tx n)) tempCanMsg
    returned = 1 ∧ received.idType = msg.idType ∧ received.id = msg.id ∧
      received.dlc = msg.dlc ∧
      ∀ i : Fin 8, i.val < msg.dlc.toNat → received.data i = msg.data i := by
  have full := loopback_full c n m empty
  have stored : ((c.complete n).receive m (c.tx n)).rx m =
      (c.rx m).copy (old.load 0 (msg.payload behind)) := by
    rw [← loaded]
    exact Function.update_self m _ _
  rcases canspiReceive_cases ((c.complete n).receive m (c.tx n)) tempCanMsg with
    ⟨nothing, _⟩ | ⟨read, first, _, received⟩
  · exact absurd (nothing.symm.trans full) (by simp)
  · obtain rfl : m = read := Option.some.inj (full.symm.trans first)
    rw [received, stored]
    exact ⟨rfl, copied_message msg behind old (c.rx m) wellFormed⟩

/-- A message that stands for a frame comes back as it was sent, whatever else is pending:
a buffer that was free before the call carries it, and any receive buffer it is copied to
gives it back. The second half is the other direction of the id conversion. -/
theorem loopback_roundTrip (behind : Nat → UInt8) (bus : Bus) (msg tempCanMsg : UCanMsg)
    (free : ∃ n, bus.controller.txReq n = false)
    (empty : ∀ m, bus.controller.rxIf m = false) (wellFormed : msg.WellFormed) :
    let (returned, sent) := canspiTransmit behind bus msg [] []
    (returned = 1 ∧
      (∃ n, bus.controller.txReq n = false ∧ ∀ m, (sent.controller.loopback n m).isSome = true) ∧
      ∀ n m looped, bus.controller.txReq n = false → sent.controller.loopback n m = some looped →
        let (returned, received, _) := canspiReceive looped tempCanMsg
        returned = 1 ∧ received.idType = msg.idType ∧ received.id = msg.id ∧
          received.dlc = msg.dlc ∧
          ∀ i : Fin 8, i.val < msg.dlc.toNat → received.data i = msg.data i) ∧
      ∀ registers : IdReg,
        convertCANid2Reg (convertReg2ExtendedCANid registers.eid8 registers.eid0 registers.sidh
            registers.sidl) dExtendedCanMsgId20B =
          { registers with sidl := (registers.sidl &&& 0xEB) ||| 0x08 } := by
  rcases canspiTransmit_cases behind bus msg [] [] with ⟨pending, _⟩ | ⟨n, clear, result⟩
  · obtain ⟨n, clear⟩ := free
    exact absurd (clear.symm.trans (pending n)) (by decide)
  rw [result]
  set sent := (((bus.completions []).loadTx n (msg.payload behind)).completions []).request n
  have loaded : sent.controller.tx n = (bus.controller.tx n).load 0 (msg.payload behind) :=
    Function.update_self n _ _
  have raised : sent.controller.txReq n = true := Function.update_self n _ _
  have dataFrame : (sent.controller.tx n).remote = false := by
    rw [loaded]
    exact congrArg Frame.remote (msg.loaded_frame behind _ wellFormed.2)
  refine ⟨⟨rfl, ⟨n, clear, ?_⟩, ?_⟩, convertCANid2Reg_decoded⟩
  · intro m
    rw [Controller.loopback, if_pos ⟨raised, dataFrame, empty m⟩]
    rfl
  · intro k m looped clearBefore copied
    obtain ⟨pending, copy⟩ := Option.ite_none_right_eq_some.mp copied
    -- only the buffer that the call has loaded gained a request
    obtain rfl : k = n := by
      by_contra other
      have kept : sent.controller.txReq k = bus.controller.txReq k :=
        Function.update_of_ne other _ _
      rw [kept, clearBefore] at pending
      exact absurd pending.1 (by decide)
    obtain rfl := Option.some.inj copy
    exact received_copy sent.controller msg tempCanMsg behind _ k m empty loaded wellFormed

/-- An extended message of three bytes through the first transmit and the second receive
buffer. -/
theorem loopback_roundTrip_extended :
    let msg : UCanMsg := ⟨2, 0x12345678, 3, fun i => UInt8.ofNat (i.val + 65)⟩
    let sent := (canspiTransmit (fun _ => 0) ⟨Controller.idle, []⟩ msg [] []).2.controller
    msg.WellFormed ∧ ∃ looped, sent.loopback .txb0 .rxb1 = some looped ∧
      (canspiReceive looped ⟨0, 0, 0, fun _ => 0⟩).2.1.id = 0x12345678 := by
  have wellFormed : UCanMsg.WellFormed ⟨2, 0x12345678, 3, fun i => UInt8.ofNat (i.val + 65)⟩ :=
    ⟨.inr ⟨rfl, by decide⟩, by decide⟩
  have roundTrip := loopback_roundTrip (fun _ => 0) ⟨Controller.idle, []⟩ _
    ⟨0, 0, 0, fun _ => 0⟩ ⟨.txb0, rfl⟩ (fun _ => rfl) wellFormed
  refine ⟨wellFormed, _, rfl, ?_⟩
  exact (roundTrip.1.2.2 .txb0 .rxb1 _ rfl rfl).2.2.1

end Stm32Ecu
