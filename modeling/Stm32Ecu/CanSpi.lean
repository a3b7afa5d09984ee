import Stm32Ecu.CanId
import Stm32Ecu.Mcp2515

/-!
# The CAN driver of the M4

`CANSPI_Transmit` asks the controller for its status, loads the message into the first
transmit buffer whose request bit is clear and raises that request. `CANSPI_Receive`
asks for the receive status, reads the buffer it names and takes the message apart.

Three encodings of one buffer number meet here: the request bits of the status, the
load instructions and the request instructions. They agree, so a call either leaves
everything as it was or loads one buffer that had no request and requests that one.
A loaded buffer holds the frame the message stands for.
-/

namespace Stm32Ecu

open Mcp2515

/-- `uCAN_MSG`. -/
structure UCanMsg where
  idType : UInt8
  id : UInt32
  dlc : UInt8
  data : Fin 8 → UInt8
deriving DecidableEq

/-- `MCP2515_LOAD_TXB0SIDH`. -/
def mcp2515LoadTxb0sidh : UInt8 := 0x40

/-- `MCP2515_LOAD_TXB1SIDH`. -/
def mcp2515LoadTxb1sidh : UInt8 := 0x42

/-- `MCP2515_LOAD_TXB2SIDH`. -/
def mcp2515LoadTxb2sidh : UInt8 := 0x44

/-- `MCP2515_RTS_TX0`. -/
def mcp2515RtsTx0 : UInt8 := 0x81

/-- `MCP2515_RTS_TX1`. -/
def mcp2515RtsTx1 : UInt8 := 0x82

/-- `MCP2515_RTS_TX2`. -/
def mcp2515RtsTx2 : UInt8 := 0x84

/-- `MCP2515_READ_RXB0SIDH`. -/
def mcp2515ReadRxb0sidh : UInt8 := 0x90

/-- `MCP2515_READ_RXB1SIDH`. -/
def mcp2515ReadRxb1sidh : UInt8 := 0x94

/-- `MSG_IN_RXB0`. -/
def msgInRxb0 : UInt8 := 0x01

/-- `MSG_IN_RXB1`. -/
def msgInRxb1 : UInt8 := 0x02

/-- `MSG_IN_BOTH_BUFFERS`. -/
def msgInBothBuffers : UInt8 := 0x03

/-- A bit field, counted from the lowest bit as the compiler lays it out. -/
def bitField (byte : UInt8) (offset width : Nat) : UInt8 :=
  UInt8.ofNat (byte.toNat / 2 ^ offset % 2 ^ width)

/-- The request bits of `ctrl_status_t`. -/
def txb0req (ctrlStatus : UInt8) : UInt8 := bitField ctrlStatus 2 1

/-- `TXB1REQ`. -/
def txb1req (ctrlStatus : UInt8) : UInt8 := bitField ctrlStatus 4 1

/-- `TXB2REQ`. -/
def txb2req (ctrlStatus : UInt8) : UInt8 := bitField ctrlStatus 6 1

/-- The fields of `ctrl_rx_status_t` that the driver reads. -/
def msgType (ctrlRxStatus : UInt8) : UInt8 := bitField ctrlRxStatus 3 2

/-- `rxBuffer`. -/
def rxBuffer (ctrlRxStatus : UInt8) : UInt8 := bitField ctrlRxStatus 6 2

/-- The bytes of `MCP2515_LoadTxSequence`: the instruction, the four id registers, the
length, and as many bytes as it says. -/
def mcp2515LoadTxSequence (instruction : UInt8) (idReg : IdReg) (dlc : UInt8)
    (data : Nat → UInt8) : List UInt8 :=
  [instruction] ++ [idReg.sidh, idReg.sidl, idReg.eid8, idReg.eid0] ++ [dlc] ++
    (List.range dlc.toNat).map data

namespace UCanMsg

/-- The bytes from `data0` on. What lies behind the message in memory follows `data7`. -/
def dataFrom (msg : UCanMsg) (behind : Nat → UInt8) (i : Nat) : UInt8 :=
  if inside : i < 8 then msg.data ⟨i, inside⟩ else behind (i - 8)

/-- The frame that the message stands for, its id cut to the width of its format. -/
def frame (msg : UCanMsg) : Frame where
  extended := msg.idType = dExtendedCanMsgId20B
  id := if msg.idType = dExtendedCanMsgId20B then msg.id.toNat % 2 ^ 29
    else msg.id.toNat % 2 ^ 11
  remote := false
  dlc := msg.dlc.toNat
  data := (List.ofFn msg.data).take msg.dlc.toNat

/-- The message stands for one frame: one of the two types, an id that fits it and at most
eight bytes. -/
def WellFormed (msg : UCanMsg) : Prop :=
  ((msg.idType = dStandardCanMsgId20B ∧ msg.id.toNat < 2 ^ 11) ∨
    (msg.idType = dExtendedCanMsgId20B ∧ msg.id.toNat < 2 ^ 29)) ∧ msg.dlc.toNat ≤ 8

end UCanMsg

section Transmit
variable (behind : Nat → UInt8)

/-- The body of each branch of `CANSPI_Transmit`. Buffers that finish between its two
transactions are listed. -/
def loadAndRequest (bus : Bus) (msg : UCanMsg) (load rts : UInt8) (afterLoad : List TxBuffer) :
    Bus :=
  let idReg := convertCANid2Reg msg.id msg.idType
  let bus := bus.write (mcp2515LoadTxSequence load idReg msg.dlc (msg.dataFrom behind))
  (bus.completions afterLoad).write [rts]

/-- `CANSPI_Transmit`. The lists are the buffers that finish after the status is read and
after the load. -/
def canspiTransmit (bus : Bus) (msg : UCanMsg) (afterStatus afterLoad : List TxBuffer) :
    UInt8 × Bus :=
  let ctrlStatus := bus.controller.status
  if txb0req ctrlStatus ≠ 1 then
    (1, loadAndRequest behind (bus.completions afterStatus) msg mcp2515LoadTxb0sidh mcp2515RtsTx0
      afterLoad)
  else if txb1req ctrlStatus ≠ 1 then
    (1, loadAndRequest behind (bus.completions afterStatus) msg mcp2515LoadTxb1sidh mcp2515RtsTx1
      afterLoad)
  else if txb2req ctrlStatus ≠ 1 then
    (1, loadAndRequest behind (bus.completions afterStatus) msg mcp2515LoadTxb2sidh mcp2515RtsTx2
      afterLoad)
  else (0, bus)

end Transmit

/-- How `CANSPI_Receive` takes apart what it has read. -/
def messageOf (msgType : UInt8) (rxReg : Registers) : UCanMsg where
  idType := if msgType = dExtendedCanMsgId20B then dExtendedCanMsgId20B else dStandardCanMsgId20B
  id :=
    if msgType = dExtendedCanMsgId20B then
      convertReg2ExtendedCANid rxReg.eid8 rxReg.eid0 rxReg.sidh rxReg.sidl
    else convertReg2StandardCANid rxReg.sidh rxReg.sidl
  dlc := rxReg.dlc
  data := rxReg.data

/-- `CANSPI_Receive`. The field that names the buffers has two bits, so one of the first
two branches is taken whenever it is not zero. -/
def canspiReceive (c : Controller) (tempCanMsg : UCanMsg) : UInt8 × UCanMsg × Controller :=
  let rxStatus := c.rxStatus
  if rxBuffer rxStatus ≠ 0 then
    let read :=
      if rxBuffer rxStatus = msgInRxb0 ∨ rxBuffer rxStatus = msgInBothBuffers then
        c.readRx mcp2515ReadRxb0sidh 13
      else if rxBuffer rxStatus = msgInRxb1 then c.readRx mcp2515ReadRxb1sidh 13
      else ([], c)
    let rxReg : Registers := Registers.load (fun _ => 0) 0 read.1
    (1, messageOf (msgType rxStatus) rxReg, read.2)
  else (0, tempCanMsg, c)

/-- A field of one bit is that bit. -/
theorem bitField_bit (byte : UInt8) (offset : Nat) :
    bitField byte offset 1 ≠ 1 ↔ byte.toNat.testBit offset = false := by
  rw [bitField, Nat.testBit_eq_decide_div_mod_eq, decide_eq_false_iff_not, Nat.pow_one]
  rcases Nat.mod_two_eq_zero_or_one (byte.toNat / 2 ^ offset) with clear | set
  · rw [clear]
    decide
  · rw [set]
    decide

/-- The three request fields are the three request bits. -/
theorem request_fields (c : Controller) :
    (txb0req c.status ≠ 1 ↔ c.txReq .txb0 = false) ∧
      (txb1req c.status ≠ 1 ↔ c.txReq .txb1 = false) ∧
      (txb2req c.status ≠ 1 ↔ c.txReq .txb2 = false) := by
  rw [← c.status_bits .txb0, ← c.status_bits .txb1, ← c.status_bits .txb2]
  exact ⟨bitField_bit c.status 2, bitField_bit c.status 4, bitField_bit c.status 6⟩

/-- Each of the three RTS instructions raises one request. -/
theorem write_rts (c : Controller) :
    c.write [mcp2515RtsTx0] = c.request .txb0 ∧ c.write [mcp2515RtsTx1] = c.request .txb1 ∧
      c.write [mcp2515RtsTx2] = c.request .txb2 := by
  have raised (rts : UInt8) (n : TxBuffer) (only : ∀ k, requests rts k = decide (k = n)) :
      { c with txReq := fun k => c.txReq k || requests rts k } = c.request n := by
    rw [Controller.request, Controller.mk.injEq]
    refine ⟨rfl, ?_, rfl, rfl, rfl, rfl⟩
    funext k
    rw [only k]
    by_cases same : k = n
    · subst same
      simp
    · simp [same]
  refine ⟨raised mcp2515RtsTx0 .txb0 ?_, raised mcp2515RtsTx1 .txb1 ?_,
    raised mcp2515RtsTx2 .txb2 ?_⟩
  all_goals
    intro k
    cases k <;> rfl

/-- The id registers of a buffer. -/
def idReg (r : Registers) : IdReg := ⟨r.sidh, r.sidl, r.eid8, r.eid0⟩

namespace UCanMsg

/-- What a load transaction carries behind its instruction. -/
def payload (msg : UCanMsg) (behind : Nat → UInt8) : List UInt8 :=
  let idReg := convertCANid2Reg msg.id msg.idType
  [idReg.sidh, idReg.sidl, idReg.eid8, idReg.eid0, msg.dlc] ++
    (List.range msg.dlc.toNat).map (msg.dataFrom behind)

/-- Registers that hold a message's identifier have its format and its id. -/
theorem header_id (msg : UCanMsg) (r : Registers)
    (held : idReg r = convertCANid2Reg msg.id msg.idType) :
    r.extended = msg.frame.extended ∧ r.id = msg.frame.id := by
  have sidh : r.sidh = _ := congrArg IdReg.sidh held
  have sidl : r.sidl = _ := congrArg IdReg.sidl held
  have eid8 : r.eid8 = _ := congrArg IdReg.eid8 held
  have eid0 : r.eid0 = _ := congrArg IdReg.eid0 held
  simp only [Registers.id, Registers.extended, frame, sidh, sidl, eid8, eid0]
  by_cases extended : msg.idType = dExtendedCanMsgId20B
  · rw [extended]
    obtain ⟨first, second, third, fourth⟩ := convertCANid2Reg_extended msg.id
    have high : (msg.id.toNat / 2 ^ 18 % 8 * 32 + 8 + msg.id.toNat / 2 ^ 16 % 4) / 32 =
        msg.id.toNat / 2 ^ 18 % 8 := by omega
    have low : (msg.id.toNat / 2 ^ 18 % 8 * 32 + 8 + msg.id.toNat / 2 ^ 16 % 4) % 4 =
        msg.id.toNat / 2 ^ 16 % 4 := by omega
    have format : (msg.id.toNat / 2 ^ 18 % 8 * 32 + 8 + msg.id.toNat / 2 ^ 16 % 4) / 8 % 2 = 1 := by
      omega
    simp only [first, second, third, fourth, high, low, format, decide_true, ↓reduceIte]
    exact ⟨trivial, extended_digits_sum msg.id.toNat⟩
  · obtain ⟨first, second, _, _⟩ := convertCANid2Reg_standard msg.id msg.idType extended
    have high : msg.id.toNat % 8 * 32 / 32 = msg.id.toNat % 8 := by omega
    have format : msg.id.toNat % 8 * 32 / 8 % 2 = 0 := by omega
    have sum : msg.id.toNat / 2 ^ 3 % 256 * 2 ^ 3 + msg.id.toNat % 8 = msg.id.toNat % 2 ^ 11 := by
      omega
    simp only [first, second, high, format, sum, extended, decide_false, Nat.zero_ne_one,
      Bool.false_eq_true, ↓reduceIte, and_self]

/-- At most eight bytes come from the message itself. -/
theorem dataFrom_short (msg : UCanMsg) (behind : Nat → UInt8) (short : msg.dlc.toNat ≤ 8) :
    (List.range msg.dlc.toNat).map (msg.dataFrom behind) = msg.frame.data := by
  apply List.ext_getElem
  · simp [frame, short]
  · intro i before after
    rw [List.length_map, List.length_range] at before
    have inside : i < 8 := by omega
    simp only [frame, List.getElem_map, List.getElem_range, List.getElem_take, List.getElem_ofFn,
      dataFrom, inside, ↓reduceDIte]

/-- A loaded buffer starts with the id registers and the length. -/
theorem loaded_header (msg : UCanMsg) (behind : Nat → UInt8) (old : Registers) :
    idReg (old.load 0 (msg.payload behind)) = convertCANid2Reg msg.id msg.idType ∧
      (old.load 0 (msg.payload behind)).dlc = msg.dlc :=
  ⟨rfl, rfl⟩

/-- Loaded into a buffer, a message of at most eight bytes is the frame it stands for. -/
theorem loaded_frame (msg : UCanMsg) (behind : Nat → UInt8) (old : Registers)
    (short : msg.dlc.toNat ≤ 8) : (old.load 0 (msg.payload behind)).frame = msg.frame := by
  obtain ⟨held, dlc⟩ := loaded_header msg behind old
  obtain ⟨format, id⟩ := header_id msg _ held
  have count : msg.frame.data.length = msg.dlc.toNat := by simp [frame, short]
  have stored : (List.ofFn (old.load 0 (msg.payload behind)).data).take msg.dlc.toNat =
      msg.frame.data := by
    rw [payload, dataFrom_short msg behind short, ← count]
    exact Registers.load_data_take old _ _ _ _ _ _ (by omega)
  set r := old.load 0 (msg.payload behind)
  have remote : r.remote = false := by
    rw [Registers.remote, dlc, decide_eq_false_iff_not]
    omega
  have length : r.length = msg.dlc.toNat := by
    rw [Registers.length, remote, dlc]
    simp only [Bool.false_eq_true, ↓reduceIte]
    omega
  rw [Registers.frame, format, id, remote, dlc, length, stored,
    Nat.mod_eq_of_lt (show msg.dlc.toNat < 16 by omega)]
  rfl

end UCanMsg

/-- The instructions of the branch that `CANSPI_Transmit` takes on a status. -/
def transmitBranch (ctrlStatus : UInt8) : Option (UInt8 × UInt8) :=
  if txb0req ctrlStatus ≠ 1 then some (mcp2515LoadTxb0sidh, mcp2515RtsTx0)
  else if txb1req ctrlStatus ≠ 1 then some (mcp2515LoadTxb1sidh, mcp2515RtsTx1)
  else if txb2req ctrlStatus ≠ 1 then some (mcp2515LoadTxb2sidh, mcp2515RtsTx2)
  else none

/-- A load and a request instruction that belong to one buffer. -/
def Addresses (load rts : UInt8) (n : TxBuffer) : Prop :=
  (∀ (c : Controller) (bytes : List UInt8), c.write (load :: bytes) = c.loadTx n 0 bytes) ∧
    ∀ c : Controller, c.write [rts] = c.request n

/-- The instructions belong to a buffer without a request, or there is none. -/
theorem transmitBranch_cases (c : Controller) :
    ((∀ n, c.txReq n = true) ∧ transmitBranch c.status = none) ∨
      ∃ n load rts, c.txReq n = false ∧ transmitBranch c.status = some (load, rts) ∧
        Addresses load rts n := by
  obtain ⟨field0, field1, field2⟩ := request_fields c
  simp only [transmitBranch, field0, field1, field2]
  cases free0 : c.txReq .txb0 with
  | false => exact .inr ⟨.txb0, _, _, free0, rfl, fun _ _ => rfl, fun d => (write_rts d).1⟩
  | true =>
    cases free1 : c.txReq .txb1 with
    | false => exact .inr ⟨.txb1, _, _, free1, rfl, fun _ _ => rfl, fun d => (write_rts d).2.1⟩
    | true =>
      cases free2 : c.txReq .txb2 with
      | false => exact .inr ⟨.txb2, _, _, free2, rfl, fun _ _ => rfl, fun d => (write_rts d).2.2⟩
      | true =>
        refine .inl ⟨?_, rfl⟩
        intro n
        cases n with
        | txb0 => exact free0
        | txb1 => exact free1
        | txb2 => exact free2

section Branches

variable {behind : Nat → UInt8} {msg : UCanMsg} {load rts : UInt8} {n : TxBuffer}

/-- The load transaction fills that buffer. -/
theorem Addresses.loads (own : Addresses load rts n) (bus : Bus) :
    bus.write (mcp2515LoadTxSequence load (convertCANid2Reg msg.id msg.idType) msg.dlc
      (msg.dataFrom behind)) = bus.loadTx n (msg.payload behind) :=
  congrArg (fun c => Bus.mk c bus.sent) (own.1 bus.controller _)

/-- The request transaction requests it. -/
theorem Addresses.requests (own : Addresses load rts n) (bus : Bus) :
    bus.write [rts] = bus.request n :=
  congrArg (fun c => Bus.mk c bus.sent) (own.2 bus.controller)

end Branches

/-- `CANSPI_Transmit` takes the branch that the status says. -/
theorem canspiTransmit_branch (behind : Nat → UInt8) (bus : Bus) (msg : UCanMsg)
    (afterStatus afterLoad : List TxBuffer) :
    canspiTransmit behind bus msg afterStatus afterLoad =
      match transmitBranch bus.controller.status with
      | some (load, rts) =>
          (1, loadAndRequest behind (bus.completions afterStatus) msg load rts afterLoad)
      | none => (0, bus) := by
  simp only [canspiTransmit, transmitBranch]
  split
  · rfl
  · split
    · rfl
    · split <;> rfl

/-- The message goes into the first buffer without a request, or nothing happens. -/
theorem canspiTransmit_cases (behind : Nat → UInt8) (bus : Bus) (msg : UCanMsg)
    (afterStatus afterLoad : List TxBuffer) :
    ((∀ n, bus.controller.txReq n = true) ∧
        canspiTransmit behind bus msg afterStatus afterLoad = (0, bus)) ∨
      ∃ n, bus.controller.txReq n = false ∧
        canspiTransmit behind bus msg afterStatus afterLoad =
          (1, (((bus.completions afterStatus).loadTx n (msg.payload behind)).completions
            afterLoad).request n) := by
  rw [canspiTransmit_branch]
  rcases transmitBranch_cases bus.controller with
    ⟨raised, branch⟩ | ⟨n, load, rts, free, branch, own⟩
  · exact .inl ⟨raised, by rw [branch]⟩
  · refine .inr ⟨n, free, ?_⟩
    rw [branch]
    simp only [loadAndRequest, own.loads, own.requests]

end Stm32Ecu
