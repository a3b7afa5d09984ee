import Mathlib.Data.Fintype.Pi
import Mathlib.Data.List.OfFn

/-!
# The MCP2515 as its data sheet describes it

Three transmit buffers and two receive buffers of thirteen registers each, a request
bit and an interrupt flag for each transmit buffer, a full flag for each receive
buffer. The driver reaches them by SPI transactions whose first byte is an
instruction; the number of the buffer is encoded differently in the load, the
request, the read and the two status instructions.

A buffer with its request raised may go onto the bus at any moment. In loopback mode
a data frame goes to a receive buffer that is not full instead.

Of the instruction set only what the driver's transmission and reception use is here.
A load that runs past the last data register is cut off there.
-/

namespace Stm32Ecu.Mcp2515

/-- `rx_reg_t`: `SIDH`, `SIDL`, `EID8`, `EID0`, `DLC` and `D0` to `D7`. The transmit
buffers have the same layout. -/
abbrev Registers := Fin 13 → UInt8

/-- What a CAN frame says. A remote frame carries a length code and no data. -/
structure Frame where
  extended : Bool
  id : Nat
  remote : Bool
  dlc : Nat
  data : List UInt8
deriving DecidableEq

namespace Registers

def sidh (r : Registers) : UInt8 := r 0
def sidl (r : Registers) : UInt8 := r 1
def eid8 (r : Registers) : UInt8 := r 2
def eid0 (r : Registers) : UInt8 := r 3
def dlc (r : Registers) : UInt8 := r 4

/-- The data registers, `D0` first. -/
def data (r : Registers) (i : Fin 8) : UInt8 := r (i.natAdd 5)

/-- Bit 3 of `SIDL` selects the format of the identifier. -/
def extended (r : Registers) : Bool := r.sidl.toNat / 8 % 2 = 1

/-- Bit 6 of `DLC` marks a remote frame. -/
def remote (r : Registers) : Bool := r.dlc.toNat / 64 % 2 = 1

/-- The other bits above the length code are not used. -/
def ReservedClear (r : Registers) : Prop := r.dlc.toNat / 16 % 4 = 0 ∧ r.dlc.toNat / 128 = 0

def id (r : Registers) : Nat :=
  if r.extended then
    r.sidh.toNat * 2 ^ 21 + r.sidl.toNat / 32 * 2 ^ 18 + r.sidl.toNat % 4 * 2 ^ 16 +
      r.eid8.toNat * 2 ^ 8 + r.eid0.toNat
  else r.sidh.toNat * 2 ^ 3 + r.sidl.toNat / 32

/-- A length code above eight still means eight bytes. -/
def length (r : Registers) : Nat := if r.remote then 0 else min 8 (r.dlc.toNat % 16)

/-- The frame that the registers describe. -/
def frame (r : Registers) : Frame where
  extended := r.extended
  id := r.id
  remote := r.remote
  dlc := r.dlc.toNat % 16
  data := (List.ofFn r.data).take r.length

/-- Write bytes in order from a register on. -/
def load (r : Registers) (start : Nat) (bytes : List UInt8) : Registers :=
  fun i => if start ≤ i then (bytes[i.val - start]?).getD (r i) else r i

/-- Behind a header of five bytes the data registers are written in order. -/
theorem load_data (r : Registers) (sidh sidl eid8 eid0 dlc : UInt8) (bytes : List UInt8)
    (i : Fin 8) (given : i.val < bytes.length) :
    (r.load 0 ([sidh, sidl, eid8, eid0, dlc] ++ bytes)).data i = bytes[i.val] := by
  have stored : ([sidh, sidl, eid8, eid0, dlc] ++ bytes)[5 + i.val]? = bytes[i.val]? := by
    rw [List.getElem?_append_right (Nat.le_add_right 5 i.val)]
    exact congrArg (bytes[·]?) (Nat.add_sub_cancel_left 5 i.val)
  show ((([sidh, sidl, eid8, eid0, dlc] ++ bytes)[5 + i.val]?).getD _) = _
  rw [stored, List.getElem?_eq_getElem given, Option.getD_some]

/-- Read back as a list. -/
theorem load_data_take (r : Registers) (sidh sidl eid8 eid0 dlc : UInt8) (bytes : List UInt8)
    (few : bytes.length ≤ 8) :
    (List.ofFn (r.load 0 ([sidh, sidl, eid8, eid0, dlc] ++ bytes)).data).take bytes.length =
      bytes := by
  apply List.ext_getElem
  · rw [List.length_take, List.length_ofFn, Nat.min_eq_left few]
  · intro i _ given
    rw [List.getElem_take, List.getElem_ofFn]
    exact load_data r sidh sidl eid8 eid0 dlc bytes ⟨i, by omega⟩ given

/-- A data frame is copied. Data registers past its length keep what they held; `SIDL`
has no bits 2 and 4 for such a frame, and `DLC` only its length code. -/
def copy (r sent : Registers) : Registers :=
  r.load 0 ([sent.sidh, 0xEB &&& sent.sidl, sent.eid8, sent.eid0, 0x0F &&& sent.dlc] ++
    (List.ofFn sent.data).take sent.length)

/-- All thirteen registers, read from the first on, are the buffer. -/
theorem load_ofFn (old r : Registers) : old.load 0 (((List.ofFn r).drop 0).take 13) = r := by
  funext i
  have present : (((List.ofFn r).drop 0).take 13)[i.val]? = some (r i) := by
    rw [List.drop_zero, List.take_of_length_le (List.length_ofFn.le),
      List.getElem?_eq_getElem (by rw [List.length_ofFn]; exact i.isLt), List.getElem_ofFn]
  show ((((List.ofFn r).drop 0).take 13)[i.val]?).getD (old i) = r i
  rw [present, Option.getD_some]

/-- Bits 4:3 of RX STATUS: standard data, standard remote, extended data, extended
remote. -/
def msgType (r : Registers) : Nat := 2 * r.extended.toNat + r.remote.toNat

end Registers

/-- The transmit buffers. -/
inductive TxBuffer where
  | txb0
  | txb1
  | txb2
deriving DecidableEq

/-- The number of a transmit buffer. -/
def TxBuffer.number : TxBuffer → Nat
  | .txb0 => 0
  | .txb1 => 1
  | .txb2 => 2

/-- In the order in which they are looked at. -/
def TxBuffer.all : List TxBuffer := [.txb0, .txb1, .txb2]

/-- The receive buffers. -/
inductive RxBuffer where
  | rxb0
  | rxb1
deriving DecidableEq

/-- The message registers of the buffers, the transmit requests, the interrupt flags, and the
filter that the last reception matched. -/
structure Controller where
  tx : TxBuffer → Registers
  txReq : TxBuffer → Bool
  txIf : TxBuffer → Bool
  rx : RxBuffer → Registers
  rxIf : RxBuffer → Bool
  filter : Fin 8

/-- The buffer and the first register that a LOAD TX BUFFER instruction addresses. -/
def loadTarget (instruction : UInt8) : Option (TxBuffer × Nat) :=
  match instruction with
  | 0x40 => some (.txb0, 0)
  | 0x41 => some (.txb0, 5)
  | 0x42 => some (.txb1, 0)
  | 0x43 => some (.txb1, 5)
  | 0x44 => some (.txb2, 0)
  | 0x45 => some (.txb2, 5)
  | _ => none

/-- RTS is `0x80` with one bit for each buffer. -/
def requests (instruction : UInt8) (n : TxBuffer) : Bool :=
  instruction.toNat / 8 = 16 && instruction.toNat.testBit n.number

/-- The buffer and the first register that a READ RX BUFFER instruction addresses. -/
def readTarget (instruction : UInt8) : Option (RxBuffer × Nat) :=
  match instruction with
  | 0x90 => some (.rxb0, 0)
  | 0x92 => some (.rxb0, 5)
  | 0x94 => some (.rxb1, 0)
  | 0x96 => some (.rxb1, 5)
  | _ => none

/-- Bits, the lowest first. -/
def packed : List Bool → Nat
  | [] => 0
  | bit :: rest => bit.toNat + 2 * packed rest

namespace Controller

/-- Nothing pending, nothing received. -/
def idle : Controller where
  tx := fun _ _ => 0
  txReq := fun _ => false
  txIf := fun _ => false
  rx := fun _ _ => 0
  rxIf := fun _ => false
  filter := 0

/-- The receive buffer that RX STATUS describes, the first when both are full. -/
def firstFull (c : Controller) : Option (RxBuffer) :=
  if c.rxIf .rxb0 then some .rxb0 else if c.rxIf .rxb1 then some .rxb1 else none

/-- The answer to READ STATUS. -/
def status (c : Controller) : UInt8 :=
  UInt8.ofNat (packed [c.rxIf .rxb0, c.rxIf .rxb1, c.txReq .txb0, c.txIf .txb0, c.txReq .txb1,
    c.txIf .txb1, c.txReq .txb2, c.txIf .txb2])

/-- The request bits are bits 2, 4 and 6 of the status. -/
theorem status_bits (c : Controller) (n : TxBuffer) :
    c.status.toNat.testBit (2 + 2 * n.number) = c.txReq n := by
  have all : ∀ rx0 rx1 req0 tx0 req1 tx1 req2 tx2 : Bool,
      let status := UInt8.ofNat (packed [rx0, rx1, req0, tx0, req1, tx1, req2, tx2])
      status.toNat.testBit 2 = req0 ∧ status.toNat.testBit 4 = req1 ∧
        status.toNat.testBit 6 = req2 := by
    decide
  obtain ⟨bit2, bit4, bit6⟩ := all (c.rxIf .rxb0) (c.rxIf .rxb1) (c.txReq .txb0) (c.txIf .txb0)
    (c.txReq .txb1) (c.txIf .txb1) (c.txReq .txb2) (c.txIf .txb2)
  cases n with
  | txb0 => exact bit2
  | txb1 => exact bit4
  | txb2 => exact bit6

/-- The answer to RX STATUS: the filter that matched, the type of the message, and which
buffers are full. -/
def rxStatus (c : Controller) : UInt8 :=
  UInt8.ofNat (c.filter + 8 * ((c.firstFull.map fun m => (c.rx m).msgType).getD 0) +
    64 * ((c.rxIf .rxb0).toNat + 2 * (c.rxIf .rxb1).toNat))

/-- Write registers of one transmit buffer. -/
def loadTx (c : Controller) (n : TxBuffer) (start : Nat) (bytes : List UInt8) : Controller :=
  { c with tx := Function.update c.tx n ((c.tx n).load start bytes) }

/-- Raise one request. -/
def request (c : Controller) (n : TxBuffer) : Controller :=
  { c with txReq := Function.update c.txReq n true }

/-- A transaction that only sends. -/
def write (c : Controller) : List UInt8 → Controller
  | [] => c
  | instruction :: bytes =>
      match loadTarget instruction with
      | some (n, start) => c.loadTx n start bytes
      | none => { c with txReq := fun n => c.txReq n || requests instruction n }

/-- READ RX BUFFER, from the addressed register on. The end of the transaction marks
the buffer as read. -/
def readRx (c : Controller) (instruction : UInt8) (length : Nat) : List UInt8 × Controller :=
  match readTarget instruction with
  | some (m, start) =>
      (((List.ofFn (c.rx m)).drop start).take length,
        { c with rxIf := Function.update c.rxIf m false })
  | none => ([], c)

/-- A pending buffer has gone onto the bus. -/
def complete (c : Controller) (n : TxBuffer) : Controller :=
  { c with
    txReq := Function.update c.txReq n false
    txIf := Function.update c.txIf n true }

/-- A frame arrives in a receive buffer. -/
def receive (c : Controller) (m : RxBuffer) (sent : Registers) : Controller :=
  { c with
    rx := Function.update c.rx m ((c.rx m).copy sent)
    rxIf := Function.update c.rxIf m true }

/-- Loopback mode: a requested data frame ends in a receive buffer that is not full. -/
def loopback (c : Controller) (n : TxBuffer) (m : RxBuffer) : Option Controller :=
  if c.txReq n = true ∧ (c.tx n).remote = false ∧ c.rxIf m = false then
    some ((c.complete n).receive m (c.tx n))
  else none

end Controller

/-- The controller and the frames that have left it, in order. -/
structure Bus where
  controller : Controller
  sent : List Frame

namespace Bus

/-- One SPI transaction that only sends. -/
def write (bus : Bus) (bytes : List UInt8) : Bus :=
  { bus with controller := bus.controller.write bytes }

/-- Load one transmit buffer from its first register on. -/
def loadTx (bus : Bus) (n : TxBuffer) (bytes : List UInt8) : Bus :=
  { bus with controller := bus.controller.loadTx n 0 bytes }

/-- Raise one request. -/
def request (bus : Bus) (n : TxBuffer) : Bus := { bus with controller := bus.controller.request n }

/-- A buffer goes onto the bus if its request is raised. -/
def complete (bus : Bus) (n : TxBuffer) : Bus :=
  if bus.controller.txReq n = true then
    { controller := bus.controller.complete n
      sent := bus.sent ++ [(bus.controller.tx n).frame] }
  else bus

/-- Several buffers, one after another. -/
def completions (bus : Bus) (finished : List TxBuffer) : Bus := finished.foldl complete bus

end Bus

end Stm32Ecu.Mcp2515
