import Mathlib.Data.List.Basic
import Mathlib.Logic.Function.Iterate

/-!
# The interprocessor message and the shared header

`Interproc_Msg_t` is the one frame both processors exchange: a command, eleven
data bytes and a checksum over the bytes before it. Its header and the helpers
over it belong to a submodule that is not part of this repository. They are a
parameter here: the width of the command field, the checksum function, and the
three helpers the programs call. What a program relies on of the helpers is
stated as a property of the parameter, so that each result names what it needs.

Frames are records of field values. A buffer of any bytes of the frame's size is
some record, since a command outside the listed ones is kept as it is.
-/

namespace Stm32Ecu

/-- `Interproc_Command_t`, with any other value of the field. A listed value is never kept as
an unlisted one, so a buffer is one record and not several. -/
inductive Command where
  | unknown
  | echo
  | ping
  | ack
  | reset
  | status
  | sync
  | firmwareUpdate
  | programUpdate
  | value
  | paramGet
  | paramSet
  | other (raw : Nat) (unlisted : 12 ≤ raw)
deriving DecidableEq

/-- The wire value of a command; the server casts it unchanged to the numbering
of `ecu.proto`. -/
def Command.code : Command → Nat
  | .unknown => 0
  | .echo => 1
  | .ping => 2
  | .ack => 3
  | .reset => 4
  | .status => 5
  | .sync => 6
  | .firmwareUpdate => 7
  | .programUpdate => 8
  | .value => 9
  | .paramGet => 10
  | .paramSet => 11
  | .other raw _ => raw

/-- The command with a wire value. -/
def Command.ofCode : Nat → Command
  | 0 => .unknown
  | 1 => .echo
  | 2 => .ping
  | 3 => .ack
  | 4 => .reset
  | 5 => .status
  | 6 => .sync
  | 7 => .firmwareUpdate
  | 8 => .programUpdate
  | 9 => .value
  | 10 => .paramGet
  | 11 => .paramSet
  | raw + 12 => .other (raw + 12) (Nat.le_add_left 12 raw)

/-- Every value of the field is that of a command. -/
@[simp] theorem Command.code_ofCode (code : Nat) : (ofCode code).code = code := by
  unfold ofCode
  split <;> rfl

/-- No two commands have the same wire value. -/
@[simp] theorem Command.ofCode_code (command : Command) : ofCode command.code = command := by
  cases command with
  | other raw unlisted =>
    obtain ⟨above, rfl⟩ := Nat.exists_eq_add_of_le' unlisted
    rfl
  | _ => rfl

/-- The `data` field of a frame. -/
abbrev Data := Vector UInt8 11

/-- The data field of a zero-initialised frame. -/
def Data.zero : Data := Vector.replicate 11 0

/-- `Interproc_Msg_t`. -/
structure InterprocMsg where
  command : Command
  data : Data
  checksum : UInt32
deriving DecidableEq

/-- What the programs use of the shared header. The checksum sees the fields
before `checksum` and nothing else. `interproc_msg_calc_checksum` takes a pointer,
so its answer includes the frame as the call leaves it. -/
structure Interproc where
  sizeofCommand : Nat
  calcCrc : Command → Data → UInt32
  interprocMsgMake : Command → List UInt8 → InterprocMsg
  interprocMsgCheck : InterprocMsg → Int
  interprocMsgCalcChecksum : InterprocMsg → UInt32 × InterprocMsg

namespace Interproc

/-- `sizeof(Interproc_Msg_t)`: the command, eleven data bytes, a 32-bit checksum. -/
def sizeofMsg (lib : Interproc) : Nat := lib.sizeofCommand + 11 + 4

/-- A record is never empty: it has its data and its checksum. -/
theorem sizeofMsg_pos (lib : Interproc) : 0 < lib.sizeofMsg := by
  unfold sizeofMsg
  omega

/-- The comparison every receiver makes before it trusts a frame. -/
def crcOk (lib : Interproc) (msg : InterprocMsg) : Bool :=
  lib.calcCrc msg.command msg.data == msg.checksum

/-- A frame with its checksum filled in. -/
def stamp (lib : Interproc) (command : Command) (data : Data) : InterprocMsg :=
  ⟨command, data, lib.calcCrc command data⟩

/-- A stamped message passes the check. -/
@[simp] theorem crcOk_stamp (lib : Interproc) (command : Command) (data : Data) :
    lib.crcOk (lib.stamp command data) = true := by
  simp [crcOk, stamp]

/-- `interproc_msg_check` is positive exactly on a frame whose checksum matches. -/
def CheckExact (lib : Interproc) : Prop :=
  ∀ msg, 0 < lib.interprocMsgCheck msg ↔ lib.crcOk msg = true

/-- `interproc_msg_make` fills in the checksum of the frame it returns. -/
def MakeStamps (lib : Interproc) : Prop :=
  ∀ command bytes, lib.crcOk (lib.interprocMsgMake command bytes) = true

/-- `interproc_msg_calc_checksum` returns the checksum and leaves the frame alone. -/
def ChecksumPure (lib : Interproc) : Prop :=
  ∀ msg, lib.interprocMsgCalcChecksum msg = (lib.calcCrc msg.command msg.data, msg)

end Interproc

/-- One bit of a most-significant-first CRC-32 division. -/
def crc32Bit (crc : UInt32) : UInt32 :=
  if crc &&& 0x80000000 = 0 then crc <<< 1 else (crc <<< 1) ^^^ 0x04C11DB7

/-- One byte of the division. -/
def crc32Byte (crc : UInt32) (byte : UInt8) : UInt32 :=
  crc32Bit^[8] (crc ^^^ (byte.toUInt32 <<< 24))

/-- Bytes followed by zeros, cut to the data field. -/
def Data.pad (bytes : List UInt8) : Data := Vector.ofFn (fun i => bytes.getD i.val 0)

/-- The CRC-32 of the command byte and the data bytes. -/
def crc32Frame (command : Command) (data : Data) : UInt32 :=
  data.toList.foldl crc32Byte (crc32Byte 0xFFFFFFFF (UInt8.ofNat command.code))

/-- A header with a one-byte command and a CRC-32 checksum. Its helpers do what
the programs rely on; concrete runs use it. -/
def crc32Interproc : Interproc where
  sizeofCommand := 1
  calcCrc := crc32Frame
  interprocMsgMake := fun command bytes =>
    ⟨command, Data.pad bytes, crc32Frame command (Data.pad bytes)⟩
  interprocMsgCheck := fun msg =>
    if crc32Frame msg.command msg.data == msg.checksum then 1 else 0
  interprocMsgCalcChecksum := fun msg => (crc32Frame msg.command msg.data, msg)

/-- The library of the samples checks exactly, -/
theorem crc32Interproc_checkExact : crc32Interproc.CheckExact := by
  intro msg
  simp only [crc32Interproc, Interproc.crcOk]
  split <;> simp_all

/-- stamps what it makes, -/
theorem crc32Interproc_makeStamps : crc32Interproc.MakeStamps := by
  intro command bytes
  simp [crc32Interproc, Interproc.crcOk]

/-- and computes the checksum from command and data alone. -/
theorem crc32Interproc_checksumPure : crc32Interproc.ChecksumPure := by
  intro msg
  rfl

end Stm32Ecu
