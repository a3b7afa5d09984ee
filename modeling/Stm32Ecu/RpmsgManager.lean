import Stm32Ecu.InterprocMsg

/-!
# The receive callback on the M4

`RpmsgManager::stm32ecu_recv_cb` decodes one frame and answers some commands. A
ping and a reset get an acknowledgement made by `interproc_msg_make`. A parameter
request gets a frame built in place: its command and data are filled in, the
checksum helper is called on it, and it is sent. Every other command, and every
frame that fails the check, gets no answer.

The parameter store belongs to the same submodule as the shared header and is a
parameter here: how a request names a type, and what each typed lookup returns.
A double is its 64-bit pattern; strings are their bytes before the terminator.
Values are written to the data field in the M4's little-endian order.
-/

namespace Stm32Ecu

/-- `System::Impl::ParameterType`. Its numbering is the submodule's, so all values of the tag
that are not listed there are one here. -/
inductive ParameterType where
  | notSet
  | bool
  | integer
  | double
  | string
  | byteArray
  | other
deriving DecidableEq

/-- What the callback uses of the parameter store: the type tag at the start of a
request's data, and `get_parameter_value` at each type. -/
structure ParameterStore where
  parameterType : Data → ParameterType
  getBool : List UInt8 → Bool
  getInteger : List UInt8 → UInt64
  getDouble : List UInt8 → UInt64
  getString : List UInt8 → List UInt8
  getByteArray : List UInt8 → Data

/-- The static data of `RpmsgManager`. -/
structure RpmsgManager where
  messageReceived : Bool
  interprocMsg : InterprocMsg

/-- One call of `OPENAMP_send`: the frame and the length given. -/
structure OpenampSend where
  msg : InterprocMsg
  len : Nat
deriving DecidableEq

/-- The eight bytes of a 64-bit value, lowest first. -/
def littleEndian (value : UInt64) : List UInt8 :=
  (List.range 8).map (fun i => (value >>> (8 * i).toUInt64).toUInt8)

/-- The bytes of the literal `"E_PARAMT"`. -/
def parameterTypeError : List UInt8 := [0x45, 0x5F, 0x50, 0x41, 0x52, 0x41, 0x4D, 0x54]

namespace RpmsgManager

/-- Before the first message. -/
def initial : RpmsgManager where
  messageReceived := false
  interprocMsg := ⟨.unknown, Data.zero, 0⟩

/-- The name in a request: ten bytes after the tag, up to the first NUL. -/
def paramName (data : Data) : List UInt8 :=
  ((data.toList.drop 1).take 10).takeWhile (· ≠ 0)

/-- The reply to a parameter request as it is filled in, before the checksum helper
is called. Its checksum is the zero it was initialised with. -/
def paramReply (store : ParameterStore) (data : Data) : InterprocMsg :=
  let name := paramName data
  match store.parameterType data with
  | .bool => ⟨.ack, Data.pad [if store.getBool name then 1 else 0], 0⟩
  | .integer => ⟨.ack, Data.pad (littleEndian (store.getInteger name)), 0⟩
  | .double => ⟨.ack, Data.pad (littleEndian (store.getDouble name)), 0⟩
  | .string => ⟨.ack, Data.pad (store.getString name), 0⟩
  | .byteArray => ⟨.ack, store.getByteArray name, 0⟩
  | .notSet => ⟨.unknown, Data.pad parameterTypeError, 0⟩
  | .other => ⟨.unknown, Data.pad parameterTypeError, 0⟩

/-- `RpmsgManager::send_ack`. -/
def sendAck (lib : Interproc) : OpenampSend :=
  ⟨lib.interprocMsgMake .ack [], lib.sizeofMsg⟩

/-- `case CMD_PARAM_GET`. The value the checksum helper returns is not used; the
frame is sent as the helper leaves it. -/
def paramGet (lib : Interproc) (store : ParameterStore) (data : Data) : OpenampSend :=
  ⟨(lib.interprocMsgCalcChecksum (paramReply store data)).2, lib.sizeofMsg⟩

/-- The `switch` on the command: what is sent for an accepted frame. -/
def dispatch (lib : Interproc) (store : ParameterStore) (msg : InterprocMsg) :
    List OpenampSend :=
  match msg.command with
  | .ping => [sendAck lib]
  | .paramGet => [paramGet lib store msg.data]
  | .paramSet => []
  | .firmwareUpdate => []
  | .programUpdate => []
  | .value => []
  | .unknown => []
  | .echo => []
  | .reset => [sendAck lib]
  | .status => []
  | .sync => []
  | .ack => []
  | .other _ _ => []

/-- `RpmsgManager::stm32ecu_recv_cb`. A frame of another length, or one the check
rejects, changes nothing and gets no answer. -/
def stm32ecuRecvCb (lib : Interproc) (store : ParameterStore) (msg : InterprocMsg) (len : Nat)
    (manager : RpmsgManager) : List OpenampSend × RpmsgManager :=
  if len = lib.sizeofMsg ∧ 0 < lib.interprocMsgCheck msg then
    (dispatch lib store msg, { manager with messageReceived := true, interprocMsg := msg })
  else ([], manager)

/-- A store that reads the tag from the first byte and holds one double, 1.0. -/
def oneDouble : ParameterStore where
  parameterType := fun data => if data.toList.head? = some 3 then .double else .notSet
  getBool := fun _ => false
  getInteger := fun _ => 0
  getDouble := fun _ => 0x3FF0000000000000
  getString := fun _ => []
  getByteArray := fun _ => Data.zero

end RpmsgManager

end Stm32Ecu
