import Mathlib.Tactic.IntervalCases
import Stm32Ecu.RpmsgManager

/-!
# Parameter requests and their replies

The server asks for a parameter by a frame that holds the type tag, the name behind
it and zeros to the end of the field. The M4 reads ten bytes of the name, looks it up
at that type, and writes the value to the data field of its answer. Two encoders and
two decoders meet here, on either side of the frame.

A name of at most ten bytes survives the way there, and a value of any of the listed
types the way back. Of a longer name the frame holds ten bytes and the M4 looks up
those: no request reaches the parameter itself.
-/

namespace Stm32Ecu

namespace Data

/-- The field is the bytes, followed by zeros, cut at eleven. -/
theorem pad_toList (bytes : List UInt8) :
    (pad bytes).toList = (bytes ++ List.replicate 11 0).take 11 := by
  apply List.ext_getElem?
  intro i
  by_cases inside : i < 11
  · have shown : (pad bytes).toList[i]? = some (bytes.getD i 0) := by
      simp [pad, inside]
    rw [shown, List.getElem?_take_of_lt inside]
    by_cases held : i < bytes.length
    · rw [List.getElem?_append_left held]
      simp [held]
    · have beyond : bytes.length ≤ i := Nat.le_of_not_gt held
      have zero : i - bytes.length < 11 := by omega
      rw [List.getElem?_append_right beyond, List.getElem?_replicate_of_lt zero]
      simp [beyond]
  · rw [List.getElem?_eq_none (by simpa using inside), List.getElem?_eq_none (by simp; omega)]

/-- Bytes that fit are followed by zeros alone. -/
theorem pad_fits (bytes : List UInt8) (fits : bytes.length ≤ 11) :
    (pad bytes).toList = bytes ++ List.replicate (11 - bytes.length) 0 := by
  rw [pad_toList, List.take_append, List.take_of_length_le fits, List.take_replicate]
  congr 2
  omega

end Data

/-- Reading to the first NUL gives back bytes without one. -/
theorem takeWhile_padded (bytes : List UInt8) (zeros : Nat) (nonNul : 0 ∉ bytes) :
    (bytes ++ List.replicate zeros 0).takeWhile (· ≠ 0) = bytes := by
  rw [List.takeWhile_append_of_pos]
  · cases zeros <;> simp [List.replicate_succ]
  · intro byte member
    have different : byte ≠ 0 := fun same => nonNul (same ▸ member)
    simpa using different

/-- The number whose bytes these are, lowest first. -/
def littleEndianValue : List UInt8 → Nat
  | [] => 0
  | byte :: rest => byte.toNat + 256 * littleEndianValue rest

/-- The bytes of a number, lowest first, give its remainder. The induction is on the
width: the first byte is the remainder by 256, and the others are the bytes of the
quotient. -/
theorem littleEndianValue_bytes (width n : Nat) :
    littleEndianValue ((List.range width).map (fun i => UInt8.ofNat (n / 256 ^ i))) =
      n % 256 ^ width := by
  induction width generalizing n with
  | zero => simp [littleEndianValue, Nat.mod_one]
  | succ width ih =>
    have others : (fun i => UInt8.ofNat (n / 256 ^ i)) ∘ Nat.succ =
        fun i => UInt8.ofNat (n / 256 / 256 ^ i) := by
      funext i
      rw [Function.comp_apply, Nat.div_div_eq_div_mul, Nat.succ_eq_add_one, Nat.pow_succ']
    rw [List.range_succ_eq_map, List.map_cons, List.map_map, others, littleEndianValue, ih,
      Nat.pow_succ', Nat.mod_mul]
    simp

/-- The eight bytes of a 64-bit value give it back. -/
theorem littleEndianValue_littleEndian (value : UInt64) :
    littleEndianValue (littleEndian value) = value.toNat := by
  have bytes : littleEndian value =
      (List.range 8).map (fun i => UInt8.ofNat (value.toNat / 256 ^ i)) := by
    unfold littleEndian
    apply List.map_congr_left
    intro i below
    have inside : i < 8 := List.mem_range.mp below
    apply UInt8.toNat_inj.mp
    interval_cases i <;> simp [Nat.shiftRight_eq_div_pow]
  rw [bytes, littleEndianValue_bytes]
  exact Nat.mod_eq_of_lt value.toNat_lt

/-- A value of a parameter. Integers and doubles are 64-bit patterns. -/
inductive ParameterValue where
  | bool (value : Bool)
  | integer (value : UInt64)
  | double (value : UInt64)
  | string (bytes : List UInt8)
  | byteArray (bytes : Data)
deriving DecidableEq

namespace ParameterValue

/-- The listed type of a value. -/
def kind : ParameterValue → ParameterType
  | .bool _ => .bool
  | .integer _ => .integer
  | .double _ => .double
  | .string _ => .string
  | .byteArray _ => .byteArray

/-- The data field the callback writes. -/
def field : ParameterValue → Data
  | .bool value => Data.pad [if value then 1 else 0]
  | .integer value => Data.pad (littleEndian value)
  | .double value => Data.pad (littleEndian value)
  | .string bytes => Data.pad bytes
  | .byteArray bytes => bytes

/-- How many bytes of the field the value takes. -/
def size : ParameterValue → Nat
  | .bool _ => 1
  | .integer _ => 8
  | .double _ => 8
  | .string bytes => bytes.length
  | .byteArray _ => 11

/-- A string fits the field and has no NUL inside; any other value fits. -/
def Fits : ParameterValue → Prop
  | .string bytes => bytes.length ≤ 11 ∧ 0 ∉ bytes
  | _ => True

end ParameterValue

/-- The field of a reply read as a value: the first byte, eight bytes with the lowest
first, or the bytes to the first NUL or the end of the field. -/
def readBack (kind : ParameterType) (data : Data) : Option ParameterValue :=
  match kind with
  | .bool => some (.bool (data.toList.headD 0 ≠ 0))
  | .integer => some (.integer (.ofNat (littleEndianValue (data.toList.take 8))))
  | .double => some (.double (.ofNat (littleEndianValue (data.toList.take 8))))
  | .string => some (.string (data.toList.takeWhile (· ≠ 0)))
  | .byteArray => some (.byteArray data)
  | .notSet => none
  | .other => none

/-- `System::get_parameter_value` at a type that is only known at run time. -/
def ParameterStore.getParameterValue (store : ParameterStore) (kind : ParameterType)
    (name : List UInt8) : Option ParameterValue :=
  match kind with
  | .bool => some (.bool (store.getBool name))
  | .integer => some (.integer (store.getInteger name))
  | .double => some (.double (store.getDouble name))
  | .string => some (.string (store.getString name))
  | .byteArray => some (.byteArray (store.getByteArray name))
  | .notSet => none
  | .other => none

/-- Eight bytes. -/
theorem littleEndian_length (value : UInt64) : (littleEndian value).length = 8 := by
  simp [littleEndian]

/-- Eight bytes at the start of the field read as the value they were written for. -/
theorem littleEndian_field (value : UInt64) :
    UInt64.ofNat (littleEndianValue ((Data.pad (littleEndian value)).toList.take 8)) = value := by
  have length := littleEndian_length value
  have fits : (littleEndian value).length ≤ 11 := by omega
  rw [Data.pad_fits _ fits, List.take_append_of_le_length (Nat.le_of_eq length.symm),
    List.take_of_length_le (Nat.le_of_eq length), littleEndianValue_littleEndian]
  exact UInt64.ofNat_toNat

/-- Every value that fits is read back from the field written for it, whose other
bytes are zero. -/
theorem readBack_field (value : ParameterValue) (fits : value.Fits) :
    readBack value.kind value.field = some value ∧
      ∀ byte ∈ value.field.toList.drop value.size, byte = 0 := by
  have rest (bytes : List UInt8) (short : bytes.length ≤ 11) (size : Nat)
      (length : bytes.length = size) :
      ∀ byte ∈ (Data.pad bytes).toList.drop size, byte = 0 := by
    rw [Data.pad_fits bytes short, ← length, List.drop_left]
    intro byte member
    exact List.eq_of_mem_replicate member
  cases value with
  | bool value =>
    refine ⟨?_, rest _ (by simp) 1 (by simp)⟩
    cases value <;> decide
  | integer value =>
    have length := littleEndian_length value
    refine ⟨?_, rest _ (by omega) 8 length⟩
    simp only [readBack, ParameterValue.kind, ParameterValue.field, littleEndian_field]
  | double value =>
    have length := littleEndian_length value
    refine ⟨?_, rest _ (by omega) 8 length⟩
    simp only [readBack, ParameterValue.kind, ParameterValue.field, littleEndian_field]
  | string bytes =>
    refine ⟨?_, rest bytes fits.1 _ rfl⟩
    simp only [readBack, ParameterValue.kind, ParameterValue.field, Data.pad_fits bytes fits.1,
      takeWhile_padded bytes _ fits.2]
  | byteArray bytes =>
    refine ⟨rfl, ?_⟩
    have past : bytes.toList.drop 11 = [] := List.drop_of_length_le (by simp)
    simp [ParameterValue.field, ParameterValue.size, past]

namespace Interproc

/-- `interproc_msg_make` puts the command in place and the bytes into the data field,
with zeros behind them. -/
def MakePads (lib : Interproc) : Prop :=
  ∀ command bytes, bytes.length ≤ 11 →
    (lib.interprocMsgMake command bytes).command = command ∧
      (lib.interprocMsgMake command bytes).data = Data.pad bytes

/-- `interproc_msg_calc_checksum` writes to no field but the checksum. -/
def ChecksumOnly (lib : Interproc) : Prop :=
  ∀ msg, (lib.interprocMsgCalcChecksum msg).2.command = msg.command ∧
    (lib.interprocMsgCalcChecksum msg).2.data = msg.data

end Interproc

/-- A type that parameters have, and that a request can ask for. -/
def ParameterType.listed : ParameterType → Bool
  | .bool => true
  | .integer => true
  | .double => true
  | .string => true
  | .byteArray => true
  | .notSet => false
  | .other => false

/-- The type tag is one byte, at the start of the data field. -/
def ParameterStore.TagByte (store : ParameterStore) (tag : ParameterType → UInt8) : Prop :=
  ∀ data kind, kind.listed = true → data.toList.head? = some (tag kind) →
    store.parameterType data = kind

namespace RpmsgManager

/-- The lookup a frame leads to: the type and the name that `get_parameter_value` is
called with, if it is called. -/
def paramLookup (lib : Interproc) (store : ParameterStore) (msg : InterprocMsg) (len : Nat) :
    Option (ParameterType × List UInt8) :=
  if len = lib.sizeofMsg ∧ 0 < lib.interprocMsgCheck msg ∧ msg.command = .paramGet ∧
      (store.parameterType msg.data).listed = true then
    some (store.parameterType msg.data, paramName msg.data)
  else none

/-- The reply holds what the lookup gives. -/
theorem paramReply_lookup (store : ParameterStore) (data : Data) :
    paramReply store data =
      match store.getParameterValue (store.parameterType data) (paramName data) with
      | some value => ⟨.ack, value.field, 0⟩
      | none => ⟨.unknown, Data.pad parameterTypeError, 0⟩ := by
  unfold paramReply ParameterStore.getParameterValue
  cases store.parameterType data <;> rfl

/-- A frame that leads to a lookup gets one answer, and the answer depends on the
store through the looked up value alone. -/
theorem recvCb_of_lookup (lib : Interproc) (store : ParameterStore) (msg : InterprocMsg)
    (len : Nat) (manager : RpmsgManager) (kind : ParameterType) (name : List UInt8)
    (value : ParameterValue) (looked : paramLookup lib store msg len = some (kind, name))
    (found : store.getParameterValue kind name = some value) :
    (stm32ecuRecvCb lib store msg len manager).1 =
      [⟨(lib.interprocMsgCalcChecksum ⟨.ack, value.field, 0⟩).2, lib.sizeofMsg⟩] := by
  unfold paramLookup at looked
  split at looked
  · rename_i taken
    obtain ⟨full, valid, isGet, _⟩ := taken
    obtain ⟨rfl, rfl⟩ := Prod.mk.inj (Option.some.inj looked)
    have reply := paramReply_lookup store msg.data
    rw [found] at reply
    simp only [stm32ecuRecvCb, full, valid, and_self, ↓reduceIte, dispatch, isGet, paramGet, reply]
  · cases looked

/-- A type outside the list has no value in any store. -/
theorem getParameterValue_unlisted (store : ParameterStore) (kind : ParameterType)
    (name : List UInt8) (unlisted : kind.listed = false) :
    store.getParameterValue kind name = none := by
  cases kind with
  | notSet => rfl
  | other => rfl
  | _ => cases unlisted

/-- The lookup is all that the callback asks of the store: with another store that
reads the same tags and has the same value there, it does the same. -/
theorem recvCb_same_lookup (lib : Interproc) (store other : ParameterStore) (msg : InterprocMsg)
    (len : Nat) (manager : RpmsgManager)
    (tags : other.parameterType = store.parameterType)
    (agree : ∀ kind name, paramLookup lib store msg len = some (kind, name) →
      other.getParameterValue kind name = store.getParameterValue kind name) :
    stm32ecuRecvCb lib other msg len manager = stm32ecuRecvCb lib store msg len manager := by
  unfold stm32ecuRecvCb
  split
  · rename_i accepted
    by_cases isGet : msg.command = .paramGet
    · have found : other.getParameterValue (store.parameterType msg.data) (paramName msg.data) =
          store.getParameterValue (store.parameterType msg.data) (paramName msg.data) := by
        cases listed : (store.parameterType msg.data).listed with
        | true => exact agree _ _ (if_pos ⟨accepted.1, accepted.2, isGet, listed⟩)
        | false =>
          rw [getParameterValue_unlisted other _ _ listed,
            getParameterValue_unlisted store _ _ listed]
      have reply : paramReply other msg.data = paramReply store msg.data := by
        rw [paramReply_lookup, paramReply_lookup, tags, found]
      simp only [dispatch, isGet, paramGet, reply]
    · have answer : dispatch lib other msg = dispatch lib store msg := by
        unfold dispatch
        cases command : msg.command with
        | paramGet => exact absurd command isGet
        | _ => rfl
      rw [answer]
  · rfl

/-- The name in a frame never has more than ten bytes. -/
theorem paramName_length (data : Data) : (paramName data).length ≤ 10 := by
  have taken : ((data.toList.drop 1).take 10).length ≤ 10 := List.length_take_le 10 _
  exact Nat.le_trans (List.takeWhile_sublist _).length_le taken

/-- Of a name behind its tag the M4 reads the first ten bytes. -/
theorem paramName_pad (tag : UInt8) (name : List UInt8) (nonNul : 0 ∉ name) :
    paramName (Data.pad (tag :: name)) = name.take 10 := by
  have kept : 0 ∉ name.take 10 := fun member => nonNul (List.mem_of_mem_take member)
  have shown : ((Data.pad (tag :: name)).toList.drop 1).take 10 =
      name.take 10 ++ List.replicate (10 - name.length) 0 := by
    rw [Data.pad_toList, List.cons_append, List.take_succ_cons, List.drop_succ_cons, List.drop_zero,
      List.take_take, List.take_append, List.take_replicate]
    congr 2
    omega
  rw [paramName, shown, takeWhile_padded _ _ kept]

/-- The tag of a padded request is its first byte. -/
theorem pad_head (tag : UInt8) (name : List UInt8) :
    (Data.pad (tag :: name)).toList.head? = some tag := by
  rw [Data.pad_toList, List.cons_append, List.take_succ_cons, List.head?_cons]

/-- A request as the server builds it: the tag, the name behind it, and the length of
both. -/
def paramRequest (lib : Interproc) (tag : UInt8) (name : List UInt8) : InterprocMsg :=
  lib.interprocMsgMake .paramGet (tag :: name)

/-- The frame asks for a parameter and carries this type and name, as far as they go
into the data field. -/
def Carries (tag : ParameterType → UInt8) (kind : ParameterType) (name : List UInt8)
    (msg : InterprocMsg) : Prop :=
  msg.command = .paramGet ∧ msg.data = Data.pad (tag kind :: name)

/-- A lookup is made with the type and the name in the frame. -/
theorem paramLookup_some {lib : Interproc} {store : ParameterStore} {msg : InterprocMsg}
    {len : Nat} {kind : ParameterType} {name : List UInt8}
    (looked : paramLookup lib store msg len = some (kind, name)) :
    store.parameterType msg.data = kind ∧ paramName msg.data = name := by
  unfold paramLookup at looked
  split at looked
  · exact Prod.mk.inj (Option.some.inj looked)
  · cases looked

/-- For this frame the callback looks up exactly one parameter: it answers with the value that
is stored there, and a store that differs elsewhere makes no difference. -/
structure Reads (lib : Interproc) (store : ParameterStore) (msg : InterprocMsg)
    (kind : ParameterType) (name : List UInt8) : Prop where
  looked : paramLookup lib store msg lib.sizeofMsg = some (kind, name)
  answer : ∀ manager value, store.getParameterValue kind name = some value →
    (stm32ecuRecvCb lib store msg lib.sizeofMsg manager).1 =
      [⟨(lib.interprocMsgCalcChecksum ⟨.ack, value.field, 0⟩).2, lib.sizeofMsg⟩]
  alone : ∀ manager (other : ParameterStore), other.parameterType = store.parameterType →
    other.getParameterValue kind name = store.getParameterValue kind name →
      stm32ecuRecvCb lib other msg lib.sizeofMsg manager =
        stm32ecuRecvCb lib store msg lib.sizeofMsg manager

/-- For this frame the callback looks up nothing under the name: a store that differs in what it
has there makes no difference. -/
structure Ignores (lib : Interproc) (store : ParameterStore) (msg : InterprocMsg)
    (name : List UInt8) : Prop where
  looked : ∀ kind, paramLookup lib store msg lib.sizeofMsg ≠ some (kind, name)
  alone : ∀ manager (other : ParameterStore), other.parameterType = store.parameterType →
    (∀ kind found, found ≠ name →
      other.getParameterValue kind found = store.getParameterValue kind found) →
      stm32ecuRecvCb lib other msg lib.sizeofMsg manager =
        stm32ecuRecvCb lib store msg lib.sizeofMsg manager

/-- A lookup that is made is what the callback reads. -/
theorem reads_of_lookup {lib : Interproc} {store : ParameterStore} {msg : InterprocMsg}
    {kind : ParameterType} {name : List UInt8}
    (looked : paramLookup lib store msg lib.sizeofMsg = some (kind, name)) :
    Reads lib store msg kind name where
  looked := looked
  answer manager value found :=
    recvCb_of_lookup lib store msg lib.sizeofMsg manager kind name value looked found
  alone manager other tags agree := by
    refine recvCb_same_lookup lib store other msg lib.sizeofMsg manager tags ?_
    intro asked found same
    obtain ⟨rfl, rfl⟩ := Prod.mk.inj (Option.some.inj (looked.symm.trans same))
    exact agree

/-- A name that is not looked up is ignored. -/
theorem ignores_of_lookup {lib : Interproc} {store : ParameterStore} {msg : InterprocMsg}
    {name : List UInt8}
    (looked : ∀ kind, paramLookup lib store msg lib.sizeofMsg ≠ some (kind, name)) :
    Ignores lib store msg name where
  looked := looked
  alone manager other tags agree := by
    refine recvCb_same_lookup lib store other msg lib.sizeofMsg manager tags ?_
    intro kind found same
    refine agree kind found ?_
    rintro rfl
    exact looked kind same

/-- Two parameters can be told apart by requests: for each there is a request for which the
callback reads it, and for a request that carries the one name it ignores the other. -/
structure Addressed (lib : Interproc) (store : ParameterStore) (tag : ParameterType → UInt8)
    (firstKind : ParameterType) (first : List UInt8) (secondKind : ParameterType)
    (second : List UInt8) : Prop where
  firstReached : ∃ msg carried, Carries tag firstKind carried msg ∧
    Reads lib store msg firstKind first
  secondReached : ∃ msg carried, Carries tag secondKind carried msg ∧
    Reads lib store msg secondKind second
  firstApart : ∀ msg, Carries tag firstKind first msg → Ignores lib store msg second
  secondApart : ∀ msg, Carries tag secondKind second msg → Ignores lib store msg first

/-- Tags in the order of the enumeration. -/
def byteTag : ParameterType → UInt8
  | .notSet => 0
  | .bool => 1
  | .integer => 2
  | .double => 3
  | .string => 4
  | .byteArray => 5
  | .other => 255

/-- The bytes of `"acceleration"`, the one parameter the repository registers. -/
def acceleration : List UInt8 :=
  [0x61, 0x63, 0x63, 0x65, 0x6C, 0x65, 0x72, 0x61, 0x74, 0x69, 0x6F, 0x6E]

/-- The bytes of `"position"`, the name the server asks for. -/
def position : List UInt8 := [0x70, 0x6F, 0x73, 0x69, 0x74, 0x69, 0x6F, 0x6E]

/-- A store with one-byte tags that holds the double 1.0 under two names. -/
def accumulatorStore : ParameterStore where
  parameterType := fun data =>
    match data.toList.headD 0 with
    | 1 => .bool
    | 2 => .integer
    | 3 => .double
    | 4 => .string
    | 5 => .byteArray
    | _ => .notSet
  getBool := fun _ => false
  getInteger := fun _ => 0
  getDouble := fun name =>
    if name = acceleration ∨ name = position then 0x3FF0000000000000 else 0
  getString := fun _ => []
  getByteArray := fun _ => Data.zero

theorem accumulatorStore_tagByte : accumulatorStore.TagByte byteTag := by
  intro data kind listed first
  have head : data.toList.headD 0 = byteTag kind := by
    rw [List.headD_eq_head?_getD, first, Option.getD_some]
  simp only [accumulatorStore, head]
  cases kind with
  | notSet => cases listed
  | other => cases listed
  | _ => rfl

theorem crc32Interproc_makePads : crc32Interproc.MakePads := by
  intro command bytes _
  exact ⟨rfl, rfl⟩

theorem crc32Interproc_checksumOnly : crc32Interproc.ChecksumOnly := by
  intro msg
  exact ⟨rfl, rfl⟩

section Requests

variable (lib : Interproc) (store : ParameterStore) (tag : ParameterType → UInt8)

/-- What the server builds for a name of at most ten bytes carries it, and looks it up
at the type it was built for. -/
theorem paramRequest_lookup (pads : lib.MakePads) (stamps : lib.MakeStamps)
    (checks : lib.CheckExact) (tagged : store.TagByte tag) (kind : ParameterType)
    (listed : kind.listed = true) (name : List UInt8) (short : name.length ≤ 10)
    (nonNul : 0 ∉ name) :
    Carries tag kind name (paramRequest lib (tag kind) name) ∧
      paramLookup lib store (paramRequest lib (tag kind) name) lib.sizeofMsg =
        some (kind, name) := by
  have fits : (tag kind :: name).length ≤ 11 := Nat.succ_le_succ short
  have carries : Carries tag kind name (paramRequest lib (tag kind) name) :=
    pads .paramGet (tag kind :: name) fits
  have valid : 0 < lib.interprocMsgCheck (paramRequest lib (tag kind) name) :=
    (checks _).mpr (stamps _ _)
  have read : store.parameterType (paramRequest lib (tag kind) name).data = kind := by
    apply tagged _ kind listed
    rw [carries.2, pad_head]
  have asked : paramName (paramRequest lib (tag kind) name).data = name := by
    rw [carries.2, paramName_pad _ _ nonNul, List.take_of_length_le short]
  have isListed :
      (store.parameterType (paramRequest lib (tag kind) name).data).listed = true := by
    rw [read]
    exact listed
  refine ⟨carries, ?_⟩
  rw [paramLookup, if_pos ⟨rfl, valid, carries.1, isListed⟩, read, asked]

/-- A request that carries a short name looks up no other. -/
theorem carried_apart (kind : ParameterType) (name other : List UInt8)
    (short : name.length ≤ 10) (nonNul : 0 ∉ name) (different : name ≠ other)
    (msg : InterprocMsg) (carries : Carries tag kind name msg) (found : ParameterType) :
    paramLookup lib store msg lib.sizeofMsg ≠ some (found, other) := by
  intro looked
  have asked := (paramLookup_some looked).2
  rw [carries.2, paramName_pad _ _ nonNul, List.take_of_length_le short] at asked
  exact different asked

/-- Two different names can both be addressed if and only if both have at most ten
bytes: the data field has eleven, and the tag takes the first. What is read is what
the callback answers with, and nothing else in the store matters to it. -/
theorem names_addressed_iff (pads : lib.MakePads) (stamps : lib.MakeStamps)
    (checks : lib.CheckExact) (tagged : store.TagByte tag) (firstKind secondKind : ParameterType)
    (firstListed : firstKind.listed = true) (secondListed : secondKind.listed = true)
    (first second : List UInt8) (firstNonNul : 0 ∉ first) (secondNonNul : 0 ∉ second)
    (different : first ≠ second) :
    Addressed lib store tag firstKind first secondKind second ↔
      first.length ≤ 10 ∧ second.length ≤ 10 := by
  constructor
  · rintro ⟨⟨one, _, _, firstRead⟩, ⟨other, _, _, secondRead⟩, _, _⟩
    rw [← (paramLookup_some firstRead.looked).2, ← (paramLookup_some secondRead.looked).2]
    exact ⟨paramName_length one.data, paramName_length other.data⟩
  · rintro ⟨firstShort, secondShort⟩
    obtain ⟨carriesFirst, readsFirst⟩ := paramRequest_lookup lib store tag pads stamps checks
      tagged firstKind firstListed first firstShort firstNonNul
    obtain ⟨carriesSecond, readsSecond⟩ := paramRequest_lookup lib store tag pads stamps checks
      tagged secondKind secondListed second secondShort secondNonNul
    constructor
    · exact ⟨_, first, carriesFirst, reads_of_lookup readsFirst⟩
    · exact ⟨_, second, carriesSecond, reads_of_lookup readsSecond⟩
    · intro msg carries
      exact ignores_of_lookup
        (carried_apart lib store tag firstKind first second firstShort firstNonNul different msg
          carries)
    · intro msg carries
      exact ignores_of_lookup
        (carried_apart lib store tag secondKind second first secondShort secondNonNul
          different.symm msg carries)

end Requests

/-- The law at two names of eight bytes. -/
theorem short_names_addressed :
    Addressed crc32Interproc accumulatorStore byteTag .double position .double
      [0x76, 0x65, 0x6C, 0x6F, 0x63, 0x69, 0x74, 0x79] :=
  (names_addressed_iff crc32Interproc accumulatorStore byteTag crc32Interproc_makePads
    crc32Interproc_makeStamps crc32Interproc_checkExact accumulatorStore_tagByte .double .double
    rfl rfl position _ (by decide) (by decide) (by decide)).mpr (by decide)

/-- Not every two names can be addressed: the repository registers one of twelve
bytes, and no frame holds it. -/
theorem acceleration_unreachable :
    ¬ ∀ first second : List UInt8, first ≠ [] → second ≠ [] → first ≠ second → 0 ∉ first →
      0 ∉ second →
      Addressed crc32Interproc accumulatorStore byteTag .double first .double second := by
  intro law
  obtain ⟨msg, _, _, read⟩ := (law acceleration position (by decide) (by decide) (by decide)
    (by decide) (by decide)).firstReached
  have short := paramName_length msg.data
  rw [(paramLookup_some read.looked).2] at short
  exact absurd short (by decide)

section RoundTrip

variable (lib : Interproc) (store : ParameterStore) (tag : ParameterType → UInt8)

/-- The request for a name of at most ten bytes, built as the server builds it, looks
up exactly that name at exactly that type. It gets one answer, an acknowledgement whose
data field reads back as the stored value and is zero beyond it. -/
theorem param_get_round_trip (pads : lib.MakePads) (stamps : lib.MakeStamps)
    (checks : lib.CheckExact) (keeps : lib.ChecksumOnly) (tagged : store.TagByte tag)
    (name : List UInt8) (short : name.length ≤ 10) (nonNul : 0 ∉ name) (value : ParameterValue)
    (fits : value.Fits) (stored : store.getParameterValue value.kind name = some value)
    (manager : RpmsgManager) :
    paramLookup lib store (paramRequest lib (tag value.kind) name) lib.sizeofMsg =
        some (value.kind, name) ∧
      ∃ reply, (stm32ecuRecvCb lib store (paramRequest lib (tag value.kind) name) lib.sizeofMsg
          manager).1 = [⟨reply, lib.sizeofMsg⟩] ∧
        reply.command = .ack ∧ readBack value.kind reply.data = some value ∧
        ∀ byte ∈ reply.data.toList.drop value.size, byte = 0 := by
  have listed : value.kind.listed = true := by
    cases value <;> rfl
  have looked := (paramRequest_lookup lib store tag pads stamps checks tagged value.kind listed
    name short nonNul).2
  obtain ⟨command, data⟩ := keeps ⟨.ack, value.field, 0⟩
  refine ⟨looked, _, recvCb_of_lookup lib store _ _ manager _ _ value looked stored, command, ?_⟩
  rw [data]
  exact readBack_field value fits

end RoundTrip

/-- The law at the server's own request. -/
theorem position_round_trip :
    ∃ reply, (stm32ecuRecvCb crc32Interproc accumulatorStore
          (paramRequest crc32Interproc (byteTag .double) position) 16 initial).1 =
        [⟨reply, 16⟩] ∧
      reply.command = .ack ∧
      readBack .double reply.data = some (.double 0x3FF0000000000000) := by
  obtain ⟨_, reply, sends, command, value, _⟩ := param_get_round_trip crc32Interproc
    accumulatorStore byteTag crc32Interproc_makePads crc32Interproc_makeStamps
    crc32Interproc_checkExact crc32Interproc_checksumOnly accumulatorStore_tagByte position
    (by decide) (by decide) (.double 0x3FF0000000000000) trivial rfl initial
  exact ⟨reply, sends, command, value⟩

end RpmsgManager

end Stm32Ecu
