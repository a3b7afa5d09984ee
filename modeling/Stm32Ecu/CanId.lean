import Mathlib.Tactic.Ring

/-!
# CAN identifiers in the registers of the MCP2515

An identifier of 29 bits lies scattered over four registers: eight bits in `SIDH`,
three and two in `SIDL` with the extended flag between them, and eight each in `EID8`
and `EID0`. One of 11 bits takes `SIDH` and the upper three bits of `SIDL`. The driver
scatters by shifts and masks on one reused word and gathers by shifts and sums.

Each conversion is given here as the source computes it and then as quotients and
remainders. The laws above this module use the second form only.
-/

namespace Stm32Ecu

/-- `id_reg_t`, the first four registers of every buffer. -/
@[ext]
structure IdReg where
  sidh : UInt8
  sidl : UInt8
  eid8 : UInt8
  eid0 : UInt8
deriving DecidableEq

def dStandardCanMsgId20B : UInt8 := 1
def dExtendedCanMsgId20B : UInt8 := 2

/-- `convertReg2ExtendedCANid`. -/
def convertReg2ExtendedCANid (eidh eidl sidh sidl : UInt8) : UInt32 :=
  let standardLoLo2bits := sidl &&& 0x03
  let standardLoHi3bits := sidl >>> 5
  let convertedId := sidh.toUInt32 <<< 3
  let convertedId := convertedId + standardLoHi3bits.toUInt32
  let convertedId := convertedId <<< 2
  let convertedId := convertedId + standardLoLo2bits.toUInt32
  let convertedId := convertedId <<< 8
  let convertedId := convertedId + eidh.toUInt32
  let convertedId := convertedId <<< 8
  convertedId + eidl.toUInt32

/-- `convertReg2StandardCANid`. -/
def convertReg2StandardCANid (sidh sidl : UInt8) : UInt32 :=
  let convertedId := sidh.toUInt32 <<< 3
  convertedId + (sidl >>> 5).toUInt32

/-- `convertCANid2Reg`. Any type but the extended one is taken for standard. -/
def convertCANid2Reg (passedInId : UInt32) (canIdType : UInt8) : IdReg :=
  if canIdType = dExtendedCanMsgId20B then
    let eid0 := (0xFF &&& passedInId).toUInt8
    let passedInId := passedInId >>> 8
    let eid8 := (0xFF &&& passedInId).toUInt8
    let passedInId := passedInId >>> 8
    let wipSidl := (0x03 &&& passedInId).toUInt8
    let passedInId := passedInId <<< 3
    let wipSidl := (0xE0 &&& passedInId).toUInt8 + wipSidl
    let wipSidl := wipSidl + 0x08
    let passedInId := passedInId >>> 8
    { sidh := (0xFF &&& passedInId).toUInt8, sidl := 0xEB &&& wipSidl, eid8 := eid8, eid0 := eid0 }
  else
    let passedInId := passedInId <<< 5
    let sidl := (0xFF &&& passedInId).toUInt8
    let passedInId := passedInId >>> 8
    { sidh := (0xFF &&& passedInId).toUInt8, sidl := sidl, eid8 := 0, eid0 := 0 }

/-- The masks of the conversions, as arithmetic on one byte: all of it, its lowest two
bits, its highest three, and all but the bits 2 and 4. -/
theorem byte_masks (byte : UInt8) :
    0xFF &&& byte = byte ∧ (0x03 &&& byte).toNat = byte.toNat % 4 ∧
      (0xE0 &&& byte).toNat = byte.toNat / 32 * 32 ∧
      (byte.toNat / 4 % 2 = 0 → byte.toNat / 16 % 2 = 0 → 0xEB &&& byte = byte) := by
  have all : ∀ bits : BitVec 8, 0xFF#8 &&& bits = bits ∧ (0x03#8 &&& bits).toNat = bits.toNat % 4 ∧
      (0xE0#8 &&& bits).toNat = bits.toNat / 32 * 32 ∧
      (bits.toNat / 4 % 2 = 0 → bits.toNat / 16 % 2 = 0 → 0xEB#8 &&& bits = bits) := by
    decide
  obtain ⟨whole, low, high, clear⟩ := all byte.toBitVec
  exact ⟨UInt8.toBitVec_inj.mp whole, low, high,
    fun second fourth => UInt8.toBitVec_inj.mp (clear second fourth)⟩

/-- The lowest byte of a word. -/
theorem word_byte (word : UInt32) : (0xFF &&& word).toUInt8.toNat = word.toNat % 256 := by
  have mask : (0xFF : UInt32).toUInt8 = 0xFF := rfl
  rw [UInt32.toUInt8_and, mask, (byte_masks word.toUInt8).1, UInt32.toNat_toUInt8]

/-- Its bits 0 and 1. -/
theorem word_low (word : UInt32) : (0x03 &&& word).toUInt8.toNat = word.toNat % 4 := by
  have mask : (0x03 : UInt32).toUInt8 = 0x03 := rfl
  rw [UInt32.toUInt8_and, mask, (byte_masks word.toUInt8).2.1, UInt32.toNat_toUInt8]
  omega

/-- Its bits 5 to 7, in place. -/
theorem word_high (word : UInt32) :
    (0xE0 &&& word).toUInt8.toNat = word.toNat / 32 % 8 * 32 := by
  have mask : (0xE0 : UInt32).toUInt8 = 0xE0 := rfl
  rw [UInt32.toUInt8_and, mask, (byte_masks word.toUInt8).2.2.1, UInt32.toNat_toUInt8]
  omega

/-- The extended id, register by register. -/
theorem convertReg2ExtendedCANid_toNat (eidh eidl sidh sidl : UInt8) :
    (convertReg2ExtendedCANid eidh eidl sidh sidl).toNat =
      sidh.toNat * 2 ^ 21 + sidl.toNat / 32 * 2 ^ 18 + sidl.toNat % 4 * 2 ^ 16 +
        eidh.toNat * 2 ^ 8 + eidl.toNat := by
  have low : (sidl &&& 0x03).toNat = sidl.toNat % 4 := by
    rw [UInt8.and_comm]
    exact (byte_masks sidl).2.1
  have sidhBound := sidh.toNat_lt
  have sidlBound := sidl.toNat_lt
  have eidhBound := eidh.toNat_lt
  have eidlBound := eidl.toNat_lt
  simp only [convertReg2ExtendedCANid, UInt32.toNat_add, UInt32.toNat_shiftLeft,
    UInt8.toNat_toUInt32, UInt8.toNat_shiftRight, low, Nat.shiftLeft_eq, Nat.shiftRight_eq_div_pow,
    UInt32.reduceToNat, UInt8.reduceToNat, Nat.reduceMod, Nat.reducePow]
  omega

/-- The standard id, register by register. -/
theorem convertReg2StandardCANid_toNat (sidh sidl : UInt8) :
    (convertReg2StandardCANid sidh sidl).toNat = sidh.toNat * 2 ^ 3 + sidl.toNat / 32 := by
  have sidhBound := sidh.toNat_lt
  have sidlBound := sidl.toNat_lt
  simp only [convertReg2StandardCANid, UInt32.toNat_add, UInt32.toNat_shiftLeft,
    UInt8.toNat_toUInt32, UInt8.toNat_shiftRight, Nat.shiftLeft_eq, Nat.shiftRight_eq_div_pow,
    UInt32.reduceToNat, UInt8.reduceToNat, Nat.reduceMod, Nat.reducePow]
  omega

/-- The registers of an extended id. Bit 3 of `SIDL` is the extended flag; bits 2 and 4
are clear. -/
theorem convertCANid2Reg_extended (id : UInt32) :
    (convertCANid2Reg id dExtendedCanMsgId20B).sidh.toNat = id.toNat / 2 ^ 21 % 256 ∧
      (convertCANid2Reg id dExtendedCanMsgId20B).sidl.toNat =
        id.toNat / 2 ^ 18 % 8 * 32 + 8 + id.toNat / 2 ^ 16 % 4 ∧
      (convertCANid2Reg id dExtendedCanMsgId20B).eid8.toNat = id.toNat / 2 ^ 8 % 256 ∧
      (convertCANid2Reg id dExtendedCanMsgId20B).eid0.toNat = id.toNat % 256 := by
  have bound := id.toNat_lt
  simp only [convertCANid2Reg, ↓reduceIte]
  have wip : (((0xE0 : UInt32) &&& ((id >>> 8 >>> 8) <<< 3)).toUInt8 +
      ((0x03 : UInt32) &&& (id >>> 8 >>> 8)).toUInt8 + 0x08).toNat =
        id.toNat / 2 ^ 18 % 8 * 32 + 8 + id.toNat / 2 ^ 16 % 4 := by
    simp only [UInt8.toNat_add, word_high, word_low, UInt32.toNat_shiftLeft,
      UInt32.toNat_shiftRight, Nat.shiftLeft_eq, Nat.shiftRight_eq_div_pow, UInt32.reduceToNat,
      UInt8.reduceToNat, Nat.reduceMod, Nat.reducePow]
    omega
  refine ⟨?_, ?_, ?_, word_byte id⟩
  · simp only [word_byte, UInt32.toNat_shiftLeft, UInt32.toNat_shiftRight, Nat.shiftLeft_eq,
      Nat.shiftRight_eq_div_pow, UInt32.reduceToNat, Nat.reduceMod, Nat.reducePow]
    omega
  · rw [(byte_masks _).2.2.2 (by rw [wip]; omega) (by rw [wip]; omega), wip]
  · simp only [word_byte, UInt32.toNat_shiftRight, Nat.shiftRight_eq_div_pow, UInt32.reduceToNat,
      Nat.reduceMod, Nat.reducePow]

/-- The registers of an id of any other type. -/
theorem convertCANid2Reg_standard (id : UInt32) (canIdType : UInt8)
    (standard : canIdType ≠ dExtendedCanMsgId20B) :
    (convertCANid2Reg id canIdType).sidh.toNat = id.toNat / 2 ^ 3 % 256 ∧
      (convertCANid2Reg id canIdType).sidl.toNat = id.toNat % 8 * 32 ∧
      (convertCANid2Reg id canIdType).eid8 = 0 ∧ (convertCANid2Reg id canIdType).eid0 = 0 := by
  have bound := id.toNat_lt
  simp only [convertCANid2Reg, standard, ↓reduceIte]
  refine ⟨?_, ?_, trivial, trivial⟩
  · simp only [word_byte, UInt32.toNat_shiftLeft, UInt32.toNat_shiftRight, Nat.shiftLeft_eq,
      Nat.shiftRight_eq_div_pow, UInt32.reduceToNat, Nat.reduceMod, Nat.reducePow]
    omega
  · simp only [word_byte, UInt32.toNat_shiftLeft, Nat.shiftLeft_eq, UInt32.reduceToNat,
      Nat.reduceMod, Nat.reducePow]
    omega

/-- The five fields of an extended id are its digits. -/
theorem extended_digits (sidh high low eid8 eid0 : Nat) (highBound : high < 8) (lowBound : low < 4)
    (sidhBound : sidh < 256) (eid8Bound : eid8 < 256) (eid0Bound : eid0 < 256) (id : Nat)
    (sum : id = sidh * 2 ^ 21 + high * 2 ^ 18 + low * 2 ^ 16 + eid8 * 2 ^ 8 + eid0) :
    id / 2 ^ 21 % 256 = sidh ∧ id / 2 ^ 18 % 8 = high ∧ id / 2 ^ 16 % 4 = low ∧
      id / 2 ^ 8 % 256 = eid8 ∧ id % 256 = eid0 := by
  omega

/-- Put together again, they give its lowest 29 bits. -/
theorem extended_digits_sum (id : Nat) :
    id / 2 ^ 21 % 256 * 2 ^ 21 + id / 2 ^ 18 % 8 * 2 ^ 18 + id / 2 ^ 16 % 4 * 2 ^ 16 +
      id / 2 ^ 8 % 256 * 2 ^ 8 + id % 256 = id % 2 ^ 29 := by
  omega

/-- Encoding the id that four registers hold gives them back, up to the bits of `SIDL`
that carry no id. -/
theorem convertCANid2Reg_decoded (registers : IdReg) :
    convertCANid2Reg (convertReg2ExtendedCANid registers.eid8 registers.eid0 registers.sidh
        registers.sidl) dExtendedCanMsgId20B =
      { registers with sidl := (registers.sidl &&& 0xEB) ||| 0x08 } := by
  obtain ⟨sidh, sidl, eid8, eid0⟩ := registers
  have flagged : ((sidl &&& 0xEB) ||| 0x08).toNat = sidl.toNat / 32 * 32 + 8 + sidl.toNat % 4 := by
    have all : ∀ bits : BitVec 8,
        ((bits &&& 0xEB#8) ||| 0x08#8).toNat = bits.toNat / 32 * 32 + 8 + bits.toNat % 4 := by
      decide
    exact all sidl.toBitVec
  have sidlBound := sidl.toNat_lt
  have digits := extended_digits sidh.toNat (sidl.toNat / 32) (sidl.toNat % 4) eid8.toNat eid0.toNat
    (by omega) (by omega) sidh.toNat_lt eid8.toNat_lt eid0.toNat_lt _
    (convertReg2ExtendedCANid_toNat eid8 eid0 sidh sidl)
  obtain ⟨first, second, third, fourth⟩ :=
    convertCANid2Reg_extended (convertReg2ExtendedCANid eid8 eid0 sidh sidl)
  rw [IdReg.ext_iff]
  refine ⟨UInt8.toNat_inj.mp ?_, UInt8.toNat_inj.mp ?_, UInt8.toNat_inj.mp ?_,
    UInt8.toNat_inj.mp ?_⟩
  · exact first.trans digits.1
  · rw [flagged, second, digits.2.1, digits.2.2.1]
  · exact third.trans digits.2.2.2.1
  · exact fourth.trans digits.2.2.2.2

end Stm32Ecu
