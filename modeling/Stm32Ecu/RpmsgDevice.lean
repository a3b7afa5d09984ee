import Mathlib.Data.List.Nodup
import Stm32Ecu.Runs
import Stm32Ecu.WordBitmap

/-!
# The endpoints of an rpmsg device

A device has a list of endpoints and a bitmap of the dynamic addresses in use. Addresses
below 1024 are reserved for predefined services and are not tracked; the 128 addresses
from 1024 on are handed out by the bitmap. Creating an endpoint takes its address and
enters it in the list under the lock; the announcement to the other processor is sent
after the lock is released, and an endpoint whose announcement fails is taken out again.
Other tasks may create and destroy endpoints in between, and messages may come in.

The functions are those of `rpmsg.c`, of the name service in `rpmsg_virtio.c`, and the
bitmap of libmetal they rest on.
-/

namespace Stm32Ecu.Rpmsg

open Runs

/-- `RPMSG_ADDR_ANY`. -/
def addrAny : Nat := 0xFFFFFFFF

/-- `RPMSG_RESERVED_ADDRESSES`. -/
def reservedAddresses : Nat := 1024

/-- `RPMSG_ADDR_BMP_SIZE`. -/
def addrBmpSize : Nat := 128

/-- `RPMSG_NS_EPT_ADDR`. -/
def nsEptAddr : Nat := 0x35

/-- `RPMSG_NAME_SIZE`. -/
def nameSize : Nat := 32

/-- The results of the functions here: `RPMSG_SUCCESS`, `RPMSG_ERR_NO_BUFF`,
`RPMSG_ERR_PARAM` and `RPMSG_ERR_ADDR`. -/
inductive RpmsgStatus where
  | success
  | errNoBuff
  | errParam
  | errAddr
deriving DecidableEq

/-! ## The bitmap -/

/-- The words of `rdev->bitmap`. -/
abbrev Bitmap : Type := Nat → BitVec 32

/-- `metal_bit` of the place of a bit in its word. -/
def metalBit (bit : Nat) : BitVec 32 := 1#32 <<< (bit &&& 31)

/-- `metal_bitmap_set_bit`. -/
def metalBitmapSetBit (bitmap : Bitmap) (bit : Nat) : Bitmap :=
  Function.update bitmap (bit / 32) (bitmap (bit / 32) ||| metalBit bit)

/-- `metal_bitmap_clear_bit`. -/
def metalBitmapClearBit (bitmap : Bitmap) (bit : Nat) : Bitmap :=
  Function.update bitmap (bit / 32) (bitmap (bit / 32) &&& ~~~ metalBit bit)

/-- `metal_bitmap_is_bit_set`. -/
def metalBitmapIsBitSet (bitmap : Bitmap) (bit : Nat) : Bool :=
  bitmap (bit / 32) &&& metalBit bit ≠ 0#32

/-- The loop of `metal_bitmap_next_clear_bit`, with the number of bits before its
`max`. -/
def nextClearBitLoop (bitmap : Bitmap) : Nat → Nat → Nat
  | bit, 0 => bit
  | bit, left + 1 =>
      if metalBitmapIsBitSet bitmap bit then nextClearBitLoop bitmap (bit + 1) left else bit

/-- `metal_bitmap_next_clear_bit`. -/
def metalBitmapNextClearBit (bitmap : Bitmap) (start max : Nat) : Nat :=
  nextClearBitLoop bitmap start (max - start)

/-- The mask of a bit is a power of two. -/
theorem metalBit_eq (bit : Nat) : metalBit bit = BitVec.twoPow 32 (bit % 32) := by
  have place : bit &&& 31 = bit % 32 := Nat.and_two_pow_sub_one_eq_mod bit 5
  rw [metalBit, place, BitVec.twoPow_eq]

/-- The bitmap functions of libmetal are those of a word bitmap: the test, -/
theorem isBitSet_eq (bitmap : Bitmap) (bit : Nat) :
    metalBitmapIsBitSet bitmap bit = WordBitmap.test bitmap bit := by
  have place : bit % 32 < 32 := Nat.mod_lt _ (by decide)
  rw [metalBitmapIsBitSet, metalBit_eq, BitVec.and_twoPow, WordBitmap.test]
  cases read : (bitmap (bit / 32)).getLsbD (bit % 32) with
  | true =>
    have nonzero : BitVec.twoPow 32 (bit % 32) ≠ 0#32 := by
      intro zero
      have bitRead := congrArg (fun word => word.getLsbD (bit % 32)) zero
      simp [place] at bitRead
    rw [if_pos rfl]
    exact decide_eq_true nonzero
  | false => rfl

/-- the setting of a bit, -/
theorem setBit_eq (bitmap : Bitmap) (bit : Nat) :
    metalBitmapSetBit bitmap bit = WordBitmap.set bitmap bit := by
  rw [metalBitmapSetBit, metalBit_eq, WordBitmap.set]

/-- the clearing of a bit, -/
theorem clearBit_eq (bitmap : Bitmap) (bit : Nat) :
    metalBitmapClearBit bitmap bit = WordBitmap.clear bitmap bit := by
  rw [metalBitmapClearBit, metalBit_eq, WordBitmap.clear]

/-- and the search for a clear one. -/
theorem nextClearBitLoop_eq (bitmap : Bitmap) (bit left : Nat) :
    nextClearBitLoop bitmap bit left = WordBitmap.nextClear bitmap bit left := by
  induction left generalizing bit with
  | zero => rfl
  | succ left ih => rw [nextClearBitLoop, WordBitmap.nextClear, isBitSet_eq, ih]

/-! ## Addresses -/

/-- The test of an address after `RPMSG_RESERVED_ADDRESSES` was taken off: it is one the
bitmap tracks. -/
def tracked (size addr : Nat) : Bool :=
  reservedAddresses ≤ addr ∧ addr - reservedAddresses < size

/-- `rpmsg_get_address`. -/
def rpmsgGetAddress (bitmap : Bitmap) (size : Nat) : Nat × Bitmap :=
  let nextbit := metalBitmapNextClearBit bitmap 0 size
  if nextbit < size then (reservedAddresses + nextbit, metalBitmapSetBit bitmap nextbit)
  else (addrAny, bitmap)

/-- `rpmsg_release_address`. -/
def rpmsgReleaseAddress (bitmap : Bitmap) (size addr : Nat) : Bitmap :=
  if tracked size addr then metalBitmapClearBit bitmap (addr - reservedAddresses) else bitmap

/-- `rpmsg_is_address_set`, without a result for `RPMSG_ERR_PARAM`. -/
def rpmsgIsAddressSet (bitmap : Bitmap) (size addr : Nat) : Option Bool :=
  if tracked size addr then some (metalBitmapIsBitSet bitmap (addr - reservedAddresses))
  else none

/-- `rpmsg_set_address`. -/
def rpmsgSetAddress (bitmap : Bitmap) (size addr : Nat) : RpmsgStatus × Bitmap :=
  if tracked size addr then
    (.success, metalBitmapSetBit bitmap (addr - reservedAddresses))
  else (.errParam, bitmap)

/-! ## Endpoints -/

/-- `struct rpmsg_endpoint`; the key says which structure it is. A name is the bytes
before its terminator. -/
structure RpmsgEndpoint where
  key : Nat
  name : List UInt8
  addr : Nat
  destAddr : Nat
deriving DecidableEq

/-- `struct rpmsg_device`. -/
structure RpmsgDevice where
  endpoints : List RpmsgEndpoint
  bitmap : Bitmap
  supportNs : Bool

/-- `strncmp(ept->name, name, sizeof(ept->name))` finds no difference. -/
def nameMatches (left right : List UInt8) : Bool := left.take nameSize = right.take nameSize

/-- `rpmsg_initialize_ept`. -/
def rpmsgInitializeEpt (key : Nat) (name : List UInt8) (src dest : Nat) : RpmsgEndpoint :=
  ⟨key, name.take nameSize, src, dest⟩

/-- `rpmsg_register_endpoint`. -/
def rpmsgRegisterEndpoint (dev : RpmsgDevice) (ept : RpmsgEndpoint) : RpmsgDevice :=
  { dev with endpoints := dev.endpoints ++ [ept] }

/-- The loop of `rpmsg_get_endpoint`. -/
def getEndpointLoop (name : Option (List UInt8)) (addr destAddr : Nat) :
    List RpmsgEndpoint → Option RpmsgEndpoint
  | [] => none
  | ept :: rest =>
      if addr ≠ addrAny ∧ ept.addr = addr then some ept
      else if addr = ept.addr ∧ destAddr = ept.destAddr then some ept
      else
        match name with
        | none => getEndpointLoop name addr destAddr rest
        | some wanted =>
            if nameMatches ept.name wanted then
              if destAddr ≠ addrAny ∧ ept.destAddr = destAddr then some ept
              else if addr = addrAny ∧ ept.destAddr = addrAny then some ept
              else getEndpointLoop name addr destAddr rest
            else getEndpointLoop name addr destAddr rest

/-- `rpmsg_get_endpoint`. -/
def rpmsgGetEndpoint (dev : RpmsgDevice) (name : Option (List UInt8)) (addr destAddr : Nat) :
    Option RpmsgEndpoint :=
  getEndpointLoop name addr destAddr dev.endpoints

/-- `rpmsg_get_ept_from_addr`. -/
def rpmsgGetEptFromAddr (dev : RpmsgDevice) (addr : Nat) : Option RpmsgEndpoint :=
  rpmsgGetEndpoint dev none addr addrAny

/-- `rpmsg_unregister_endpoint` of a registered endpoint. -/
def rpmsgUnregisterEndpoint (dev : RpmsgDevice) (ept : RpmsgEndpoint) : RpmsgDevice :=
  { dev with
    bitmap := if ept.addr ≠ addrAny then rpmsgReleaseAddress dev.bitmap addrBmpSize ept.addr
      else dev.bitmap
    endpoints := dev.endpoints.erase ept }

/-- `rpmsg_create_ept` up to the release of the lock: the endpoint and the device with
it. -/
def createLocked (dev : RpmsgDevice) (key : Nat) (name : List UInt8) (src dest : Nat) :
    Except RpmsgStatus (RpmsgEndpoint × RpmsgDevice) :=
  if src = addrAny then
    let (addr, bitmap) := rpmsgGetAddress dev.bitmap addrBmpSize
    let ept := rpmsgInitializeEpt key name addr dest
    if addr = addrAny then .error .errAddr
    else .ok (ept, rpmsgRegisterEndpoint { dev with bitmap } ept)
  else
    let ept := rpmsgInitializeEpt key name src dest
    if reservedAddresses ≤ src then
      match rpmsgIsAddressSet dev.bitmap addrBmpSize src with
      | some false =>
          .ok (ept, rpmsgRegisterEndpoint
            { dev with bitmap := (rpmsgSetAddress dev.bitmap addrBmpSize src).2 } ept)
      | some true => .error .errAddr
      | none => .error .errParam
    else
      -- the duplication of a reserved address is not checked
      .ok (ept, rpmsgRegisterEndpoint dev ept)

/-- Whether `rpmsg_create_ept` announces the endpoint. -/
def announces (dev : RpmsgDevice) (ept : RpmsgEndpoint) : Bool :=
  ept.name ≠ [] ∧ dev.supportNs ∧ ept.destAddr = addrAny

/-- The end of `rpmsg_create_ept`, with the result of the announcement. -/
def createFinish (dev : RpmsgDevice) (ept : RpmsgEndpoint) (status : RpmsgStatus) :
    RpmsgDevice :=
  if status ≠ .success then rpmsgUnregisterEndpoint dev ept else dev

/-- `rpmsg_create_ept` with nothing happening in between, given what the announcement
would return. -/
def rpmsgCreateEpt (dev : RpmsgDevice) (key : Nat) (name : List UInt8) (src dest : Nat)
    (announcement : RpmsgStatus) : RpmsgStatus × RpmsgDevice :=
  match createLocked dev key name src dest with
  | .error status => (status, dev)
  | .ok (ept, after) =>
      let status := if announces after ept then announcement else .success
      (status, createFinish after ept status)

/-- Write the remote address of a registered endpoint. -/
def setDestAddr (dev : RpmsgDevice) (ept : RpmsgEndpoint) (dest : Nat) : RpmsgDevice :=
  { dev with
    endpoints := dev.endpoints.map
      (fun other => if other = ept then { other with destAddr := dest } else other) }

/-- What `rpmsg_virtio_rx_callback` does to the endpoint of a message: an endpoint without
a remote address takes that of the sender. -/
def bindOnReceive (dev : RpmsgDevice) (dst src : Nat) : RpmsgDevice :=
  match rpmsgGetEptFromAddr dev dst with
  | some ept => if ept.destAddr = addrAny then setDestAddr dev ept src else dev
  | none => dev

/-- `rpmsg_virtio_ns_callback` for an announcement, without the application's part. -/
def nsCallback (dev : RpmsgDevice) (name : List UInt8) (dest : Nat) (destroy : Bool) :
    RpmsgDevice :=
  match rpmsgGetEndpoint dev (some name) addrAny dest with
  | some ept => setDestAddr dev ept (if destroy then addrAny else dest)
  | none => dev

/-- The device as `rpmsg_init_vdev` leaves it. -/
def RpmsgDevice.initial (supportNs : Bool) : RpmsgDevice where
  endpoints :=
    if supportNs then [rpmsgInitializeEpt 0 [78, 83] nsEptAddr nsEptAddr] else []
  bitmap := fun _ => 0#32
  supportNs := supportNs

/-! ## What the operations keep -/

/-- The bitmap says which dynamic addresses registered endpoints have, no two have the
same, and none has an address beyond the bitmap. -/
structure Tracks (dev : RpmsgDevice) : Prop where
  bits : ∀ bit < addrBmpSize, WordBitmap.test dev.bitmap bit = true ↔
    ∃ ept ∈ dev.endpoints, ept.addr = reservedAddresses + bit
  small : ∀ ept ∈ dev.endpoints, ept.addr < reservedAddresses + addrBmpSize
  keys : (dev.endpoints.map (·.key)).Nodup
  distinct : ∀ first ∈ dev.endpoints, ∀ second ∈ dev.endpoints,
    reservedAddresses ≤ first.addr → first.addr = second.addr → first = second

/-- Without endpoints no bit is set. -/
theorem initial_tracks (supportNs : Bool) : Tracks (RpmsgDevice.initial supportNs) := by
  cases supportNs with
  | true =>
    refine ⟨?_, ?_, ?_, ?_⟩
    · intro bit inside
      simp [RpmsgDevice.initial, WordBitmap.test, rpmsgInitializeEpt, nsEptAddr,
        reservedAddresses]
      omega
    · simp [RpmsgDevice.initial, rpmsgInitializeEpt, nsEptAddr, reservedAddresses, addrBmpSize]
    · simp [RpmsgDevice.initial]
    · simp [RpmsgDevice.initial]
  | false =>
    refine ⟨?_, ?_, ?_, ?_⟩
    · intro bit inside
      simp [RpmsgDevice.initial, WordBitmap.test]
    · simp [RpmsgDevice.initial]
    · simp [RpmsgDevice.initial]
    · simp [RpmsgDevice.initial]

section Operations

variable {dev : RpmsgDevice}

/-- An endpoint that the device does not have yet is entered with an address nobody has,
marked in the bitmap if it is a tracked one. -/
theorem Tracks.register (tracks : Tracks dev) (ept : RpmsgEndpoint) (bitmap : Bitmap)
    (fresh : ∀ other ∈ dev.endpoints, other.key ≠ ept.key)
    (small : ept.addr < reservedAddresses + addrBmpSize)
    (unused : reservedAddresses ≤ ept.addr → ∀ other ∈ dev.endpoints, other.addr ≠ ept.addr)
    (marked : ∀ bit < addrBmpSize, WordBitmap.test bitmap bit =
      (WordBitmap.test dev.bitmap bit || decide (ept.addr = reservedAddresses + bit))) :
    Tracks (rpmsgRegisterEndpoint { dev with bitmap } ept) := by
  refine ⟨?_, ?_, ?_, ?_⟩
  · intro bit inside
    change WordBitmap.test bitmap bit = true ↔
      ∃ other ∈ dev.endpoints ++ [ept], other.addr = reservedAddresses + bit
    rw [marked bit inside, Bool.or_eq_true, tracks.bits bit inside, decide_eq_true_eq]
    simp only [List.mem_append, List.mem_singleton]
    constructor
    · rintro (⟨other, member, same⟩ | same)
      · exact ⟨other, Or.inl member, same⟩
      · exact ⟨ept, Or.inr rfl, same⟩
    · rintro ⟨other, member | rfl, same⟩
      · exact Or.inl ⟨other, member, same⟩
      · exact Or.inr same
  · intro other member
    rcases List.mem_append.mp member with old | new
    · exact tracks.small other old
    · rw [List.mem_singleton.mp new]
      exact small
  · change ((dev.endpoints ++ [ept]).map (·.key)).Nodup
    rw [List.map_append, List.nodup_append]
    refine ⟨tracks.keys, List.nodup_singleton _, ?_⟩
    intro key listed other new
    obtain ⟨old, member, rfl⟩ := List.mem_map.mp listed
    rw [List.mem_singleton.mp new]
    exact fresh old member
  · intro first one second two dynamic same
    rcases List.mem_append.mp one with oldOne | newOne <;>
      rcases List.mem_append.mp two with oldTwo | newTwo
    · exact tracks.distinct first oldOne second oldTwo dynamic same
    · rw [List.mem_singleton.mp newTwo] at same
      exact absurd same (unused (same ▸ dynamic) first oldOne)
    · rw [List.mem_singleton.mp newOne] at same dynamic
      exact absurd same.symm (unused dynamic second oldTwo)
    · rw [List.mem_singleton.mp newOne, List.mem_singleton.mp newTwo]

/-- A registered endpoint is taken out, and its address with it. -/
theorem Tracks.unregister (tracks : Tracks dev) (ept : RpmsgEndpoint)
    (registered : ept ∈ dev.endpoints) : Tracks (rpmsgUnregisterEndpoint dev ept) := by
  have bound := tracks.small ept registered
  have known : ept.addr ≠ addrAny := by
    simp only [addrAny, reservedAddresses, addrBmpSize] at bound ⊢
    omega
  have remaining : ∀ other, other ∈ dev.endpoints.erase ept ↔
      other ≠ ept ∧ other ∈ dev.endpoints := by
    intro other
    exact (List.Nodup.of_map _ tracks.keys).mem_erase_iff
  refine ⟨?_, ?_, ?_, ?_⟩
  · intro bit inside
    change WordBitmap.test (if ept.addr ≠ addrAny
        then rpmsgReleaseAddress dev.bitmap addrBmpSize ept.addr else dev.bitmap) bit = true ↔
      ∃ other ∈ dev.endpoints.erase ept, other.addr = reservedAddresses + bit
    rw [if_pos known, rpmsgReleaseAddress]
    by_cases dynamic : reservedAddresses ≤ ept.addr
    · have isTracked : tracked addrBmpSize ept.addr = true := by
        simp only [tracked, decide_eq_true_eq]
        exact ⟨dynamic, by omega⟩
      rw [if_pos isTracked, clearBit_eq, WordBitmap.test_clear (by decide), Bool.and_eq_true,
        tracks.bits bit inside, decide_eq_true_eq]
      constructor
      · rintro ⟨⟨other, member, same⟩, different⟩
        refine ⟨other, (remaining other).mpr ⟨?_, member⟩, same⟩
        rintro rfl
        omega
      · rintro ⟨other, member, same⟩
        obtain ⟨different, old⟩ := (remaining other).mp member
        refine ⟨⟨other, old, same⟩, ?_⟩
        intro sameBit
        refine different (tracks.distinct ept registered other old dynamic ?_).symm
        omega
    · have untracked : ¬ tracked addrBmpSize ept.addr = true := by
        simp only [tracked, decide_eq_true_eq]
        exact fun both => dynamic both.1
      rw [if_neg untracked, tracks.bits bit inside]
      constructor
      · rintro ⟨other, member, same⟩
        refine ⟨other, (remaining other).mpr ⟨?_, member⟩, same⟩
        rintro rfl
        omega
      · rintro ⟨other, member, same⟩
        exact ⟨other, ((remaining other).mp member).2, same⟩
  · intro other member
    exact tracks.small other (List.mem_of_mem_erase member)
  · exact tracks.keys.sublist (List.erase_sublist.map _)
  · intro first one second two
    exact tracks.distinct first (List.mem_of_mem_erase one) second (List.mem_of_mem_erase two)

/-- Writing a remote address changes no local one. -/
theorem Tracks.setDest (tracks : Tracks dev) (ept : RpmsgEndpoint) (dest : Nat) :
    Tracks (setDestAddr dev ept dest) := by
  have sameAddr : ∀ other : RpmsgEndpoint,
      (if other = ept then { other with destAddr := dest } else other).addr = other.addr := by
    intro other
    split <;> rfl
  have sameKey : ∀ other : RpmsgEndpoint,
      (if other = ept then { other with destAddr := dest } else other).key = other.key := by
    intro other
    split <;> rfl
  refine ⟨?_, ?_, ?_, ?_⟩
  · intro bit inside
    refine (tracks.bits bit inside).trans ?_
    simp only [setDestAddr, List.mem_map, exists_exists_and_eq_and, sameAddr]
  · intro other member
    obtain ⟨old, listed, rfl⟩ := List.mem_map.mp member
    rw [sameAddr]
    exact tracks.small old listed
  · change ((dev.endpoints.map _).map _).Nodup
    rw [List.map_map]
    exact (List.map_congr_left (fun other _ => sameKey other)) ▸ tracks.keys
  · intro first one second two dynamic same
    obtain ⟨oldOne, listedOne, rfl⟩ := List.mem_map.mp one
    obtain ⟨oldTwo, listedTwo, rfl⟩ := List.mem_map.mp two
    rw [sameAddr] at dynamic same
    rw [sameAddr] at same
    rw [tracks.distinct oldOne listedOne oldTwo listedTwo dynamic same]

/-- Nor does an announcement. -/
theorem Tracks.announced (tracks : Tracks dev) (name : List UInt8) (dest : Nat) (destroy : Bool) :
    Tracks (nsCallback dev name dest destroy) := by
  unfold nsCallback
  split
  · exact tracks.setDest _ _
  · exact tracks

/-- A dynamic address is free exactly when its bit is clear. -/
theorem Tracks.free_iff (tracks : Tracks dev) (bit : Nat) (inside : bit < addrBmpSize) :
    WordBitmap.test dev.bitmap bit = false ↔
      ∀ ept ∈ dev.endpoints, ept.addr ≠ reservedAddresses + bit := by
  rw [← Bool.not_eq_true, tracks.bits bit inside]
  constructor
  · intro none_has ept member same
    exact none_has ⟨ept, member, same⟩
  · rintro none_has ⟨ept, member, same⟩
    exact none_has ept member same

/-- What a device is like after an endpoint was entered: the new endpoint is the last, its
address was free if it is a dynamic one, and exactly that bit was set. -/
structure Entered (dev : RpmsgDevice) (key : Nat) (ept : RpmsgEndpoint) (after : RpmsgDevice) :
    Prop where
  key : ept.key = key
  small : ept.addr < reservedAddresses + addrBmpSize
  device : after = rpmsgRegisterEndpoint { dev with bitmap := after.bitmap } ept
  reserved : ept.addr < reservedAddresses → after.bitmap = dev.bitmap
  dynamic : reservedAddresses ≤ ept.addr →
    WordBitmap.test dev.bitmap (ept.addr - reservedAddresses) = false ∧
      after.bitmap = WordBitmap.set dev.bitmap (ept.addr - reservedAddresses)

/-- Without an address asked for, the endpoint gets the lowest free dynamic one; creation
fails exactly when there is none. -/
theorem createLocked_any (dev : RpmsgDevice) (tracks : Tracks dev) (key : Nat)
    (name : List UInt8) (dest : Nat) :
    (∃ ept after, createLocked dev key name addrAny dest = .ok (ept, after) ∧
        Entered dev key ept after ∧ reservedAddresses ≤ ept.addr ∧
        ∀ addr, reservedAddresses ≤ addr → addr < ept.addr →
          ∃ other ∈ dev.endpoints, other.addr = addr) ∨
      (createLocked dev key name addrAny dest = .error .errAddr ∧
        ∀ addr, reservedAddresses ≤ addr → addr < reservedAddresses + addrBmpSize →
          ∃ other ∈ dev.endpoints, other.addr = addr) := by
  obtain ⟨_, upper, passed, stopped⟩ :=
    WordBitmap.nextClear_spec dev.bitmap 0 addrBmpSize
  have scanned : metalBitmapNextClearBit dev.bitmap 0 addrBmpSize =
      WordBitmap.nextClear dev.bitmap 0 addrBmpSize := by
    rw [metalBitmapNextClearBit, nextClearBitLoop_eq, Nat.sub_zero]
  rw [Nat.zero_add] at upper stopped
  have lower : ∀ addr, reservedAddresses ≤ addr →
      addr < reservedAddresses + WordBitmap.nextClear dev.bitmap 0 addrBmpSize →
      ∃ other ∈ dev.endpoints, other.addr = addr := by
    intro addr above below
    have used := passed (addr - reservedAddresses) (Nat.zero_le _) (by omega)
    obtain ⟨other, member, same⟩ :=
      (tracks.bits (addr - reservedAddresses) (by omega)).mp used
    exact ⟨other, member, by omega⟩
  by_cases found : WordBitmap.nextClear dev.bitmap 0 addrBmpSize < addrBmpSize
  · left
    have known : reservedAddresses + WordBitmap.nextClear dev.bitmap 0 addrBmpSize ≠ addrAny := by
      simp only [reservedAddresses, addrAny, addrBmpSize] at found ⊢
      omega
    have index : reservedAddresses + WordBitmap.nextClear dev.bitmap 0 addrBmpSize -
        reservedAddresses = WordBitmap.nextClear dev.bitmap 0 addrBmpSize :=
      Nat.add_sub_cancel_left _ _
    refine ⟨rpmsgInitializeEpt key name
        (reservedAddresses + WordBitmap.nextClear dev.bitmap 0 addrBmpSize) dest,
      rpmsgRegisterEndpoint
        { dev with
          bitmap := WordBitmap.set dev.bitmap (WordBitmap.nextClear dev.bitmap 0 addrBmpSize) }
        (rpmsgInitializeEpt key name
          (reservedAddresses + WordBitmap.nextClear dev.bitmap 0 addrBmpSize) dest),
      ?_, ?_, Nat.le_add_right _ _, lower⟩
    · simp only [createLocked, if_true, rpmsgGetAddress, scanned, if_pos found, setBit_eq,
        if_neg known]
    · refine ⟨rfl, Nat.add_lt_add_left found _, rfl, ?_, ?_⟩
      · intro low
        exact absurd low (Nat.not_lt.mpr (Nat.le_add_right _ _))
      · intro _
        rw [rpmsgInitializeEpt, index]
        exact ⟨stopped found, rfl⟩
  · right
    have full : WordBitmap.nextClear dev.bitmap 0 addrBmpSize = addrBmpSize := by omega
    refine ⟨?_, ?_⟩
    · simp only [createLocked, if_true, rpmsgGetAddress, scanned, if_neg found]
    · intro addr above below
      exact lower addr above (by rw [full]; exact below)

/-- With an address asked for, the endpoint gets it if it is reserved or free; an address
in use and one beyond the bitmap are told apart. -/
theorem createLocked_src (dev : RpmsgDevice) (tracks : Tracks dev) (key : Nat)
    (name : List UInt8) (src dest : Nat) (asked : src ≠ addrAny) :
    (∃ ept after, createLocked dev key name src dest = .ok (ept, after) ∧
        Entered dev key ept after ∧ ept.addr = src) ∨
      (createLocked dev key name src dest = .error .errAddr ∧ reservedAddresses ≤ src ∧
        ∃ other ∈ dev.endpoints, other.addr = src) ∨
      (createLocked dev key name src dest = .error .errParam ∧
        reservedAddresses + addrBmpSize ≤ src) := by
  by_cases dynamic : reservedAddresses ≤ src
  · by_cases inside : src - reservedAddresses < addrBmpSize
    · have isTracked : tracked addrBmpSize src = true := by
        simp only [tracked, decide_eq_true_eq]
        exact ⟨dynamic, inside⟩
      have reads := isBitSet_eq dev.bitmap (src - reservedAddresses)
      cases used : WordBitmap.test dev.bitmap (src - reservedAddresses) with
      | false =>
        left
        rw [used] at reads
        refine ⟨rpmsgInitializeEpt key name src dest,
          rpmsgRegisterEndpoint
            { dev with bitmap := WordBitmap.set dev.bitmap (src - reservedAddresses) }
            (rpmsgInitializeEpt key name src dest), ?_, ?_, rfl⟩
        · simp only [createLocked, if_neg asked, if_pos dynamic, rpmsgIsAddressSet,
            if_pos isTracked, reads, rpmsgSetAddress, setBit_eq]
        · refine ⟨rfl, ?_, rfl, ?_, ?_⟩
          · change src < reservedAddresses + addrBmpSize
            omega
          · intro low
            exact absurd low (Nat.not_lt.mpr dynamic)
          · intro _
            exact ⟨used, rfl⟩
      | true =>
        right
        left
        rw [used] at reads
        obtain ⟨other, member, same⟩ := (tracks.bits _ inside).mp used
        refine ⟨?_, dynamic, other, member, by omega⟩
        simp only [createLocked, if_neg asked, if_pos dynamic, rpmsgIsAddressSet,
          if_pos isTracked, reads]
    · right
      right
      have untracked : ¬ tracked addrBmpSize src = true := by
        simp only [tracked, decide_eq_true_eq]
        exact fun both => inside both.2
      refine ⟨?_, by omega⟩
      simp only [createLocked, if_neg asked, if_pos dynamic, rpmsgIsAddressSet,
        if_neg untracked]
  · left
    refine ⟨rpmsgInitializeEpt key name src dest,
      rpmsgRegisterEndpoint dev (rpmsgInitializeEpt key name src dest), ?_, ?_, rfl⟩
    · simp only [createLocked, if_neg asked, if_neg dynamic]
    · refine ⟨rfl, ?_, rfl, fun _ => rfl, fun above => absurd above dynamic⟩
      change src < reservedAddresses + addrBmpSize
      omega

/-- Entering an endpoint keeps the bitmap true. -/
theorem Entered.tracks {key : Nat} {ept : RpmsgEndpoint} {after : RpmsgDevice}
    (entered : Entered dev key ept after) (tracks : Tracks dev)
    (fresh : ∀ other ∈ dev.endpoints, other.key ≠ key) : Tracks after := by
  rw [entered.device]
  refine tracks.register ept after.bitmap (entered.key ▸ fresh) entered.small ?_ ?_
  · intro dynamic other member same
    have small := entered.small
    have free := (entered.dynamic dynamic).1
    rw [tracks.free_iff _ (by omega)] at free
    exact free other member (by omega)
  · intro bit inside
    by_cases dynamic : reservedAddresses ≤ ept.addr
    · rw [(entered.dynamic dynamic).2, WordBitmap.test_set (by decide)]
      congr 1
      rw [decide_eq_decide]
      omega
    · rw [entered.reserved (Nat.lt_of_not_le dynamic)]
      have different : ept.addr ≠ reservedAddresses + bit := by omega
      rw [decide_eq_false different, Bool.or_false]

/-- Taking the endpoint out again gives back the device as it was. -/
theorem Entered.undone {key : Nat} {ept : RpmsgEndpoint} {after : RpmsgDevice}
    (entered : Entered dev key ept after)
    (fresh : ∀ other ∈ dev.endpoints, other.key ≠ key) :
    rpmsgUnregisterEndpoint after ept = dev := by
  have small := entered.small
  have known : ept.addr ≠ addrAny := by
    simp only [addrAny, reservedAddresses, addrBmpSize] at small ⊢
    omega
  have absent : ept ∉ dev.endpoints := fun member => fresh ept member entered.key
  have list : after.endpoints.erase ept = dev.endpoints := by
    rw [entered.device, rpmsgRegisterEndpoint, List.erase_append_right _ absent,
      List.erase_cons_head, List.append_nil]
  have released : rpmsgReleaseAddress after.bitmap addrBmpSize ept.addr = dev.bitmap := by
    rw [rpmsgReleaseAddress]
    by_cases dynamic : reservedAddresses ≤ ept.addr
    · have isTracked : tracked addrBmpSize ept.addr = true := by
        simp only [tracked, decide_eq_true_eq]
        exact ⟨dynamic, by omega⟩
      obtain ⟨free, set⟩ := entered.dynamic dynamic
      rw [if_pos isTracked, clearBit_eq, set, WordBitmap.clear_set _ _ (by decide) free]
    · have untracked : ¬ tracked addrBmpSize ept.addr = true := by
        simp only [tracked, decide_eq_true_eq]
        exact fun both => dynamic both.1
      rw [if_neg untracked, entered.reserved (Nat.lt_of_not_le dynamic)]
  have sameNs : after.supportNs = dev.supportNs := by rw [entered.device, rpmsgRegisterEndpoint]
  rw [rpmsgUnregisterEndpoint, if_pos known, list, released, sameNs]

/-- A refused creation is reported as an error. -/
theorem createLocked_error {key : Nat} {name : List UInt8} {src dest : Nat}
    {status : RpmsgStatus} (refused : createLocked dev key name src dest = .error status) :
    status ≠ .success := by
  unfold createLocked at refused
  simp only at refused
  split at refused
  · split at refused
    · exact Except.error.inj refused ▸ (by decide)
    · cases refused
  · split at refused
    · split at refused
      · cases refused
      · exact Except.error.inj refused ▸ (by decide)
      · exact Except.error.inj refused ▸ (by decide)
    · cases refused

/-- However the address was asked for, a created endpoint is entered. -/
theorem createLocked_entered (tracks : Tracks dev) {key : Nat} {name : List UInt8}
    {src dest : Nat} {ept : RpmsgEndpoint} {after : RpmsgDevice}
    (created : createLocked dev key name src dest = .ok (ept, after)) :
    Entered dev key ept after := by
  by_cases any : src = addrAny
  · subst any
    rcases createLocked_any dev tracks key name dest with
      ⟨other, next, made, entered, _, _⟩ | ⟨refused, _⟩
    · obtain ⟨rfl, rfl⟩ := Prod.mk.inj (Except.ok.inj (made.symm.trans created))
      exact entered
    · exact absurd (refused.symm.trans created) (by simp)
  · rcases createLocked_src dev tracks key name src dest any with
      ⟨other, next, made, entered, _⟩ | ⟨refused, _, _⟩ | ⟨refused, _⟩
    · obtain ⟨rfl, rfl⟩ := Prod.mk.inj (Except.ok.inj (made.symm.trans created))
      exact entered
    · exact absurd (refused.symm.trans created) (by simp)
    · exact absurd (refused.symm.trans created) (by simp)

/-- While the bitmap is true, a look-up by address is a look-up in the list, whatever the
address. -/
theorem Tracks.lookup (tracks : Tracks dev) (addr : Nat) :
    rpmsgGetEptFromAddr dev addr = dev.endpoints.find? (fun ept => decide (ept.addr = addr)) := by
  have small := tracks.small
  unfold rpmsgGetEptFromAddr rpmsgGetEndpoint
  generalize dev.endpoints = endpoints at small ⊢
  induction endpoints with
  | nil => rfl
  | cons ept rest ih =>
    obtain ⟨first, later⟩ := List.forall_mem_cons.mp small
    rw [getEndpointLoop, List.find?_cons]
    by_cases same : ept.addr = addr
    · have known : addr ≠ addrAny := by
        rw [← same]
        simp only [reservedAddresses, addrBmpSize, addrAny] at first ⊢
        omega
      rw [if_pos ⟨known, same⟩, decide_eq_true same]
    · have firstTest : ¬ (addr ≠ addrAny ∧ ept.addr = addr) := fun both => same both.2
      have secondTest : ¬ (addr = ept.addr ∧ addrAny = ept.destAddr) := fun both => same both.1.symm
      rw [if_neg firstTest, if_neg secondTest, decide_eq_false same]
      exact ih later

end Operations

/-! ## The device over time -/

/-- The device, and the endpoints whose announcement is being sent. -/
structure Registry where
  device : RpmsgDevice
  announcing : List Nat

/-- What happens to a device. -/
inductive RegistryEvent where
  | create (key : Nat) (name : List UInt8) (src dest : Nat)
  | announced (key : Nat) (status : RpmsgStatus)
  | destroy (key : Nat)
  | received (dst src : Nat)
  | announcement (name : List UInt8) (dest : Nat) (destroy : Bool)
deriving DecidableEq

namespace Registry

/-- The endpoint of a key. -/
def endpoint? (r : Registry) (key : Nat) : Option RpmsgEndpoint :=
  r.device.endpoints.find? (fun ept => decide (ept.key = key))

/-- The device after `rpmsg_init_vdev`. -/
def initial (supportNs : Bool) : Registry := ⟨RpmsgDevice.initial supportNs, []⟩

/-- One event. An endpoint structure is handed to `rpmsg_create_ept` only while it is not
registered, and destroyed only after its creation has returned. -/
def step (r : Registry) : RegistryEvent → Option Registry
  | .create key name src dest =>
      if (r.endpoint? key).isNone then
        match createLocked r.device key name src dest with
        | .error _ => some r
        | .ok (ept, after) =>
            some ⟨after, if announces after ept then key :: r.announcing else r.announcing⟩
      else none
  | .announced key status =>
      if key ∈ r.announcing then
        (r.endpoint? key).map (fun ept =>
          ⟨createFinish r.device ept status, r.announcing.erase key⟩)
      else none
  | .destroy key =>
      if key ∈ r.announcing then none
      else (r.endpoint? key).map (fun ept =>
        ⟨rpmsgUnregisterEndpoint r.device ept, r.announcing⟩)
  | .received dst src => some { r with device := bindOnReceive r.device dst src }
  | .announcement name dest destroy =>
      some { r with device := nsCallback r.device name dest destroy }

/-- An endpoint that is found is on the list. -/
theorem endpoint?_mem {r : Registry} {key : Nat} {ept : RpmsgEndpoint}
    (found : r.endpoint? key = some ept) : ept ∈ r.device.endpoints :=
  List.mem_of_find?_eq_some found

/-- A key that is not found is on no endpoint. -/
theorem endpoint?_none {r : Registry} {key : Nat} (missing : (r.endpoint? key).isNone = true) :
    ∀ ept ∈ r.device.endpoints, ept.key ≠ key := by
  rw [Option.isNone_iff_eq_none, endpoint?, List.find?_eq_none] at missing
  intro ept member same
  exact missing ept member (decide_eq_true same)

/-- Every event keeps the bitmap true. -/
theorem step_tracks (r : Registry) (event : RegistryEvent) (next : Registry)
    (tracks : Tracks r.device) (taken : r.step event = some next) : Tracks next.device := by
  cases event with
  | create key name src dest =>
    obtain ⟨missing, result⟩ := Option.ite_none_right_eq_some.mp taken
    cases created : createLocked r.device key name src dest with
    | error status =>
      rw [created] at result
      rw [← Option.some.inj result]
      exact tracks
    | ok pair =>
      obtain ⟨ept, after⟩ := pair
      rw [created] at result
      rw [← Option.some.inj result]
      exact (createLocked_entered tracks created).tracks tracks (endpoint?_none missing)
  | announced key status =>
    obtain ⟨_, result⟩ := Option.ite_none_right_eq_some.mp taken
    obtain ⟨ept, found, rfl⟩ := Option.map_eq_some_iff.mp result
    change Tracks (createFinish r.device ept status)
    unfold createFinish
    split
    · exact tracks.unregister ept (endpoint?_mem found)
    · exact tracks
  | destroy key =>
    obtain ⟨_, result⟩ := Option.ite_none_left_eq_some.mp taken
    obtain ⟨ept, found, rfl⟩ := Option.map_eq_some_iff.mp result
    exact tracks.unregister ept (endpoint?_mem found)
  | received dst src =>
    rw [← Option.some.inj taken]
    change Tracks (bindOnReceive r.device dst src)
    unfold bindOnReceive
    split
    · split
      · exact tracks.setDest _ _
      · exact tracks
    · exact tracks
  | announcement name dest destroy =>
    rw [← Option.some.inj taken]
    exact tracks.announced name dest destroy

section Runs

variable (supportNs : Bool) (events : List RegistryEvent) (r : Registry)

/-- Every run keeps the bitmap and the list in agreement. -/
theorem run_tracks (ran : run step (initial supportNs) events = some r) : Tracks r.device :=
  invariant_run step (fun _ _ => True) (fun r => Tracks r.device)
    (fun state event next tracks _ taken => step_tracks state event next tracks taken)
    _ r events (initial_tracks supportNs) (along_of_forall _ _ _ _ (fun _ _ _ => trivial)) ran

/-- An endpoint is registered once, and destroyed only after its creation has returned.
Whatever endpoints were created and destroyed and whatever came in, a bit of the
bitmap is set exactly while a registered endpoint has its address; no address is beyond
the bitmap; a message to a dynamic address finds the one endpoint that has it; and a
message finds nothing exactly when no endpoint has its address. -/
theorem addresses_tracked (ran : run step (initial supportNs) events = some r) :
    (∀ bit < addrBmpSize, metalBitmapIsBitSet r.device.bitmap bit = true ↔
        ∃ ept ∈ r.device.endpoints, ept.addr = reservedAddresses + bit) ∧
      (∀ ept ∈ r.device.endpoints, ept.addr < reservedAddresses + addrBmpSize) ∧
      (∀ ept ∈ r.device.endpoints, reservedAddresses ≤ ept.addr →
        rpmsgGetEptFromAddr r.device ept.addr = some ept) ∧
      ∀ addr, rpmsgGetEptFromAddr r.device addr = none ↔
        ∀ ept ∈ r.device.endpoints, ept.addr ≠ addr := by
  have tracks := run_tracks supportNs events r ran
  refine ⟨?_, tracks.small, ?_, ?_⟩
  · intro bit inside
    rw [isBitSet_eq]
    exact tracks.bits bit inside
  · intro ept member dynamic
    rw [tracks.lookup]
    cases found : r.device.endpoints.find? (fun other => decide (other.addr = ept.addr)) with
    | none => exact absurd (decide_eq_true rfl) (List.find?_eq_none.mp found ept member)
    | some other =>
      have same : other.addr = ept.addr := by simpa using List.find?_some found
      have listed : other ∈ r.device.endpoints := List.mem_of_find?_eq_some found
      rw [tracks.distinct ept member other listed dynamic same.symm]
  · intro addr
    rw [tracks.lookup, List.find?_eq_none]
    simp only [decide_eq_true_eq, ne_eq]

/-- Two endpoints are created, the first is bound by a message and destroyed, and its
address is handed out again. -/
def sampleEvents : List RegistryEvent :=
  [.create 1 [65] addrAny addrAny, .create 2 [66] addrAny addrAny, .announced 1 .success,
    .announced 2 .success, .received 1024 400, .destroy 1, .create 3 [67] addrAny 400]

/-- Endpoints created and announced, and one looked up by its address. -/
theorem addresses_tracked_sample :
    ∃ r, run step (initial true) sampleEvents = some r ∧
      rpmsgGetEptFromAddr r.device 1024 = some ⟨3, [67], 1024, 400⟩ ∧
      (metalBitmapIsBitSet r.device.bitmap 1 = true ↔
        ∃ ept ∈ r.device.endpoints, ept.addr = reservedAddresses + 1) :=
  ⟨(run step (initial true) sampleEvents).get (by decide), (Option.some_get _).symm, by decide,
    (addresses_tracked true sampleEvents _ (Option.some_get _).symm).1 1 (by decide)⟩

/-- The address is decided in the locked part of `rpmsg_create_ept`. In every reachable state,
an endpoint created without a wish gets the lowest dynamic address nobody has, and this part
fails only when all of them are taken; with a wish it gets the address it asks for, unless
that is a dynamic one in use or lies beyond the bitmap, and the two failures are told
apart. An announcement that fails afterwards undoes the creation, as is shown below. -/
theorem creation_outcome (ran : run step (initial supportNs) events = some r) (key : Nat)
    (name : List UInt8) (dest : Nat) :
    ((∃ ept after, createLocked r.device key name addrAny dest = .ok (ept, after) ∧
          Entered r.device key ept after ∧ reservedAddresses ≤ ept.addr ∧
          ∀ addr, reservedAddresses ≤ addr → addr < ept.addr →
            ∃ other ∈ r.device.endpoints, other.addr = addr) ∨
        (createLocked r.device key name addrAny dest = .error .errAddr ∧
          ∀ addr, reservedAddresses ≤ addr → addr < reservedAddresses + addrBmpSize →
            ∃ other ∈ r.device.endpoints, other.addr = addr)) ∧
      ∀ src, src ≠ addrAny →
        (∃ ept after, createLocked r.device key name src dest = .ok (ept, after) ∧
            Entered r.device key ept after ∧ ept.addr = src) ∨
          (createLocked r.device key name src dest = .error .errAddr ∧
            reservedAddresses ≤ src ∧ ∃ other ∈ r.device.endpoints, other.addr = src) ∨
          (createLocked r.device key name src dest = .error .errParam ∧
            reservedAddresses + addrBmpSize ≤ src) := by
  have tracks := run_tracks supportNs events r ran
  exact ⟨createLocked_any r.device tracks key name dest,
    fun src asked => createLocked_src r.device tracks key name src dest asked⟩

/-- An address that is in use is refused. -/
theorem creation_outcome_sample :
    ∃ r, run step (initial true) sampleEvents = some r ∧
      createLocked r.device 4 [68] 1024 addrAny = .error .errAddr ∧
      ((∃ ept after, createLocked r.device 4 [68] 1024 addrAny = .ok (ept, after) ∧
            Entered r.device 4 ept after ∧ ept.addr = 1024) ∨
          (createLocked r.device 4 [68] 1024 addrAny = .error .errAddr ∧
            reservedAddresses ≤ 1024 ∧ ∃ other ∈ r.device.endpoints, other.addr = 1024) ∨
          (createLocked r.device 4 [68] 1024 addrAny = .error .errParam ∧
            reservedAddresses + addrBmpSize ≤ 1024)) :=
  ⟨(run step (initial true) sampleEvents).get (by decide), (Option.some_get _).symm, by rfl,
    (creation_outcome true sampleEvents _ (Option.some_get _).symm 4 [68] addrAny).2
      1024 (by decide)⟩

/-- In every reachable state, a creation that reports an error leaves the device as it
was: the address goes back and the list loses nothing but the new endpoint. One that
succeeds is undone in the same way by taking the endpoint out again. -/
theorem failed_creation_undone (ran : run step (initial supportNs) events = some r) (key : Nat)
    (name : List UInt8) (src dest : Nat) (announcement : RpmsgStatus)
    (unregistered : (r.endpoint? key).isNone = true) :
    ((rpmsgCreateEpt r.device key name src dest announcement).1 ≠ .success →
        (rpmsgCreateEpt r.device key name src dest announcement).2 = r.device) ∧
      ((rpmsgCreateEpt r.device key name src dest announcement).1 = .success →
        ∃ ept ∈ (rpmsgCreateEpt r.device key name src dest announcement).2.endpoints,
          ept.key = key ∧
          rpmsgUnregisterEndpoint (rpmsgCreateEpt r.device key name src dest announcement).2
            ept = r.device) := by
  have tracks := run_tracks supportNs events r ran
  have fresh := endpoint?_none unregistered
  unfold rpmsgCreateEpt
  cases created : createLocked r.device key name src dest with
  | error status =>
    refine ⟨fun _ => rfl, ?_⟩
    intro succeeded
    exact absurd succeeded (createLocked_error created)
  | ok pair =>
    obtain ⟨ept, after⟩ := pair
    have entered := createLocked_entered tracks created
    have undone := entered.undone fresh
    simp only [createFinish]
    refine ⟨?_, ?_⟩
    · intro failed
      rw [if_pos failed, undone]
    · intro succeeded
      rw [if_neg (not_not.mpr succeeded)]
      refine ⟨ept, ?_, entered.key, undone⟩
      rw [entered.device]
      exact List.mem_append_right _ List.mem_cons_self

/-- A creation that fails at its announcement leaves no trace. -/
theorem failed_creation_undone_sample :
    ∃ r, run step (initial true) sampleEvents = some r ∧
      (rpmsgCreateEpt r.device 5 [69] addrAny addrAny .errNoBuff).1 = .errNoBuff ∧
      (rpmsgCreateEpt r.device 5 [69] addrAny addrAny .errNoBuff).2 = r.device :=
  ⟨(run step (initial true) sampleEvents).get (by decide), (Option.some_get _).symm, by decide,
    (failed_creation_undone true sampleEvents _ (Option.some_get _).symm 5 [69] addrAny
      addrAny .errNoBuff (by decide)).1 (by decide)⟩

end Runs

end Registry

end Stm32Ecu.Rpmsg
