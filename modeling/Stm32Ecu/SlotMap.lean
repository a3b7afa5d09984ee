import Mathlib.Data.List.Basic
import Mathlib.Data.List.Range

/-!
# A map from numbers to slots, with cyclic reservation

A slot is free, reserved for a value that has not arrived, or filled. A load
sees only filled slots, so a reservation is invisible until its value is stored.
Reservation searches upward from a cursor and wraps once to the lower limit; it
fails only when no slot between the limits is free.

This is the caller's view of an index-allocating array whose null entries mark
reservations. Node layout, marks and locking are below this view.
-/

namespace Stm32Ecu

universe u

/-- What the map holds at one index. -/
inductive Slot (β : Type u) where
  | free
  | reserved
  | filled (value : β)
deriving DecidableEq

namespace Slot

variable {β : Type u}

/-- The slot can be taken. -/
def isFree : Slot β → Bool
  | .free => true
  | .reserved => false
  | .filled _ => false

/-- The value a reader sees: none in a free or a reserved slot. -/
def value : Slot β → Option β
  | .free => none
  | .reserved => none
  | .filled stored => some stored

/-- Only a slot that has nothing in it can be taken. -/
theorem isFree_iff (slot : Slot β) : slot.isFree = true ↔ slot = .free := by
  cases slot <;> simp [isFree]

end Slot

/-- Every index has a slot; only finitely many are ever taken by a program. -/
structure SlotMap (β : Type u) where
  slot : Nat → Slot β

namespace SlotMap

variable {β : Type u}

/-- All slots are free. -/
def empty : SlotMap β := ⟨fun _ => .free⟩

/-- Replace the slot at one index. -/
def set (map : SlotMap β) (index : Nat) (slot : Slot β) : SlotMap β :=
  ⟨Function.update map.slot index slot⟩

/-- A slot holds what was put there. -/
@[simp] theorem set_slot_same (map : SlotMap β) (index : Nat) (slot : Slot β) :
    (map.set index slot).slot index = slot := by
  simp [set]

/-- The other slots stay. -/
theorem set_slot_other (map : SlotMap β) (index other : Nat) (slot : Slot β)
    (different : other ≠ index) : (map.set index slot).slot other = map.slot other := by
  simp [set, different]

/-- Read a value; free and reserved slots read as absent. -/
def load (map : SlotMap β) (index : Nat) : Option β := (map.slot index).value

/-- A slot that reads as a value holds that value. -/
theorem slot_of_load (map : SlotMap β) (index : Nat) (value : β)
    (found : map.load index = some value) : map.slot index = .filled value := by
  unfold load at found
  cases held : map.slot index with
  | free => simp [held, Slot.value] at found
  | reserved => simp [held, Slot.value] at found
  | filled stored => simpa [held, Slot.value] using found

/-- The values found below a limit, in the order of their indices. -/
def values (map : SlotMap β) (limit : Nat) : List β := (List.range limit).filterMap map.load

/-- The values below a limit are those of the filled slots below it. -/
theorem mem_values (map : SlotMap β) (limit : Nat) (value : β) :
    value ∈ map.values limit ↔ ∃ index, index < limit ∧ map.slot index = .filled value := by
  simp only [values, List.mem_filterMap, List.mem_range]
  constructor
  · rintro ⟨index, below, found⟩
    exact ⟨index, below, slot_of_load map index value found⟩
  · rintro ⟨index, below, held⟩
    exact ⟨index, below, by simp [load, held, Slot.value]⟩

/-- Fill a slot, whatever it held. -/
def store (map : SlotMap β) (index : Nat) (value : β) : SlotMap β :=
  map.set index (.filled value)

/-- Free a slot, whatever it held. -/
def erase (map : SlotMap β) (index : Nat) : SlotMap β := map.set index .free

/-- After a store, a filled slot is the new one or one that was filled elsewhere. -/
theorem store_filled_iff (map : SlotMap β) (index other : Nat) (value found : β) :
    (map.store index value).slot other = .filled found ↔
      other = index ∧ found = value ∨ other ≠ index ∧ map.slot other = .filled found := by
  by_cases same : other = index
  · subst same
    simp [store, eq_comm]
  · simp [store, set_slot_other map index other _ same, same]

/-- After a slot is reserved or freed, a filled slot is one that was filled elsewhere. -/
theorem set_filled_iff (map : SlotMap β) (index other : Nat) (slot : Slot β) (found : β)
    (empty : slot.value = none) :
    (map.set index slot).slot other = .filled found ↔
      other ≠ index ∧ map.slot other = .filled found := by
  by_cases same : other = index
  · subst same
    rw [set_slot_same]
    cases slot <;> simp_all [Slot.value]
  · simp [set_slot_other map index other slot same, same]

/-- The least free index from `lower` through `upper`. -/
def firstFree (map : SlotMap β) (lower upper : Nat) : Option Nat :=
  (List.range' lower (upper + 1 - lower)).find? (fun index => (map.slot index).isFree)

/-- Reserve the first free index at or after the cursor, or after wrapping to
the lower limit. The cursor then points past the reserved index. -/
def allocCyclic (map : SlotMap β) (lower upper cursor : Nat) :
    Option (Nat × SlotMap β × Nat) :=
  match map.firstFree (max lower cursor) upper with
  | some index => some (index, map.set index .reserved, index + 1)
  | none =>
      if lower < max lower cursor then
        (map.firstFree lower upper).map (fun index =>
          (index, map.set index .reserved, index + 1))
      else none

/-- A search result is a free index within the limits. -/
theorem firstFree_some (map : SlotMap β) (lower upper index : Nat)
    (found : map.firstFree lower upper = some index) :
    lower ≤ index ∧ index ≤ upper ∧ map.slot index = .free := by
  have free : (map.slot index).isFree = true := by simpa using List.find?_some found
  have member : index ∈ List.range' lower (upper + 1 - lower) := List.mem_of_find?_eq_some found
  rw [List.mem_range'_1] at member
  exact ⟨member.1, by omega, (Slot.isFree_iff _).mp free⟩

/-- The search fails only when nothing within the limits is free. -/
theorem firstFree_none_iff (map : SlotMap β) (lower upper : Nat) :
    map.firstFree lower upper = none ↔
      ∀ index, lower ≤ index → index ≤ upper → map.slot index ≠ .free := by
  simp only [firstFree, List.find?_eq_none, List.mem_range'_1, Slot.isFree_iff]
  constructor
  · intro taken index above below
    exact taken index ⟨above, by omega⟩
  · rintro taken index ⟨above, below⟩
    exact taken index above (by omega)

/-- A successful reservation took a free index within the limits, changed that
slot only, and moved the cursor just past it. -/
theorem allocCyclic_some (map reserved : SlotMap β) (lower upper cursor index next : Nat)
    (taken : map.allocCyclic lower upper cursor = some (index, reserved, next)) :
    lower ≤ index ∧ index ≤ upper ∧ map.slot index = .free ∧
      reserved = map.set index .reserved ∧ next = index + 1 := by
  unfold allocCyclic at taken
  split at taken
  · rename_i found search
    obtain ⟨above, below, free⟩ := firstFree_some map _ _ _ search
    simp only [Option.some.injEq, Prod.mk.injEq] at taken
    obtain ⟨rfl, rfl, rfl⟩ := taken
    exact ⟨by omega, below, free, rfl, rfl⟩
  · split at taken
    · obtain ⟨found, search, same⟩ := Option.map_eq_some_iff.mp taken
      obtain ⟨above, below, free⟩ := firstFree_some map _ _ _ search
      simp only [Prod.mk.injEq] at same
      obtain ⟨rfl, rfl, rfl⟩ := same
      exact ⟨above, below, free, rfl, rfl⟩
    · cases taken

/-- Wrapping makes the search exhaustive: reservation fails exactly when every
index within the limits is taken, wherever the cursor stands. -/
theorem allocCyclic_none_iff (map : SlotMap β) (lower upper cursor : Nat) :
    map.allocCyclic lower upper cursor = none ↔
      ∀ index, lower ≤ index → index ≤ upper → map.slot index ≠ .free := by
  unfold allocCyclic
  split
  · rename_i found search
    obtain ⟨above, below, free⟩ := firstFree_some map _ _ _ search
    simp only [reduceCtorEq, false_iff]
    intro taken
    exact taken found (by omega) below free
  · rename_i search
    split
    · rw [Option.map_eq_none_iff, firstFree_none_iff]
    · rename_i unwrapped
      have same : max lower cursor = lower := by omega
      rw [same, firstFree_none_iff] at search
      simpa using search

end SlotMap

end Stm32Ecu
