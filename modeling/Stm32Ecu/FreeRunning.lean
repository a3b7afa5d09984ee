import Mathlib.Data.List.Basic
import Mathlib.Data.Nat.ModEq
import Mathlib.Logic.Function.Basic

/-!
# Free-running indices over a ring of slots

A producer and a consumer share a ring. Each keeps a counter that only grows; what is
stored in memory is the counter modulo the width of a machine word, and an entry lies
in the slot its count leaves modulo the number of slots. As long as the counters stay
within a word of each other the stored indices say everything about them: equality is
equality of the counts, and the wrapped difference is their distance.

The window between two counts lists the slots in the order of the counts. A write past
the window extends it, and it disturbs nothing as long as the ring is not full.
-/

namespace Stm32Ecu.FreeRunning

universe u
variable {α : Type u}

/-- The number of entries from one wrapped index to another. -/
def distance (width first last : Nat) : Nat := (last + width - first) % width

/-- Two counts less than one revolution apart leave different remainders. -/
theorem mod_ne_of_lt (size first last : Nat) (before : first < last)
    (near : last - first < size) : first % size ≠ last % size := by
  intro same
  have divides : size ∣ last - first :=
    (Nat.modEq_iff_dvd' (Nat.le_of_lt before)).mp same
  have atLeast : size ≤ last - first := Nat.le_of_dvd (by omega) divides
  omega

/-- Wrapped indices of two counts within a word of each other agree only for equal
counts. -/
theorem mod_eq_iff (width first last : Nat) (ordered : first ≤ last)
    (near : last - first < width) : first % width = last % width ↔ first = last := by
  constructor
  · intro same
    by_contra different
    exact mod_ne_of_lt width first last (by omega) near same
  · intro same
    rw [same]

/-- The wrapped difference of two indices is the distance of the counts behind them. -/
theorem distance_mod (width first last : Nat) (ordered : first ≤ last)
    (near : last - first < width) :
    distance width (first % width) (last % width) = last - first := by
  have positive : 0 < width := by omega
  have below : first % width < width := Nat.mod_lt _ positive
  have split : last = first + (last - first) := by omega
  have moved : last % width = (first % width + (last - first)) % width := by
    conv_lhs => rw [split]
    rw [Nat.mod_add_mod]
  unfold distance
  rw [moved, Nat.add_sub_assoc (Nat.le_of_lt below), Nat.mod_add_mod]
  have round : first % width + (last - first) + (width - first % width) =
      last - first + width := by omega
  rw [round, Nat.add_mod_right, Nat.mod_eq_of_lt near]

/-- Counting on before or after wrapping comes to the same. -/
theorem mod_succ (width count : Nat) : (count % width + 1) % width = (count + 1) % width :=
  Nat.mod_add_mod count width 1

/-- Masking a wrapped index with one less than the number of slots gives the slot of
its count. -/
theorem mask_eq_slot (bits wordBits count : Nat) (fits : bits ≤ wordBits) :
    count % 2 ^ wordBits &&& (2 ^ bits - 1) = count % 2 ^ bits := by
  rw [Nat.and_two_pow_sub_one_eq_mod, Nat.mod_mod_of_dvd _ (Nat.pow_dvd_pow 2 fits)]

/-- The entries of the ring between two counts, oldest first. -/
def window (table : Nat → α) (size first last : Nat) : List α :=
  (List.range' first (last - first)).map (fun count => table (count % size))

@[simp] theorem window_length (table : Nat → α) (size first last : Nat) :
    (window table size first last).length = last - first := by
  simp [window]

/-- Between a count and itself there is nothing. -/
@[simp] theorem window_self (table : Nat → α) (size count : Nat) :
    window table size count count = [] := by
  simp [window]

/-- The oldest entry of a window is in the slot of its first count. -/
theorem window_pop (table : Nat → α) (size first last : Nat) (before : first < last) :
    window table size first last =
      table (first % size) :: window table size (first + 1) last := by
  have step : last - first = (last - (first + 1)) + 1 := by omega
  unfold window
  rw [step, List.range'_succ, List.map_cons]

/-- One more count adds the entry in its slot. -/
theorem window_succ (table : Nat → α) (size first last : Nat) (ordered : first ≤ last) :
    window table size first (last + 1) =
      window table size first last ++ [table (last % size)] := by
  have step : last + 1 - first = (last - first) + 1 := by omega
  have reach : first + (last - first) = last := by omega
  unfold window
  rw [step, List.range'_concat, List.map_append, Nat.one_mul, reach, List.map_singleton]

/-- Tables that agree on the slots of a window give the same window. -/
theorem window_congr (table other : Nat → α) (size first last : Nat)
    (agree : ∀ count, first ≤ count → count < last →
      other (count % size) = table (count % size)) :
    window other size first last = window table size first last := by
  unfold window
  refine List.map_congr_left ?_
  intro count member
  obtain ⟨lower, upper⟩ := List.mem_range'_1.mp member
  exact agree count lower (by omega)

/-- The slot after the newest entry is outside the window while the ring is not full. -/
theorem window_update (table : Nat → α) (size first last : Nat) (entry : α)
    (room : last - first < size) :
    window (Function.update table (last % size) entry) size first last =
      window table size first last := by
  refine window_congr table _ size first last ?_
  intro count lower upper
  refine Function.update_of_ne ?_ _ _
  exact mod_ne_of_lt size count last upper (by omega)

end Stm32Ecu.FreeRunning
