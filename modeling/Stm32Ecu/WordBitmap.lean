import Mathlib.Data.Nat.Basic
import Mathlib.Logic.Function.Basic

/-!
# Bits packed into words

A bitmap is a table of machine words of some width. A bit lies in the word its number
divided by the width gives, at the place the remainder gives. Setting or clearing one
bit changes how that bit reads and no other, whether the other is in the same word or
not. The scan for a clear bit returns the first one from where it starts.
-/

namespace Stm32Ecu.WordBitmap

variable {width : Nat}

/-- Whether a bit is set. -/
def test (words : Nat → BitVec width) (bit : Nat) : Bool :=
  (words (bit / width)).getLsbD (bit % width)

/-- Set one bit of its word. -/
def set (words : Nat → BitVec width) (bit : Nat) : Nat → BitVec width :=
  Function.update words (bit / width)
    (words (bit / width) ||| BitVec.twoPow width (bit % width))

/-- Clear one bit of its word. -/
def clear (words : Nat → BitVec width) (bit : Nat) : Nat → BitVec width :=
  Function.update words (bit / width)
    (words (bit / width) &&& ~~~ BitVec.twoPow width (bit % width))

/-- Within one word, two bits are the same exactly at the same place. -/
theorem same_place_iff (bit other : Nat) (sameWord : other / width = bit / width) :
    other % width = bit % width ↔ other = bit := by
  constructor
  · intro samePlace
    rw [← Nat.div_add_mod other width, ← Nat.div_add_mod bit width, sameWord, samePlace]
  · intro same
    rw [same]

/-- After a set, the bit reads as set and the others as before. -/
theorem test_set (positive : 0 < width) (words : Nat → BitVec width) (bit other : Nat) :
    test (set words bit) other = (test words other || decide (other = bit)) := by
  unfold test set
  by_cases sameWord : other / width = bit / width
  · have place : bit % width < width := Nat.mod_lt _ positive
    rw [sameWord, Function.update_self, BitVec.getLsbD_or, BitVec.getLsbD_twoPow,
      decide_eq_true place, Bool.true_and]
    congr 1
    rw [decide_eq_decide, eq_comm]
    exact same_place_iff bit other sameWord
  · have different : other ≠ bit := fun same => sameWord (by rw [same])
    rw [Function.update_of_ne sameWord, decide_eq_false different, Bool.or_false]

/-- After a clear, the bit reads as clear and the others as before. -/
theorem test_clear (positive : 0 < width) (words : Nat → BitVec width) (bit other : Nat) :
    test (clear words bit) other = (test words other && decide (other ≠ bit)) := by
  unfold test clear
  by_cases sameWord : other / width = bit / width
  · have place : bit % width < width := Nat.mod_lt _ positive
    have otherPlace : other % width < width := Nat.mod_lt _ positive
    rw [sameWord, Function.update_self, BitVec.getLsbD_and, BitVec.getLsbD_not,
      BitVec.getLsbD_twoPow, decide_eq_true place, decide_eq_true otherPlace, Bool.true_and,
      Bool.true_and]
    congr 1
    rw [← decide_not, decide_eq_decide, not_iff_not, eq_comm]
    exact same_place_iff bit other sameWord
  · have different : other ≠ bit := fun same => sameWord (by rw [same])
    rw [Function.update_of_ne sameWord, decide_eq_true different, Bool.and_true]

/-- Clearing a bit that was just set gives the old bitmap, if the bit was clear in it. -/
theorem clear_set (words : Nat → BitVec width) (bit : Nat)
    (positive : 0 < width) (free : test words bit = false) : clear (set words bit) bit = words := by
  funext word
  unfold clear set
  by_cases here : word = bit / width
  · subst here
    rw [Function.update_self, Function.update_self]
    refine BitVec.eq_of_getElem_eq ?_
    intro place inside
    have reads : (words (bit / width)).getLsbD (bit % width) = false := free
    simp only [BitVec.getElem_and, BitVec.getElem_or, BitVec.getElem_not, BitVec.getElem_twoPow]
    by_cases samePlace : bit % width = place
    · subst samePlace
      rw [BitVec.getLsbD_eq_getElem (Nat.mod_lt _ positive)] at reads
      simp [reads]
    · simp [Ne.symm samePlace]
  · rw [Function.update_of_ne here, Function.update_of_ne here]

/-- The first clear bit from a start, among a number of bits; where there is none, the
end of the range. -/
def nextClear (words : Nat → BitVec width) : Nat → Nat → Nat
  | start, 0 => start
  | start, count + 1 => if test words start then nextClear words (start + 1) count else start

/-- The scan stays in its range, passes only set bits, and stops before the end only at
a clear one. The induction is on the bits still to be looked at. -/
theorem nextClear_spec (words : Nat → BitVec width) (start count : Nat) :
    start ≤ nextClear words start count ∧ nextClear words start count ≤ start + count ∧
      (∀ bit, start ≤ bit → bit < nextClear words start count → test words bit = true) ∧
      (nextClear words start count < start + count →
        test words (nextClear words start count) = false) := by
  induction count generalizing start with
  | zero =>
    refine ⟨Nat.le_refl _, Nat.le_refl _, ?_, ?_⟩
    · intro bit lower upper
      exact absurd (Nat.lt_of_le_of_lt lower upper) (Nat.lt_irrefl _)
    · intro before
      exact absurd before (Nat.lt_irrefl _)
  | succ count ih =>
    obtain ⟨lower, upper, passed, stopped⟩ := ih (start + 1)
    rw [nextClear]
    cases here : test words start with
    | true =>
      rw [if_pos rfl]
      refine ⟨by omega, by omega, ?_, ?_⟩
      · intro bit after before
        by_cases first : bit = start
        · rw [first, here]
        · exact passed bit (by omega) before
      · intro before
        exact stopped (by omega)
    | false =>
      rw [if_neg Bool.false_ne_true]
      refine ⟨Nat.le_refl _, by omega, ?_, fun _ => here⟩
      intro bit after before
      exact absurd (Nat.lt_of_le_of_lt after before) (Nat.lt_irrefl _)

end Stm32Ecu.WordBitmap
