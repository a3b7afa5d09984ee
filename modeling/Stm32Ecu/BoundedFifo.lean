import Mathlib.Data.List.Basic

/-!
# A bounded first-in first-out queue

The queue carries the proof that it never holds more than its capacity. A put
reports whether the item was taken and leaves a full queue as it was; a get
reports an empty queue by returning nothing. These are the operations a caller
sees of a fixed-size ring buffer whose elements are whole items.
-/

namespace Stm32Ecu

universe u

/-- Items in arrival order, oldest first, never more than the capacity. -/
structure BoundedFifo (α : Type u) (capacity : Nat) where
  items : List α
  fits : items.length ≤ capacity

namespace BoundedFifo

variable {α : Type u} {capacity : Nat}

/-- The queue that holds nothing. -/
def empty : BoundedFifo α capacity := ⟨[], Nat.zero_le capacity⟩

@[simp] theorem empty_items : (empty : BoundedFifo α capacity).items = [] := rfl

/-- The number of items the queue can hold, whatever it holds now. -/
def size (_ : BoundedFifo α capacity) : Nat := capacity

/-- Whether there is nothing to take. -/
def isEmpty (queue : BoundedFifo α capacity) : Bool := queue.items.isEmpty

/-- Append an item if there is room. The flag is the caller's return value; a
refused item is lost and the queue is unchanged. -/
def put (queue : BoundedFifo α capacity) (item : α) : Bool × BoundedFifo α capacity :=
  if room : queue.items.length < capacity then
    (true, ⟨queue.items ++ [item], by
      rw [List.length_append, List.length_singleton]
      exact room⟩)
  else (false, queue)

/-- Remove the oldest item, if there is one. -/
def get (queue : BoundedFifo α capacity) : Option (α × BoundedFifo α capacity) :=
  match held : queue.items with
  | [] => none
  | first :: rest => some (first, ⟨rest, by
      have bound : queue.items.length ≤ capacity := queue.fits
      rw [held] at bound
      exact Nat.le_trans (Nat.le_succ rest.length) bound⟩)

/-- A put is accepted exactly when there is room. -/
@[simp] theorem put_accepted (queue : BoundedFifo α capacity) (item : α) :
    (queue.put item).1 = decide (queue.items.length < capacity) := by
  by_cases room : queue.items.length < capacity <;> simp [put, room]

/-- With room the item is the newest one. -/
theorem put_items (queue : BoundedFifo α capacity) (item : α)
    (room : queue.items.length < capacity) :
    (queue.put item).2.items = queue.items ++ [item] := by
  simp [put, room]

/-- A full queue refuses the item and keeps what it has. -/
theorem put_full (queue : BoundedFifo α capacity) (item : α)
    (full : ¬ queue.items.length < capacity) : (queue.put item).2 = queue := by
  simp [put, full]

/-- With or without room, the queue holds what fits of its items and the new one. -/
theorem put_take (queue : BoundedFifo α capacity) (item : α) :
    (queue.put item).2.items = (queue.items ++ [item]).take capacity := by
  by_cases room : queue.items.length < capacity
  · rw [put_items queue item room, List.take_of_length_le]
    rw [List.length_append, List.length_singleton]
    exact room
  · rw [put_full queue item room, List.take_append_of_le_length (Nat.le_of_not_gt room),
      List.take_of_length_le queue.fits]

/-- Cutting what comes first to the capacity changes nothing of what fits. -/
theorem take_take_append (first second : List α) :
    (first.take capacity ++ second).take capacity = (first ++ second).take capacity := by
  rw [List.take_append, List.take_append, List.take_take, Nat.min_self, List.length_take]
  congr 2
  omega

/-- Nothing can be taken from a queue without items. -/
theorem get_empty (queue : BoundedFifo α capacity) (none_held : queue.items = []) :
    queue.get = none := by
  unfold get
  split
  · rfl
  · simp_all

/-- The oldest item leaves first and the others keep their order. -/
theorem get_items (queue : BoundedFifo α capacity) (first : α) (rest : List α)
    (held : queue.items = first :: rest) :
    ∃ remaining, queue.get = some (first, remaining) ∧ remaining.items = rest := by
  unfold get
  split
  · simp_all
  · rename_i head tail found
    have same : head :: tail = first :: rest := found.symm.trans held
    obtain ⟨rfl, rfl⟩ := List.cons.inj same
    exact ⟨_, rfl, rfl⟩

end BoundedFifo

end Stm32Ecu
