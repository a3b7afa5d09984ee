import Mathlib.Data.List.Iterate
import Mathlib.Data.List.Nodup
import Mathlib.Logic.Function.Iterate

/-!
# Chains linked through a table

A table gives each entry its successor. The chain of a given length from a start lists
the entries met by following successors, and where it leaves is the end of the chain.
Writing the successor of one entry changes only the chains that pass through it. Two
chains without a common entry are joined by writing the start of the second as the
successor of the last entry of the first.
-/

namespace Stm32Ecu.LinkedChain

universe u
variable {α : Type u}

/-- Where a table agrees with another on a chain, following either reaches the same end. -/
theorem end_congr (next other : α → α) (start : α) (length : Nat)
    (agree : ∀ entry ∈ List.iterate next start length, other entry = next entry) :
    other^[length] start = next^[length] start := by
  induction length generalizing start with
  | zero => rfl
  | succ length ih =>
    rw [List.iterate, List.forall_mem_cons] at agree
    rw [Function.iterate_succ_apply, Function.iterate_succ_apply, agree.1]
    exact ih (next start) agree.2

/-- Where a table agrees with another on a chain, the chain is the same in both, and so
is the entry it leads to. -/
theorem chain_congr (next other : α → α) (start : α) (length : Nat)
    (agree : ∀ entry ∈ List.iterate next start length, other entry = next entry) :
    List.iterate other start (length + 1) = List.iterate next start (length + 1) := by
  induction length generalizing start with
  | zero => rfl
  | succ length ih =>
    rw [List.iterate, List.forall_mem_cons] at agree
    rw [List.iterate, agree.1, ih (next start) agree.2, ← List.iterate]

/-- A chain is unchanged by a table that agrees with the old one along it. -/
theorem chain_same (next other : α → α) (start : α) (length : Nat)
    (agree : ∀ entry ∈ List.iterate next start length, other entry = next entry) :
    List.iterate other start length = List.iterate next start length := by
  cases length with
  | zero => rfl
  | succ length =>
    refine chain_congr next other start length ?_
    intro entry member
    refine agree entry ?_
    rw [List.iterate_add next start length 1]
    exact List.mem_append_left _ member

/-- A nonempty chain is its entries before the last, and the last. -/
theorem chain_last (next : α → α) (start : α) (length : Nat) :
    List.iterate next start (length + 1) =
      List.iterate next start length ++ [next^[length] start] := by
  rw [List.iterate_add next start length 1]
  rfl

/-- The last entry of a chain without repetitions is not among those before it. -/
theorem last_apart (next : α → α) (start : α) (length : Nat)
    (distinct : (List.iterate next start (length + 1)).Nodup) :
    next^[length] start ∉ List.iterate next start length := by
  rw [chain_last] at distinct
  intro member
  exact List.disjoint_of_nodup_append distinct member (List.mem_singleton_self _)

section Joining

variable [DecidableEq α]
variable (next : α → α) (start second : α) (length rest : Nat)

/-- A table with one entry rewritten agrees with the old one along a chain that does not
pass through it. -/
theorem update_agree {written : α} (successor : α)
    (apart : written ∉ List.iterate next start length) :
    ∀ entry ∈ List.iterate next start length,
      Function.update next written successor entry = next entry := by
  intro entry member
  refine Function.update_of_ne ?_ _ _
  rintro rfl
  exact apart member

/-- Writing the successor of the last entry of a chain without repetitions leaves the
entries of the chain as they are. -/
theorem relinked_first (distinct : (List.iterate next start (length + 1)).Nodup) :
    List.iterate (Function.update next (next^[length] start) second) start (length + 1) =
      List.iterate next start (length + 1) :=
  chain_congr next _ start length
    (update_agree next start length second (last_apart next start length distinct))

/-- The relinked chain leads to the start of the second. -/
theorem relinked_end (distinct : (List.iterate next start (length + 1)).Nodup) :
    (Function.update next (next^[length] start) second)^[length + 1] start = second := by
  have last : (Function.update next (next^[length] start) second)^[length] start =
      next^[length] start :=
    end_congr next _ start length
      (update_agree next start length second (last_apart next start length distinct))
  rw [Function.iterate_succ_apply', last, Function.update_self]

/-- Joined to a second chain that does not pass through the rewritten entry, the first
runs on into the second. -/
theorem relinked_chain (distinct : (List.iterate next start (length + 1)).Nodup)
    (apart : next^[length] start ∉ List.iterate next second rest) :
    List.iterate (Function.update next (next^[length] start) second) start
        (length + 1 + rest) =
      List.iterate next start (length + 1) ++ List.iterate next second rest := by
  rw [List.iterate_add, relinked_first next start second length distinct,
    relinked_end next start second length distinct]
  congr 1
  exact chain_same next _ second rest (update_agree next second rest second apart)

/-- The joined chain ends where the second chain ended. -/
theorem relinked_chain_end (distinct : (List.iterate next start (length + 1)).Nodup)
    (apart : next^[length] start ∉ List.iterate next second rest) :
    (Function.update next (next^[length] start) second)^[length + 1 + rest] start =
      next^[rest] second := by
  rw [Nat.add_comm, Function.iterate_add_apply, relinked_end next start second length distinct]
  exact end_congr next _ second rest (update_agree next second rest second apart)

end Joining

end Stm32Ecu.LinkedChain
