import Mathlib.Data.List.Basic
import Mathlib.Data.List.Nodup

/-!
# Selecting by position

Answers arrive in the order of the questions and carry no name. A mask marks the
positions whose answers are kept, and the kept answers are handed out, one after
another, to a list of takers. The laws here say when every taker gets the answer
to its own question: exactly when the askers at the marked positions are the
takers in their order, and that in turn is to mark precisely the positions of
those who will take, and to queue them in the order in which they asked.
-/

namespace Stm32Ecu.Matching

universe u v
variable {α : Type u} {β : Type v}

/-- The entries at the marked positions, in order. -/
def select : List Bool → List α → List α
  | [], _ => []
  | _ :: _, [] => []
  | true :: marks, entry :: entries => entry :: select marks entries
  | false :: marks, _ :: entries => select marks entries

/-- The position of the mark with this number, counting from zero. -/
def position : List Bool → Nat → Option Nat
  | [], _ => none
  | true :: _, 0 => some 0
  | true :: marks, j + 1 => (position marks j).map (· + 1)
  | false :: marks, j => (position marks j).map (· + 1)

/-- An entry is selected exactly when it stands at a marked position. -/
theorem mem_select_iff (marks : List Bool) (entries : List α) (entry : α) :
    entry ∈ select marks entries ↔
      ∃ i : Nat, marks[i]? = some true ∧ entries[i]? = some entry := by
  induction marks generalizing entries with
  | nil => simp [select]
  | cons mark marks ih =>
    cases entries with
    | nil => simp [select]
    | cons first entries =>
      cases mark with
      | false =>
        rw [select, ih]
        constructor
        · rintro ⟨i, marked, found⟩
          exact ⟨i + 1, by simpa using marked, by simpa using found⟩
        · rintro ⟨i, marked, found⟩
          cases i with
          | zero => simp at marked
          | succ i => exact ⟨i, by simpa using marked, by simpa using found⟩
      | true =>
        rw [select, List.mem_cons, ih]
        constructor
        · rintro (rfl | ⟨i, marked, found⟩)
          · exact ⟨0, by simp, by simp⟩
          · exact ⟨i + 1, by simpa using marked, by simpa using found⟩
        · rintro ⟨i, marked, found⟩
          cases i with
          | zero => exact Or.inl (by simpa using found.symm)
          | succ i => exact Or.inr ⟨i, by simpa using marked, by simpa using found⟩

/-- As many entries are selected as there are marks, when every mark has one. -/
theorem select_length (marks : List Bool) (entries : List α)
    (enough : marks.length ≤ entries.length) :
    (select marks entries).length = marks.count true := by
  induction marks generalizing entries with
  | nil => rfl
  | cons mark marks ih =>
    cases entries with
    | nil => simp at enough
    | cons entry entries =>
      have remaining : marks.length ≤ entries.length := Nat.le_of_succ_le_succ enough
      cases mark with
      | false => simp [select, ih entries remaining]
      | true => simp [select, ih entries remaining]

/-- Marking by a predicate selects what the predicate keeps. -/
theorem select_by_predicate (keep : α → Bool) (entries : List α) :
    select (entries.map keep) entries = entries.filter keep := by
  induction entries with
  | nil => rfl
  | cons entry entries ih =>
    cases held : keep entry <;> simp [select, held, ih]

/-- The selected entries are the entries at the marked positions. -/
theorem select_lookup (marks : List Bool) (entries : List α) (j : Nat) :
    (select marks entries)[j]? = (position marks j).bind (fun i => entries[i]?) := by
  induction marks generalizing entries j with
  | nil => simp [select, position]
  | cons mark marks ih =>
    cases entries with
    | nil => cases position (mark :: marks) j <;> simp [select]
    | cons entry entries =>
      cases mark with
      | false => cases found : position marks j <;> simp [select, position, ih, found]
      | true =>
        cases j with
        | zero => simp [select, position]
        | succ j => cases found : position marks j <;> simp [select, position, ih, found]

/-- Each mark has a position. -/
theorem position_some (marks : List Bool) (j : Nat) (counted : j < marks.count true) :
    ∃ i, position marks j = some i ∧ i < marks.length := by
  induction marks generalizing j with
  | nil => simp at counted
  | cons mark marks ih =>
    cases mark with
    | false =>
      obtain ⟨i, found, inside⟩ := ih j (by simpa using counted)
      exact ⟨i + 1, by simp [position, found], by simpa using inside⟩
    | true =>
      cases j with
      | zero => exact ⟨0, rfl, by simp⟩
      | succ j =>
        obtain ⟨i, found, inside⟩ := ih j (by simpa using counted)
        exact ⟨i + 1, by simp [position, found], by simpa using inside⟩

/-- Every taker gets the answer to its own question, whatever the answers are,
exactly when the askers at the marked positions are the takers in order.

Given the order, equal positions read equal answers. Conversely, answer one
question differently from all the others: a taker of that question reads the
difference only at its own position, so the mark it is served from stands there. -/
theorem own_answers_iff (marks : List Bool) (askers takers : List α) (valid : β → Prop)
    (one other : β) (oneValid : valid one) (otherValid : valid other) (differ : one ≠ other)
    (sameLength : askers.length = marks.length) (unique : askers.Nodup)
    (asked : ∀ taker ∈ takers, taker ∈ askers) (served : takers.length = marks.count true) :
    (∀ answers : List β, answers.length = askers.length → (∀ answer ∈ answers, valid answer) →
        ∀ (j k : Nat) (taker : α), takers[j]? = some taker → askers[k]? = some taker →
          (select marks answers)[j]? = answers[k]?) ↔
      select marks askers = takers := by
  constructor
  · intro own
    apply List.ext_getElem?
    intro j
    cases found : takers[j]? with
    | none =>
      have beyond : marks.count true ≤ j := by
        rw [← served]
        exact List.getElem?_eq_none_iff.mp found
      rw [List.getElem?_eq_none_iff, select_length marks askers (Nat.le_of_eq sameLength.symm)]
      exact beyond
    | some taker =>
      have counted : j < marks.count true := by
        rw [← served]
        exact (List.getElem?_eq_some_iff.mp found).1
      obtain ⟨i, placed, inside⟩ := position_some marks j counted
      obtain ⟨k, asks⟩ := List.mem_iff_getElem?.mp (asked taker (List.mem_of_getElem? found))
      have within : k < askers.length := (List.getElem?_eq_some_iff.mp asks).1
      -- The answers differ at position `k` only.
      let answers := (List.range askers.length).map (fun n => if n = k then one else other)
      have allValid : ∀ answer ∈ answers, valid answer := by
        intro answer member
        obtain ⟨n, _, rfl⟩ := List.mem_map.mp member
        split
        · exact oneValid
        · exact otherValid
      have reads := own answers (by simp [answers]) allValid j k taker found asks
      rw [select_lookup, placed, Option.bind_some] at reads
      have atMark : answers[i]? = some (if i = k then one else other) := by
        simp [answers, sameLength, inside]
      have atOwn : answers[k]? = some one := by
        simp [answers, within]
      have same : i = k := by
        by_contra apart
        rw [atMark, atOwn, if_neg apart] at reads
        exact differ (Option.some.inj reads).symm
      rw [select_lookup, placed, Option.bind_some, same]
      exact asks
  · rintro rfl answers _ _ j k taker found asks
    rw [select_lookup] at found ⊢
    obtain ⟨i, placed, holds⟩ := Option.bind_eq_some_iff.mp found
    have same : i = k := (List.getElem?_inj (List.getElem?_eq_some_iff.mp holds).1 unique).mp
      (holds.trans asks.symm)
    rw [placed, Option.bind_some, same]

/-- The askers at the marked positions are the takers exactly when the marks are
those of the askers who take, and the takers stand in asking order. -/
theorem select_eq_iff (marks : List Bool) (askers takers : List α) (takes : α → Bool)
    (sameLength : askers.length = marks.length) (unique : askers.Nodup)
    (willing : ∀ taker ∈ takers, takes taker = true)
    (complete : ∀ asker ∈ askers, takes asker = true → asker ∈ takers) :
    select marks askers = takers ↔
      marks = askers.map takes ∧ takers = askers.filter takes := by
  constructor
  · rintro rfl
    have sameMarks : marks = askers.map takes := by
      apply List.ext_getElem (by simp [sameLength])
      intro i inMarks inAskers
      have inside : i < askers.length := by simpa using inAskers
      rw [List.getElem_map, Bool.eq_iff_iff]
      constructor
      · intro marked
        apply willing
        exact (mem_select_iff _ _ _).mpr ⟨i, by simp [inMarks, marked], by simp [inside]⟩
      · intro taken
        obtain ⟨other, marked, found⟩ := (mem_select_iff _ _ _).mp
          (complete _ (List.getElem_mem inside) taken)
        have same : other = i :=
          (List.getElem?_inj (List.getElem?_eq_some_iff.mp found).1 unique).mp
            (found.trans (by simp [inside]))
        subst same
        simpa [inMarks] using marked
    refine ⟨sameMarks, ?_⟩
    rw [sameMarks]
    exact select_by_predicate takes askers
  · rintro ⟨rfl, rfl⟩
    exact select_by_predicate takes askers

end Stm32Ecu.Matching
