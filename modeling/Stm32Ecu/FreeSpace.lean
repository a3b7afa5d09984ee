import Mathlib

/-!
# Free space kept in address order

Free space is a list of spans in address order, with a gap before each next one. A span
that becomes free is put in its place and joined to the span it follows and to the span
it precedes where they touch. Then the spans are as large as they can be: a stretch of
free addresses lies in one of them, so if none is large enough there is no room at all.

First fit takes the first span that is large enough.
-/

namespace Stm32Ecu.FreeSpace

/-- The addresses from a start on. -/
structure Span where
  start : Nat
  len : Nat
deriving DecidableEq

namespace Span

/-- The first address behind the span. -/
def stop (s : Span) : Nat := s.start + s.len

/-- The address is in the span. -/
def Has (s : Span) (address : Nat) : Prop := s.start ≤ address ∧ address < s.stop

/-- No address is in both. -/
def Apart (s other : Span) : Prop := s.stop ≤ other.start ∨ other.stop ≤ s.start

/-- Two spans that touch, as one. -/
def join (s next : Span) : Span := ⟨s.start, s.len + next.len⟩

instance (s other : Span) : Decidable (s.Apart other) := by
  unfold Apart
  infer_instance

/-- Being apart is mutual. -/
theorem Apart.symm {s other : Span} (apart : s.Apart other) : other.Apart s := apart.elim .inr .inl

/-- An address of one span is not in a span apart from it. -/
theorem Apart.not_has {s other : Span} (apart : s.Apart other) {address : Nat}
    (has : s.Has address) : ¬other.Has address := by
  simp only [Apart, Has, stop] at *
  omega

/-- The joined span ends where the second one did. -/
theorem join_stop {s next : Span} (touch : s.stop = next.start) :
    (s.join next).stop = next.stop := by
  rw [stop] at touch ⊢
  rw [stop, join, ← touch]
  exact (Nat.add_assoc _ _ _).symm

/-- A span apart from both halves is apart from the whole. -/
theorem Apart.joined {s next other : Span} (touch : s.stop = next.start)
    (first : other.Apart s) (second : other.Apart next) (some_other : 0 < other.len) :
    other.Apart (s.join next) := by
  have whole := join_stop touch
  simp only [Apart, stop, join] at *
  omega

/-- The joined span has the addresses of both. -/
theorem has_join {s next : Span} (touch : s.stop = next.start) (address : Nat) :
    (s.join next).Has address ↔ s.Has address ∨ next.Has address := by
  have whole := join_stop touch
  simp only [Has, stop, join] at *
  omega

end Span

/-- In address order, with a gap before each next span. -/
def Separated (spans : List Span) : Prop :=
  spans.Pairwise (fun s next => s.stop < next.start) ∧ ∀ s ∈ spans, 0 < s.len

/-- The sum of the lengths. -/
def total (spans : List Span) : Nat := (spans.map (·.len)).sum

/-- The address is in one of the spans. -/
def Covers (spans : List Span) (address : Nat) : Prop := ∃ s ∈ spans, s.Has address

/-- Put a span in front, joined to the first one if they touch. -/
def joinNext (s : Span) : List Span → List Span
  | [] => [s]
  | next :: rest => if s.stop = next.start then s.join next :: rest else s :: next :: rest

/-- Put a span in its place, joined to its neighbours. -/
def insertSpan (s : Span) : List Span → List Span
  | [] => [s]
  | first :: rest =>
      if first.start < s.start then
        if first.stop = s.start then joinNext (first.join s) rest
        else first :: insertSpan s rest
      else joinNext s (first :: rest)

/-- The first span that is large enough, and the others. -/
def firstFit (wanted : Nat) : List Span → Option (Span × List Span)
  | [] => none
  | first :: rest =>
      if wanted ≤ first.len then some (first, rest)
      else (firstFit wanted rest).map (fun found => (found.1, first :: found.2))

section Joining

variable {s : Span} {spans : List Span}

/-- Whatever joining keeps holds of every span afterwards. -/
theorem joinNext_all {P : Span → Prop}
    (joins : ∀ a b : Span, a.stop = b.start → P a → P b → P (a.join b))
    (one : P s) (all : ∀ a ∈ spans, P a) : ∀ a ∈ joinNext s spans, P a := by
  cases spans with
  | nil =>
    rw [joinNext, List.forall_mem_singleton]
    exact one
  | cons next rest =>
    rw [List.forall_mem_cons] at all
    rw [joinNext]
    split
    · rw [List.forall_mem_cons]
      exact ⟨joins s next ‹_› one all.1, all.2⟩
    · rw [List.forall_mem_cons, List.forall_mem_cons]
      exact ⟨one, all⟩

/-- The same for a span put in its place. -/
theorem insertSpan_all {P : Span → Prop}
    (joins : ∀ a b : Span, a.stop = b.start → P a → P b → P (a.join b))
    (one : P s) (all : ∀ a ∈ spans, P a) : ∀ a ∈ insertSpan s spans, P a := by
  induction spans with
  | nil =>
    rw [insertSpan, List.forall_mem_singleton]
    exact one
  | cons first rest ih =>
    have both := List.forall_mem_cons.mp all
    rw [insertSpan]
    split
    · split
      · exact joinNext_all joins (joins first s ‹_› both.1 one) both.2
      · rw [List.forall_mem_cons]
        exact ⟨both.1, ih both.2⟩
    · exact joinNext_all joins one all

/-- Joining loses no length. -/
theorem joinNext_total : total (joinNext s spans) = s.len + total spans := by
  cases spans with
  | nil => rfl
  | cons next rest =>
    rw [joinNext]
    split
    · simp only [total, List.map_cons, List.sum_cons, Span.join]
      omega
    · rfl

/-- The lengths add up. -/
theorem insertSpan_total : total (insertSpan s spans) = s.len + total spans := by
  induction spans with
  | nil => rfl
  | cons first rest ih =>
    rw [insertSpan]
    split
    · split
      · rw [joinNext_total]
        simp only [total, List.map_cons, List.sum_cons, Span.join]
        omega
      · simp only [total, List.map_cons, List.sum_cons] at ih ⊢
        omega
    · exact joinNext_total

/-- Joining covers the addresses of the new span and the old ones. -/
theorem joinNext_covers (address : Nat) :
    Covers (joinNext s spans) address ↔ s.Has address ∨ Covers spans address := by
  cases spans with
  | nil => simp [joinNext, Covers]
  | cons next rest =>
    rw [joinNext]
    split
    · simp only [Covers, List.mem_cons, exists_eq_or_imp, Span.has_join ‹_›, or_assoc]
    · simp only [Covers, List.mem_cons, exists_eq_or_imp]

/-- The same addresses are covered, with those of the new span. -/
theorem insertSpan_covers (address : Nat) :
    Covers (insertSpan s spans) address ↔ s.Has address ∨ Covers spans address := by
  induction spans with
  | nil => simp [insertSpan, Covers]
  | cons first rest ih =>
    rw [insertSpan]
    split
    · split
      · rw [joinNext_covers, Span.has_join ‹_›]
        simp only [Covers, List.mem_cons, exists_eq_or_imp]
        tauto
      · simp only [Covers, List.mem_cons, exists_eq_or_imp] at ih ⊢
        rw [ih]
        tauto
    · exact joinNext_covers address

/-- A span with a gap before the first of the others is separated from them, once joined. -/
theorem joinNext_separated (separated : Separated spans) (some_len : 0 < s.len)
    (before : ∀ a ∈ spans, s.stop ≤ a.start) : Separated (joinNext s spans) := by
  obtain ⟨gaps, lens⟩ := separated
  cases spans with
  | nil =>
    rw [joinNext]
    exact ⟨List.pairwise_singleton _ _, List.forall_mem_singleton.mpr some_len⟩
  | cons next rest =>
    rw [List.pairwise_cons] at gaps
    rw [List.forall_mem_cons] at lens
    rw [joinNext]
    split
    · refine ⟨List.pairwise_cons.mpr ⟨?_, gaps.2⟩, List.forall_mem_cons.mpr ⟨?_, lens.2⟩⟩
      · intro a member
        rw [Span.join_stop ‹_›]
        exact gaps.1 a member
      · exact Nat.add_pos_left some_len next.len
    · have gap : s.stop < next.start :=
        Nat.lt_of_le_of_ne (before next List.mem_cons_self) ‹_›
      refine ⟨List.pairwise_cons.mpr ⟨?_, List.pairwise_cons.mpr gaps⟩,
        List.forall_mem_cons.mpr ⟨some_len, List.forall_mem_cons.mpr lens⟩⟩
      intro a member
      rcases List.mem_cons.mp member with rfl | later
      · exact gap
      · have further := gaps.1 a later
        have reach := lens.1
        rw [Span.stop] at further
        omega

/-- Behind a span that starts before the new one, everything keeps its distance. -/
theorem insertSpan_behind {first : Span} (apart : first.stop < s.start)
    (gaps : ∀ a ∈ spans, first.stop < a.start) : ∀ a ∈ insertSpan s spans, first.stop < a.start :=
  insertSpan_all (P := fun a => first.stop < a.start) (fun _ _ _ before _ => before) apart gaps

/-- A span apart from the free ones goes in with its gaps. -/
theorem insertSpan_separated (separated : Separated spans) (some_len : 0 < s.len)
    (apart : ∀ a ∈ spans, s.Apart a) : Separated (insertSpan s spans) := by
  induction spans with
  | nil =>
    rw [insertSpan]
    exact ⟨List.pairwise_singleton _ _, List.forall_mem_singleton.mpr some_len⟩
  | cons first rest ih =>
    have gaps := List.pairwise_cons.mp separated.1
    have lens := List.forall_mem_cons.mp separated.2
    have parts := List.forall_mem_cons.mp apart
    have tail : Separated rest := ⟨gaps.2, lens.2⟩
    rw [insertSpan]
    split
    · rename_i before
      have order : first.stop ≤ s.start := by
        have other := parts.1
        simp only [Span.Apart, Span.stop] at other ⊢
        omega
      split
      · rename_i touch
        refine joinNext_separated tail (Nat.add_pos_left lens.1 s.len) ?_
        intro a member
        rw [Span.join_stop touch]
        have other := parts.2 a member
        have gap := gaps.1 a member
        simp only [Span.Apart, Span.stop] at other gap touch ⊢
        omega
      · have gap : first.stop < s.start := Nat.lt_of_le_of_ne order ‹_›
        obtain ⟨inner, all⟩ := ih tail parts.2
        exact ⟨List.pairwise_cons.mpr ⟨insertSpan_behind gap gaps.1, inner⟩,
          List.forall_mem_cons.mpr ⟨lens.1, all⟩⟩
    · refine joinNext_separated separated some_len ?_
      intro a member
      have other := apart a member
      rcases List.mem_cons.mp member with rfl | later
      · simp only [Span.Apart, Span.stop] at other ⊢
        omega
      · have gap := gaps.1 a later
        have reach := lens.1
        simp only [Span.Apart, Span.stop] at other gap ⊢
        omega

/-- A span apart from all the free ones and from the new one stays apart. -/
theorem insertSpan_apart {other : Span} (some_other : 0 < other.len) (one : other.Apart s)
    (all : ∀ a ∈ spans, other.Apart a) : ∀ a ∈ insertSpan s spans, other.Apart a :=
  insertSpan_all (P := other.Apart)
    (fun _ _ touch first second => first.joined touch second some_other) one all

end Joining

section Fitting

variable {wanted : Nat} {spans others : List Span} {found : Span}

/-- The span found is large enough and among the free ones, which it leaves in order. -/
theorem firstFit_found (fits : firstFit wanted spans = some (found, others)) :
    wanted ≤ found.len ∧ spans.Perm (found :: others) ∧ others.Sublist spans := by
  induction spans generalizing others with
  | nil => cases fits
  | cons first rest ih =>
    rw [firstFit] at fits
    split at fits
    · obtain ⟨rfl, rfl⟩ := Prod.mk.inj (Option.some.inj fits)
      exact ⟨‹_›, List.Perm.refl _, List.sublist_cons_self _ _⟩
    · obtain ⟨⟨again, left⟩, inner, same⟩ := Option.map_eq_some_iff.mp fits
      obtain ⟨rfl, rfl⟩ := Prod.mk.inj same
      obtain ⟨large, perm, sub⟩ := ih inner
      exact ⟨large, (perm.cons first).trans (List.Perm.swap _ _ _), sub.cons_cons first⟩

/-- Where nothing is found, every span is too small. -/
theorem firstFit_none (none_fits : firstFit wanted spans = none) : ∀ a ∈ spans, a.len < wanted := by
  induction spans with
  | nil => exact fun _ member => absurd member List.not_mem_nil
  | cons first rest ih =>
    rw [firstFit] at none_fits
    split at none_fits
    · cases none_fits
    · rw [Option.map_eq_none_iff] at none_fits
      exact List.forall_mem_cons.mpr ⟨Nat.lt_of_not_le ‹_›, ih none_fits⟩

/-- Of the spans that are large enough, the one found comes first. -/
theorem firstFit_least (fits : firstFit wanted spans = some (found, others))
    (separated : Separated spans) : ∀ a ∈ spans, wanted ≤ a.len → found.start ≤ a.start := by
  induction spans generalizing others with
  | nil => cases fits
  | cons first rest ih =>
    have gaps := List.pairwise_cons.mp separated.1
    have lens := List.forall_mem_cons.mp separated.2
    intro a member large
    rw [firstFit] at fits
    split at fits
    · obtain ⟨rfl, rfl⟩ := Prod.mk.inj (Option.some.inj fits)
      rcases List.mem_cons.mp member with rfl | later
      · exact Nat.le_refl _
      · have gap := gaps.1 a later
        rw [Span.stop] at gap
        omega
    · obtain ⟨⟨again, left⟩, inner, same⟩ := Option.map_eq_some_iff.mp fits
      obtain ⟨rfl, rfl⟩ := Prod.mk.inj same
      rcases List.mem_cons.mp member with rfl | later
      · exact absurd large ‹_›
      · exact ih inner ⟨gaps.2, lens.2⟩ a later large

/-- Leaving spans out leaves the others separated. -/
theorem Separated.sublist (separated : Separated spans) (sub : others.Sublist spans) :
    Separated others :=
  ⟨separated.1.sublist sub, fun a member => separated.2 a (sub.subset member)⟩

/-- The order of the spans does not matter for their sum. -/
theorem total_perm (perm : spans.Perm others) : total spans = total others :=
  (perm.map Span.len).sum_eq

/-- The span found is apart from the others. -/
theorem Separated.found_apart (separated : Separated spans) (perm : spans.Perm (found :: others)) :
    ∀ a ∈ others, found.Apart a := by
  have pairs : spans.Pairwise Span.Apart := separated.1.imp fun gap => .inl (Nat.le_of_lt gap)
  exact (List.pairwise_cons.mp ((perm.pairwise_iff Span.Apart.symm).mp pairs)).1

/-- There are no more spans than addresses in them. -/
theorem Separated.length_le (separated : Separated spans) : spans.length ≤ total spans := by
  have lens := separated.2
  clear separated
  induction spans with
  | nil => exact Nat.le_refl _
  | cons a rest ih =>
    rw [List.forall_mem_cons] at lens
    have less := ih lens.2
    simp only [total, List.length_cons, List.map_cons, List.sum_cons] at less ⊢
    omega

/-- The order of the spans does not matter for what they cover. -/
theorem covers_perm (perm : spans.Perm others) (address : Nat) :
    Covers spans address ↔ Covers others address := by
  constructor <;> rintro ⟨a, member, has⟩
  · exact ⟨a, perm.subset member, has⟩
  · exact ⟨a, perm.symm.subset member, has⟩

/-- A span more covers its addresses more. -/
theorem covers_cons (s : Span) (address : Nat) :
    Covers (s :: spans) address ↔ s.Has address ∨ Covers spans address := by
  simp only [Covers, List.mem_cons, exists_eq_or_imp]

/-- A span more adds its length. -/
theorem total_cons (s : Span) : total (s :: spans) = s.len + total spans := rfl

/-- No span is longer than all together. -/
theorem len_le_total (member : found ∈ spans) : found.len ≤ total spans :=
  List.le_sum_of_mem (List.mem_map_of_mem member)

/-- Two separated spans do not touch. -/
theorem Separated.apart (separated : Separated spans) {a b : Span} (first : a ∈ spans)
    (second : b ∈ spans) : a = b ∨ a.stop < b.start ∨ b.stop < a.start := by
  have forth : spans.Pairwise (fun a b => a = b ∨ a.stop < b.start ∨ b.stop < a.start) :=
    separated.1.imp (fun gap => .inr (.inl gap))
  have back : spans.Pairwise (fun b a => a = b ∨ a.stop < b.start ∨ b.stop < a.start) :=
    separated.1.imp (fun gap => .inr (.inr gap))
  exact forth.forall_of_forall_of_flip (fun _ _ => .inl rfl) back first second

/-- A stretch of addresses that are all covered lies in one span. -/
theorem Separated.stretch (separated : Separated spans) {s : Span} (some_len : 0 < s.len)
    (covered : ∀ address, s.Has address → Covers spans address) :
    ∃ a ∈ spans, a.start ≤ s.start ∧ s.stop ≤ a.stop := by
  obtain ⟨a, member, lower, upper⟩ :=
    covered s.start ⟨Nat.le_refl _, Nat.lt_add_of_pos_right some_len⟩
  refine ⟨a, member, lower, ?_⟩
  by_contra short
  have inside : s.Has a.stop := ⟨Nat.le_of_lt upper, Nat.lt_of_not_le short⟩
  obtain ⟨b, other, first, last⟩ := covered a.stop inside
  rcases separated.apart member other with rfl | gap | gap
  · exact absurd last (Nat.lt_irrefl _)
  · omega
  · have reach := separated.2 a member
    simp only [Span.stop] at gap first last
    omega

/-- Spans that cover everything between two bounds are one span. -/
theorem Separated.whole (separated : Separated spans) {lo hi : Nat} (order : lo < hi)
    (inside : ∀ a ∈ spans, lo ≤ a.start ∧ a.stop ≤ hi)
    (covered : ∀ address, lo ≤ address → address < hi → Covers spans address) :
    spans = [⟨lo, hi - lo⟩] := by
  have stop : (⟨lo, hi - lo⟩ : Span).stop = hi := Nat.add_sub_cancel' (Nat.le_of_lt order)
  obtain ⟨a, member, lower, upper⟩ := separated.stretch (s := ⟨lo, hi - lo⟩)
    (Nat.sub_pos_of_lt order) (fun address has => covered address has.1 (stop ▸ has.2))
  rw [stop] at upper
  change a.start ≤ lo at lower
  have same : ∀ b ∈ spans, b = ⟨lo, hi - lo⟩ := by
    have reach := inside a member
    have one : a = ⟨lo, hi - lo⟩ := by
      rw [Span.stop] at upper reach
      rw [Span.mk.injEq]
      omega
    intro b other
    have within := inside b other
    have some_len : b.start < b.stop := Nat.lt_add_of_pos_right (separated.2 b other)
    rcases separated.apart other member with rfl | gap | gap
    · exact one
    · omega
    · omega
  cases spans with
  | nil => cases member
  | cons first rest =>
    rw [List.forall_mem_cons] at same
    have gaps := (List.pairwise_cons.mp separated.1).1
    cases rest with
    | nil => rw [same.1]
    | cons second others =>
      have gap := gaps second List.mem_cons_self
      rw [same.1, same.2 second List.mem_cons_self, stop] at gap
      exact absurd gap (Nat.not_lt_of_lt order)

end Fitting

end Stm32Ecu.FreeSpace
