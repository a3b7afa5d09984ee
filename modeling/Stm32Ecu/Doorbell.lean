import Stm32Ecu.Runs

/-!
# A doorbell between a producer and a sleeping consumer

A producer publishes entries and rings when it has published some. A consumer that finds
nothing asks to be rung for, looks a second time, and only then goes to sleep. The bell
between them is described by counts alone: what is visible, what is consumed, and what
has been published since the last ring.

A sleeping consumer has asked, and it has missed no more than what is still to be rung
for. Every move of either side keeps this, whatever the mechanism behind the asking, as
long as a ring reaches a consumer that has asked and is behind.
-/

namespace Stm32Ecu

/-- The state of one direction of notification. -/
structure Bell where
  visible : Nat
  consumed : Nat
  unrung : Nat
  asked : Prop
  looking : Prop
  asleep : Prop

namespace Bell

/-- A consumer about to look again has asked; a sleeping one has asked, and it is behind
by no more than what the producer has not rung for. -/
structure Safe (bell : Bell) : Prop where
  looking : bell.looking → bell.asked
  asleep : bell.asleep → bell.asked ∧ bell.visible ≤ bell.consumed + bell.unrung

/-- The moves of the two sides. -/
inductive Move : Bell → Bell → Prop
  /-- Nothing of the bell changes. -/
  | stay (bell : Bell) : Move bell bell
  /-- One more entry is visible. -/
  | publish (bell : Bell) :
      Move bell { bell with visible := bell.visible + 1, unrung := bell.unrung + 1 }
  /-- The producer rings, or finds that nobody waits. -/
  | ring (bell : Bell) (rung : Prop)
      (reaches : bell.asked → bell.consumed < bell.visible →
        bell.visible ≤ bell.consumed + bell.unrung → rung) :
      Move bell { bell with unrung := 0, asleep := bell.asleep ∧ ¬ rung }
  /-- The consumer goes on by itself. -/
  | awake (bell after : Bell) (up : ¬ after.asleep) (notLooking : ¬ after.looking) :
      Move bell after
  /-- The consumer asks to be rung for. -/
  | ask (bell after : Bell) (asked : after.asked) (up : ¬ after.asleep) : Move bell after
  /-- The consumer looks again, and sleeps only if it sees nothing. -/
  | look (bell : Bell) (looking : bell.looking) (found : Prop)
      (sees : bell.consumed < bell.visible → found) :
      Move bell { bell with looking := False, asleep := ¬ found }

/-- Every move keeps the bell safe. -/
theorem Move.safe {bell after : Bell} (move : Move bell after) (safe : bell.Safe) :
    after.Safe := by
  cases move with
  | stay => exact safe
  | publish =>
    refine ⟨safe.looking, ?_⟩
    intro asleep
    obtain ⟨asked, behind⟩ := safe.asleep asleep
    refine ⟨asked, ?_⟩
    change bell.visible + 1 ≤ bell.consumed + (bell.unrung + 1)
    omega
  | ring rung reaches =>
    refine ⟨safe.looking, ?_⟩
    rintro ⟨asleep, missed⟩
    obtain ⟨asked, behind⟩ := safe.asleep asleep
    refine ⟨asked, ?_⟩
    change bell.visible ≤ bell.consumed + 0
    by_contra more
    exact missed (reaches asked (by omega) behind)
  | awake _ up notLooking => exact ⟨fun looking => absurd looking notLooking,
      fun asleep => absurd asleep up⟩
  | ask _ asked up => exact ⟨fun _ => asked, fun asleep => absurd asleep up⟩
  | look looking found sees =>
    refine ⟨False.elim, ?_⟩
    intro nothing
    refine ⟨safe.looking looking, ?_⟩
    change bell.visible ≤ bell.consumed + bell.unrung
    by_contra more
    exact nothing (sees (by omega))

/-- A sleeping consumer has nothing to see once the producer has rung for everything. -/
theorem Safe.nothing_missed {bell : Bell} (safe : bell.Safe) (asleep : bell.asleep)
    (rung : bell.unrung = 0) : bell.visible ≤ bell.consumed := by
  have behind := (safe.asleep asleep).2
  omega

end Bell

end Stm32Ecu
