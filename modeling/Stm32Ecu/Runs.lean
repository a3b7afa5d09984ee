import Mathlib.Data.List.Basic

/-!
# Finite runs of a partial step function

A system is a step function that answers an event with the next state, or with
nothing when the event cannot occur in the present state. A run is a list of
events taken one after another. A condition placed on steps sees both the event
and the state in which it occurs, so it may speak of the moment a step is taken
and not only of the list as a whole.

The rules here carry every whole-run result of the development: what one step
preserves, a run preserves; what an invariant gives at one step, it gives at every
step of a run; what one step keeps exactly under a condition, a run keeps exactly when
its steps all meet the condition; and a system that can follow each step of another can
follow its runs.
-/

namespace Stm32Ecu.Runs

universe u v
variable {σ : Type u} {ε : Type v} {τ δ : Type*}

/-- Take the events in order. The run exists only when every event is enabled
in the state where it occurs. -/
def run (step : σ → ε → Option σ) : σ → List ε → Option σ
  | state, [] => some state
  | state, event :: rest => (step state event).bind (fun next => run step next rest)

/-- The condition holds of every event, judged in the state that event meets. -/
def Along (step : σ → ε → Option σ) (ok : σ → ε → Prop) : σ → List ε → Prop
  | _, [] => True
  | state, event :: rest =>
      ok state event ∧ ∀ next, step state event = some next → Along step ok next rest

/-- Every state of the run has the property, from the first to the last. -/
def Always (step : σ → ε → Option σ) (P : σ → Prop) : σ → List ε → Prop
  | state, [] => P state
  | state, event :: rest => P state ∧ ∀ next, step state event = some next → Always step P next rest

/-- A condition that can be decided at each step can be decided along a run. -/
instance decidableAlong (step : σ → ε → Option σ) (ok : σ → ε → Prop)
    [∀ state event, Decidable (ok state event)] :
    ∀ state events, Decidable (Along step ok state events)
  | _, [] => isTrue trivial
  | state, event :: rest =>
      match taken : step state event with
      | none => decidable_of_iff (ok state event)
          ⟨fun admitted => ⟨admitted, fun next reached => by simp [taken] at reached⟩, And.left⟩
      | some next =>
          haveI := decidableAlong step ok next rest
          decidable_of_iff (ok state event ∧ Along step ok next rest)
            ⟨fun both => ⟨both.1, fun other reached =>
                Option.some.inj (taken.symm.trans reached) ▸ both.2⟩,
              fun along => ⟨along.1, along.2 next taken⟩⟩

/-- A nonempty run is its first step followed by a run of the remaining events. -/
theorem run_cons_iff (step : σ → ε → Option σ) (state final : σ) (event : ε) (rest : List ε) :
    run step state (event :: rest) = some final ↔
      ∃ next, step state event = some next ∧ run step next rest = some final := by
  simp [run, Option.bind_eq_some_iff]

/-- A run that ends where another begins is continued by it. -/
theorem run_append (step : σ → ε → Option σ) (state middle final : σ) (first second : List ε)
    (before : run step state first = some middle) (after : run step middle second = some final) :
    run step state (first ++ second) = some final := by
  induction first generalizing state with
  | nil =>
    obtain rfl := Option.some.inj before
    exact after
  | cons event rest ih =>
    obtain ⟨next, taken, remaining⟩ := (run_cons_iff step state middle event rest).mp before
    exact (run_cons_iff step state final event _).mpr ⟨next, taken, ih next remaining⟩

/-- A step that is taken and admitted extends an admitted run to its left. -/
theorem along_cons (step : σ → ε → Option σ) (ok : σ → ε → Prop) (state next : σ) (event : ε)
    (rest : List ε) (taken : step state event = some next) (admitted : ok state event)
    (remaining : Along step ok next rest) : Along step ok state (event :: rest) := by
  refine ⟨admitted, ?_⟩
  intro other reached
  have same : next = other := Option.some.inj (taken.symm.trans reached)
  exact same ▸ remaining

/-- A condition that each event meets in whichever state it occurs is met throughout. -/
theorem along_of_forall (step : σ → ε → Option σ) (ok : σ → ε → Prop) (state : σ) (events : List ε)
    (all : ∀ event ∈ events, ∀ state, ok state event) : Along step ok state events := by
  induction events generalizing state with
  | nil => trivial
  | cons event rest ih =>
    refine ⟨all event List.mem_cons_self state, ?_⟩
    intro next _
    exact ih next (fun other member => all other (List.mem_cons_of_mem _ member))

/-- A condition met throughout a run is met throughout what remains of it after any
of its states. -/
theorem along_append (step : σ → ε → Option σ) (ok : σ → ε → Prop) (state middle : σ)
    (before during : List ε) (ran : run step state before = some middle)
    (admitted : Along step ok state (before ++ during)) : Along step ok middle during := by
  induction before generalizing state with
  | nil =>
    obtain rfl := Option.some.inj ran
    exact admitted
  | cons event rest ih =>
    obtain ⟨next, taken, remaining⟩ := (run_cons_iff step state middle event rest).mp ran
    exact ih next remaining (admitted.2 next taken)

/-- Two conditions met throughout are met together throughout. -/
theorem along_and (step : σ → ε → Option σ) (first second : σ → ε → Prop) (state : σ)
    (events : List ε) (left : Along step first state events)
    (right : Along step second state events) :
    Along step (fun state event => first state event ∧ second state event) state events := by
  induction events generalizing state with
  | nil => trivial
  | cons event rest ih =>
    exact ⟨⟨left.1, right.1⟩, fun next taken => ih next (left.2 next taken) (right.2 next taken)⟩

/-- An invariant kept by every admitted step holds at the end of every admitted
run. The induction is on the events still to be taken. -/
theorem invariant_run (step : σ → ε → Option σ) (ok : σ → ε → Prop) (Inv : σ → Prop)
    (keeps : ∀ state event next, Inv state → ok state event →
      step state event = some next → Inv next)
    (state final : σ) (events : List ε) (start : Inv state)
    (admitted : Along step ok state events) (ran : run step state events = some final) :
    Inv final := by
  induction events generalizing state with
  | nil =>
    have same : state = final := Option.some.inj ran
    exact same ▸ start
  | cons event rest ih =>
    obtain ⟨next, taken, remaining⟩ := (run_cons_iff step state final event rest).mp ran
    exact ih next (keeps state event next start admitted.1 taken)
      (admitted.2 next taken) remaining

/-- When an invariant turns one condition on steps into another, every run that
meets the first throughout meets the second throughout. -/
theorem along_of_invariant (step : σ → ε → Option σ) (ok good : σ → ε → Prop) (Inv : σ → Prop)
    (keeps : ∀ state event next, Inv state → ok state event →
      step state event = some next → Inv next)
    (gives : ∀ state event, Inv state → ok state event → good state event)
    (state : σ) (events : List ε) (start : Inv state)
    (admitted : Along step ok state events) : Along step good state events := by
  induction events generalizing state with
  | nil => trivial
  | cons event rest ih =>
    refine ⟨gives state event start admitted.1, ?_⟩
    intro next taken
    exact ih next (keeps state event next start admitted.1 taken) (admitted.2 next taken)

/-- Two conditions on steps that an invariant makes equivalent are met throughout by
the same runs. -/
theorem along_iff_of_invariant (step : σ → ε → Option σ) (ok good : σ → ε → Prop)
    (Inv : σ → Prop)
    (keeps : ∀ state event next, Inv state → step state event = some next → Inv next)
    (same : ∀ state event, Inv state → (good state event ↔ ok state event))
    (state : σ) (events : List ε) (start : Inv state) :
    Along step good state events ↔ Along step ok state events := by
  constructor
  · exact along_of_invariant step good ok Inv (fun s e next holds _ => keeps s e next holds)
      (fun s e holds => (same s e holds).mp) state events start
  · exact along_of_invariant step ok good Inv (fun s e next holds _ => keeps s e next holds)
      (fun s e holds => (same s e holds).mpr) state events start

/-- A property that an invariant gives holds in every state of a run. -/
theorem always_of_invariant (step : σ → ε → Option σ) (Inv P : σ → Prop)
    (keeps : ∀ state event next, Inv state → step state event = some next → Inv next)
    (gives : ∀ state, Inv state → P state) (state : σ) (events : List ε) (start : Inv state) :
    Always step P state events := by
  induction events generalizing state with
  | nil => exact gives state start
  | cons event rest ih =>
    refine ⟨gives state start, ?_⟩
    intro next taken
    exact ih next (keeps state event next start taken)

/-- When every step of a run keeps a property exactly under a condition, the property
holds in every state of the run exactly when the condition is met throughout. The
induction is on the events. -/
theorem always_iff_along_of_run (step : σ → ε → Option σ) (ok : σ → ε → Prop) (Inv P : σ → Prop)
    (keeps : ∀ state event next, Inv state → step state event = some next → Inv next)
    (exactly : ∀ state event next, Inv state → P state → step state event = some next →
      (P next ↔ ok state event))
    (state final : σ) (events : List ε) (start : Inv state) (holds : P state)
    (ran : run step state events = some final) :
    Always step P state events ↔ Along step ok state events := by
  induction events generalizing state with
  | nil => exact ⟨fun _ => trivial, fun _ => holds⟩
  | cons event rest ih =>
    obtain ⟨next, taken, remaining⟩ := (run_cons_iff step state final event rest).mp ran
    have only : ∀ other, step state event = some other → other = next :=
      fun other reached => Option.some.inj (reached.symm.trans taken)
    have one := exactly state event next start holds taken
    have tail (nextHolds : P next) :=
      ih next (keeps state event next start taken) nextHolds remaining
    constructor
    · rintro ⟨_, always⟩
      have later := always next taken
      have nextHolds : P next := by
        cases rest with
        | nil => exact later
        | cons _ _ => exact later.1
      refine ⟨one.mp nextHolds, ?_⟩
      intro other reached
      rw [only other reached]
      exact (tail nextHolds).mp later
    · rintro ⟨admitted, along⟩
      refine ⟨holds, ?_⟩
      intro other reached
      rw [only other reached]
      exact (tail (one.mpr admitted)).mpr (along next taken)

/-- Where every event is enabled, every list of events is a run. -/
theorem run_exists (step : σ → ε → Option σ)
    (enabled : ∀ state event, ∃ next, step state event = some next) (state : σ)
    (events : List ε) : ∃ final, run step state events = some final := by
  induction events generalizing state with
  | nil => exact ⟨state, rfl⟩
  | cons event rest ih =>
    obtain ⟨next, taken⟩ := enabled state event
    obtain ⟨final, remaining⟩ := ih next
    exact ⟨final, (run_cons_iff step state final event rest).mpr ⟨next, taken, remaining⟩⟩

/-- The same over all lists of events, where every event is enabled. -/
theorem always_iff_along (step : σ → ε → Option σ) (ok : σ → ε → Prop) (Inv P : σ → Prop)
    (keeps : ∀ state event next, Inv state → step state event = some next → Inv next)
    (enabled : ∀ state event, ∃ next, step state event = some next)
    (exactly : ∀ state event next, Inv state → P state → step state event = some next →
      (P next ↔ ok state event))
    (state : σ) (events : List ε) (start : Inv state) (holds : P state) :
    Always step P state events ↔ Along step ok state events := by
  obtain ⟨final, ran⟩ := run_exists step enabled state events
  exact always_iff_along_of_run step ok Inv P keeps exactly state final events start holds ran

/-- A run of named events is a run of the names. -/
theorem run_map (step : σ → δ → Option σ) (name : ε → δ) (state : σ) (events : List ε) :
    run step state (events.map name) =
      run (fun state event => step state (name event)) state events := by
  induction events generalizing state with
  | nil => rfl
  | cons event rest ih =>
    rw [List.map_cons, run, run]
    exact congrArg _ (funext ih)

/-- A run whose events can each be followed by an event of another system, with related
states before and after, is followed by a run of that system. The induction is on the
events. -/
theorem simulation_run (step : σ → ε → Option σ) (outer : τ → δ → Option τ) (name : ε → δ)
    (allowed : ε → Prop) (Rel : σ → τ → Prop)
    (follows : ∀ state event next within, allowed event → Rel state within →
      step state event = some next →
        ∃ after, outer within (name event) = some after ∧ Rel next after)
    (state final : σ) (within : τ) (events : List ε) (all : ∀ event ∈ events, allowed event)
    (related : Rel state within) (ran : run step state events = some final) :
    ∃ last, run outer within (events.map name) = some last ∧ Rel final last := by
  induction events generalizing state within with
  | nil =>
    obtain rfl := Option.some.inj ran
    exact ⟨within, rfl, related⟩
  | cons event rest ih =>
    obtain ⟨next, taken, remaining⟩ := (run_cons_iff step state final event rest).mp ran
    obtain ⟨after, moved, still⟩ :=
      follows state event next within (all event List.mem_cons_self) related taken
    obtain ⟨last, followed, done⟩ := ih next after
      (fun other member => all other (List.mem_cons_of_mem _ member)) still remaining
    exact ⟨last, (run_cons_iff outer within last (name event) _).mpr ⟨after, moved, followed⟩,
      done⟩

end Stm32Ecu.Runs
