import Mathlib.Data.List.Basic

/-!
# The autonomous state and its indication

Requests change the autonomous state of the vehicle, the state of its indicator
and the green LED together. A request passes through two switches: the autonomous
state picks an indicator state, and the indicator state drives the LED. A value
outside the listed states ends in a default branch of the first.

The boot sequence turns the LED on by itself, before any request and without
either state changing. The LED therefore has two readings, and the law names both:
lit from boot until the first accepted request, and after that lit in an emergency.
-/

namespace Stm32Ecu

/-- `AutonomousState_en`, with any other value cast to it. -/
inductive AutonomousState where
  | off
  | ready
  | driving
  | emergency
  | finished
  | other (raw : Int)
deriving DecidableEq

/-- `ASSIState_en`, with any other value cast to it. -/
inductive AssiState where
  | off
  | yellowSolid
  | yellowFlash
  | blueSolid
  | blueFlash
  | other (raw : Int)
deriving DecidableEq

/-- An integer cast to the enumeration. -/
def AutonomousState.ofInt : Int → AutonomousState
  | 0 => .off
  | 1 => .ready
  | 2 => .driving
  | 3 => .emergency
  | 4 => .finished
  | raw => .other raw

/-- The two static states and the LED. -/
structure Indicators where
  autonomous : AutonomousState
  assi : AssiState
  ledGreen : Bool
deriving DecidableEq

/-- `BSP_ERROR_NONE`. -/
def bspErrorNone : Int := 0

namespace Indicators

/-- `BSP_LED_On(LED_GREEN)` with its status. -/
def bspLedOn (s : Indicators) : Int × Indicators := (bspErrorNone, { s with ledGreen := true })

/-- `BSP_LED_Off(LED_GREEN)` with its status. -/
def bspLedOff (s : Indicators) : Int × Indicators := (bspErrorNone, { s with ledGreen := false })

/-- `ASSIState::requestState`. -/
def requestAssiState (state : AssiState) (s : Indicators) : Bool × Indicators :=
  let (conditionOk, s) := match state with
    | .off => (bspErrorNone == s.bspLedOff.1, s.bspLedOff.2)
    | .yellowSolid => (bspErrorNone == s.bspLedOff.1, s.bspLedOff.2)
    | .yellowFlash => (bspErrorNone == s.bspLedOff.1, s.bspLedOff.2)
    | .blueFlash => (bspErrorNone == s.bspLedOn.1, s.bspLedOn.2)
    | .blueSolid => (bspErrorNone == s.bspLedOff.1, s.bspLedOff.2)
    | .other _ => (false, s)
  if conditionOk then (true, { s with assi := state }) else (false, s)

/-- `AutonomousState::requestState`. -/
def requestState (state : AutonomousState) (s : Indicators) : Bool × Indicators :=
  let (assiChangeStateOk, s) := match state with
    | .off => s.requestAssiState .off
    | .ready => s.requestAssiState .yellowSolid
    | .driving => s.requestAssiState .yellowFlash
    | .emergency => s.requestAssiState .blueFlash
    | .finished => s.requestAssiState .blueSolid
    | .other _ => (false, s)
  if assiChangeStateOk then (true, { s with autonomous := state }) else (false, s)

/-- The request that the routine `print_state` makes: it toggles the emergency. -/
def printState (s : Indicators) : Bool × Indicators :=
  if s.autonomous ≠ .emergency then s.requestState .emergency else s.requestState .off

/-- What `system_run` leaves: both static states off, and the LED initialised to
off and then turned on. -/
def boot : Indicators :=
  (bspLedOn (bspLedOff ⟨.off, .off, false⟩).2).2

end Indicators

/-- A request with any integer, or a run of `print_state`. -/
inductive StateRequest where
  | requestState (raw : Int)
  | printState
deriving DecidableEq

namespace Indicators

/-- One request and its return value. -/
def perform (s : Indicators) : StateRequest → Bool × Indicators
  | .requestState raw => s.requestState (.ofInt raw)
  | .printState => s.printState

/-- The indicators after some requests, and whether one of them was accepted. -/
def after (requests : List StateRequest) : Indicators × Bool :=
  requests.foldl (fun reached request =>
    ((reached.1.perform request).2, reached.2 || (reached.1.perform request).1)) (boot, false)

/-- The indicator state that each listed autonomous state calls for. -/
def indication : AutonomousState → Option AssiState
  | .off => some .off
  | .ready => some .yellowSolid
  | .driving => some .yellowFlash
  | .emergency => some .blueFlash
  | .finished => some .blueSolid
  | .other _ => none

/-- A listed state is accepted: both states change, and the LED is lit for the
emergency only. Any other value is refused and nothing changes. -/
theorem requestState_cases (state : AutonomousState) (s : Indicators) :
    (∃ assi, indication state = some assi ∧
        s.requestState state = (true, ⟨state, assi, state == .emergency⟩)) ∨
      indication state = none ∧ s.requestState state = (false, s) := by
  cases state with
  | off => exact Or.inl ⟨.off, rfl, rfl⟩
  | ready => exact Or.inl ⟨.yellowSolid, rfl, rfl⟩
  | driving => exact Or.inl ⟨.yellowFlash, rfl, rfl⟩
  | emergency => exact Or.inl ⟨.blueFlash, rfl, rfl⟩
  | finished => exact Or.inl ⟨.blueSolid, rfl, rfl⟩
  | other raw => exact Or.inr ⟨rfl, rfl⟩

/-- Every request is one for some state, those of `print_state` included. -/
theorem perform_eq (s : Indicators) (request : StateRequest) :
    ∃ state, s.perform request = s.requestState state := by
  cases request with
  | requestState raw => exact ⟨_, rfl⟩
  | printState =>
    simp only [perform, printState]
    split
    · exact ⟨_, rfl⟩
    · exact ⟨_, rfl⟩

/-- The states agree, and the LED is lit in an emergency or before any request was
accepted. -/
structure Agreed (s : Indicators) (accepted : Bool) : Prop where
  indicated : indication s.autonomous = some s.assi
  lit : s.ledGreen = true ↔ s.autonomous = .emergency ∨ accepted = false

theorem boot_agreed : boot.Agreed false := by
  constructor <;> decide

/-- Every request keeps the agreement, and a refused one changes nothing. -/
theorem agreed_step {s : Indicators} {accepted : Bool} (agreed : s.Agreed accepted)
    (request : StateRequest) :
    (s.perform request).2.Agreed (accepted || (s.perform request).1) ∧
      ((s.perform request).1 = false → (s.perform request).2 = s) := by
  obtain ⟨state, same⟩ := perform_eq s request
  rcases requestState_cases state s with ⟨assi, listed, taken⟩ | ⟨_, refused⟩
  · rw [same, taken]
    refine ⟨⟨listed, ?_⟩, nofun⟩
    simp
  · rw [same, refused]
    refine ⟨?_, fun _ => rfl⟩
    simpa using agreed

/-- The agreement holds after any requests. -/
theorem agreed_after (requests : List StateRequest) :
    (after requests).1.Agreed (after requests).2 := by
  unfold after
  refine List.foldlRecOn (motive := fun reached : Indicators × Bool => reached.1.Agreed reached.2)
    requests _ ?_ ?_
  · exact boot_agreed
  · intro reached agreed request _
    exact (agreed_step agreed request).1

/-- After any requests since boot, the indicator state is the one the autonomous
state calls for; the LED is lit exactly in an emergency or while no request has
been accepted; and a request that is refused changes nothing. -/
theorem indication_agrees_since_boot (requests : List StateRequest) :
    indication (after requests).1.autonomous = some (after requests).1.assi ∧
      ((after requests).1.ledGreen = true ↔
        (after requests).1.autonomous = .emergency ∨ (after requests).2 = false) ∧
      ∀ request, ((after requests).1.perform request).1 = false →
        ((after requests).1.perform request).2 = (after requests).1 := by
  have agreed := agreed_after requests
  exact ⟨agreed.indicated, agreed.lit, fun request => (agreed_step agreed request).2⟩

/-- The LED is not tied to the emergency from the start: boot leaves it lit while
the autonomous state is off. -/
theorem boot_led_lit :
    ¬ ∀ requests : List StateRequest,
      indication (after requests).1.autonomous = some (after requests).1.assi ∧
        ((after requests).1.ledGreen = true ↔ (after requests).1.autonomous = .emergency) ∧
        ∀ request, ((after requests).1.perform request).1 = false →
          ((after requests).1.perform request).2 = (after requests).1 := by
  intro law
  exact absurd (law []).2.1 (by decide)

end Indicators

end Stm32Ecu
