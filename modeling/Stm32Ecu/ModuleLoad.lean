import Stm32Ecu.Runs
import Mathlib.Data.Finset.Insert
import Mathlib.Data.Finset.Erase

/-!
# Loading and unloading the module

`stm32ecu_init` registers five things with the kernel, one after another, and has a
ladder of two labels for the failures; `stm32ecu_exit` undoes a successful load. The
registries below are the set of what is held. A release of something that is not held is
recorded, for it touches a registration of somebody else or none.

No path of either function gives back the character device, and a driver that cannot be
registered leaves everything behind. The law over all runs says exactly which steps keep
an unloaded module without registrations.

What the exit function does to the driver's memory is modelled with the driver.
-/

namespace Stm32Ecu

open Runs

/-- What the module registers. -/
inductive Resource where
  | chrdevRegion
  | cdev
  | deviceClass
  | deviceNode
  | rpmsgDriver
deriving DecidableEq

/-- The resources held, and those released while they were not. -/
structure Registrations where
  held : Finset Resource
  stray : List Resource
deriving DecidableEq

namespace Registrations

/-- A registration that succeeded. -/
def acquire (r : Registrations) (resource : Resource) : Registrations :=
  { r with held := insert resource r.held }

/-- A release; of what is not registered, it is noted as stray. -/
def release (r : Registrations) (resource : Resource) : Registrations where
  held := r.held.erase resource
  stray := if resource ∈ r.held then r.stray else r.stray ++ [resource]

end Registrations

/-- What a call that creates an object returns. The kernel reports failures by an error
pointer; the module compares with `NULL`. -/
inductive PtrResult where
  | valid
  | null
  | errPtr
deriving DecidableEq

/-- What the acquisition calls of one attempt return. `device_create` is the result for a
valid class. -/
structure InitCalls where
  allocChrdevRegion : Int
  cdevAdd : Int
  classCreate : PtrResult
  deviceCreate : PtrResult
  registerRpmsgDriver : Int

/-- `device_create` refuses a class that is not valid. -/
def InitCalls.myDevice (calls : InitCalls) : PtrResult :=
  if calls.classCreate = .valid then calls.deviceCreate else .errPtr

/-- The last three calls get through. -/
def InitCalls.Passes (calls : InitCalls) : Prop :=
  calls.classCreate ≠ .null ∧ calls.myDevice ≠ .null ∧ 0 ≤ calls.registerRpmsgDriver

/-- The label `r_class`. -/
def rClass (r : Registrations) : Int × Registrations := (-1, r.release .chrdevRegion)

/-- The label `r_device`, which falls through to `r_class`. -/
def rDevice (r : Registrations) : Int × Registrations := rClass (r.release .deviceClass)

/-- `stm32ecu_init` from `class_create` on. -/
def createAndRegister (calls : InitCalls) (r : Registrations) : Int × Registrations :=
  if calls.classCreate = .null then rClass r
  else
    let r := if calls.classCreate = .valid then r.acquire .deviceClass else r
    if calls.myDevice = .null then rDevice r
    else
      let r := if calls.myDevice = .valid then r.acquire .deviceNode else r
      if calls.registerRpmsgDriver < 0 then (-1, r) else (0, r.acquire .rpmsgDriver)

/-- `stm32ecu_init`. -/
def stm32ecuInit (calls : InitCalls) (r : Registrations) : Int × Registrations :=
  if calls.allocChrdevRegion < 0 then (-1, r)
  else
    let r := r.acquire .chrdevRegion
    if calls.cdevAdd < 0 then rClass r else createAndRegister calls (r.acquire .cdev)

/-- `stm32ecu_exit`, as far as registrations go. -/
def stm32ecuExit (r : Registrations) : Registrations :=
  (((r.release .deviceNode).release .deviceClass).release .chrdevRegion).release .rpmsgDriver

/-- The registrations and whether the module is loaded. -/
structure KernelModule where
  registrations : Registrations
  loaded : Bool
deriving DecidableEq

/-- The module is loaded, with the results of the registrations, or unloaded. -/
inductive ModuleEvent where
  | init (calls : InitCalls)
  | exit

namespace KernelModule

/-- Nothing is registered and the module is not loaded. -/
def initial : KernelModule := ⟨⟨∅, []⟩, false⟩

/-- The kernel calls the init function of a module that is not loaded, and the exit
function of one whose init function has returned zero. -/
def step (m : KernelModule) : ModuleEvent → Option KernelModule
  | .init calls =>
      if m.loaded then none
      else
        let (status, registrations) := stm32ecuInit calls m.registrations
        some ⟨registrations, status = 0⟩
  | .exit => if m.loaded then some ⟨stm32ecuExit m.registrations, false⟩ else none

/-- Nothing is held while the module is not loaded, and nothing was released that was not
held. -/
def Clean (m : KernelModule) : Prop :=
  (m.loaded = false → m.registrations.held = ∅) ∧ m.registrations.stray = []

instance (m : KernelModule) : Decidable m.Clean := inferInstanceAs (Decidable (_ ∧ _))

/-- An attempt that fails in one of the first two calls, or that gets through all of them. -/
def Covered (_ : KernelModule) : ModuleEvent → Prop
  | .init calls =>
      calls.allocChrdevRegion < 0 ∨ calls.cdevAdd < 0 ∨ calls.Passes
  | .exit => False

/-- A loaded module holds its character device. -/
def DeviceHeld (m : KernelModule) : Prop := m.loaded = true → .cdev ∈ m.registrations.held

end KernelModule

namespace Registrations

/-- What is held after a registration. -/
@[simp] theorem mem_acquire (r : Registrations) (one other : Resource) :
    one ∈ (r.acquire other).held ↔ one = other ∨ one ∈ r.held := Finset.mem_insert

/-- What is held after a release. -/
@[simp] theorem mem_release (r : Registrations) (one other : Resource) :
    one ∈ (r.release other).held ↔ one ≠ other ∧ one ∈ r.held := Finset.mem_erase

/-- A registration releases nothing. -/
@[simp] theorem stray_acquire (r : Registrations) (resource : Resource) :
    (r.acquire resource).stray = r.stray := rfl

end Registrations

/-- From `class_create` on the character device stays, whichever way the attempt goes. It
succeeds exactly when the three calls get through, and then without a release. -/
theorem createAndRegister_cases (calls : InitCalls) (r : Registrations) (device : .cdev ∈ r.held) :
    .cdev ∈ (createAndRegister calls r).2.held ∧
      ((¬calls.Passes ∧ (createAndRegister calls r).1 = -1) ∨
        (calls.Passes ∧ (createAndRegister calls r).1 = 0 ∧
          (createAndRegister calls r).2.stray = r.stray)) := by
  simp only [createAndRegister, InitCalls.Passes]
  by_cases noClass : calls.classCreate = .null
  · simp [noClass, rClass, device]
  by_cases noDevice : calls.myDevice = .null
  · by_cases valid : calls.classCreate = .valid
    · simp [noDevice, valid, rDevice, rClass, device]
    · simp [noClass, noDevice, valid, rDevice, rClass, device]
  -- an error pointer only means that the object is not there
  have kept : ∀ now : Registrations,
      now = (if calls.myDevice = .valid then
        (if calls.classCreate = .valid then r.acquire .deviceClass else r).acquire .deviceNode
        else if calls.classCreate = .valid then r.acquire .deviceClass else r) →
      .cdev ∈ now.held ∧ now.stray = r.stray := by
    rintro now rfl
    split <;> split <;> simp [device]
  obtain ⟨still, quiet⟩ := kept _ rfl
  by_cases refused : calls.registerRpmsgDriver < 0
  · have failed : ¬0 ≤ calls.registerRpmsgDriver := by omega
    simp only [noClass, noDevice, refused, failed, ↓reduceIte, and_false, not_false_eq_true,
      false_and, or_false, and_true]
    exact still
  · have passed : 0 ≤ calls.registerRpmsgDriver := by omega
    simp only [noClass, noDevice, refused, passed, ↓reduceIte, not_false_eq_true, ne_eq, and_self,
      not_true_eq_false, false_and, true_and, false_or]
    exact ⟨(Registrations.mem_acquire _ _ _).mpr (.inr still), quiet⟩

/-- An attempt fails at once, undoes its only registration, or goes on with the character
device added. -/
theorem stm32ecuInit_cases (calls : InitCalls) (r : Registrations) :
    (calls.allocChrdevRegion < 0 ∧ stm32ecuInit calls r = (-1, r)) ∨
      (calls.cdevAdd < 0 ∧
        stm32ecuInit calls r = (-1, (r.acquire .chrdevRegion).release .chrdevRegion)) ∨
      (¬calls.allocChrdevRegion < 0 ∧ ¬calls.cdevAdd < 0 ∧
        stm32ecuInit calls r =
          createAndRegister calls ((r.acquire .chrdevRegion).acquire .cdev)) := by
  by_cases region : calls.allocChrdevRegion < 0
  · exact .inl ⟨region, if_pos region⟩
  · by_cases added : calls.cdevAdd < 0
    · exact .inr (.inl ⟨added, by simp only [stm32ecuInit, region, added, ↓reduceIte, rClass]⟩)
    · exact .inr (.inr ⟨region, added, by simp only [stm32ecuInit, region, added, ↓reduceIte]⟩)

namespace KernelModule

/-- All that a step can be. -/
theorem step_cases (m next : KernelModule) (event : ModuleEvent)
    (taken : m.step event = some next) :
    (∃ calls, event = .init calls ∧ m.loaded = false ∧
        next.registrations = (stm32ecuInit calls m.registrations).2 ∧
        (next.loaded = true ↔ (stm32ecuInit calls m.registrations).1 = 0)) ∨
      (event = .exit ∧ m.loaded = true ∧ next = ⟨stm32ecuExit m.registrations, false⟩) := by
  cases event with
  | init calls =>
    obtain ⟨unloaded, reached⟩ := Option.ite_none_left_eq_some.mp taken
    obtain rfl := Option.some.inj reached
    exact .inl ⟨calls, rfl, Bool.eq_false_iff.mpr unloaded, rfl, decide_eq_true_iff⟩
  | exit =>
    obtain ⟨loaded, reached⟩ := Option.ite_none_right_eq_some.mp taken
    exact .inr ⟨rfl, loaded, (Option.some.inj reached).symm⟩

/-- After every step, a module that is loaded holds its character device. -/
theorem step_deviceHeld (m next : KernelModule) (event : ModuleEvent)
    (taken : m.step event = some next) : next.DeviceHeld := by
  intro loaded
  rcases step_cases m next event taken with ⟨calls, rfl, _, registrations, status⟩ | ⟨_, _, rfl⟩
  · have returned := status.mp loaded
    rw [registrations]
    rcases stm32ecuInit_cases calls m.registrations with
      ⟨_, result⟩ | ⟨_, result⟩ | ⟨_, _, result⟩
    · simp [result] at returned
    · simp [result] at returned
    · rw [result]
      exact (createAndRegister_cases calls _ (by simp)).1
  · exact absurd loaded Bool.false_ne_true

/-- A module that is not loaded and holds its character device is not clean. -/
theorem not_clean_of_device (m : KernelModule) (unloaded : m.loaded = false)
    (device : .cdev ∈ m.registrations.held) : ¬m.Clean := by
  intro clean
  rw [clean.1 unloaded] at device
  exact absurd device (by simp)

/-- One step keeps a clean module clean exactly when it is one of the covered ones. -/
theorem step_clean_iff (m next : KernelModule) (event : ModuleEvent) (device : m.DeviceHeld)
    (clean : m.Clean) (taken : m.step event = some next) : next.Clean ↔ m.Covered event := by
  rcases step_cases m next event taken with
    ⟨calls, rfl, unloaded, registrations, status⟩ | ⟨rfl, loaded, rfl⟩
  · have nothing := clean.1 unloaded
    rcases stm32ecuInit_cases calls m.registrations with
      ⟨region, result⟩ | ⟨added, result⟩ | ⟨region, added, result⟩
    · rw [result] at registrations
      refine iff_of_true ⟨fun _ => ?_, ?_⟩ (.inl region)
      · rw [registrations, nothing]
      · rw [registrations, clean.2]
    · rw [result] at registrations
      refine iff_of_true ⟨fun _ => ?_, ?_⟩ (.inr (.inl added))
      · rw [registrations]
        simp only [Registrations.acquire, Registrations.release, nothing]
        rfl
      · rw [registrations]
        simp [Registrations.acquire, Registrations.release, clean.2]
    · obtain ⟨held, ⟨stopped, returned⟩ | ⟨passes, returned, quiet⟩⟩ :=
        createAndRegister_cases calls ((m.registrations.acquire .chrdevRegion).acquire .cdev)
          (by simp)
      · refine iff_of_false (not_clean_of_device next ?_ ?_) ?_
        · rw [result, returned] at status
          exact Bool.eq_false_iff.mpr fun loaded => absurd (status.mp loaded) (by decide)
        · rw [registrations, result]
          exact held
        · rintro (early | early | passes)
          · exact region early
          · exact added early
          · exact stopped passes
      · refine iff_of_true ⟨fun still => ?_, ?_⟩ (.inr (.inr passes))
        · rw [result] at status
          exact absurd (still.symm.trans (status.mpr returned)) (by decide)
        · rw [registrations, result, quiet]
          exact clean.2
  · refine iff_of_false (not_clean_of_device _ rfl ?_) id
    simpa [stm32ecuExit] using device loaded

/-- In every run from a module that was never loaded, nothing is held whenever it is not
loaded and no release is stray exactly when every attempt fails in its first two calls or
succeeds, and the module is never unloaded. -/
theorem registrations_released_iff (events : List ModuleEvent) (final : KernelModule)
    (ran : run step initial events = some final) :
    Always step Clean initial events ↔ Along step Covered initial events := by
  exact always_iff_along_of_run step Covered DeviceHeld Clean
    (fun m event next _ taken => step_deviceHeld m next event taken)
    (fun m event next device clean taken => step_clean_iff m next event device clean taken)
    initial final events (by simp [DeviceHeld, initial]) ⟨fun _ => rfl, rfl⟩ ran

/-- Every call succeeds. -/
def allPass : InitCalls := ⟨0, 0, .valid, .valid, 0⟩

/-- A failed attempt and a successful one. -/
theorem registrations_released_load :
    let events : List ModuleEvent := [.init { allPass with cdevAdd := -12 }, .init allPass]
    (run step initial events).isSome ∧ Always step Clean initial events := by
  refine ⟨by decide, (registrations_released_iff _ _ rfl).mpr ?_⟩
  refine along_cons step Covered _ _ _ _ rfl (.inr (.inl (by decide))) ?_
  refine along_cons step Covered _ _ _ _ rfl (.inr (.inr ⟨by decide, by decide, by decide⟩)) ?_
  trivial

/-- One load and one unload: the character device is left. A driver that cannot be
registered leaves everything else as well. -/
theorem device_left_behind :
    let load := ModuleEvent.init allPass
    let refused := ModuleEvent.init { allPass with registerRpmsgDriver := -16 }
    (run step initial [load, .exit] = some ⟨⟨{.cdev}, []⟩, false⟩ ∧
        ¬Always step Clean initial [load, .exit]) ∧
      (run step initial [refused] =
          some ⟨⟨{.deviceNode, .deviceClass, .cdev, .chrdevRegion}, []⟩, false⟩ ∧
        ¬Always step Clean initial [refused]) := by
  refine ⟨⟨rfl, ?_⟩, rfl, ?_⟩
  · intro always
    have clean : Clean ⟨⟨{.cdev}, []⟩, false⟩ := (always.2 _ rfl).2 _ rfl
    exact absurd clean (by decide)
  · intro always
    have clean : Clean ⟨⟨{.deviceNode, .deviceClass, .cdev, .chrdevRegion}, []⟩, false⟩ :=
      always.2 _ rfl
    exact absurd clean (by decide)

end KernelModule

end Stm32Ecu
