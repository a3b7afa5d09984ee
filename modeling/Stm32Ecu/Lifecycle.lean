import Mathlib.Logic.Function.Basic
import Stm32Ecu.Driver

/-!
# The life of the remote device

The kernel binds a device to the driver by `rpmsg_sample_probe` and takes it away
by `rpmsg_sample_remove`, at any time between two calls of a user. The registry
below is the kernel's view: the phase of every device, and which one was probed
last. The driver's pointer follows the last probe and nothing else; no removal
clears it.

The three sending operations guard the pointer differently. A ping compares it
with null, a send and a write do not. The main result says for every history of
calls which next operation is safe: it follows the pointer and sends only while
the device behind it is bound, and returns without sending while none is.
-/

namespace Stm32Ecu

/-- A device is unknown to the driver, bound to it, or gone. -/
inductive Phase where
  | neverProbed
  | bound
  | removed
deriving DecidableEq

/-- The kernel's view: the device probed last, and the phase of each. -/
structure Registry where
  target : Option Device
  phase : Device → Phase

/-- One call of the kernel or of a user. -/
inductive LifeEvent where
  | probe (kernel : Kernel) (device : Device)
  | remove (device : Device)
  | write (kernel : Kernel) (buf : Nat → InterprocMsg) (len : Nat)
  | ioctl (kernel : Kernel) (cmd : IoctlCmd)

namespace Registry

/-- No device has been probed. -/
def initial : Registry := ⟨none, fun _ => .neverProbed⟩

/-- A successful probe binds its device and makes it the target; a removal changes
the phase of a bound device. User calls change nothing. -/
def note (registry : Registry) : LifeEvent → Registry
  | .probe kernel device =>
      if kernel.devmKzalloc then ⟨some device, Function.update registry.phase device .bound⟩
      else registry
  | .remove device =>
      if registry.phase device = .bound then
        { registry with phase := Function.update registry.phase device .removed }
      else registry
  | .write _ _ _ => registry
  | .ioctl _ _ => registry

/-- The registry after a history of calls. -/
def after (history : List LifeEvent) : Registry := history.foldl note initial

/-- The device probed last has not been removed since. -/
def TargetBound (registry : Registry) : Prop :=
  ∃ device, registry.target = some device ∧ registry.phase device = .bound

/-- No device is bound. -/
def NoneBound (registry : Registry) : Prop := ∀ device, registry.phase device ≠ .bound

end Registry

namespace LifeEvent

/-- What the driver does at a call. -/
def outcome (lib : Interproc) (s : Driver) : LifeEvent → Outcome
  | .probe kernel device => s.rpmsgSampleProbe kernel device
  | .remove device => s.rpmsgSampleRemove device
  | .write kernel buf len => s.ioctlWrite lib kernel buf len
  | .ioctl kernel cmd => s.ioctlCall lib kernel cmd

/-- The three sending operations. -/
def sends : LifeEvent → Bool
  | .write _ _ _ => true
  | .ioctl _ .pingRproc => true
  | .ioctl _ (.sendMsg _) => true
  | _ => false

end LifeEvent

namespace Driver

/-- The driver after a history of calls. An operation that faults kills its caller
and leaves the module in place. -/
def after (lib : Interproc) (history : List LifeEvent) : Driver :=
  history.foldl (fun s event => (event.outcome lib s).state) loaded

/-- The driver's pointer and the kernel's binding agree with the registry. -/
structure Agrees (s : Driver) (registry : Registry) : Prop where
  target : s.globalRprocRef = registry.target
  bound : ∀ device, device ∈ s.bound ↔ registry.phase device = .bound

/-- The loaded driver agrees with the empty registry. -/
theorem loaded_agrees : loaded.Agrees Registry.initial := by
  constructor <;> simp [loaded, Registry.initial]

/-- No ioctl touches the pointer or the bindings. -/
theorem ioctlCall_device (lib : Interproc) (kernel : Kernel) (cmd : IoctlCmd) (s : Driver) :
    (s.ioctlCall lib kernel cmd).state.globalRprocRef = s.globalRprocRef ∧
      (s.ioctlCall lib kernel cmd).state.bound = s.bound := by
  cases cmd with
  | pingRproc =>
    rcases ioctlPingRproc_cases lib kernel s with ⟨_, same⟩ | ⟨_, booked, _⟩
    · simp [ioctlCall, same]
    · simp [ioctlCall, booked, putSendType]
  | sendMsg arg =>
    rcases ioctlSendMsg_cases kernel arg s with ⟨_, same⟩ | booked
    · simp [ioctlCall, same]
    · rw [ioctlCall, booked]
      exact bookSendMsg_device kernel s
  | setState arg =>
    simp only [ioctlCall, ioctlSetState]
    split <;> exact ⟨rfl, rfl⟩
  | getState =>
    simp only [ioctlCall, ioctlGetState]
    split <;> exact ⟨rfl, rfl⟩
  | recvMsg id =>
    simp only [ioctlCall, ioctlRecvMsg]
    split
    · exact ⟨rfl, rfl⟩
    · split
      · exact ⟨rfl, rfl⟩
      · split <;> exact ⟨rfl, rfl⟩
  | reset => exact ⟨rfl, rfl⟩
  | offline => exact ⟨rfl, rfl⟩
  | unlisted cmd => exact ⟨rfl, rfl⟩

/-- Every call keeps the agreement. -/
theorem agrees_step (lib : Interproc) (s : Driver) (registry : Registry) (event : LifeEvent)
    (agree : s.Agrees registry) : (event.outcome lib s).state.Agrees (registry.note event) := by
  cases event with
  | probe kernel device =>
    cases memory : kernel.devmKzalloc with
    | false => simpa [LifeEvent.outcome, rpmsgSampleProbe, Registry.note, memory] using agree
    | true =>
      constructor
      · simp [LifeEvent.outcome, rpmsgSampleProbe, Registry.note, memory]
      · intro other
        by_cases same : other = device
        · simp [LifeEvent.outcome, rpmsgSampleProbe, Registry.note, memory, same]
        · simp [LifeEvent.outcome, rpmsgSampleProbe, Registry.note, memory, same, agree.bound]
  | remove device =>
    by_cases isBound : registry.phase device = .bound
    · constructor
      · simpa [LifeEvent.outcome, rpmsgSampleRemove, Registry.note, isBound] using agree.target
      · intro other
        by_cases same : other = device
        · simp [LifeEvent.outcome, rpmsgSampleRemove, Registry.note, isBound, same]
        · simp [LifeEvent.outcome, rpmsgSampleRemove, Registry.note, isBound, same, agree.bound]
    · constructor
      · simpa [LifeEvent.outcome, rpmsgSampleRemove, Registry.note, isBound] using agree.target
      · intro other
        by_cases same : other = device
        · simp [LifeEvent.outcome, rpmsgSampleRemove, Registry.note, isBound, same]
        · simp [LifeEvent.outcome, rpmsgSampleRemove, Registry.note, isBound, same, agree.bound]
  | write kernel buf len =>
    obtain ⟨types, state⟩ := ioctlWrite_frame lib kernel buf len s
    simp only [LifeEvent.outcome, state, Registry.note]
    exact ⟨agree.target, agree.bound⟩
  | ioctl kernel cmd =>
    obtain ⟨sameTarget, sameBound⟩ := ioctlCall_device lib kernel cmd s
    constructor
    · exact sameTarget.trans agree.target
    · intro device
      simp only [LifeEvent.outcome, sameBound, Registry.note]
      exact agree.bound device

/-- After every history the driver agrees with the registry. -/
theorem agrees_after (lib : Interproc) (history : List LifeEvent) :
    (after lib history).Agrees (Registry.after history) := by
  unfold after Registry.after
  apply List.foldl_rel
  · exact loaded_agrees
  · intro event _ s registry agree
    exact agrees_step lib s registry event agree

/-- The pointer can be followed exactly when the device probed last is bound. -/
theorem Agrees.rproc_iff {s : Driver} {registry : Registry} (agree : s.Agrees registry) :
    (∃ device, s.rproc = .ok device) ↔ registry.TargetBound := by
  unfold rproc Registry.TargetBound
  rw [← agree.target]
  cases s.globalRprocRef with
  | none => simp
  | some device =>
    by_cases isBound : device ∈ s.bound
    · simp [isBound, (agree.bound device).mp isBound]
    · have phase : registry.phase device ≠ .bound :=
        fun bound => isBound ((agree.bound device).mpr bound)
      simp [isBound, phase]

/-- No device is bound to the driver exactly when the registry has none. -/
theorem Agrees.unbound_iff {s : Driver} {registry : Registry} (agree : s.Agrees registry) :
    s.bound = [] ↔ registry.NoneBound := by
  rw [List.eq_nil_iff_forall_not_mem]
  exact forall_congr' fun device => not_congr (agree.bound device)

/-- The call follows the pointer and sends only while the device behind it is
bound, and while no device is bound it returns without sending. -/
structure Safe (lib : Interproc) (s : Driver) (event : LifeEvent) : Prop where
  follows : ∀ fault, (event.outcome lib s).ret = .error fault → fault = .nullBlock
  sends : (event.outcome lib s).sent ≠ [] → ∃ device, s.rproc = .ok device
  unbound : s.bound = [] →
    (event.outcome lib s).sent = [] ∧ ∃ ret, (event.outcome lib s).ret = .ok ret

end Driver

/-- What each call needs of the registry. A sending call needs the device probed
last to be bound, unless it ends before it follows the pointer: a ping while no
device was ever probed, a send that cannot copy its message, a write that does not
reach its first `rpmsg_send`. The latter must also not lack a block to copy to
while no device is bound. -/
def Registry.Guarded (lib : Interproc) (registry : Registry) : LifeEvent → Prop
  | .write kernel buf len => registry.TargetBound ∨
      ¬ Driver.ReachesLoop lib kernel buf len ∧
        (registry.NoneBound → ¬ (Driver.WholeMessages lib len ∧ kernel.vmalloc = false))
  | .ioctl _ .pingRproc => registry.TargetBound ∨ registry.target = none
  | .ioctl kernel (.sendMsg _) => registry.TargetBound ∨ kernel.copyFromUser = false
  | _ => True

namespace Driver

/-- While no device is bound the pointer cannot be followed. -/
theorem rproc_unbound (s : Driver) (unbound : s.bound = []) (device : Device) :
    s.rproc ≠ .ok device := by
  unfold rproc
  rw [unbound]
  cases s.globalRprocRef <;> simp

/-- A call that returns is safe while the pointer can be followed. -/
theorem safe_of_rproc (lib : Interproc) (s : Driver) (event : LifeEvent) (device : Device)
    (bound : s.rproc = .ok device)
    (returns : ∀ fault, (event.outcome lib s).ret = .error fault → fault = .nullBlock) :
    s.Safe lib event := by
  refine ⟨returns, fun _ => ⟨device, bound⟩, ?_⟩
  intro unbound
  exact absurd bound (rproc_unbound s unbound device)

/-- A call that returns without sending is safe. -/
theorem safe_of_silent (lib : Interproc) (s : Driver) (event : LifeEvent) (ret : Int)
    (returned : (event.outcome lib s).ret = .ok ret) (silent : (event.outcome lib s).sent = []) :
    s.Safe lib event := by
  refine ⟨?_, fun sent => absurd silent sent, fun _ => ⟨silent, ret, returned⟩⟩
  intro fault failed
  rw [returned] at failed
  cases failed

/-- A call that faults on the pointer is not safe. -/
theorem not_safe_of_rproc (lib : Interproc) (s : Driver) (event : LifeEvent) (fault : Fault)
    (failed : s.rproc = .error fault) (faults : (event.outcome lib s).ret = .error fault) :
    ¬ s.Safe lib event :=
  fun safe => rproc_error s fault failed (safe.follows fault faults)

/-- A write is safe exactly when the device is bound or the write ends early. -/
theorem write_safe_iff {s : Driver} {registry : Registry} (agree : s.Agrees registry)
    (lib : Interproc) (kernel : Kernel) (buf : Nat → InterprocMsg) (len : Nat) :
    s.Safe lib (.write kernel buf len) ↔ registry.Guarded lib (.write kernel buf len) := by
  simp only [Registry.Guarded, ← agree.rproc_iff, ← agree.unbound_iff]
  by_cases reached : ReachesLoop lib kernel buf len
  · obtain ⟨msg, rest, state, loops, sameRef⟩ := ioctlWrite_reached lib kernel buf len s reached
    cases target : s.rproc with
    | ok device =>
      rw [target] at sameRef
      obtain ⟨_, returned, _⟩ := sendLoop_exact lib kernel 0 (msg :: rest) state 0 device sameRef
      have safe : s.Safe lib (.write kernel buf len) := by
        apply safe_of_rproc lib s _ device target
        intro fault failed
        rw [LifeEvent.outcome, loops, returned] at failed
        cases failed
      simp [safe]
    | error fault =>
      rw [target] at sameRef
      have faulty : ¬ s.Safe lib (.write kernel buf len) := by
        apply not_safe_of_rproc lib s _ fault target
        simp only [LifeEvent.outcome, loops, sendLoop, sameRef]
      simp [faulty, reached]
  · obtain ⟨silent, ⟨whole, short, faults⟩ | ⟨block, returned⟩⟩ :=
      ioctlWrite_unreached lib kernel buf len s reached
    · constructor
      · intro safe
        refine Or.inr ⟨reached, ?_⟩
        intro unbound
        obtain ⟨_, ret, returned⟩ := safe.unbound unbound
        rw [LifeEvent.outcome, faults] at returned
        cases returned
      · intro guarded
        refine ⟨?_, fun sent => absurd silent sent, ?_⟩
        · intro fault failed
          rw [LifeEvent.outcome, faults] at failed
          exact (Except.error.inj failed).symm
        · intro unbound
          rcases guarded with ⟨device, bound⟩ | ⟨_, block⟩
          · exact absurd bound (rproc_unbound s unbound device)
          · exact absurd ⟨whole, short⟩ (block unbound)
    · have safe : s.Safe lib (.write kernel buf len) :=
        safe_of_silent lib s _ 0 returned silent
      simp [safe, reached, block]

/-- A ping is safe exactly when the device is bound or none was ever probed. -/
theorem ping_safe_iff {s : Driver} {registry : Registry} (agree : s.Agrees registry)
    (lib : Interproc) (kernel : Kernel) :
    s.Safe lib (.ioctl kernel .pingRproc) ↔ registry.Guarded lib (.ioctl kernel .pingRproc) := by
  simp only [Registry.Guarded, ← agree.rproc_iff, ← agree.target]
  cases ref : s.globalRprocRef with
  | none =>
    have safe : s.Safe lib (.ioctl kernel .pingRproc) := by
      apply safe_of_silent lib s _ (-EINVAL) <;>
        simp [LifeEvent.outcome, ioctlCall, ioctlPingRproc, ref]
    simp [safe]
  | some present =>
    cases target : s.rproc with
    | ok device =>
      have safe : s.Safe lib (.ioctl kernel .pingRproc) := by
        apply safe_of_rproc lib s _ device target
        intro fault failed
        simp only [LifeEvent.outcome, ioctlCall, ioctlPingRproc, ref, target] at failed
        split at failed
        · cases failed
        · split at failed
          · cases failed
          · split at failed <;> cases failed
      simp [safe]
    | error fault =>
      have faulty : ¬ s.Safe lib (.ioctl kernel .pingRproc) := by
        apply not_safe_of_rproc lib s _ fault target
        simp only [LifeEvent.outcome, ioctlCall, ioctlPingRproc, ref, target]
      simp [faulty]

/-- A send is safe exactly when the device is bound or its message is not copied. -/
theorem send_safe_iff {s : Driver} {registry : Registry} (agree : s.Agrees registry)
    (lib : Interproc) (kernel : Kernel) (arg : InterprocMsg) :
    s.Safe lib (.ioctl kernel (.sendMsg arg)) ↔
      registry.Guarded lib (.ioctl kernel (.sendMsg arg)) := by
  simp only [Registry.Guarded, ← agree.rproc_iff]
  cases copies : kernel.copyFromUser with
  | false =>
    have safe : s.Safe lib (.ioctl kernel (.sendMsg arg)) := by
      apply safe_of_silent lib s _ (-EINVAL) <;>
        simp [LifeEvent.outcome, ioctlCall, ioctlSendMsg, copies]
    simp [safe]
  | true =>
    cases target : s.rproc with
    | ok device =>
      have safe : s.Safe lib (.ioctl kernel (.sendMsg arg)) := by
        apply safe_of_rproc lib s _ device target
        intro fault failed
        simp only [LifeEvent.outcome, ioctlCall, ioctlSendMsg, copies, target] at failed
        split at failed
        · cases failed
        · split at failed
          · cases failed
          · obtain ⟨ret, returned⟩ := bookSendMsg_ret kernel s
            rw [returned] at failed
            cases failed
      simp [safe]
    | error fault =>
      have faulty : ¬ s.Safe lib (.ioctl kernel (.sendMsg arg)) := by
        apply not_safe_of_rproc lib s _ fault target
        simp [LifeEvent.outcome, ioctlCall, ioctlSendMsg, copies, target]
      simp [faulty]

/-- Calls other than the three sending operations return and send nothing. -/
theorem quiet_call (lib : Interproc) (s : Driver) (event : LifeEvent)
    (quiet : event.sends = false) :
    ∃ ret, (event.outcome lib s).ret = .ok ret ∧ (event.outcome lib s).sent = [] := by
  cases event with
  | probe kernel device =>
    simp only [LifeEvent.outcome, rpmsgSampleProbe]
    split <;> exact ⟨_, rfl, rfl⟩
  | remove device => exact ⟨0, rfl, rfl⟩
  | write kernel buf len => cases quiet
  | ioctl kernel cmd =>
    cases cmd with
    | pingRproc => cases quiet
    | sendMsg arg => cases quiet
    | reset => exact ⟨0, rfl, rfl⟩
    | offline => exact ⟨0, rfl, rfl⟩
    | unlisted cmd => exact ⟨0, rfl, rfl⟩
    | setState arg =>
      simp only [LifeEvent.outcome, ioctlCall, ioctlSetState]
      split <;> exact ⟨_, rfl, rfl⟩
    | getState =>
      simp only [LifeEvent.outcome, ioctlCall, ioctlGetState]
      split <;> exact ⟨_, rfl, rfl⟩
    | recvMsg id =>
      simp only [LifeEvent.outcome, ioctlCall, ioctlRecvMsg]
      split
      · exact ⟨_, rfl, rfl⟩
      · split
        · exact ⟨_, rfl, rfl⟩
        · split <;> exact ⟨_, rfl, rfl⟩

/-- In a state that agrees with the registry, a call is safe exactly when it is
guarded. -/
theorem safe_iff {s : Driver} {registry : Registry} (agree : s.Agrees registry)
    (lib : Interproc) (event : LifeEvent) :
    s.Safe lib event ↔ registry.Guarded lib event := by
  cases sends : event.sends with
  | false =>
    obtain ⟨ret, returned, silent⟩ := quiet_call lib s event sends
    refine iff_of_true (safe_of_silent lib s event ret returned silent) ?_
    unfold Registry.Guarded
    split
    · cases sends
    · cases sends
    · cases sends
    · trivial
  | true =>
    cases event with
    | write kernel buf len => exact write_safe_iff agree lib kernel buf len
    | ioctl kernel cmd =>
      cases cmd with
      | pingRproc => exact ping_safe_iff agree lib kernel
      | sendMsg arg => exact send_safe_iff agree lib kernel arg
      | _ => cases sends
    | _ => cases sends

/-- Take any order of probes, removals, writes and ioctls. Every call of it is safe
if and only if every call of it is guarded by the probes and removals before it. -/
theorem calls_safe_iff_guarded (lib : Interproc) (events : List LifeEvent) :
    (∀ (k : Nat) (event : LifeEvent), events[k]? = some event →
        (after lib (events.take k)).Safe lib event) ↔
      ∀ (k : Nat) (event : LifeEvent), events[k]? = some event →
        (Registry.after (events.take k)).Guarded lib event := by
  constructor
  · intro safe k event found
    exact (safe_iff (agrees_after lib (events.take k)) lib event).mp (safe k event found)
  · intro guarded k event found
    exact (safe_iff (agrees_after lib (events.take k)) lib event).mpr (guarded k event found)

/-- A device comes and goes, and a message is sent. -/
def sendAfterRemove : List LifeEvent :=
  [.probe {} 0, .remove 0, .ioctl {} (.sendMsg ⟨.ping, Data.zero, 0⟩)]

/-- Calls are not always safe: this send follows the pointer to a removed device. -/
theorem send_after_remove_faults :
    ¬ ∀ (lib : Interproc) (events : List LifeEvent) (k : Nat) (event : LifeEvent),
      events[k]? = some event → (after lib (events.take k)).Safe lib event := by
  intro law
  have safe := law crc32Interproc sendAfterRemove 2 _ rfl
  cases safe.follows (.useAfterRemove 0) rfl

end Driver

end Stm32Ecu
