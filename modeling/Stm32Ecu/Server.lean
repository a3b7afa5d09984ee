import Mathlib.Logic.Function.Basic
import Stm32Ecu.Runs
import Stm32Ecu.Driver

/-!
# The handlers of the gRPC server

Six handlers share one descriptor. Each issues an `ioctl`, and when the result is
an error closes the descriptor and cancels its request; `sendMsg` issues a second
`ioctl` in a loop. `main` does the same at startup and then ends the process, but
a handler only ends its own request. The handlers run on a thread pool, so their
steps interleave in any way, and there is always a further request to come.

A step below is one system call of one request, with the value it returns. The
record of descriptor uses is kept beside the requests. The signal handler closes
the descriptor and exits; it is not part of these runs.
-/

namespace Stm32Ecu

open Runs

/-- The remote procedures of `EcuService` that use the descriptor. -/
inductive Rpc where
  | reset
  | offline
  | getState
  | setState
  | ping
  | sendMsg
deriving DecidableEq

/-- The requests given to `ioctl`. -/
inductive IoctlRequest where
  | reset
  | offline
  | getState
  | setState
  | pingRproc
  | sendMsg
  | recvMsg
deriving DecidableEq

/-- `::grpc::Status` as the handlers return it. -/
inductive GrpcStatus where
  | ok
  | cancelled
deriving DecidableEq

/-- One use of the shared descriptor. -/
inductive FdUse where
  | ioctl (request : IoctlRequest)
  | close
deriving DecidableEq

/-- Where a request stands: about to issue its first `ioctl`, in the loop of
`sendMsg` with its counter, about to close, or answered. -/
inductive RpcPc where
  | ready
  | receiving (loopCount : Nat)
  | closing
  | returned (status : GrpcStatus)
deriving DecidableEq

/-- The request a handler issues first. -/
def Rpc.request : Rpc → IoctlRequest
  | .reset => .reset
  | .offline => .offline
  | .getState => .getState
  | .setState => .setState
  | .ping => .pingRproc
  | .sendMsg => .sendMsg

/-- What a handler does with the value of its first `ioctl`. -/
def Rpc.afterIoctl : Rpc → Int → RpcPc
  | .sendMsg, status =>
      if status = -EINVAL then .closing
      else if status < 0 then .closing
      else .receiving 0
  | _, status => if status = -1 then .closing else .returned .ok

/-- What `sendMsg` does with the value of `STM32ECU_RECV_MSG`: try again up to ten
times on `-EAGAIN`, close on any error, or answer. -/
def afterRecv (loopCount : Nat) (status : Int) : RpcPc :=
  if status = -EAGAIN ∧ loopCount < 10 then .receiving (loopCount + 1)
  else if status = -EINVAL then .closing
  else if status = -EAGAIN then .closing
  else if status < 0 then .closing
  else .returned .ok

/-- All requests, numbered, and the uses of the descriptor so far. -/
structure Server where
  pc : Nat → RpcPc
  uses : List FdUse

/-- One system call of one request. -/
inductive ServerEvent where
  | ioctl (call : Nat) (status : Int)
  | close (call : Nat)
deriving DecidableEq

namespace Server

/-- The descriptor is open and no request has begun. -/
def initial : Server := ⟨fun _ => .ready, []⟩

/-- One step. -/
def step (rpc : Nat → Rpc) (s : Server) : ServerEvent → Option Server
  | .ioctl call status =>
      match s.pc call with
      | .ready => some
          { pc := Function.update s.pc call ((rpc call).afterIoctl status)
            uses := s.uses ++ [.ioctl (rpc call).request] }
      | .receiving loopCount => some
          { pc := Function.update s.pc call (afterRecv loopCount status)
            uses := s.uses ++ [.ioctl .recvMsg] }
      | _ => none
  | .close call =>
      match s.pc call with
      | .closing => some
          { pc := Function.update s.pc call (.returned .cancelled)
            uses := s.uses ++ [.close] }
      | _ => none

/-- No use of the descriptor follows a close, so there is at most one close. -/
def Orderly (s : Server) : Prop :=
  ∀ k, s.uses[k]? = some .close → s.uses.length = k + 1

/-- The handler does not take the value of this `ioctl` for an error. -/
def Accepted (rpc : Nat → Rpc) (s : Server) : ServerEvent → Prop
  | .ioctl call status =>
      match s.pc call with
      | .ready => (rpc call).afterIoctl status ≠ .closing
      | .receiving loopCount => afterRecv loopCount status ≠ .closing
      | _ => True
  | .close _ => True

/-- Nobody has closed the descriptor or is about to. -/
structure Open (s : Server) : Prop where
  nobody : ∀ call, s.pc call ≠ .closing
  unclosed : .close ∉ s.uses

/-- The server starts with its descriptor open. -/
theorem initial_open : initial.Open := by
  constructor <;> simp [initial]

/-- What a step can do: it uses the descriptor, and moves one request on. -/
theorem step_cases {rpc : Nat → Rpc} {s next : Server} {event : ServerEvent}
    (taken : step rpc s event = some next) :
    ∃ call pc use, next = ⟨Function.update s.pc call pc, s.uses ++ [use]⟩ ∧
      (s.pc call = .closing ∧ event = .close call ∧ use = .close ∧ pc = .returned .cancelled ∨
        s.pc call ≠ .closing ∧ use ≠ .close ∧ (Accepted rpc s event ↔ pc ≠ .closing)) := by
  cases event with
  | ioctl call status =>
    simp only [step] at taken
    split at taken
    · rename_i stands
      refine ⟨call, _, _, (Option.some.inj taken).symm, Or.inr ⟨by simp [stands], by simp, ?_⟩⟩
      simp [Accepted, stands]
    · rename_i loopCount stands
      refine ⟨call, _, _, (Option.some.inj taken).symm, Or.inr ⟨by simp [stands], by simp, ?_⟩⟩
      simp [Accepted, stands]
    · cases taken
  | close call =>
    simp only [step] at taken
    split at taken
    · rename_i stands
      exact ⟨call, _, _, (Option.some.inj taken).symm, Or.inl ⟨stands, rfl, rfl, rfl⟩⟩
    · cases taken

/-- While no `ioctl` fails the descriptor stays open. -/
theorem open_step {rpc : Nat → Rpc} {s next : Server} {event : ServerEvent} (isOpen : s.Open)
    (accepted : Accepted rpc s event) (taken : step rpc s event = some next) : next.Open := by
  obtain ⟨call, pc, use, rfl, ⟨closing, _⟩ | ⟨_, notClose, iff⟩⟩ := step_cases taken
  · exact absurd closing (isOpen.nobody call)
  · constructor
    · intro other
      by_cases moved : other = call
      · subst moved
        simpa using iff.mp accepted
      · simpa [moved] using isOpen.nobody other
    · simpa [Ne.symm notClose] using isOpen.unclosed

/-- Once an `ioctl` has failed, the descriptor is closed or about to be. -/
theorem failed_step {rpc : Nat → Rpc} {s next : Server} {event : ServerEvent}
    (failed : ¬ Accepted rpc s event) (taken : step rpc s event = some next) : ¬ next.Open := by
  obtain ⟨call, pc, use, rfl, ⟨_, rfl, _⟩ | ⟨_, _, iff⟩⟩ := step_cases taken
  · exact absurd trivial failed
  · intro isOpen
    have closing : pc = .closing := by
      by_contra other
      exact failed (iff.mpr other)
    exact isOpen.nobody call (by simp [closing])

/-- A descriptor that is closed or about to be never comes back. -/
theorem doomed_step {rpc : Nat → Rpc} {s next : Server} {event : ServerEvent}
    (doomed : ¬ s.Open) (taken : step rpc s event = some next) : ¬ next.Open := by
  obtain ⟨call, pc, use, rfl, ⟨_, _, rfl, _⟩ | ⟨apart, _, _⟩⟩ := step_cases taken
  · intro isOpen
    exact isOpen.unclosed (by simp)
  · intro isOpen
    apply doomed
    constructor
    · intro other closing
      have different : other ≠ call := fun same => apart (same ▸ closing)
      exact isOpen.nobody other (by simp [different, closing])
    · intro closed
      exact isOpen.unclosed (List.mem_append_left _ closed)

/-- The same over a run. -/
theorem doomed_run {rpc : Nat → Rpc} {s final : Server} {events : List ServerEvent}
    (doomed : ¬ s.Open) (ran : run (step rpc) s events = some final) : ¬ final.Open := by
  refine invariant_run (step rpc) (fun _ _ => True) (fun s => ¬ s.Open) ?_ s final events doomed
    (along_of_forall _ _ s events (fun _ _ _ => trivial)) ran
  intro state event next holds _ taken
  exact doomed_step holds taken

/-- The descriptor is open after a run exactly when no `ioctl` of it failed. The
induction is on the events. -/
theorem open_run_iff {rpc : Nat → Rpc} {s final : Server} {events : List ServerEvent}
    (isOpen : s.Open) (ran : run (step rpc) s events = some final) :
    final.Open ↔ Along (step rpc) (Accepted rpc) s events := by
  constructor
  · intro finalOpen
    induction events generalizing s with
    | nil => trivial
    | cons event rest ih =>
      obtain ⟨next, taken, remaining⟩ := (run_cons_iff _ _ _ _ _).mp ran
      have nextOpen : next.Open := by
        by_contra doomed
        exact doomed_run doomed remaining finalOpen
      have accepted : Accepted rpc s event := by
        by_contra failed
        exact failed_step failed taken nextOpen
      exact along_cons _ _ _ _ _ _ taken accepted (ih nextOpen remaining)
  · intro accepted
    exact invariant_run (step rpc) (Accepted rpc) Open
      (fun _ _ _ holds allowed taken => open_step holds allowed taken) s final events isOpen
      accepted ran

/-- A run touches finitely many requests, so there is always one yet to begin. -/
theorem fresh_request {rpc : Nat → Rpc} {s : Server} {events : List ServerEvent}
    (ran : run (step rpc) initial events = some s) : ∃ call, s.pc call = .ready := by
  have beyond : ∃ bound, ∀ call, bound ≤ call → s.pc call = .ready := by
    refine invariant_run (step rpc) (fun _ _ => True)
      (fun s => ∃ bound, ∀ call, bound ≤ call → s.pc call = .ready) ?_ initial s events
      ⟨0, fun _ _ => rfl⟩ (along_of_forall _ _ _ events (fun _ _ _ => trivial)) ran
    rintro state event next ⟨bound, untouched⟩ _ taken
    obtain ⟨call, pc, use, rfl, _⟩ := step_cases taken
    refine ⟨max bound (call + 1), ?_⟩
    intro other above
    have apart : other ≠ call := by omega
    simpa [apart] using untouched other (by omega)
  obtain ⟨bound, untouched⟩ := beyond
  exact ⟨bound, untouched bound (Nat.le_refl bound)⟩

/-- Zero is a success to every handler. -/
theorem zero_accepted (rpc : Nat → Rpc) (s : Server) (call : Nat) (stands : s.pc call = .ready) :
    Accepted rpc s (.ioctl call 0) := by
  simp only [Accepted, stands]
  cases rpc call <;> decide

/-- After a close, the first `ioctl` of any further request is out of order. -/
theorem ioctl_after_close (rpc : Nat → Rpc) (s : Server) (fresh : Nat)
    (stands : s.pc fresh = .ready) (closed : .close ∈ s.uses) :
    ∃ t, step rpc s (.ioctl fresh 0) = some t ∧ ¬ t.Orderly := by
  refine ⟨_, by simp only [step, stands]; rfl, ?_⟩
  intro orderly
  obtain ⟨k, found⟩ := List.mem_iff_getElem?.mp closed
  have inside : k < s.uses.length := (List.getElem?_eq_some_iff.mp found).1
  have last := orderly k (by rw [List.getElem?_append_left inside]; exact found)
  rw [List.length_append, List.length_singleton] at last
  omega

/-- Take any run of the handlers. Whatever requests come after it, and however they
interleave, no use of the descriptor follows a close as long as further calls of
`ioctl` succeed, if and only if no `ioctl` of the run has failed. -/
theorem descriptor_orderly_iff_no_failure (rpc : Nat → Rpc) (events : List ServerEvent)
    (s : Server) (ran : run (step rpc) initial events = some s) :
    (∀ more t, run (step rpc) s more = some t → Along (step rpc) (Accepted rpc) s more →
        t.Orderly) ↔
      Along (step rpc) (Accepted rpc) initial events := by
  rw [← open_run_iff initial_open ran]
  constructor
  · intro orderly
    obtain ⟨fresh, stands⟩ := fresh_request ran
    have unclosed : .close ∉ s.uses := by
      intro closed
      obtain ⟨t, taken, disorderly⟩ := ioctl_after_close rpc s fresh stands closed
      apply disorderly
      refine orderly [.ioctl fresh 0] t ((run_cons_iff _ _ _ _ _).mpr ⟨t, taken, rfl⟩) ?_
      exact along_cons _ _ _ _ _ _ taken (zero_accepted rpc s fresh stands) trivial
    refine ⟨?_, unclosed⟩
    intro call closing
    -- The pending close is taken first, then the fresh request begins.
    have apart : fresh ≠ call := by
      rintro rfl
      rw [stands] at closing
      cases closing
    have closes : step rpc s (.close call) = some
        ⟨Function.update s.pc call (.returned .cancelled), s.uses ++ [.close]⟩ := by
      simp only [step, closing]
    have still : Function.update s.pc call (.returned .cancelled) fresh = .ready := by
      rw [Function.update_of_ne apart, stands]
    obtain ⟨t, taken, disorderly⟩ := ioctl_after_close rpc
      ⟨Function.update s.pc call (.returned .cancelled), s.uses ++ [.close]⟩ fresh still (by simp)
    apply disorderly
    refine orderly [.close call, .ioctl fresh 0] t ?_ ?_
    · exact (run_cons_iff _ _ _ _ _).mpr
        ⟨_, closes, (run_cons_iff _ _ _ _ _).mpr ⟨t, taken, rfl⟩⟩
    · exact along_cons _ _ _ _ _ _ closes trivial
        (along_cons _ _ _ _ _ _ taken (zero_accepted rpc _ fresh still) trivial)
  · intro isOpen more t continued accepted k closed
    have stillOpen := (open_run_iff isOpen continued).mpr accepted
    exact absurd (List.mem_of_getElem? closed) stillOpen.unclosed

/-- Every even request is a reset, every odd one sends a message. -/
def resetsAndSends (call : Nat) : Rpc := if call % 2 = 0 then .reset else .sendMsg

/-- A request that sends and a reset overlap and succeed. -/
def successfulRun : List ServerEvent := [.ioctl 1 0, .ioctl 0 0, .ioctl 1 0]

/-- The law at that run: whatever follows without failure is orderly. -/
theorem successful_run_orderly :
    ∃ s, run (step resetsAndSends) initial successfulRun = some s ∧
      ∀ more t, run (step resetsAndSends) s more = some t →
        Along (step resetsAndSends) (Accepted resetsAndSends) s more → t.Orderly := by
  refine ⟨_, rfl,
    (descriptor_orderly_iff_no_failure resetsAndSends successfulRun _ rfl).mpr ?_⟩
  refine along_cons _ _ _ _ _ _ rfl (zero_accepted _ _ _ rfl) ?_
  refine along_cons _ _ _ _ _ _ rfl (zero_accepted _ _ _ rfl) ?_
  refine along_cons _ _ _ _ _ _ rfl ?_ trivial
  exact (by decide : afterRecv 0 0 ≠ .closing)

/-- A failure makes later requests act on a closed descriptor: a reset fails and
closes it, and the next request issues its `ioctl` all the same. -/
theorem failed_reset_then_ioctl :
    ¬ ∀ (rpc : Nat → Rpc) (events : List ServerEvent) (s : Server),
      run (step rpc) initial events = some s → s.Orderly := by
  intro law
  have orderly := law resetsAndSends [.ioctl 0 (-1), .close 0, .ioctl 1 0] _ rfl
  have last := orderly 1 rfl
  cases last

end Server

end Stm32Ecu
