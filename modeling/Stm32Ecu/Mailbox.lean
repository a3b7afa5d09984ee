import Stm32Ecu.Runs
import Stm32Ecu.RpmsgManager

/-!
# The mailbox of the M4

The A7 puts a message in `vring1` and raises channel 2. The interrupt sets a flag
and acknowledges the channel; the `linuxComms` task polls the flag, processes the
ring and then clears the flag. An interrupt may come between any two steps of the
task, so it may come after the last look at the ring and before the flag is
cleared. The clearing then wipes out the notice of a message nobody has seen.

As long as no interrupt with a message behind it falls in that window, a message
in the ring always has its interrupt pending or its flag set. The law is over
every interleaving of sends, interrupts and steps of the task.
-/

namespace Stm32Ecu

open Runs

/-- `MBOX_NO_MSG`, `MBOX_NEW_MSG`, `MBOX_BUF_FREE`. -/
inductive MboxFlag where
  | noMsg
  | newMsg
  | bufFree
deriving DecidableEq

/-- Where the task stands: the step of `runLinuxComms` or of `MAILBOX_Poll` that it
takes next. -/
inductive TaskPc where
  | testReceived
  | clearReceived
  | testCh1
  | notifyVring0
  | clearCh1
  | testCh2
  | processVring1
  | clearCh2
  | delay
deriving DecidableEq

/-- The task is inside `MAILBOX_Poll`. -/
def TaskPc.inPoll : TaskPc → Bool
  | .testReceived => false
  | .clearReceived => false
  | .delay => false
  | _ => true

/-- The ring, the two channels and the task. -/
structure Mailbox where
  vring1 : List InterprocMsg
  pendingCh1 : Bool
  pendingCh2 : Bool
  msgReceivedCh1 : MboxFlag
  msgReceivedCh2 : MboxFlag
  pc : TaskPc
  manager : RpmsgManager
  replies : List OpenampSend

/-- The A7 sends a message or frees a buffer, an interrupt is taken, or the task
takes its next step. -/
inductive MailboxEvent where
  | a7Sends (msg : InterprocMsg)
  | a7FreesBuffer
  | ipccChannel1
  | ipccChannel2
  | task

namespace Mailbox

/-- The task has created its endpoint and enters its loop. -/
def initial : Mailbox where
  vring1 := []
  pendingCh1 := false
  pendingCh2 := false
  msgReceivedCh1 := .noMsg
  msgReceivedCh2 := .noMsg
  pc := .testReceived
  manager := RpmsgManager.initial
  replies := []

/-- One step of the task. `rproc_virtio_notified` takes one message from the ring
at a time and returns when it finds none; returned transmit buffers on `vring0` do
not concern the receiving side. -/
def taskStep (lib : Interproc) (store : ParameterStore) (m : Mailbox) : Mailbox :=
  match m.pc with
  | .testReceived =>
      if m.manager.messageReceived then { m with pc := .clearReceived }
      else { m with pc := .testCh1 }
  | .clearReceived =>
      { m with manager := { m.manager with messageReceived := false }, pc := .testReceived }
  | .testCh1 =>
      if m.msgReceivedCh1 = .bufFree then { m with pc := .notifyVring0 }
      else { m with pc := .testCh2 }
  | .notifyVring0 => { m with pc := .clearCh1 }
  | .clearCh1 => { m with msgReceivedCh1 := .noMsg, pc := .testCh2 }
  | .testCh2 =>
      if m.msgReceivedCh2 = .newMsg then { m with pc := .processVring1 }
      else { m with pc := .delay }
  | .processVring1 =>
      match m.vring1 with
      | [] => { m with pc := .clearCh2 }
      | msg :: rest =>
          let (sent, manager) := m.manager.stm32ecuRecvCb lib store msg lib.sizeofMsg
          { m with vring1 := rest, manager := manager, replies := m.replies ++ sent }
  | .clearCh2 => { m with msgReceivedCh2 := .noMsg, pc := .delay }
  | .delay => { m with pc := .testReceived }

/-- One event. The A7 adds its message and raises the channel; an interrupt that is
pending may be taken at any time, sets its flag and frees the channel. -/
def step (lib : Interproc) (store : ParameterStore) (m : Mailbox) :
    MailboxEvent → Option Mailbox
  | .a7Sends msg => some { m with vring1 := m.vring1 ++ [msg], pendingCh2 := true }
  | .a7FreesBuffer => some { m with pendingCh1 := true }
  | .ipccChannel1 =>
      if m.pendingCh1 then some { m with msgReceivedCh1 := .bufFree, pendingCh1 := false }
      else none
  | .ipccChannel2 =>
      if m.pendingCh2 then some { m with msgReceivedCh2 := .newMsg, pendingCh2 := false }
      else none
  | .task => some (m.taskStep lib store)

/-- Outside the poll and with no interrupt pending, a message in the ring has its
flag set. -/
def Noticed (m : Mailbox) : Prop :=
  m.pc.inPoll = false → m.pendingCh2 = false → m.vring1 ≠ [] → m.msgReceivedCh2 = .newMsg

/-- No channel 2 interrupt with a message behind it is taken between the last look
at the ring and the clearing of the flag. -/
def WindowEmpty (m : Mailbox) : MailboxEvent → Prop
  | .ipccChannel2 => m.pc = .clearCh2 → m.vring1 = []
  | _ => True

instance (m : Mailbox) : ∀ event, Decidable (WindowEmpty m event)
  | .ipccChannel2 => inferInstanceAs (Decidable (_ → _))
  | .a7Sends _ => isTrue trivial
  | .a7FreesBuffer => isTrue trivial
  | .ipccChannel1 => isTrue trivial
  | .task => isTrue trivial

/-- A message in the ring has its interrupt pending, or its flag set and not about
to be cleared. -/
def Announced (m : Mailbox) : Prop :=
  m.vring1 ≠ [] → m.pendingCh2 = true ∨ m.msgReceivedCh2 = .newMsg ∧ m.pc ≠ .clearCh2

/-- A step of the task keeps messages announced. The flag is cleared only from a
state in which the announcement cannot rest on it. -/
theorem announced_task (lib : Interproc) (store : ParameterStore) (m : Mailbox)
    (announced : m.Announced) : (m.taskStep lib store).Announced := by
  unfold Announced at announced ⊢
  unfold taskStep
  cases stands : m.pc with
  | testReceived =>
    dsimp only
    split <;> simpa [stands] using announced
  | clearReceived => simpa [stands] using announced
  | testCh1 =>
    dsimp only
    split <;> simpa [stands] using announced
  | notifyVring0 => simpa [stands] using announced
  | clearCh1 => simpa [stands] using announced
  | testCh2 =>
    dsimp only
    split <;> simpa [stands] using announced
  | processVring1 =>
    cases ring : m.vring1 with
    | nil => simp
    | cons msg rest =>
      intro _
      simpa [ring, stands] using announced
  | clearCh2 =>
    intro holds
    rcases announced holds with pending | ⟨_, elsewhere⟩
    · exact Or.inl pending
    · exact absurd stands elsewhere
  | delay => simpa [stands] using announced

/-- Every event outside the window keeps messages announced. -/
theorem announced_step {lib : Interproc} {store : ParameterStore} {m next : Mailbox}
    {event : MailboxEvent} (announced : m.Announced) (window : WindowEmpty m event)
    (taken : step lib store m event = some next) : next.Announced := by
  cases event with
  | a7Sends msg =>
    obtain rfl := Option.some.inj taken
    exact fun _ => Or.inl rfl
  | a7FreesBuffer =>
    obtain rfl := Option.some.inj taken
    exact announced
  | ipccChannel1 =>
    simp only [step] at taken
    split at taken
    · obtain rfl := Option.some.inj taken
      exact announced
    · cases taken
  | ipccChannel2 =>
    simp only [step] at taken
    split at taken
    · obtain rfl := Option.some.inj taken
      intro holds
      exact Or.inr ⟨rfl, fun clearing => holds (window clearing)⟩
    · cases taken
  | task =>
    obtain rfl := Option.some.inj taken
    exact announced_task lib store m announced

/-- Left to itself, the task comes to the processing of the ring and empties it. -/
def PollEmpties (lib : Interproc) (store : ParameterStore) (m : Mailbox) : Prop :=
  ∃ steps after, run (step lib store) m (List.replicate steps .task) = some after ∧
    after.pc = .processVring1 ∧ after.vring1 = []

/-- What the task does after its next step, it does. -/
theorem PollEmpties.of_taskStep {lib : Interproc} {store : ParameterStore} {m : Mailbox}
    (later : (m.taskStep lib store).PollEmpties lib store) : m.PollEmpties lib store := by
  obtain ⟨steps, after, ran, processing, empty⟩ := later
  exact ⟨steps + 1, after, (run_cons_iff _ _ _ _ _).mpr ⟨_, rfl, ran⟩, processing, empty⟩

/-- The processing empties the ring. The induction is on the ring. -/
theorem processing_empties (lib : Interproc) (store : ParameterStore) (ring : List InterprocMsg)
    (m : Mailbox) (holds : m.vring1 = ring) (processing : m.pc = .processVring1) :
    m.PollEmpties lib store := by
  induction ring generalizing m with
  | nil => exact ⟨0, m, rfl, processing, holds⟩
  | cons msg rest ih =>
    have handled : (m.taskStep lib store).vring1 = rest ∧
        (m.taskStep lib store).pc = .processVring1 := by
      simp [taskStep, processing, holds]
    exact (ih (m.taskStep lib store) handled.1 handled.2).of_taskStep

/-- A poll that begins with the flag set empties the ring, whether or not it first
serves the other channel. -/
theorem poll_empties (lib : Interproc) (store : ParameterStore) (m : Mailbox)
    (polling : m.pc = .testCh1) (flag : m.msgReceivedCh2 = .newMsg) :
    m.PollEmpties lib store := by
  have fromCh2 : ∀ state : Mailbox, state.pc = .testCh2 → state.msgReceivedCh2 = .newMsg →
      state.PollEmpties lib store := by
    intro state testing set
    apply PollEmpties.of_taskStep
    apply processing_empties lib store _ _ rfl
    simp [taskStep, testing, set]
  apply PollEmpties.of_taskStep
  by_cases freed : m.msgReceivedCh1 = .bufFree
  · apply PollEmpties.of_taskStep
    apply PollEmpties.of_taskStep
    apply fromCh2 <;> simp [taskStep, polling, freed, flag]
  · apply fromCh2 <;> simp [taskStep, polling, freed, flag]

/-- From anywhere outside the poll with the flag set, the next poll empties the
ring. -/
theorem next_poll_empties (lib : Interproc) (store : ParameterStore) (m : Mailbox)
    (outside : m.pc.inPoll = false) (flag : m.msgReceivedCh2 = .newMsg) :
    m.PollEmpties lib store := by
  have noneReceived : ∀ state : Mailbox, state.pc = .testReceived →
      state.manager.messageReceived = false → state.msgReceivedCh2 = .newMsg →
      state.PollEmpties lib store := by
    intro state testing none_received set
    apply PollEmpties.of_taskStep
    apply poll_empties <;> simp [taskStep, testing, none_received, set]
  have clearing : ∀ state : Mailbox, state.pc = .clearReceived →
      state.msgReceivedCh2 = .newMsg → state.PollEmpties lib store := by
    intro state stands set
    apply PollEmpties.of_taskStep
    apply noneReceived <;> simp [taskStep, stands, set]
  have testing : ∀ state : Mailbox, state.pc = .testReceived →
      state.msgReceivedCh2 = .newMsg → state.PollEmpties lib store := by
    intro state stands set
    cases received : state.manager.messageReceived with
    | false => exact noneReceived state stands received set
    | true =>
      apply PollEmpties.of_taskStep
      apply clearing <;> simp [taskStep, stands, received, set]
  cases stands : m.pc with
  | testReceived => exact testing m stands flag
  | clearReceived => exact clearing m stands flag
  | delay =>
    apply PollEmpties.of_taskStep
    apply testing <;> simp [taskStep, stands, flag]
  | _ => simp [stands, TaskPc.inPoll] at outside

/-- In every run in which no interrupt with a message behind it falls in the window,
every message outside the poll is noticed, and the next poll handles it. The same
holds in every state on the way, a prefix of such a run being such a run. -/
theorem messages_noticed_outside_window (lib : Interproc) (store : ParameterStore)
    (events : List MailboxEvent) (m : Mailbox)
    (ran : run (step lib store) initial events = some m)
    (window : Along (step lib store) WindowEmpty initial events) :
    m.Noticed ∧ (m.pc.inPoll = false → m.pendingCh2 = false → m.vring1 ≠ [] →
      m.PollEmpties lib store) := by
  have announced : m.Announced := by
    refine invariant_run (step lib store) WindowEmpty Announced ?_ initial m events ?_ window ran
    · intro state event next holds outside taken
      exact announced_step holds outside taken
    · simp [Announced, initial]
  have noticed : m.Noticed := by
    intro _ quiet holds
    rcases announced holds with pending | ⟨flag, _⟩
    · rw [quiet] at pending
      cases pending
    · exact flag
  exact ⟨noticed, fun outside quiet holds =>
    next_poll_empties lib store m outside (noticed outside quiet holds)⟩

/-- What the proviso keeps out: after an interrupt in the window with a message behind
it, the next step of the task wipes out its notice. A message sent after that clearing
brings a notice again, so not every run that goes through the window ends unnoticed. -/
theorem window_interrupt_unnoticed (lib : Interproc) (store : ParameterStore) (m : Mailbox)
    (clearing : m.pc = .clearCh2) (pending : m.pendingCh2 = true) (holds : m.vring1 ≠ []) :
    ∃ after, run (step lib store) m [.ipccChannel2, .task] = some after ∧ ¬ after.Noticed := by
  refine ⟨_, by simp [run, step, pending, taskStep, clearing]; rfl, ?_⟩
  intro noticed
  cases noticed rfl rfl holds

/-- A valid message. -/
def pingFrame : InterprocMsg := crc32Interproc.stamp .ping Data.zero

/-- Two messages are handled, the second coming in while the ring is processed; a
third is announced after the poll. -/
def quietRun : List MailboxEvent :=
  [.a7Sends pingFrame, .ipccChannel2, .task, .task, .task,
    .a7Sends pingFrame, .ipccChannel2, .task, .task, .task, .task,
    .a7Sends pingFrame, .ipccChannel2]

set_option maxRecDepth 10000 in
/-- The law at that run: the third message is in the ring and has its flag. -/
theorem quiet_run_noticed :
    ∃ m, run (step crc32Interproc RpmsgManager.oneDouble) initial quietRun = some m ∧
      m.pc = .delay ∧ m.vring1.length = 1 ∧ m.Noticed ∧
      m.PollEmpties crc32Interproc RpmsgManager.oneDouble := by
  have law := messages_noticed_outside_window crc32Interproc RpmsgManager.oneDouble quietRun _ rfl
    (by decide +kernel)
  exact ⟨_, rfl, rfl, rfl, law.1, law.2 rfl rfl (by decide)⟩

/-- A message is handled; after the last look at the ring a second one is sent and
its interrupt taken, and then the flag is cleared. -/
def windowRun : List MailboxEvent :=
  [.a7Sends pingFrame, .ipccChannel2, .task, .task, .task, .task, .task,
    .a7Sends pingFrame, .ipccChannel2, .task]

set_option maxRecDepth 10000 in
/-- Without the proviso a notice is lost: the second message stays in the ring with
no interrupt pending and no flag set. -/
theorem window_run_unnoticed :
    ¬ ∀ (lib : Interproc) (store : ParameterStore) (events : List MailboxEvent) (m : Mailbox),
      run (step lib store) initial events = some m → m.Noticed := by
  intro law
  have noticed := law crc32Interproc RpmsgManager.oneDouble windowRun _ rfl
  cases noticed rfl rfl (by decide)

end Mailbox

end Stm32Ecu
