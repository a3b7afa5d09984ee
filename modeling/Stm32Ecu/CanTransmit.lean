import Stm32Ecu.Runs
import Stm32Ecu.CanSpi
import Mathlib.Data.List.Perm.Lattice

/-!
# Pending transmissions

Calls of `CANSPI_Transmit` and the controller take turns: a pending buffer may go onto
the bus between any two calls, after a call has read the status and after it has loaded
its buffer. The call trusts a status that may be out of date by then, but only in one
direction, for the controller clears requests and never raises one.

The law is that the frames sent and the frames pending are together a permutation of
those pending at the start and those accepted since, after every step. A frame that was
overwritten before it was sent, or requested twice, would break it.
-/

namespace Stm32Ecu

open Runs Mcp2515

/-- One more element selected, wherever it stands in a list without repetitions. -/
theorem filter_update_perm {α : Type} [DecidableEq α] (all : List α) (distinct : all.Nodup)
    (selected : α → Bool) (n : α) (present : n ∈ all) (clear : selected n = false) :
    (all.filter (Function.update selected n true)).Perm (n :: all.filter selected) := by
  refine (List.perm_ext_iff_of_nodup (distinct.filter _) ?_).mpr ?_
  · exact List.nodup_cons.mpr ⟨by simp [clear], distinct.filter _⟩
  · intro k
    by_cases same : k = n
    · simp [same, present]
    · simp [same]

namespace Mcp2515.Bus

/-- The frames waiting in buffers with a raised request. -/
def pending (bus : Bus) : List Frame :=
  (TxBuffer.all.filter bus.controller.txReq).map (fun n => (bus.controller.tx n).frame)

/-- Every frame that has left or will leave. -/
def frames (bus : Bus) : List Frame := bus.sent ++ bus.pending

/-- A request that is raised adds its buffer to those selected. -/
theorem selected_update (selected : TxBuffer → Bool) (n : TxBuffer) (clear : selected n = false) :
    (TxBuffer.all.filter (Function.update selected n true)).Perm
      (n :: TxBuffer.all.filter selected) :=
  filter_update_perm TxBuffer.all (by decide) selected n (by cases n <;> decide) clear

/-- A buffer without a request may be loaded: nothing pending changes. -/
theorem loadTx_frames (bus : Bus) (n : TxBuffer) (bytes : List UInt8)
    (clear : bus.controller.txReq n = false) : (bus.loadTx n bytes).frames = bus.frames := by
  have untouched : (bus.loadTx n bytes).pending = bus.pending := by
    apply List.map_congr_left
    intro k waiting
    have other : k ≠ n := by
      rintro rfl
      have raised := (List.mem_filter.mp waiting).2
      exact absurd (clear.symm.trans raised) (by decide)
    show (Function.update bus.controller.tx n _ k).frame = _
    rw [Function.update_of_ne other]
  rw [frames, frames, untouched]
  rfl

/-- Raising a request makes the frame in its buffer pending. -/
theorem request_frames (bus : Bus) (n : TxBuffer) (clear : bus.controller.txReq n = false) :
    (bus.request n).frames.Perm ((bus.controller.tx n).frame :: bus.frames) := by
  have added : (bus.request n).pending.Perm ((bus.controller.tx n).frame :: bus.pending) :=
    (selected_update bus.controller.txReq n clear).map _
  exact (added.append_left bus.sent).trans List.perm_middle

/-- A completion moves a frame from the pending to the sent ones. -/
theorem complete_frames (bus : Bus) (n : TxBuffer) : (bus.complete n).frames.Perm bus.frames := by
  by_cases raised : bus.controller.txReq n = true
  · have removed : bus.pending.Perm ((bus.controller.tx n).frame :: (bus.complete n).pending) := by
      have restored : Function.update (Function.update bus.controller.txReq n false) n true =
          bus.controller.txReq := by
        rw [Function.update_idem, ← raised, Function.update_eq_self]
      have added := selected_update (Function.update bus.controller.txReq n false) n
        (Function.update_self n _ _)
      rw [restored] at added
      rw [complete, if_pos raised]
      exact added.map _
    have sent : (bus.complete n).sent = bus.sent ++ [(bus.controller.tx n).frame] := by
      rw [complete, if_pos raised]
    rw [frames, frames, sent, List.append_assoc]
    exact removed.symm.append_left bus.sent
  · rw [complete, if_neg raised]

/-- Completions send what is pending and nothing else. -/
theorem completions_frames (bus : Bus) (finished : List TxBuffer) :
    (bus.completions finished).frames.Perm bus.frames := by
  induction finished generalizing bus with
  | nil => exact List.Perm.refl _
  | cons n rest ih => exact (ih (bus.complete n)).trans (complete_frames bus n)

/-- Completions write no transmit buffer and raise no request. -/
theorem completions_keep (bus : Bus) (finished : List TxBuffer) :
    (bus.completions finished).controller.tx = bus.controller.tx ∧
      ∀ n, bus.controller.txReq n = false →
        (bus.completions finished).controller.txReq n = false := by
  induction finished generalizing bus with
  | nil => exact ⟨rfl, fun _ clear => clear⟩
  | cons k rest ih =>
    obtain ⟨buffers, requests⟩ := ih (bus.complete k)
    have one : (bus.complete k).controller.tx = bus.controller.tx ∧
        ∀ n, bus.controller.txReq n = false → (bus.complete k).controller.txReq n = false := by
      rw [complete]
      split
      · refine ⟨rfl, ?_⟩
        intro n clear
        by_cases same : n = k
        · rw [same]
          exact Function.update_self k _ _
        · exact (Function.update_of_ne same _ _).trans clear
      · exact ⟨rfl, fun _ clear => clear⟩
    exact ⟨buffers.trans one.1, fun n clear => requests n (one.2 n clear)⟩

/-- Once the three buffers have finished, nothing is pending. -/
theorem drained_pending (bus : Bus) : (bus.completions TxBuffer.all).pending = [] := by
  have cleared (b : Bus) (n : TxBuffer) : (b.complete n).controller.txReq n = false := by
    by_cases raised : b.controller.txReq n = true
    · rw [complete, if_pos raised]
      exact Function.update_self n _ _
    · rw [complete, if_neg raised]
      exact Bool.eq_false_iff.mpr raised
  have stays (b : Bus) (n k : TxBuffer) (clear : b.controller.txReq n = false) :
      (b.complete k).controller.txReq n = false := (completions_keep b [k]).2 n clear
  have first := stays _ .txb0 .txb2 (stays _ .txb0 .txb1 (cleared bus .txb0))
  have second := stays _ .txb1 .txb2 (cleared (bus.complete .txb0) .txb1)
  have third := cleared ((bus.complete .txb0).complete .txb1) .txb2
  rw [pending, List.map_eq_nil_iff, List.filter_eq_nil_iff]
  intro n _
  cases n with
  | txb0 => exact Bool.eq_false_iff.mp first
  | txb1 => exact Bool.eq_false_iff.mp second
  | txb2 => exact Bool.eq_false_iff.mp third

end Mcp2515.Bus

/-- The bus and the messages for which a call has returned 1. -/
structure Traffic where
  bus : Bus
  accepted : List UCanMsg

/-- A call, with the completions that fall between its transactions and the memory behind
its message, or a completion between two calls. -/
inductive TrafficEvent where
  | transmit (msg : UCanMsg) (short : msg.dlc.toNat ≤ 8) (behind : Nat → UInt8)
      (afterStatus afterLoad : List TxBuffer)
  | complete (n : TxBuffer)

namespace Traffic

def step (t : Traffic) : TrafficEvent → Option Traffic
  | .transmit msg _ behind afterStatus afterLoad =>
      let (returned, bus) := canspiTransmit behind t.bus msg afterStatus afterLoad
      some ⟨bus, if returned = 1 then t.accepted ++ [msg] else t.accepted⟩
  | .complete n => some { t with bus := t.bus.complete n }

/-- What one call should do. It returns 1 exactly when the status it reads has a clear
request bit. Then its frame is in a buffer with a clear bit, still clear when the buffer is
loaded, and that buffer alone has been written and requested. Otherwise it returns 0 and
nothing has changed. -/
def Exact (t : Traffic) : TrafficEvent → Prop
  | .transmit msg _ behind afterStatus afterLoad =>
      let status := t.bus.controller.status
      let (returned, after) := canspiTransmit behind t.bus msg afterStatus afterLoad
      (returned = 1 ↔ ∃ n : TxBuffer, status.toNat.testBit (2 + 2 * n.number) = false) ∧
        (returned = 1 → ∃ n : TxBuffer, status.toNat.testBit (2 + 2 * n.number) = false ∧
          (t.bus.completions afterStatus).controller.txReq n = false ∧
          (after.controller.tx n).frame = msg.frame ∧ after.controller.txReq n = true ∧
          ∀ k, k ≠ n → after.controller.tx k = t.bus.controller.tx k ∧
            (after.controller.txReq k = true → t.bus.controller.txReq k = true)) ∧
        (returned ≠ 1 → returned = 0 ∧ after = t.bus)
  | .complete _ => True

section Call
variable (behind : Nat → UInt8) (bus : Bus) (msg : UCanMsg) (afterStatus afterLoad : List TxBuffer)

/-- The bus after a call that has found a buffer, just before the request. -/
def loaded (n : TxBuffer) : Bus :=
  ((bus.completions afterStatus).loadTx n (msg.payload behind)).completions afterLoad

/-- The buffer is still without a request then. It holds the frame of the call, the other
buffers hold what they held, and no request has been raised. -/
theorem loaded_buffers (n : TxBuffer) (clear : bus.controller.txReq n = false)
    (short : msg.dlc.toNat ≤ 8) :
    (∀ k, bus.controller.txReq k = false →
        (loaded behind bus msg afterStatus afterLoad n).controller.txReq k = false) ∧
      ((loaded behind bus msg afterStatus afterLoad n).controller.tx n).frame = msg.frame ∧
      (∀ k, k ≠ n →
        (loaded behind bus msg afterStatus afterLoad n).controller.tx k = bus.controller.tx k) ∧
      (loaded behind bus msg afterStatus afterLoad n).frames.Perm bus.frames := by
  obtain ⟨buffersBefore, requestsBefore⟩ := bus.completions_keep afterStatus
  obtain ⟨buffersAfter, requestsAfter⟩ :=
    ((bus.completions afterStatus).loadTx n (msg.payload behind)).completions_keep afterLoad
  refine ⟨?_, ?_, ?_, ?_⟩
  · intro k clear
    exact requestsAfter k (requestsBefore k clear)
  · have stored : ((bus.completions afterStatus).loadTx n (msg.payload behind)).controller.tx n =
        ((bus.completions afterStatus).controller.tx n).load 0 (msg.payload behind) :=
      Function.update_self n _ _
    rw [loaded, buffersAfter, stored]
    exact msg.loaded_frame behind _ short
  · intro k other
    rw [loaded, buffersAfter, ← buffersBefore]
    exact Function.update_of_ne other _ _
  · refine (Bus.completions_frames _ afterLoad).trans ?_
    rw [Bus.loadTx_frames _ n _ (requestsBefore n clear)]
    exact bus.completions_frames afterStatus

end Call

/-- Every call does what it should. -/
theorem step_exact (t : Traffic) (event : TrafficEvent) : t.Exact event := by
  cases event with
  | complete n => trivial
  | transmit msg short behind afterStatus afterLoad =>
    simp only [Exact, Controller.status_bits]
    rcases canspiTransmit_cases behind t.bus msg afterStatus afterLoad with
      ⟨raised, result⟩ | ⟨n, clear, result⟩
    · rw [result]
      simp [raised]
    · obtain ⟨requests, frame, others, _⟩ :=
        loaded_buffers behind t.bus msg afterStatus afterLoad n clear short
      rw [result]
      refine ⟨⟨fun _ => ⟨n, clear⟩, fun _ => rfl⟩, ?_, fun wrong => absurd rfl wrong⟩
      intro _
      refine ⟨n, clear, (t.bus.completions_keep afterStatus).2 n clear, frame,
        Function.update_self n _ _, ?_⟩
      intro k other
      refine ⟨others k other, ?_⟩
      intro raised
      by_contra lowered
      have stays := requests k (Bool.eq_false_iff.mpr lowered)
      have kept := (Function.update_of_ne other _ _).symm.trans raised
      exact absurd (stays.symm.trans kept) (by decide)

/-- What has left and what is pending are the frames pending or sent at the start and those
of the accepted messages. -/
def Conserved (start : Bus) (t : Traffic) : Prop :=
  t.bus.frames.Perm (start.frames ++ t.accepted.map UCanMsg.frame)

/-- One call, with the completions meanwhile, loses no frame. -/
theorem step_conserved (start : Bus) (t next : Traffic) (event : TrafficEvent)
    (conserved : Conserved start t) (taken : t.step event = some next) : Conserved start next := by
  cases event with
  | complete n =>
    obtain rfl := Option.some.inj taken
    exact (t.bus.complete_frames n).trans conserved
  | transmit msg short behind afterStatus afterLoad =>
    simp only [step] at taken
    rcases canspiTransmit_cases behind t.bus msg afterStatus afterLoad with
      ⟨raised, result⟩ | ⟨n, clear, result⟩
    · rw [result] at taken
      obtain rfl := Option.some.inj taken
      exact conserved
    · obtain ⟨requests, frame, _, frames⟩ :=
        loaded_buffers behind t.bus msg afterStatus afterLoad n clear short
      rw [result] at taken
      obtain rfl := Option.some.inj taken
      have added := Bus.request_frames _ n (requests n clear)
      rw [frame] at added
      simp only [Conserved, ↓reduceIte, List.map_append, List.map_cons, List.map_nil]
      rw [← List.append_assoc]
      calc ((loaded behind t.bus msg afterStatus afterLoad n).request n).frames
        List.Perm _ (msg.frame :: t.bus.frames) := added.trans (frames.cons _)
        List.Perm _ (msg.frame :: (start.frames ++ t.accepted.map UCanMsg.frame)) :=
          conserved.cons _
        List.Perm _ (start.frames ++ t.accepted.map UCanMsg.frame ++ [msg.frame]) :=
          (List.perm_append_singleton _ _).symm

/-- In every history of calls and completions, from any state of the controller, every call
does what it should, and in every state reached the frames sent and those still pending are
the frames there were at the start and those of the accepted messages, each as often as it
was accepted. When the pending buffers have finished, all of these have left. -/
theorem transmissions_exact (start : Bus) (events : List TrafficEvent) :
    Along step Exact ⟨start, []⟩ events ∧
      Always step (fun t =>
        (t.bus.sent ++ t.bus.pending).Perm
            (start.sent ++ start.pending ++ t.accepted.map UCanMsg.frame) ∧
          (t.bus.completions TxBuffer.all).sent.Perm
            (start.sent ++ start.pending ++ t.accepted.map UCanMsg.frame)) ⟨start, []⟩ events := by
  constructor
  · exact along_of_forall step Exact ⟨start, []⟩ events (fun event _ t => step_exact t event)
  · apply always_of_invariant step (Conserved start) _
      (fun t event next conserved taken => step_conserved start t next event conserved taken)
    · intro t conserved
      refine ⟨conserved, ?_⟩
      have drained := (t.bus.completions_frames TxBuffer.all).trans conserved
      rw [Bus.frames, Bus.drained_pending, List.append_nil] at drained
      exact drained
    · simp [Conserved]

end Traffic

end Stm32Ecu
