import Stm32Ecu.Operations

/-!
# A stored reply stays until it is fetched

A reply that the callback has stored is kept through every other delivery, send and
fetch, and its id is not given out again. Two things lose it. `STM32ECU_RECV_MSG`
erases the slot before it tries the copy to the caller, so a copy that fails leaves
the reply neither in the map nor with the caller. And a callback that finds no id
queued stores under whatever its local held, which may be the id of a stored reply.

The law is exact: the replies of a run are kept, step by step, if and only if neither
happens in it.
-/

namespace Stm32Ecu.Operation

open Runs

/-- The operation is a fetch of this id that returned zero and copied this reply to
its caller. -/
def Fetches (lib : Interproc) (s : Driver) (operation : Operation) (id : Nat) (block : Block) :
    Prop :=
  (∃ kernel, operation = .ioctl kernel (.recvMsg id)) ∧
    (operation.outcome lib s).ret = .ok 0 ∧
    (operation.outcome lib s).copied = .reply block.msg

/-- The operation leaves every stored reply in its slot and gives out no id of one,
except for the reply it fetches. A fetch that returns an error leaves the id map as
it was. -/
structure Retains (lib : Interproc) (s : Driver) (operation : Operation) : Prop where
  kept : ∀ id block, s.rxUniqueBuffer.slot id = .filled block →
    ¬ operation.Fetches lib s id block →
    (operation.outcome lib s).state.rxUniqueBuffer.slot id = .filled block ∧
      (operation.outcome lib s).copied ≠ .uid id
  unchanged : ∀ kernel id, operation = .ioctl kernel (.recvMsg id) →
    (operation.outcome lib s).ret ≠ .ok 0 →
    (operation.outcome lib s).state.rxUniqueBuffer = s.rxUniqueBuffer

/-- A fetch that finds a reply can copy it to its caller. A reply that is stored while
no id is queued does not meet a filled slot under the stale local. -/
def NothingLost (lib : Interproc) (s : Driver) : Operation → Prop
  | .ioctl kernel (.recvMsg id) =>
      kernel.copyFromUser = true → s.rxUniqueBuffer.load id ≠ none → kernel.copyToUser = true
  | .callback kernel _ data len =>
      AnswersSend lib s data len → kernel.vmalloc = true → kernel.xaStore = true →
        s.fifoUniqueIds.items = [] → s.rxUniqueBuffer.load kernel.stackId = none
  | _ => True

/-- An operation that leaves the id map alone and gives out no id retains every
reply. -/
theorem retains_of_same {lib : Interproc} {s : Driver} {operation : Operation}
    (buffer : (operation.outcome lib s).state.rxUniqueBuffer = s.rxUniqueBuffer)
    (silent : ∀ id, (operation.outcome lib s).copied ≠ .uid id) : Retains lib s operation := by
  constructor
  · intro id block held _
    rw [buffer]
    exact ⟨held, silent id⟩
  · intro kernel id _ _
    exact buffer

/-- A send retains every reply: the id it reserves was free. -/
theorem send_retains (lib : Interproc) (s : Driver) (kernel : Kernel) (arg : InterprocMsg) :
    Retains lib s (.ioctl kernel (.sendMsg arg)) := by
  rcases send_outcome s kernel arg with ⟨untouched, silent⟩ |
    ⟨reserved, _, _, free, buffer, _, _, given⟩
  · exact retains_of_same untouched.buffer silent
  · constructor
    · intro id block held _
      have different : id ≠ reserved := by
        rintro rfl
        rw [held] at free
        cases free
      simp only [outcome, Driver.ioctlCall, buffer]
      refine ⟨(SlotMap.set_slot_other _ _ _ _ different).trans held, ?_⟩
      intro issued
      exact different (given id issued)
    · intro other id isFetch _
      cases isFetch

/-- A fetch retains every reply exactly when what it finds can be copied out. -/
theorem recv_retains_iff (lib : Interproc) (s : Driver) (kernel : Kernel) (id : Nat) :
    Retains lib s (.ioctl kernel (.recvMsg id)) ↔
      NothingLost lib s (.ioctl kernel (.recvMsg id)) := by
  rcases recv_outcome s kernel id with ⟨absent, state, _, copied⟩ |
    ⟨block, asked, held, state, ⟨copies, ret, copied⟩ | ⟨fails, ret, copied⟩⟩
  · have retains : Retains lib s (.ioctl kernel (.recvMsg id)) := by
      apply retains_of_same
      · simp only [outcome, Driver.ioctlCall, state]
      · simp [outcome, Driver.ioctlCall, copied]
    have lossless : NothingLost lib s (.ioctl kernel (.recvMsg id)) :=
      fun asked found => absurd (absent asked) found
    exact iff_of_true retains lossless
  · refine iff_of_true ?_ (fun _ _ => copies)
    constructor
    · intro other stored found unfetched
      have different : other ≠ id := by
        rintro rfl
        have same : block = stored := Slot.filled.inj (held.symm.trans found)
        subst same
        exact unfetched ⟨⟨kernel, rfl⟩, ret, copied⟩
      simp only [outcome, Driver.ioctlCall, state, copied]
      exact ⟨(SlotMap.set_slot_other _ _ _ _ different).trans found, by simp⟩
    · intro other asked isFetch failed
      exact absurd ret failed
  · refine iff_of_false ?_ ?_
    · intro retains
      have same := retains.unchanged kernel id rfl ret
      simp only [outcome, Driver.ioctlCall, state] at same
      have erased : (s.rxUniqueBuffer.erase id).slot id = .free := SlotMap.set_slot_same _ _ _
      rw [same, held] at erased
      cases erased
    · intro lossless
      have copies := lossless asked (by simp [SlotMap.load, held, Slot.value])
      rw [fails] at copies
      cases copies

/-- An operation that stores a new block, and fetches nothing, retains every reply
exactly when the slot it stores into held none: the new block was never given out
before, so it is not the old one. -/
theorem store_retains_iff {lib : Interproc} {s : Driver} {operation : Operation}
    (kept : s.Wellkept) (target : Nat) (msg : InterprocMsg)
    (buffer : (operation.outcome lib s).state.rxUniqueBuffer =
      s.rxUniqueBuffer.store target ⟨s.heap.fresh, msg⟩)
    (silent : ∀ id, (operation.outcome lib s).copied ≠ .uid id)
    (other : ∀ kernel id, operation ≠ .ioctl kernel (.recvMsg id)) :
    Retains lib s operation ↔ s.rxUniqueBuffer.load target = none := by
  constructor
  · intro retains
    by_contra present
    obtain ⟨block, loaded⟩ := Option.ne_none_iff_exists'.mp present
    have held := SlotMap.slot_of_load _ _ _ loaded
    have unfetched : ¬ operation.Fetches lib s target block := by
      rintro ⟨⟨kernel, isFetch⟩, _⟩
      exact other kernel target isFetch
    have still := (retains.kept target block held unfetched).1
    rw [buffer, SlotMap.store_filled_iff] at still
    rcases still with ⟨_, rfl⟩ | ⟨apart, _⟩
    · exact Nat.lt_irrefl _ (kept.stored target _ held).2
    · exact apart rfl
  · intro absent
    constructor
    · intro id block held _
      have different : id ≠ target := by
        rintro rfl
        simp [SlotMap.load, held, Slot.value] at absent
      rw [buffer, SlotMap.store_filled_iff]
      exact ⟨Or.inr ⟨different, held⟩, silent id⟩
    · intro kernel id isFetch _
      exact absurd isFetch (other kernel id)

/-- A callback retains every reply exactly when it stores over none. -/
theorem callback_retains_iff (lib : Interproc) (s : Driver) (kept : s.Wellkept) (kernel : Kernel)
    (word : kernel.stackId < 2 ^ 32) (data : Option InterprocMsg) (len : Nat) :
    Retains lib s (.callback kernel word data len) ↔
      NothingLost lib s (.callback kernel word data len) := by
  by_cases answers : AnswersSend lib s data len
  · obtain ⟨msg, types, handled⟩ := callback_answer lib s kernel data len answers
    have buffer := Driver.storeUnique_buffer kernel msg { s with fifoSendTypes := types }
    have silent (id : Nat) :
        ((Operation.callback kernel word data len).outcome lib s).copied ≠ .uid id := by
      simp [outcome, handled, Driver.storeUnique_copied]
    by_cases stores : kernel.vmalloc = true ∧ kernel.xaStore = true
    · rw [if_pos stores] at buffer
      have lossless : NothingLost lib s (.callback kernel word data len) ↔
          s.rxUniqueBuffer.load (s.takeUniqueId kernel).1 = none := by
        simp [NothingLost, answers, stores, Driver.load_taken_iff kept kernel]
      rw [lossless]
      apply store_retains_iff kept _ msg
      · simp only [outcome, handled]
        exact buffer
      · exact silent
      · intro other id isFetch
        cases isFetch
    · rw [if_neg stores] at buffer
      refine iff_of_true ?_ (fun _ memory storing => absurd ⟨memory, storing⟩ stores)
      apply retains_of_same
      · simp only [outcome, handled]
        exact buffer
      · exact silent
  · obtain ⟨untouched, silent⟩ := callback_other lib s kernel data len answers
    exact iff_of_true (retains_of_same untouched.buffer silent)
      (fun isAnswer => absurd isAnswer answers)

/-- An operation retains every reply exactly when it loses none in one of the two
ways. -/
theorem retains_iff (lib : Interproc) (s : Driver) (operation : Operation) (kept : s.Wellkept) :
    Retains lib s operation ↔ NothingLost lib s operation := by
  rcases operation.kinds with isNeutral | ⟨kernel, buf, len, rfl⟩ | ⟨kernel, arg, rfl⟩ |
    ⟨kernel, id, rfl⟩ | ⟨kernel, word, data, len, rfl⟩
  · obtain ⟨untouched, silent⟩ := neutral_outcome lib s operation isNeutral
    refine iff_of_true (retains_of_same untouched.buffer silent) ?_
    unfold NothingLost
    split
    · cases isNeutral
    · cases isNeutral
    · trivial
  · obtain ⟨types, state⟩ := Driver.ioctlWrite_frame lib kernel buf len s
    refine iff_of_true (retains_of_same ?_ (write_copied lib s kernel buf len)) trivial
    simp only [outcome, state]
  · exact iff_of_true (send_retains lib s kernel arg) trivial
  · exact recv_retains_iff lib s kernel id
  · exact callback_retains_iff lib s kept kernel word data len

/-- While every step retains what is stored and none fetches this reply, it stays
where it is. -/
theorem held_until_fetched (lib : Interproc) (s final : Driver) (operations : List Operation)
    (id : Nat) (block : Block) (held : s.rxUniqueBuffer.slot id = .filled block)
    (retained : Along (step lib) (Retains lib) s operations)
    (unfetched : Along (step lib) (fun s operation => ¬ operation.Fetches lib s id block) s
      operations)
    (ran : run (step lib) s operations = some final) :
    final.rxUniqueBuffer.slot id = .filled block := by
  refine invariant_run (step lib) _ (fun state => state.rxUniqueBuffer.slot id = .filled block)
    ?_ s final operations held (along_and _ _ _ s operations retained unfetched) ran
  rintro state operation next stored ⟨retains, unfetchedNow⟩ taken
  obtain rfl := Option.some.inj taken
  exact (retains.kept id block stored unfetchedNow).1

/-- In every run from the loaded module, every step retains every stored reply if and
only if every fetch that finds a reply can copy it out and no reply is stored over
another under a stale local. In such a run, a reply stored at some time is still
there at any later time, unless a fetch of its id has returned it in between. -/
theorem stored_replies_kept_iff (lib : Interproc) (history : List Operation) :
    (Along (step lib) (Retains lib) Driver.loaded history ↔
      Along (step lib) (NothingLost lib) Driver.loaded history) ∧
    (Along (step lib) (NothingLost lib) Driver.loaded history →
      ∀ (before during : List Operation) (s final : Driver), history = before ++ during →
        run (step lib) Driver.loaded before = some s → run (step lib) s during = some final →
        ∀ (id : Nat) (block : Block), s.rxUniqueBuffer.slot id = .filled block →
          Along (step lib) (fun s operation => ¬ operation.Fetches lib s id block) s during →
          final.rxUniqueBuffer.slot id = .filled block) := by
  have exactly : Along (step lib) (Retains lib) Driver.loaded history ↔
      Along (step lib) (NothingLost lib) Driver.loaded history :=
    along_iff_of_invariant (step lib) (NothingLost lib) (Retains lib) Driver.Wellkept
      (fun s operation next => Driver.wellkept_step lib s operation next)
      (fun s operation => retains_iff lib s operation) Driver.loaded history
      Driver.loaded_wellkept
  refine ⟨exactly, ?_⟩
  rintro lossless before during s final rfl reached ran id block held unfetched
  have retained := along_append (step lib) (Retains lib) Driver.loaded s before during reached
    (exactly.mpr lossless)
  exact held_until_fetched lib s final during id block held retained unfetched ran

/-- A send is answered, and the fetch of its id cannot copy the reply out. -/
def faultyFetchRun : List Operation :=
  [.probe {} 0, .ioctl {} (.sendMsg (crc32Interproc.stamp .paramGet Data.zero)),
    .callback {} (by decide) (some (crc32Interproc.stamp .ack Data.zero)) 16,
    .ioctl { copyToUser := false } (.recvMsg 1)]

set_option maxRecDepth 10000 in
/-- Not every run keeps its replies: the failing fetch has erased the slot. -/
theorem faulty_fetch_loses_reply :
    ¬ ∀ (lib : Interproc) (history : List Operation),
      Along (step lib) (Retains lib) Driver.loaded history := by
  intro law
  have first := law crc32Interproc faultyFetchRun
  have second := first.2 _ rfl
  have third := second.2 _ rfl
  have fourth := third.2 _ rfl
  have same := congrArg (fun buffer => buffer.slot 1)
    (fourth.1.unchanged _ 1 rfl (by decide +kernel))
  exact absurd same (by decide +kernel)

end Stm32Ecu.Operation
