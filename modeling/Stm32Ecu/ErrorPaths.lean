import Mathlib.Data.List.Count
import Stm32Ecu.ReadWrite
import Stm32Ecu.Routing
import Stm32Ecu.SendSteps

/-!
# The error exits of the callback and of the two sends

The callback takes a token and, for a send, an id. Some of its exits take neither
and one takes the token alone: a frame of another size is ignored before the token
is taken, and a frame whose checksum fails is dropped after the token and before
the id. The queues then no longer belong together, and the reply to the next send
is stored under the id of the one before.

A ping and a send hand their message over first. What fails after that is reported
by a negative value although the message is on its way, and what was already put
or reserved stays. A failed call leaves no trace exactly when it fails no later
than its `rpmsg_send`.
-/

namespace Stm32Ecu

namespace Driver

/-- The two queues belong to these outstanding requests: one token for each, in
order, and one id for each of the sends among them. -/
structure PairedWith (s : Driver) (requests : List Origin) : Prop where
  tokens : s.fifoSendTypes.items = requests.map Origin.token
  ids : s.fifoUniqueIds.items = requests.filterMap Origin.givenId
  named : Origin.sendMsg none ∉ requests

/-- The queued ids correspond one to one, in order, with the tokens of sends. -/
def Paired (s : Driver) : Prop := ∃ requests, s.PairedWith requests

/-- Tokens and ids that are equally many can be matched up. The induction is on the
tokens; each send's token takes the next id. -/
theorem requests_of_count (tokens : List SentMsg) (ids : List Nat)
    (same : ids.length = tokens.count .externalUnique) :
    ∃ requests : List Origin, tokens = requests.map Origin.token ∧
      ids = requests.filterMap Origin.givenId ∧ Origin.sendMsg none ∉ requests := by
  induction tokens generalizing ids with
  | nil =>
    obtain rfl : ids = [] := List.eq_nil_of_length_eq_zero same
    exact ⟨[], rfl, rfl, by simp⟩
  | cons token rest ih =>
    cases token with
    | internal =>
      obtain ⟨requests, rfl, rfl, named⟩ := ih ids (by simpa using same)
      exact ⟨.ping :: requests, rfl, rfl, by simpa using named⟩
    | externalFifo =>
      obtain ⟨requests, rfl, rfl, named⟩ := ih ids (by simpa using same)
      exact ⟨.write :: requests, rfl, rfl, by simpa using named⟩
    | externalUnique =>
      cases ids with
      | nil => simp at same
      | cons id ids =>
        obtain ⟨requests, rfl, rfl, named⟩ := ih ids (by simpa using same)
        exact ⟨.sendMsg (some id) :: requests, rfl, rfl, by simpa using named⟩

/-- Requests that name their ids have as many ids as tokens of sends. -/
theorem count_of_requests (requests : List Origin) (named : Origin.sendMsg none ∉ requests) :
    (requests.filterMap Origin.givenId).length =
      (requests.map Origin.token).count .externalUnique := by
  induction requests with
  | nil => rfl
  | cons origin rest ih =>
    rw [List.mem_cons, not_or] at named
    cases origin with
    | write => simpa [List.filterMap_cons, Origin.givenId, Origin.token] using ih named.2
    | ping => simpa [List.filterMap_cons, Origin.givenId, Origin.token] using ih named.2
    | sendMsg id =>
      cases id with
      | none => exact absurd rfl named.1
      | some id => simpa [Origin.givenId, Origin.token] using ih named.2

/-- A state is paired exactly when it holds as many ids as tokens of sends. -/
theorem paired_iff_count (s : Driver) :
    s.Paired ↔ s.fifoUniqueIds.items.length = s.fifoSendTypes.items.count .externalUnique := by
  constructor
  · rintro ⟨requests, paired⟩
    rw [paired.tokens, paired.ids]
    exact count_of_requests requests paired.named
  · intro same
    obtain ⟨requests, tokens, ids, named⟩ := requests_of_count _ _ same
    exact ⟨requests, tokens, ids, named⟩

/-- The callback returns, has taken the oldest token, and leaves a paired state. -/
structure StaysInStep (lib : Interproc) (kernel : Kernel) (data : Option InterprocMsg) (len : Nat)
    (s : Driver) : Prop where
  returns : ∃ ret, (rpmsgSampleCb lib kernel data len s).ret = .ok ret
  consumed : (rpmsgSampleCb lib kernel data len s).state.fifoSendTypes.items =
    s.fifoSendTypes.items.tail
  paired : (rpmsgSampleCb lib kernel data len s).state.Paired

/-- The frame has full size; and if it answers a send, its checksum matches and there
is memory for its block. -/
def KeptInStep (lib : Interproc) (kernel : Kernel) (data : Option InterprocMsg) (len : Nat)
    (origin : Origin) : Prop :=
  ∃ msg, data = some msg ∧ len = lib.sizeofMsg ∧
    (origin.token = .externalUnique → lib.crcOk msg = true ∧ kernel.vmalloc = true)

/-- In a paired state, a frame kept in step leaves the queues to the remaining
requests. -/
theorem pairedWith_of_kept {lib : Interproc} {kernel : Kernel} {data : Option InterprocMsg}
    {len : Nat} {s : Driver} {origin : Origin} {rest : List Origin}
    (paired : s.PairedWith (origin :: rest)) (kept : KeptInStep lib kernel data len origin) :
    (∃ ret, (rpmsgSampleCb lib kernel data len s).ret = .ok ret) ∧
      (rpmsgSampleCb lib kernel data len s).state.PairedWith rest := by
  obtain ⟨msg, rfl, rfl, sound⟩ := kept
  have named := paired.named
  rw [List.mem_cons, not_or] at named
  have head : s.fifoSendTypes.items = origin.token :: rest.map Origin.token := paired.tokens
  by_cases isSend : origin.token = .externalUnique
  · obtain ⟨valid, memory⟩ := sound isSend
    rw [isSend] at head
    obtain ⟨types, remaining, handled⟩ := rpmsgSampleCb_send lib kernel msg s _ valid head
    obtain ⟨sameTypes, ids⟩ := storeUnique_queues kernel msg { s with fifoSendTypes := types }
    rw [handled]
    refine ⟨?_, by rw [sameTypes]; exact remaining, ?_, named.2⟩
    · unfold storeUnique
      simp only [memory, Bool.true_eq_false, ↓reduceIte]
      split <;> exact ⟨_, rfl⟩
    · rw [ids, paired.ids]
      cases origin with
      | write => cases isSend
      | ping => cases isSend
      | sendMsg id =>
        cases id with
        | none => exact absurd rfl named.1
        | some id => rfl
  · obtain ⟨ret, types, queue, remaining, handled⟩ := rpmsgSampleCb_plain lib kernel msg s _
      origin.token head (fun both => isSend both.1)
    rw [handled]
    refine ⟨⟨ret, rfl⟩, remaining, ?_, named.2⟩
    have sameIds : s.fifoUniqueIds.items = rest.filterMap Origin.givenId := by
      rw [paired.ids]
      cases origin with
      | write => rfl
      | ping => rfl
      | sendMsg id => exact absurd rfl isSend
    exact sameIds

/-- A corrupted answer to a send takes its token and leaves its id, so there is one
id too many. -/
theorem mismatch_unpairs {lib : Interproc} {kernel : Kernel} {msg : InterprocMsg} {s : Driver}
    {rest : List SentMsg} (paired : s.Paired)
    (head : s.fifoSendTypes.items = .externalUnique :: rest) (mismatch : lib.crcOk msg ≠ true) :
    ¬ (rpmsgSampleCb lib kernel (some msg) lib.sizeofMsg s).state.Paired := by
  intro stillPaired
  obtain ⟨ret, types, queue, remaining, handled⟩ := rpmsgSampleCb_plain lib kernel msg s rest
    .externalUnique head (fun both => mismatch both.2)
  have before := (paired_iff_count s).mp paired
  have after := (paired_iff_count _).mp stillPaired
  rw [handled] at after
  simp only [remaining] at after
  rw [head, List.count_cons_self] at before
  omega

/-- A callback that returns with the token taken and the state paired was given a
frame that is kept in step. -/
theorem kept_of_stays {lib : Interproc} {kernel : Kernel} {data : Option InterprocMsg} {len : Nat}
    {s : Driver} {origin : Origin} {rest : List Origin} (paired : s.PairedWith (origin :: rest))
    (stays : StaysInStep lib kernel data len s) : KeptInStep lib kernel data len origin := by
  have head : s.fifoSendTypes.items = origin.token :: rest.map Origin.token := paired.tokens
  by_cases full : ∃ msg, data = some msg ∧ len = lib.sizeofMsg
  · obtain ⟨msg, rfl, rfl⟩ := full
    refine ⟨msg, rfl, rfl, ?_⟩
    intro isSend
    rw [isSend] at head
    have valid : lib.crcOk msg = true := by
      by_contra mismatch
      exact mismatch_unpairs ⟨_, paired⟩ head mismatch stays.paired
    obtain ⟨types, _, handled⟩ := rpmsgSampleCb_send lib kernel msg s _ valid head
    obtain ⟨ret, returned⟩ := stays.returns
    refine ⟨valid, ?_⟩
    by_contra short
    rw [handled] at returned
    simp [storeUnique, short] at returned
  · have ignored := rpmsgSampleCb_ignored lib kernel data len s
      (fun msg present size => full ⟨msg, present, size⟩)
    have consumed := stays.consumed
    rw [ignored, head] at consumed
    simp at consumed

/-- A frame answers the oldest request of a paired state. The callback returns with
the token taken and the state paired if and only if the frame has full size and,
when the request is a send, its checksum matches and there is memory for its block.
The next valid reply to a send is then stored under that send's own id. -/
theorem callback_in_step_iff (lib : Interproc) (kernel : Kernel) (data : Option InterprocMsg)
    (len : Nat) (s : Driver) (origin : Origin) (rest : List Origin)
    (paired : s.PairedWith (origin :: rest)) :
    (StaysInStep lib kernel data len s ↔ KeptInStep lib kernel data len origin) ∧
    (KeptInStep lib kernel data len origin →
      ∀ (id : Nat) (others : List Origin), rest = .sendMsg (some id) :: others →
      ∀ (later : Kernel) (reply : InterprocMsg), later.vmalloc = true → later.xaStore = true →
        lib.crcOk reply = true →
        ((rpmsgSampleCb lib later (some reply) lib.sizeofMsg
          (rpmsgSampleCb lib kernel data len s).state).state.rxUniqueBuffer.load id).map
            Block.msg = some reply) := by
  refine ⟨⟨kept_of_stays paired, ?_⟩, ?_⟩
  · intro kept
    obtain ⟨returns, next⟩ := pairedWith_of_kept paired kept
    refine ⟨returns, ?_, ⟨rest, next⟩⟩
    rw [next.tokens, paired.tokens]
    rfl
  · rintro kept id others rfl later reply memory stores valid
    obtain ⟨_, next⟩ := pairedWith_of_kept paired kept
    obtain ⟨types, ids, heap, address, _, _, handled⟩ := rpmsgSampleCb_unique lib later reply _
      (others.map Origin.token) id (others.filterMap Origin.givenId) valid memory stores
      next.tokens next.ids
    rw [handled]
    simp [SlotMap.load, SlotMap.store, Slot.value]

/-- Two sends under way, with the ids 1 and 2. -/
def twoSends : Driver :=
  let request := crc32Interproc.stamp .paramGet Data.zero
  ((probed.ioctlSendMsg {} request).state.ioctlSendMsg {} request).state

theorem twoSends_paired : twoSends.PairedWith [.sendMsg (some 1), .sendMsg (some 2)] := by
  refine ⟨rfl, rfl, ?_⟩
  simp

set_option maxRecDepth 10000 in
/-- The law at a valid acknowledgement: the queues stay in step, and the reply to
the second send is stored under the id 2. -/
theorem valid_reply_in_step :
    StaysInStep crc32Interproc {} (some (crc32Interproc.stamp .ack Data.zero)) 16 twoSends ∧
      ((rpmsgSampleCb crc32Interproc {} (some (crc32Interproc.stamp .ack (Data.pad [7]))) 16
        (rpmsgSampleCb crc32Interproc {} (some (crc32Interproc.stamp .ack Data.zero)) 16
          twoSends).state).state.rxUniqueBuffer.load 2).map Block.msg =
        some (crc32Interproc.stamp .ack (Data.pad [7])) := by
  have kept : KeptInStep crc32Interproc {} (some (crc32Interproc.stamp .ack Data.zero)) 16
      (.sendMsg (some 1)) :=
    ⟨_, rfl, rfl, fun _ => ⟨crc32Interproc.crcOk_stamp .ack Data.zero, rfl⟩⟩
  have law := callback_in_step_iff crc32Interproc {} (some (crc32Interproc.stamp .ack Data.zero))
    16 twoSends _ _ twoSends_paired
  exact ⟨law.1.mpr kept, law.2 kept 2 [] rfl {} _ rfl rfl (crc32Interproc.crcOk_stamp .ack _)⟩

/-- A full-size frame whose checksum does not match. -/
def corruptFrame : InterprocMsg := ⟨.ack, Data.zero, 0⟩

set_option maxRecDepth 10000 in
/-- Not every frame is digested: a corrupted answer to the first send takes its token
and leaves its id. -/
theorem corrupt_reply_unpairs :
    ¬ ∀ (lib : Interproc) (kernel : Kernel) (data : Option InterprocMsg) (len : Nat) (s : Driver)
        (origin : Origin) (rest : List Origin), s.PairedWith (origin :: rest) →
      StaysInStep lib kernel data len s := by
  intro law
  have stays := law crc32Interproc {} (some corruptFrame) 16 twoSends _ _ twoSends_paired
  exact absurd ((paired_iff_count _).mp stays.paired) (by decide +kernel)

/-- What one of the two calls does. -/
def callOutcome (lib : Interproc) (kernel : Kernel) (s : Driver) : Call → Outcome
  | .pingRproc => s.ioctlPingRproc lib kernel
  | .sendMsg arg => s.ioctlSendMsg kernel arg

/-- If the call returns a negative value, it has handed nothing over and left the
two queues and the id map as they were. -/
def LeavesNoTrace (lib : Interproc) (kernel : Kernel) (s : Driver) (call : Call) : Prop :=
  ∀ ret, (s.callOutcome lib kernel call).ret = .ok ret → ret < 0 →
    (s.callOutcome lib kernel call).sent = [] ∧
      (s.callOutcome lib kernel call).state.fifoSendTypes = s.fifoSendTypes ∧
      (s.callOutcome lib kernel call).state.fifoUniqueIds = s.fifoUniqueIds ∧
      (s.callOutcome lib kernel call).state.rxUniqueBuffer = s.rxUniqueBuffer

/-- The call gets as far as its `rpmsg_send`, and that succeeds. -/
def HandsOver (kernel : Kernel) (s : Driver) : Call → Prop
  | .pingRproc =>
      (∃ device, s.rproc = .ok device) ∧ kernel.offline = false ∧ kernel.rpmsgSend 0 = 0
  | .sendMsg _ =>
      kernel.copyFromUser = true ∧ (∃ device, s.rproc = .ok device) ∧ kernel.rpmsgSend 0 = 0

/-- Nothing the call does after its `rpmsg_send` fails: there is room for the token,
and for a send a free id and memory for it, room for the id, and a copy to the
caller that succeeds. -/
def Recordable (kernel : Kernel) (s : Driver) : Call → Prop
  | .pingRproc => s.fifoSendTypes.items.length < 512
  | .sendMsg _ =>
      s.fifoSendTypes.items.length < 512 ∧
        (kernel.xaAlloc = true ∧ ∃ id, 1 ≤ id ∧ id ≤ 1024 ∧ s.rxUniqueBuffer.slot id = .free) ∧
        s.fifoUniqueIds.items.length < 256 ∧ kernel.copyToUser = true

/-- A ping that gets that far hands its message over, and another changes nothing. -/
theorem ping_sent (lib : Interproc) (kernel : Kernel) (s : Driver) :
    (HandsOver kernel s .pingRproc → (s.ioctlPingRproc lib kernel).sent ≠ []) ∧
      (¬ HandsOver kernel s .pingRproc → (s.ioctlPingRproc lib kernel).sent = [] ∧
        (s.ioctlPingRproc lib kernel).state = s) := by
  constructor
  · rintro ⟨⟨device, bound⟩, online, delivered⟩
    have present := rproc_ok s device bound
    simp only [ioctlPingRproc, present, bound, online, delivered, ne_eq, not_true_eq_false,
      Bool.false_eq_true, ↓reduceIte]
    split <;> simp
  · intro fails
    unfold ioctlPingRproc
    split
    · exact ⟨rfl, rfl⟩
    · split
      · exact ⟨rfl, rfl⟩
      · rename_i device bound
        split
        · exact ⟨rfl, rfl⟩
        · rename_i online
          dsimp only
          split
          · exact ⟨rfl, rfl⟩
          · rename_i delivered
            exact absurd ⟨⟨device, bound⟩, by simpa using online, not_not.mp delivered⟩ fails

/-- The same of a send. -/
theorem send_sent (kernel : Kernel) (arg : InterprocMsg) (s : Driver) :
    (HandsOver kernel s (.sendMsg arg) → (s.ioctlSendMsg kernel arg).sent ≠ []) ∧
      (¬ HandsOver kernel s (.sendMsg arg) → (s.ioctlSendMsg kernel arg).sent = [] ∧
        (s.ioctlSendMsg kernel arg).state = s) := by
  constructor
  · rintro ⟨copies, ⟨device, bound⟩, delivered⟩
    simp [ioctlSendMsg, copies, bound, delivered]
  · intro fails
    unfold ioctlSendMsg
    split
    · exact ⟨rfl, rfl⟩
    · rename_i copies
      split
      · exact ⟨rfl, rfl⟩
      · rename_i device bound
        split
        · exact ⟨rfl, rfl⟩
        · rename_i delivered
          exact absurd ⟨by simpa using copies, ⟨device, bound⟩, not_not.mp delivered⟩ fails

/-- A call hands its message over exactly when it gets that far; otherwise it
changes nothing. -/
theorem callOutcome_sent (lib : Interproc) (kernel : Kernel) (s : Driver) (call : Call) :
    (HandsOver kernel s call → (s.callOutcome lib kernel call).sent ≠ []) ∧
      (¬ HandsOver kernel s call → (s.callOutcome lib kernel call).sent = [] ∧
        (s.callOutcome lib kernel call).state = s) := by
  cases call with
  | pingRproc => exact ping_sent lib kernel s
  | sendMsg arg => exact send_sent kernel arg s

/-- Bookkeeping that does not return zero reports `-EINVAL`. -/
theorem bookSendMsg_failed (kernel : Kernel) (s : Driver)
    (failed : (bookSendMsg kernel s).ret ≠ .ok 0) : (bookSendMsg kernel s).ret = .ok (-EINVAL) := by
  revert failed
  unfold bookSendMsg
  dsimp only
  split
  · exact fun _ => rfl
  · split
    · exact fun _ => rfl
    · split
      · exact fun _ => rfl
      · split
        · exact fun _ => rfl
        · exact fun failed => absurd rfl failed

/-- Bookkeeping that returns zero met no full queue, no lack of ids or memory and no
failing copy. -/
theorem recordable_of_zero (kernel : Kernel) (s : Driver) (arg : InterprocMsg)
    (returned : (bookSendMsg kernel s).ret = .ok 0) : Recordable kernel s (.sendMsg arg) := by
  revert returned
  unfold bookSendMsg
  dsimp only
  split
  · simp [EINVAL]
  · rename_i tokenTaken
    split
    · simp [EINVAL]
    · rename_i id reserved taken
      obtain ⟨above, below, free, rfl⟩ := allocUniqueId_some _ _ _ _ taken
      split
      · simp [EINVAL]
      · rename_i idTaken
        split
        · simp [EINVAL]
        · rename_i copies
          intro _
          refine ⟨by simpa [putSendType] using tokenTaken, ⟨?_, id, above, below, free⟩,
            by simpa [putUniqueId, putSendType] using idTaken, by simpa using copies⟩
          by_contra short
          simp [allocUniqueId, short] at taken

/-- After its message is handed over, a call returns zero exactly when nothing of its
bookkeeping fails, and `-EINVAL` otherwise. -/
theorem callOutcome_ret (lib : Interproc) (kernel : Kernel) (s : Driver) (call : Call)
    (hands : HandsOver kernel s call) :
    (Recordable kernel s call → (s.callOutcome lib kernel call).ret = .ok 0) ∧
      (¬ Recordable kernel s call → (s.callOutcome lib kernel call).ret = .ok (-EINVAL)) := by
  cases call with
  | pingRproc =>
    have sent := (callOutcome_sent lib kernel s .pingRproc).1 hands
    rcases ioctlPingRproc_cases lib kernel s with ⟨silent, _⟩ | ⟨_, _, ret⟩
    · exact absurd silent sent
    · constructor
      · intro room
        simpa [callOutcome, if_pos (show s.fifoSendTypes.items.length < 512 from room)] using ret
      · intro full
        simpa [callOutcome, if_neg (show ¬ s.fifoSendTypes.items.length < 512 from full)] using ret
  | sendMsg arg =>
    obtain ⟨copied, ⟨device, bound⟩, delivered⟩ := hands
    have booked : (s.callOutcome lib kernel (.sendMsg arg)).ret = (bookSendMsg kernel s).ret := by
      simp [callOutcome, ioctlSendMsg, copied, bound, delivered]
    rw [booked]
    constructor
    · rintro ⟨tokenRoom, ⟨memory, free⟩, idRoom, copies⟩
      exact bookSendMsg_returns kernel s memory copies tokenRoom idRoom free
    · intro fails
      apply bookSendMsg_failed
      intro returned
      exact fails (recordable_of_zero kernel s arg returned)

/-- A call that reports a failure has left no trace if and only if it fails no later
than its `rpmsg_send`: once the message is handed over, nothing after it fails. -/
theorem no_trace_iff_recordable (lib : Interproc) (kernel : Kernel) (s : Driver) (call : Call) :
    LeavesNoTrace lib kernel s call ↔ (HandsOver kernel s call → Recordable kernel s call) := by
  constructor
  · intro traceless hands
    by_contra fails
    have returned := (callOutcome_ret lib kernel s call hands).2 fails
    have silent := (traceless _ returned (by decide)).1
    exact (callOutcome_sent lib kernel s call).1 hands silent
  · intro recordable ret returned negative
    by_cases hands : HandsOver kernel s call
    · have zero := (callOutcome_ret lib kernel s call hands).1 (recordable hands)
      rw [zero] at returned
      obtain rfl := Except.ok.inj returned
      exact absurd negative (by decide)
    · obtain ⟨silent, same⟩ := (callOutcome_sent lib kernel s call).2 hands
      rw [same]
      exact ⟨silent, rfl, rfl, rfl⟩

/-- Not every failed call is without a trace: a send whose id cannot be copied to the
caller reports `-EINVAL` and has sent its message. -/
theorem failed_copy_leaves_trace :
    ¬ ∀ (lib : Interproc) (kernel : Kernel) (s : Driver) (call : Call),
      LeavesNoTrace lib kernel s call := by
  intro law
  have traceless := law crc32Interproc { copyToUser := false } probed
    (.sendMsg (crc32Interproc.stamp .paramGet Data.zero)) (-EINVAL) rfl (by decide)
  cases traceless.1

end Driver

end Stm32Ecu
