import Stm32Ecu.Routing

/-!
# Which replies reach the request they answer

Two laws over whole runs follow from the ledger. On the ioctl path alone, a fetch
that returns zero always copies out the reply to the latest send of its id, once.
With `write()` in the run as well, every reply reaches the destination of the
request it answers as long as no ping or send comes after a write. The proviso
cannot be dropped: the token that `ioctl_write` puts before sending anything has
no message of its own, and it takes the place of the next request's token.
-/

namespace Stm32Ecu.System

open Runs

/-- No queue overflows, no send runs out of ids, and no `rpmsg_send`, `vmalloc`,
`xa_store` or copy of a send fails. Fetches are not part of these runs. A write
may have any length and contents, and its own copy may fail. -/
def Unhindered (lib : Interproc) (s : System) : Action → Prop
  | .write kernel buf len =>
      kernel.vmalloc = true ∧ (∀ position, kernel.rpmsgSend position = 0) ∧
        s.driver.fifoSendTypes.items.length + 1 +
          (s.driver.ioctlWrite lib kernel buf len).sent.length ≤ 512
  | .pingRproc kernel =>
      kernel.rpmsgSend 0 = 0 ∧ s.driver.fifoSendTypes.items.length < 512
  | .sendMsg kernel _ =>
      kernel.copyFromUser = true ∧ kernel.copyToUser = true ∧ kernel.rpmsgSend 0 = 0 ∧
        kernel.xaAlloc = true ∧ s.driver.fifoSendTypes.items.length < 512 ∧
        s.driver.fifoUniqueIds.items.length < 256 ∧
        ∃ id, 1 ≤ id ∧ id ≤ 1024 ∧ s.driver.rxUniqueBuffer.slot id = .free
  | .recvMsg _ _ => False
  | .deliver kernel _ =>
      kernel.vmalloc = true ∧ kernel.xaStore = true ∧
        (s.driver.fifoSendTypes.items.head? = some .externalFifo →
          s.driver.fifoExternalMsg.items.length < 256)

/-- Pings and sends are issued only before the first write. -/
def WritesLast (s : System) : Action → Prop
  | .write _ _ _ => True
  | .pingRproc _ => s.writes = 0
  | .sendMsg _ _ => s.writes = 0
  | .recvMsg _ _ => True
  | .deliver _ _ => True

instance (s : System) : ∀ action, Decidable (WritesLast s action)
  | .write _ _ _ => isTrue trivial
  | .pingRproc _ => inferInstanceAs (Decidable (s.writes = 0))
  | .sendMsg _ _ => inferInstanceAs (Decidable (s.writes = 0))
  | .recvMsg _ _ => isTrue trivial
  | .deliver _ _ => isTrue trivial

/-- Every reply delivered so far is where its request wants it, and nothing else
is stored: the read queue holds the replies to writes in send order, and the id
map holds exactly the replies to sends, each under the id that send returned. -/
structure Routed (s : System) : Prop where
  external : s.driver.fifoExternalMsg.items = s.answered.filterMap writeReply
  stored : ∀ id reply, (.sendMsg (some id), reply) ∈ s.answered →
    (s.driver.rxUniqueBuffer.load id).map Block.msg = some reply
  nothingElse : ∀ id block, s.driver.rxUniqueBuffer.load id = some block →
    (.sendMsg (some id), block.msg) ∈ s.answered

/-- While nothing has been fetched, the ledger says that every reply is routed. -/
theorem Ledger.routed {s : System} (ledger : s.Ledger) (unfetched : s.fetches = []) :
    s.Routed := by
  have none_fetched : ∀ k, ¬ s.Fetched k := by
    intro k
    simp [Fetched, unfetched]
  refine ⟨ledger.external, ?_, ?_⟩
  · intro id reply member
    obtain ⟨k, entry⟩ := List.mem_iff_getElem?.mp member
    obtain ⟨address, held⟩ := ledger.stored k id reply entry (none_fetched k)
    simp [SlotMap.load, held, Slot.value]
  · intro id block found
    obtain ⟨k, entry, _⟩ := ledger.filled id block (SlotMap.slot_of_load _ _ _ found)
    exact List.mem_of_getElem? entry

/-- The steps of an unhindered run with its writes last are sound. -/
theorem sound_of_unhindered {lib : Interproc} {s : System} (action : Action)
    (unhindered : Unhindered lib s action) (ordered : WritesLast s action) :
    Sound lib s action := by
  cases action with
  | write kernel buf len => exact ⟨unhindered.2.1, unhindered.2.2⟩
  | pingRproc kernel =>
    refine ⟨ordered, ?_⟩
    intro sent
    rcases Driver.ioctlPingRproc_cases lib kernel s.driver with ⟨none_sent, _⟩ | ⟨_, _, ret⟩
    · exact absurd none_sent sent
    · simpa [unhindered.2] using ret
  | sendMsg kernel arg =>
    obtain ⟨_, copies, _, memory, tokenRoom, idRoom, free⟩ := unhindered
    refine ⟨ordered, ?_⟩
    intro sent
    rcases Driver.ioctlSendMsg_cases kernel arg s.driver with ⟨none_sent, _⟩ | booked
    · exact absurd none_sent sent
    · rw [booked]
      exact Driver.bookSendMsg_returns kernel s.driver memory copies tokenRoom idRoom free
  | recvMsg kernel id => exact unhindered.elim
  | deliver kernel reply => exact unhindered

/-- Only a fetch adds to the fetches. -/
theorem step_fetches {lib : Interproc} {s next : System} (action : Action)
    (unhindered : Unhindered lib s action) (taken : step lib s action = some next) :
    next.fetches = s.fetches := by
  cases action with
  | write kernel buf len =>
    obtain ⟨outcome, _, rfl⟩ := Option.map_eq_some_iff.mp taken
    rfl
  | pingRproc kernel =>
    obtain ⟨outcome, _, rfl⟩ := Option.map_eq_some_iff.mp taken
    rfl
  | sendMsg kernel arg =>
    obtain ⟨outcome, _, rfl⟩ := Option.map_eq_some_iff.mp taken
    rfl
  | recvMsg kernel id => exact unhindered.elim
  | deliver kernel reply =>
    simp only [step] at taken
    split at taken
    · cases taken
    · split at taken
      · obtain ⟨outcome, _, rfl⟩ := Option.map_eq_some_iff.mp taken
        rfl
      · cases taken

/-- In every unhindered run in which no ping or send follows a write, each reply
delivered so far has reached the destination of the request it answers. The same
holds in every state on the way, a prefix of such a run being such a run. -/
theorem replies_routed_with_writes_last (lib : Interproc) (device : Device)
    (actions : List Action) (s : System)
    (ran : run (step lib) (initial device) actions = some s)
    (unhindered : Along (step lib) (Unhindered lib) (initial device) actions)
    (ordered : Along (step lib) WritesLast (initial device) actions) : s.Routed := by
  have both := along_and (step lib) _ _ (initial device) actions unhindered ordered
  have kept : s.Ledger ∧ s.fetches = [] := by
    refine invariant_run (step lib) _ (fun state => state.Ledger ∧ state.fetches = [])
      ?_ (initial device) s actions ⟨initial_ledger device, rfl⟩ both ran
    intro state action next holds admitted taken
    have sound := sound_of_unhindered action admitted.1 admitted.2
    exact ⟨ledger_step action holds.1 sound taken,
      (step_fetches action admitted.1 taken).trans holds.2⟩
  exact kept.1.routed kept.2

/-- A valid acknowledgement, as the remote sends it. -/
def ackFrame : InterprocMsg := crc32Interproc.stamp .ack Data.zero

/-- A valid request frame. -/
def getFrame : InterprocMsg := crc32Interproc.stamp .paramGet Data.zero

/-- A ping, a send and a batch of one, in that order, each answered. -/
def writesLastRun : List Action :=
  [.pingRproc {}, .deliver {} ackFrame, .sendMsg {} getFrame, .deliver {} ackFrame,
    .write {} (fun _ => getFrame) 16, .deliver {} ackFrame]

set_option maxRecDepth 10000 in
/-- The law at a run with all three senders: one reply dropped, one stored under
id 1, one queued for reading. -/
theorem writes_last_run_routed :
    ∃ s, run (step crc32Interproc) (initial 0) writesLastRun = some s ∧
      s.answered.map Prod.fst = [.ping, .sendMsg (some 1), .write] ∧ s.Routed := by
  refine ⟨_, rfl, rfl, replies_routed_with_writes_last crc32Interproc 0 writesLastRun _ rfl ?_ ?_⟩
  · refine along_cons _ _ _ _ _ _ rfl ⟨rfl, by decide⟩ ?_
    refine along_cons _ _ _ _ _ _ rfl ⟨rfl, rfl, by decide⟩ ?_
    refine along_cons _ _ _ _ _ _ rfl
      ⟨rfl, rfl, rfl, rfl, by decide, by decide, 1, by decide, by decide, rfl⟩ ?_
    refine along_cons _ _ _ _ _ _ rfl ⟨rfl, rfl, by decide⟩ ?_
    refine along_cons _ _ _ _ _ _ rfl ⟨rfl, fun _ => rfl, by decide⟩ ?_
    exact along_cons _ _ _ _ _ _ rfl ⟨rfl, rfl, fun _ => by decide⟩ trivial
  · decide +kernel

/-- One message written and answered, then a ping answered. -/
def pingAfterWriteRun : List Action :=
  [.write {} (fun _ => getFrame) 16, .deliver {} ackFrame, .pingRproc {}, .deliver {} ackFrame]

set_option maxRecDepth 10000 in
/-- Without the proviso the law fails: after one ordinary write, the reply to a
ping meets the write's surplus token and is queued for reading. -/
theorem ping_after_write_misrouted :
    ¬ ∀ (lib : Interproc) (device : Device) (actions : List Action) (s : System),
      run (step lib) (initial device) actions = some s →
      Along (step lib) (Unhindered lib) (initial device) actions → s.Routed := by
  intro law
  have routed := law crc32Interproc 0 pingAfterWriteRun _ rfl (by
    refine along_cons _ _ _ _ _ _ rfl ⟨rfl, fun _ => rfl, by decide⟩ ?_
    refine along_cons _ _ _ _ _ _ rfl ⟨rfl, rfl, fun _ => by decide⟩ ?_
    refine along_cons _ _ _ _ _ _ rfl ⟨rfl, by decide⟩ ?_
    exact along_cons _ _ _ _ _ _ rfl ⟨rfl, rfl, fun _ => by decide⟩ trivial)
  have lengths := congrArg List.length routed.external
  exact absurd lengths (by decide)

/-- The steps of a run on the ioctl path. No ping or send fails once its message
is on the way, and memory, stores and user copies do not fail; a send may still
be refused by `rpmsg_send`, and a fetch may ask for any id. -/
def IoctlPath (lib : Interproc) (s : System) : Action → Prop
  | .write _ _ _ => False
  | .pingRproc kernel =>
      (s.driver.ioctlPingRproc lib kernel).sent ≠ [] →
        (s.driver.ioctlPingRproc lib kernel).ret = .ok 0
  | .sendMsg kernel arg =>
      kernel.copyFromUser = true ∧ kernel.copyToUser = true ∧
        ((s.driver.ioctlSendMsg kernel arg).sent ≠ [] →
          (s.driver.ioctlSendMsg kernel arg).ret = .ok 0)
  | .recvMsg kernel _ => kernel.copyFromUser = true ∧ kernel.copyToUser = true
  | .deliver kernel _ => kernel.vmalloc = true ∧ kernel.xaStore = true

/-- What fetches may rely on. Each fetch that returned zero copied out the reply
to the latest send that had returned its id; no reply was copied out twice, and
none that answers a ping; sends whose replies are still unfetched have different
ids. -/
structure Correlated (s : System) : Prop where
  latest : ∀ fetch ∈ s.fetches, ∃ k reply, fetch.request = some k ∧
    fetch.copied = .reply reply ∧ s.answered[k]? = some (.sendMsg (some fetch.id), reply)
  once : (s.fetches.map Fetch.request).Nodup
  distinct : ∀ j k id, s.requests[j]? = some (.sendMsg (some id)) →
    s.requests[k]? = some (.sendMsg (some id)) → ¬ s.Fetched j → ¬ s.Fetched k → j = k

/-- The ledger says that fetches are correlated. -/
theorem Ledger.correlated {s : System} (ledger : s.Ledger) : s.Correlated := by
  constructor
  · exact ledger.fetched
  · exact ledger.once
  · intro j k id first second left right
    exact ledger.unfetched_alone j k id first second left right

/-- Without writes there are no write tokens in the queue. -/
theorem Ledger.head_not_fifo {s : System} (ledger : s.Ledger) (unwritten : s.writes = 0)
    (noWrite : Origin.write ∉ s.outstanding) :
    s.driver.fifoSendTypes.items.head? ≠ some .externalFifo := by
  rw [ledger.tokens, unwritten]
  cases held : s.outstanding with
  | nil => simp
  | cons origin rest =>
    rw [held, List.mem_cons, not_or] at noWrite
    cases origin with
    | write => exact absurd rfl noWrite.1
    | ping => simp [Origin.token]
    | sendMsg id => simp [Origin.token]

/-- The ioctl path adds no write, neither to the count nor to the requests. -/
theorem step_unwritten {lib : Interproc} {s next : System} (action : Action)
    (admitted : IoctlPath lib s action) (taken : step lib s action = some next)
    (unwritten : s.writes = 0 ∧ Origin.write ∉ s.outstanding) :
    next.writes = 0 ∧ Origin.write ∉ next.outstanding := by
  cases action with
  | write kernel buf len => exact admitted.elim
  | pingRproc kernel =>
    obtain ⟨outcome, _, rfl⟩ := Option.map_eq_some_iff.mp taken
    simpa using unwritten
  | sendMsg kernel arg =>
    obtain ⟨outcome, _, rfl⟩ := Option.map_eq_some_iff.mp taken
    simpa using unwritten
  | recvMsg kernel id =>
    obtain ⟨outcome, _, rfl⟩ := Option.map_eq_some_iff.mp taken
    exact unwritten
  | deliver kernel reply =>
    simp only [step] at taken
    split at taken
    · cases taken
    · rename_i origin rest head
      split at taken
      · obtain ⟨outcome, _, rfl⟩ := Option.map_eq_some_iff.mp taken
        refine ⟨unwritten.1, ?_⟩
        intro member
        exact unwritten.2 (by rw [head]; exact List.mem_cons_of_mem _ member)
      · cases taken

/-- In every run on the ioctl path, with any ids fetched and any reuse of ids, a
fetch that returns zero yields the reply to the latest send of its id. -/
theorem fetches_correlated (lib : Interproc) (device : Device) (actions : List Action)
    (s : System) (ran : run (step lib) (initial device) actions = some s)
    (admitted : Along (step lib) (IoctlPath lib) (initial device) actions) : s.Correlated := by
  have kept : s.Ledger ∧ s.writes = 0 ∧ Origin.write ∉ s.outstanding := by
    refine invariant_run (step lib) (IoctlPath lib)
      (fun state => state.Ledger ∧ state.writes = 0 ∧ Origin.write ∉ state.outstanding)
      ?_ (initial device) s actions ⟨initial_ledger device, rfl, by simp [initial]⟩ admitted ran
    rintro state action next ⟨ledger, unwritten⟩ allowed taken
    refine ⟨ledger_step action ledger ?_ taken, step_unwritten action allowed taken unwritten⟩
    cases action with
    | write kernel buf len => exact allowed.elim
    | pingRproc kernel => exact ⟨unwritten.1, allowed⟩
    | sendMsg kernel arg => exact ⟨unwritten.1, allowed.2.2⟩
    | recvMsg kernel id => exact allowed.2
    | deliver kernel reply =>
      refine ⟨allowed.1, allowed.2, ?_⟩
      intro fifo
      exact absurd fifo (ledger.head_not_fifo unwritten.1 unwritten.2)
  exact kept.1.correlated

/-- A send, a ping and a second send; the replies arrive and both ids are fetched,
the first of them once too early and an id that was never issued in between. -/
def fetchingRun : List Action :=
  [.sendMsg {} getFrame, .recvMsg {} 1, .pingRproc {}, .deliver {} ackFrame, .recvMsg {} 7,
    .sendMsg {} getFrame, .recvMsg {} 1, .deliver {} ackFrame, .deliver {} getFrame,
    .recvMsg {} 2]

set_option maxRecDepth 10000 in
/-- The law at that run: the two fetches are of the first and the third request. -/
theorem fetching_run_correlated :
    ∃ s, run (step crc32Interproc) (initial 0) fetchingRun = some s ∧
      s.fetches.map Fetch.request = [some 0, some 2] ∧ s.Correlated := by
  refine ⟨_, rfl, rfl, fetches_correlated crc32Interproc 0 fetchingRun _ rfl ?_⟩
  refine along_cons _ _ _ _ _ _ rfl ⟨rfl, rfl, fun _ => rfl⟩ ?_
  refine along_cons _ _ _ _ _ _ rfl ⟨rfl, rfl⟩ ?_
  refine along_cons _ _ _ _ _ _ rfl (fun _ => rfl) ?_
  refine along_cons _ _ _ _ _ _ rfl ⟨rfl, rfl⟩ ?_
  refine along_cons _ _ _ _ _ _ rfl ⟨rfl, rfl⟩ ?_
  refine along_cons _ _ _ _ _ _ rfl ⟨rfl, rfl, fun _ => rfl⟩ ?_
  refine along_cons _ _ _ _ _ _ rfl ⟨rfl, rfl⟩ ?_
  refine along_cons _ _ _ _ _ _ rfl ⟨rfl, rfl⟩ ?_
  refine along_cons _ _ _ _ _ _ rfl ⟨rfl, rfl⟩ ?_
  exact along_cons _ _ _ _ _ _ rfl ⟨rfl, rfl⟩ trivial

end Stm32Ecu.System
