import Mathlib.Data.List.Nodup
import Stm32Ecu.Runs
import Stm32Ecu.Driver

/-!
# The driver and a remote that answers in order

A reply carries no id. The driver decides what to do with it by position: the
oldest token says who asked, and for a `STM32ECU_SEND_MSG` the oldest queued id
says where to store the answer. The system below is the driver, taken one file
operation at a time, with a remote that answers every message exactly once, in
send order, with a full-size frame whose checksum is valid.

The history is kept beside the driver and never read by it: the requests still
to be answered, the answered ones with their replies, and the fetches that
returned zero. Every law is about the agreement of that history with what the
driver's queues and id map hold.

`ioctl_write` puts one token more than it sends messages. The invariant counts
those surplus tokens and is kept as long as no ping or send follows a write;
the surplus then only ever stands behind write requests and is of their kind.
-/

namespace Stm32Ecu

/-- Who handed a message to the remote, and for a send the id its caller got. -/
inductive Origin where
  | write
  | ping
  | sendMsg (id : Option Nat)
deriving DecidableEq

namespace Origin

/-- The token that routes the reply to where the request wants it. -/
def token : Origin → SentMsg
  | .write => .externalFifo
  | .ping => .internal
  | .sendMsg _ => .externalUnique

/-- The id a send gave to its caller. -/
def givenId : Origin → Option Nat
  | .write => none
  | .ping => none
  | .sendMsg id => id

end Origin

/-- A fetch that returned zero: the id asked for, what was copied out, and the
position of the latest send that had returned that id. -/
structure Fetch where
  id : Nat
  copied : Copied
  request : Option Nat
deriving DecidableEq

/-- The driver with the history of one run. -/
structure System where
  driver : Driver
  answered : List (Origin × InterprocMsg)
  outstanding : List Origin
  writes : Nat
  fetches : List Fetch

/-- One file operation, or the delivery of the next reply. -/
inductive Action where
  | write (kernel : Kernel) (buf : Nat → InterprocMsg) (len : Nat)
  | pingRproc (kernel : Kernel)
  | sendMsg (kernel : Kernel) (arg : InterprocMsg)
  | recvMsg (kernel : Kernel) (id : Nat)
  | deliver (kernel : Kernel) (reply : InterprocMsg)

/-- An operation that faults does not return. -/
def Outcome.settled (outcome : Outcome) : Option Outcome :=
  match outcome.ret with
  | .ok _ => some outcome
  | .error _ => none

/-- The id an operation copied to its caller. -/
def Copied.uid? : Copied → Option Nat
  | .uid id => some id
  | _ => none

theorem Outcome.settled_some (outcome result : Outcome)
    (settled : outcome.settled = some result) : result = outcome := by
  unfold Outcome.settled at settled
  split at settled
  · exact (Option.some.inj settled).symm
  · cases settled

namespace System

/-- Every request handed to the remote, in send order. -/
def requests (s : System) : List Origin := s.answered.map Prod.fst ++ s.outstanding

/-- The position of the last send that returned this id. -/
def latestSend : List Origin → Nat → Option Nat
  | [], _ => none
  | origin :: rest, id =>
      match latestSend rest id with
      | some k => some (k + 1)
      | none => if origin = .sendMsg (some id) then some 0 else none

/-- The reply to the request at this position has been fetched. -/
def Fetched (s : System) (k : Nat) : Prop := some k ∈ s.fetches.map Fetch.request

/-- The module just loaded and one device bound; nothing sent. -/
def initial (device : Device) : System where
  driver := (Driver.rpmsgSampleProbe {} device Driver.loaded).state
  answered := []
  outstanding := []
  writes := 0
  fetches := []

/-- The history after a fetch: one that returned zero is recorded. -/
def recordFetch (s : System) (id : Nat) (outcome : Outcome) : List Fetch :=
  match outcome.ret with
  | .ok 0 => s.fetches ++ [⟨id, outcome.copied, latestSend s.requests id⟩]
  | _ => s.fetches

/-- One action. A delivery needs an unanswered message and a valid reply to it. -/
def step (lib : Interproc) (s : System) : Action → Option System
  | .write kernel buf len =>
      (s.driver.ioctlWrite lib kernel buf len).settled.map (fun outcome =>
        { s with
          driver := outcome.state
          outstanding := s.outstanding ++ outcome.sent.map (fun _ => .write)
          writes := s.writes + 1 })
  | .pingRproc kernel =>
      (s.driver.ioctlPingRproc lib kernel).settled.map (fun outcome =>
        { s with
          driver := outcome.state
          outstanding := s.outstanding ++ outcome.sent.map (fun _ => .ping) })
  | .sendMsg kernel arg =>
      (s.driver.ioctlSendMsg kernel arg).settled.map (fun outcome =>
        { s with
          driver := outcome.state
          outstanding := s.outstanding ++
            outcome.sent.map (fun _ => .sendMsg outcome.copied.uid?) })
  | .recvMsg kernel id =>
      (s.driver.ioctlRecvMsg kernel id).settled.map (fun outcome =>
        { s with driver := outcome.state, fetches := s.recordFetch id outcome })
  | .deliver kernel reply =>
      match s.outstanding with
      | [] => none
      | origin :: rest =>
          if lib.crcOk reply then
            (s.driver.rpmsgSampleCb lib kernel (some reply) lib.sizeofMsg).settled.map
              (fun outcome =>
                { s with
                  driver := outcome.state
                  answered := s.answered ++ [(origin, reply)]
                  outstanding := rest })
          else none

/-- The reply, when its request came from `write()`. -/
def writeReply : Origin × InterprocMsg → Option InterprocMsg
  | (.write, reply) => some reply
  | _ => none

/-- The history and the driver agree. The tokens are those of the unanswered
requests followed by one surplus token a write; the queued ids are those of the
unanswered sends; the read queue holds the replies to writes; an id is reserved
while its send is unanswered and filled while its reply is unfetched; and a send
that got an id again came after the earlier reply under it was fetched. -/
structure Ledger (s : System) : Prop where
  bound : ∃ device, s.driver.rproc = .ok device
  tokens : s.driver.fifoSendTypes.items =
    s.outstanding.map Origin.token ++ List.replicate s.writes .externalFifo
  ids : s.driver.fifoUniqueIds.items = s.outstanding.filterMap Origin.givenId
  named : Origin.sendMsg none ∉ s.outstanding
  external : s.driver.fifoExternalMsg.items = s.answered.filterMap writeReply
  reserved : ∀ id, Origin.sendMsg (some id) ∈ s.outstanding →
    s.driver.rxUniqueBuffer.slot id = .reserved
  stored : ∀ k id reply, s.answered[k]? = some (.sendMsg (some id), reply) → ¬ s.Fetched k →
    ∃ address, s.driver.rxUniqueBuffer.slot id = .filled ⟨address, reply⟩
  filled : ∀ id block, s.driver.rxUniqueBuffer.slot id = .filled block →
    ∃ k, s.answered[k]? = some (.sendMsg (some id), block.msg) ∧ ¬ s.Fetched k
  older : ∀ j k id, j < k → s.requests[j]? = some (.sendMsg (some id)) →
    s.requests[k]? = some (.sendMsg (some id)) → s.Fetched j
  fetched : ∀ fetch ∈ s.fetches, ∃ k reply, fetch.request = some k ∧
    fetch.copied = .reply reply ∧ s.answered[k]? = some (.sendMsg (some fetch.id), reply)
  once : (s.fetches.map Fetch.request).Nodup

/-- Nothing has been sent, stored or fetched at the start. -/
theorem initial_ledger (device : Device) : (initial device).Ledger := by
  constructor <;>
    simp [initial, Driver.rpmsgSampleProbe, Driver.loaded, Driver.rproc, requests, SlotMap.empty]

/-- An answered request stands at the position of its answer. -/
theorem answered_request (s : System) (k : Nat) (origin : Origin) (reply : InterprocMsg)
    (found : s.answered[k]? = some (origin, reply)) : s.requests[k]? = some origin := by
  have inside : k < s.answered.length := (List.getElem?_eq_some_iff.mp found).1
  rw [requests, List.getElem?_append_left (by simpa using inside), List.getElem?_map, found]
  rfl

/-- New messages stand after all earlier ones. -/
theorem requests_append (s : System) (driver : Driver) (added : List Origin) (writes : Nat)
    (fetches : List Fetch) :
    requests ⟨driver, s.answered, s.outstanding ++ added, writes, fetches⟩ =
      s.requests ++ added := by
  simp [requests]

/-- A request is answered or still outstanding. -/
theorem request_cases (s : System) (k : Nat) (origin : Origin)
    (found : s.requests[k]? = some origin) :
    (∃ reply, s.answered[k]? = some (origin, reply)) ∨
      (s.answered.length ≤ k ∧ origin ∈ s.outstanding) := by
  by_cases inside : k < s.answered.length
  · rw [requests, List.getElem?_append_left (by simpa using inside), List.getElem?_map] at found
    obtain ⟨⟨asked, reply⟩, entry, rfl⟩ := Option.map_eq_some_iff.mp found
    exact Or.inl ⟨reply, entry⟩
  · have beyond : s.answered.length ≤ k := Nat.le_of_not_gt inside
    rw [requests, List.getElem?_append_right (by simpa using beyond)] at found
    exact Or.inr ⟨beyond, List.mem_of_getElem? found⟩

/-- No position is found exactly when no send returned the id. -/
theorem latestSend_none (requests : List Origin) (id : Nat)
    (absent : Origin.sendMsg (some id) ∉ requests) : latestSend requests id = none := by
  induction requests with
  | nil => rfl
  | cons origin rest ih =>
    rw [List.mem_cons, not_or] at absent
    simp [latestSend, ih absent.2, Ne.symm absent.1]

/-- A send of the id with no later one of the same id is the latest. -/
theorem latestSend_some (requests : List Origin) (id k : Nat)
    (found : requests[k]? = some (.sendMsg (some id)))
    (last : ∀ j, k < j → requests[j]? ≠ some (.sendMsg (some id))) :
    latestSend requests id = some k := by
  induction requests generalizing k with
  | nil => simp at found
  | cons origin rest ih =>
    cases k with
    | zero =>
      have absent : Origin.sendMsg (some id) ∉ rest := by
        intro member
        obtain ⟨j, later⟩ := List.mem_iff_getElem?.mp member
        exact last (j + 1) (Nat.succ_pos j) (by simpa using later)
      have same : origin = .sendMsg (some id) := by simpa using found
      simp [latestSend, latestSend_none rest id absent, same]
    | succ k =>
      have inner := ih k (by simpa using found) (by
        intro j after
        simpa using last (j + 1) (Nat.succ_lt_succ after))
      simp [latestSend, inner]

/-- An entry of a list with one more element is an old entry or the new one. -/
theorem snoc_lookup {α : Type} (entries : List α) (added entry : α) (k : Nat)
    (found : (entries ++ [added])[k]? = some entry) :
    entries[k]? = some entry ∨ (k = entries.length ∧ added = entry) := by
  by_cases inside : k < entries.length
  · rw [List.getElem?_append_left inside] at found
    exact Or.inl found
  · rw [List.getElem?_append_right (Nat.le_of_not_gt inside)] at found
    have bound := (List.getElem?_eq_some_iff.mp found).1
    have last : k = entries.length := by
      rw [List.length_singleton] at bound
      omega
    subst last
    exact Or.inr ⟨rfl, by simpa using found⟩

/-- Old entries stay where they were. -/
theorem snoc_lookup_old {α : Type} (entries : List α) (added entry : α) (k : Nat)
    (found : entries[k]? = some entry) : (entries ++ [added])[k]? = some entry := by
  rw [List.getElem?_append_left (List.getElem?_eq_some_iff.mp found).1]
  exact found

namespace Ledger

variable {s : System}

/-- Only answered requests have been fetched. -/
theorem fetched_answered (ledger : s.Ledger) (k : Nat) (fetched : s.Fetched k) :
    k < s.answered.length := by
  obtain ⟨fetch, member, same⟩ := List.mem_map.mp fetched
  obtain ⟨position, reply, request, _, found⟩ := ledger.fetched fetch member
  have equal : position = k := Option.some.inj (request.symm.trans same)
  exact equal ▸ (List.getElem?_eq_some_iff.mp found).1

/-- While its reply is unfetched, the id of a send is not free. -/
theorem occupied (ledger : s.Ledger) (k id : Nat)
    (found : s.requests[k]? = some (.sendMsg (some id))) (unfetched : ¬ s.Fetched k) :
    s.driver.rxUniqueBuffer.slot id ≠ .free := by
  rcases request_cases s k _ found with ⟨reply, entry⟩ | ⟨_, member⟩
  · obtain ⟨address, held⟩ := ledger.stored k id reply entry unfetched
    simp [held]
  · simp [ledger.reserved id member]

/-- Requests that give out no id extend the ledger once their tokens are in the
queue. Writes and pings are of this kind. -/
theorem extend (ledger : s.Ledger) (added : List Origin) (types : BoundedFifo SentMsg 512)
    (heap : Heap) (writes : Nat) (plain : ∀ origin ∈ added, origin = .write ∨ origin = .ping)
    (tokens : types.items =
      (s.outstanding ++ added).map Origin.token ++ List.replicate writes .externalFifo) :
    Ledger { s with
      driver := { s.driver with fifoSendTypes := types, heap := heap }
      outstanding := s.outstanding ++ added
      writes := writes } := by
  have noId : ∀ id, Origin.sendMsg id ∉ added := by
    intro id member
    rcases plain _ member with same | same <;> cases same
  have sameIds : added.filterMap Origin.givenId = [] := by
    rw [List.filterMap_eq_nil_iff]
    intro origin member
    rcases plain origin member with rfl | rfl <;> rfl
  refine ⟨ledger.bound, tokens, ?_, ?_, ledger.external, ?_, ledger.stored, ledger.filled, ?_,
    ledger.fetched, ledger.once⟩
  · simp [ledger.ids, sameIds]
  · simp [ledger.named, noId]
  · intro id member
    rcases List.mem_append.mp member with old | new
    · exact ledger.reserved id old
    · exact absurd new (noId (some id))
  · intro j k id before first second
    rw [requests_append] at first second
    by_cases inside : k < s.requests.length
    · rw [List.getElem?_append_left inside] at second
      rw [List.getElem?_append_left (Nat.lt_trans before inside)] at first
      exact ledger.older j k id before first second
    · rw [List.getElem?_append_right (Nat.le_of_not_gt inside)] at second
      exact absurd (List.mem_of_getElem? second) (noId (some id))

/-- A send whose bookkeeping returned zero extends the ledger. The id was free,
so every earlier send that got it has been fetched. -/
theorem send (ledger : s.Ledger) (id next : Nat) (types : BoundedFifo SentMsg 512)
    (ids : BoundedFifo Nat 256) (unwritten : s.writes = 0)
    (tokens : types.items = s.driver.fifoSendTypes.items ++ [.externalUnique])
    (queued : ids.items = s.driver.fifoUniqueIds.items ++ [id])
    (free : s.driver.rxUniqueBuffer.slot id = .free) :
    Ledger { s with
      driver := { s.driver with
        fifoSendTypes := types
        fifoUniqueIds := ids
        rxUniqueBuffer := s.driver.rxUniqueBuffer.set id .reserved
        next := next }
      outstanding := s.outstanding ++ [.sendMsg (some id)] } := by
  have absent : Origin.sendMsg (some id) ∉ s.outstanding := by
    intro member
    simp [ledger.reserved id member] at free
  refine ⟨ledger.bound, ?_, ?_, ?_, ledger.external, ?_, ?_, ?_, ?_, ledger.fetched, ledger.once⟩
  · simp [tokens, ledger.tokens, unwritten, Origin.token]
  · simp [queued, ledger.ids, Origin.givenId]
  · simp [ledger.named]
  · intro other member
    by_cases same : other = id
    · subst other
      exact SlotMap.set_slot_same _ _ _
    · have old : Origin.sendMsg (some other) ∈ s.outstanding := by
        simpa [same] using member
      exact (SlotMap.set_slot_other _ _ _ _ same).trans (ledger.reserved other old)
  · intro k other reply entry unfetched
    obtain ⟨address, held⟩ := ledger.stored k other reply entry unfetched
    have different : other ≠ id := by
      rintro rfl
      simp [held] at free
    exact ⟨address, (SlotMap.set_slot_other _ _ _ _ different).trans held⟩
  · intro other block held
    exact ledger.filled other block ((SlotMap.set_filled_iff _ _ _ _ _ rfl).mp held).2
  · intro j k other before first second
    rw [requests_append] at first second
    by_cases inside : k < s.requests.length
    · rw [List.getElem?_append_left inside] at second
      rw [List.getElem?_append_left (Nat.lt_trans before inside)] at first
      exact ledger.older j k other before first second
    · -- The new send is the last request, so `first` is an old one with its id.
      have last : k = s.requests.length := by
        have bound := (List.getElem?_eq_some_iff.mp second).1
        simp only [List.length_append, List.length_singleton] at bound
        omega
      subst last
      rw [List.getElem?_append_left before] at first
      have same : id = other := by simpa using second
      subst same
      by_contra unfetched
      exact ledger.occupied j id first unfetched free

/-- No two outstanding sends share an id. -/
theorem head_alone (ledger : s.Ledger) (id : Nat) (rest : List Origin)
    (head : s.outstanding = .sendMsg (some id) :: rest) :
    Origin.sendMsg (some id) ∉ rest := by
  intro member
  obtain ⟨i, later⟩ := List.mem_iff_getElem?.mp member
  have first : s.requests[s.answered.length]? = some (.sendMsg (some id)) := by
    rw [requests, List.getElem?_append_right (by simp), head]
    simp
  have second : s.requests[s.answered.length + (i + 1)]? = some (.sendMsg (some id)) := by
    rw [requests, List.getElem?_append_right (by simp), head]
    simpa using later
  have fetched := ledger.older _ _ id (by omega) first second
  exact Nat.lt_irrefl _ (ledger.fetched_answered _ fetched)

/-- Answering the oldest request keeps the ledger when its token and id leave the
queues, a write's reply joins the read queue, and the reply to a send fills that
send's slot and no other. -/
theorem advance (ledger : s.Ledger) (origin : Origin) (rest : List Origin) (reply : InterprocMsg)
    (head : s.outstanding = origin :: rest) (types : BoundedFifo SentMsg 512)
    (ids : BoundedFifo Nat 256) (queue : BoundedFifo InterprocMsg 256) (buffer : SlotMap Block)
    (heap : Heap)
    (tokens : types.items =
      rest.map Origin.token ++ List.replicate s.writes .externalFifo)
    (queued : ids.items = rest.filterMap Origin.givenId)
    (external : queue.items = (s.answered ++ [(origin, reply)]).filterMap writeReply)
    (others : ∀ id, origin ≠ .sendMsg (some id) →
      buffer.slot id = s.driver.rxUniqueBuffer.slot id)
    (own : ∀ id, origin = .sendMsg (some id) →
      ∃ address, buffer.slot id = .filled ⟨address, reply⟩) :
    Ledger { s with
      driver := { s.driver with
        fifoSendTypes := types
        fifoUniqueIds := ids
        fifoExternalMsg := queue
        heap := heap
        rxUniqueBuffer := buffer }
      answered := s.answered ++ [(origin, reply)]
      outstanding := rest } := by
  have sameRequests : (s.answered ++ [(origin, reply)]).map Prod.fst ++ rest = s.requests := by
    simp [requests, head]
  refine ⟨ledger.bound, tokens, queued, ?_, external, ?_, ?_, ?_, ?_, ?_, ledger.once⟩
  · have named := ledger.named
    rw [head, List.mem_cons, not_or] at named
    exact named.2
  · intro id member
    have different : origin ≠ .sendMsg (some id) := by
      rintro rfl
      exact ledger.head_alone id rest head member
    exact (others id different).trans
      (ledger.reserved id (by rw [head]; exact List.mem_cons_of_mem _ member))
  · intro k id stored entry unfetched
    rcases snoc_lookup _ _ _ _ entry with old | ⟨_, new⟩
    · obtain ⟨address, held⟩ := ledger.stored k id stored old unfetched
      have different : origin ≠ .sendMsg (some id) := by
        rintro rfl
        simp [ledger.reserved id (by rw [head]; exact List.mem_cons_self)] at held
      exact ⟨address, (others id different).trans held⟩
    · obtain ⟨same, rfl⟩ := Prod.mk.inj new
      exact own id same
  · intro id block held
    by_cases same : origin = .sendMsg (some id)
    · obtain ⟨address, filled⟩ := own id same
      have blockSame : ⟨address, reply⟩ = block := Slot.filled.inj (filled.symm.trans held)
      subst blockSame
      refine ⟨s.answered.length, by simp [same], ?_⟩
      intro fetched
      exact Nat.lt_irrefl _ (ledger.fetched_answered _ fetched)
    · obtain ⟨k, entry, unfetched⟩ := ledger.filled id block ((others id same).symm.trans held)
      exact ⟨k, snoc_lookup_old _ _ _ _ entry, unfetched⟩
  · intro j k id before first second
    rw [requests, sameRequests] at first second
    exact ledger.older j k id before first second
  · intro fetch member
    obtain ⟨k, stored, request, copied, entry⟩ := ledger.fetched fetch member
    exact ⟨k, stored, request, copied, snoc_lookup_old _ _ _ _ entry⟩

/-- A filled slot holds the reply to the latest send of its id, not yet fetched. -/
theorem filled_latest (ledger : s.Ledger) (id : Nat) (block : Block)
    (held : s.driver.rxUniqueBuffer.slot id = .filled block) :
    ∃ k, latestSend s.requests id = some k ∧
      s.answered[k]? = some (.sendMsg (some id), block.msg) ∧ ¬ s.Fetched k := by
  obtain ⟨k, entry, unfetched⟩ := ledger.filled id block held
  have asked : s.requests[k]? = some (.sendMsg (some id)) := answered_request s k _ _ entry
  refine ⟨k, latestSend_some _ _ _ asked ?_, entry, unfetched⟩
  intro j after later
  exact unfetched (ledger.older k j id after asked later)

/-- Two unfetched sends of one id are the same send, the earlier of two having
been fetched. -/
theorem unfetched_alone (ledger : s.Ledger) (j k id : Nat)
    (first : s.requests[j]? = some (.sendMsg (some id)))
    (second : s.requests[k]? = some (.sendMsg (some id))) (left : ¬ s.Fetched j)
    (right : ¬ s.Fetched k) : j = k := by
  rcases Nat.lt_trichotomy j k with before | same | after
  · exact absurd (ledger.older j k id before first second) left
  · exact same
  · exact absurd (ledger.older k j id after second first) right

/-- A fetch that returned zero took the reply to the latest send of its id, which
had not been fetched before. -/
theorem fetch (ledger : s.Ledger) (id : Nat) (block : Block)
    (held : s.driver.rxUniqueBuffer.slot id = .filled block) :
    Ledger { s with
      driver := { s.driver with rxUniqueBuffer := s.driver.rxUniqueBuffer.erase id }
      fetches := s.fetches ++ [⟨id, .reply block.msg, latestSend s.requests id⟩] } := by
  obtain ⟨k, latest, entry, unfetched⟩ := ledger.filled_latest id block held
  rw [latest]
  have now (j : Nat) :
      some j ∈ (s.fetches ++ [Fetch.mk id (.reply block.msg) (some k)]).map Fetch.request ↔
        s.Fetched j ∨ j = k := by
    simp [Fetched]
  refine ⟨ledger.bound, ledger.tokens, ledger.ids, ledger.named, ledger.external, ?_, ?_, ?_, ?_,
    ?_, ?_⟩
  · intro other member
    have different : other ≠ id := by
      rintro rfl
      simp [ledger.reserved other member] at held
    exact (SlotMap.set_slot_other _ _ _ _ different).trans (ledger.reserved other member)
  · intro j other reply found remains
    rw [Fetched, now, not_or] at remains
    obtain ⟨address, filled⟩ := ledger.stored j other reply found remains.1
    have different : other ≠ id := by
      rintro rfl
      exact remains.2 (ledger.unfetched_alone j k other (answered_request s j _ _ found)
        (answered_request s k _ _ entry) remains.1 unfetched)
    exact ⟨address, (SlotMap.set_slot_other _ _ _ _ different).trans filled⟩
  · intro other stored filled
    obtain ⟨different, before⟩ := (SlotMap.set_filled_iff _ _ _ _ _ rfl).mp filled
    obtain ⟨j, found, old⟩ := ledger.filled other stored before
    refine ⟨j, found, ?_⟩
    rw [Fetched, now, not_or]
    refine ⟨old, ?_⟩
    rintro rfl
    have equal : other = id ∧ stored.msg = block.msg := by
      simpa using found.symm.trans entry
    exact different equal.1
  · intro j other later before first second
    exact (now j).mpr (Or.inl (ledger.older j other later before first second))
  · intro fetch member
    rcases List.mem_append.mp member with before | added
    · exact ledger.fetched fetch before
    · have same : fetch = ⟨id, .reply block.msg, some k⟩ := List.mem_singleton.mp added
      subst same
      exact ⟨k, block.msg, rfl, rfl, entry⟩
  · rw [List.map_append]
    refine List.nodup_append.mpr ⟨ledger.once, List.nodup_singleton _, ?_⟩
    rintro request before other added rfl
    have same : request = some k := by simpa using added
    subst same
    exact unfetched before

end Ledger

/-- What the ledger needs of each step: a write with no failing send and room for
its tokens; no ping or send after a write, and none that fails once its message
is on the way; fetches whose copy succeeds; replies that can be kept. -/
def Sound (lib : Interproc) (s : System) : Action → Prop
  | .write kernel buf len =>
      (∀ position, kernel.rpmsgSend position = 0) ∧
        s.driver.fifoSendTypes.items.length + 1 +
          (s.driver.ioctlWrite lib kernel buf len).sent.length ≤ 512
  | .pingRproc kernel =>
      s.writes = 0 ∧ ((s.driver.ioctlPingRproc lib kernel).sent ≠ [] →
        (s.driver.ioctlPingRproc lib kernel).ret = .ok 0)
  | .sendMsg kernel arg =>
      s.writes = 0 ∧ ((s.driver.ioctlSendMsg kernel arg).sent ≠ [] →
        (s.driver.ioctlSendMsg kernel arg).ret = .ok 0)
  | .recvMsg kernel _ => kernel.copyToUser = true
  | .deliver kernel _ =>
      kernel.vmalloc = true ∧ kernel.xaStore = true ∧
        (s.driver.fifoSendTypes.items.head? = some .externalFifo →
          s.driver.fifoExternalMsg.items.length < 256)

section Steps

variable {lib : Interproc} {s next : System}

/-- A write appends its messages' tokens and one more; both kinds are the same,
so the surplus may be counted at the end. -/
theorem write_ledger (ledger : s.Ledger) (kernel : Kernel) (buf : Nat → InterprocMsg) (len : Nat)
    (sound : Sound lib s (.write kernel buf len))
    (taken : step lib s (.write kernel buf len) = some next) : next.Ledger := by
  obtain ⟨outcome, settled, rfl⟩ := Option.map_eq_some_iff.mp taken
  obtain rfl := Outcome.settled_some _ _ settled
  obtain ⟨device, bound⟩ := ledger.bound
  have tokens := Driver.ioctlWrite_tokens lib kernel buf len s.driver device bound sound.1 sound.2
  obtain ⟨types, state⟩ := Driver.ioctlWrite_frame lib kernel buf len s.driver
  rw [state] at tokens ⊢
  refine ledger.extend _ types _ (s.writes + 1) (by simp) ?_
  rw [tokens, ledger.tokens]
  simp only [List.map_append, List.map_const', List.map_replicate, Origin.token,
    List.append_assoc, List.append_cancel_left_eq]
  rw [← List.replicate_succ, List.replicate_append_replicate, List.replicate_append_replicate]
  congr 1
  omega

/-- A ping appends its token with its message, or does nothing. -/
theorem ping_ledger (ledger : s.Ledger) (kernel : Kernel)
    (sound : Sound lib s (.pingRproc kernel))
    (taken : step lib s (.pingRproc kernel) = some next) : next.Ledger := by
  obtain ⟨outcome, settled, rfl⟩ := Option.map_eq_some_iff.mp taken
  obtain rfl := Outcome.settled_some _ _ settled
  rcases Driver.ioctlPingRproc_cases lib kernel s.driver with ⟨sent, state⟩ | ⟨sent, state, ret⟩
  · simpa [sent, state] using ledger
  · have room : s.driver.fifoSendTypes.items.length < 512 := by
      have zero := sound.2 (by simp [sent])
      rw [ret] at zero
      by_contra full
      simp [full, EINVAL] at zero
    have tokens : (s.driver.fifoSendTypes.put .internal).2.items =
        s.driver.fifoSendTypes.items ++ [.internal] := BoundedFifo.put_items _ _ room
    rw [state, sent]
    refine ledger.extend [.ping] _ s.driver.heap s.writes (by simp) ?_
    simp [tokens, ledger.tokens, sound.1, Origin.token]

/-- A send appends token and id with its message, or does nothing. -/
theorem send_ledger (ledger : s.Ledger) (kernel : Kernel) (arg : InterprocMsg)
    (sound : Sound lib s (.sendMsg kernel arg))
    (taken : step lib s (.sendMsg kernel arg) = some next) : next.Ledger := by
  obtain ⟨outcome, settled, rfl⟩ := Option.map_eq_some_iff.mp taken
  obtain rfl := Outcome.settled_some _ _ settled
  rcases Driver.ioctlSendMsg_cases kernel arg s.driver with ⟨sent, state⟩ | booked
  · simpa [sent, state] using ledger
  · have zero : (Driver.bookSendMsg kernel s.driver).ret = .ok 0 := by
      have returned := sound.2 (by simp [booked])
      simpa [booked] using returned
    obtain ⟨id, types, ids, tokens, queued, _, _, free, copied, state⟩ :=
      Driver.bookSendMsg_zero kernel s.driver zero
    rw [booked]
    simp only [state, copied, Copied.uid?, List.map_cons, List.map_nil]
    exact ledger.send id (id + 1) types ids sound.1 tokens queued free

/-- A fetch takes a stored reply, or does nothing. -/
theorem recv_ledger (ledger : s.Ledger) (kernel : Kernel) (id : Nat)
    (sound : Sound lib s (.recvMsg kernel id))
    (taken : step lib s (.recvMsg kernel id) = some next) : next.Ledger := by
  obtain ⟨outcome, settled, rfl⟩ := Option.map_eq_some_iff.mp taken
  obtain rfl := Outcome.settled_some _ _ settled
  by_cases zero : (Driver.ioctlRecvMsg kernel id s.driver).ret = .ok 0
  · obtain ⟨block, held, copied, state⟩ := Driver.ioctlRecvMsg_zero kernel id s.driver zero
    simp only [recordFetch, zero, copied, state]
    exact ledger.fetch id block held
  · have unchanged := Driver.ioctlRecvMsg_nonzero kernel id s.driver sound zero
    have same : s.recordFetch id (Driver.ioctlRecvMsg kernel id s.driver) = s.fetches := by
      unfold recordFetch
      split
      · rename_i returned
        exact absurd returned zero
      · rfl
    simpa [unchanged, same] using ledger

/-- A delivery answers the oldest request, and the oldest token is that request's
own: the surplus stands behind it. -/
theorem deliver_ledger (ledger : s.Ledger) (kernel : Kernel) (reply : InterprocMsg)
    (sound : Sound lib s (.deliver kernel reply))
    (taken : step lib s (.deliver kernel reply) = some next) : next.Ledger := by
  obtain ⟨memory, stores, room⟩ := sound
  simp only [step] at taken
  split at taken
  · cases taken
  · rename_i origin rest head
    split at taken
    · rename_i valid
      obtain ⟨outcome, settled, rfl⟩ := Option.map_eq_some_iff.mp taken
      obtain rfl := Outcome.settled_some _ _ settled
      have tokens : s.driver.fifoSendTypes.items = origin.token ::
          (rest.map Origin.token ++ List.replicate s.writes .externalFifo) := by
        rw [ledger.tokens, head, List.map_cons, List.cons_append]
      have ids := ledger.ids
      rw [head] at ids
      cases origin with
      | write =>
        obtain ⟨types, queue, remaining, queued, result⟩ := Driver.rpmsgSampleCb_fifo lib kernel
          reply s.driver _ valid tokens (room (by simp [tokens, Origin.token]))
        rw [result]
        refine ledger.advance .write rest reply head types s.driver.fifoUniqueIds queue
          s.driver.rxUniqueBuffer s.driver.heap remaining ?_ ?_ (fun _ _ => rfl) (by simp)
        · exact ids
        · simp [queued, ledger.external, writeReply]
      | ping =>
        obtain ⟨types, remaining, result⟩ := Driver.rpmsgSampleCb_internal lib kernel
          reply s.driver _ valid tokens
        rw [result]
        refine ledger.advance .ping rest reply head types s.driver.fifoUniqueIds
          s.driver.fifoExternalMsg s.driver.rxUniqueBuffer s.driver.heap remaining ?_ ?_
          (fun _ _ => rfl) (by simp)
        · exact ids
        · simp [ledger.external, writeReply]
      | sendMsg given =>
        cases given with
        | none => exact absurd (by rw [head]; exact List.mem_cons_self) ledger.named
        | some id =>
          obtain ⟨types, queuedIds, heap, address, remaining, behind, result⟩ :=
            Driver.rpmsgSampleCb_unique lib kernel reply s.driver _ id
              (rest.filterMap Origin.givenId) valid memory stores tokens
              (by simpa [Origin.givenId] using ids)
          rw [result]
          refine ledger.advance (.sendMsg (some id)) rest reply head types queuedIds
            s.driver.fifoExternalMsg _ heap remaining behind ?_ ?_ ?_
          · simp [ledger.external, writeReply]
          · intro other different
            exact SlotMap.set_slot_other _ _ _ _ (fun same => different (by rw [same]))
          · intro other same
            have equal : id = other := by simpa using same
            subst equal
            exact ⟨address, SlotMap.set_slot_same _ _ _⟩
    · cases taken

/-- Every sound step keeps the ledger. -/
theorem ledger_step (action : Action) (ledger : s.Ledger) (sound : Sound lib s action)
    (taken : step lib s action = some next) : next.Ledger := by
  cases action with
  | write kernel buf len => exact write_ledger ledger kernel buf len sound taken
  | pingRproc kernel => exact ping_ledger ledger kernel sound taken
  | sendMsg kernel arg => exact send_ledger ledger kernel arg sound taken
  | recvMsg kernel id => exact recv_ledger ledger kernel id sound taken
  | deliver kernel reply => exact deliver_ledger ledger kernel reply sound taken

end Steps

end System

end Stm32Ecu
