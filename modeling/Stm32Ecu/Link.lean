import Stm32Ecu.Runs
import Stm32Ecu.Driver
import Stm32Ecu.Parameters
import Stm32Ecu.Routing

/-!
# The driver and the M4 over in-order channels

The driver pairs replies with requests by position, so it relies on the M4 to
answer every message exactly once, with a full-size frame whose checksum matches.
This module follows both parties over channels that lose and reorder nothing.

The M4 answers a message once exactly when its checksum matches and its command
is a ping, a reset or a parameter request. As long as the driver hands over
nothing else, the k-th reply it receives answers the k-th message it sent. An
acknowledgement always passes the driver's checksum comparison. A parameter reply
goes out with the checksum zero, so whether it passes is up to the value that is
stored under the name in the request.
-/

namespace Stm32Ecu

open Runs

namespace RpmsgManager

/-- The M4 answers this message with exactly one full-size frame. -/
def OneReply (lib : Interproc) (store : ParameterStore) (manager : RpmsgManager)
    (msg : InterprocMsg) : Prop :=
  ∃ reply, (stm32ecuRecvCb lib store msg lib.sizeofMsg manager).1 = [⟨reply, lib.sizeofMsg⟩]

/-- The checksum matches and the command is one of the three that are answered. -/
def Answerable (lib : Interproc) (msg : InterprocMsg) : Prop :=
  lib.crcOk msg = true ∧
    (msg.command = .ping ∨ msg.command = .reset ∨ msg.command = .paramGet)

/-- The dispatcher sends one full-size frame for three commands and none for the
others. -/
theorem dispatch_one_iff (lib : Interproc) (store : ParameterStore) (msg : InterprocMsg) :
    (∃ reply, dispatch lib store msg = [⟨reply, lib.sizeofMsg⟩]) ↔
      msg.command = .ping ∨ msg.command = .reset ∨ msg.command = .paramGet := by
  unfold dispatch
  cases msg.command <;> simp [sendAck, paramGet]

/-- A message has exactly one reply if it can be answered. -/
theorem oneReply_iff (lib : Interproc) (store : ParameterStore) (checks : lib.CheckExact)
    (manager : RpmsgManager) (msg : InterprocMsg) :
    OneReply lib store manager msg ↔ Answerable lib msg := by
  rw [OneReply, Answerable, ← dispatch_one_iff lib store msg, ← checks msg]
  unfold stm32ecuRecvCb
  by_cases accepted : 0 < lib.interprocMsgCheck msg
  · simp [accepted]
  · simp [accepted]

/-- A parameter request that the callback accepts. -/
def AsksParameter (lib : Interproc) (msg : InterprocMsg) (len : Nat) : Prop :=
  len = lib.sizeofMsg ∧ 0 < lib.interprocMsgCheck msg ∧ msg.command = .paramGet

/-- The bytes that stand for what is stored under the name in the request have the checksum
zero: those of the value at the type in the tag, or those of the error text for a tag that
names no type. -/
structure SumsToZero (lib : Interproc) (store : ParameterStore) (data : Data) : Prop where
  value : ∀ value, store.getParameterValue (store.parameterType data) (paramName data) =
    some value → lib.calcCrc .ack value.field = 0
  error : (store.parameterType data).listed = false →
    lib.calcCrc .unknown (Data.pad parameterTypeError) = 0

/-- The reply to a parameter request carries the checksum zero over the bytes of the value, or
of the error text. -/
theorem paramReply_crcOk_iff (lib : Interproc) (store : ParameterStore) (data : Data) :
    lib.crcOk (paramReply store data) = true ↔ SumsToZero lib store data := by
  rw [paramReply_lookup]
  cases stored : store.getParameterValue (store.parameterType data) (paramName data) with
  | none =>
    have unlisted : (store.parameterType data).listed = false := by
      cases tag : store.parameterType data <;> rw [tag] at stored <;> first | rfl | cases stored
    simp only [Interproc.crcOk, beq_iff_eq]
    constructor
    · exact fun zero => ⟨fun value found => absurd (found.symm.trans stored) (by simp),
        fun _ => zero⟩
    · exact fun zero => zero.error unlisted
  | some found =>
    have listed : (store.parameterType data).listed = true := by
      rw [← Bool.not_eq_false]
      intro unlisted
      rw [getParameterValue_unlisted store _ _ unlisted] at stored
      cases stored
    simp only [Interproc.crcOk, beq_iff_eq]
    constructor
    · intro zero
      refine ⟨fun value same => ?_, fun unlisted => absurd (listed.symm.trans unlisted) (by simp)⟩
      obtain rfl := Option.some.inj (stored.symm.trans same)
      exact zero
    · exact fun zero => zero.value found stored

/-- Every frame the M4 sends passes the driver's checksum comparison exactly when
the request is not an accepted parameter request, or what is stored under its name
has bytes whose checksum happens to be zero. -/
theorem replies_pass_iff (lib : Interproc) (store : ParameterStore) (manager : RpmsgManager)
    (msg : InterprocMsg) (len : Nat) (makes : lib.MakeStamps) (pure : lib.ChecksumPure) :
    (∀ send ∈ (stm32ecuRecvCb lib store msg len manager).1, lib.crcOk send.msg = true) ↔
      (AsksParameter lib msg len → SumsToZero lib store msg.data) := by
  by_cases accepted : len = lib.sizeofMsg ∧ 0 < lib.interprocMsgCheck msg
  · have sends : (stm32ecuRecvCb lib store msg len manager).1 = dispatch lib store msg := by
      simp only [stm32ecuRecvCb, accepted, and_self, ↓reduceIte]
    rw [sends]
    by_cases asks : msg.command = .paramGet
    · have one : dispatch lib store msg = [⟨paramReply store msg.data, lib.sizeofMsg⟩] := by
        simp [dispatch, asks, paramGet, pure (paramReply store msg.data)]
      rw [one, List.forall_mem_singleton, paramReply_crcOk_iff]
      exact ⟨fun zero _ => zero, fun zero => zero ⟨accepted.1, accepted.2, asks⟩⟩
    · have acks : ∀ send ∈ dispatch lib store msg, lib.crcOk send.msg = true := by
        intro send member
        unfold dispatch at member
        cases command : msg.command <;> simp_all [sendAck, makes .ack []]
      exact ⟨fun _ isParam => absurd isParam.2.2 asks, fun _ => acks⟩
  · have silent : (stm32ecuRecvCb lib store msg len manager).1 = [] := by
      simp only [stm32ecuRecvCb, accepted, ↓reduceIte]
    rw [silent]
    refine ⟨fun _ isParam => absurd ⟨isParam.1, isParam.2.1⟩ accepted, fun _ => ?_⟩
    simp

/-- The law at a ping: its acknowledgement passes. -/
theorem ping_reply_passes :
    (stm32ecuRecvCb crc32Interproc oneDouble (crc32Interproc.stamp .ping Data.zero) 16
        initial).1.length = 1 ∧
      ∀ send ∈ (stm32ecuRecvCb crc32Interproc oneDouble (crc32Interproc.stamp .ping Data.zero) 16
        initial).1, crc32Interproc.crcOk send.msg = true := by
  refine ⟨by decide +kernel, (replies_pass_iff crc32Interproc oneDouble initial _ 16
    crc32Interproc_makeStamps crc32Interproc_checksumPure).mpr ?_⟩
  rintro ⟨_, _, isParam⟩
  cases isParam

/-- A request for the double: its tag and a name of one letter. -/
def doubleRequest : InterprocMsg := crc32Interproc.stamp .paramGet (Data.pad [3, 0x70])

/-- Not every reply passes: the answer to this request carries the checksum zero. -/
theorem double_reply_fails :
    ¬ ∀ (lib : Interproc) (store : ParameterStore) (manager : RpmsgManager) (msg : InterprocMsg)
        (len : Nat), lib.MakeStamps → lib.ChecksumPure →
      ∀ send ∈ (stm32ecuRecvCb lib store msg len manager).1, lib.crcOk send.msg = true := by
  intro law
  have passes := law crc32Interproc oneDouble initial doubleRequest 16
    crc32Interproc_makeStamps crc32Interproc_checksumPure
  exact absurd passes (by decide +kernel)

end RpmsgManager

/-- The two parties and what is under way between them. Each message carries its
place in the order of sending, and each reply the place of the message during
whose handling it was sent; neither party reads these. -/
structure Link where
  driver : Driver
  manager : RpmsgManager
  sent : List InterprocMsg
  toM4 : List (InterprocMsg × Nat)
  toLinux : List (OpenampSend × Nat)
  received : List (OpenampSend × Nat)

/-- A file operation of the driver, or the arrival of the next message at one
side. -/
inductive Exchange where
  | write (kernel : Kernel) (buf : Nat → InterprocMsg) (len : Nat)
  | ioctl (kernel : Kernel) (cmd : IoctlCmd)
  | m4Receives
  | linuxReceives (kernel : Kernel)

namespace Link

/-- One device bound, nothing under way. -/
def initial (device : Device) : Link where
  driver := (Driver.rpmsgSampleProbe {} device Driver.loaded).state
  manager := RpmsgManager.initial
  sent := []
  toM4 := []
  toLinux := []
  received := []

/-- What a file operation does to the driver. -/
def outcome (lib : Interproc) (link : Link) : Exchange → Option Outcome
  | .write kernel buf len => some (link.driver.ioctlWrite lib kernel buf len)
  | .ioctl kernel cmd => some (link.driver.ioctlCall lib kernel cmd)
  | .m4Receives => none
  | .linuxReceives _ => none

/-- The messages an operation handed over enter the channel behind the others. -/
def handOver (link : Link) (outcome : Outcome) : Link :=
  { link with
    driver := outcome.state
    sent := link.sent ++ outcome.sent
    toM4 := link.toM4 ++ outcome.sent.zipIdx link.sent.length }

/-- One exchange. A channel delivers its oldest message. -/
def step (lib : Interproc) (store : ParameterStore) (link : Link) : Exchange → Option Link
  | .write kernel buf len =>
      (link.driver.ioctlWrite lib kernel buf len).settled.map link.handOver
  | .ioctl kernel cmd => (link.driver.ioctlCall lib kernel cmd).settled.map link.handOver
  | .m4Receives =>
      match link.toM4 with
      | [] => none
      | (msg, place) :: rest =>
          let (replies, manager) :=
            link.manager.stm32ecuRecvCb lib store msg lib.sizeofMsg
          some { link with
            manager := manager
            toM4 := rest
            toLinux := link.toLinux ++ replies.map (fun reply => (reply, place)) }
  | .linuxReceives kernel =>
      match link.toLinux with
      | [] => none
      | (reply, place) :: rest =>
          (link.driver.rpmsgSampleCb lib kernel (some reply.msg) reply.len).settled.map
            (fun outcome =>
              { link with
                driver := outcome.state
                toLinux := rest
                received := link.received ++ [(reply, place)] })

/-- The driver hands over only messages the M4 answers. -/
def HandsOverAnswerable (lib : Interproc) (link : Link) (exchange : Exchange) : Prop :=
  ∀ outcome, link.outcome lib exchange = some outcome →
    ∀ msg ∈ outcome.sent, RpmsgManager.Answerable lib msg

/-- The k-th reply received answers the k-th message sent. -/
def RepliesInStep (link : Link) : Prop :=
  ∀ (k : Nat) (reply : OpenampSend) (place : Nat),
    link.received[k]? = some (reply, place) → place = k

/-- Replies received, replies under way and messages under way account for every
message sent, in order, and what is under way to the M4 will be answered. -/
structure Paced (lib : Interproc) (link : Link) : Prop where
  places : link.received.map Prod.snd ++ link.toLinux.map Prod.snd ++ link.toM4.map Prod.snd =
    List.range link.sent.length
  answerable : ∀ entry ∈ link.toM4, RpmsgManager.Answerable lib entry.1

/-- At the start nothing is under way. -/
theorem initial_paced (lib : Interproc) (device : Device) : (initial device).Paced lib := by
  constructor <;> simp [initial]

/-- Handing over answerable messages keeps the account. -/
theorem Paced.handOver {lib : Interproc} {link : Link} (paced : link.Paced lib)
    (outcome : Outcome) (answerable : ∀ msg ∈ outcome.sent, RpmsgManager.Answerable lib msg) :
    (link.handOver outcome).Paced lib := by
  constructor
  · simp only [Link.handOver, List.map_append, List.length_append, List.zipIdx_map_snd]
    have appended : List.range' 0 link.sent.length ++
        List.range' (0 + link.sent.length) outcome.sent.length =
        List.range' 0 (link.sent.length + outcome.sent.length) := List.range'_append_1
    rw [Nat.zero_add] at appended
    rw [← List.append_assoc, paced.places, List.range_eq_range', List.range_eq_range', appended]
  · intro entry member
    rcases List.mem_append.mp member with earlier | new
    · exact paced.answerable entry earlier
    · exact answerable entry.1 (List.fst_mem_of_mem_zipIdx new)

/-- Every exchange keeps the account: the M4 turns one place on its side into one
place on the way back. -/
theorem paced_step {lib : Interproc} {store : ParameterStore} {link next : Link}
    {exchange : Exchange} (checks : lib.CheckExact) (paced : link.Paced lib)
    (hands : HandsOverAnswerable lib link exchange)
    (taken : step lib store link exchange = some next) : next.Paced lib := by
  cases exchange with
  | write kernel buf len =>
    obtain ⟨outcome, settled, rfl⟩ := Option.map_eq_some_iff.mp taken
    obtain rfl := Outcome.settled_some _ _ settled
    exact paced.handOver _ (hands _ rfl)
  | ioctl kernel cmd =>
    obtain ⟨outcome, settled, rfl⟩ := Option.map_eq_some_iff.mp taken
    obtain rfl := Outcome.settled_some _ _ settled
    exact paced.handOver _ (hands _ rfl)
  | m4Receives =>
    simp only [step] at taken
    split at taken
    · cases taken
    · rename_i msg place rest head
      obtain rfl := Option.some.inj taken
      obtain ⟨reply, one⟩ := (RpmsgManager.oneReply_iff lib store checks link.manager msg).mpr
        (paced.answerable (msg, place) (by rw [head]; exact List.mem_cons_self))
      constructor
      · have places := paced.places
        simp only [head, List.map_cons] at places
        simp [one, ← places]
      · intro entry member
        exact paced.answerable entry (by rw [head]; exact List.mem_cons_of_mem _ member)
  | linuxReceives kernel =>
    simp only [step] at taken
    split at taken
    · cases taken
    · rename_i reply place rest head
      obtain ⟨outcome, _, rfl⟩ := Option.map_eq_some_iff.mp taken
      constructor
      · have places := paced.places
        simp only [head, List.map_cons] at places
        simp [← places]
      · exact paced.answerable

/-- The places received are the first places. -/
theorem Paced.inStep {lib : Interproc} {link : Link} (paced : link.Paced lib) :
    link.RepliesInStep := by
  intro k reply place found
  have inside : k < (link.received.map Prod.snd).length := by
    simpa using (List.getElem?_eq_some_iff.mp found).1
  have atK : (List.range link.sent.length)[k]? = some place := by
    rw [← paced.places, List.append_assoc, List.getElem?_append_left inside, List.getElem?_map,
      found]
    rfl
  obtain ⟨_, same⟩ := List.getElem?_eq_some_iff.mp atK
  simpa using same.symm

/-- The M4 answers a message with exactly one full-size frame if and only if the
checksum matches and the command is a ping, a reset or a parameter request. In
every run in which the driver hands over only such messages, the k-th reply it
receives answers the k-th message it sent. -/
theorem one_reply_iff_answerable (lib : Interproc) (store : ParameterStore)
    (checks : lib.CheckExact) :
    (∀ manager msg, RpmsgManager.OneReply lib store manager msg ↔
      RpmsgManager.Answerable lib msg) ∧
    ∀ device exchanges link,
      run (step lib store) (initial device) exchanges = some link →
      Along (step lib store) (HandsOverAnswerable lib) (initial device) exchanges →
      link.RepliesInStep := by
  constructor
  · exact RpmsgManager.oneReply_iff lib store checks
  · intro device exchanges link ran hands
    have paced : link.Paced lib := by
      refine invariant_run (step lib store) (HandsOverAnswerable lib) (fun link => link.Paced lib)
        ?_ (initial device) link exchanges (initial_paced lib device) hands ran
      intro state exchange next holds answerable taken
      exact paced_step checks holds answerable taken
    exact paced.inStep

/-- The frames a caller passes to the driver are answerable. -/
def ArgumentsAnswerable (lib : Interproc) : Exchange → Prop
  | .write _ buf len => ∀ i, i < len / lib.sizeofMsg → RpmsgManager.Answerable lib (buf i)
  | .ioctl _ (.sendMsg arg) => RpmsgManager.Answerable lib arg
  | _ => True

/-- The driver hands over what it is given and pings of its own, so it is enough
that its callers pass answerable frames. -/
theorem handsOver_of_arguments (lib : Interproc) (store : ParameterStore) (link : Link)
    (exchanges : List Exchange)
    (arguments : ∀ exchange ∈ exchanges, ArgumentsAnswerable lib exchange) :
    Along (step lib store) (HandsOverAnswerable lib) link exchanges := by
  apply along_of_forall
  intro exchange member state outcome performed msg sent
  have given := arguments exchange member
  cases exchange with
  | write kernel buf len =>
    obtain rfl := Option.some.inj performed
    obtain ⟨i, inside, rfl⟩ := Driver.ioctlWrite_sent_mem lib kernel buf len _ msg sent
    exact given i inside
  | ioctl kernel cmd =>
    obtain rfl := Option.some.inj performed
    rcases Driver.ioctlCall_sent_mem lib kernel cmd _ msg sent with ⟨_, rfl⟩ | rfl
    · exact ⟨lib.crcOk_stamp .ping Data.zero, Or.inl rfl⟩
    · exact given
  | m4Receives => cases performed
  | linuxReceives kernel => cases performed

/-- A ping, a parameter request and a batch of one reset, answered one by one. -/
def answeredRun : List Exchange :=
  [.ioctl {} .pingRproc, .ioctl {} (.sendMsg RpmsgManager.doubleRequest), .m4Receives,
    .write {} (fun _ => crc32Interproc.stamp .reset Data.zero) 16, .m4Receives,
    .linuxReceives {}, .m4Receives, .linuxReceives {}, .linuxReceives {}]

set_option maxRecDepth 20000 in
/-- The law at that run: three messages, three replies, in step. -/
theorem answered_run_in_step :
    ∃ link, run (step crc32Interproc RpmsgManager.oneDouble) (initial 0) answeredRun =
        some link ∧ link.received.map Prod.snd = [0, 1, 2] ∧ link.RepliesInStep := by
  refine ⟨_, rfl, rfl, (one_reply_iff_answerable crc32Interproc RpmsgManager.oneDouble
    crc32Interproc_checkExact).2 0 answeredRun _ rfl ?_⟩
  apply handsOver_of_arguments
  have request : RpmsgManager.Answerable crc32Interproc RpmsgManager.doubleRequest :=
    ⟨crc32Interproc.crcOk_stamp .paramGet (Data.pad [3, 0x70]), Or.inr (Or.inr rfl)⟩
  have reset : RpmsgManager.Answerable crc32Interproc (crc32Interproc.stamp .reset Data.zero) :=
    ⟨crc32Interproc.crcOk_stamp .reset Data.zero, Or.inr (Or.inl rfl)⟩
  simp only [answeredRun, List.forall_mem_cons]
  exact ⟨trivial, request, trivial, fun _ _ => reset, trivial, trivial, trivial, trivial, trivial,
    List.forall_mem_nil _⟩

/-- An echo and then a ping. -/
def echoThenPing : List Exchange :=
  [.ioctl {} (.sendMsg (crc32Interproc.stamp .echo Data.zero)), .ioctl {} .pingRproc, .m4Receives,
    .m4Receives, .linuxReceives {}]

set_option maxRecDepth 20000 in
/-- The M4 does not answer an echo, although its checksum matches. The reply to
the ping sent after it is then the first one the driver receives. -/
theorem echo_unanswered :
    ¬ ∀ (lib : Interproc) (store : ParameterStore), lib.CheckExact →
      (∀ manager msg, RpmsgManager.OneReply lib store manager msg) ∧
      ∀ device exchanges link,
        run (step lib store) (initial device) exchanges = some link → link.RepliesInStep := by
  intro law
  have inStep := (law crc32Interproc RpmsgManager.oneDouble crc32Interproc_checkExact).2 0
    echoThenPing _ rfl
  have first := inStep 0 _ 1 rfl
  cases first

end Link

end Stm32Ecu
