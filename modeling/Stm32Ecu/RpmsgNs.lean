import Stm32Ecu.RpmsgSend

/-!
# Announcements

`rpmsg_send_ns_message` on one device and `rpmsg_virtio_ns_callback` on the other. An
announcement is a message of 40 bytes to the address of the name service: the name of
the endpoint as `strncpy` leaves it, its address, and a flag.
-/

namespace Stm32Ecu.Rpmsg

/-- `sizeof(struct rpmsg_ns_msg)`. -/
def nsMsgSize : Nat := 40

/-- `RPMSG_NS_DESTROY`. -/
def nsDestroy : Nat := 1

/-- `struct rpmsg_ns_msg`, with the name before its terminator. -/
structure NsMsg where
  name : List UInt8
  addr : Nat
  flags : Nat
deriving DecidableEq

/-- The four bytes of a word, the lowest first. -/
def bytesOf (word : Nat) : List UInt8 :=
  [UInt8.ofNat word, UInt8.ofNat (word / 2 ^ 8), UInt8.ofNat (word / 2 ^ 16),
    UInt8.ofNat (word / 2 ^ 24)]

/-- The word of bytes, the lowest first. -/
def wordOf (bytes : List UInt8) : Nat :=
  bytes.foldr (fun byte rest => byte.toNat + 2 ^ 8 * rest) 0

/-- The bytes that `rpmsg_send_ns_message` fills, with the name as `strncpy` leaves it. -/
def NsMsg.encode (msg : NsMsg) : List UInt8 :=
  msg.name.take nameSize ++ List.replicate (nameSize - msg.name.length) 0 ++
    bytesOf msg.addr ++ bytesOf msg.flags

/-- The fields that `rpmsg_virtio_ns_callback` reads. -/
def NsMsg.decode (data : List UInt8) : NsMsg :=
  ⟨(data.take nameSize).takeWhile (· ≠ 0), wordOf ((data.drop nameSize).take 4),
    wordOf ((data.drop (nameSize + 4)).take 4)⟩

/-- The send of `rpmsg_send_ns_message`. -/
def rpmsgSendNsMessage (ept : RpmsgEndpoint) (flags : Nat) : SendRequest :=
  ⟨ept.addr, nsEptAddr, NsMsg.encode ⟨ept.name, ept.addr, flags⟩, true⟩

/-- `rpmsg_virtio_ns_callback` on the message in a buffer, without the application's
part. -/
def rpmsgVirtioNsCallback (dev : RpmsgDevice) (buf : RpmsgBuf) : RpmsgDevice :=
  -- a message of another length is corrupted
  if buf.len ≠ nsMsgSize then dev
  else
    let msg := NsMsg.decode buf.data
    nsCallback dev msg.name msg.addr (msg.flags &&& nsDestroy ≠ 0)

/-- A word has four bytes. -/
theorem bytesOf_length (word : Nat) : (bytesOf word).length = 4 := rfl

/-- A word is read as it was written. -/
theorem wordOf_bytesOf {word : Nat} (small : word < 2 ^ 32) : wordOf (bytesOf word) = word := by
  simp only [bytesOf, wordOf, List.foldr_cons, List.foldr_nil, UInt8.toNat_ofNat']
  omega

/-- What the name looks like in the message: the name, and zeros up to 32 bytes. -/
theorem NsMsg.encode_split (msg : NsMsg) :
    (msg.encode.take nameSize = msg.name.take nameSize ++
        List.replicate (nameSize - msg.name.length) 0) ∧
      msg.encode.drop nameSize = bytesOf msg.addr ++ bytesOf msg.flags := by
  have size : (msg.name.take nameSize ++
      List.replicate (nameSize - msg.name.length) (0 : UInt8)).length = nameSize := by
    rw [List.length_append, List.length_take, List.length_replicate]
    omega
  constructor
  · rw [encode, List.append_assoc, List.take_append_of_le_length (by omega),
      List.take_of_length_le (by omega)]
  · rw [encode, List.append_assoc, List.drop_append_of_le_length (by omega),
      List.drop_of_length_le (by omega), List.nil_append]

/-- An announcement has `sizeof(struct rpmsg_ns_msg)` bytes. -/
theorem NsMsg.encode_length (msg : NsMsg) : msg.encode.length = nsMsgSize := by
  have whole := congrArg List.length (List.take_append_drop nameSize msg.encode)
  rw [List.length_append, msg.encode_split.1, msg.encode_split.2, List.length_append,
    List.length_append, List.length_take, List.length_replicate, bytesOf_length,
    bytesOf_length] at whole
  rw [← whole, nsMsgSize, nameSize]
  omega

/-- An announcement is read as it was written. -/
theorem NsMsg.decode_encode (msg : NsMsg) (named : 0 ∉ msg.name)
    (short : msg.name.length ≤ nameSize) (addr : msg.addr < 2 ^ 32) (flags : msg.flags < 2 ^ 32) :
    decode msg.encode = msg := by
  obtain ⟨front, back⟩ := msg.encode_split
  have name : (msg.encode.take nameSize).takeWhile (· ≠ 0) = msg.name := by
    rw [front, List.take_of_length_le short, List.takeWhile_append_of_pos]
    · rw [List.takeWhile_replicate]
      simp
    · intro byte member
      refine decide_eq_true ?_
      rintro rfl
      exact named member
  have address : (msg.encode.drop nameSize).take 4 = bytesOf msg.addr := by
    rw [back]
    rfl
  have rest : (msg.encode.drop (nameSize + 4)).take 4 = bytesOf msg.flags := by
    rw [← List.drop_drop, back]
    rfl
  rw [decode, name, address, rest, wordOf_bytesOf addr, wordOf_bytesOf flags]

/-- Nothing behind the message is read. -/
theorem NsMsg.decode_take (data : List UInt8) : decode (data.take nsMsgSize) = decode data := by
  simp only [decode, nsMsgSize, nameSize, List.take_take, List.drop_take]
  rfl

/-- The announcement of an endpoint fits a buffer, so its length arrives with it, and the
name service of a device that receives it acts on the name, the address and the flag of
that endpoint. -/
theorem announcement_understood (dev : RpmsgDevice) (ept : RpmsgEndpoint) (flags : Nat)
    (buf : RpmsgBuf) (named : 0 ∉ ept.name) (short : ept.name.length ≤ nameSize)
    (addr : ept.addr < 2 ^ 32) (small : flags < 2 ^ 32)
    (arrived : buf.message = (rpmsgSendNsMessage ept flags).message) :
    (rpmsgSendNsMessage ept flags).data.length ≤ rpmsgBufferSize - hdrSize ∧
      buf.len = nsMsgSize ∧
      rpmsgVirtioNsCallback dev buf =
        nsCallback dev ept.name ept.addr (flags &&& nsDestroy ≠ 0) := by
  have size : (rpmsgSendNsMessage ept flags).data.length = nsMsgSize := NsMsg.encode_length _
  have room : (rpmsgSendNsMessage ept flags).data.length ≤ rpmsgBufferSize - hdrSize := by
    rw [size]
    decide
  have length : buf.len = nsMsgSize := by
    have len : buf.len =
        min (rpmsgSendNsMessage ept flags).data.length (rpmsgBufferSize - hdrSize) :=
      congrArg Message.len arrived
    rw [len, Nat.min_eq_left room, size]
  have data : buf.data.take buf.len =
      (rpmsgSendNsMessage ept flags).data.take (rpmsgBufferSize - hdrSize) :=
    congrArg Message.data arrived
  rw [length, List.take_of_length_le room] at data
  refine ⟨room, length, ?_⟩
  rw [rpmsgVirtioNsCallback, if_neg (not_not_intro length), ← NsMsg.decode_take, data,
    rpmsgSendNsMessage, NsMsg.decode_encode _ named short addr small]

theorem announcement_understood_sample :
    rpmsgVirtioNsCallback ⟨[⟨3, [65], 1024, addrAny⟩], fun _ => 0#32, true⟩
        ⟨1024, nsEptAddr, 0, 40, 0, NsMsg.encode ⟨[65], 1024, 0⟩⟩ =
      nsCallback ⟨[⟨3, [65], 1024, addrAny⟩], fun _ => 0#32, true⟩ [65] 1024
        (0 &&& nsDestroy ≠ 0) :=
  (announcement_understood _ ⟨5, [65], 1024, addrAny⟩ 0 _ (by decide) (by decide) (by decide)
    (by decide) (by decide)).2.2

end Stm32Ecu.Rpmsg
