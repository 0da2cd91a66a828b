import HeadUnit.Mcu.Grammar

/-!
# What the sender puts on the wire

For a payload length the signed `len` can hold, `autolink_mcu_send_msg1` stays inside `reply` and
each of its attempts writes a prefix of the frame `Message.frame`. A call is a `SendCall`, which
fixes what `write` will do with each attempt.
-/

namespace HeadUnit.Mcu

/-- The arguments of a call that `autolink_mcu_send_msg1` can carry out: `data` holds at least
`len` bytes. -/
structure Message where
  cmd1 : UInt8
  data : List UInt8
  len : Int8
  len_nonneg : 0 ≤ len.toInt
  len_le : len.toInt.toNat ≤ data.length

/-- The frame sent for a message. -/
def Message.frame (m : Message) : Frame where
  framecounter := 0
  cmd1 := m.cmd1
  ack := mcuAckByteFalse
  len := m.len.toUInt8
  data := m.data.take m.len.toInt.toNat

theorem int8_len {len : Int8} (h : 0 ≤ len.toInt) :
    len.toInt.toNat = len.toUInt8.toNat ∧ len.toInt.toNat < 128 := by
  have hlt := len.toBitVec.isLt
  have hcond := BitVec.toInt_eq_toNat_cond len.toBitVec
  have hint : len.toInt = len.toBitVec.toInt := rfl
  have hnat : len.toUInt8.toNat = len.toBitVec.toNat := rfl
  rw [hint] at h ⊢
  rw [hnat]
  split at hcond <;> omega

namespace Message

variable (m : Message)

theorem len_toNat : m.len.toInt.toNat = m.frame.len.toNat := (int8_len m.len_nonneg).1

theorem len_lt : m.frame.len.toNat < 128 := m.len_toNat ▸ (int8_len m.len_nonneg).2

theorem frame_data_length : m.frame.data.length = m.frame.len.toNat := by
  have := m.len_le
  rw [← m.len_toNat, frame, List.length_take]
  omega

theorem frame_bytes_length : m.frame.bytes.length = m.frame.len.toNat + 8 := by
  rw [Frame.bytes_length, m.frame_data_length]

/-- A message short enough for the receiver is sent as a frame that fits it. -/
def wireFrame (h : m.len.toInt ≤ 119) : WireFrame where
  toFrame := m.frame
  data_length := m.frame_data_length
  len_le := by rw [← m.len_toNat]; omega

theorem size_eq : (m.len.toInt % 2 ^ 64).toNat = m.frame.len.toNat := by
  have hlt := (int8_len m.len_nonneg).2
  rw [← m.len_toNat, Int.emod_eq_of_lt m.len_nonneg (by omega)]

theorem body_length :
    ([0, m.cmd1, mcuAckByteFalse, m.len.toUInt8] ++ m.frame.data).length =
      (m.len.toInt + 4).toNat := by
  rw [List.length_append, m.frame_data_length, ← m.len_toNat,
    Int.toNat_add m.len_nonneg (by decide), Nat.add_comm]
  rfl

theorem checksum_eq :
    autolinkMcuChecksum mcuFlagByteNormal
      ([0, m.cmd1, mcuAckByteFalse, m.len.toUInt8] ++ m.frame.data) (m.len.toInt + 4).toNat =
      .ok m.frame.checksum := by
  rw [autolinkMcuChecksum_eq _ (Nat.le_of_eq m.body_length.symm), ← m.body_length, List.take_length]
  rfl

/-- The frame is built without leaving `reply` or `data`. -/
theorem reply_eq : autolinkMcuReply m.cmd1 m.data m.len = .ok m.frame.bytes := by
  have hlt := m.len_lt
  have hcopy : Mem.memcpy (frameLenMax - 8) m.data m.frame.len.toNat = .ok m.frame.data := by
    rw [Mem.memcpy_eq_ok (m.len_toNat ▸ m.len_le) (by simp only [frameLenMax]; omega),
      ← m.len_toNat]
    rfl
  simp only [autolinkMcuReply, m.size_eq, hcopy, Except.ok_bind, m.checksum_eq]
  rfl

end Message

/-! ## Calls -/

/-- A call of `autolink_mcu_send_msg1` with the outcome of each of its `write` attempts. -/
structure SendCall extends Message where
  times : Int
  times_pos : 1 ≤ times
  writes : Nat → WriteOutcome

namespace SendCall

def send (fd : Int) (c : SendCall) : Except Fault (Int × List UInt8) :=
  autolinkMcuSendMsg1 fd c.times c.cmd1 c.data c.len c.writes

theorem send_eq (fd : Int) (c : SendCall) :
    c.send fd = .ok (sendLoop fd c.frame.bytes c.writes c.times.toNat 0) := by
  simp only [send, autolinkMcuSendMsg1, c.reply_eq, Except.ok_bind]
  rfl

/-- The first attempt puts the whole frame on the wire. -/
def FullWrite (c : SendCall) : Prop := ∃ n, c.writes 0 = some n ∧ c.frame.bytes.length ≤ n

end SendCall

/-- The results of a sequence of calls and what they put on the wire. -/
def sendAll (fd : Int) : List SendCall → Except Fault (List Int × List UInt8)
  | [] => .ok ([], [])
  | c :: cs => do
    let (result, wire) ← c.send fd
    let (results, wires) ← sendAll fd cs
    return (result :: results, wire ++ wires)

theorem sendAll_cons (fd : Int) (c : SendCall) (cs : List SendCall) {rs : List Int}
    {wire : List UInt8} (h : sendAll fd cs = .ok (rs, wire)) :
    sendAll fd (c :: cs) = .ok ((sendLoop fd c.frame.bytes c.writes c.times.toNat 0).1 :: rs,
      (sendLoop fd c.frame.bytes c.writes c.times.toNat 0).2 ++ wire) := by
  simp only [sendAll, c.send_eq, h, Except.ok_bind]
  rfl

theorem sendinfo1_of_pos {fd : Int} (h : 0 < fd) (data : List UInt8) (n : Nat) :
    autolinkMcuSendinfo1 fd data (some n) = (((data.take n).length : Int), data.take n) :=
  if_neg (Int.not_le.mpr h)

/-- With a full first write the call returns 0 after that write. -/
theorem SendCall.FullWrite.sendLoop {fd : Int} {c : SendCall} (hfd : 0 < fd) (h : c.FullWrite) :
    sendLoop fd c.frame.bytes c.writes c.times.toNat 0 = (0, c.frame.bytes) := by
  obtain ⟨n, hn, hle⟩ := h
  obtain ⟨k, hk⟩ : ∃ k, c.times.toNat = k + 1 := ⟨c.times.toNat - 1, by have := c.times_pos; omega⟩
  simp only [hk, Mcu.sendLoop, hn, sendinfo1_of_pos hfd, List.take_of_length_le hle, if_true]

end HeadUnit.Mcu
