import HeadUnit.Mcu.Link
import HeadUnit.Std.Xor

/-!
# The two checksums

The sender folds over the bytes of `reply` behind the checksum, the receiver over the fields these
bytes are stored in. Both compute the XOR of the flag and of these bytes (`autolinkMcuChecksum_eq`,
`autolinkMcuChecksum2_eq`), so they agree on every reply that is laid out as the sender does it.
-/

namespace HeadUnit.Mcu

/-- `reply` from its byte 4 on, as `autolink_mcu_send_msg1` lays it out. -/
structure LaidOut (reply : List UInt8) (framecounter cmd1 ack : UInt8) (data : List UInt8)
    (len : Nat) : Prop where
  framecounter_at : reply[4]? = some framecounter
  cmd1_at : reply[5]? = some cmd1
  ack_at : reply[6]? = some ack
  len_at : reply[7]? = some (UInt8.ofNat len)
  data_at : ∀ i, i < len → reply[8 + i]? = data[i]?

variable {framecounter cmd1 ack : UInt8} {data reply : List UInt8} {len size : Nat}

theorem autolinkMcuChecksum_eq (flag : UInt8) (h : size ≤ data.length) :
    autolinkMcuChecksum flag data size = .ok (flag ^^^ xorSum (data.take size)) := by
  rw [autolinkMcuChecksum, Mem.foldRange_eq_ok (by rwa [Nat.zero_add]), List.drop_zero, foldl_xor]

theorem autolinkMcuChecksum2_eq (flag framecounter cmd1 ack : UInt8) (h : len ≤ data.length) :
    autolinkMcuChecksum2 flag framecounter cmd1 ack data len =
      .ok (flag ^^^ xorSum ([framecounter, cmd1, ack, UInt8.ofNat len] ++ data.take len)) := by
  rw [autolinkMcuChecksum2, Mem.foldRange_eq_ok (by rwa [Nat.zero_add]), List.drop_zero, foldl_xor,
    xorSum_append, UInt8.zero_xor]
  simp only [xorSum_cons, xorSum_nil, UInt8.xor_zero, UInt8.xor_assoc]

namespace LaidOut

/-- The bytes that the sender's checksum covers. -/
theorem body (h : LaidOut reply framecounter cmd1 ack data len) :
    (reply.drop 4).take (len + 4) =
      [framecounter, cmd1, ack, UInt8.ofNat len] ++ data.take len := by
  refine List.ext_getElem? fun i => ?_
  rw [List.getElem?_take, List.getElem?_drop]
  match i with
  | 0 => rw [if_pos (Nat.succ_pos _), h.framecounter_at]; rfl
  | 1 => rw [if_pos (by omega), h.cmd1_at]; rfl
  | 2 => rw [if_pos (by omega), h.ack_at]; rfl
  | 3 => rw [if_pos (by omega), h.len_at]; rfl
  | i + 4 =>
    have happend : ([framecounter, cmd1, ack, UInt8.ofNat len] ++ data.take len)[i + 4]? =
        (data.take len)[i]? := rfl
    rw [happend, List.getElem?_take]
    by_cases hi : i < len
    · rw [if_pos (by omega), if_pos hi, ← h.data_at i hi, show 4 + (i + 4) = 8 + i by omega]
    · rw [if_neg (by omega), if_neg hi]

/-- All of them are in `reply`. -/
theorem length_le (h : LaidOut reply framecounter cmd1 ack data len) (hdata : len ≤ data.length) :
    len + 4 ≤ (reply.drop 4).length := by
  have hbody := congrArg List.length h.body
  rw [List.length_take, List.length_append, List.length_take, Nat.min_eq_left hdata] at hbody
  simp only [List.length_cons, List.length_nil] at hbody
  omega

end LaidOut

/-- The sender's and the receiver's checksum agree. -/
theorem checksums_agree (flag : UInt8) (hdata : len ≤ data.length)
    (h : LaidOut reply framecounter cmd1 ack data len) :
    ∃ checksum, autolinkMcuChecksum flag (reply.drop 4) (len + 4) = .ok checksum ∧
      autolinkMcuChecksum2 flag framecounter cmd1 ack data len = .ok checksum := by
  refine ⟨_, autolinkMcuChecksum_eq flag (h.length_le hdata), ?_⟩
  rw [autolinkMcuChecksum2_eq flag framecounter cmd1 ack hdata, h.body]

theorem checksums_agree_twoBytes :
    ∃ checksum, autolinkMcuChecksum 0 ((([0xAA, 0x77, 0, 0, 1, 0x31, 2, 2, 0x0A, 0x0B] : List UInt8) ++
        List.replicate 245 0xFF).drop 4) (2 + 4) = .ok checksum ∧
      autolinkMcuChecksum2 0 1 0x31 2 [0x0A, 0x0B] 2 = .ok checksum :=
  checksums_agree 0 (by decide) ⟨rfl, rfl, rfl, rfl, by decide⟩

end HeadUnit.Mcu
