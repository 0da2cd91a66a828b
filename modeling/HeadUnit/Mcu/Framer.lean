import HeadUnit.Mcu.Checksums

/-!
# The receiver as a frame collector

`framer` is the receiver seen from outside: its state is the string of bytes collected for the
frame in progress, with no stale fields. `receiver_refines` shows that `autolink_mcu_parse` refines
it from any state in which `flag` is zero, so that what holds of runs of `framer` holds of the code
and no access of the code leaves `mcuinfo.data`.
-/

namespace HeadUnit.Mcu

/-! ## The collector -/

/-- The frame spelled by a complete string of collected bytes. -/
def decode (w : List UInt8) : Frame where
  framecounter := w.getD 4 0
  cmd1 := w.getD 5 0
  ack := w.getD 6 0
  len := w.getD 7 0
  data := w.drop 8

/-- The collected bytes are as many as their length byte announces. -/
def Complete (w : List UInt8) : Prop := w.length = (w.getD 7 0).toNat + 8

instance (w : List UInt8) : Decidable (Complete w) := inferInstanceAs (Decidable (_ = _))

/-- The report for a complete string: its checksum byte covers everything behind it. -/
def verdict (w : List UInt8) : Report :=
  if w.getD 3 0 = xorSum (w.drop 4) then .success (decode w) else .checksumFailed

/-- Collect one more byte. -/
def collect (w : List UInt8) (c : UInt8) : List UInt8 × List Report :=
  if w.length ≥ 127 then ([], [.overflow])
  else if mcuSyncByte0 ≠ c ∧ w.length = 0 then ([], [.lostSync0])
  else if mcuSyncByte1 ≠ c ∧ w.length = 1 then ([], [.lostSync1])
  else if mcuFlagByteNormal ≠ c ∧ w.length = 2 then ([], [.flagError])
  else if Complete (w ++ [c]) then ([], [verdict (w ++ [c])])
  else (w ++ [c], [])

def framer : Transducer (List UInt8) UInt8 Report := ⟨collect⟩

/-! ## The bytes `mcuinfo` stands for -/

/-- The header and data bytes the fields of `mcuinfo` stand for, in wire order. -/
def McuInfo.image (s : McuInfo) : List UInt8 :=
  [mcuSyncByte0, mcuSyncByte1, mcuFlagByteNormal, s.checksum, s.framecounter, s.cmd1, s.ack,
    s.len] ++ s.data.toList

@[simp] theorem McuInfo.image_length (s : McuInfo) : s.image.length = 136 := by
  simp [image]

/-- `s` has collected exactly `w`. -/
structure Collected (s : McuInfo) (w : List UInt8) : Prop where
  flag : s.flag = 0
  pos : s.pos = w.length
  image : s.image.take s.pos = w

theorem Collected.nil {s : McuInfo} (hf : s.flag = 0) (hp : s.pos = 0) : Collected s [] :=
  ⟨hf, by simp [hp], by simp [hp]⟩

/-- From position 3 on, storing a byte writes the image at the position. -/
theorem McuInfo.assign_image {s : McuInfo} (c : UInt8) (h3 : 3 ≤ s.pos) (hp : s.pos < 127) :
    ∃ s', s.assign c = .ok s' ∧ s'.flag = s.flag ∧ s'.pos = s.pos ∧
      s'.image = s.image.set s.pos c := by
  obtain h | h | h | h | h | h : s.pos = 3 ∨ s.pos = 4 ∨ s.pos = 5 ∨ s.pos = 6 ∨ s.pos = 7 ∨
    8 ≤ s.pos := by omega
  · exact ⟨{ s with checksum := c }, by simp [assign, h], rfl, rfl, by simp [image, h]⟩
  · exact ⟨{ s with framecounter := c }, by simp [assign, h], rfl, rfl, by simp [image, h]⟩
  · exact ⟨{ s with cmd1 := c }, by simp [assign, h], rfl, rfl, by simp [image, h]⟩
  · exact ⟨{ s with ack := c }, by simp [assign, h], rfl, rfl, by simp [image, h]⟩
  · exact ⟨{ s with len := c }, by simp [assign, h], rfl, rfl, by simp [image, h]⟩
  · have hlt : s.pos - 8 < 128 := by omega
    refine ⟨{ s with data := s.data.set (s.pos - 8) c hlt }, ?_, rfl, rfl, ?_⟩
    · simp only [assign, Mem.store_eq_ok hlt]
      rw [if_neg (by omega), if_neg (by omega), if_neg (by omega), if_neg (by omega),
        if_neg (by omega), if_pos h]
    · obtain ⟨k, hk⟩ : ∃ k, s.pos = k + 8 := ⟨s.pos - 8, by omega⟩
      simp [image, hk, Vector.toList_set]

/-- Storing a byte appends it to the bytes collected; below position 3 nothing is stored, and the
byte is the constant expected there. -/
theorem McuInfo.assign_spec {s : McuInfo} {c : UInt8} (hp : s.pos < 127)
    (h0 : s.pos = 0 → c = mcuSyncByte0) (h1 : s.pos = 1 → c = mcuSyncByte1)
    (h2 : s.pos = 2 → c = mcuFlagByteNormal) :
    ∃ s', s.assign c = .ok s' ∧ s'.flag = s.flag ∧ s'.pos = s.pos ∧
      s'.image.take (s.pos + 1) = s.image.take s.pos ++ [c] := by
  obtain h | h | h | h : s.pos = 0 ∨ s.pos = 1 ∨ s.pos = 2 ∨ 3 ≤ s.pos := by omega
  · exact ⟨s, by simp [assign, h], rfl, rfl, by simp [image, h, h0 h]⟩
  · exact ⟨s, by simp [assign, h], rfl, rfl, by simp [image, h, h1 h]⟩
  · exact ⟨s, by simp [assign, h], rfl, rfl, by simp [image, h, h2 h]⟩
  · obtain ⟨s', hs', hf, hpos, himg⟩ := s.assign_image c h hp
    refine ⟨s', hs', hf, hpos, ?_⟩
    rw [himg, Mem.take_succ_set c (by simp; omega)]

/-! ## Refinement -/

/-- The header bytes of a state that has collected at least eight. -/
theorem Collected.header {s : McuInfo} {w : List UInt8} (h : Collected s w) (h8 : 8 ≤ w.length) :
    w = [mcuSyncByte0, mcuSyncByte1, mcuFlagByteNormal, s.checksum, s.framecounter, s.cmd1, s.ack,
      s.len] ++ s.data.toList.take (w.length - 8) := by
  conv_lhs => rw [← h.image, h.pos, McuInfo.image, List.take_append]
  rw [List.take_of_length_le (by simpa using h8)]
  rfl

theorem Collected.complete_iff {s : McuInfo} {w : List UInt8} (h : Collected s w) :
    s.pos = s.len.toNat + 8 ↔ Complete w := by
  rw [Complete, h.pos]
  by_cases h8 : 8 ≤ w.length
  · have hlen : w.getD 7 0 = s.len := by rw [h.header h8]; rfl
    rw [hlen]
  · omega

/-- The end of the parse reports the verdict on the collected bytes. -/
theorem Collected.complete_spec {s : McuInfo} {w : List UInt8} (h : Collected s w)
    (hw : Complete w) (hlt : w.length ≤ 127) :
    s.complete = .ok ({ s with pos := 0 }, [verdict w]) := by
  have hpos := h.complete_iff.mpr hw
  have hlen : w.length - 8 = s.len.toNat := by rw [← h.pos, hpos]; omega
  have hhdr := h.header (by rw [← h.pos]; omega)
  rw [hlen] at hhdr
  have hrange : s.len.toNat ≤ s.data.toList.length := by simp; omega
  have hck : w.getD 3 0 = s.checksum := by rw [hhdr]; rfl
  have hbody : w.drop 4 =
      [s.framecounter, s.cmd1, s.ack, UInt8.ofNat s.len.toNat] ++ s.data.toList.take s.len.toNat := by
    rw [hhdr, UInt8.ofNat_toNat]
    rfl
  have hframe : decode w = s.frame := by rw [hhdr]; rfl
  rw [McuInfo.complete, autolinkMcuChecksum2_eq _ _ _ _ hrange, ← hbody, h.flag, UInt8.zero_xor,
    verdict, hck, hframe]
  dsimp only
  by_cases hsum : s.checksum = xorSum (w.drop 4)
  · rw [if_neg (not_not.mpr hsum), if_pos hsum]
  · rw [if_pos hsum, if_neg hsum]

theorem receiver_refines : receiver.Refines framer Collected := by
  intro s w c h
  simp only [receiver, framer, autolinkMcuParse, collect, ← h.pos]
  split
  case isTrue => exact ⟨_, rfl, .nil h.flag rfl⟩
  case isFalse hp =>
  split
  case isTrue => exact ⟨_, rfl, .nil h.flag rfl⟩
  case isFalse h0 =>
  split
  case isTrue => exact ⟨_, rfl, .nil h.flag rfl⟩
  case isFalse h1 =>
  split
  case isTrue => exact ⟨_, rfl, .nil h.flag rfl⟩
  case isFalse h2 =>
  obtain ⟨s', hs', hf, hpos, himg⟩ := s.assign_spec (c := c) (by omega)
    (fun h => by_contra fun hc => h0 ⟨Ne.symm hc, h⟩)
    (fun h => by_contra fun hc => h1 ⟨Ne.symm hc, h⟩)
    (fun h => by_contra fun hc => h2 ⟨Ne.symm hc, h⟩)
  have hcol : Collected { s' with pos := s'.pos + 1 } (w ++ [c]) := by
    refine ⟨hf.trans h.flag, by simp [hpos, h.pos], ?_⟩
    rw [← h.image, ← himg, hpos]
    rfl
  have hlt : (w ++ [c]).length ≤ 127 := by simp [← h.pos]; omega
  simp only [hs', hcol.complete_iff]
  by_cases hw : Complete (w ++ [c])
  · simp only [if_pos hw, hcol.complete_spec hw hlt]
    exact ⟨_, rfl, .nil hcol.flag rfl⟩
  · simp only [if_neg hw]
    exact ⟨_, rfl, hcol⟩

end HeadUnit.Mcu
