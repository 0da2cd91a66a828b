import HeadUnit.Mcu.Acceptance

/-!
# What the checksum detects

A frame whose checksum, frame counter, command, ack or data bytes are changed still begins and ends
where it did, so it reaches the checksum comparison at its last byte. That comparison sees only the
XOR of the changes.
-/

namespace HeadUnit.Mcu

/-- The positions whose bytes do not delimit the frame: the checksum and what it covers, without
the length. -/
def Changeable (i : Nat) : Prop := 3 ≤ i ∧ i ≠ 7

instance (i : Nat) : Decidable (Changeable i) := inferInstanceAs (Decidable (_ ∧ _))

/-- `w` is `v` with bytes changed at changeable positions only. -/
structure Corrupted (v w : List UInt8) : Prop where
  length_eq : w.length = v.length
  getElem?_eq : ∀ i, ¬Changeable i → w[i]? = v[i]?

theorem Corrupted.set {v : List UInt8} {i : Nat} (h : Changeable i) (b : UInt8) :
    Corrupted v (v.set i b) := by
  refine ⟨List.length_set, fun j hj => List.getElem?_set_ne ?_⟩
  rintro rfl
  exact hj h

section
variable {f : WireFrame} {w : List UInt8} (h : Corrupted f.bytes w)
include h

theorem Corrupted.getD_eq {i : Nat} (hi : ¬Changeable i) : w.getD i 0 = f.bytes.getD i 0 := by
  rw [List.getD_eq_getElem?_getD, List.getD_eq_getElem?_getD, h.getElem?_eq i hi]

theorem Corrupted.take_three : w.take 3 = f.bytes.take 3 := by
  refine List.ext_getElem? fun i => ?_
  rw [List.getElem?_take, List.getElem?_take]
  split
  case isTrue hi => exact h.getElem?_eq i fun hc => absurd hc.1 (Nat.not_le.mpr hi)
  case isFalse => rfl

theorem Corrupted.header : Header w := by
  rw [Header, h.take_three]
  exact f.header_bytes

theorem Corrupted.complete : Complete w := by
  rw [Complete, h.length_eq, h.getD_eq fun hc => hc.2 rfl]
  exact Frame.complete_bytes f.data_length

/-- The bytes up to the checksum are those of the frame, so they add nothing to the differences. -/
theorem Corrupted.xorDiff_drop :
    xorSum (xorDiff f.bytes w) = xorSum (f.bytes.drop 3) ^^^ xorSum (w.drop 3) := by
  have hv : xorSum f.bytes = xorSum (f.bytes.take 3) ^^^ xorSum (f.bytes.drop 3) := by
    rw [← xorSum_append, List.take_append_drop]
  have hw : xorSum w = xorSum (f.bytes.take 3) ^^^ xorSum (w.drop 3) := by
    rw [← h.take_three, ← xorSum_append, List.take_append_drop]
  rw [xorSum_xorDiff h.length_eq.symm, hv, hw]
  generalize xorSum (f.bytes.take 3) = p
  calc (p ^^^ xorSum (f.bytes.drop 3)) ^^^ (p ^^^ xorSum (w.drop 3))
      = (p ^^^ p) ^^^ (xorSum (f.bytes.drop 3) ^^^ xorSum (w.drop 3)) := by ac_rfl
    _ = _ := by rw [UInt8.xor_self, UInt8.zero_xor]

end

/-- The comparison at the end of the parse, as one XOR. -/
theorem checksum_iff {w : List UInt8} (h : 3 < w.length) :
    w.getD 3 0 = xorSum (w.drop 4) ↔ xorSum (w.drop 3) = 0 := by
  rw [List.drop_eq_getElem_cons h, xorSum_cons, UInt8.xor_eq_zero_iff,
    List.getD_eq_getElem _ _ h]

theorem Frame.xorSum_drop (f : Frame) : xorSum (f.bytes.drop 3) = 0 := by
  rw [← checksum_iff (by rw [f.bytes_length]; omega)]
  simp [bytes, checksum]

/-- The receiver accepts the changed frame if and only if the changes cancel. -/
theorem Corrupted.verdict_eq {f : WireFrame} {w : List UInt8} (h : Corrupted f.bytes w) :
    verdict w = if xorSum (xorDiff f.bytes w) = 0 then .success (decode w) else .checksumFailed := by
  have h3 : 3 < w.length := by rw [h.length_eq, f.bytes_length]; omega
  rw [h.xorDiff_drop, f.xorSum_drop, UInt8.zero_xor, verdict]
  exact if_congr (checksum_iff h3) rfl rfl

theorem Corrupted.returnsWith {s : McuInfo} {f : WireFrame} {w : List UInt8}
    (h : Corrupted f.bytes w) (hf : s.flag = 0) (hp : s.pos = 0) : ReturnsWith s w (verdict w) := by
  refine returnsWith_verdict hf hp h.header h.complete ?_
  have := f.len_le
  rw [h.length_eq, f.bytes_length, f.data_length]
  omega

theorem Corrupted.returnsInSuccess_iff {s : McuInfo} {f : WireFrame} {w : List UInt8}
    (h : Corrupted f.bytes w) (hf : s.flag = 0) (hp : s.pos = 0) :
    ReturnsInSuccess s w ↔ xorSum (xorDiff f.bytes w) = 0 := by
  constructor
  · intro hret
    obtain ⟨-, -, -, g, hg⟩ := accepted_iff.mpr ((Mcu.returnsInSuccess_iff hf hp w).mp hret)
    rw [h.verdict_eq] at hg
    by_contra hne
    rw [if_neg hne] at hg
    cases hg
  · intro hx
    have hret := h.returnsWith hf hp
    rw [h.verdict_eq, if_pos hx] at hret
    exact ⟨_, hret⟩

theorem Corrupted.returnsWith_checksumFailed {s : McuInfo} {f : WireFrame} {w : List UInt8}
    (h : Corrupted f.bytes w) (hf : s.flag = 0) (hp : s.pos = 0)
    (hx : xorSum (xorDiff f.bytes w) ≠ 0) : ReturnsWith s w .checksumFailed := by
  have hret := h.returnsWith hf hp
  rwa [h.verdict_eq, if_neg hx] at hret

/-- A frame with changed bytes is accepted if and only if the changes cancel, and is rejected by
the checksum otherwise; a single changed byte never cancels. -/
theorem autolinkMcuParse_detects (f : WireFrame) {s : McuInfo} (hf : s.flag = 0) (hp : s.pos = 0) :
    (∀ w, Corrupted f.bytes w →
      (ReturnsInSuccess s w ↔ xorSum (xorDiff f.bytes w) = 0) ∧
      (xorSum (xorDiff f.bytes w) ≠ 0 → ReturnsWith s w .checksumFailed)) ∧
    ∀ (i : Nat) (hi : i < f.bytes.length) (b : UInt8), Changeable i → b ≠ f.bytes[i] →
      ReturnsWith s (f.bytes.set i b) .checksumFailed := by
  constructor
  · exact fun w hw => ⟨hw.returnsInSuccess_iff hf hp, hw.returnsWith_checksumFailed hf hp⟩
  · intro i hi b hc hne
    refine (Corrupted.set hc b).returnsWith_checksumFailed hf hp ?_
    rw [xorSum_xorDiff_set hi]
    exact fun h0 => hne (UInt8.xor_eq_zero_iff.mp h0).symm

/-- An acknowledged command with one data byte. -/
def ackFrame : WireFrame where
  framecounter := 1
  cmd1 := 0x10
  ack := 1
  len := 1
  data := [0x42]
  data_length := rfl
  len_le := by decide

theorem ackFrame_detects :
    ReturnsInSuccess mcuinfo ((ackFrame.bytes.set 5 0x11).set 8 0x43) ∧
      ReturnsWith mcuinfo (ackFrame.bytes.set 5 0x11) .checksumFailed := by
  obtain ⟨hall, hone⟩ := autolinkMcuParse_detects ackFrame (s := mcuinfo) rfl rfl
  have hcor : Corrupted ackFrame.bytes ((ackFrame.bytes.set 5 0x11).set 8 0x43) := by
    refine ⟨by simp, fun i hi => ?_⟩
    rw [List.getElem?_set_ne, List.getElem?_set_ne]
    · exact fun h => hi (h ▸ by decide)
    · exact fun h => hi (h ▸ by decide)
  exact ⟨(hall _ hcor).1.mpr (by decide), hone 5 (by decide) 0x11 (by decide) (by decide)⟩

end HeadUnit.Mcu
