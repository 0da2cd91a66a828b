import Mathlib.Data.List.GetD
import Mathlib.Data.List.Infix
import HeadUnit.Mcu.Framer

/-!
# The frame grammar

What `framer` collects is always a frame in progress (`InProgress`), and a frame in progress is
collected byte by byte without a report. So the collector returns to its empty state with a success
exactly at the end of a `WireFrame`; `receiver_refines` carries this to `autolink_mcu_parse`.
-/

namespace HeadUnit.Mcu

/-- The checksum byte of a frame: `flag` is zero, then everything behind the checksum. -/
def Frame.checksum (f : Frame) : UInt8 :=
  xorSum ([0, f.framecounter, f.cmd1, f.ack, f.len] ++ f.data)

/-- A frame as it stands on the wire. -/
def Frame.bytes (f : Frame) : List UInt8 :=
  [mcuSyncByte0, mcuSyncByte1, mcuFlagByteNormal, f.checksum, f.framecounter, f.cmd1, f.ack,
    f.len] ++ f.data

/-- A frame that announces its own length and fits the receiver's position counter. -/
structure WireFrame extends Frame where
  data_length : data.length = len.toNat
  len_le : len.toNat ≤ 119

@[simp] theorem Frame.bytes_length (f : Frame) : f.bytes.length = f.data.length + 8 := by
  simp [bytes]

theorem Frame.decode_bytes (f : Frame) : decode f.bytes = f := rfl

theorem Frame.verdict_bytes (f : Frame) : verdict f.bytes = .success f := by
  rw [verdict, if_pos, f.decode_bytes]
  simp [bytes, checksum]

theorem Frame.complete_bytes {f : Frame} (h : f.data.length = f.len.toNat) :
    Complete f.bytes := by
  rw [Complete, f.bytes_length, h]; rfl

/-! ## Frames in progress -/

/-- The bytes begin as a frame does. -/
def Header (w : List UInt8) : Prop :=
  w.take 3 <+: [mcuSyncByte0, mcuSyncByte1, mcuFlagByteNormal]

theorem Header.nil : Header [] := by simp [Header]

theorem Header.of_isPrefix {v w : List UInt8} (h : Header w) (hv : v <+: w) : Header v :=
  (List.IsPrefix.take hv 3).trans h

theorem Frame.header_bytes (f : Frame) : Header f.bytes := List.prefix_rfl

/-- The header checks of the parser decide whether one more byte still begins a frame. -/
theorem Header.snoc_iff {w : List UInt8} {c : UInt8} (h : Header w) :
    Header (w ++ [c]) ↔ ¬(mcuSyncByte0 ≠ c ∧ w.length = 0) ∧
      ¬(mcuSyncByte1 ≠ c ∧ w.length = 1) ∧ ¬(mcuFlagByteNormal ≠ c ∧ w.length = 2) := by
  match w with
  | [] => simp [Header, eq_comm]
  | [a] => simp_all [Header, eq_comm]
  | [a, b] => simp_all [Header, eq_comm]
  | a :: b :: d :: w => simpa [Header] using h

/-- What one byte can do to a collector whose bytes begin a frame. -/
theorem collect_cases {w : List UInt8} (h : Header w) (c : UInt8) :
    (127 ≤ w.length ∧ collect w c = ([], [.overflow])) ∨
    (w.length < 127 ∧ ¬Header (w ++ [c]) ∧
      ∃ r, collect w c = ([], [r]) ∧ (r = .lostSync0 ∨ r = .lostSync1 ∨ r = .flagError)) ∨
    (w.length < 127 ∧ Header (w ++ [c]) ∧ Complete (w ++ [c]) ∧
      collect w c = ([], [verdict (w ++ [c])])) ∨
    (w.length < 127 ∧ Header (w ++ [c]) ∧ ¬Complete (w ++ [c]) ∧
      collect w c = (w ++ [c], [])) := by
  rw [h.snoc_iff]
  unfold collect
  by_cases h127 : 127 ≤ w.length
  · exact .inl ⟨h127, if_pos h127⟩
  rw [if_neg h127]
  have hlt := Nat.lt_of_not_le h127
  by_cases h0 : mcuSyncByte0 ≠ c ∧ w.length = 0
  · exact .inr (.inl ⟨hlt, fun H => H.1 h0, _, if_pos h0, .inl rfl⟩)
  rw [if_neg h0]
  by_cases h1 : mcuSyncByte1 ≠ c ∧ w.length = 1
  · exact .inr (.inl ⟨hlt, fun H => H.2.1 h1, _, if_pos h1, .inr (.inl rfl)⟩)
  rw [if_neg h1]
  by_cases h2 : mcuFlagByteNormal ≠ c ∧ w.length = 2
  · exact .inr (.inl ⟨hlt, fun H => H.2.2 h2, _, if_pos h2, .inr (.inr rfl)⟩)
  rw [if_neg h2]
  by_cases hc : Complete (w ++ [c])
  · exact .inr (.inr (.inl ⟨hlt, ⟨h0, h1, h2⟩, hc, if_pos hc⟩))
  · exact .inr (.inr (.inr ⟨hlt, ⟨h0, h1, h2⟩, hc, if_neg hc⟩))

/-- A proper beginning of a frame, short enough for the position counter. -/
structure InProgress (w : List UInt8) : Prop where
  header : Header w
  length_le : w.length ≤ 127
  unfinished : 8 ≤ w.length → w.length < (w.getD 7 0).toNat + 8

theorem InProgress.nil : InProgress [] := ⟨.nil, by simp, by simp⟩

theorem getD_of_isPrefix {α : Type*} {v w : List α} {i : Nat} {d : α} (h : v <+: w)
    (hi : i < v.length) : v.getD i d = w.getD i d := by
  obtain ⟨u, rfl⟩ := h
  rw [List.getD_append _ _ _ _ hi]

theorem InProgress.of_isPrefix {v w : List UInt8} (h : InProgress w) (hv : v <+: w) :
    InProgress v := by
  have hle := hv.length_le
  refine ⟨h.header.of_isPrefix hv, Nat.le_trans hle h.length_le, fun h8 => ?_⟩
  have := h.unfinished (by omega)
  rw [getD_of_isPrefix hv (by omega)]
  omega

/-- One byte short of a complete frame, the frame is in progress. -/
theorem InProgress.of_complete {w : List UInt8} {c : UInt8} (hh : Header (w ++ [c]))
    (hc : Complete (w ++ [c])) (hle : w.length < 127) : InProgress w := by
  refine ⟨hh.of_isPrefix (List.prefix_append _ _), by omega, fun h8 => ?_⟩
  rw [Complete, List.length_append, List.length_singleton,
    ← getD_of_isPrefix (List.prefix_append w [c]) (by omega)] at hc
  omega

theorem InProgress.not_complete {w : List UInt8} (h : InProgress w) : ¬Complete w := by
  intro hc
  have := h.unfinished (by rw [hc]; omega)
  exact absurd hc (Nat.ne_of_lt this)

/-- Extending a frame in progress leaves it in progress unless that completes it. -/
theorem InProgress.snoc {w : List UInt8} {c : UInt8} (h : InProgress w) (hlt : w.length < 127)
    (hh : Header (w ++ [c])) (hc : ¬Complete (w ++ [c])) : InProgress (w ++ [c]) := by
  refine ⟨hh, by simp; omega, fun h8 => ?_⟩
  rw [Complete] at hc
  rw [List.length_append, List.length_singleton] at h8 hc ⊢
  rcases Nat.lt_or_ge w.length 8 with h7 | h7
  · omega
  · have := h.unfinished h7
    rw [getD_of_isPrefix (List.prefix_append w [c]) (by omega)] at this
    omega

theorem InProgress.collect {w : List UInt8} (h : InProgress w) (c : UInt8) :
    InProgress (framer.step w c).1 := by
  show InProgress (Mcu.collect w c).1
  obtain ⟨_, e⟩ | ⟨_, _, _, e, _⟩ | ⟨_, _, _, e⟩ | ⟨hlt, hh, hc, e⟩ := collect_cases h.header c
  · rw [e]; exact .nil
  · rw [e]; exact .nil
  · rw [e]; exact .nil
  · rw [e]; exact h.snoc hlt hh hc

/-- The collected bytes always are a frame in progress. -/
theorem inProgress_final (bs : List UInt8) : InProgress (framer.final [] bs) :=
  framer.final_invariant (fun _ c h => h.collect c) .nil

/-- The collected bytes are the last ones read. -/
theorem final_suffix (w bs : List UInt8) : framer.final w bs <:+ w ++ bs := by
  induction bs generalizing w with
  | nil => simp
  | cons c bs ih =>
    have hstep : (framer.step w c).1 = [] ∨ (framer.step w c).1 = w ++ [c] := by
      show (collect w c).1 = [] ∨ (collect w c).1 = w ++ [c]
      unfold collect
      repeat' split
      all_goals simp
    rw [Transducer.final_cons]
    rcases hstep with h | h
    · rw [h]
      exact (ih []).trans ⟨w ++ [c], by simp⟩
    · rw [h]
      simpa using ih (w ++ [c])

/-- A frame in progress is collected as it is, without a report. -/
theorem InProgress.read {w : List UInt8} (h : InProgress w) :
    framer.final [] w = w ∧ framer.out [] w = [] := by
  induction w using List.reverseRecOn with
  | nil => exact ⟨rfl, rfl⟩
  | append_singleton w c ih =>
    obtain ⟨hf, ho⟩ := ih (h.of_isPrefix (List.prefix_append _ _))
    have hlen : w.length < 127 := by have := h.length_le; simp at this; omega
    have hstep : framer.step w c = (w ++ [c], []) := by
      obtain ⟨h127, _⟩ | ⟨_, hh, _⟩ | ⟨_, _, hc, _⟩ | ⟨_, _, _, e⟩ :=
        collect_cases (h.header.of_isPrefix (List.prefix_append _ _)) c
      · omega
      · exact absurd h.header hh
      · exact absurd hc h.not_complete
      · exact e
    rw [Transducer.final_snoc, Transducer.out_snoc, hf, ho, hstep]
    exact ⟨rfl, rfl⟩

/-- A complete frame is collected and reported at its last byte. -/
theorem read_complete {w : List UInt8} {c : UInt8} (hh : Header (w ++ [c]))
    (hc : Complete (w ++ [c])) (hlt : w.length < 127) :
    framer.final [] w = w ∧ framer.out [] w = [] ∧
      framer.step w c = ([], [verdict (w ++ [c])]) := by
  have hw := InProgress.of_complete hh hc hlt
  refine ⟨hw.read.1, hw.read.2, ?_⟩
  obtain ⟨h127, _⟩ | ⟨_, hh', _⟩ | ⟨_, _, _, e⟩ | ⟨_, _, hc', _⟩ := collect_cases hw.header c
  · omega
  · exact absurd hh hh'
  · exact e
  · exact absurd hc hc'

/-! ## Frames on the wire -/

/-- A complete string with the right checksum is the wire image of its decoding. -/
theorem bytes_decode {w : List UInt8} (hh : Header w) (hc : Complete w)
    (hck : w.getD 3 0 = xorSum (w.drop 4)) : (decode w).bytes = w := by
  have h8 : 8 ≤ w.length := by rw [hc]; omega
  match w, h8 with
  | a :: b :: d :: ck :: fc :: cmd :: ack :: len :: data, _ =>
    have hhdr : [a, b, d] = [mcuSyncByte0, mcuSyncByte1, mcuFlagByteNormal] :=
      List.IsPrefix.eq_of_length hh rfl
    simp only [List.cons.injEq, and_true] at hhdr
    obtain ⟨rfl, rfl, rfl⟩ := hhdr
    have : ck = (decode (mcuSyncByte0 :: mcuSyncByte1 :: mcuFlagByteNormal :: ck :: fc :: cmd ::
        ack :: len :: data)).checksum := by
      simpa [Frame.checksum, decode] using hck
    rw [Frame.bytes, ← this]
    rfl

/-- The strings the receiver accepts as a whole are the wire images of frames that fit it. -/
theorem accepted_iff {w : List UInt8} :
    (Header w ∧ Complete w ∧ w.length ≤ 127 ∧ ∃ f, verdict w = .success f) ↔
      ∃ f : WireFrame, w = f.bytes := by
  constructor
  · rintro ⟨hh, hc, hle, f, hf⟩
    have hck : w.getD 3 0 = xorSum (w.drop 4) := by
      by_contra hne
      rw [verdict, if_neg hne] at hf
      cases hf
    have hlen : w.length = (decode w).len.toNat + 8 := hc
    refine ⟨⟨decode w, ?_, by omega⟩, (bytes_decode hh hc hck).symm⟩
    simp only [decode, List.length_drop] at hlen ⊢
    omega
  · rintro ⟨f, rfl⟩
    refine ⟨f.header_bytes, Frame.complete_bytes f.data_length, ?_, _, f.verdict_bytes⟩
    have := f.len_le
    rw [f.bytes_length, f.data_length]
    omega

/-- A frame that fits is read without a report up to its last byte and reported there. -/
theorem WireFrame.read (f : WireFrame) :
    framer.final [] f.bytes.dropLast = f.bytes.dropLast ∧ framer.out [] f.bytes.dropLast = [] ∧
      ∃ c, f.bytes = f.bytes.dropLast ++ [c] ∧
        framer.step f.bytes.dropLast c = ([], [.success f.toFrame]) := by
  obtain ⟨hh, hc, hle, _⟩ := accepted_iff.mpr ⟨f, rfl⟩
  have hne : f.bytes ≠ [] := by simp [Frame.bytes]
  have hsplit := List.dropLast_append_getLast hne
  have hlen : f.bytes.dropLast.length < 127 := by rw [List.length_dropLast]; omega
  rw [← hsplit] at hh hc
  obtain ⟨hf, ho, hstep⟩ := read_complete hh hc hlen
  rw [hsplit, f.verdict_bytes] at hstep
  exact ⟨hf, ho, _, hsplit.symm, hstep⟩

/-- From the empty state a frame that fits leads back to it and is reported once. -/
theorem WireFrame.final_out (f : WireFrame) :
    framer.final [] f.bytes = [] ∧ framer.out [] f.bytes = [.success f.toFrame] := by
  obtain ⟨hf, ho, c, hsplit, hstep⟩ := f.read
  rw [hsplit, Transducer.final_snoc, Transducer.out_snoc, hf, ho, hstep]
  exact ⟨rfl, rfl⟩

end HeadUnit.Mcu
