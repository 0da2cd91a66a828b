import Mathlib.Algebra.Ring.Parity
import Mathlib.Data.List.DropRight
import HeadUnit.Mcu.Acceptance

/-!
# Resynchronisation after noise

Noise without the two sync bytes in a row leaves the collector empty or with one sync byte
collected, by the parity of the run of first sync bytes at its end: the mismatch branch at
position 1 drops a byte without looking whether it is itself the first sync byte. A frame behind
the noise is reported exactly in the first case.
-/

namespace HeadUnit.Mcu

/-- The run of first sync bytes at the end of `g`. -/
def trailingSync (g : List UInt8) : List UInt8 := g.rtakeWhile (· = mcuSyncByte0)

/-- No first sync byte of `g` is immediately followed by the second. -/
def Noise (g : List UInt8) : Prop := ¬[mcuSyncByte0, mcuSyncByte1] <:+: g

/-- Feeding `g` and then the frame from `s` reports the frame at its last byte and no other
success. -/
def Resynchronises (s : McuInfo) (g : List UInt8) (f : WireFrame) : Prop :=
  ∃ c s₁ s₂, f.bytes = f.bytes.dropLast ++ [c] ∧
    receiver.after s (g ++ f.bytes.dropLast) = .ok s₁ ∧
    successes (receiver.trace s (g ++ f.bytes.dropLast)) = [] ∧
    autolinkMcuParse s₁ c = .ok (s₂, [.success f.toFrame])

theorem trailingSync_snoc_self (g : List UInt8) :
    trailingSync (g ++ [mcuSyncByte0]) = trailingSync g ++ [mcuSyncByte0] :=
  List.rtakeWhile_concat_pos _ _ _ (by decide)

theorem trailingSync_snoc_of_ne (g : List UInt8) {c : UInt8} (h : c ≠ mcuSyncByte0) :
    trailingSync (g ++ [c]) = [] :=
  List.rtakeWhile_concat_neg _ _ _ (by simpa using h)

/-- What a byte other than the second sync byte does behind at most one sync byte. -/
theorem step_empty (c : UInt8) :
    framer.step [] c = if c = mcuSyncByte0 then ([c], []) else ([], [.lostSync0]) := by
  show collect [] c = _
  by_cases hc : c = mcuSyncByte0
  · subst hc; decide
  · simp [collect, hc, Ne.symm hc]

theorem step_sync {c : UInt8} (h : c ≠ mcuSyncByte1) :
    framer.step [mcuSyncByte0] c = ([], [.lostSync1]) := by
  show collect [mcuSyncByte0] c = _
  simp [collect, Ne.symm h]

theorem noise_read {g : List UInt8} (hg : Noise g) :
    framer.final [] g = (if Even (trailingSync g).length then [] else [mcuSyncByte0]) ∧
      successes (framer.out [] g) = [] := by
  induction g using List.reverseRecOn with
  | nil => exact ⟨rfl, rfl⟩
  | append_singleton g c ih =>
    obtain ⟨hfin, hout⟩ := ih fun h => hg (h.trans (List.prefix_append _ _).isInfix)
    rw [Transducer.final_snoc, Transducer.out_snoc, hfin, successes, List.filterMap_append,
      ← successes, hout, List.nil_append]
    by_cases heven : Even (trailingSync g).length
    · rw [if_pos heven, step_empty]
      by_cases hc : c = mcuSyncByte0
      · subst hc
        rw [trailingSync_snoc_self, List.length_append, List.length_singleton, if_pos rfl,
          if_neg (Nat.not_even_iff_odd.mpr heven.add_one)]
        exact ⟨rfl, rfl⟩
      · rw [trailingSync_snoc_of_ne g hc, if_neg hc]
        exact ⟨rfl, rfl⟩
    · -- the run at the end is not empty, so the last byte of `g` is the first sync byte
      have hne : c ≠ mcuSyncByte1 := by
        rintro rfl
        obtain ⟨pre, hpre⟩ : trailingSync g <:+ g := List.rtakeWhile_suffix _ _
        have hrun : trailingSync g ≠ [] := by
          intro h
          rw [h] at heven
          exact heven (by simp)
        have hlast : (trailingSync g).getLast hrun = mcuSyncByte0 := by
          simpa using List.mem_rtakeWhile_imp (List.getLast_mem hrun)
        rw [← List.dropLast_append_getLast hrun, hlast] at hpre
        refine hg ⟨pre ++ (trailingSync g).dropLast, [], ?_⟩
        conv_rhs => rw [← hpre]
        simp
      rw [if_neg heven, step_sync hne]
      refine ⟨?_, rfl⟩
      by_cases hc : c = mcuSyncByte0
      · subst hc
        rw [trailingSync_snoc_self, List.length_append, List.length_singleton,
          if_pos (Nat.not_even_iff_odd.mp heven).add_one]
      · rw [trailingSync_snoc_of_ne g hc]
        rfl

/-- Behind a sync byte the first byte of a frame is dropped, and what remains of the frame is too
short to be reported as this frame. -/
theorem lost_behind_sync (f : WireFrame) (c : UInt8) :
    (framer.step (framer.final [mcuSyncByte0] f.bytes.dropLast) c).2 ≠ [.success f.toFrame] := by
  intro hout
  have hcons : f.bytes.dropLast = mcuSyncByte0 :: f.bytes.dropLast.tail := rfl
  have hfin : framer.final [mcuSyncByte0] f.bytes.dropLast =
      framer.final [] f.bytes.dropLast.tail := by
    rw [hcons, Transducer.final_cons, step_sync (by decide)]
    rfl
  have hlen := (final_suffix [] f.bytes.dropLast.tail).length_le
  rw [hfin] at hout
  obtain ⟨-, -, hc, hv⟩ := collect_success (inProgress_final _) hout
  have hdec : decode (framer.final [] f.bytes.dropLast.tail ++ [c]) = f.toFrame := by
    rw [verdict] at hv
    split at hv
    · exact Report.success.inj hv
    · cases hv
  have hcomplete : (framer.final [] f.bytes.dropLast.tail ++ [c]).length = f.len.toNat + 8 := by
    rw [hc]
    exact congrArg (fun g : Frame => g.len.toNat + 8) hdec
  simp only [List.length_append, List.length_tail, List.length_dropLast, List.length_nil,
    List.length_singleton, Frame.bytes_length, f.data_length] at hlen hcomplete
  omega

/-- A frame behind noise is received if and only if the run of first sync bytes at the end of the
noise has even length. -/
theorem resynchronises_iff (s : McuInfo) (hpos : s.pos = 0) (hflag : s.flag = 0) (g : List UInt8)
    (hg : Noise g) (f : WireFrame) :
    Resynchronises s g f ↔ Even (trailingSync g).length := by
  have hs : Collected s [] := .nil hflag hpos
  obtain ⟨hfin, hquiet⟩ := noise_read hg
  obtain ⟨hframe, hnone, c, hsplit, hstep⟩ := f.read
  constructor
  · rintro ⟨c', s₁, s₂, -, hs₁, -, hparse⟩
    by_contra hodd
    have hcol := receiver_refines.rel_of_after hs hs₁
    obtain ⟨s', hs', -⟩ := receiver_refines s₁ _ c' hcol
    have hout := (Prod.mk.inj (Except.ok.inj (hs'.symm.trans hparse))).2
    rw [Transducer.final_append, hfin, if_neg hodd] at hout
    exact lost_behind_sync f c' hout
  · intro heven
    rw [if_pos heven] at hfin
    obtain ⟨s₁, hs₁, hcol⟩ := receiver_refines.after hs (g ++ f.bytes.dropLast)
    rw [Transducer.final_append, hfin, hframe] at hcol
    obtain ⟨s₂, hs₂, -⟩ := receiver_refines s₁ _ c hcol
    rw [hstep] at hs₂
    refine ⟨c, s₁, s₂, hsplit, hs₁, ?_, hs₂⟩
    rw [receiver_refines.trace hs, Transducer.out_append, hfin, hnone, List.append_nil, hquiet]

/-- A frame without payload. -/
def emptyFrame : WireFrame where
  framecounter := 0
  cmd1 := 0
  ack := 0
  len := 0
  data := []
  data_length := rfl
  len_le := by decide

theorem resynchronises_after_pair :
    Resynchronises mcuinfo [0x77, 0xAA, 0xAA] emptyFrame :=
  (resynchronises_iff mcuinfo rfl rfl _ (by unfold Noise; decide) emptyFrame).mpr (by decide)

/-- One stray sync byte in front of a frame costs the frame. -/
theorem not_resynchronises_after_one :
    Noise [0xAA] ∧ ¬Resynchronises mcuinfo [0xAA] emptyFrame := by
  refine ⟨by unfold Noise; decide, ?_⟩
  rintro ⟨c, s₁, s₂, -, hs₁, -, hparse⟩
  have hcol := receiver_refines.rel_of_after (.nil rfl rfl) hs₁
  obtain ⟨s', hs', -⟩ := receiver_refines s₁ _ c hcol
  exact lost_behind_sync emptyFrame c
    (Prod.mk.inj (Except.ok.inj (hs'.symm.trans hparse))).2

end HeadUnit.Mcu
