import HeadUnit.Mcu.Grammar

/-!
# What `autolink_mcu_parse` accepts

The reachable states of the receiver, and the byte strings that take it from position 0 back to
position 0 through the success branch.
-/

namespace HeadUnit.Mcu

/-- Feeding `bs` from `s` returns to position 0 for the first time at its last byte, and that byte
prints `r`. -/
def ReturnsWith (s : McuInfo) (bs : List UInt8) (r : Report) : Prop :=
  ∃ pre c s₁ s₂, bs = pre ++ [c] ∧
    (∀ p, p <+: pre → p ≠ [] → ∀ t, receiver.after s p = .ok t → t.pos ≠ 0) ∧
    receiver.after s pre = .ok s₁ ∧ autolinkMcuParse s₁ c = .ok (s₂, [r]) ∧ s₂.pos = 0

/-- The same, with the banner of the success branch. -/
def ReturnsInSuccess (s : McuInfo) (bs : List UInt8) : Prop := ∃ f, ReturnsWith s bs (.success f)

/-- A string that begins and ends as a frame is read up to its last byte and judged there. -/
theorem returnsWith_verdict {s : McuInfo} (hf : s.flag = 0) (hp : s.pos = 0) {w : List UInt8}
    (hh : Header w) (hc : Complete w) (hle : w.length ≤ 127) : ReturnsWith s w (verdict w) := by
  have hs : Collected s [] := .nil hf hp
  have hne : w ≠ [] := by rintro rfl; cases hc
  have hsplit := List.dropLast_append_getLast hne
  have hlt : w.dropLast.length < 127 := by
    have := List.length_pos_iff.mpr hne
    rw [List.length_dropLast]
    omega
  obtain ⟨hfin, -, hstep⟩ :=
    read_complete (w := w.dropLast) (c := w.getLast hne) (hsplit.symm ▸ hh) (hsplit.symm ▸ hc) hlt
  rw [hsplit] at hstep
  obtain ⟨s₁, hs₁, hcol⟩ := receiver_refines.after hs w.dropLast
  rw [hfin] at hcol
  obtain ⟨s₂, hs₂, hcol₂⟩ := receiver_refines s₁ _ (w.getLast hne) hcol
  rw [hstep] at hs₂ hcol₂
  refine ⟨_, _, s₁, s₂, hsplit.symm, fun p hpre hp' t ht => ?_, hs₁, hs₂, hcol₂.pos⟩
  have hin : InProgress w.dropLast := hfin ▸ inProgress_final _
  rw [(receiver_refines.rel_of_after hs ht).pos, (hin.of_isPrefix hpre).read.1]
  exact fun h0 => hp' (List.length_eq_zero_iff.mp h0)

/-- A collector that is not emptied on the way has collected everything. -/
theorem final_eq_self {w : List UInt8} (h : ∀ p, p <+: w → p ≠ [] → framer.final [] p ≠ []) :
    framer.final [] w = w := by
  induction w using List.reverseRecOn with
  | nil => rfl
  | append_singleton w c ih =>
    have hw := ih fun p hp => h p (hp.trans (List.prefix_append _ _))
    have hne := h (w ++ [c]) List.prefix_rfl (by simp)
    rw [Transducer.final_snoc, hw] at hne ⊢
    have hin := inProgress_final w
    rw [hw] at hin
    obtain ⟨_, e⟩ | ⟨_, _, _, e, _⟩ | ⟨_, _, _, e⟩ | ⟨_, _, _, e⟩ := collect_cases hin.header c
    · exact absurd (congrArg Prod.fst e) hne
    · exact absurd (congrArg Prod.fst e) hne
    · exact absurd (congrArg Prod.fst e) hne
    · exact congrArg Prod.fst e

/-- A success is reported only for a frame that begins, ends and checks as it should. -/
theorem collect_success {w : List UInt8} {c : UInt8} {f : Frame} (hw : InProgress w)
    (h : (framer.step w c).2 = [.success f]) :
    w.length < 127 ∧ Header (w ++ [c]) ∧ Complete (w ++ [c]) ∧
      verdict (w ++ [c]) = .success f := by
  have h' : (collect w c).2 = [.success f] := h
  obtain ⟨_, e⟩ | ⟨_, _, r, e, hr⟩ | ⟨hlt, hh, hc, e⟩ | ⟨_, _, _, e⟩ :=
    collect_cases hw.header c
  · rw [e] at h'; cases h'
  · rw [e] at h'
    rcases hr with rfl | rfl | rfl <;> cases h'
  · rw [e] at h'
    exact ⟨hlt, hh, hc, List.singleton_injective h'⟩
  · rw [e] at h'; cases h'

theorem returnsInSuccess_iff {s : McuInfo} (hf : s.flag = 0) (hp : s.pos = 0) (bs : List UInt8) :
    ReturnsInSuccess s bs ↔ ∃ f : WireFrame, bs = f.bytes := by
  have hs : Collected s [] := .nil hf hp
  constructor
  · rintro ⟨f, pre, c, s₁, s₂, rfl, hfirst, hs₁, hstep, -⟩
    have hpre : framer.final [] pre = pre := final_eq_self fun p hp' hne hnil => by
      obtain ⟨t, ht, hcol⟩ := receiver_refines.after hs p
      exact hfirst p hp' hne t ht (by rw [hcol.pos, hnil]; rfl)
    have hcol := receiver_refines.rel_of_after hs hs₁
    obtain ⟨s', hs', -⟩ := receiver_refines s₁ _ c hcol
    have hout := (Prod.mk.inj (Except.ok.inj (hs'.symm.trans hstep))).2
    rw [hpre] at hout
    have hin := inProgress_final pre
    rw [hpre] at hin
    obtain ⟨hlt, hh, hc, hv⟩ := collect_success hin hout
    exact accepted_iff.mp ⟨hh, hc, by simp; omega, f, hv⟩
  · rintro ⟨f, rfl⟩
    obtain ⟨hh, hc, hle, _, hv⟩ := accepted_iff.mpr ⟨f, rfl⟩
    have hret := returnsWith_verdict hf hp hh hc hle
    rw [hv] at hret
    exact ⟨_, hret⟩

/-- The states reached from the zero-initialised globals, whatever is read: the position stays
below 128, the last `pos` bytes read are the beginning of a frame spelled by the stored fields, and
no further byte faults, so that every index into `data` that the next byte writes or that the
checksum reads is below 128. -/
theorem reachable_spec (fd : Int) (bs : List UInt8) :
    ∃ s, receiver.after { mcuinfo with mcufd := fd } bs = .ok s ∧ s.flag = 0 ∧ s.pos ≤ 127 ∧
      s.image.take s.pos <:+ bs ∧ (8 ≤ s.pos → s.pos < s.len.toNat + 8) ∧
      ∀ c, ∃ r, autolinkMcuParse s c = .ok r := by
  have h₀ : Collected { mcuinfo with mcufd := fd } [] := .nil rfl rfl
  obtain ⟨s, hs, hcol⟩ := receiver_refines.after h₀ bs
  have hin := inProgress_final bs
  refine ⟨s, hs, hcol.flag, ?_, ?_, fun h8 => ?_, fun c => ?_⟩
  · rw [hcol.pos]; exact hin.length_le
  · rw [hcol.image]; exact final_suffix [] bs
  · have h8' : 8 ≤ (framer.final [] bs).length := hcol.pos ▸ h8
    have hlen : (framer.final [] bs).getD 7 0 = s.len := by rw [hcol.header h8']; rfl
    rw [hcol.pos, ← hlen]
    exact hin.unfinished h8'
  · obtain ⟨s', hs', -⟩ := receiver_refines s _ c hcol
    exact ⟨_, hs'⟩

/-- The parser stays inside its buffer on every stream, and accepts exactly the frames that fit
its position counter, whatever earlier traffic left in the fields. -/
theorem autolinkMcuParse_grammar :
    (∀ (fd : Int) (bs : List UInt8),
      ∃ s, receiver.after { mcuinfo with mcufd := fd } bs = .ok s ∧ s.flag = 0 ∧ s.pos ≤ 127 ∧
        s.image.take s.pos <:+ bs ∧ (8 ≤ s.pos → s.pos < s.len.toNat + 8) ∧
        ∀ c, ∃ r, autolinkMcuParse s c = .ok r) ∧
    ∀ s : McuInfo, s.flag = 0 → s.pos = 0 →
      ∀ bs, ReturnsInSuccess s bs ↔ ∃ f : WireFrame, bs = f.bytes :=
  ⟨reachable_spec, fun _ hf hp bs => returnsInSuccess_iff hf hp bs⟩

end HeadUnit.Mcu
