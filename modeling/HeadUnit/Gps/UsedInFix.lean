import HeadUnit.Gps.LineTokens
import HeadUnit.Gps.SatelliteGroups

/-!
# The satellites used in a fix

GSA sets the mask of the satellites in use and has the status handed over if it finds one, or if it
reports the loss of a fix that had one. The first character of an empty field is the comma behind
it, so that a sentence without a fix is taken for one with it; and a fix with none of the satellites
1 to 32 clears the mask without a word (`masksAnnounced_iff`).
-/

namespace HeadUnit.Gps

/-! ## Fields of GSA -/

def IsGsa (fs : List (List UInt8)) : Prop := slice (fs.getD 0 []) 2 5 = ascii ['G', 'S', 'A']

/-- Field 2 is empty or `1`. -/
def NoFix (fs : List (List UInt8)) : Prop := fs.getD 2 [] = [] ∨ fs.getD 2 [] = ascii ['1']

instance (fs : List (List UInt8)) : Decidable (NoFix fs) := inferInstanceAs (Decidable (_ ∨ _))

/-- Satellite `p` is among the fields 3 to 14. -/
def Uses (fs : List (List UInt8)) (p : Nat) : Prop :=
  ∃ i ∈ List.range' 3 12, Numeral (fs.getD i []) p

/-- None of the satellites 1 to 32 is among the fields. -/
def UsesNone (fs : List (List UInt8)) : Prop := ∀ p, 1 ≤ p → p ≤ 32 → ¬Uses fs p

/-- The mask of a GSA sentence: that of its satellites, or none without a fix. -/
def MaskRule (fs : List (List UInt8)) (mask : BitVec 32) : Prop :=
  if NoFix fs then mask = 0
  else ∀ p, 1 ≤ p → p ≤ 32 → (mask.getLsbD (p - 1) = true ↔ Uses fs p)

/-- What the code takes for a fix: a field that begins with neither `1` nor NUL, or an empty one
with a comma behind it. -/
def TakenForFix (fs : List (List UInt8)) : Prop :=
  (fs.getD 2 []).head? ≠ some 0 ∧ (fs.getD 2 []).head? ≠ some 0x31 ∧
    (fs.getD 2 [] = [] → 3 < fs.length)

instance (fs : List (List UInt8)) : Decidable (IsGsa fs) := inferInstanceAs (Decidable (_ = _))
instance (fs : List (List UInt8)) (p : Nat) : Decidable (Uses fs p) :=
  inferInstanceAs (Decidable (∃ i ∈ List.range' 3 12, _))
instance (fs : List (List UInt8)) : Decidable (UsesNone fs) :=
  decidable_of_iff (∀ p ∈ List.range' 1 32, ¬Uses fs p) <| forall_congr' fun p => by
    rw [List.mem_range'_1, and_imp, Nat.lt_succ_iff]
instance (fs : List (List UInt8)) : Decidable (TakenForFix fs) :=
  inferInstanceAs (Decidable (_ ∧ _))

/-- Numbers have at most nine digits. -/
def ShortNumerals (fs : List (List UInt8)) : Prop := ∀ f ∈ fs, (∀ d ∈ f, IsDigit d) → f.length ≤ 9

instance (fs : List (List UInt8)) : Decidable (ShortNumerals fs) :=
  inferInstanceAs (Decidable (∀ f ∈ fs, _))

theorem numeral_iff_readInt {f : List UInt8} (hshort : (∀ d ∈ f, IsDigit d) → f.length ≤ 9)
    (n : Nat) : Numeral f n ↔ readInt f = n := by
  constructor
  · exact Numeral.readInt
  · intro heq
    have hne : f ≠ [] := by
      rintro rfl
      exact absurd heq (by simp [readInt])
    have hdigits : ∀ d ∈ f, IsDigit d := by
      intro d hd
      by_contra hnot
      rw [readInt_nondigit hd hnot] at heq
      omega
    refine ⟨hne, hdigits, hshort hdigits, ?_⟩
    rw [readInt_digits hne hdigits (hshort hdigits)] at heq
    exact Int.ofNat_inj.mp heq

/-! ## The branch -/

variable {D : Type}

/-- A number of a satellite that the mask has a bit for. -/
def InMask (prn : Int) : Prop := 0 < prn ∧ prn < 33

/-- What the loop adds to the mask and the flags. -/
theorem gsaFields_spec (t : List Token) (is : List Nat) (r : NmeaReader D) :
    (∀ k < 32, (is.foldl (gsaField t) r).svStatus.usedInFixMask.getLsbD k = true ↔
      r.svStatus.usedInFixMask.getLsbD k = true ∨ ∃ i ∈ is, intField t i = k + 1) ∧
    ((is.foldl (gsaField t) r).svStatusChanged = true ↔
      r.svStatusChanged = true ∨ ∃ i ∈ is, InMask (intField t i)) ∧
    ((is.foldl (gsaField t) r).gsaFixed = true ↔
      r.gsaFixed = true ∨ ∃ i ∈ is, InMask (intField t i)) := by
  induction is generalizing r with
  | nil => simp
  | cons i is ih =>
    obtain ⟨hmask, hchanged, hfixed⟩ := ih (gsaField t r i)
    rw [List.foldl_cons]
    simp only [List.exists_mem_cons_iff, ← or_assoc]
    by_cases hprn : InMask (intField t i)
    · have hstep : gsaField t r i = { r with
          svStatus := { r.svStatus with
            usedInFixMask := r.svStatus.usedInFixMask ||| 1#32 <<< (intField t i - 1).toNat }
          svStatusChanged := true
          gsaFixed := true } := if_pos hprn
      rw [hstep] at hmask hchanged hfixed ⊢
      refine ⟨?_, ?_, ?_⟩
      · intro k hk
        have hbit : (1#32 <<< (intField t i - 1).toNat).getLsbD k = true ↔
            intField t i = k + 1 := by
          obtain ⟨hpos, hlt⟩ := hprn
          rw [← BitVec.twoPow_eq, BitVec.getLsbD_twoPow, Bool.and_eq_true, decide_eq_true_eq,
            decide_eq_true_eq]
          omega
        rw [hmask k hk, BitVec.getLsbD_or, Bool.or_eq_true, hbit]
      · exact iff_of_true (hchanged.mpr (.inl rfl)) (.inl (.inr hprn))
      · exact iff_of_true (hfixed.mpr (.inl rfl)) (.inl (.inr hprn))
    · have hstep : gsaField t r i = r := if_neg hprn
      rw [hstep] at hmask hchanged hfixed ⊢
      refine ⟨?_, ?_, ?_⟩
      · intro k hk
        have hnot : intField t i ≠ k + 1 := fun heq => hprn ⟨by omega, by omega⟩
        rw [hmask k hk, or_iff_left hnot]
      · rw [hchanged, or_iff_left hprn]
      · rw [hfixed, or_iff_left hprn]

/-! ## A GSA sentence in the buffer -/

section Line

variable {r : NmeaReader D} {w : List UInt8}

/-- An empty field begins with the comma behind it, if there is one. -/
theorem char0_empty (h : Holds r (w ++ [0x0A])) {i : Nat} (hi : i < maxNmeaTokens)
    (hnil : (fields (w ++ [0x0A])).getD i [] = []) :
    (nmeaTokenizerGet (lineTokens r) i).char0 =
      if i + 1 < (fields (w ++ [0x0A])).length then 0x2C else 0 := by
  have htok := h.lineToken hi
  have hspells := get_spells h.pos_le hi
  have hmem := get_mem h.pos_le hi
  have hdummy := get_dummy h.pos_le hi
  rw [h.take] at hspells hmem hdummy
  rw [hnil] at htok
  by_cases hlast : i + 1 < (fields (w ++ [0x0A])).length
  · have hstop : (nmeaTokenizerGet (lineTokens r) i).stop = (nmeaTokenizerGet (lineTokens r) i).p :=
      htok.stop_eq
    have hcomma := hspells.2 hlast
    rw [if_pos hlast, Token.char0, ← hstop, lineTokens, hmem hlast]
    exact hcomma
  · rw [if_neg hlast, lineTokens, hdummy (Nat.le_of_not_lt hlast) hnil]
    rfl

/-- Field 2 is taken for a fix by its first character. -/
theorem takenForFix_iff (h : Holds r (w ++ [0x0A])) :
    (nmeaTokenizerGet (lineTokens r) 2).char0 ≠ 0 ∧
        (nmeaTokenizerGet (lineTokens r) 2).char0 ≠ 0x31 ↔
      TakenForFix (fields (w ++ [0x0A])) := by
  have htok : LineToken (nmeaTokenizerGet (lineTokens r) 2) ((fields (w ++ [0x0A])).getD 2 []) :=
    h.lineToken (by decide)
  rw [TakenForFix]
  cases hf : (fields (w ++ [0x0A])).getD 2 [] with
  | nil =>
    have hchar : (nmeaTokenizerGet (lineTokens r) 2).char0 =
        if 3 < (fields (w ++ [0x0A])).length then 0x2C else 0 := char0_empty h (by decide) hf
    rw [hchar]
    split
    case isTrue hlen => exact iff_of_true (by decide) ⟨nofun, nofun, fun _ => hlen⟩
    case isFalse hlen => exact iff_of_false (fun h => h.1 rfl) fun h => hlen (h.2.2 rfl)
  | cons b f =>
    rw [hf] at htok
    rw [htok.char0_cons]
    simp

/-- The numbers that the loop reads. -/
theorem uses_iff (h : Holds r (w ++ [0x0A])) (hshort : ShortNumerals (fields (w ++ [0x0A])))
    (p : Nat) :
    Uses (fields (w ++ [0x0A])) p ↔ ∃ i ∈ List.range' 3 12, intField (lineTokens r) i = p := by
  refine exists_congr fun i => and_congr_right fun hi => ?_
  have hlt : i < maxNmeaTokens := (List.mem_range'_1.mp hi).2.trans (by decide)
  have hint : intField (lineTokens r) i = readInt ((fields (w ++ [0x0A])).getD i []) :=
    (h.lineToken hlt).str2int
  rw [hint]
  apply numeral_iff_readInt
  intro hdigits
  by_cases hlen : i < (fields (w ++ [0x0A])).length
  · rw [List.getD_eq_getElem _ _ hlen] at hdigits ⊢
    exact hshort _ (List.getElem_mem hlen) hdigits
  · rw [List.getD_eq_default _ _ (Nat.le_of_not_lt hlen)]
    exact Nat.zero_le 9

theorem usesNone_iff (h : Holds r (w ++ [0x0A])) (hshort : ShortNumerals (fields (w ++ [0x0A]))) :
    UsesNone (fields (w ++ [0x0A])) ↔
      ¬∃ i ∈ List.range' 3 12, InMask (intField (lineTokens r) i) := by
  constructor
  · rintro hnone ⟨i, hi, hpos, hlt⟩
    apply hnone (intField (lineTokens r) i).toNat (by omega) (by omega)
    exact (uses_iff h hshort _).mpr ⟨i, hi, by omega⟩
  · intro hnot p hp hle hp'
    obtain ⟨i, hi, heq⟩ := (uses_iff h hshort p).mp hp'
    exact hnot ⟨i, hi, by omega, by omega⟩

/-- A GSA sentence that is taken for one with a fix leaves the mask of its satellites. -/
theorem parseGsa_taken (h : Holds r (w ++ [0x0A])) (hshort : ShortNumerals (fields (w ++ [0x0A])))
    (htaken : TakenForFix (fields (w ++ [0x0A]))) :
    (∀ p, 1 ≤ p → p ≤ 32 →
        ((parseGsa (lineTokens r) r).svStatus.usedInFixMask.getLsbD (p - 1) = true ↔
          Uses (fields (w ++ [0x0A])) p)) ∧
      ((parseGsa (lineTokens r) r).svStatusChanged = true ↔
        r.svStatusChanged = true ∨ ¬UsesNone (fields (w ++ [0x0A]))) ∧
      ((parseGsa (lineTokens r) r).gsaFixed = true ↔
        r.gsaFixed = true ∨ ¬UsesNone (fields (w ++ [0x0A]))) := by
  have hparse : parseGsa (lineTokens r) r = (List.range' 3 12).foldl (gsaField (lineTokens r))
      { r with svStatus := { r.svStatus with usedInFixMask := 0 } } :=
    if_pos ((takenForFix_iff h).mpr htaken)
  obtain ⟨hmask, hchanged, hfixed⟩ := gsaFields_spec (lineTokens r) (List.range' 3 12)
    { r with svStatus := { r.svStatus with usedInFixMask := 0 } }
  rw [hparse, usesNone_iff h hshort, not_not]
  refine ⟨?_, hchanged, hfixed⟩
  intro p hp hle
  rw [hmask (p - 1) (by omega), uses_iff h hshort]
  have hcast : ((p - 1 : Nat) : Int) + 1 = p := by omega
  rw [hcast]
  exact or_iff_right (by simp)

/-- Any other one leaves no mask, if there was none without a fix. -/
theorem parseGsa_lost (h : Holds r (w ++ [0x0A]))
    (htaken : ¬TakenForFix (fields (w ++ [0x0A]))) :
    parseGsa (lineTokens r) r = if r.gsaFixed then
      { r with
        svStatus := { r.svStatus with usedInFixMask := 0 }
        svStatusChanged := true
        gsaFixed := false } else r :=
  if_neg fun hchar => htaken ((takenForFix_iff h).mp hchar)

end Line

/-! ## Announcements -/

/-- The mask in the last status handed over. -/
def lastMask (outs : List (Output D)) : BitVec 32 :=
  ((outs.filterMap Output.status).getLast?.map GpsSvStatus.usedInFixMask).getD 0

theorem lastMask_append {ws outs : List (Output D)} {changed : Bool} {sv : GpsSvStatus D}
    (h : outs.filterMap Output.status = if changed then [sv] else []) :
    lastMask (ws ++ outs) = if changed then sv.usedInFixMask else lastMask ws := by
  rw [lastMask, List.filterMap_append, h]
  cases changed with
  | false => rw [lastMask, if_neg Bool.false_ne_true, List.append_nil]; rfl
  | true => simp

/-- Between two sentences nothing is left to be handed over, and there is no mask without a fix. -/
structure Quiet (r : NmeaReader D) : Prop where
  unchanged : r.svStatusChanged = false
  fixed : r.gsaFixed = false → r.svStatus.usedInFixMask = 0

variable [CDouble D] {cbs : GpsCallbacks}

/-- What is done with the state that a sentence leaves. -/
theorem handle_mask (zone : Int) (hcb : cbs.svStatusCb = true) (clk : Clock) (t : List Token)
    (r : NmeaReader D) {out : List (Output D)} (hout : ∀ o ∈ out, o.isLine)
    (ws : List (Output D)) :
    (handle zone cbs clk t r).1.svStatusChanged = false ∧
      (handle zone cbs clk t r).1.gsaFixed = (parseSentence zone clk t r).1.gsaFixed ∧
      (handle zone cbs clk t r).1.svStatus = (parseSentence zone clk t r).1.svStatus ∧
      lastMask (ws ++ (out ++ (handle zone cbs clk t r).2)) =
        if (parseSentence zone clk t r).1.svStatusChanged then
          (parseSentence zone clk t r).1.svStatus.usedInFixMask else lastMask ws := by
  obtain ⟨hdone, hstatus⟩ := handle_status zone hcb clk t r
  refine ⟨hdone, ?_, (handle_svs zone cbs clk t r).1, ?_⟩
  · rw [handle_fst, reportLocation, reportSvStatus]
    split <;> split <;> rfl
  · apply lastMask_append
    rw [List.filterMap_append, hstatus, List.filterMap_eq_nil_iff.mpr, List.nil_append]
    exact fun o ho => Output.status_of_isLine (hout o ho)

theorem gsvLoop_mask (t : List Token) (n : Int) (left i curr : Nat) (sv : GpsSvStatus D) :
    (gsvLoop t n left i curr sv).1.usedInFixMask = sv.usedInFixMask := by
  induction left generalizing i curr sv with
  | zero => rfl
  | succ left ih =>
    rw [gsvLoop]
    split
    · exact ih _ _ _
    · rfl

theorem parseGsv_mask (t : List Token) (r : NmeaReader D) :
    (parseGsv t r).1.svStatus.usedInFixMask = r.svStatus.usedInFixMask ∧
      (parseGsv t r).1.gsaFixed = r.gsaFixed := by
  rw [parseGsv]
  dsimp only
  split
  · split <;> split <;> exact ⟨gsvLoop_mask t _ _ _ _ _, rfl⟩
  · exact ⟨rfl, rfl⟩

/-- Sentences other than GSA leave the mask alone. -/
theorem parseSentence_mask (zone : Int) (clk : Clock) {t : List Token} (r : NmeaReader D)
    (hgsa : sentenceId (nmeaTokenizerGet t 0) ≠ ascii ['G', 'S', 'A']) :
    (parseSentence zone clk t r).1.svStatus.usedInFixMask = r.svStatus.usedInFixMask ∧
      (parseSentence zone clk t r).1.gsaFixed = r.gsaFixed := by
  by_cases hgsv : sentenceId (nmeaTokenizerGet t 0) = ascii ['G', 'S', 'V']
  · have hparse : parseSentence zone clk t r = parseGsv t r := by
      rw [parseSentence, hgsv]
      rfl
    rw [hparse]
    exact parseGsv_mask t r
  · obtain ⟨-, fix, year, mon, day, heq⟩ := parseSentence_fixStep zone clk t r hgsa hgsv
    rw [heq]
    exact ⟨rfl, rfl⟩

/-- The fields of the sentence that `c` completes. -/
def sentenceFields (r : NmeaReader D) (c : UInt8) : Option (List (List UInt8)) :=
  (sentenceOf r c).map fun _ => fields ((r.store c).inBuf.toList.take (r.store c).pos)

omit [CDouble D] in
/-- A sentence that is completed is in the buffer. -/
theorem sentenceOf_some {r : NmeaReader D} {c : UInt8} {t : List Token}
    (h : sentenceOf r c = some t) : ∃ w, Holds (r.store c) (w ++ [0x0A]) ∧
      t = lineTokens (r.store c) ∧ sentenceFields r c = some (fields (w ++ [0x0A])) ∧
      5 ≤ ((fields (w ++ [0x0A])).getD 0 []).length := by
  rw [sentenceFields, h]
  rw [sentenceOf] at h
  split at h
  case isFalse => cases h
  case isTrue hif =>
    obtain ⟨-, hpos, rfl⟩ := hif
    have hr : Holds r (r.inBuf.toList.take r.pos) := by
      refine ⟨?_, rfl⟩
      rw [List.length_take, Vector.length_toList]
      omega
    have hholds := hr.store 0x0A (by omega)
    rw [Output.tokens] at h
    split at h
    case isFalse => cases h
    case isTrue htok =>
      refine ⟨_, hholds, (Option.some.inj h).symm, ?_, ?_⟩
      · rw [Option.map_some, hholds.take]
      · exact ((hholds.lineToken (i := 0) (by decide)).length_iff 5).mp htok.2

/-- What a GSA sentence has to be like for its mask to be right and announced. -/
def MaskFits (fs : List (List UInt8)) (mask : BitVec 32) : Prop :=
  ((TakenForFix fs ↔ ¬NoFix fs) ∨ UsesNone fs) ∧ (TakenForFix fs → UsesNone fs → mask = 0)

instance (fs : List (List UInt8)) (mask : BitVec 32) : Decidable (MaskFits fs mask) :=
  inferInstanceAs (Decidable (_ ∧ _))

omit [CDouble D] in
theorem mask_eq_zero_iff {fs : List (List UInt8)} {mask : BitVec 32}
    (h : ∀ p, 1 ≤ p → p ≤ 32 → (mask.getLsbD (p - 1) = true ↔ Uses fs p)) :
    mask = 0 ↔ UsesNone fs := by
  constructor
  · rintro rfl p hp hle huses
    have hbit := (h p hp hle).mpr huses
    simp at hbit
  · intro hnone
    apply BitVec.eq_of_getLsbD_eq
    intro k hk
    have hbit := mt (h (k + 1) (by omega) (by omega)).mp (hnone (k + 1) (by omega) (by omega))
    simpa using hbit

omit [CDouble D] in
/-- Behind the branch for GSA there is no mask without a fix either. -/
theorem parseGsa_fixed {r : NmeaReader D} {w : List UInt8} (h : Holds r (w ++ [0x0A]))
    (hshort : ShortNumerals (fields (w ++ [0x0A]))) (hr : Quiet r)
    (hfixed : (parseGsa (lineTokens r) r).gsaFixed = false) :
    (parseGsa (lineTokens r) r).svStatus.usedInFixMask = 0 := by
  by_cases htaken : TakenForFix (fields (w ++ [0x0A]))
  · obtain ⟨hbits, -, hfixed'⟩ := parseGsa_taken h hshort htaken
    apply (mask_eq_zero_iff hbits).mpr
    by_contra hnone
    rw [hfixed'.mpr (.inr hnone)] at hfixed
    cases hfixed
  · rw [parseGsa_lost h htaken]
    split
    case isTrue => rfl
    case isFalse hnot => exact hr.fixed (eq_false_of_ne_true hnot)

omit [CDouble D] in
/-- A mask that is taken fits unless it is one of no satellites that clears another, or there is no
fix. -/
theorem parseGsa_taken_iff {r : NmeaReader D} {w : List UInt8} (h : Holds r (w ++ [0x0A]))
    (hshort : ShortNumerals (fields (w ++ [0x0A]))) (hr : Quiet r)
    (htaken : TakenForFix (fields (w ++ [0x0A]))) :
    MaskFits (fields (w ++ [0x0A])) r.svStatus.usedInFixMask ↔
      ((parseGsa (lineTokens r) r).svStatusChanged = true ∨
          (parseGsa (lineTokens r) r).svStatus.usedInFixMask = r.svStatus.usedInFixMask) ∧
        MaskRule (fields (w ++ [0x0A])) (parseGsa (lineTokens r) r).svStatus.usedInFixMask := by
  have hquiet : ¬r.svStatusChanged = true := hr.unchanged ▸ Bool.false_ne_true
  obtain ⟨hbits, hchanged, -⟩ := parseGsa_taken h hshort htaken
  have hzero := mask_eq_zero_iff hbits
  rw [or_iff_right hquiet] at hchanged
  generalize parseGsa (lineTokens r) r = r' at *
  rw [MaskFits, MaskRule]
  by_cases hnone : UsesNone (fields (w ++ [0x0A]))
  · -- the mask is cleared and nothing is handed over
    have hmask := hzero.mpr hnone
    rw [or_iff_right (mt hchanged.mp (not_not.mpr hnone)), hmask]
    constructor
    · rintro ⟨-, hold⟩
      refine ⟨(hold htaken hnone).symm, ?_⟩
      split
      · rfl
      · exact hmask ▸ hbits
    · rintro ⟨hold, -⟩
      exact ⟨.inr hnone, fun _ _ => hold.symm⟩
  · rw [or_iff_left hnone]
    constructor
    · rintro ⟨hfix, -⟩
      rw [if_neg (hfix.mp htaken)]
      exact ⟨.inl (hchanged.mpr hnone), hbits⟩
    · rintro ⟨-, hrule⟩
      refine ⟨iff_of_true htaken fun hno => ?_, fun _ h => absurd h hnone⟩
      rw [if_pos hno] at hrule
      exact hnone (hzero.mp hrule)

omit [CDouble D] in
/-- Where the mask is not taken it is cleared, which fits without a fix or satellites. -/
theorem parseGsa_lost_iff {r : NmeaReader D} {w : List UInt8} (h : Holds r (w ++ [0x0A]))
    (hr : Quiet r) (htaken : ¬TakenForFix (fields (w ++ [0x0A]))) :
    MaskFits (fields (w ++ [0x0A])) r.svStatus.usedInFixMask ↔
      ((parseGsa (lineTokens r) r).svStatusChanged = true ∨
          (parseGsa (lineTokens r) r).svStatus.usedInFixMask = r.svStatus.usedInFixMask) ∧
        MaskRule (fields (w ++ [0x0A])) (parseGsa (lineTokens r) r).svStatus.usedInFixMask := by
  have hcleared : (parseGsa (lineTokens r) r).svStatus.usedInFixMask = 0 ∧
      ((parseGsa (lineTokens r) r).svStatusChanged = true ∨
        (parseGsa (lineTokens r) r).svStatus.usedInFixMask = r.svStatus.usedInFixMask) := by
    rw [parseGsa_lost h htaken]
    split
    case isTrue => exact ⟨rfl, .inl rfl⟩
    case isFalse hnot => exact ⟨hr.fixed (eq_false_of_ne_true hnot), .inr rfl⟩
  rw [and_iff_right hcleared.2, hcleared.1, MaskFits, MaskRule]
  constructor
  · rintro ⟨hfix, -⟩
    split
    case isTrue => rfl
    case isFalse hno =>
      have hnone := hfix.resolve_left fun h => htaken (h.mpr hno)
      intro p hp hle
      exact iff_of_false (by simp) (hnone p hp hle)
  · intro hrule
    refine ⟨?_, fun h => absurd h htaken⟩
    by_cases hno : NoFix (fields (w ++ [0x0A]))
    · exact .inl (iff_of_false htaken (not_not.mpr hno))
    · rw [if_neg hno] at hrule
      exact .inr ((mask_eq_zero_iff hrule).mp rfl)

omit [CDouble D] in
/-- The branch for GSA keeps the mask right and announced if and only if the sentence fits. -/
theorem parseGsa_iff {r : NmeaReader D} {w : List UInt8} (h : Holds r (w ++ [0x0A]))
    (hshort : ShortNumerals (fields (w ++ [0x0A]))) (hr : Quiet r) {last : BitVec 32}
    (hlast : r.svStatus.usedInFixMask = last) :
    MaskFits (fields (w ++ [0x0A])) r.svStatus.usedInFixMask ↔
      ((parseGsa (lineTokens r) r).svStatusChanged = true ∨
          (parseGsa (lineTokens r) r).svStatus.usedInFixMask = last) ∧
        MaskRule (fields (w ++ [0x0A])) (parseGsa (lineTokens r) r).svStatus.usedInFixMask := by
  subst hlast
  by_cases htaken : TakenForFix (fields (w ++ [0x0A]))
  · exact parseGsa_taken_iff h hshort hr htaken
  · exact parseGsa_lost_iff h hr htaken

/-! ## Runs -/

/-- The numbers of the sentence that is completed have at most nine digits. -/
def NumeralsFit (r : NmeaReader D) (i : Clock × UInt8) : Prop :=
  ∀ fs ∈ sentenceFields r i.2, ShortNumerals fs

/-- If a GSA sentence is completed, it fits. -/
def GsaFits (r : NmeaReader D) (i : Clock × UInt8) : Prop :=
  ∀ fs ∈ sentenceFields r i.2, IsGsa fs → MaskFits fs r.svStatus.usedInFixMask

instance (r : NmeaReader D) (i : Clock × UInt8) : Decidable (NumeralsFit r i) :=
  inferInstanceAs (Decidable (∀ fs ∈ sentenceFields r i.2, _))
instance (r : NmeaReader D) (i : Clock × UInt8) : Decidable (GsaFits r i) :=
  inferInstanceAs (Decidable (∀ fs ∈ sentenceFields r i.2, _ → _))

/-- If a GSA sentence is completed, the mask is that of its satellites. -/
def MaskRight (zone : Int) (cbs : GpsCallbacks) (r : NmeaReader D) (i : Clock × UInt8) : Prop :=
  ∀ fs ∈ sentenceFields r i.2, IsGsa fs →
    MaskRule fs ((reader zone cbs).step r i).1.svStatus.usedInFixMask

/-- What a sentence does to the mask and to what was handed over. -/
theorem handle_fits_iff (zone : Int) (hcb : cbs.svStatusCb = true) (clk : Clock) {r : NmeaReader D}
    {w : List UInt8} (h : Holds r (w ++ [0x0A]))
    (hid : 5 ≤ ((fields (w ++ [0x0A])).getD 0 []).length)
    (hshort : ShortNumerals (fields (w ++ [0x0A]))) (hr : Quiet r) {out : List (Output D)}
    (hout : ∀ o ∈ out, o.isLine) :
    Quiet (handle zone cbs clk (lineTokens r) r).1 ∧
      ∀ ws : List (Output D), r.svStatus.usedInFixMask = lastMask ws →
        ((IsGsa (fields (w ++ [0x0A])) →
            MaskFits (fields (w ++ [0x0A])) r.svStatus.usedInFixMask) ↔
          (handle zone cbs clk (lineTokens r) r).1.svStatus.usedInFixMask =
              lastMask (ws ++ (out ++ (handle zone cbs clk (lineTokens r) r).2)) ∧
            (IsGsa (fields (w ++ [0x0A])) → MaskRule (fields (w ++ [0x0A]))
              (handle zone cbs clk (lineTokens r) r).1.svStatus.usedInFixMask)) := by
  have hmask := handle_mask zone hcb clk (lineTokens r) r hout
  obtain ⟨hdone, hfixed, hsvs, -⟩ := hmask []
  have hsid := h.sentenceId hid
  have hann {mask last : BitVec 32} {changed : Bool} :
      mask = (if changed then mask else last) ↔ changed = true ∨ mask = last := by
    cases changed <;> simp
  by_cases hgsa : IsGsa (fields (w ++ [0x0A]))
  · have hparse : parseSentence zone clk (lineTokens r) r = (parseGsa (lineTokens r) r, []) := by
      rw [parseSentence, hsid, hgsa]
      rfl
    rw [hparse] at hfixed hsvs hmask
    constructor
    · refine ⟨hdone, fun h' => ?_⟩
      rw [hsvs]
      exact parseGsa_fixed h hshort hr (hfixed ▸ h')
    · intro ws hws
      obtain ⟨-, -, -, hlast⟩ := hmask ws
      rw [hlast, hsvs, hann, forall_prop_of_true hgsa, forall_prop_of_true hgsa]
      exact parseGsa_iff h hshort hr hws
  · obtain ⟨hsame, hkept⟩ := parseSentence_mask zone clk r fun heq => hgsa (hsid.symm.trans heq)
    constructor
    · refine ⟨hdone, fun h' => ?_⟩
      rw [hsvs, hsame]
      exact hr.fixed (hkept ▸ hfixed ▸ h')
    · intro ws hws
      obtain ⟨-, -, -, hlast⟩ := hmask ws
      rw [hlast, hsvs, hann, hsame]
      exact iff_of_true (fun h => absurd h hgsa) ⟨.inr hws, fun h => absurd h hgsa⟩

/-- What one byte does to the mask and to what was handed over. -/
theorem step_fits_iff (zone : Int) (hcb : cbs.svStatusCb = true) {r : NmeaReader D}
    {i : Clock × UInt8} (hr : Quiet r) (hshort : NumeralsFit r i) :
    Quiet ((reader zone cbs).step r i).1 ∧
      ∀ ws : List (Output D), r.svStatus.usedInFixMask = lastMask ws →
        (GsaFits r i ↔ ((reader zone cbs).step r i).1.svStatus.usedInFixMask =
          lastMask (ws ++ ((reader zone cbs).step r i).2) ∧ MaskRight zone cbs r i) := by
  rw [MaskRight]
  show Quiet (nmeaReaderAddc zone cbs i.1 r i.2).1 ∧ ∀ ws : List (Output D), _ →
    (_ ↔ (nmeaReaderAddc zone cbs i.1 r i.2).1.svStatus.usedInFixMask =
        lastMask (ws ++ (nmeaReaderAddc zone cbs i.1 r i.2).2) ∧
      ∀ fs ∈ sentenceFields r i.2, IsGsa fs →
        MaskRule fs (nmeaReaderAddc zone cbs i.1 r i.2).1.svStatus.usedInFixMask)
  rw [NumeralsFit] at hshort
  rw [GsaFits]
  cases hsent : sentenceOf r i.2 with
  | none =>
    obtain ⟨pos, overflow, inBuf, out, hout, heq⟩ := addc_of_none zone cbs i.1 hsent
    have hfields : sentenceFields r i.2 = none := by rw [sentenceFields, hsent]; rfl
    rw [heq, hfields]
    refine ⟨⟨hr.unchanged, hr.fixed⟩, ?_⟩
    intro ws hws
    have hline : out.filterMap Output.status = [] :=
      List.filterMap_eq_nil_iff.mpr fun o ho => Output.status_of_isLine (hout o ho).1
    have hlast : lastMask (ws ++ out) = lastMask ws := by
      rw [lastMask, List.filterMap_append, hline, List.append_nil]
      rfl
    refine iff_of_true (fun fs hfs => nomatch hfs) ⟨?_, fun fs hfs => nomatch hfs⟩
    rw [hlast]
    exact hws
  | some t =>
    obtain ⟨w, hholds, rfl, hfields, hid⟩ := sentenceOf_some hsent
    obtain ⟨out, hout, -, heq⟩ := addc_of_some zone cbs i.1 hsent
    rw [hfields] at hshort ⊢
    have hstored : Quiet (r.store i.2) := ⟨hr.unchanged, hr.fixed⟩
    obtain ⟨hquiet, hiff⟩ := handle_fits_iff zone hcb i.1 hholds hid (hshort _ rfl) hstored hout
    rw [heq]
    generalize handle zone cbs i.1 (lineTokens (r.store i.2)) (r.store i.2) = p at *
    refine ⟨⟨hquiet.unchanged, hquiet.fixed⟩, ?_⟩
    intro ws hws
    simp only [Option.mem_some_iff, forall_eq']
    exact hiff ws hws

/-- The run stays in the array of the satellites, every GSA sentence leaves the mask of its
satellites, and the mask is always the one that was handed over last. -/
structure MasksAnnounced (zone : Int) (cbs : GpsCallbacks) (r : NmeaReader D)
    (is : List (Clock × UInt8)) : Prop where
  inBounds : SatellitesInBounds zone cbs r is
  gsa (js : List (Clock × UInt8)) (i : Clock × UInt8) (h : js ++ [i] <+: is) :
    ∀ fs ∈ sentenceFields ((reader zone cbs).final r js) i.2, IsGsa fs →
      MaskRule fs ((reader zone cbs).final r (js ++ [i])).svStatus.usedInFixMask
  announced (js : List (Clock × UInt8)) (h : js <+: is) :
    ((reader zone cbs).final r js).svStatus.usedInFixMask = lastMask ((reader zone cbs).out r js)

/-- From an initialised reader this is so if and only if every GSV sentence fits into the array and
every GSA sentence fits the mask. -/
theorem masksAnnounced_iff (zone : Int) (hcb : cbs.svStatusCb = true) (clk : Clock)
    (is : List (Clock × UInt8))
    (hshort : (reader zone cbs).Along NumeralsFit (nmeaReaderInit zone clk : NmeaReader D) is) :
    MasksAnnounced zone cbs (nmeaReaderInit zone clk : NmeaReader D) is ↔
      (reader zone cbs).Along GsvFits (nmeaReaderInit zone clk : NmeaReader D) is ∧
        (reader zone cbs).Along GsaFits (nmeaReaderInit zone clk : NmeaReader D) is := by
  have hquiet : Quiet (nmeaReaderInit zone clk : NmeaReader D) := ⟨rfl, fun _ => rfl⟩
  have hinv (r : NmeaReader D) (i : Clock × UInt8) (hr : Quiet r) (hs : NumeralsFit r i) :=
    (step_fits_iff zone hcb hr hs).1
  have hstep (ws : List (Output D)) (r : NmeaReader D) (i : Clock × UInt8) (hr : Quiet r)
      (hs : NumeralsFit r i) := (step_fits_iff zone hcb hr hs).2 ws
  have hnone : (nmeaReaderInit zone clk : NmeaReader D).svStatus.usedInFixMask =
      lastMask ([] : List (Output D)) := rfl
  have hiff := (reader zone cbs).along_history_iff hinv hstep hshort hquiet hnone
  rw [← satellitesInBounds_iff zone cbs clk is, hiff]
  simp only [List.nil_append]
  constructor
  · rintro ⟨hbounds, hgsa, hann⟩
    refine ⟨hbounds, fun js hjs => ⟨hann js hjs, ?_⟩⟩
    intro i hi fs hfs hid
    have hmask := hgsa js i hi fs hfs hid
    rwa [Transducer.final_snoc] at hmask
  · rintro ⟨hbounds, hall⟩
    refine ⟨hbounds, ?_, fun js hjs => (hall js hjs).1⟩
    intro js i hi fs hfs hid
    rw [Transducer.final_snoc]
    exact (hall js ((List.prefix_append js [i]).trans hi)).2 i hi fs hfs hid

/-- A GSA sentence with field 2 and what is behind it. -/
def gsaText (mode rest : List Char) : List UInt8 :=
  ascii (['$', 'G', 'P', 'G', 'S', 'A', ',', 'A', ','] ++ mode ++ [','] ++ rest)

/-- The bytes of lines, at the start of the epoch. -/
def lineBytes (texts : List (List UInt8)) : List (Clock × UInt8) :=
  (texts.flatMap (· ++ [0x0A])).map fun c => (⟨0, 0, 0⟩, c)

/-- A fix is found and lost. -/
theorem masksAnnounced_lost :
    MasksAnnounced 0 statusOnly (nmeaReaderInit 0 ⟨0, 0, 0⟩ : NmeaReader ℚ)
      (lineBytes [gsaText ['3'] ['0', '4'], gsaText ['1'] []]) :=
  (masksAnnounced_iff 0 rfl ⟨0, 0, 0⟩ _ (by decide +kernel)).mpr
    ⟨by decide +kernel, by decide +kernel⟩

/-- Satellites without a fix are taken for those of one, and a fix without satellites is not
announced. -/
theorem not_masksAnnounced :
    ¬MasksAnnounced 0 statusOnly (nmeaReaderInit 0 ⟨0, 0, 0⟩ : NmeaReader ℚ)
        (lineBytes [gsaText [] ['0', '4']]) ∧
      ¬MasksAnnounced 0 statusOnly (nmeaReaderInit 0 ⟨0, 0, 0⟩ : NmeaReader ℚ)
        (lineBytes [gsaText ['3'] ['0', '4'], gsaText ['3'] []]) := by
  constructor
  · intro h
    have hfields : sentenceFields ((reader 0 statusOnly).final (nmeaReaderInit 0 ⟨0, 0, 0⟩ :
        NmeaReader ℚ) (lineBytes [gsaText [] ['0', '4']]).dropLast) 0x0A =
          some [ascii ['G', 'P', 'G', 'S', 'A'], ascii ['A'], [], ascii ['0', '4']] := by
      decide +kernel
    have hmask := h.gsa (lineBytes [gsaText [] ['0', '4']]).dropLast (⟨0, 0, 0⟩, 0x0A)
      ⟨[], rfl⟩ _ hfields rfl
    rw [MaskRule, if_pos (.inl rfl)] at hmask
    revert hmask
    decide +kernel
  · intro h
    have hann := h.announced _ List.prefix_rfl
    revert hann
    decide +kernel

end HeadUnit.Gps
