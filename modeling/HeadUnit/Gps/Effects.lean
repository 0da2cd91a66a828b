import HeadUnit.Gps.Reader

/-!
# What the reader's functions change

The update functions change the fix and the date, GSA the mask of the satellites in use, GSV the
satellite list. No sentence changes the line buffer, the callback or the UTC difference.
-/

namespace HeadUnit.Gps

variable {D : Type}

/-- Only the fix and the date differ. -/
def FixStep (r r' : NmeaReader D) : Prop :=
  ∃ fix year mon day, r' = { r with fix := fix, utcYear := year, utcMon := mon, utcDay := day }

/-- Only the mask and the flags of the satellite status differ. -/
def MaskStep (r r' : NmeaReader D) : Prop :=
  ∃ mask changed fixed, r' = { r with
    svStatus := { r.svStatus with usedInFixMask := mask }
    svStatusChanged := changed
    gsaFixed := fixed }

/-- Line buffer, callback and UTC difference agree. -/
structure SameLine (r r' : NmeaReader D) : Prop where
  pos : r'.pos = r.pos
  overflow : r'.overflow = r.overflow
  callback : r'.callback = r.callback
  inBuf : r'.inBuf = r.inBuf
  utcDiff : r'.utcDiff = r.utcDiff

theorem FixStep.refl (r : NmeaReader D) : FixStep r r := ⟨_, _, _, _, rfl⟩

theorem FixStep.trans {r₁ r₂ r₃ : NmeaReader D} (h₁ : FixStep r₁ r₂) (h₂ : FixStep r₂ r₃) :
    FixStep r₁ r₃ := by
  obtain ⟨_, _, _, _, rfl⟩ := h₁
  obtain ⟨_, _, _, _, rfl⟩ := h₂
  exact ⟨_, _, _, _, rfl⟩

theorem FixStep.svStatus {r r' : NmeaReader D} (h : FixStep r r') : r'.svStatus = r.svStatus := by
  obtain ⟨_, _, _, _, rfl⟩ := h
  rfl

theorem FixStep.sameLine {r r' : NmeaReader D} (h : FixStep r r') : SameLine r r' := by
  obtain ⟨_, _, _, _, rfl⟩ := h
  exact ⟨rfl, rfl, rfl, rfl, rfl⟩

theorem MaskStep.refl (r : NmeaReader D) : MaskStep r r := ⟨_, _, _, rfl⟩

theorem MaskStep.trans {r₁ r₂ r₃ : NmeaReader D} (h₁ : MaskStep r₁ r₂) (h₂ : MaskStep r₂ r₃) :
    MaskStep r₁ r₃ := by
  obtain ⟨_, _, _, rfl⟩ := h₁
  obtain ⟨_, _, _, rfl⟩ := h₂
  exact ⟨_, _, _, rfl⟩

theorem MaskStep.fix {r r' : NmeaReader D} (h : MaskStep r r') : r'.fix = r.fix := by
  obtain ⟨_, _, _, rfl⟩ := h
  rfl

theorem MaskStep.numSvs {r r' : NmeaReader D} (h : MaskStep r r') :
    r'.svStatus.numSvs = r.svStatus.numSvs := by
  obtain ⟨_, _, _, rfl⟩ := h
  rfl

theorem MaskStep.sameLine {r r' : NmeaReader D} (h : MaskStep r r') : SameLine r r' := by
  obtain ⟨_, _, _, rfl⟩ := h
  exact ⟨rfl, rfl, rfl, rfl, rfl⟩

theorem SameLine.trans {r₁ r₂ r₃ : NmeaReader D} (h₁ : SameLine r₁ r₂) (h₂ : SameLine r₂ r₃) :
    SameLine r₁ r₃ where
  pos := h₂.pos.trans h₁.pos
  overflow := h₂.overflow.trans h₁.overflow
  callback := h₂.callback.trans h₁.callback
  inBuf := h₂.inBuf.trans h₁.inBuf
  utcDiff := h₂.utcDiff.trans h₁.utcDiff

variable [CDouble D]

/-! ## Update functions -/

theorem updateTime_fixStep (zone : Int) (clk : Clock) (r : NmeaReader D) (tok : Token) :
    FixStep r (nmeaReaderUpdateTime zone clk r tok).1 := by
  rw [nmeaReaderUpdateTime]
  split
  · exact .refl r
  · split <;> exact ⟨_, _, _, _, rfl⟩

omit [CDouble D] in
theorem updateCdate_fixStep (r : NmeaReader D) (tokD tokM tokY : Token) :
    FixStep r (nmeaReaderUpdateCdate r tokD tokM tokY).1 := by
  rw [nmeaReaderUpdateCdate]
  split
  · exact .refl r
  · exact ⟨_, _, _, _, rfl⟩

theorem updateDate_fixStep (zone : Int) (clk : Clock) (r : NmeaReader D) (date time : Token) :
    FixStep r (nmeaReaderUpdateDate zone clk r date time).1 := by
  rw [nmeaReaderUpdateDate]
  split
  · exact .refl r
  · dsimp only
    split
    · exact .refl r
    · exact FixStep.trans ⟨_, _, _, _, rfl⟩ (updateTime_fixStep ..)

theorem updateLatlong_fixStep (r : NmeaReader D) (lat : Token) (latHemi : UInt8) (lon : Token)
    (lonHemi : UInt8) : FixStep r (nmeaReaderUpdateLatlong r lat latHemi lon lonHemi).1 := by
  rw [nmeaReaderUpdateLatlong]
  split
  · exact .refl r
  · split
    · exact .refl r
    · exact ⟨_, _, _, _, rfl⟩

theorem updateAltitude_fixStep (r : NmeaReader D) (altitude units : Token) :
    FixStep r (nmeaReaderUpdateAltitude r altitude units).1 := by
  rw [nmeaReaderUpdateAltitude]
  split
  · exact .refl r
  · exact ⟨_, _, _, _, rfl⟩

theorem updateBearing_fixStep (r : NmeaReader D) (bearing : Token) :
    FixStep r (nmeaReaderUpdateBearing r bearing).1 := by
  rw [nmeaReaderUpdateBearing]
  split
  · exact .refl r
  · exact ⟨_, _, _, _, rfl⟩

theorem updateSpeed_fixStep (r : NmeaReader D) (speed : Token) :
    FixStep r (nmeaReaderUpdateSpeed r speed).1 := by
  rw [nmeaReaderUpdateSpeed]
  split
  · exact .refl r
  · exact ⟨_, _, _, _, rfl⟩

/-! ## Sentences -/

section Sentences

variable (zone : Int) (clk : Clock) (t : List Token) (r : NmeaReader D)

theorem parseGga_fixStep : FixStep r (parseGga zone clk t r) :=
  ((updateTime_fixStep ..).trans (updateLatlong_fixStep ..)).trans (updateAltitude_fixStep ..)

theorem parseGll_fixStep : FixStep r (parseGll zone clk t r) := by
  rw [parseGll]
  split
  · exact (updateTime_fixStep ..).trans (updateLatlong_fixStep ..)
  · exact .refl r

theorem parseRmc_fixStep : FixStep r (parseRmc zone clk t r) := by
  rw [parseRmc]
  split
  · exact (((updateDate_fixStep ..).trans (updateLatlong_fixStep ..)).trans
      (updateBearing_fixStep ..)).trans (updateSpeed_fixStep ..)
  · exact .refl r

theorem parseVtg_fixStep : FixStep r (parseVtg t r) := by
  rw [parseVtg]
  split
  · exact (updateBearing_fixStep ..).trans (updateSpeed_fixStep ..)
  · exact .refl r

theorem parseZda_fixStep : FixStep r (parseZda zone clk t r) := by
  have hdate : FixStep r (if (nmeaTokenizerGet t 4).char0 ≠ 0 then
      (nmeaReaderUpdateCdate r (nmeaTokenizerGet t 2) (nmeaTokenizerGet t 3)
        (nmeaTokenizerGet t 4)).1 else r) := by
    split
    · exact updateCdate_fixStep ..
    · exact .refl r
  rw [parseZda]
  split
  · exact hdate.trans (updateTime_fixStep ..)
  · exact hdate

omit [CDouble D] in
theorem gsaField_maskStep (i : Nat) : MaskStep r (gsaField t r i) := by
  rw [gsaField]
  split
  · exact ⟨_, _, _, rfl⟩
  · exact .refl r

omit [CDouble D] in
theorem gsaFields_maskStep (is : List Nat) : MaskStep r (is.foldl (gsaField t) r) := by
  induction is generalizing r with
  | nil => exact .refl r
  | cons i is ih => exact (gsaField_maskStep t r i).trans (ih _)

omit [CDouble D] in
theorem parseGsa_maskStep : MaskStep r (parseGsa t r) := by
  rw [parseGsa]
  split
  · exact MaskStep.trans ⟨_, _, _, rfl⟩ (gsaFields_maskStep t _ _)
  · split
    · exact ⟨_, _, _, rfl⟩
    · exact .refl r

theorem parseGsv_fix : (parseGsv t r).1.fix = r.fix := by
  rw [parseGsv]
  dsimp only
  split_ifs <;> rfl

theorem parseGsv_sameLine : SameLine r (parseGsv t r).1 := by
  rw [parseGsv]
  dsimp only
  split_ifs <;> exact ⟨rfl, rfl, rfl, rfl, rfl⟩

/-- Sentences other than GSA and GSV change the fix. -/
theorem parseSentence_fixStep (hgsa : sentenceId (nmeaTokenizerGet t 0) ≠ ascii ['G', 'S', 'A'])
    (hgsv : sentenceId (nmeaTokenizerGet t 0) ≠ ascii ['G', 'S', 'V']) :
    (parseSentence zone clk t r).2 = [] ∧ FixStep r (parseSentence zone clk t r).1 := by
  rw [parseSentence, if_neg hgsa, if_neg hgsv]
  split_ifs
  · exact ⟨rfl, parseGga_fixStep ..⟩
  · exact ⟨rfl, parseGll_fixStep ..⟩
  · exact ⟨rfl, parseRmc_fixStep ..⟩
  · exact ⟨rfl, parseVtg_fixStep ..⟩
  · exact ⟨rfl, parseZda_fixStep ..⟩
  · exact ⟨rfl, .refl r⟩

/-- A sentence is a GSV sentence, or a GSA sentence, or one that changes the fix. -/
theorem parseSentence_cases :
    parseSentence zone clk t r = parseGsv t r ∧
        sentenceId (nmeaTokenizerGet t 0) = ascii ['G', 'S', 'V'] ∨
      (parseSentence zone clk t r).2 = [] ∧
        sentenceId (nmeaTokenizerGet t 0) ≠ ascii ['G', 'S', 'V'] ∧
        (FixStep r (parseSentence zone clk t r).1 ∨ MaskStep r (parseSentence zone clk t r).1) := by
  by_cases hgsv : sentenceId (nmeaTokenizerGet t 0) = ascii ['G', 'S', 'V']
  · exact .inl ⟨by rw [parseSentence, hgsv]; rfl, hgsv⟩
  · apply Or.inr
    by_cases hgsa : sentenceId (nmeaTokenizerGet t 0) = ascii ['G', 'S', 'A']
    · have hparse : parseSentence zone clk t r = (parseGsa t r, []) := by
        rw [parseSentence, hgsa]
        rfl
      rw [hparse]
      exact ⟨rfl, hgsv, .inr (parseGsa_maskStep t r)⟩
    · obtain ⟨hout, hstep⟩ := parseSentence_fixStep zone clk t r hgsa hgsv
      exact ⟨hout, hgsv, .inl hstep⟩

theorem gsvLoop_writes (n : Int) (left i curr : Nat) (sv : GpsSvStatus D) :
    ∀ o ∈ (gsvLoop t n left i curr sv).2, ∃ j, o = .svWrite j := by
  induction left generalizing i curr sv with
  | zero => intro o ho; cases ho
  | succ left ih =>
    intro o ho
    rw [gsvLoop] at ho
    split at ho
    · rcases List.mem_cons.mp ho with rfl | ho
      · exact ⟨_, rfl⟩
      · exact ih _ _ _ o ho
    · cases ho

theorem parseSentence_writes :
    ∀ o ∈ (parseSentence zone clk t r).2, ∃ j, o = .svWrite j := by
  rcases parseSentence_cases zone clk t r with ⟨h, -⟩ | ⟨h, -⟩
  · intro o ho
    rw [h, parseGsv] at ho
    dsimp only at ho
    split_ifs at ho
    all_goals first | exact gsvLoop_writes t _ _ _ _ _ o ho | cases ho
  · rw [h]
    intro o ho
    cases ho

theorem parseSentence_sameLine : SameLine r (parseSentence zone clk t r).1 := by
  rcases parseSentence_cases zone clk t r with ⟨h, -⟩ | ⟨-, -, h | h⟩
  · rw [h]; exact parseGsv_sameLine t r
  · exact h.sameLine
  · exact h.sameLine

end Sentences

/-! ## Delivery -/

omit [CDouble D] in
theorem reportSvStatus_sameLine (cbs : GpsCallbacks) (r : NmeaReader D) :
    SameLine r (reportSvStatus cbs r).1 := by
  rw [reportSvStatus]
  split <;> exact ⟨rfl, rfl, rfl, rfl, rfl⟩

omit [CDouble D] in
theorem reportLocation_sameLine (r : NmeaReader D) : SameLine r (reportLocation r).1 := by
  rw [reportLocation]
  split <;> exact ⟨rfl, rfl, rfl, rfl, rfl⟩

theorem parse_sameLine (zone : Int) (cbs : GpsCallbacks) (clk : Clock) (r : NmeaReader D) :
    SameLine r (nmeaReaderParse zone cbs clk r).1 := by
  rw [nmeaReaderParse]
  split
  · exact ⟨rfl, rfl, rfl, rfl, rfl⟩
  · dsimp only
    split
    · exact ⟨rfl, rfl, rfl, rfl, rfl⟩
    · have haccuracy (r : NmeaReader D) : SameLine r (nmeaReaderUpdateAccuracy r).1 :=
        ⟨rfl, rfl, rfl, rfl, rfl⟩
      exact (((parseSentence_sameLine ..).trans (haccuracy _)).trans
        (reportSvStatus_sameLine ..)).trans (reportLocation_sameLine ..)

/-! ## One byte -/

/-- Outputs about lines, emitted whatever the sentence is. -/
def Output.isLine : Output D → Bool
  | .inWrite _ | .parse .. | .nmea .. => true
  | _ => false

/-- The tokens that a call of `nmea_reader_parse` acts upon. -/
def Output.tokens : Output D → Option (List Token)
  | .parse mem pos =>
    let t := nmeaTokenizerInit mem 0 pos
    let tok := nmeaTokenizerGet t 0
    if 9 ≤ pos ∧ tok.p + 5 ≤ tok.stop then some t else none
  | _ => none

/-- The tokens that `nmea_reader_parse` acts upon when `c` arrives. -/
def sentenceOf (r : NmeaReader D) (c : UInt8) : Option (List Token) :=
  if r.overflow = false ∧ r.pos < 83 ∧ c = 0x0A then
    (Output.parse (r.store c).inBuf.toList (r.store c).pos : Output D).tokens
  else none

/-- `nmea_reader_parse` from the choice of the branch on. -/
def handle (zone : Int) (cbs : GpsCallbacks) (clk : Clock) (t : List Token) (r : NmeaReader D) :
    NmeaReader D × List (Output D) :=
  let (r, writes) := parseSentence zone clk t r
  let r := (nmeaReaderUpdateAccuracy r).1
  let (r, status) := reportSvStatus cbs r
  let (r, location) := reportLocation r
  (r, writes ++ status ++ location)

theorem handle_fst (zone : Int) (cbs : GpsCallbacks) (clk : Clock) (t : List Token)
    (r : NmeaReader D) : (handle zone cbs clk t r).1 = (reportLocation
      (reportSvStatus cbs (nmeaReaderUpdateAccuracy (parseSentence zone clk t r).1).1).1).1 := by
  rw [handle]

/-- The call of `nmea_reader_parse` hands what it acts upon to `handle`. -/
theorem parse_eq (zone : Int) (cbs : GpsCallbacks) (clk : Clock) (r : NmeaReader D) :
    ∃ out, (∀ o ∈ out, o.isLine ∧ o.tokens = none) ∧ nmeaReaderParse zone cbs clk r =
      match (Output.parse r.inBuf.toList r.pos : Output D).tokens with
      | none => (r, out)
      | some t => ((handle zone cbs clk t r).1, out ++ (handle zone cbs clk t r).2) := by
  rw [nmeaReaderParse, Output.tokens]
  dsimp only
  generalize nmeaTokenizerInit r.inBuf.toList 0 r.pos = t
  by_cases hpos : r.pos < 9
  · have hcond : ¬(9 ≤ r.pos ∧ (nmeaTokenizerGet t 0).p + 5 ≤ (nmeaTokenizerGet t 0).stop) := by
      omega
    refine ⟨[], fun o ho => (List.not_mem_nil ho).elim, ?_⟩
    rw [if_pos hpos, if_neg hcond]
  · generalize hnmea : (if cbs.nmeaCb then [Output.nmea (clk.tvSec * 1000 + clk.tvUsec / 1000)
      (r.inBuf.toList.take r.pos)] else [] : List (Output D)) = nmea
    refine ⟨nmea, ?_, ?_⟩
    · subst hnmea
      split <;> simp [Output.isLine, Output.tokens]
    · rw [if_neg hpos]
      by_cases htok : (nmeaTokenizerGet t 0).p + 5 ≤ (nmeaTokenizerGet t 0).stop
      · rw [if_neg (Nat.not_lt.mpr htok), if_pos ⟨Nat.not_lt.mp hpos, htok⟩]
        simp only [handle, List.append_assoc]
      · rw [if_pos (Nat.lt_of_not_le htok), if_neg fun h => htok h.2]

/-- A byte that completes no sentence changes the line buffer and nothing else. -/
theorem addc_of_none (zone : Int) (cbs : GpsCallbacks) (clk : Clock) {r : NmeaReader D} {c : UInt8}
    (h : sentenceOf r c = none) :
    ∃ pos overflow inBuf out, (∀ o ∈ out, o.isLine ∧ o.tokens = none) ∧
      nmeaReaderAddc zone cbs clk r c =
        ({ r with pos := pos, overflow := overflow, inBuf := inBuf }, out) := by
  rw [nmeaReaderAddc]
  split_ifs with hover hfull hc
  · exact ⟨_, _, _, [], by simp, rfl⟩
  · exact ⟨_, _, _, [], by simp, rfl⟩
  · rw [sentenceOf, if_pos ⟨by simpa using hover, by omega, hc⟩] at h
    obtain ⟨out, hout, heq⟩ := parse_eq zone cbs clk (r.store c)
    rw [h] at heq
    refine ⟨0, r.overflow, (r.store c).inBuf, .inWrite r.pos ::
      .parse (r.store c).inBuf.toList (r.store c).pos :: out, ?_, ?_⟩
    · simp only [List.forall_mem_cons]
      exact ⟨⟨rfl, rfl⟩, ⟨rfl, h⟩, hout⟩
    · simp only [heq]
      rfl
  · exact ⟨_, _, _, [.inWrite r.pos], by simp [Output.isLine, Output.tokens], rfl⟩

theorem addc_of_some (zone : Int) (cbs : GpsCallbacks) (clk : Clock) {r : NmeaReader D} {c : UInt8}
    {t : List Token} (h : sentenceOf r c = some t) :
    ∃ out, (∀ o ∈ out, o.isLine) ∧ out.filterMap Output.tokens = [t] ∧
      nmeaReaderAddc zone cbs clk r c =
        ({ (handle zone cbs clk t (r.store c)).1 with pos := 0 },
          out ++ (handle zone cbs clk t (r.store c)).2) := by
  rw [sentenceOf] at h
  split at h
  case isFalse => cases h
  case isTrue hif =>
  obtain ⟨hover, hpos, hc⟩ := hif
  obtain ⟨out, hout, heq⟩ := parse_eq zone cbs clk (r.store c)
  rw [h] at heq
  refine ⟨.inWrite r.pos :: .parse (r.store c).inBuf.toList (r.store c).pos :: out, ?_, ?_, ?_⟩
  · simp only [List.forall_mem_cons]
    exact ⟨rfl, rfl, fun o ho => (hout o ho).1⟩
  · rw [List.filterMap_cons_none rfl, List.filterMap_cons_some h,
      List.filterMap_eq_nil_iff.mpr fun o ho => (hout o ho).2]
  · rw [nmeaReaderAddc, if_neg (by simp [hover]), if_neg (by omega)]
    simp only [if_pos hc, heq, List.cons_append]

/-! ## The satellite status handed over -/

/-- The argument of a call of `sv_status_cb`. -/
def Output.status : Output D → Option (GpsSvStatus D)
  | .svStatus sv => some sv
  | _ => none

omit [CDouble D] in
theorem Output.status_of_isLine {o : Output D} (h : o.isLine) : o.status = none := by
  cases o with
  | svStatus sv => cases h
  | _ => rfl

/-- The status callback, when it is installed, gets the status that the sentence has left to be
handed over. -/
theorem handle_status (zone : Int) {cbs : GpsCallbacks} (hcb : cbs.svStatusCb = true) (clk : Clock)
    (t : List Token) (r : NmeaReader D) :
    (handle zone cbs clk t r).1.svStatusChanged = false ∧
      (handle zone cbs clk t r).2.filterMap Output.status =
        if (parseSentence zone clk t r).1.svStatusChanged then
          [(parseSentence zone clk t r).1.svStatus] else [] := by
  have hwrites : (parseSentence zone clk t r).2.filterMap Output.status = [] := by
    apply List.filterMap_eq_nil_iff.mpr
    intro o ho
    obtain ⟨j, rfl⟩ := parseSentence_writes zone clk t r o ho
    rfl
  rw [handle]
  dsimp only
  rw [List.filterMap_append, List.filterMap_append, hwrites]
  generalize parseSentence zone clk t r = p
  have hlocation (r : NmeaReader D) : (reportLocation r).1.svStatusChanged = r.svStatusChanged ∧
      (reportLocation r).2.filterMap Output.status = [] := by
    rw [reportLocation]
    split <;> exact ⟨rfl, rfl⟩
  rw [(hlocation _).1, (hlocation _).2, reportSvStatus]
  by_cases hchanged : p.1.svStatusChanged = true
  · rw [if_pos hchanged, if_pos ⟨hchanged, hcb⟩]
    exact ⟨rfl, rfl⟩
  · rw [if_neg hchanged, if_neg fun h => hchanged h.1]
    exact ⟨eq_false_of_ne_true hchanged, rfl⟩

end HeadUnit.Gps
