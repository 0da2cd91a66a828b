import HeadUnit.Gps.Locality

/-!
# Position and satellites do not interfere

GSA and GSV sentences change the satellite status, all others the position, and what a sentence does
to its half of the state depends on that half alone. So a reader that never gets the sentences of
one kind ends with the same data of the other (`reader_separates`).
-/

namespace HeadUnit.Gps

variable {D : Type}

/-! ## The two halves -/

/-- The date, the UTC difference and the fix agree but for its flags and accuracy. -/
def SamePosition (r r' : NmeaReader D) : Prop :=
  ∃ flags accuracy pos overflow svStatus changed callback inBuf gsaFixed, r' = { r with
    pos := pos
    overflow := overflow
    fix := { r.fix with flags := flags, accuracy := accuracy }
    svStatus := svStatus
    svStatusChanged := changed
    callback := callback
    inBuf := inBuf
    gsaFixed := gsaFixed }

/-- The satellite status and its flags agree. -/
def SameStatus (r r' : NmeaReader D) : Prop :=
  ∃ pos overflow year mon day diff fix callback inBuf, r' = { r with
    pos := pos
    overflow := overflow
    utcYear := year
    utcMon := mon
    utcDay := day
    utcDiff := diff
    fix := fix
    callback := callback
    inBuf := inBuf }

theorem SamePosition.refl (r : NmeaReader D) : SamePosition r r := ⟨_, _, _, _, _, _, _, _, _, rfl⟩

theorem SamePosition.symm {r r' : NmeaReader D} (h : SamePosition r r') : SamePosition r' r := by
  obtain ⟨_, _, _, _, _, _, _, _, _, rfl⟩ := h
  exact ⟨_, _, _, _, _, _, _, _, _, rfl⟩

theorem SamePosition.trans {r₁ r₂ r₃ : NmeaReader D} (h₁ : SamePosition r₁ r₂)
    (h₂ : SamePosition r₂ r₃) : SamePosition r₁ r₃ := by
  obtain ⟨_, _, _, _, _, _, _, _, _, rfl⟩ := h₁
  obtain ⟨_, _, _, _, _, _, _, _, _, rfl⟩ := h₂
  exact ⟨_, _, _, _, _, _, _, _, _, rfl⟩

theorem SameStatus.refl (r : NmeaReader D) : SameStatus r r := ⟨_, _, _, _, _, _, _, _, _, rfl⟩

theorem SameStatus.symm {r r' : NmeaReader D} (h : SameStatus r r') : SameStatus r' r := by
  obtain ⟨_, _, _, _, _, _, _, _, _, rfl⟩ := h
  exact ⟨_, _, _, _, _, _, _, _, _, rfl⟩

theorem SameStatus.trans {r₁ r₂ r₃ : NmeaReader D} (h₁ : SameStatus r₁ r₂)
    (h₂ : SameStatus r₂ r₃) : SameStatus r₁ r₃ := by
  obtain ⟨_, _, _, _, _, _, _, _, _, rfl⟩ := h₁
  obtain ⟨_, _, _, _, _, _, _, _, _, rfl⟩ := h₂
  exact ⟨_, _, _, _, _, _, _, _, _, rfl⟩

theorem BufferStep.samePosition {r r' : NmeaReader D} (h : BufferStep r r') :
    SamePosition r r' := by
  obtain ⟨_, _, rfl⟩ := h
  exact ⟨_, _, _, _, _, _, _, _, _, rfl⟩

theorem BufferStep.sameStatus {r r' : NmeaReader D} (h : BufferStep r r') : SameStatus r r' := by
  obtain ⟨_, _, rfl⟩ := h
  exact ⟨_, _, _, _, _, _, _, _, _, rfl⟩

theorem MaskStep.samePosition {r r' : NmeaReader D} (h : MaskStep r r') : SamePosition r r' := by
  obtain ⟨_, _, _, rfl⟩ := h
  exact ⟨_, _, _, _, _, _, _, _, _, rfl⟩

theorem FixStep.sameStatus {r r' : NmeaReader D} (h : FixStep r r') : SameStatus r r' := by
  obtain ⟨_, _, _, _, rfl⟩ := h
  exact ⟨_, _, _, _, _, _, _, _, _, rfl⟩

/-! ## Position sentences -/

namespace SamePosition

variable [CDouble D] {zone : Int} {clk clk' : Clock} {r r' : NmeaReader D} (h : SamePosition r r')
include h

theorem updateTime (hclk : clk.now = clk'.now) (tok : Token) :
    SamePosition (nmeaReaderUpdateTime zone clk r tok).1
      (nmeaReaderUpdateTime zone clk' r' tok).1 := by
  obtain ⟨_, _, _, _, _, _, _, _, _, rfl⟩ := h
  unfold nmeaReaderUpdateTime
  rw [hclk]
  dsimp only
  split_ifs <;> exact ⟨_, _, _, _, _, _, _, _, _, rfl⟩

omit [CDouble D] in
theorem updateCdate (tokD tokM tokY : Token) :
    SamePosition (nmeaReaderUpdateCdate r tokD tokM tokY).1
      (nmeaReaderUpdateCdate r' tokD tokM tokY).1 := by
  obtain ⟨_, _, _, _, _, _, _, _, _, rfl⟩ := h
  unfold nmeaReaderUpdateCdate
  split_ifs <;> exact ⟨_, _, _, _, _, _, _, _, _, rfl⟩

theorem updateDate (hclk : clk.now = clk'.now) (date time : Token) :
    SamePosition (nmeaReaderUpdateDate zone clk r date time).1
      (nmeaReaderUpdateDate zone clk' r' date time).1 := by
  unfold nmeaReaderUpdateDate
  dsimp only
  split_ifs
  · exact h
  · exact h
  · refine updateTime ?_ hclk time
    obtain ⟨_, _, _, _, _, _, _, _, _, rfl⟩ := h
    exact ⟨_, _, _, _, _, _, _, _, _, rfl⟩

theorem updateLatlong (lat : Token) (latHemi : UInt8) (lon : Token) (lonHemi : UInt8) :
    SamePosition (nmeaReaderUpdateLatlong r lat latHemi lon lonHemi).1
      (nmeaReaderUpdateLatlong r' lat latHemi lon lonHemi).1 := by
  obtain ⟨_, _, _, _, _, _, _, _, _, rfl⟩ := h
  unfold nmeaReaderUpdateLatlong
  dsimp only
  split_ifs <;> exact ⟨_, _, _, _, _, _, _, _, _, rfl⟩

theorem updateAltitude (altitude units : Token) :
    SamePosition (nmeaReaderUpdateAltitude r altitude units).1
      (nmeaReaderUpdateAltitude r' altitude units).1 := by
  obtain ⟨_, _, _, _, _, _, _, _, _, rfl⟩ := h
  unfold nmeaReaderUpdateAltitude
  split_ifs <;> exact ⟨_, _, _, _, _, _, _, _, _, rfl⟩

theorem updateBearing (bearing : Token) :
    SamePosition (nmeaReaderUpdateBearing r bearing).1 (nmeaReaderUpdateBearing r' bearing).1 := by
  obtain ⟨_, _, _, _, _, _, _, _, _, rfl⟩ := h
  unfold nmeaReaderUpdateBearing
  split_ifs <;> exact ⟨_, _, _, _, _, _, _, _, _, rfl⟩

theorem updateSpeed (speed : Token) :
    SamePosition (nmeaReaderUpdateSpeed r speed).1 (nmeaReaderUpdateSpeed r' speed).1 := by
  obtain ⟨_, _, _, _, _, _, _, _, _, rfl⟩ := h
  unfold nmeaReaderUpdateSpeed
  dsimp only
  split_ifs <;> exact ⟨_, _, _, _, _, _, _, _, _, rfl⟩

/-- A sentence other than GSA and GSV computes the position from the position. -/
theorem parseSentence (hclk : clk.now = clk'.now) {t : List Token}
    (hgsa : sentenceId (nmeaTokenizerGet t 0) ≠ ascii ['G', 'S', 'A'])
    (hgsv : sentenceId (nmeaTokenizerGet t 0) ≠ ascii ['G', 'S', 'V']) :
    SamePosition (parseSentence zone clk t r).1 (parseSentence zone clk' t r').1 := by
  unfold Gps.parseSentence
  dsimp only
  rw [if_neg hgsa, if_neg hgsv, if_neg hgsa, if_neg hgsv]
  split_ifs
  · exact ((h.updateTime hclk _).updateLatlong _ _ _ _).updateAltitude _ _
  · unfold parseGll
    split_ifs
    · exact (h.updateTime hclk _).updateLatlong _ _ _ _
    · exact h
  · unfold parseRmc
    split_ifs
    · exact (((h.updateDate hclk _ _).updateLatlong _ _ _ _).updateBearing _).updateSpeed _
    · exact h
  · unfold parseVtg
    dsimp only
    split_ifs
    · exact (h.updateBearing _).updateSpeed _
    · exact h
  · unfold parseZda
    dsimp only
    split_ifs
    · exact (h.updateCdate _ _ _).updateTime hclk _
    · exact h.updateTime hclk _
    · exact h.updateCdate _ _ _
    · exact h
  · exact h

end SamePosition

/-- GSA and GSV sentences leave the position alone. -/
theorem parseSentence_samePosition [CDouble D] (zone : Int) (clk : Clock) {t : List Token}
    (r : NmeaReader D) (hid : sentenceId (nmeaTokenizerGet t 0) = ascii ['G', 'S', 'A'] ∨
      sentenceId (nmeaTokenizerGet t 0) = ascii ['G', 'S', 'V']) :
    SamePosition r (parseSentence zone clk t r).1 := by
  unfold parseSentence
  rcases hid with hid | hid
  · rw [hid]
    exact (parseGsa_maskStep t r).samePosition
  · rw [hid]
    show SamePosition r (parseGsv t r).1
    unfold parseGsv
    dsimp only
    split_ifs <;> exact ⟨_, _, _, _, _, _, _, _, _, rfl⟩

/-! ## Satellite sentences -/

namespace SameStatus

variable [CDouble D] {r r' : NmeaReader D} (h : SameStatus r r')
include h

omit [CDouble D] in
theorem gsaField (t : List Token) (i : Nat) : SameStatus (gsaField t r i) (gsaField t r' i) := by
  obtain ⟨_, _, _, _, _, _, _, _, _, rfl⟩ := h
  unfold Gps.gsaField
  dsimp only
  split_ifs <;> exact ⟨_, _, _, _, _, _, _, _, _, rfl⟩

omit [CDouble D] in
theorem gsaFields (t : List Token) (is : List Nat) :
    SameStatus (is.foldl (Gps.gsaField t) r) (is.foldl (Gps.gsaField t) r') := by
  induction is generalizing r r' with
  | nil => exact h
  | cons i is ih => exact ih (h.gsaField t i)

omit [CDouble D] in
theorem parseGsa (t : List Token) : SameStatus (parseGsa t r) (parseGsa t r') := by
  unfold Gps.parseGsa
  dsimp only
  obtain ⟨_, _, _, _, _, _, _, _, _, rfl⟩ := h
  split_ifs
  · exact gsaFields ⟨_, _, _, _, _, _, _, _, _, rfl⟩ t _
  · exact ⟨_, _, _, _, _, _, _, _, _, rfl⟩
  · exact ⟨_, _, _, _, _, _, _, _, _, rfl⟩

theorem parseGsv (t : List Token) : SameStatus (parseGsv t r).1 (parseGsv t r').1 := by
  obtain ⟨_, _, _, _, _, _, _, _, _, rfl⟩ := h
  unfold Gps.parseGsv
  dsimp only
  split_ifs <;> exact ⟨_, _, _, _, _, _, _, _, _, rfl⟩

/-- GSA and GSV sentences compute the satellite status from the satellite status. -/
theorem parseSentence (zone : Int) (clk clk' : Clock) {t : List Token}
    (hid : sentenceId (nmeaTokenizerGet t 0) = ascii ['G', 'S', 'A'] ∨
      sentenceId (nmeaTokenizerGet t 0) = ascii ['G', 'S', 'V']) :
    SameStatus (parseSentence zone clk t r).1 (parseSentence zone clk' t r').1 := by
  unfold Gps.parseSentence
  rcases hid with hid | hid
  · rw [hid]
    exact h.parseGsa t
  · rw [hid]
    exact h.parseGsv t

end SameStatus

/-! ## Lines -/

section Lines

variable [CDouble D] (zone : Int) (cbs : GpsCallbacks)

theorem handle_samePosition (clk : Clock) (t : List Token) (r : NmeaReader D) :
    SamePosition (parseSentence zone clk t r).1 (handle zone cbs clk t r).1 := by
  have hstatus (r : NmeaReader D) : SamePosition r (reportSvStatus cbs r).1 := by
    unfold reportSvStatus
    split_ifs <;> exact ⟨_, _, _, _, _, _, _, _, _, rfl⟩
  have hlocation (r : NmeaReader D) : SamePosition r (reportLocation r).1 := by
    unfold reportLocation
    split_ifs <;> exact ⟨_, _, _, _, _, _, _, _, _, rfl⟩
  have haccuracy (r : NmeaReader D) : SamePosition r (nmeaReaderUpdateAccuracy r).1 :=
    ⟨_, _, _, _, _, _, _, _, _, rfl⟩
  rw [handle_fst]
  exact ((haccuracy _).trans (hstatus _)).trans (hlocation _)

/-- The end of `nmea_reader_parse` lowers the flag of the satellite status and keeps the rest. -/
theorem handle_sameStatus (clk : Clock) (t : List Token) (r : NmeaReader D) :
    SameStatus { (parseSentence zone clk t r).1 with
      svStatusChanged := (handle zone cbs clk t r).1.svStatusChanged }
      (handle zone cbs clk t r).1 := by
  have haccuracy (r : NmeaReader D) (b : Bool) : SameStatus { r with svStatusChanged := b }
      { (nmeaReaderUpdateAccuracy r).1 with svStatusChanged := b } :=
    ⟨_, _, _, _, _, _, _, _, _, rfl⟩
  have hstatus (r : NmeaReader D) : SameStatus
      { r with svStatusChanged := (reportSvStatus cbs r).1.svStatusChanged }
      (reportSvStatus cbs r).1 := by
    unfold reportSvStatus
    split_ifs <;> exact ⟨_, _, _, _, _, _, _, _, _, rfl⟩
  have hlocation (r : NmeaReader D) : SameStatus r (reportLocation r).1 ∧
      (reportLocation r).1.svStatusChanged = r.svStatusChanged := by
    unfold reportLocation
    split_ifs <;> exact ⟨⟨_, _, _, _, _, _, _, _, _, rfl⟩, rfl⟩
  rw [handle_fst, (hlocation _).2]
  exact ((haccuracy _ _).trans (hstatus _)).trans (hlocation _).1

/-- The reader is between two lines, with nothing left to hand over. -/
structure Idle (r : NmeaReader D) : Prop where
  pos : r.pos = 0
  overflow : r.overflow = false
  unchanged : r.svStatusChanged = false

/-- A line of at most 83 bytes, read while `time` returns `now`. -/
structure ShortLine (now : Int) (is : List (Clock × UInt8)) : Prop where
  text : ∃ w, is.map Prod.snd = w ++ [0x0A] ∧ 0x0A ∉ w ∧ w.length < 83
  clock : ∀ i ∈ is, i.1.now = now

/-- Lines that reach the GSA or the GSV branch are those whose first field has this behind the two
letters of the talker. -/
def IsSatellite (text : List UInt8) : Prop :=
  slice ((fields text).getD 0 []) 2 5 = ascii ['G', 'S', 'A'] ∨
    slice ((fields text).getD 0 []) 2 5 = ascii ['G', 'S', 'V']

instance (text : List UInt8) : Decidable (IsSatellite text) :=
  inferInstanceAs (Decidable (_ ∨ _))

theorem sentenceTokens_id {text : List UInt8} {t : List Token} (h : sentenceTokens text = some t) :
    sentenceId (nmeaTokenizerGet t 0) = slice ((fields text).getD 0 []) 2 5 := by
  rw [sentenceTokens] at h
  split at h
  case isFalse => cases h
  case isTrue hid =>
    cases h
    obtain ⟨hspells, -⟩ := get_spells (Nat.le_refl text.length) (by decide : 0 < maxNmeaTokens)
    rw [List.take_length] at hspells
    refine hspells.sentenceId_eq ?_
    have hstop := hspells.stop_eq
    have hlen := hid.2
    simp only [Nat.cast_zero] at hstop
    omega

variable {cbs} (hcb : cbs.svStatusCb = true) {now : Int} {r : NmeaReader D}
  {is : List (Clock × UInt8)}
include hcb

/-- What a short line does to an idle reader. -/
theorem Idle.line (h : Idle r) (his : ShortLine now is) :
    Idle ((reader zone cbs).final r is) ∧ ∃ r', BufferStep r r' ∧
      match sentenceTokens (is.map Prod.snd) with
      | none => BufferStep r' ((reader zone cbs).final r is) ∧
        ((reader zone cbs).out r is).filterMap Output.status = []
      | some t => ∃ clk : Clock, clk.now = now ∧
        BufferStep (handle zone cbs clk t r').1 ((reader zone cbs).final r is) ∧
        ((reader zone cbs).out r is).filterMap Output.status =
          (handle zone cbs clk t r').2.filterMap Output.status := by
  obtain ⟨w, htext, hnl, hlen⟩ := his.text
  obtain ⟨i, hi, r', out, hbuffer, hholds, hout, hfinal, hrun⟩ :=
    reader_line zone cbs h.pos h.overflow htext hnl hlen
  obtain ⟨out', hout', hparse⟩ := parse_text zone cbs i.1 hholds
  have hoverflow := (parse_sameLine zone cbs i.1 r').overflow.trans
    (hbuffer.overflow.trans h.overflow)
  have hquiet {os : List (Output D)} (hos : ∀ o ∈ os, o.isLine) :
      os.filterMap Output.status = [] :=
    List.filterMap_eq_nil_iff.mpr fun o ho => Output.status_of_isLine (hos o ho)
  have hunchanged : r'.svStatusChanged = false := by
    obtain ⟨_, _, rfl⟩ := hbuffer
    exact h.unchanged
  rw [htext, hfinal, hrun, List.filterMap_append, hquiet hout]
  rw [hparse] at hoverflow ⊢
  rcases htokens : sentenceTokens (w ++ [0x0A]) with _ | t
  · rw [htokens] at hoverflow
    exact ⟨⟨rfl, hoverflow, hunchanged⟩, r', hbuffer, ⟨_, _, rfl⟩, hquiet hout'⟩
  · rw [htokens] at hoverflow
    refine ⟨⟨rfl, hoverflow, (handle_status zone hcb i.1 t r').1⟩, r', hbuffer, i.1, his.clock i hi,
      ⟨_, _, rfl⟩, ?_⟩
    rw [List.filterMap_append, hquiet hout']
    rfl

end Lines

/-! ## Deletion -/

section Deletion

variable [CDouble D] (zone : Int) {cbs : GpsCallbacks} (hcb : cbs.svStatusCb = true) {now : Int}
  {r r' : NmeaReader D} {is : List (Clock × UInt8)}
include hcb

/-- Other lines compute the position from the position. -/
theorem SamePosition.line (hr : Idle r) (hr' : Idle r') (h : SamePosition r r')
    (his : ShortLine now is) (hsat : ¬IsSatellite (is.map Prod.snd)) :
    SamePosition ((reader zone cbs).final r is) ((reader zone cbs).final r' is) := by
  obtain ⟨-, r₁, hbuffer, hline⟩ := hr.line zone hcb his
  obtain ⟨-, r₁', hbuffer', hline'⟩ := hr'.line zone hcb his
  have h₁ : SamePosition r₁ r₁' := hbuffer.samePosition.symm.trans (h.trans hbuffer'.samePosition)
  rcases htokens : sentenceTokens (is.map Prod.snd) with _ | t
  · rw [htokens] at hline hline'
    exact hline.1.samePosition.symm.trans (h₁.trans hline'.1.samePosition)
  · rw [htokens] at hline hline'
    obtain ⟨clk, hclk, hfinal, -⟩ := hline
    obtain ⟨clk', hclk', hfinal', -⟩ := hline'
    rw [IsSatellite, ← sentenceTokens_id htokens, not_or] at hsat
    have hparse : SamePosition (Gps.parseSentence zone clk t r₁).1
        (Gps.parseSentence zone clk' t r₁').1 :=
      h₁.parseSentence (hclk.trans hclk'.symm) hsat.1 hsat.2
    have hhandle := ((handle_samePosition zone cbs clk t r₁).symm.trans hparse).trans
      (handle_samePosition zone cbs clk' t r₁')
    exact hfinal.samePosition.symm.trans (hhandle.trans hfinal'.samePosition)

/-- GSA and GSV lines leave the position alone. -/
theorem Idle.satellite_samePosition (hr : Idle r) (his : ShortLine now is)
    (hsat : IsSatellite (is.map Prod.snd)) :
    SamePosition r ((reader zone cbs).final r is) := by
  obtain ⟨-, r₁, hbuffer, hline⟩ := hr.line zone hcb his
  rcases htokens : sentenceTokens (is.map Prod.snd) with _ | t
  · rw [htokens] at hline
    exact hbuffer.samePosition.trans hline.1.samePosition
  · rw [htokens] at hline
    obtain ⟨clk, -, hfinal, -⟩ := hline
    rw [IsSatellite, ← sentenceTokens_id htokens] at hsat
    have hparse := parseSentence_samePosition zone clk r₁ hsat
    exact (hbuffer.samePosition.trans hparse).trans
      ((handle_samePosition zone cbs clk t r₁).trans hfinal.samePosition)

/-- GSA and GSV lines compute the satellite status, and what is handed over of it, from the
satellite status. -/
theorem SameStatus.line (hr : Idle r) (hr' : Idle r') (h : SameStatus r r')
    (his : ShortLine now is) (hsat : IsSatellite (is.map Prod.snd)) :
    SameStatus ((reader zone cbs).final r is) ((reader zone cbs).final r' is) ∧
      ((reader zone cbs).out r is).filterMap Output.status =
        ((reader zone cbs).out r' is).filterMap Output.status := by
  obtain ⟨-, r₁, hbuffer, hline⟩ := hr.line zone hcb his
  obtain ⟨-, r₁', hbuffer', hline'⟩ := hr'.line zone hcb his
  have h₁ : SameStatus r₁ r₁' := hbuffer.sameStatus.symm.trans (h.trans hbuffer'.sameStatus)
  rcases htokens : sentenceTokens (is.map Prod.snd) with _ | t
  · rw [htokens] at hline hline'
    exact ⟨hline.1.sameStatus.symm.trans (h₁.trans hline'.1.sameStatus),
      hline.2.trans hline'.2.symm⟩
  · rw [htokens] at hline hline'
    obtain ⟨clk, -, hfinal, hout⟩ := hline
    obtain ⟨clk', -, hfinal', hout'⟩ := hline'
    rw [IsSatellite, ← sentenceTokens_id htokens] at hsat
    have hparse := h₁.parseSentence zone clk clk' hsat
    have hhandle := handle_sameStatus zone cbs clk t r₁
    have hhandle' := handle_sameStatus zone cbs clk' t r₁'
    obtain ⟨hdone, hstatus⟩ := handle_status zone hcb clk t r₁
    obtain ⟨hdone', hstatus'⟩ := handle_status zone hcb clk' t r₁'
    rw [hdone] at hhandle
    rw [hdone'] at hhandle'
    rw [hout, hout', hstatus, hstatus']
    generalize (Gps.parseSentence zone clk t r₁).1 = p at *
    generalize (Gps.parseSentence zone clk' t r₁').1 = p' at *
    obtain ⟨_, _, _, _, _, _, _, _, _, rfl⟩ := hparse
    refine ⟨(hhandle.trans hfinal.sameStatus).symm.trans (SameStatus.trans ?_
      (hhandle'.trans hfinal'.sameStatus)), rfl⟩
    exact ⟨_, _, _, _, _, _, _, _, _, rfl⟩

/-- Other lines leave the satellite status alone and hand nothing over. -/
theorem Idle.position_sameStatus (hr : Idle r) (his : ShortLine now is)
    (hsat : ¬IsSatellite (is.map Prod.snd)) :
    SameStatus r ((reader zone cbs).final r is) ∧
      ((reader zone cbs).out r is).filterMap Output.status = [] := by
  obtain ⟨-, r₁, hbuffer, hline⟩ := hr.line zone hcb his
  rcases htokens : sentenceTokens (is.map Prod.snd) with _ | t
  · rw [htokens] at hline
    exact ⟨hbuffer.sameStatus.trans hline.1.sameStatus, hline.2⟩
  · rw [htokens] at hline
    obtain ⟨clk, -, hfinal, hout⟩ := hline
    rw [IsSatellite, ← sentenceTokens_id htokens, not_or] at hsat
    obtain ⟨-, hstep⟩ := parseSentence_fixStep zone clk t r₁ hsat.1 hsat.2
    have hhandle := handle_sameStatus zone cbs clk t r₁
    obtain ⟨hdone, hstatus⟩ := handle_status zone hcb clk t r₁
    have hunchanged : (parseSentence zone clk t r₁).1.svStatusChanged = false := by
      obtain ⟨_, _, _, _, hp⟩ := hstep
      obtain ⟨_, _, rfl⟩ := hbuffer
      rw [hp]
      exact hr.unchanged
    have hkept : SameStatus (parseSentence zone clk t r₁).1 (handle zone cbs clk t r₁).1 := by
      rw [hdone, ← hunchanged] at hhandle
      exact hhandle
    rw [hunchanged] at hstatus
    exact ⟨(hbuffer.sameStatus.trans hstep.sameStatus).trans (hkept.trans hfinal.sameStatus),
      hout.trans hstatus⟩

/-- A reader that does not get the GSA and GSV lines ends with the same position, and one that gets
no others ends with the same satellite status and has handed over the same. -/
theorem reader_separates (hr : Idle r) {lines : List (List (Clock × UInt8))}
    (hlines : ∀ is ∈ lines, ShortLine now is) :
    SamePosition ((reader zone cbs).final r lines.flatten)
        ((reader zone cbs).final r
          (lines.filter fun is => ¬IsSatellite (is.map Prod.snd)).flatten) ∧
      SameStatus ((reader zone cbs).final r lines.flatten)
        ((reader zone cbs).final r
          (lines.filter fun is => IsSatellite (is.map Prod.snd)).flatten) ∧
      ((reader zone cbs).out r lines.flatten).filterMap Output.status =
        ((reader zone cbs).out r
          (lines.filter fun is => IsSatellite (is.map Prod.snd)).flatten).filterMap
            Output.status := by
  have hposition := (reader (D := D) zone cbs).onWords.final_filter
    (R := fun r r' => (Idle r ∧ Idle r') ∧ SamePosition r r') (P := ShortLine now)
    (p := fun is => ¬IsSatellite (is.map Prod.snd)) (f := fun _ => (none : Option Unit))
    (fun s t is h his hp => ⟨⟨⟨(h.1.1.line zone hcb his).1, (h.1.2.line zone hcb his).1⟩,
      h.2.line zone hcb h.1.1 h.1.2 his (by simpa using hp)⟩, by simp⟩)
    (fun s t is h his hp => ⟨⟨⟨(h.1.1.line zone hcb his).1, h.1.2⟩,
      (h.1.1.satellite_samePosition zone hcb his (by simpa using hp)).symm.trans h.2⟩, by simp⟩)
    hlines ⟨⟨hr, hr⟩, SamePosition.refl r⟩
  have hstatus := (reader (D := D) zone cbs).onWords.final_filter
    (R := fun r r' => (Idle r ∧ Idle r') ∧ SameStatus r r') (P := ShortLine now)
    (p := fun is => IsSatellite (is.map Prod.snd)) (f := Output.status)
    (fun s t is h his hp =>
      have hline := h.2.line zone hcb h.1.1 h.1.2 his (by simpa using hp)
      ⟨⟨⟨(h.1.1.line zone hcb his).1, (h.1.2.line zone hcb his).1⟩, hline.1⟩, hline.2⟩)
    (fun s t is h his hp =>
      have hline := h.1.1.position_sameStatus zone hcb his (by simpa using hp)
      ⟨⟨⟨(h.1.1.line zone hcb his).1, h.1.2⟩, hline.1.symm.trans h.2⟩, hline.2⟩)
    hlines ⟨⟨hr, hr⟩, SameStatus.refl r⟩
  rw [Transducer.final_onWords, Transducer.final_onWords] at hposition hstatus
  rw [Transducer.out_onWords, Transducer.out_onWords] at hstatus
  exact ⟨hposition.1.2, hstatus.1.2, hstatus.2⟩

end Deletion

/-- A line read at the start of the epoch. -/
def stamped (w : List UInt8) : List (Clock × UInt8) := (w ++ [0x0A]).map fun c => (⟨0, 0, 0⟩, c)

theorem shortLine_stamped {w : List UInt8} (hnl : 0x0A ∉ w) (hlen : w.length < 83) :
    ShortLine 0 (stamped w) := by
  refine ⟨⟨w, ?_, hnl, hlen⟩, fun i hi => ?_⟩
  · rw [stamped, List.map_map]
    exact List.map_id _
  · obtain ⟨c, -, rfl⟩ := List.mem_map.mp hi
    rfl

/-- A GSA and a VTG sentence. -/
def mixedLines : List (List (Clock × UInt8)) :=
  [stamped (ascii ['$', 'G', 'P', 'G', 'S', 'A', ',', 'A', ',', '3', ',', '0', '4']),
    stamped (ascii ['$', 'G', 'P', 'V', 'T', 'G', ',', '5', '4', '.', '7', ',', 'T', ',', ',', 'M',
      ',', '5', '.', '5', ',', 'N', ',', ',', 'K', ',', 'A'])]

/-- Location and status callback are installed. -/
def bothCallbacks : GpsCallbacks := ⟨true, true, false, false⟩

/-- The initialised reader with its callback. -/
def callbackReader : NmeaReader ℚ := (nmeaReaderSetCallback (nmeaReaderInit 0 ⟨0, 0, 0⟩) true).1

theorem reader_separates_mixed :
    SamePosition ((reader 0 bothCallbacks).final callbackReader mixedLines.flatten)
        ((reader 0 bothCallbacks).final callbackReader
          (mixedLines.filter fun is => ¬IsSatellite (is.map Prod.snd)).flatten) ∧
      SameStatus ((reader 0 bothCallbacks).final callbackReader mixedLines.flatten)
        ((reader 0 bothCallbacks).final callbackReader
          (mixedLines.filter fun is => IsSatellite (is.map Prod.snd)).flatten) := by
  have hlines : ∀ is ∈ mixedLines, ShortLine 0 is := by
    rw [mixedLines, List.forall_mem_cons, List.forall_mem_singleton]
    exact ⟨shortLine_stamped (by decide) (by decide), shortLine_stamped (by decide) (by decide)⟩
  have hcb : bothCallbacks.svStatusCb = true := rfl
  have hidle : Idle callbackReader := ⟨rfl, rfl, rfl⟩
  obtain ⟨hposition, hstatus, -⟩ := reader_separates 0 hcb hidle hlines
  exact ⟨hposition, hstatus⟩

end HeadUnit.Gps
