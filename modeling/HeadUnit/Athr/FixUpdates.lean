import HeadUnit.Athr.Reader
import HeadUnit.Gps.FixDelivery

/-!
# What a line changes in the fix

A sentence updates the groups of a fix that it carries, as in `gps_neu.c`, but for GGA without a fix;
only a `$PUNV,QUAL` line carries the accuracy, which is the fifth group here. What a whole line does
is an `Update` (`addc_updated`).
-/

namespace HeadUnit.Athr

open Gps hiding Group Updates

variable {D : Type}

/-! ## Groups -/

inductive Group where
  | position (g : Gps.Group)
  | accuracy
  deriving DecidableEq, Repr

/-- Whether the `HAS_` flag of a group is set. -/
def Group.flag (fix : GpsLocation D) : Group → Bool
  | .position g => fix.has g
  | .accuracy => fix.flags.accuracy

def Group.value (fix : GpsLocation D) : Group → List D
  | .position g => fix.value g
  | .accuracy => [fix.accuracy]

/-- A value for a group, and whether it is flagged. -/
structure Update (D : Type) where
  flagged : Bool
  value : List D

/-- The groups for which a line carries a value. -/
abbrev Updates (D : Type) := Group → Option (Update D)

/-- `fix'` is `fix` with some groups updated. -/
def Updated (u : Updates D) (fix fix' : GpsLocation D) : Prop :=
  ∀ g : Group, g.flag fix' = (g.flag fix || (u g).any Update.flagged) ∧
    g.value fix' = ((u g).map Update.value).getD (g.value fix)

/-- Updates of the groups that are always flagged. -/
def positions (u : Gps.Updates D) : Updates D
  | .position g => (u g).map (⟨true, ·⟩)
  | .accuracy => none

theorem Updated.refl (fix : GpsLocation D) : Updated (fun _ => none) fix fix := by
  intro g
  simp

/-- The accuracy is left alone. -/
def SameAccuracy (fix fix' : GpsLocation D) : Prop :=
  fix'.accuracy = fix.accuracy ∧ fix'.flags.accuracy = fix.flags.accuracy

theorem SameAccuracy.refl (fix : GpsLocation D) : SameAccuracy fix fix := ⟨rfl, rfl⟩

theorem SameAccuracy.trans {fix₁ fix₂ fix₃ : GpsLocation D} (h₁ : SameAccuracy fix₁ fix₂)
    (h₂ : SameAccuracy fix₂ fix₃) : SameAccuracy fix₁ fix₃ :=
  ⟨h₂.1.trans h₁.1, h₂.2.trans h₁.2⟩

theorem Updated.positions {u : Gps.Updates D} {fix fix' : GpsLocation D}
    (h : Gps.Updated u fix fix') (hsame : SameAccuracy fix fix') :
    Updated (positions u) fix fix' := by
  intro g
  cases g with
  | position g =>
    obtain ⟨hhas, hvalue⟩ := h g
    simp only [Group.flag, Group.value, Athr.positions, hhas, hvalue]
    cases u g <;> simp
  | accuracy => simp [Group.flag, Group.value, Athr.positions, hsame.1, hsame.2]

variable [CDouble D]

/-! ## Sentences -/

/-- The groups that a sentence updates: GGA none without a fix, the others as in `gps_neu.c`. -/
def sentenceUpdates (t : List Token) : Gps.Updates D :=
  if sentenceId (nmeaTokenizerGet t 0) = ascii ['G', 'G', 'A'] ∧
      ¬(nmeaTokenizerGet t 6).char0 > 0x30 then fun _ => none
  else Gps.sentenceUpdates t

theorem getTimestamp_fix (zone : Int) (clk : Clock) (r : NmeaReader D) (tok : Token) :
    (nmeaReaderGetTimestamp zone clk r tok).1.fix = r.fix := by
  rw [nmeaReaderGetTimestamp]
  split
  · rfl
  · split <;> rfl

/-- Only the time stamp of the fix differs. -/
def Stamped (fix fix' : GpsLocation D) : Prop := ∃ timestamp, fix' = { fix with timestamp := timestamp }

theorem updateTime_stamped (zone : Int) (clk : Clock) (r : NmeaReader D) (tok : Token) :
    Stamped r.fix (nmeaReaderUpdateTime zone clk r tok).1.fix := by
  have hfix := getTimestamp_fix zone clk r tok
  rw [nmeaReaderUpdateTime]
  generalize nmeaReaderGetTimestamp zone clk r tok = p at *
  obtain ⟨r', timestamp⟩ := p
  dsimp only at hfix
  rw [← hfix]
  cases timestamp <;> exact ⟨_, rfl⟩

theorem updateDate_stamped (zone : Int) (clk : Clock) (r : NmeaReader D) (date mtime : Token) :
    Stamped r.fix (nmeaReaderUpdateDate zone clk r date mtime).1.fix := by
  rw [nmeaReaderUpdateDate]
  split
  · exact ⟨_, rfl⟩
  · exact updateTime_stamped zone clk { r with utcYear := _, utcMon := _, utcDay := _ } mtime

omit [CDouble D] in
theorem Stamped.updated {fix fix' : GpsLocation D} (h : Stamped fix fix') :
    Gps.Updated (fun _ => none) fix fix' := by
  obtain ⟨timestamp, rfl⟩ := h
  exact .of_eq rfl rfl

omit [CDouble D] in
theorem Stamped.sameAccuracy {fix fix' : GpsLocation D} (h : Stamped fix fix') :
    SameAccuracy fix fix' := by
  obtain ⟨timestamp, rfl⟩ := h
  exact ⟨rfl, rfl⟩

theorem gps_updateLatlong_sameAccuracy (r : Gps.NmeaReader D) (lat : Token) (latHemi : UInt8) (lon : Token)
    (lonHemi : UInt8) :
    SameAccuracy r.fix (Gps.nmeaReaderUpdateLatlong r lat latHemi lon lonHemi).1.fix := by
  rw [Gps.nmeaReaderUpdateLatlong]
  split
  · exact .refl _
  · dsimp only
    split <;> exact ⟨rfl, rfl⟩

theorem gps_updateAltitude_sameAccuracy (r : Gps.NmeaReader D) (altitude units : Token) :
    SameAccuracy r.fix (Gps.nmeaReaderUpdateAltitude r altitude units).1.fix := by
  rw [Gps.nmeaReaderUpdateAltitude]
  split <;> exact ⟨rfl, rfl⟩

theorem gps_updateBearing_sameAccuracy (r : Gps.NmeaReader D) (bearing : Token) :
    SameAccuracy r.fix (Gps.nmeaReaderUpdateBearing r bearing).1.fix := by
  rw [Gps.nmeaReaderUpdateBearing]
  split <;> exact ⟨rfl, rfl⟩

theorem gps_updateSpeed_sameAccuracy (r : Gps.NmeaReader D) (speed : Token) :
    SameAccuracy r.fix (Gps.nmeaReaderUpdateSpeed r speed).1.fix := by
  rw [Gps.nmeaReaderUpdateSpeed]
  split <;> exact ⟨rfl, rfl⟩

/-- A sentence updates the groups it carries, and no accuracy. -/
def Carries (u : Gps.Updates D) (fix fix' : GpsLocation D) : Prop :=
  Gps.Updated u fix fix' ∧ SameAccuracy fix fix'

theorem parseGga_carries (zone : Int) (clk : Clock) (t : List Token) (r : NmeaReader D)
    (hstatus : (nmeaTokenizerGet t 6).char0 > 0x30) :
    Carries (ggaUpdates t) r.fix (parseGga zone clk t r).fix := by
  have htime := updateTime_stamped zone clk r (nmeaTokenizerGet t 1)
  rw [parseGga, if_pos hstatus]
  dsimp only
  generalize (nmeaReaderUpdateTime zone clk r (nmeaTokenizerGet t 1)).1 = r₁ at *
  constructor
  · have h := (htime.updated.trans (updateLatlong_updated r₁.toNmeaReader (nmeaTokenizerGet t 2)
      (nmeaTokenizerGet t 3).char0 (nmeaTokenizerGet t 4) (nmeaTokenizerGet t 5).char0)).trans
      (updateAltitude_updated _ (nmeaTokenizerGet t 9) (nmeaTokenizerGet t 10))
    simp only [Option.or_none] at h
    exact h
  · exact (htime.sameAccuracy.trans (gps_updateLatlong_sameAccuracy ..)).trans
      (gps_updateAltitude_sameAccuracy _ (nmeaTokenizerGet t 9) (nmeaTokenizerGet t 10))

theorem parseGll_carries (zone : Int) (clk : Clock) (t : List Token) (r : NmeaReader D) :
    Carries (gllUpdates t) r.fix (parseGll zone clk t r).fix := by
  have htime := updateTime_stamped zone clk r (nmeaTokenizerGet t 5)
  rw [parseGll]
  unfold gllUpdates
  split
  · generalize (nmeaReaderUpdateTime zone clk r (nmeaTokenizerGet t 5)).1 = r₁ at *
    constructor
    · have h := htime.updated.trans (updateLatlong_updated r₁.toNmeaReader (nmeaTokenizerGet t 1)
        (nmeaTokenizerGet t 2).char0 (nmeaTokenizerGet t 3) (nmeaTokenizerGet t 4).char0)
      simp only [Option.or_none] at h
      exact h
    · exact htime.sameAccuracy.trans (gps_updateLatlong_sameAccuracy ..)
  · exact ⟨.of_eq rfl rfl, .refl _⟩

theorem parseRmc_carries (zone : Int) (clk : Clock) (t : List Token) (r : NmeaReader D) :
    Carries (rmcUpdates t) r.fix (parseRmc zone clk t r).fix := by
  have hdate := updateDate_stamped zone clk r (nmeaTokenizerGet t 9) (nmeaTokenizerGet t 1)
  rw [parseRmc]
  unfold rmcUpdates
  split
  · generalize (nmeaReaderUpdateDate zone clk r (nmeaTokenizerGet t 9)
      (nmeaTokenizerGet t 1)).1 = r₁ at *
    constructor
    · have h := ((hdate.updated.trans (updateLatlong_updated r₁.toNmeaReader (nmeaTokenizerGet t 3)
        (nmeaTokenizerGet t 4).char0 (nmeaTokenizerGet t 5) (nmeaTokenizerGet t 6).char0)).trans
        (updateBearing_updated _ (nmeaTokenizerGet t 8))).trans
        (updateSpeed_updated _ (nmeaTokenizerGet t 7))
      simp only [Option.or_none] at h
      exact h
    · exact ((hdate.sameAccuracy.trans (gps_updateLatlong_sameAccuracy ..)).trans
        (gps_updateBearing_sameAccuracy ..)).trans (gps_updateSpeed_sameAccuracy ..)
  · exact ⟨.of_eq rfl rfl, .refl _⟩

theorem parseVtg_sameAccuracy (t : List Token) (r : Gps.NmeaReader D) :
    SameAccuracy r.fix (parseVtg t r).fix := by
  rw [parseVtg]
  dsimp only
  split
  · exact (gps_updateBearing_sameAccuracy ..).trans (gps_updateSpeed_sameAccuracy ..)
  · exact .refl _

omit [CDouble D] in
theorem gps_updateCdate_fix (r : Gps.NmeaReader D) (tokD tokM tokY : Token) :
    (Gps.nmeaReaderUpdateCdate r tokD tokM tokY).1.fix = r.fix := by
  rw [Gps.nmeaReaderUpdateCdate]
  split <;> rfl

theorem parseZda_stamped (zone : Int) (clk : Clock) (t : List Token) (r : NmeaReader D) :
    Stamped r.fix (parseZda zone clk t r).fix := by
  have hdate : (if (nmeaTokenizerGet t 4).char0 ≠ 0 then
      (nmeaReaderUpdateCdate r (nmeaTokenizerGet t 2) (nmeaTokenizerGet t 3)
        (nmeaTokenizerGet t 4)).1 else r).fix = r.fix := by
    split
    · exact gps_updateCdate_fix ..
    · rfl
  rw [parseZda]
  split
  · have htime := updateTime_stamped zone clk (if (nmeaTokenizerGet t 4).char0 ≠ 0 then
      (nmeaReaderUpdateCdate r (nmeaTokenizerGet t 2) (nmeaTokenizerGet t 3)
        (nmeaTokenizerGet t 4)).1 else r) (nmeaTokenizerGet t 1)
    rwa [hdate] at htime
  · exact ⟨_, hdate⟩

/-- A sentence updates the groups it carries and leaves the others as they are. -/
theorem parseSentence_carries (zone : Int) (clk : Clock) (t : List Token) (r : NmeaReader D) :
    Carries (sentenceUpdates t) r.fix (parseSentence zone clk t r).1.fix := by
  have hsame {fix fix' : GpsLocation D} (h : fix' = fix) : Carries (fun _ => none) fix fix' :=
    h ▸ ⟨.of_eq rfl rfl, .refl _⟩
  rw [parseSentence, sentenceUpdates, Gps.sentenceUpdates]
  generalize sentenceId (nmeaTokenizerGet t 0) = id
  by_cases hgga : id = ascii ['G', 'G', 'A']
  · simp only [if_pos hgga]
    by_cases hstatus : (nmeaTokenizerGet t 6).char0 > 0x30
    · rw [if_neg fun h => h.2 hstatus]
      exact parseGga_carries zone clk t r hstatus
    · rw [if_pos ⟨hgga, hstatus⟩, parseGga, if_neg hstatus]
      exact hsame rfl
  rw [if_neg fun h => hgga h.1]
  by_cases hgll : id = ascii ['G', 'L', 'L']
  · simp only [if_neg hgga, if_pos hgll]
    exact parseGll_carries zone clk t r
  by_cases hgsa : id = ascii ['G', 'S', 'A']
  · subst hgsa
    exact hsame (parseGsa_maskStep t r.toNmeaReader).fix
  by_cases hgsv : id = ascii ['G', 'S', 'V']
  · subst hgsv
    exact hsame (parseGsv_fix t r.toNmeaReader)
  by_cases hrmc : id = ascii ['R', 'M', 'C']
  · simp only [if_neg hgga, if_neg hgll, if_neg hgsa, if_neg hgsv, if_pos hrmc]
    exact parseRmc_carries zone clk t r
  by_cases hvtg : id = ascii ['V', 'T', 'G']
  · simp only [if_neg hgga, if_neg hgll, if_neg hgsa, if_neg hgsv, if_neg hrmc, if_pos hvtg]
    exact ⟨parseVtg_updated t r.toNmeaReader, parseVtg_sameAccuracy t r.toNmeaReader⟩
  simp only [if_neg hgga, if_neg hgll, if_neg hgsa, if_neg hgsv, if_neg hrmc, if_neg hvtg]
  split
  · exact ⟨(parseZda_stamped zone clk t r).updated, (parseZda_stamped zone clk t r).sameAccuracy⟩
  · exact hsame rfl

/-! ## Lines -/

variable [DecidableEq D]

/-- The update of the accuracy by its token. -/
def accuracyUpdate (tok : Token) : Option (Update D) :=
  let acc : D := CDouble.toFloat (str2float tok.mem tok.p tok.stop)
  if tok.p < tok.stop then some ⟨acc ≠ 99.99, [acc]⟩ else none

/-- The update of a `$PUNV` line, if it is a `QUAL` line with the accuracy in field 10. -/
def punvUpdates (t : List Token) : Updates D
  | .position _ => none
  | .accuracy =>
    if startsWith (nmeaTokenizerGet t 1) ['Q', 'U', 'A', 'L'] ∧
        (nmeaTokenizerGet t 3).char0 ≠ 0x2C then
      accuracyUpdate (nmeaTokenizerGet t 10)
    else none

/-- The groups that a line of at least nine bytes updates. -/
def lineUpdates (t : List Token) : Updates D :=
  let tok := nmeaTokenizerGet t 0
  if tok.p + 5 > tok.stop then
    if startsWith tok ['P', 'U', 'N', 'V'] then punvUpdates t else fun _ => none
  else positions (sentenceUpdates t)

omit [CDouble D] [DecidableEq D] in
theorem startsWith_head {tok : Token} {c : Char} {cs : List Char}
    (h : startsWith tok (c :: cs) = true) : tok.mem[tok.p]? = some c.toUInt8 := by
  rw [startsWith, decide_eq_true_eq] at h
  have hhead := congrArg List.head? h
  rw [List.head?_take, List.head?_drop] at hhead
  exact hhead

theorem updateAccuracy_updated (r : NmeaReader D) (tok : Token) :
    Updated (fun
      | .position _ => none
      | .accuracy => accuracyUpdate tok) r.fix (nmeaReaderUpdateAccuracy r tok).1.fix := by
  intro g
  rw [nmeaReaderUpdateAccuracy, accuracyUpdate]
  by_cases hlt : tok.p < tok.stop
  · rw [if_neg (Nat.not_le.mpr hlt)]
    simp only [if_pos hlt]
    by_cases h99 : CDouble.toFloat (str2float tok.mem tok.p tok.stop) = (99.99 : D)
    · rw [if_pos h99]
      cases g with
      | position g => cases g <;> simp [Group.flag, Group.value, GpsLocation.has, GpsLocation.value]
      | accuracy => simp [Group.flag, Group.value, h99]
    · rw [if_neg h99]
      cases g with
      | position g => cases g <;> simp [Group.flag, Group.value, GpsLocation.has, GpsLocation.value]
      | accuracy => simp [Group.flag, Group.value, h99]
  · rw [if_pos (Nat.not_lt.mp hlt)]
    cases g <;> simp [hlt]

omit [DecidableEq D] in
theorem updateTimemap_fix (zone : Int) (clk : Clock) (r : NmeaReader D) (systimeTok tok : Token) :
    (nmeaReaderUpdateTimemap zone clk r systimeTok tok).1.fix = r.fix := by
  have hfix := getTimestamp_fix zone clk r tok
  rw [nmeaReaderUpdateTimemap]
  split
  · rfl
  · generalize nmeaReaderGetTimestamp zone clk r tok = p at *
    obtain ⟨r', timestamp⟩ := p
    cases timestamp <;> exact hfix

theorem parsePunv_updated (zone : Int) (clk : Clock) (t : List Token) (r : NmeaReader D) :
    Updated (punvUpdates t) r.fix (parsePunv zone clk t r).fix := by
  have hnone (h : ¬(startsWith (nmeaTokenizerGet t 1) ['Q', 'U', 'A', 'L'] = true ∧
      (nmeaTokenizerGet t 3).char0 ≠ 0x2C)) : (punvUpdates t : Updates D) = fun _ => none := by
    funext g
    cases g with
    | position => rfl
    | accuracy => exact if_neg h
  rw [parsePunv]
  split
  case isTrue hcfg =>
    rw [hnone fun h => nomatch (startsWith_head hcfg).symm.trans (startsWith_head h.1)]
    exact .refl _
  case isFalse =>
    split
    case isTrue hqual =>
      split
      case isTrue hsigma =>
        have hqual : (punvUpdates t : Updates D) = fun
            | .position _ => none
            | .accuracy => accuracyUpdate (nmeaTokenizerGet t 10) := by
          funext g
          cases g with
          | position => rfl
          | accuracy => exact if_pos ⟨hqual, hsigma⟩
        rw [hqual]
        exact updateAccuracy_updated r (nmeaTokenizerGet t 10)
      case isFalse hsigma =>
        rw [hnone fun h => hsigma h.2]
        exact .refl _
    case isFalse hqual =>
      rw [hnone fun h => hqual h.1]
      split
      · rw [updateTimemap_fix]
        exact .refl _
      · exact .refl _

/-! ## Bytes -/

/-- The tokens of a line that is looked at. -/
def lineTokens : Gps.Output D → Option (List Token)
  | .parse mem pos => if 9 ≤ pos then some (nmeaTokenizerInit mem 0 pos) else none
  | _ => none

/-- Outputs that tell of no line and no delivery. -/
def IsOther (o : Gps.Output D) : Prop := o.isLocation = false ∧ lineTokens o = none

/-- The fix is kept, or it is handed over as the first one. -/
inductive Reports (firstFix : Bool) (state : Init) (fix : GpsLocation D) (s' : FixState D) :
    List (Gps.Output D) → Prop
  | kept : s'.reader.fix = fix → s'.firstFix = firstFix → Reports firstFix state fix s' []
  | first : firstFix = false → state = .init → fix.flags.latLong = true →
    s'.reader.fix = { fix with flags := .zero } → s'.firstFix = true →
    Reports firstFix state fix s' [.location fix]

omit [DecidableEq D] [CDouble D] in
theorem reportFirstFix_reports {cbs : GpsCallbacks} (hcb : cbs.locationCb = true) (s : FixState D) :
    Reports s.firstFix s.init s.reader.fix (reportFirstFix cbs s).1 (reportFirstFix cbs s).2 := by
  rw [reportFirstFix]
  split
  case isTrue h => exact .first h.1 h.2.1 h.2.2 rfl rfl
  case isFalse => exact .kept rfl rfl

omit [DecidableEq D] in
theorem parseSentence_isOther (zone : Int) (clk : Clock) (t : List Token) (r : NmeaReader D) :
    ∀ o ∈ (parseSentence zone clk t r).2, IsOther o := by
  intro o ho
  rw [parseSentence] at ho
  dsimp only at ho
  by_cases hgsv : sentenceId (nmeaTokenizerGet t 0) = ascii ['G', 'S', 'V']
  · rw [hgsv] at ho
    have ho : o ∈ (parseGsv t r.toNmeaReader).2 := ho
    rw [parseGsv] at ho
    dsimp only at ho
    obtain ⟨j, rfl⟩ : ∃ j, o = .svWrite j := by
      split_ifs at ho
      all_goals first | exact gsvLoop_writes t _ _ _ _ _ o ho | cases ho
    exact ⟨rfl, rfl⟩
  · rw [if_neg hgsv] at ho
    split_ifs at ho
    all_goals cases ho

/-- `nmea_reader_parse` does what the line in the buffer says, and reports the first fix. -/
theorem parse_reports (zone : Int) {cbs : GpsCallbacks} (hcb : cbs.locationCb = true) (clk : Clock)
    (s : FixState D) : ∃ fix pre out, (nmeaReaderParse zone cbs clk s).2 = pre ++ out ∧
      (∀ o ∈ pre, IsOther o) ∧
      Reports s.firstFix s.init fix (nmeaReaderParse zone cbs clk s).1 out ∧
      match lineTokens (.parse s.reader.inBuf.toList s.reader.pos : Gps.Output D) with
      | none => fix = s.reader.fix
      | some t => Updated (lineUpdates t) s.reader.fix fix := by
  rw [nmeaReaderParse, lineTokens]
  dsimp only
  by_cases hpos : s.reader.pos < 9
  · rw [if_pos hpos, if_neg (by omega)]
    exact ⟨_, [], [], rfl, (List.forall_mem_nil _), .kept rfl rfl, rfl⟩
  rw [if_neg hpos, if_pos (Nat.not_lt.mp hpos)]
  generalize nmeaTokenizerInit s.reader.inBuf.toList 0 s.reader.pos = t
  generalize hnmea : (if cbs.nmeaCb then [Gps.Output.nmea (clk.tvSec * 1000 + clk.tvUsec / 1000)
    (s.reader.inBuf.toList.take s.reader.pos)] else [] : List (Gps.Output D)) = nmea
  have hother : ∀ o ∈ nmea, IsOther o := by
    rw [← hnmea]
    split
    · simp [IsOther, Gps.Output.isLocation, lineTokens]
    · simp
  dsimp only
  rw [lineUpdates]
  split
  · split
    · exact ⟨_, nmea, [], (List.append_nil nmea).symm, hother, .kept rfl rfl,
        parsePunv_updated zone clk t s.reader⟩
    · exact ⟨_, nmea, [], (List.append_nil nmea).symm, hother, .kept rfl rfl, .refl _⟩
  · have hcarries := parseSentence_carries zone clk t s.reader
    have hwrites := parseSentence_isOther zone clk t s.reader
    generalize parseSentence zone clk t s.reader = p at *
    obtain ⟨r, writes⟩ := p
    exact ⟨r.fix, nmea ++ writes, _, rfl, List.forall_mem_append.mpr ⟨hother, hwrites⟩,
      reportFirstFix_reports hcb { s with reader := r, bGetFormalNMEA := _ },
      Updated.positions hcarries.1 hcarries.2⟩

end HeadUnit.Athr
