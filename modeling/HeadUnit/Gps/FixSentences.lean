import HeadUnit.Gps.Dates
import HeadUnit.Gps.FixDelivery
import HeadUnit.Gps.Timestamp

/-!
# Sentences that carry a fix

What a GGA, GLL, RMC or ZDA sentence makes of an arbitrary fix, in terms of its fields
(`line_leaves`). Only the length of the time field is looked at (`timestamp_kept_iff`), and GGA does
not look at its fix quality at all (`void_iff`).
-/

namespace HeadUnit.Gps

/-! ## The sentences -/

/-- The sentences with a time. -/
inductive TimedSentence where
  | gga
  | gll
  | rmc
  | zda
  deriving DecidableEq, Repr

namespace TimedSentence

def id : TimedSentence → List UInt8
  | .gga => ascii ['G', 'G', 'A']
  | .gll => ascii ['G', 'L', 'L']
  | .rmc => ascii ['R', 'M', 'C']
  | .zda => ascii ['Z', 'D', 'A']

theorem length_id (k : TimedSentence) : k.id.length = 3 := by
  cases k <;> rfl

def time (k : TimedSentence) (fs : List (List UInt8)) : List UInt8 :=
  match k with
  | .gga | .rmc | .zda => fs.getD 1 []
  | .gll => fs.getD 5 []

/-- `nmea_reader_update_time` is called. -/
def Active (k : TimedSentence) (fs : List (List UInt8)) : Prop :=
  match k with
  | .gga => True
  | .gll => (fs.getD 6 []).head? = some 0x41
  | .rmc => (fs.getD 2 []).head? = some 0x41 ∧ DateTaken (fs.getD 9 [])
  | .zda => (fs.getD 1 []).head? ≠ some 0

/-- `nmea_reader_update_time` is called and does not fail. -/
def TakesTime (k : TimedSentence) (fs : List (List UInt8)) : Prop :=
  k.Active fs ∧ 6 ≤ (k.time fs).length

instance (k : TimedSentence) (fs : List (List UInt8)) : Decidable (k.Active fs) :=
  match k with
  | .gga => inferInstanceAs (Decidable True)
  | .gll => inferInstanceAs (Decidable (_ = _))
  | .rmc => inferInstanceAs (Decidable (_ ∧ _))
  | .zda => inferInstanceAs (Decidable (_ ≠ _))

instance (k : TimedSentence) (fs : List (List UInt8)) : Decidable (k.TakesTime fs) :=
  inferInstanceAs (Decidable (_ ∧ _))

variable {D : Type} [CDouble D]

/-- The branch of `nmea_reader_parse`. -/
def parse (k : TimedSentence) (zone : Int) (clk : Clock) (t : List Token) (r : NmeaReader D) :
    NmeaReader D :=
  match k with
  | .gga => parseGga zone clk t r
  | .gll => parseGll zone clk t r
  | .rmc => parseRmc zone clk t r
  | .zda => parseZda zone clk t r

theorem parseSentence_eq (k : TimedSentence) (zone : Int) (clk : Clock) {t : List Token}
    (r : NmeaReader D) (hid : sentenceId (nmeaTokenizerGet t 0) = k.id) :
    parseSentence zone clk t r = (k.parse zone clk t r, []) := by
  rw [parseSentence, hid]
  cases k <;> rfl

end TimedSentence

/-! ## Time stamps -/

section Timestamps

variable {D : Type} [CDouble D] (zone : Int) (clk : Clock) (r : NmeaReader D)

/-- A time that is long enough replaces the time stamp, whatever it was. -/
theorem updateTime_taken (tok : Token) (fix : GpsLocation D) :
    (nmeaReaderUpdateTime zone clk { r with fix := fix } tok).1.fix.timestamp =
      if tok.p + 6 ≤ tok.stop then (nmeaReaderUpdateTime zone clk r tok).1.fix.timestamp
      else fix.timestamp := by
  rw [nmeaReaderUpdateTime, nmeaReaderUpdateTime]
  by_cases hlen : tok.p + 6 ≤ tok.stop
  · rw [if_neg (Nat.not_lt.mpr hlen), if_neg (Nat.not_lt.mpr hlen), if_pos hlen]
    split <;> rfl
  · rw [if_pos (Nat.not_le.mp hlen), if_pos (Nat.not_le.mp hlen), if_neg hlen]

omit [CDouble D] in
theorem updateCdate_fix (tokD tokM tokY : Token) (fix : GpsLocation D) :
    (nmeaReaderUpdateCdate { r with fix := fix } tokD tokM tokY).1 =
      { (nmeaReaderUpdateCdate r tokD tokM tokY).1 with fix := fix } := by
  rw [nmeaReaderUpdateCdate, nmeaReaderUpdateCdate]
  split <;> rfl

theorem updateAltitude_timestamp (altitude units : Token) :
    (nmeaReaderUpdateAltitude r altitude units).1.fix.timestamp = r.fix.timestamp := by
  rw [nmeaReaderUpdateAltitude]
  split <;> rfl

/-! For each sentence there is a time stamp, which does not depend on the fix, that replaces the one
of the fix if the time is taken. -/

variable {t : List Token} {fs : List (List UInt8)}
  (h : ∀ i < 10, LineToken (nmeaTokenizerGet t (i : Nat)) (fs.getD i []))
include h

omit [CDouble D] in
theorem active_iff {i : Nat} (hi : i < 10) : (nmeaTokenizerGet t i).char0 = 0x41 ↔
    (fs.getD i []).head? = some 0x41 := (h i hi).char0_iff (by decide) (by decide)

theorem parseGga_timestamps : ∃ v : Int, ∀ fix,
    (parseGga zone clk t { r with fix := fix }).fix.timestamp =
      if TimedSentence.gga.TakesTime fs then v else fix.timestamp := by
  refine ⟨(nmeaReaderUpdateTime zone clk r (nmeaTokenizerGet t 1)).1.fix.timestamp, fun fix => ?_⟩
  rw [parseGga, updateAltitude_timestamp, updateLatlong_timestamp, updateTime_taken]
  refine if_congr (((h 1 (by decide)).length_iff 6).trans ?_) rfl rfl
  exact (and_iff_right trivial).symm

theorem parseGll_timestamps : ∃ v : Int, ∀ fix,
    (parseGll zone clk t { r with fix := fix }).fix.timestamp =
      if TimedSentence.gll.TakesTime fs then v else fix.timestamp := by
  refine ⟨(nmeaReaderUpdateTime zone clk r (nmeaTokenizerGet t 5)).1.fix.timestamp, fun fix => ?_⟩
  have hchar := active_iff h (by decide : 6 < 10)
  rw [parseGll]
  by_cases hactive : (nmeaTokenizerGet t 6).char0 = 0x41
  · rw [if_pos hactive]
    dsimp only
    rw [updateLatlong_timestamp, updateTime_taken]
    refine if_congr (((h 5 (by decide)).length_iff 6).trans ?_) rfl rfl
    exact (and_iff_right (hchar.mp hactive)).symm
  · rw [if_neg hactive, if_neg fun ht => hactive (hchar.mpr ht.1)]

theorem parseRmc_timestamps : ∃ v : Int, ∀ fix,
    (parseRmc zone clk t { r with fix := fix }).fix.timestamp =
      if TimedSentence.rmc.TakesTime fs then v else fix.timestamp := by
  -- the reader behind a date that is taken
  refine ⟨(nmeaReaderUpdateTime zone clk { r with
    utcYear := readInt (slice (fs.getD 9 []) 4 6) + 2000
    utcMon := decVal (slice (fs.getD 9 []) 2 4)
    utcDay := decVal ((fs.getD 9 []).take 2) } (nmeaTokenizerGet t 1)).1.fix.timestamp,
    fun fix => ?_⟩
  have hchar := active_iff h (by decide : 2 < 10)
  by_cases hactive : (nmeaTokenizerGet t 2).char0 = 0x41
  · rw [parseRmc_timestamp zone clk _ hactive]
    have hdate := updateDate_eq zone clk { r with fix := fix } (h 9 (by decide)).spells
      (nmeaTokenizerGet t 1)
    rw [show nmeaTokenizerGet t 9 = nmeaTokenizerGet t (9 : Nat) from rfl, hdate]
    by_cases htaken : DateTaken (fs.getD 9 [])
    · have htime := updateTime_taken zone clk { r with
        utcYear := readInt (slice (fs.getD 9 []) 4 6) + 2000
        utcMon := decVal (slice (fs.getD 9 []) 2 4)
        utcDay := decVal ((fs.getD 9 []).take 2) } (nmeaTokenizerGet t 1) fix
      rw [if_pos htaken]
      refine htime.trans (if_congr (((h 1 (by decide)).length_iff 6).trans ?_) rfl rfl)
      exact (and_iff_right ⟨hchar.mp hactive, htaken⟩).symm
    · rw [if_neg htaken, if_neg fun ht => htaken ht.1.2]
  · rw [parseRmc, if_neg hactive, if_neg fun ht => hactive (hchar.mpr ht.1.1)]

theorem parseZda_timestamps : ∃ v : Int, ∀ fix,
    (parseZda zone clk t { r with fix := fix }).fix.timestamp =
      if TimedSentence.zda.TakesTime fs then v else fix.timestamp := by
  obtain ⟨r', hdate⟩ : ∃ r' : NmeaReader D, ∀ fix, (if (nmeaTokenizerGet t 4).char0 ≠ 0 then
      (nmeaReaderUpdateCdate { r with fix := fix } (nmeaTokenizerGet t 2) (nmeaTokenizerGet t 3)
        (nmeaTokenizerGet t 4)).1 else { r with fix := fix }) = { r' with fix := fix } := by
    refine ⟨if (nmeaTokenizerGet t 4).char0 ≠ 0 then (nmeaReaderUpdateCdate r
      (nmeaTokenizerGet t 2) (nmeaTokenizerGet t 3) (nmeaTokenizerGet t 4)).1 else r, fun fix => ?_⟩
    rw [updateCdate_fix]
    split <;> rfl
  refine ⟨(nmeaReaderUpdateTime zone clk r' (nmeaTokenizerGet t 1)).1.fix.timestamp, fun fix => ?_⟩
  rw [parseZda]
  simp only [hdate fix]
  have htime := updateTime_taken zone clk r' (nmeaTokenizerGet t 1) fix
  have hlen : (nmeaTokenizerGet t 1).p + 6 ≤ (nmeaTokenizerGet t 1).stop ↔
    6 ≤ (fs.getD 1 []).length := (h 1 (by decide)).length_iff 6
  have hhead (hsix : 6 ≤ (fs.getD 1 []).length) : (nmeaTokenizerGet t 1).char0 ≠ 0 ↔
      (fs.getD 1 []).head? ≠ some 0 :=
    (h 1 (by decide)).char0_ne_zero (List.ne_nil_of_length_pos (by omega))
  by_cases hchar0 : (nmeaTokenizerGet t 1).char0 ≠ 0
  · rw [if_pos hchar0]
    refine htime.trans (if_congr (hlen.trans ⟨fun hsix => ?_, And.right⟩) rfl rfl)
    exact ⟨(hhead hsix).mp hchar0, hsix⟩
  · rw [if_neg hchar0, if_neg fun ht => hchar0 ((hhead ht.2).mpr ht.1)]

theorem parse_timestamps (k : TimedSentence) :
    ∃ v : Int, ∀ fix, (k.parse zone clk t { r with fix := fix }).fix.timestamp =
      if k.TakesTime fs then v else fix.timestamp := by
  cases k with
  | gga => exact parseGga_timestamps zone clk r h
  | gll => exact parseGll_timestamps zone clk r h
  | rmc => exact parseRmc_timestamps zone clk r h
  | zda => exact parseZda_timestamps zone clk r h

end Timestamps

/-! ## Updates in terms of fields -/

section Updates

variable {D : Type} [CDouble D]

theorem latLongUpdate_of_not {lat lon : Token} (latHemi lonHemi : UInt8)
    (h : ¬(lat.p + 6 ≤ lat.stop ∧ lon.p + 6 ≤ lon.stop)) (g : Group) :
    (latLongUpdate lat latHemi lon lonHemi g : Option (List D)) = none := by
  cases g with
  | latLong => exact if_neg h
  | altitude | bearing | speed => rfl

theorem altitudeUpdate_of_not {tok : Token} (h : ¬tok.p < tok.stop) (g : Group) :
    (altitudeUpdate tok g : Option (List D)) = none := by
  cases g with
  | altitude => exact if_neg h
  | latLong | bearing | speed => rfl

theorem bearingUpdate_of_not {tok : Token} (h : ¬tok.p < tok.stop) (g : Group) :
    (bearingUpdate tok g : Option (List D)) = none := by
  cases g with
  | bearing => exact if_neg h
  | latLong | altitude | speed => rfl

theorem speedUpdate_of_not {tok : Token} (h : ¬tok.p < tok.stop) (g : Group) :
    (speedUpdate tok g : Option (List D)) = none := by
  cases g with
  | speed => exact if_neg h
  | latLong | altitude | bearing => rfl

/-- A line too short for `nmea_reader_parse` would update nothing. -/
theorem sentenceUpdates_short (k : TimedSentence) {t : List Token} {fs : List (List UInt8)}
    (hid : sentenceId (nmeaTokenizerGet t 0) = k.id)
    (h : ∀ i < 10, LineToken (nmeaTokenizerGet t (i : Nat)) (fs.getD i []))
    (hshort : ∀ i, (1 ≤ i → (fs.getD i []).length < 6) ∧ (4 ≤ i → fs.getD i [] = [])) (g : Group) :
    (sentenceUpdates t g : Option (List D)) = none := by
  have hsix {i j : Nat} (hi : 1 ≤ i) (hi' : i < 10) : ¬((nmeaTokenizerGet t i).p + 6 ≤
      (nmeaTokenizerGet t i).stop ∧ (nmeaTokenizerGet t j).p + 6 ≤ (nmeaTokenizerGet t j).stop) :=
    fun hlen => absurd (((h i hi').length_iff 6).mp hlen.1) (Nat.not_le.mpr ((hshort i).1 hi))
  have hnil {i : Nat} (hi : 4 ≤ i) (hi' : i < 10) :
      ¬(nmeaTokenizerGet t i).p < (nmeaTokenizerGet t i).stop := by
    intro hlen
    have hone := ((h i hi').length_iff 1).mp hlen
    rw [(hshort i).2 hi] at hone
    cases hone
  rw [sentenceUpdates, hid]
  cases k with
  | gga =>
    show ggaUpdates t g = none
    exact Option.or_eq_none_iff.mpr ⟨altitudeUpdate_of_not (hnil (i := 9) (by decide) (by decide)) g,
      latLongUpdate_of_not _ _ (hsix (i := 2) (j := 4) (by decide) (by decide)) g⟩
  | gll =>
    show gllUpdates t g = none
    unfold gllUpdates
    split
    · exact latLongUpdate_of_not _ _ (hsix (i := 1) (j := 3) (by decide) (by decide)) g
    · rfl
  | rmc =>
    show rmcUpdates t g = none
    unfold rmcUpdates
    split
    · exact Option.or_eq_none_iff.mpr ⟨speedUpdate_of_not (hnil (i := 7) (by decide) (by decide)) g,
        Option.or_eq_none_iff.mpr ⟨bearingUpdate_of_not (hnil (i := 8) (by decide) (by decide)) g,
          latLongUpdate_of_not _ _ (hsix (i := 3) (j := 5) (by decide) (by decide)) g⟩⟩
    · rfl
  | zda => rfl

end Updates

/-! ## Lines -/

section Lines

variable {D : Type} [CDouble D]

/-- `fix` is what a sentence leaves: it is kept, or handed over at once with its flags cleared. -/
inductive LeavesFix (p : NmeaReader D × List (Output D)) (fix : GpsLocation D) : Prop
  | kept (fix_eq : p.1.fix = fix) (quiet : ∀ fix', .location fix' ∉ p.2)
  | handedOver (fix_eq : p.1.fix = { fix with flags := .zero })
      (mem : ∀ fix', .location fix' ∈ p.2 ↔ fix' = fix)

omit [CDouble D] in
theorem LeavesFix.unique {p : NmeaReader D × List (Output D)} {fix fix' : GpsLocation D}
    (h : LeavesFix p fix) (h' : LeavesFix p fix') : fix' = fix := by
  cases h with
  | kept fix_eq quiet =>
    cases h' with
    | kept fix_eq' => exact fix_eq'.symm.trans fix_eq
    | handedOver _ mem => exact absurd ((mem fix').mpr rfl) (quiet fix')
  | handedOver fix_eq mem =>
    cases h' with
    | kept _ quiet => exact absurd ((mem fix).mpr rfl) (quiet fix)
    | handedOver _ mem' => exact (mem fix').mp ((mem' fix').mpr rfl)

omit [CDouble D] in
theorem LeavesFix.timestamp {p : NmeaReader D × List (Output D)} {fix : GpsLocation D}
    (h : LeavesFix p fix) : p.1.fix.timestamp = fix.timestamp := by
  cases h with
  | kept fix_eq | handedOver fix_eq => rw [fix_eq]

theorem handle_leavesFix (zone : Int) (cbs : GpsCallbacks) (clk : Clock) (t : List Token)
    (r : NmeaReader D) {out : List (Output D)} (hout : ∀ o ∈ out, o.isLine) :
    ∃ fix, LeavesFix ((handle zone cbs clk t r).1, out ++ (handle zone cbs clk t r).2) fix ∧
      Updated (sentenceUpdates t) r.fix fix ∧
      fix.timestamp = (parseSentence zone clk t r).1.fix.timestamp := by
  have hline (fix' : GpsLocation D) : .location fix' ∉ out := fun h => by cases hout _ h
  obtain ⟨fix, others, hupdated, hothers, -, hdelivery⟩ := handle_fix zone cbs clk t r
  have hother (fix' : GpsLocation D) : .location fix' ∉ others := fun h => by
    cases (hothers _ h).1
  have hstamp := handle_timestamp zone cbs clk t r
  split at hdelivery
  · obtain ⟨hfix, hmem⟩ := hdelivery
    refine ⟨fix, .handedOver hfix fun fix' => ?_, hupdated, ?_⟩
    · rw [hmem, List.mem_append, List.mem_append, List.mem_singleton, or_iff_right (hline fix'),
        or_iff_right (hother fix'), Output.location.injEq]
    · rw [← hstamp, hfix]
  · obtain ⟨hfix, hmem⟩ := hdelivery
    refine ⟨fix, .kept hfix fun fix' => ?_, hupdated, ?_⟩
    · rw [hmem, List.mem_append, not_or]
      exact ⟨hline fix', hother fix'⟩
    · rw [← hstamp, hfix]

variable (zone : Int) (cbs : GpsCallbacks) (clk : Clock) {r : NmeaReader D} {w : List UInt8}

omit [CDouble D] in
/-- The tokens of a line in the buffer, which begins with the id of the sentence. -/
theorem TimedSentence.line_tokens (k : TimedSentence) (h : Holds r (w ++ [0x0A]))
    (hid : slice ((fields (w ++ [0x0A])).getD 0 []) 2 5 = k.id) :
    5 ≤ ((fields (w ++ [0x0A])).getD 0 []).length ∧
      sentenceId (nmeaTokenizerGet (lineTokens r) 0) = k.id ∧
      ∀ i < 10, LineToken (nmeaTokenizerGet (lineTokens r) (i : Nat))
        ((fields (w ++ [0x0A])).getD i []) := by
  have hlen := congrArg List.length hid
  rw [k.length_id] at hlen
  have hid5 := le_of_slice_length hlen (by decide)
  refine ⟨hid5, (h.sentenceId hid5).trans hid, fun i hi => ?_⟩
  exact h.lineToken (Nat.lt_trans hi (by decide : 10 < maxNmeaTokens))

/-- What a line in the buffer makes of any fix: groups that do not depend on the fix, and a time
stamp that does not either, if the time is taken. -/
theorem line_leaves (h : Holds r (w ++ [0x0A])) (k : TimedSentence)
    (hid : slice ((fields (w ++ [0x0A])).getD 0 []) 2 5 = k.id) :
    ∃ v : Int, ∀ fix, ∃ fix',
      LeavesFix (nmeaReaderParse zone cbs clk { r with fix := fix }) fix' ∧
      Updated (sentenceUpdates (lineTokens r)) fix fix' ∧
      fix'.timestamp = if k.TakesTime (fields (w ++ [0x0A])) then v else fix.timestamp := by
  obtain ⟨hid5, hsid, htoken⟩ := k.line_tokens h hid
  obtain ⟨v, hv⟩ := parse_timestamps zone clk r htoken k
  refine ⟨v, fun fix => ?_⟩
  have hholds : Holds { r with fix := fix } (w ++ [0x0A]) := ⟨h.pos, h.take⟩
  obtain ⟨out, hout, hparse⟩ := parse_line zone cbs clk hholds hid5
  rw [hparse]
  have hshort := fun hw : w.length < 8 => short_line hw hid5
  generalize fields (w ++ [0x0A]) = fs at *
  split
  case isTrue hw =>
    refine ⟨fix, .kept rfl fun fix' hmem => ?_, ?_, ?_⟩
    · cases hout _ hmem
    · intro g
      rw [sentenceUpdates_short k hsid htoken (hshort hw), Option.isSome_none, Bool.or_false]
      exact ⟨rfl, rfl⟩
    · have htime : ¬k.TakesTime fs := by
        intro ht
        apply Nat.not_lt.mpr ht.2
        cases k with
        | gga | rmc | zda => exact (hshort hw 1).1 (by decide)
        | gll => exact (hshort hw 5).1 (by decide)
      rw [if_neg htime]
  case isFalse hw =>
    obtain ⟨fix', hleaves, hupdated, hstamp⟩ :=
      handle_leavesFix zone cbs clk (lineTokens r) { r with fix := fix } hout
    refine ⟨fix', hleaves, hupdated, ?_⟩
    rw [hstamp, k.parseSentence_eq zone clk _ hsid]
    exact hv fix

end Lines

/-! ## Malformed times -/

/-- Six digits at the beginning. -/
def StartsSixDigits (f : List UInt8) : Prop := 6 ≤ f.length ∧ ∀ c ∈ f.take 6, IsDigit c

instance (f : List UInt8) : Decidable (StartsSixDigits f) := inferInstanceAs (Decidable (_ ∧ _))

/-- A time without six digits at its beginning leaves every time stamp alone if and only if it is
too short or not looked at. -/
theorem timestamp_kept_iff {D : Type} [CDouble D] (zone : Int) (cbs : GpsCallbacks) (clk : Clock)
    (r : NmeaReader D) (w : List UInt8) (h : Holds r (w ++ [0x0A])) (k : TimedSentence)
    (hid : slice ((fields (w ++ [0x0A])).getD 0 []) 2 5 = k.id) :
    let fs := fields (w ++ [0x0A])
    (¬StartsSixDigits (k.time fs) → ∀ ts : Int, (nmeaReaderParse zone cbs clk
        { r with fix := { r.fix with timestamp := ts } }).1.fix.timestamp = ts) ↔
      (k.TakesTime fs → StartsSixDigits (k.time fs)) := by
  intro fs
  obtain ⟨v, hv⟩ := line_leaves zone cbs clk h k hid
  have hstamp (ts : Int) : (nmeaReaderParse zone cbs clk
      { r with fix := { r.fix with timestamp := ts } }).1.fix.timestamp =
      if k.TakesTime fs then v else ts := by
    obtain ⟨fix', hleaves, -, hts⟩ := hv { r.fix with timestamp := ts }
    rw [hleaves.timestamp, hts]
  constructor
  · intro hkept htakes
    by_contra hsix
    have hnext := hkept hsix (v + 1)
    rw [hstamp, if_pos htakes] at hnext
    omega
  · intro htakes hsix ts
    rw [hstamp, if_neg fun ht => hsix (htakes ht)]

/-- A minute that is no number. -/
def badMinute : List UInt8 :=
  ascii ['$', 'G', 'P', 'G', 'G', 'A', ',', '1', '2', 'x', '5', '1', '9', ',']

def badMinuteReader : NmeaReader ℚ := (nmeaReaderInit 0 ⟨0, 0, 0⟩).holding (badMinute ++ [0x0A])

theorem not_timestamp_kept_badMinute :
    Holds badMinuteReader (badMinute ++ [0x0A]) ∧
      slice ((fields (badMinute ++ [0x0A])).getD 0 []) 2 5 = TimedSentence.gga.id ∧
      ¬StartsSixDigits (TimedSentence.gga.time (fields (badMinute ++ [0x0A]))) ∧
      (nmeaReaderParse 0 ⟨false, false, false, false⟩ ⟨0, 0, 0⟩ badMinuteReader).1.fix.timestamp ≠
        badMinuteReader.fix.timestamp := by
  refine ⟨holding_holds _ (by decide), by decide +kernel, by decide +kernel, ?_⟩
  decide +kernel

/-- A time that is too short leaves it alone. -/
def shortTime : List UInt8 := ascii ['$', 'G', 'P', 'G', 'G', 'A', ',', '1', '2', 'x', '5', ',']

theorem timestamp_kept_shortTime :
    (nmeaReaderParse 0 ⟨false, false, false, false⟩ ⟨0, 0, 0⟩
      { ((nmeaReaderInit 0 ⟨0, 0, 0⟩ : NmeaReader ℚ).holding (shortTime ++ [0x0A])) with
        fix := { (nmeaReaderInit 0 ⟨0, 0, 0⟩ : NmeaReader ℚ).fix with
          timestamp := 7 } }).1.fix.timestamp = 7 :=
  (timestamp_kept_iff 0 ⟨false, false, false, false⟩ ⟨0, 0, 0⟩
    ((nmeaReaderInit 0 ⟨0, 0, 0⟩ : NmeaReader ℚ).holding (shortTime ++ [0x0A])) shortTime
    (holding_holds _ (by decide)) .gga (by decide +kernel)).mpr (by decide +kernel)
    (by decide +kernel) 7

/-! ## Void fixes -/

/-- The sentences with a position. -/
inductive FixSentence where
  | gga
  | gll
  | rmc
  deriving DecidableEq, Repr

namespace FixSentence

def timed : FixSentence → TimedSentence
  | .gga => .gga
  | .gll => .gll
  | .rmc => .rmc

/-- The sentence declares that there is no valid fix. -/
def Void (k : FixSentence) (fs : List (List UInt8)) : Prop :=
  match k with
  | .gga => fs.getD 6 [] = [] ∨ fs.getD 6 [] = [0x30]
  | .gll => fs.getD 6 [] ≠ [0x41]
  | .rmc => fs.getD 2 [] ≠ [0x41]

/-- `nmea_reader_update_latlong` is called. -/
def Reaches (k : FixSentence) (fs : List (List UInt8)) : Prop :=
  match k with
  | .gga => True
  | .gll => (fs.getD 6 []).head? = some 0x41
  | .rmc => (fs.getD 2 []).head? = some 0x41

/-- The index of the latitude; its hemisphere, the longitude and its hemisphere follow. -/
def latitude : FixSentence → Nat
  | .gga => 2
  | .gll => 1
  | .rmc => 3

/-- `nmea_reader_update_latlong` is called and does not fail. -/
def TakesPosition (k : FixSentence) (fs : List (List UInt8)) : Prop :=
  k.Reaches fs ∧ 6 ≤ (fs.getD k.latitude []).length ∧ 6 ≤ (fs.getD (k.latitude + 2) []).length

/-- `nmea_reader_update_altitude` is called and does not fail. -/
def TakesAltitude (k : FixSentence) (fs : List (List UInt8)) : Prop :=
  k = .gga ∧ fs.getD 9 [] ≠ []

end FixSentence

/-- Neither the position nor the time stamp of a fix has changed, and no flag is gained. -/
structure KeepsPosition {D : Type} (fix : GpsLocation D) (p : NmeaReader D × List (Output D)) :
    Prop where
  latitude : p.1.fix.latitude = fix.latitude
  longitude : p.1.fix.longitude = fix.longitude
  altitude : p.1.fix.altitude = fix.altitude
  timestamp : p.1.fix.timestamp = fix.timestamp
  kept : ∀ g, g = .latLong ∨ g = .altitude → p.1.fix.has g = true → fix.has g = true
  delivered : ∀ fix', .location fix' ∈ p.2 → ∀ g, g = .latLong ∨ g = .altitude →
    fix'.has g = true → fix.has g = true

section Void

variable {D : Type} [CDouble D]

/-- The position that a sentence carries, in terms of its fields. -/
theorem sentenceUpdates_latLong (k : FixSentence) {t : List Token} {fs : List (List UInt8)}
    (hid : sentenceId (nmeaTokenizerGet t 0) = k.timed.id)
    (h : ∀ i < 10, LineToken (nmeaTokenizerGet t (i : Nat)) (fs.getD i [])) :
    (k.TakesPosition fs → (sentenceUpdates t .latLong : Option (List D)) =
      some [coordinate (nmeaTokenizerGet t k.latitude)
          (nmeaTokenizerGet t (k.latitude + 1 : Nat)).char0 0x53,
        coordinate (nmeaTokenizerGet t (k.latitude + 2 : Nat))
          (nmeaTokenizerGet t (k.latitude + 3 : Nat)).char0 0x57]) ∧
      (¬k.TakesPosition fs → (sentenceUpdates t .latLong : Option (List D)) = none) := by
  have hchar {i : Nat} (hi : i < 10) : (nmeaTokenizerGet t i).char0 = 0x41 ↔
      (fs.getD i []).head? = some 0x41 := (h i hi).char0_iff (by decide) (by decide)
  have hlen {i : Nat} (hi : i + 2 < 10) : (nmeaTokenizerGet t i).p + 6 ≤ (nmeaTokenizerGet t i).stop ∧
      (nmeaTokenizerGet t (i + 2 : Nat)).p + 6 ≤ (nmeaTokenizerGet t (i + 2 : Nat)).stop ↔
      6 ≤ (fs.getD i []).length ∧ 6 ≤ (fs.getD (i + 2) []).length :=
    and_congr ((h i (by omega)).length_iff 6) ((h (i + 2) hi).length_iff 6)
  rw [sentenceUpdates, hid]
  cases k with
  | gga =>
    have hlens := hlen (i := 2) (by decide)
    exact ⟨fun ht => if_pos (hlens.mpr ht.2), fun ht => if_neg fun h => ht ⟨trivial, hlens.mp h⟩⟩
  | gll =>
    have hlens := hlen (i := 1) (by decide)
    have hstatus := hchar (i := 6) (by decide)
    constructor
    · intro ht
      exact (if_pos (hstatus.mpr ht.1)).trans (if_pos (hlens.mpr ht.2))
    · intro ht
      show gllUpdates t .latLong = none
      unfold gllUpdates
      split
      case isTrue hc => exact if_neg fun h => ht ⟨hstatus.mp hc, hlens.mp h⟩
      case isFalse => rfl
  | rmc =>
    have hlens := hlen (i := 3) (by decide)
    have hstatus := hchar (i := 2) (by decide)
    constructor
    · intro ht
      exact (if_pos (hstatus.mpr ht.1)).trans (if_pos (hlens.mpr ht.2))
    · intro ht
      show rmcUpdates t .latLong = none
      unfold rmcUpdates
      split
      case isTrue hc => exact if_neg fun h => ht ⟨hstatus.mp hc, hlens.mp h⟩
      case isFalse => rfl

theorem sentenceUpdates_altitude (k : FixSentence) {t : List Token} {fs : List (List UInt8)}
    (hid : sentenceId (nmeaTokenizerGet t 0) = k.timed.id)
    (h : ∀ i < 10, LineToken (nmeaTokenizerGet t (i : Nat)) (fs.getD i [])) :
    (sentenceUpdates t .altitude : Option (List D)).isSome ↔ k.TakesAltitude fs := by
  rw [sentenceUpdates, hid]
  cases k with
  | gga =>
    have hlen : (nmeaTokenizerGet t 9).p < (nmeaTokenizerGet t 9).stop ↔ fs.getD 9 [] ≠ [] :=
      ((h 9 (by decide)).length_iff 1).trans List.length_pos_iff
    show ((altitudeUpdate (nmeaTokenizerGet t 9) .altitude : Option (List D)).or none).isSome ↔ _
    rw [Option.or_none, altitudeUpdate]
    split
    case isTrue hlt => exact iff_of_true rfl ⟨rfl, hlen.mp hlt⟩
    case isFalse hlt => exact iff_of_false Bool.false_ne_true fun h => hlt (hlen.mpr h.2)
  | gll =>
    refine iff_of_false ?_ fun ha => FixSentence.noConfusion ha.1
    show ¬(gllUpdates t .altitude : Option (List D)).isSome
    unfold gllUpdates
    split <;> exact Bool.false_ne_true
  | rmc =>
    refine iff_of_false ?_ fun ha => FixSentence.noConfusion ha.1
    show ¬(rmcUpdates t .altitude : Option (List D)).isSome
    unfold rmcUpdates
    split <;> exact Bool.false_ne_true

omit [CDouble D] in
/-- A flag is gained in the fix that is left if it is gained at all. -/
theorem KeepsPosition.has {fix fix' : GpsLocation D} {p : NmeaReader D × List (Output D)}
    (h : KeepsPosition fix p) (hleaves : LeavesFix p fix') {g : Group}
    (hg : g = .latLong ∨ g = .altitude) (hhas : fix'.has g = true) : fix.has g = true := by
  cases hleaves with
  | kept fix_eq =>
    apply h.kept g hg
    rw [fix_eq]
    exact hhas
  | handedOver _ mem => exact h.delivered fix' ((mem fix').mpr rfl) g hg hhas

omit [CDouble D] in
theorem LeavesFix.keepsPosition {fix fix' : GpsLocation D} {p : NmeaReader D × List (Output D)}
    (h : LeavesFix p fix') (hvalue : fix'.value .latLong = fix.value .latLong)
    (haltitude : fix'.value .altitude = fix.value .altitude)
    (hstamp : fix'.timestamp = fix.timestamp)
    (hhas : ∀ g, g = .latLong ∨ g = .altitude → fix'.has g = true → fix.has g = true) :
    KeepsPosition fix p := by
  obtain ⟨hlat, hlon⟩ := List.cons_eq_cons.mp hvalue
  have hlon := List.singleton_inj.mp hlon
  have halt := List.singleton_inj.mp haltitude
  cases h with
  | kept fix_eq quiet =>
    refine ⟨?_, ?_, ?_, ?_, ?_, fun fix'' hmem => absurd hmem (quiet fix'')⟩ <;> rw [fix_eq]
    · exact hlat
    · exact hlon
    · exact halt
    · exact hstamp
    · exact hhas
  | handedOver fix_eq mem =>
    refine ⟨?_, ?_, ?_, ?_, ?_, fun fix'' hmem => (mem fix'').mp hmem ▸ hhas⟩ <;> rw [fix_eq]
    · exact hlat
    · exact hlon
    · exact halt
    · exact hstamp
    · intro g _ hzero
      cases g <;> cases hzero

/-- A sentence without a valid fix keeps the position of every fix if and only if nothing is taken
from it. -/
theorem void_iff (zone : Int) (cbs : GpsCallbacks) (clk : Clock) (r : NmeaReader D) (w : List UInt8)
    (h : Holds r (w ++ [0x0A])) (k : FixSentence)
    (hid : slice ((fields (w ++ [0x0A])).getD 0 []) 2 5 = k.timed.id) :
    let fs := fields (w ++ [0x0A])
    (k.Void fs → ∀ fix, KeepsPosition fix (nmeaReaderParse zone cbs clk { r with fix := fix })) ↔
      (k.Void fs → ¬k.timed.TakesTime fs ∧ ¬k.TakesPosition fs ∧ ¬k.TakesAltitude fs) := by
  intro fs
  apply forall_congr'
  intro _
  obtain ⟨v, hv⟩ := line_leaves zone cbs clk h k.timed hid
  obtain ⟨-, hsid, htoken⟩ := k.timed.line_tokens h hid
  have hposition := sentenceUpdates_latLong (D := D) k hsid htoken
  have haltitude := sentenceUpdates_altitude (D := D) k hsid htoken
  constructor
  · intro hlaw
    refine ⟨fun ht => ?_, fun hp => ?_, fun ha => ?_⟩
    · obtain ⟨fix', hleaves, -, hstamp⟩ := hv { r.fix with timestamp := v + 1 }
      rw [if_pos ht, ← hleaves.timestamp, (hlaw _).timestamp] at hstamp
      exact absurd (show v + 1 = v from hstamp) (by omega)
    · obtain ⟨fix', hleaves, hupdated, -⟩ := hv { r.fix with flags := .zero }
      have hhas := (hupdated .latLong).1
      rw [hposition.1 hp, Option.isSome_some, Bool.or_true] at hhas
      cases (hlaw _).has hleaves (.inl rfl) hhas
    · obtain ⟨fix', hleaves, hupdated, -⟩ := hv { r.fix with flags := .zero }
      have hhas := (hupdated .altitude).1
      rw [haltitude.mpr ha, Bool.or_true] at hhas
      cases (hlaw _).has hleaves (.inr rfl) hhas
  · rintro ⟨ht, hp, ha⟩ fix
    obtain ⟨fix', hleaves, hupdated, hstamp⟩ := hv fix
    have halt : (sentenceUpdates (lineTokens r) .altitude : Option (List D)) = none :=
      Option.not_isSome_iff_eq_none.mp fun h => ha (haltitude.mp h)
    rw [if_neg ht] at hstamp
    apply hleaves.keepsPosition _ _ hstamp
    · rintro g (rfl | rfl) hhas
      · rw [(hupdated .latLong).1, hposition.2 hp, Option.isSome_none, Bool.or_false] at hhas
        exact hhas
      · rw [(hupdated .altitude).1, halt, Option.isSome_none, Bool.or_false] at hhas
        exact hhas
    · rw [(hupdated .latLong).2, hposition.2 hp, Option.getD_none]
    · rw [(hupdated .altitude).2, halt, Option.getD_none]

/-- Fix quality 0 with everything else filled in. -/
def voidGga : List UInt8 :=
  ascii ['$', 'G', 'P', 'G', 'G', 'A', ',', '1', '2', '3', '5', '1', '9', ',', '4', '8', '0', '7', '.',
    '0', ',', 'N', ',', '0', '1', '1', '3', '1', '.', '0', ',', 'E', ',', '0', ',', ',', ',', '5', '4',
    '5', ',', 'M', ',']

def voidGgaReader : NmeaReader ℚ := (nmeaReaderInit 0 ⟨0, 0, 0⟩).holding (voidGga ++ [0x0A])

theorem not_keepsPosition_voidGga :
    Holds voidGgaReader (voidGga ++ [0x0A]) ∧
      slice ((fields (voidGga ++ [0x0A])).getD 0 []) 2 5 = FixSentence.gga.timed.id ∧
      FixSentence.gga.Void (fields (voidGga ++ [0x0A])) ∧
      ¬KeepsPosition voidGgaReader.fix
        (nmeaReaderParse 0 ⟨false, false, false, false⟩ ⟨0, 0, 0⟩ voidGgaReader) := by
  refine ⟨holding_holds _ (by decide), by decide +kernel, .inr (by decide +kernel), fun h => ?_⟩
  have hlatitude := h.latitude
  revert hlatitude
  decide +kernel

/-- A void GLL sentence with the same fields. -/
def voidGll : List UInt8 :=
  ascii ['$', 'G', 'P', 'G', 'L', 'L', ',', '4', '8', '0', '7', '.', '0', ',', 'N', ',', '0', '1', '1',
    '3', '1', '.', '0', ',', 'E', ',', '1', '2', '3', '5', '1', '9', ',', 'V', ',']

theorem keepsPosition_voidGll :
    KeepsPosition (zeroReader : NmeaReader ℚ).fix
      (nmeaReaderParse 0 ⟨false, false, false, false⟩ ⟨0, 0, 0⟩
        { ((nmeaReaderInit 0 ⟨0, 0, 0⟩ : NmeaReader ℚ).holding (voidGll ++ [0x0A])) with
          fix := (zeroReader : NmeaReader ℚ).fix }) :=
  (void_iff 0 ⟨false, false, false, false⟩ ⟨0, 0, 0⟩
    ((nmeaReaderInit 0 ⟨0, 0, 0⟩ : NmeaReader ℚ).holding (voidGll ++ [0x0A])) voidGll
    (holding_holds _ (by decide)) .gll (by decide +kernel)).mpr
    (fun _ => ⟨by decide +kernel, fun h => absurd h.1 (show _ ≠ _ by decide +kernel),
      fun h => nomatch h.1⟩)
    (show _ ≠ _ by decide +kernel) (zeroReader : NmeaReader ℚ).fix

end Void

end HeadUnit.Gps
