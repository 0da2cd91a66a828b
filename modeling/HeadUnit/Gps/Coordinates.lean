import HeadUnit.Gps.FixSentences

/-!
# Coordinates

`nmea_reader_update_latlong` checks the length of its fields only, and `str2float` gives up on what
does not fit into its buffer. In exact arithmetic a position is right if and only if both fields are
numerals that fit, or zero (`coordinates_iff`).
-/

namespace HeadUnit.Gps

open Decimal

/-! ## One coordinate -/

/-- `x` is `d + m / 60` for the numeral `100 * d + m`, negated in the hemisphere `neg`. -/
def IsCoordinate (f hemi : List UInt8) (neg : UInt8) (x : ℚ) : Prop :=
  ∃ (d : Int) (m : ℚ), value f = 100 * d + m ∧ 0 ≤ m ∧ m < 100 ∧
    x = if hemi.head? = some neg then -(d + m / 60) else d + m / 60

/-- Degrees and minutes of a value. -/
def degrees (v : ℚ) : ℚ := (⌊v / 100⌋ : Int) + (v - 100 * (⌊v / 100⌋ : Int)) / 60

theorem floor_hundredth (v : ℚ) : 100 * (⌊v / 100⌋ : ℚ) ≤ v ∧ v < 100 * (⌊v / 100⌋ : ℚ) + 100 := by
  have hle := Int.floor_le (v / 100)
  have hlt := Int.lt_floor_add_one (v / 100)
  constructor
  · linarith
  · linarith

/-- Degrees and minutes are determined by the numeral. -/
theorem isCoordinate_iff {f hemi : List UInt8} {neg : UInt8} {x : ℚ} :
    IsCoordinate f hemi neg x ↔
      x = if hemi.head? = some neg then -degrees (value f) else degrees (value f) := by
  constructor
  · rintro ⟨d, m, hvalue, hm, hm', rfl⟩
    have hd : ⌊value f / 100⌋ = d := by
      rw [Int.floor_eq_iff, hvalue]
      constructor <;> linarith
    have hminutes : value f - 100 * (d : ℚ) = m := by
      rw [hvalue]
      ring
    rw [degrees, hd, hminutes]
  · rintro rfl
    obtain ⟨hlo, hhi⟩ := floor_hundredth (value f)
    exact ⟨⌊value f / 100⌋, value f - 100 * (⌊value f / 100⌋ : Int), by ring, by linarith,
      by linarith, rfl⟩

theorem degrees_eq_zero {v : ℚ} (hv : 0 ≤ v) (h : degrees v = 0) : v = 0 := by
  obtain ⟨hlo, hhi⟩ := floor_hundredth v
  have hd : (0 : ℚ) ≤ (⌊v / 100⌋ : Int) := Int.cast_nonneg (Int.floor_nonneg.mpr (by positivity))
  rw [degrees] at h
  have hsum : 60 * (⌊v / 100⌋ : ℚ) + (v - 100 * (⌊v / 100⌋ : ℚ)) = 0 := by linarith
  linarith

/-! ## What the code computes -/

theorem trunc_nonneg {q : ℚ} (h : 0 ≤ q) : trunc q = ⌊q⌋ := if_pos h

/-- `convert_from_hhmm` with what the cast to `int` returns. -/
theorem convertFromHhmm_eq (cast : CIntCast) {tok : Token} {v : ℚ}
    (h : @str2float ℚ cast.double tok.mem tok.p tok.stop = v) :
    @convertFromHhmm ℚ cast.double tok =
      (cast.toInt ((⌊v⌋ : Int) / (100 : Int)) : ℚ) +
        (v - (cast.toInt ((⌊v⌋ : Int) / (100 : Int)) : ℚ) * (100 : Int)) / (60 : Int) := by
  unfold convertFromHhmm
  rw [h]
  rfl

theorem floor_floor_hundredth (v : ℚ) : ⌊((⌊v⌋ : Int) : ℚ) / (100 : Int)⌋ = ⌊v / 100⌋ := by
  have h := Int.floor_div_natCast v 100
  have h' := Int.floor_div_natCast ((⌊v⌋ : Int) : ℚ) 100
  rw [Int.floor_intCast, ← h] at h'
  exact_mod_cast h'

theorem trunc_hundredth {v : ℚ} (hv : 0 ≤ v) :
    trunc ((⌊v⌋ : Int) / (100 : Int)) = ⌊v / 100⌋ := by
  have hfloor : (0 : ℚ) ≤ (⌊v⌋ : Int) := Int.cast_nonneg (Int.floor_nonneg.mpr hv)
  rw [trunc_nonneg (by positivity), floor_floor_hundredth]

/-- In range, degrees and minutes are right. -/
theorem convertFromHhmm_inRange (cast : CIntCast) {tok : Token} {v : ℚ} (hv : 0 ≤ v)
    (hlt : v < 100 * 2 ^ 31) (h : @str2float ℚ cast.double tok.mem tok.p tok.stop = v) :
    @convertFromHhmm ℚ cast.double tok = degrees v := by
  have hdegrees : ⌊v / 100⌋ < 2 ^ 31 := by
    rw [Int.floor_lt, div_lt_iff₀ (by norm_num)]
    push_cast
    linarith
  have hnn : 0 ≤ ⌊v / 100⌋ := Int.floor_nonneg.mpr (by positivity)
  have hcast : cast.toInt ((⌊v⌋ : Int) / (100 : Int)) = ⌊v / 100⌋ := by
    have htrunc := trunc_hundredth hv
    rw [cast.inRange _ (by omega) (by omega), htrunc]
  rw [convertFromHhmm_eq cast h, hcast, degrees]
  push_cast
  ring

/-- What stands for a cast out of range. -/
def wrongCast : CIntCast where
  toInt q := if -2 ^ 31 ≤ trunc q ∧ trunc q < 2 ^ 31 then trunc q else trunc q + 1
  inRange _ hlo hhi := if_pos ⟨hlo, hhi⟩

theorem convertFromHhmm_wrong {tok : Token} {v : ℚ} (hge : 100 * 2 ^ 31 ≤ v)
    (h : @str2float ℚ wrongCast.double tok.mem tok.p tok.stop = v) :
    @convertFromHhmm ℚ wrongCast.double tok ≠ degrees v := by
  have hdegrees : 2 ^ 31 ≤ ⌊v / 100⌋ := by
    rw [Int.le_floor, le_div_iff₀ (by norm_num)]
    push_cast
    linarith
  have hcast : wrongCast.toInt ((⌊v⌋ : Int) / (100 : Int)) = ⌊v / 100⌋ + 1 := by
    have htrunc := trunc_hundredth (v := v) (by linarith)
    rw [← htrunc]
    exact if_neg fun hrange => absurd hrange.2 (by omega)
  rw [convertFromHhmm_eq wrongCast h, hcast, degrees]
  push_cast
  intro heq
  linarith

/-! ## Fields -/

theorem IsSeparator.endsNumber {b : UInt8} (h : IsSeparator b) : EndsNumber b := by
  rcases h with rfl | rfl | rfl | rfl <;> decide

theorem IsSeparator.ne_nul {b : UInt8} (h : IsSeparator b) : b ≠ 0 := by
  rcases h with rfl | rfl | rfl | rfl <;> decide

/-- A numeral is read if it fits. -/
theorem LineToken.str2float_numeral (cast : CIntCast) {tok : Token} {f : List UInt8}
    (h : LineToken tok f) (hf : IsNumeral f) :
    @str2float ℚ cast.double tok.mem tok.p tok.stop = if f.length ≤ 30 then value f else 0 := by
  have hstop := h.stop_eq
  have hne : f ≠ [] := by
    rintro rfl
    exact hf.1 rfl
  obtain ⟨hlt, hsep⟩ := h.stop_lt hne
  split
  case isTrue hlen =>
    have hslice : slice tok.mem tok.p tok.stop = f := by
      have hwhole := h.spells.slice_eq (Nat.zero_le _) (Nat.le_refl f.length)
      rw [Nat.add_zero, ← hstop, slice_zero, List.take_length] at hwhole
      exact hwhole
    have hread := @str2float_eq ℚ cast.double tok.mem tok.p tok.stop (by omega) hlt (by omega)
      (hslice ▸ hf.ne_nul) hsep.ne_nul
    rw [hread, hslice]
    exact strtod_numeral hf hsep.endsNumber
  case isFalse hlen =>
    unfold str2float
    rw [if_neg (by omega), if_pos (by omega)]
    exact Int.cast_zero

/-- A numeral that the code reads right, whatever a cast out of range does. -/
def Readable (f : List UInt8) : Prop :=
  IsNumeral f ∧ (value f = 0 ∨ f.length ≤ 30 ∧ value f < 100 * 2 ^ 31)

instance (f : List UInt8) : Decidable (Readable f) := inferInstanceAs (Decidable (_ ∧ (_ ∨ _ ∧ _)))

theorem Readable.convert {f : List UInt8} (hf : Readable f) (cast : CIntCast) {tok : Token}
    (h : LineToken tok f) : @convertFromHhmm ℚ cast.double tok = degrees (value f) := by
  have hread := h.str2float_numeral cast hf.1
  rcases hf.2 with hzero | ⟨hlen, hlt⟩
  · rw [hzero, ite_self] at hread
    rw [hzero]
    exact convertFromHhmm_inRange cast (le_refl 0) (by norm_num) hread
  · rw [if_pos hlen] at hread
    exact convertFromHhmm_inRange cast (value_nonneg f) hlt hread

theorem readable_of_convert {tok : Token} {f : List UInt8} (h : LineToken tok f) (hf : IsNumeral f)
    (hconvert : @convertFromHhmm ℚ wrongCast.double tok = degrees (value f)) : Readable f := by
  refine ⟨hf, ?_⟩
  have hread := h.str2float_numeral wrongCast hf
  by_cases hlen : f.length ≤ 30
  · rw [if_pos hlen] at hread
    refine .inr ⟨hlen, ?_⟩
    by_contra hge
    exact convertFromHhmm_wrong (le_of_not_gt hge) hread hconvert
  · rw [if_neg hlen] at hread
    have hzero := convertFromHhmm_inRange wrongCast (le_refl 0) (by norm_num) hread
    have hdegrees : degrees 0 = 0 := by simp [degrees]
    rw [hzero, hdegrees] at hconvert
    exact .inl (degrees_eq_zero (value_nonneg f) hconvert.symm)

/-! ## Sentences -/

namespace FixSentence

def latitudeField (k : FixSentence) (fs : List (List UInt8)) : List UInt8 := fs.getD k.latitude []

def latitudeHemi (k : FixSentence) (fs : List (List UInt8)) : List UInt8 :=
  fs.getD (k.latitude + 1) []

def longitudeField (k : FixSentence) (fs : List (List UInt8)) : List UInt8 :=
  fs.getD (k.latitude + 2) []

def longitudeHemi (k : FixSentence) (fs : List (List UInt8)) : List UInt8 :=
  fs.getD (k.latitude + 3) []

/-- Both coordinates are numerals of at least six characters. -/
structure Located (k : FixSentence) (fs : List (List UInt8)) : Prop where
  latitude_length : 6 ≤ (k.latitudeField fs).length
  longitude_length : 6 ≤ (k.longitudeField fs).length
  latitude : IsNumeral (k.latitudeField fs)
  longitude : IsNumeral (k.longitudeField fs)

end FixSentence

/-- What a sentence has to make of the position of a fix. -/
structure PositionRule (k : FixSentence) (fs : List (List UInt8)) (fix fix' : GpsLocation ℚ) :
    Prop where
  latitude : k.Located fs →
    IsCoordinate (k.latitudeField fs) (k.latitudeHemi fs) 0x53 fix'.latitude
  longitude : k.Located fs →
    IsCoordinate (k.longitudeField fs) (k.longitudeHemi fs) 0x57 fix'.longitude
  has : k.Located fs → fix'.flags.latLong = true
  unchanged : ¬k.Located fs → fix'.latitude = fix.latitude ∧ fix'.longitude = fix.longitude ∧
    fix'.flags.latLong = fix.flags.latLong

/-- The coordinates of the tokens, in exact arithmetic. -/
theorem coordinate_eq_iff (cast : CIntCast) {tok hemi : Token} {f g : List UInt8} {neg : UInt8}
    (hg : LineToken hemi g) (hneg : ¬IsSeparator neg) (h0 : neg ≠ 0) :
    IsCoordinate f g neg (@coordinate ℚ cast.double tok hemi.char0 neg) ↔
      @convertFromHhmm ℚ cast.double tok = degrees (value f) := by
  have hchar := hg.char0_iff hneg h0
  rw [isCoordinate_iff]
  unfold coordinate
  by_cases hc : hemi.char0 = neg
  · rw [if_pos hc, if_pos (hchar.mp hc)]
    exact neg_inj
  · rw [if_neg hc, if_neg fun h => hc (hchar.mpr h)]

/-- What a line in the buffer makes of the position. -/
theorem line_position {D : Type} [CDouble D] (zone : Int) (cbs : GpsCallbacks) (clk : Clock)
    {r : NmeaReader D} {w : List UInt8} (h : Holds r (w ++ [0x0A])) (k : FixSentence)
    (hid : slice ((fields (w ++ [0x0A])).getD 0 []) 2 5 = k.timed.id) (fix : GpsLocation D) :
    ∃ fix', LeavesFix (nmeaReaderParse zone cbs clk { r with fix := fix }) fix' ∧
      (k.TakesPosition (fields (w ++ [0x0A])) → fix'.flags.latLong = true ∧
        fix'.latitude = coordinate (nmeaTokenizerGet (lineTokens r) k.latitude)
          (nmeaTokenizerGet (lineTokens r) (k.latitude + 1 : Nat)).char0 0x53 ∧
        fix'.longitude = coordinate (nmeaTokenizerGet (lineTokens r) (k.latitude + 2 : Nat))
          (nmeaTokenizerGet (lineTokens r) (k.latitude + 3 : Nat)).char0 0x57) ∧
      (¬k.TakesPosition (fields (w ++ [0x0A])) → fix'.latitude = fix.latitude ∧
        fix'.longitude = fix.longitude ∧ fix'.flags.latLong = fix.flags.latLong) := by
  obtain ⟨-, hsid, htoken⟩ := k.timed.line_tokens h hid
  have hposition := sentenceUpdates_latLong (D := D) k hsid htoken
  obtain ⟨v, hv⟩ := line_leaves zone cbs clk h k.timed hid
  obtain ⟨fix', hleaves, hupdated, -⟩ := hv fix
  obtain ⟨hhas, hvalue⟩ := hupdated .latLong
  refine ⟨fix', hleaves, fun hp => ?_, fun hnot => ?_⟩
  · rw [hposition.1 hp] at hhas hvalue
    rw [Option.isSome_some, Bool.or_true] at hhas
    obtain ⟨hlatitude, hlongitude⟩ := List.cons_eq_cons.mp hvalue
    exact ⟨hhas, hlatitude, List.singleton_inj.mp hlongitude⟩
  · rw [hposition.2 hnot] at hhas hvalue
    rw [Option.isSome_none, Bool.or_false] at hhas
    obtain ⟨hlatitude, hlongitude⟩ := List.cons_eq_cons.mp hvalue
    exact ⟨hlatitude, List.singleton_inj.mp hlongitude, hhas⟩

/-- With a cast to `int` that may do anything out of range, a sentence does the right thing with
every fix if and only if a coordinate is too short or both are readable numerals. -/
theorem coordinates_iff (zone : Int) (cbs : GpsCallbacks) (clk : Clock) (r : NmeaReader ℚ)
    (w : List UInt8) (h : Holds r (w ++ [0x0A])) (k : FixSentence)
    (hid : slice ((fields (w ++ [0x0A])).getD 0 []) 2 5 = k.timed.id)
    (hreach : k.Reaches (fields (w ++ [0x0A]))) :
    let fs := fields (w ++ [0x0A])
    (∀ (cast : CIntCast) (fix : GpsLocation ℚ), ∃ fix',
        LeavesFix (@nmeaReaderParse ℚ cast.double zone cbs clk { r with fix := fix }) fix' ∧
          PositionRule k fs fix fix') ↔
      (6 ≤ (k.latitudeField fs).length → 6 ≤ (k.longitudeField fs).length →
        Readable (k.latitudeField fs) ∧ Readable (k.longitudeField fs)) := by
  intro fs
  obtain ⟨-, -, htoken⟩ := k.timed.line_tokens h hid
  have hlt : k.latitude + 3 < 10 := by cases k <;> decide
  have hlat := htoken k.latitude (by omega)
  have hlatHemi := htoken (k.latitude + 1) (by omega)
  have hlon := htoken (k.latitude + 2) (by omega)
  have hlonHemi := htoken (k.latitude + 3) hlt
  have hline (cast : CIntCast) := @line_position ℚ cast.double zone cbs clk r w h k hid
  constructor
  · intro hlaw hlat6 hlon6
    obtain ⟨fix', hleaves, htaken, -⟩ := hline wrongCast { r.fix with flags := .zero }
    obtain ⟨hhas, hlatitude, hlongitude⟩ := htaken ⟨hreach, hlat6, hlon6⟩
    obtain ⟨fix'', hleaves', hrule⟩ := hlaw wrongCast { r.fix with flags := .zero }
    obtain rfl := hleaves.unique hleaves'
    have hlocated : k.Located fs := by
      by_contra hnot
      rw [(hrule.unchanged hnot).2.2] at hhas
      cases hhas
    have hlatRule := hrule.latitude hlocated
    have hlonRule := hrule.longitude hlocated
    rw [hlatitude, FixSentence.latitudeHemi,
      coordinate_eq_iff wrongCast hlatHemi (by decide) (by decide)] at hlatRule
    rw [hlongitude, FixSentence.longitudeHemi,
      coordinate_eq_iff wrongCast hlonHemi (by decide) (by decide)] at hlonRule
    exact ⟨readable_of_convert hlat hlocated.latitude hlatRule,
      readable_of_convert hlon hlocated.longitude hlonRule⟩
  · intro hreadable cast fix
    obtain ⟨fix', hleaves, htaken, hkept⟩ := hline cast fix
    refine ⟨fix', hleaves, ?_⟩
    by_cases hlens : 6 ≤ (k.latitudeField fs).length ∧ 6 ≤ (k.longitudeField fs).length
    · obtain ⟨hlatRead, hlonRead⟩ := hreadable hlens.1 hlens.2
      obtain ⟨hhas, hlatitude, hlongitude⟩ := htaken ⟨hreach, hlens⟩
      refine ⟨fun _ => ?_, fun _ => ?_, fun _ => hhas, fun hnot => ?_⟩
      · rw [hlatitude, FixSentence.latitudeHemi,
          coordinate_eq_iff cast hlatHemi (by decide) (by decide)]
        exact hlatRead.convert cast hlat
      · rw [hlongitude, FixSentence.longitudeHemi,
          coordinate_eq_iff cast hlonHemi (by decide) (by decide)]
        exact hlonRead.convert cast hlon
      · exact absurd ⟨hlens.1, hlens.2, hlatRead.1, hlonRead.1⟩ hnot
    · have hnot : ¬k.Located fs := fun h => hlens ⟨h.latitude_length, h.longitude_length⟩
      exact ⟨fun h => absurd h hnot, fun h => absurd h hnot, fun h => absurd h hnot,
        fun _ => hkept fun hp => hlens hp.2⟩

/-- The cast that truncates without a bound. -/
def exactCast : CIntCast := ⟨trunc, fun _ _ _ => rfl⟩

/-- A latitude that is no number. -/
def badLatitude : List UInt8 :=
  ascii ['$', 'G', 'P', 'G', 'G', 'A', ',', ',', 'a', 'b', 'c', 'd', 'e', 'f', ',', 'N', ',', '0', '1',
    '1', '3', '1', '.', '0', ',', 'E', ',']

def badLatitudeReader : NmeaReader ℚ := (nmeaReaderInit 0 ⟨0, 0, 0⟩).holding (badLatitude ++ [0x0A])

theorem not_positionRule_badLatitude :
    Holds badLatitudeReader (badLatitude ++ [0x0A]) ∧
      slice ((fields (badLatitude ++ [0x0A])).getD 0 []) 2 5 = FixSentence.gga.timed.id ∧
      ¬∃ fix', LeavesFix (@nmeaReaderParse ℚ exactCast.double 0 ⟨false, false, false, false⟩
          ⟨0, 0, 0⟩ badLatitudeReader) fix' ∧
        PositionRule .gga (fields (badLatitude ++ [0x0A])) badLatitudeReader.fix fix' := by
  refine ⟨holding_holds _ (by decide), by decide +kernel, ?_⟩
  rintro ⟨fix', hleaves, hrule⟩
  have hnot : ¬FixSentence.gga.Located (fields (badLatitude ++ [0x0A])) :=
    fun h => absurd h.latitude (by decide +kernel)
  have hhas := (hrule.unchanged hnot).2.2
  cases hleaves with
  | kept fix_eq =>
    rw [← fix_eq] at hhas
    revert hhas
    decide +kernel
  | handedOver _ mem =>
    have hquiet : ((@nmeaReaderParse ℚ exactCast.double 0 ⟨false, false, false, false⟩
        ⟨0, 0, 0⟩ badLatitudeReader).2.all fun o => !o.isLocation) = true := by
      decide +kernel
    have hlocation := List.all_eq_true.mp hquiet _ ((mem fix').mpr rfl)
    cases hlocation

/-- Munich. -/
def goodGga : List UInt8 :=
  ascii ['$', 'G', 'P', 'G', 'G', 'A', ',', ',', '4', '8', '0', '7', '.', '0', '3', '8', ',', 'N', ',',
    '0', '1', '1', '3', '1', '.', '0', ',', 'E', ',']

theorem coordinates_goodGga :
    ∃ fix', LeavesFix (@nmeaReaderParse ℚ exactCast.double 0 ⟨false, false, false, false⟩ ⟨0, 0, 0⟩
        { ((zeroReader : NmeaReader ℚ).holding (goodGga ++ [0x0A])) with
          fix := (zeroReader : NmeaReader ℚ).fix }) fix' ∧
      PositionRule .gga (fields (goodGga ++ [0x0A])) (zeroReader : NmeaReader ℚ).fix fix' :=
  (coordinates_iff 0 ⟨false, false, false, false⟩ ⟨0, 0, 0⟩
    ((zeroReader : NmeaReader ℚ).holding (goodGga ++ [0x0A])) goodGga
    (holding_holds _ (by decide)) .gga (by decide +kernel) trivial).mpr
    (fun _ _ => by decide +kernel) exactCast (zeroReader : NmeaReader ℚ).fix

end HeadUnit.Gps
