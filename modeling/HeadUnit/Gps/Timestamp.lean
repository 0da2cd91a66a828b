import HeadUnit.Gps.Sentences
import HeadUnit.Gps.UtcDiff

/-!
# Time stamps

`nmea_reader_update_time` takes the UTC time of a sentence for local time, so that `mktime` is off
by the offset of the zone, and adds `utc_diff`, which is minus that offset: the time stamp is off by
twice the offset (`parse_timestamp`). `athr_gps.c` subtracts the same `utc_diff`.
-/

namespace HeadUnit.Gps

open Calendar

/-! ## Date and time in a sentence -/

/-- Two digits. -/
structure TwoDigits where
  tens : UInt8
  units : UInt8
  tens_digit : IsDigit tens
  units_digit : IsDigit units

namespace TwoDigits

def bytes (d : TwoDigits) : List UInt8 := [d.tens, d.units]

def value (d : TwoDigits) : Nat := decVal d.bytes

theorem readInt_bytes (d : TwoDigits) : readInt d.bytes = d.value := by
  refine readInt_digits (List.cons_ne_nil _ _) ?_ (Nat.le_add_right 2 7)
  intro c hc
  rcases List.mem_cons.mp hc with rfl | hc
  · exact d.tens_digit
  · rw [List.mem_singleton.mp hc]
    exact d.units_digit

end TwoDigits

/-- A date `ddmmyy` of this century and a time `hhmmss[.fff]`. -/
structure RmcTime where
  hour : TwoDigits
  minute : TwoDigits
  second : TwoDigits
  frac : List UInt8
  day : TwoDigits
  month : TwoDigits
  year : TwoDigits
  isFraction : IsFraction frac
  valid : Valid
    { sec := second.value
      min := minute.value
      hour := hour.value
      mday := day.value
      mon := month.value - 1
      year := year.value + 100
      yday := 0 }

namespace RmcTime

variable (s : RmcTime)

def time : List UInt8 := s.hour.bytes ++ s.minute.bytes ++ s.second.bytes ++ s.frac

def date : List UInt8 := s.day.bytes ++ s.month.bytes ++ s.year.bytes

def tm : Tm where
  sec := s.second.value
  min := s.minute.value
  hour := s.hour.value
  mday := s.day.value
  mon := s.month.value - 1
  year := s.year.value + 100
  yday := 0

/-- The second since 1970 that date and time denote in UTC. -/
def epoch : Int := timegm s.tm

theorem frac_length : s.frac.length ≤ 4 := by
  rcases s.isFraction with h | ⟨ds, h, hlen, -⟩
  · rw [h]
    exact Nat.zero_le 4
  · rw [h, List.length_cons]
    omega

theorem seconds_ne_nul : ∀ b ∈ s.second.bytes ++ s.frac, b ≠ 0 := by
  have hdigit {b : UInt8} (hb : IsDigit b) : b ≠ 0 := by
    rintro rfl
    exact absurd hb.1 (by decide)
  intro b hb
  rcases List.mem_append.mp hb with hb | hb
  · rcases List.mem_cons.mp hb with rfl | hb
    · exact hdigit s.second.tens_digit
    · rw [List.mem_singleton.mp hb]
      exact hdigit s.second.units_digit
  · rcases s.isFraction with h | ⟨ds, h, -, hds⟩
    · rw [h] at hb
      cases hb
    · rw [h] at hb
      rcases List.mem_cons.mp hb with rfl | hb
      · decide
      · exact hdigit (hds b hb)

/-- `text` is an RMC sentence with status `A`, this date and this time. -/
structure SpelledBy (text : List UInt8) : Prop where
  id : slice ((fields text).getD 0 []) 2 5 = ascii ['R', 'M', 'C']
  time : (fields text).getD 1 [] = s.time
  status : ((fields text).getD 2 []).head? = some 0x41
  date : (fields text).getD 9 [] = s.date

end RmcTime

/-! ## The time stamp of a sentence -/

variable {D : Type} [CDouble D]

/-- The seconds of a time, read together with the comma behind it. -/
theorem seconds_eq {mem : List UInt8} {tok : Token} {s : RmcTime} (htok : Spells mem tok s.time)
    (hcomma : mem.getD tok.stop 0 = 0x2C) :
    CDouble.toInt (str2float tok.mem (tok.p + 4) tok.stop : D) = s.second.value := by
  have hstop := htok.stop_eq
  have hlen : s.time.length = 6 + s.frac.length := by
    simp [RmcTime.time, TwoDigits.bytes]
    omega
  have hfrac := s.frac_length
  have hmem : tok.mem = mem := by
    cases htok with
    | token mem_eq => exact mem_eq
    | dummy tok_eq empty =>
      rw [empty] at hlen
      simp at hlen
      omega
  have hbound : tok.stop < tok.mem.length := by
    by_contra h
    rw [← hmem, List.getD_eq_default _ _ (Nat.not_lt.mp h)] at hcomma
    cases hcomma
  have hslice : slice tok.mem (tok.p + 4) tok.stop = s.second.bytes ++ s.frac := by
    have h := htok.slice_eq (by omega : 4 ≤ s.time.length) (Nat.le_refl _)
    rw [← hstop] at h
    rw [h]
    exact List.take_of_length_le (by simp [RmcTime.time, TwoDigits.bytes])
  have hnul : ∀ b ∈ slice tok.mem (tok.p + 4) tok.stop, b ≠ 0 := by
    rw [hslice]
    exact s.seconds_ne_nul
  rw [← hmem] at hcomma
  rw [str2float_eq (by omega) hbound (by omega) hnul (by rw [hcomma]; decide), hslice, hcomma]
  exact CDouble.toInt_strtod _ _ _ _ s.second.tens_digit s.second.units_digit s.isFraction
    (by decide)

/-- `nmea_reader_update_time` on the time of a sentence, when a date is known. -/
theorem updateTime_timestamp (zone : Int) (clk : Clock) {r : NmeaReader D} (hyear : 0 ≤ r.utcYear)
    {mem : List UInt8} {tok : Token} {s : RmcTime} (htok : Spells mem tok s.time)
    (hcomma : mem.getD tok.stop 0 = 0x2C) :
    (nmeaReaderUpdateTime zone clk r tok).1.fix.timestamp =
      (mktime zone { s.tm with
        year := r.utcYear - 1900
        mon := r.utcMon - 1
        mday := r.utcDay } + r.utcDiff) * 1000 := by
  have hlen : 6 ≤ s.time.length := by simp [RmcTime.time, TwoDigits.bytes]
  have hstop := htok.stop_eq
  have hhour : str2int tok.mem tok.p (tok.p + 2) = s.hour.value :=
    (htok.str2int_eq (Nat.zero_le 2) (by omega)).trans s.hour.readInt_bytes
  have hminute : str2int tok.mem (tok.p + 2) (tok.p + 4) = s.minute.value :=
    (htok.str2int_eq (by omega) (by omega)).trans s.minute.readInt_bytes
  rw [nmeaReaderUpdateTime, if_neg (by omega)]
  simp only [if_neg (Int.not_lt.mpr hyear), hhour, hminute, seconds_eq htok hcomma]
  rfl

theorem updateDate_timestamp (zone : Int) (clk : Clock) (r : NmeaReader D) {mem : List UInt8}
    {date time : Token} {s : RmcTime} (hdate : Spells mem date s.date)
    (htime : Spells mem time s.time) (hcomma : mem.getD time.stop 0 = 0x2C) :
    (nmeaReaderUpdateDate zone clk r date time).1.fix.timestamp =
      (mktime zone s.tm + r.utcDiff) * 1000 := by
  have hstop : date.stop = date.p + 6 := hdate.stop_eq
  have hlen : s.date.length = 6 := rfl
  have hday : str2int date.mem date.p (date.p + 2) = s.day.value :=
    (hdate.str2int_eq (Nat.zero_le 2) (by omega)).trans s.day.readInt_bytes
  have hmonth : str2int date.mem (date.p + 2) (date.p + 4) = s.month.value :=
    (hdate.str2int_eq (by omega) (by omega)).trans s.month.readInt_bytes
  have hyear : str2int date.mem (date.p + 4) (date.p + 6) = s.year.value :=
    (hdate.str2int_eq (by omega) (by omega)).trans s.year.readInt_bytes
  rw [nmeaReaderUpdateDate, if_neg (by omega)]
  simp only [hday, hmonth, hyear]
  have hknown : (0 : Int) ≤ s.year.value + 2000 := by omega
  rw [if_neg (by omega), updateTime_timestamp zone clk hknown htime hcomma]
  have hyears : (s.year.value : Int) + 2000 - 1900 = s.year.value + 100 := by omega
  simp only [hyears]
  rfl

/-! ### What the rest of the sentence leaves alone -/

theorem updateLatlong_timestamp (r : NmeaReader D) (lat : Token) (latHemi : UInt8) (lon : Token)
    (lonHemi : UInt8) :
    (nmeaReaderUpdateLatlong r lat latHemi lon lonHemi).1.fix.timestamp = r.fix.timestamp := by
  rw [nmeaReaderUpdateLatlong]
  split
  · rfl
  · split <;> rfl

theorem updateBearing_timestamp (r : NmeaReader D) (bearing : Token) :
    (nmeaReaderUpdateBearing r bearing).1.fix.timestamp = r.fix.timestamp := by
  rw [nmeaReaderUpdateBearing]
  split <;> rfl

theorem updateSpeed_timestamp (r : NmeaReader D) (speed : Token) :
    (nmeaReaderUpdateSpeed r speed).1.fix.timestamp = r.fix.timestamp := by
  rw [nmeaReaderUpdateSpeed]
  split <;> rfl

theorem handle_timestamp (zone : Int) (cbs : GpsCallbacks) (clk : Clock) (t : List Token)
    (r : NmeaReader D) : (handle zone cbs clk t r).1.fix.timestamp =
      (parseSentence zone clk t r).1.fix.timestamp := by
  rw [handle]
  dsimp only
  rw [reportLocation, reportSvStatus]
  split <;> split <;> rfl

theorem parseRmc_timestamp (zone : Int) (clk : Clock) {t : List Token} (r : NmeaReader D)
    (hstatus : (nmeaTokenizerGet t 2).char0 = 0x41) :
    (parseRmc zone clk t r).fix.timestamp = (nmeaReaderUpdateDate zone clk r (nmeaTokenizerGet t 9)
      (nmeaTokenizerGet t 1)).1.fix.timestamp := by
  rw [parseRmc, if_pos hstatus]
  dsimp only
  rw [updateSpeed_timestamp, updateBearing_timestamp, updateLatlong_timestamp]

/-- The time stamp `nmea_reader_parse` leaves for an RMC sentence in the buffer. -/
theorem parse_timestamp (zone : Int) (cbs : GpsCallbacks) (clk : Clock) (r : NmeaReader D)
    {text : List UInt8} (h : Holds r text) {s : RmcTime} (hs : s.SpelledBy text) :
    (nmeaReaderParse zone cbs clk r).1.fix.timestamp = (s.epoch - zone + r.utcDiff) * 1000 := by
  have hid5 : 5 ≤ ((fields text).getD 0 []).length :=
    le_of_slice_length (congrArg List.length hs.id) (by decide)
  have hfields : 2 < (fields text).length := by
    by_contra h
    have hnil := hs.status
    rw [List.getD_eq_default _ _ (Nat.not_lt.mp h)] at hnil
    cases hnil
  have hlen : 9 ≤ text.length := by
    have hle := length_fields_le text
    have htime := hs.time
    have hsix : 6 ≤ s.time.length := by simp [RmcTime.time, TwoDigits.bytes]
    rcases hf : fields text with _ | ⟨f₀, _ | ⟨f₁, fs⟩⟩ <;> rw [hf] at hfields hle htime hid5
    · exact absurd hfields (by simp)
    · exact absurd hfields (by simp)
    · obtain rfl : f₁ = s.time := htime
      have hid5 : 5 ≤ f₀.length := hid5
      simp only [List.flatten_cons, List.length_append, List.length_cons] at hle
      omega
  obtain ⟨t, out, -, hparse, hid, hspells⟩ := parse_fields zone cbs clk h hid5 hlen
  obtain ⟨h1, hcomma⟩ := hspells 1 (by decide)
  obtain ⟨h2, -⟩ := hspells 2 (by decide)
  obtain ⟨h9, -⟩ := hspells 9 (by decide)
  rw [hs.time] at h1
  rw [hs.date] at h9
  have hstatus : (nmeaTokenizerGet t 2).char0 = 0x41 := by
    have hhead := hs.status
    cases hf : (fields text).getD 2 [] with
    | nil =>
      rw [hf] at hhead
      cases hhead
    | cons c f =>
      rw [hf] at hhead h2
      exact (h2.char0_eq (List.cons_ne_nil c f)).trans (Option.some.inj hhead)
  rw [hparse, handle_timestamp, parseSentence, hid, hs.id]
  show (parseRmc zone clk _ r).fix.timestamp = _
  rw [parseRmc_timestamp zone clk r hstatus]
  exact updateDate_timestamp zone clk r h9 h1 (hcomma hfields)

/-- The time stamp of a sentence is 1000 times the second it denotes in UTC if and only if local
time is UTC. -/
theorem timestamp_iff (zone : Int) (hzone : -(14 * 3600) ≤ zone ∧ zone ≤ 14 * 3600) (clk₀ : Clock)
    (hyear : (gmtimeR clk₀.now).year = (localtimeR zone clk₀.now).year) (cbs : GpsCallbacks)
    (clk : Clock) (r₀ r : NmeaReader D)
    (hdiff : r.utcDiff = (nmeaReaderUpdateUtcDiff zone clk₀ r₀).utcDiff) (text : List UInt8)
    (hpos : r.pos = text.length) (hbuf : r.inBuf.toList.take r.pos = text) (s : RmcTime)
    (hs : s.SpelledBy text) :
    gmtimeR s.epoch = { s.tm with yday := (gmtimeR s.epoch).yday } ∧
      ((nmeaReaderParse zone cbs clk r).1.fix.timestamp = 1000 * s.epoch ↔ zone = 0) := by
  refine ⟨gmtimeR_timegm s.valid, ?_⟩
  rw [parse_timestamp zone cbs clk r ⟨hpos, hbuf⟩ hs, hdiff, utcDiff_eq r₀ hzone hyear]
  omega

/-- 2019-08-23 12:35:19 in a sentence with nothing else. -/
def rmcText : List UInt8 :=
  ascii ['$', 'G', 'P', 'R', 'M', 'C', ',', '1', '2', '3', '5', '1', '9', ',', 'A', ',', ',', ',', ',',
    ',', ',', ',', '2', '3', '0', '8', '1', '9', ',', '*', '6', 'A', '\n']

def rmcTime : RmcTime where
  hour := ⟨0x31, 0x32, by decide, by decide⟩
  minute := ⟨0x33, 0x35, by decide, by decide⟩
  second := ⟨0x31, 0x39, by decide, by decide⟩
  frac := []
  day := ⟨0x32, 0x33, by decide, by decide⟩
  month := ⟨0x30, 0x38, by decide, by decide⟩
  year := ⟨0x31, 0x39, by decide, by decide⟩
  isFraction := .inl rfl
  valid := ⟨by decide, by decide, by decide, by decide, by decide, by decide⟩

theorem rmcTime_spelledBy : rmcTime.SpelledBy rmcText where
  id := by decide +kernel
  time := by decide +kernel
  status := by decide +kernel
  date := by decide +kernel

/-- A reader started on 1970-01-02 with the sentence in its buffer. -/
def rmcReader (zone : Int) : NmeaReader ℚ :=
  { nmeaReaderInit zone ⟨100000, 0, 0⟩ with
    pos := rmcText.length
    inBuf := ⟨(rmcText ++ List.replicate 51 0).toArray, by decide⟩ }

theorem timestamp_utc : (nmeaReaderParse 0 ⟨false, false, false, false⟩ ⟨0, 0, 0⟩
    (rmcReader 0)).1.fix.timestamp = 1000 * rmcTime.epoch :=
  (timestamp_iff 0 (by decide) ⟨100000, 0, 0⟩ rfl ⟨false, false, false, false⟩ ⟨0, 0, 0⟩ zeroReader
    (rmcReader 0) rfl rmcText rfl (by decide) rmcTime rmcTime_spelledBy).2.mpr rfl

/-- An hour east of Greenwich the time stamp is two hours early. -/
theorem timestamp_east :
    (gmtimeR 100000).year = (localtimeR 3600 100000).year ∧
      (rmcReader 3600).utcDiff =
        (nmeaReaderUpdateUtcDiff 3600 ⟨100000, 0, 0⟩ (zeroReader : NmeaReader ℚ)).utcDiff ∧
      rmcTime.SpelledBy rmcText ∧
      (nmeaReaderParse 3600 ⟨false, false, false, false⟩ ⟨0, 0, 0⟩
        (rmcReader 3600)).1.fix.timestamp ≠ 1000 * rmcTime.epoch := by
  refine ⟨rfl, rfl, rmcTime_spelledBy, ?_⟩
  rw [parse_timestamp 3600 _ _ (rmcReader 3600) ⟨rfl, by decide⟩ rmcTime_spelledBy]
  have hdiff : (rmcReader 3600).utcDiff = -3600 := by decide
  omega

end HeadUnit.Gps
