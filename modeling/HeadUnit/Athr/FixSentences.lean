import HeadUnit.Athr.FixUpdates
import HeadUnit.Gps.FixSentences

/-!
# Sentences of the ATHR driver

A GGA, GLL or RMC sentence that declares no fix does nothing (`noFix_keeps`). One that does is
stamped with the second it denotes in UTC, whatever the time zone, but for the hours in which the UTC
difference misses a leap day (`stamp_utc_iff`).
-/

namespace HeadUnit.Athr

open Calendar
open Gps hiding Group Updates Pending Reported Delivering slot

/-- The sentence declares a fix. -/
def HasFix (k : FixSentence) (fs : List (List UInt8)) : Prop :=
  match k with
  | .gga => ∃ c, (fs.getD 6 []).head? = some c ∧ 0x30 < c
  | .gll => (fs.getD 6 []).head? = some 0x41
  | .rmc => (fs.getD 2 []).head? = some 0x41

/-- A date and a time in a sentence, the date possibly in a sentence before. -/
structure StampedBy {D : Type} (k : FixSentence) (r : NmeaReader D) (fs : List (List UInt8))
    (s : RmcTime) : Prop where
  time : k.timed.time fs = s.time
  date : match k with
    | .gga | .gll =>
      r.utcDay = s.day.value ∧ r.utcMon = s.month.value ∧ r.utcYear = s.year.value + 2000
    | .rmc => fs.getD 9 [] = s.date

variable {D : Type} [CDouble D]

section Tokens

variable {t : List Token} {fs : List (List UInt8)}
  (h : ∀ i < 10, LineToken (nmeaTokenizerGet t (i : Nat)) (fs.getD i []))
include h

/-- The test of the status, in terms of the field: behind an empty field is a separator. -/
theorem hasFix_iff (k : FixSentence) : HasFix k fs ↔
    match k with
    | .gga => (nmeaTokenizerGet t 6).char0 > 0x30
    | .gll => (nmeaTokenizerGet t 6).char0 = 0x41
    | .rmc => (nmeaTokenizerGet t 2).char0 = 0x41 := by
  cases k with
  | gga =>
    have h6 := h 6 (by decide)
    show (∃ c, (fs.getD 6 []).head? = some c ∧ 0x30 < c) ↔ 0x30 < (nmeaTokenizerGet t (6 : Nat)).char0
    cases hf : fs.getD 6 [] with
    | nil =>
      rw [hf] at h6
      refine iff_of_false (fun ⟨c, hc, _⟩ => nomatch hc) ?_
      have hstop : (nmeaTokenizerGet t (6 : Nat)).stop = (nmeaTokenizerGet t (6 : Nat)).p := h6.stop_eq
      rcases h6.behind with hdummy | ⟨-, hsep⟩
      · rw [hdummy]
        decide
      · rw [hstop] at hsep
        rcases hsep with hc | hc | hc | hc <;> rw [Token.char0, hc] <;> decide
    | cons b f =>
      rw [hf] at h6
      rw [h6.char0_cons]
      simp
  | gll => exact (active_iff h (by decide : 6 < 10)).symm
  | rmc => exact (active_iff h (by decide : 2 < 10)).symm

end Tokens

theorem parseSentence_noFix (zone : Int) (clk : Clock) (k : FixSentence) {t : List Token}
    {fs : List (List UInt8)} (r : NmeaReader D)
    (hid : sentenceId (nmeaTokenizerGet t 0) = k.timed.id)
    (h : ∀ i < 10, LineToken (nmeaTokenizerGet t (i : Nat)) (fs.getD i [])) (hfix : ¬HasFix k fs) :
    parseSentence zone clk t r = (r, []) := by
  rw [hasFix_iff h] at hfix
  rw [parseSentence, hid]
  cases k with
  | gga => exact congrArg (·, []) (if_neg hfix)
  | gll => exact congrArg (·, []) (if_neg hfix)
  | rmc => exact congrArg (·, []) (if_neg hfix)

variable [DecidableEq D]

/-- A line whose first field is long enough is handed to a branch if it has nine bytes. -/
theorem parse_line (zone : Int) (cbs : GpsCallbacks) (clk : Clock) {s : FixState D} {w : List UInt8}
    (h : Holds s.reader.toNmeaReader (w ++ [0x0A]))
    (hid : 5 ≤ ((fields (w ++ [0x0A])).getD 0 []).length) :
    ∃ b out, (∀ o ∈ out, IsOther o) ∧ nmeaReaderParse zone cbs clk s =
      if w.length < 8 then (s, out)
      else
        let s' := { s with
          reader := (parseSentence zone clk (Gps.lineTokens s.reader.toNmeaReader) s.reader).1
          bGetFormalNMEA := b }
        ((reportFirstFix cbs s').1, out ++ (reportFirstFix cbs s').2) := by
  have hpos := h.pos
  rw [List.length_append, List.length_singleton] at hpos
  have htok := ((h.lineToken (i := 0) (by decide)).length_iff 5).mpr hid
  have hnmea : ∀ o ∈ (if cbs.nmeaCb then [Gps.Output.nmea (clk.tvSec * 1000 + clk.tvUsec / 1000)
      (s.reader.inBuf.toList.take s.reader.pos)] else [] : List (Gps.Output D)), IsOther o := by
    split
    · simp [IsOther, Gps.Output.isLocation, lineTokens]
    · simp
  rw [nmeaReaderParse]
  by_cases hshort : w.length < 8
  · refine ⟨s.bGetFormalNMEA, [], List.forall_mem_nil _, ?_⟩
    rw [if_pos hshort]
    exact if_pos (by omega)
  · refine ⟨s.bGetFormalNMEA || startsWith (nmeaTokenizerGet (Gps.lineTokens
      s.reader.toNmeaReader) 0) ['G', 'P', 'G'], _, List.forall_mem_append.mpr ⟨hnmea, parseSentence_isOther zone clk
      (Gps.lineTokens s.reader.toNmeaReader) s.reader⟩, ?_⟩
    rw [if_neg hshort, if_neg (by omega)]
    exact if_neg (Nat.not_lt.mpr htok)

/-! ## Sentences without a fix -/

/-- A sentence that declares no fix leaves the whole reader as it is; it may be the occasion to hand
over what an earlier one left. -/
theorem noFix_keeps (zone : Int) (cbs : GpsCallbacks) (clk : Clock) (s : FixState D)
    (w : List UInt8) (h : Holds s.reader.toNmeaReader (w ++ [0x0A])) (k : FixSentence)
    (hid : slice ((fields (w ++ [0x0A])).getD 0 []) 2 5 = k.timed.id)
    (hfix : ¬HasFix k (fields (w ++ [0x0A]))) :
    (∀ fix, .location fix ∈ (nmeaReaderParse zone cbs clk s).2 → fix = s.reader.fix) ∧
      ((nmeaReaderParse zone cbs clk s).1.reader = s.reader ∨
        .location s.reader.fix ∈ (nmeaReaderParse zone cbs clk s).2 ∧
          (nmeaReaderParse zone cbs clk s).1.reader =
            { s.reader with fix := { s.reader.fix with flags := .zero } }) := by
  obtain ⟨hid5, hsid, htoken⟩ := k.timed.line_tokens h hid
  obtain ⟨b, out, hout, hparse⟩ := parse_line zone cbs clk h hid5
  have hquiet (fix : GpsLocation D) : .location fix ∉ out := fun ho => by cases (hout _ ho).1
  rw [hparse, parseSentence_noFix zone clk k s.reader hsid htoken hfix]
  split
  · exact ⟨fun fix hmem => absurd hmem (hquiet fix), .inl rfl⟩
  · dsimp only
    rw [reportFirstFix]
    split
    · cases cbs.locationCb
      · refine ⟨fun fix hmem => ?_, .inl rfl⟩
        rw [if_neg Bool.false_ne_true, List.append_nil] at hmem
        exact absurd hmem (hquiet fix)
      · refine ⟨fun fix hmem => ?_, .inr ⟨List.mem_append_right _ List.mem_cons_self, rfl⟩⟩
        rcases List.mem_append.mp hmem with hmem | hmem
        · exact absurd hmem (hquiet fix)
        · exact Gps.Output.location.inj (List.mem_singleton.mp hmem)
    · refine ⟨fun fix hmem => ?_, .inl rfl⟩
      rw [List.append_nil] at hmem
      exact absurd hmem (hquiet fix)

/-- The driver at its start with a line in the buffer. -/
def fixStateHolding (w : List UInt8) : FixState ℚ :=
  let s : FixState ℚ := fixStateInit
  { s with reader := s.reader.onGps (s.reader.holding (w ++ [0x0A])) }

/-- A GGA sentence with fix quality 0. -/
theorem noFix_keeps_voidGga :
    (nmeaReaderParse 0 ⟨true, false, false, false⟩ ⟨0, 0, 0⟩
      (fixStateHolding voidGga)).1.reader = (fixStateHolding voidGga).reader := by
  have hholds : Holds (fixStateHolding voidGga).reader.toNmeaReader (voidGga ++ [0x0A]) :=
    holding_holds _ (by decide)
  have hid : slice ((fields (voidGga ++ [0x0A])).getD 0 []) 2 5 = FixSentence.gga.timed.id := by
    decide +kernel
  have hsix : (fields (voidGga ++ [0x0A])).getD 6 [] = [0x30] := by decide +kernel
  have hfix : ¬HasFix .gga (fields (voidGga ++ [0x0A])) := by
    rintro ⟨c, hc, hlt⟩
    rw [hsix] at hc
    cases hc
    exact absurd hlt (by decide)
  have hflags : (nmeaReaderParse 0 ⟨true, false, false, false⟩ ⟨0, 0, 0⟩
      (fixStateHolding voidGga)).2.any Gps.Output.isLocation = false := by decide +kernel
  rcases (noFix_keeps 0 ⟨true, false, false, false⟩ ⟨0, 0, 0⟩ (fixStateHolding voidGga) voidGga
    hholds .gga hid hfix).2 with h | ⟨h, -⟩
  · exact h
  · exact absurd (List.any_eq_true.mpr ⟨_, h, rfl⟩) (Bool.eq_false_iff.mp hflags)

/-! ## Time stamps -/

section Stamps

omit [DecidableEq D]

variable {mem : List UInt8} {tok : Token} {s : RmcTime} (zone : Int) (clk : Clock)

/-- The seconds from a date in the reader and a time in a sentence to a time stamp. -/
theorem updateTime_stamp {r : NmeaReader D} (hyear : 0 ≤ r.utcYear)
    (htok : Spells mem tok s.time) (hcomma : mem.getD tok.stop 0 = 0x2C) :
    (nmeaReaderUpdateTime zone clk r tok).1.fix.timestamp =
      (mktime zone { s.tm with
        year := r.utcYear - 1900
        mon := r.utcMon - 1
        mday := r.utcDay } -
          (Gps.nmeaReaderUpdateUtcDiff zone clk r.toNmeaReader).utcDiff) * 1000 := by
  have hlen : 6 ≤ s.time.length := by simp [RmcTime.time, TwoDigits.bytes]
  have hstop := htok.stop_eq
  have hhour : str2int tok.mem tok.p (tok.p + 2) = s.hour.value :=
    (htok.str2int_eq (Nat.zero_le 2) (by omega)).trans s.hour.readInt_bytes
  have hminute : str2int tok.mem (tok.p + 2) (tok.p + 4) = s.minute.value :=
    (htok.str2int_eq (by omega) (by omega)).trans s.minute.readInt_bytes
  rw [nmeaReaderUpdateTime, nmeaReaderGetTimestamp, if_neg (by omega),
    if_neg (Int.not_lt.mpr hyear)]
  simp only [hhour, hminute, seconds_eq htok hcomma]
  rfl

/-- The date in the reader is that of `s`. -/
theorem updateTime_epoch {r : NmeaReader D} (hday : r.utcDay = s.day.value)
    (hmonth : r.utcMon = s.month.value) (hyear : r.utcYear = s.year.value + 2000)
    (htok : Spells mem tok s.time) (hcomma : mem.getD tok.stop 0 = 0x2C) :
    (nmeaReaderUpdateTime zone clk r tok).1.fix.timestamp =
      (s.epoch - zone - (Gps.nmeaReaderUpdateUtcDiff zone clk r.toNmeaReader).utcDiff) * 1000 := by
  have hyears : (s.year.value : Int) + 2000 - 1900 = s.year.value + 100 := by omega
  rw [updateTime_stamp zone clk (by omega) htok hcomma, hday, hmonth, hyear, hyears]
  rfl

theorem updateDate_epoch {date : Token} (r : NmeaReader D) (hdate : Spells mem date s.date)
    (htok : Spells mem tok s.time) (hcomma : mem.getD tok.stop 0 = 0x2C) :
    (nmeaReaderUpdateDate zone clk r date tok).1.fix.timestamp =
      (s.epoch - zone - (Gps.nmeaReaderUpdateUtcDiff zone clk r.toNmeaReader).utcDiff) * 1000 := by
  have hlen : s.date.length = 6 := rfl
  have hday : str2int date.mem date.p (date.p + 2) = s.day.value :=
    (hdate.str2int_eq (Nat.zero_le 2) (by omega)).trans s.day.readInt_bytes
  have hmonth : str2int date.mem (date.p + 2) (date.p + 4) = s.month.value :=
    (hdate.str2int_eq (by omega) (by omega)).trans s.month.readInt_bytes
  have hyear : str2int date.mem (date.p + 4) (date.p + 6) = s.year.value :=
    (hdate.str2int_eq (by omega) (by omega)).trans s.year.readInt_bytes
  rw [nmeaReaderUpdateDate]
  simp only [hday, hmonth, hyear]
  rw [if_neg (by omega)]
  exact updateTime_epoch zone clk rfl rfl rfl htok hcomma

theorem parseSentence_epoch (k : FixSentence) {t : List Token} {fs : List (List UInt8)}
    (r : NmeaReader D) (hid : sentenceId (nmeaTokenizerGet t 0) = k.timed.id)
    (h : ∀ i < 10, Spells mem (nmeaTokenizerGet t (i : Nat)) (fs.getD i []) ∧
      (i + 1 < fs.length → mem.getD (nmeaTokenizerGet t (i : Nat)).stop 0 = 0x2C))
    (hline : ∀ i < 10, LineToken (nmeaTokenizerGet t (i : Nat)) (fs.getD i []))
    (hfix : HasFix k fs) (hs : StampedBy k r fs s) :
    (parseSentence zone clk t r).1.fix.timestamp =
      (s.epoch - zone - (Gps.nmeaReaderUpdateUtcDiff zone clk r.toNmeaReader).utcDiff) * 1000 := by
  have hlen {i : Nat} {c : UInt8} (hc : (fs.getD i []).head? = some c) : i < fs.length := by
    by_contra hle
    rw [List.getD_eq_default _ _ (Nat.not_lt.mp hle)] at hc
    cases hc
  have hstatus := (hasFix_iff hline k).mp hfix
  obtain ⟨htime, hdate⟩ := hs
  rw [parseSentence, hid]
  cases k with
  | gga =>
    obtain ⟨c, hc, -⟩ := hfix
    obtain ⟨h1, hcomma⟩ := h 1 (by decide)
    obtain ⟨hday, hmonth, hyear⟩ := hdate
    have htime : fs.getD 1 [] = s.time := htime
    rw [htime] at h1
    have hlt := hlen hc
    show (parseGga zone clk t r).fix.timestamp = _
    rw [parseGga, if_pos hstatus, ← updateTime_epoch zone clk hday hmonth hyear h1
      (hcomma (by omega))]
    exact (updateAltitude_timestamp _ _ (nmeaTokenizerGet t 10)).trans (updateLatlong_timestamp ..)
  | gll =>
    obtain ⟨h5, hcomma⟩ := h 5 (by decide)
    obtain ⟨hday, hmonth, hyear⟩ := hdate
    have htime : fs.getD 5 [] = s.time := htime
    rw [htime] at h5
    have hlt := hlen hfix
    show (parseGll zone clk t r).fix.timestamp = _
    rw [parseGll, if_pos hstatus, ← updateTime_epoch zone clk hday hmonth hyear h5 (hcomma hlt)]
    exact updateLatlong_timestamp ..
  | rmc =>
    obtain ⟨h1, hcomma⟩ := h 1 (by decide)
    obtain ⟨h9, -⟩ := h 9 (by decide)
    have htime : fs.getD 1 [] = s.time := htime
    have hdate : fs.getD 9 [] = s.date := hdate
    rw [htime] at h1
    rw [hdate] at h9
    have hlt := hlen hfix
    show (parseRmc zone clk t r).fix.timestamp = _
    rw [parseRmc, if_pos hstatus, ← updateDate_epoch zone clk r h9 h1 (hcomma hlt)]
    exact (updateSpeed_timestamp ..).trans ((updateBearing_timestamp ..).trans
      (updateLatlong_timestamp ..))

end Stamps

/-- The time stamp of a sentence is 1000 times the second it denotes in UTC, in every time zone, but
while a leap day is between the years of UTC and of local time. -/
theorem stamp_utc_iff (zone : Int) (hzone : -(14 * 3600) ≤ zone ∧ zone ≤ 14 * 3600)
    (cbs : GpsCallbacks) (clk : Clock) (s : FixState D) (w : List UInt8)
    (h : Holds s.reader.toNmeaReader (w ++ [0x0A])) (k : FixSentence)
    (hid : slice ((fields (w ++ [0x0A])).getD 0 []) 2 5 = k.timed.id)
    (hfix : HasFix k (fields (w ++ [0x0A]))) (ts : RmcTime)
    (hs : StampedBy k s.reader (fields (w ++ [0x0A])) ts) :
    gmtimeR ts.epoch = { ts.tm with yday := (gmtimeR ts.epoch).yday } ∧
      ((nmeaReaderParse zone cbs clk s).1.reader.fix.timestamp = 1000 * ts.epoch ↔
        NoLeapDayBetween zone clk.now) := by
  refine ⟨gmtimeR_timegm ts.valid, ?_⟩
  obtain ⟨hid5, hsid, htoken⟩ := k.timed.line_tokens h hid
  obtain ⟨b, out, -, hparse⟩ := parse_line zone cbs clk h hid5
  have hlong : ¬w.length < 8 := by
    intro hshort
    have htime := hs.time
    have hsix : 6 ≤ ts.time.length := by simp [RmcTime.time, TwoDigits.bytes]
    have hlt := fun i (hi : 1 ≤ i) => (short_line hshort hid5 i).1 hi
    rw [← htime] at hsix
    cases k with
    | gga | rmc => exact absurd (hlt 1 (by decide)) (Nat.not_lt.mpr hsix)
    | gll => exact absurd (hlt 5 (by decide)) (Nat.not_lt.mpr hsix)
  have hspells (i : Nat) (hi : i < 10) := get_spells h.pos_le (Nat.lt_trans hi
    (by decide : 10 < maxNmeaTokens))
  rw [h.take] at hspells
  have hreport (s : FixState D) :
      (reportFirstFix cbs s).1.reader.fix.timestamp = s.reader.fix.timestamp := by
    rw [reportFirstFix]
    split
    · cases cbs.locationCb <;> rfl
    · rfl
  rw [hparse, if_neg hlong]
  dsimp only
  rw [hreport, ← utcDiff_iff hzone clk s.reader.toNmeaReader]
  show (parseSentence zone clk (Gps.lineTokens s.reader.toNmeaReader)
    s.reader).1.fix.timestamp = _ ↔ _
  rw [parseSentence_epoch zone clk k s.reader hsid hspells htoken hfix hs]
  omega

/-- An hour east of Greenwich, where `gps_neu.c` is two hours early. -/
theorem stamp_utc_east :
    (nmeaReaderParse 3600 ⟨false, false, false, false⟩ ⟨100000, 0, 0⟩
      (fixStateHolding rmcText.dropLast)).1.reader.fix.timestamp = 1000 * rmcTime.epoch :=
  (stamp_utc_iff 3600 (by decide) ⟨false, false, false, false⟩ ⟨100000, 0, 0⟩
    (fixStateHolding rmcText.dropLast) rmcText.dropLast (holding_holds _ (by decide)) .rmc
    (by decide +kernel) (by show _ = _; decide +kernel) rmcTime
    ⟨by decide +kernel, by show _ = _; decide +kernel⟩).2.mpr (by decide +kernel)

end HeadUnit.Athr
