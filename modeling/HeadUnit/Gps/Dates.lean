import HeadUnit.Gps.LineTokens

/-!
# Dates

`nmea_reader_update_date` recognises a malformed date by the sign of the day, the month and the
year, but adds 2000 to the year first: what fails to be a year is taken for 1999
(`updateDate_iff`). `nmea_reader_update_cdate` reads the year of ZDA together with the separator
behind it, which always fails; the system date then takes its place (`zda_iff`).
-/

namespace HeadUnit.Gps

variable {D : Type} [CDouble D]

/-- Day, month and year in UTC. -/
def Clock.date (clk : Clock) : Int × Int × Int :=
  let tm := Calendar.gmtimeR clk.now
  (tm.mday, tm.mon + 1, tm.year + 1900)

omit [CDouble D] in
/-- Day, month and year. -/
def NmeaReader.date (r : NmeaReader D) : Int × Int × Int := (r.utcDay, r.utcMon, r.utcYear)

/-- The date behind `nmea_reader_update_time`: the system's, where there was none. -/
theorem updateTime_date (zone : Int) (clk : Clock) (r : NmeaReader D) (tok : Token) :
    (nmeaReaderUpdateTime zone clk r tok).1.date =
      if tok.p + 6 ≤ tok.stop ∧ r.utcYear < 0 then clk.date else r.date := by
  rw [nmeaReaderUpdateTime]
  by_cases hlen : tok.p + 6 ≤ tok.stop
  · rw [if_neg (by omega)]
    by_cases hyear : r.utcYear < 0
    · simp only [if_pos hyear]
      exact (if_pos ⟨hlen, hyear⟩).symm
    · simp only [if_neg hyear]
      exact (if_neg fun h => hyear h.2).symm
  · rw [if_pos (by omega), if_neg fun h => hlen h.1]

/-! ## RMC -/

/-- `ddmmyy`. -/
def IsDate (f : List UInt8) : Prop := f.length = 6 ∧ ∀ c ∈ f, IsDigit c

instance (f : List UInt8) : Decidable (IsDate f) := inferInstanceAs (Decidable (_ ∧ _))

/-- Six characters, of which the first four are digits. -/
def DateTaken (f : List UInt8) : Prop := f.length = 6 ∧ ∀ c ∈ f.take 4, IsDigit c

instance (f : List UInt8) : Decidable (DateTaken f) := inferInstanceAs (Decidable (_ ∧ _))

theorem IsDate.taken {f : List UInt8} (h : IsDate f) : DateTaken f :=
  ⟨h.1, fun c hc => h.2 c (List.mem_of_mem_take hc)⟩

/-- The day, the month and the year of this century. -/
def dateOf (f : List UInt8) : Int × Int × Int :=
  (decVal (f.take 2), decVal (slice f 2 4), 2000 + decVal (slice f 4 6))

/-- A date is stored, and anything else fails without a change. -/
def DateRule (f : List UInt8) (r : NmeaReader D) (result : NmeaReader D × Int) : Prop :=
  if IsDate f then result.1.date = dateOf f else result = (r, -1)

section Rmc

variable {mem f : List UInt8} {date : Token}

/-- What `nmea_reader_update_date` does with the fields of a date. -/
theorem updateDate_eq (zone : Int) (clk : Clock) (r : NmeaReader D) (h : Spells mem date f)
    (time : Token) : nmeaReaderUpdateDate zone clk r date time =
      if DateTaken f then nmeaReaderUpdateTime zone clk { r with
        utcYear := readInt (slice f 4 6) + 2000
        utcMon := decVal (slice f 2 4)
        utcDay := decVal (f.take 2) } time
      else (r, -1) := by
  have hstop := h.stop_eq
  rw [nmeaReaderUpdateDate]
  by_cases hlen : f.length = 6
  · have hday : str2int date.mem date.p (date.p + 2) = readInt (f.take 2) :=
      (h.str2int_eq (Nat.zero_le 2) (by omega)).trans (by rw [slice_zero])
    have hmon : str2int date.mem (date.p + 2) (date.p + 4) = readInt (slice f 2 4) :=
      h.str2int_eq (by omega) (by omega)
    have hyear : str2int date.mem (date.p + 4) (date.p + 6) = readInt (slice f 4 6) :=
      h.str2int_eq (by omega) (by omega)
    have hpair {g : List UInt8} (hg : g.length = 2) :
        0 ≤ readInt g ↔ ∀ d ∈ g, IsDigit d :=
      readInt_nonneg_iff (List.ne_nil_of_length_pos (by omega)) (by omega)
    have hdays := hpair (by rw [List.length_take]; omega : (f.take 2).length = 2)
    have hmons := hpair (slice_length (by omega : 4 ≤ f.length) : (slice f 2 4).length = 2)
    have hyears : -1 ≤ readInt (slice f 4 6) := by
      by_cases hdig : ∀ d ∈ slice f 4 6, IsDigit d
      · have := (hpair (slice_length (by omega))).mpr hdig
        omega
      · obtain ⟨d, hd, hnot⟩ : ∃ d ∈ slice f 4 6, ¬IsDigit d := by simpa using hdig
        exact (readInt_nondigit hd hnot).ge
    have hfour : f.take 4 = f.take 2 ++ slice f 2 4 := by
      rw [← slice_zero, ← slice_append (Nat.zero_le 2) (by omega : 2 ≤ 4), slice_zero]
    have htaken : DateTaken f ↔ 0 ≤ readInt (f.take 2) ∧ 0 ≤ readInt (slice f 2 4) := by
      rw [DateTaken, hfour, List.forall_mem_append, hdays, hmons]
      exact and_iff_right hlen
    rw [if_neg (by omega)]
    simp only [hday, hmon, hyear]
    by_cases ht : DateTaken f
    · obtain ⟨hd, hm⟩ := htaken.mp ht
      rw [if_neg (by omega), if_pos ht]
      rw [readInt_digits (List.ne_nil_of_length_pos (by rw [List.length_take]; omega))
        (hdays.mp hd) (by rw [List.length_take]; omega)]
      rw [readInt_digits (List.ne_nil_of_length_pos (by rw [slice_length (by omega)]; omega))
        (hmons.mp hm) (by rw [slice_length (by omega)]; omega)]
    · rw [if_neg ht, if_pos]
      by_contra hnot
      exact ht (htaken.mpr (by omega))
  · rw [if_pos (by omega), if_neg fun h => hlen h.1]

theorem IsDate.readInt_year (h : IsDate f) : readInt (slice f 4 6) = decVal (slice f 4 6) := by
  have hlen : (slice f 4 6).length = 2 := slice_length (Nat.le_of_eq h.1.symm)
  refine readInt_digits (List.ne_nil_of_length_pos (by omega)) ?_ (by omega)
  intro d hd
  exact h.2 d (List.mem_of_mem_drop (List.mem_of_mem_take hd))

/-- A malformed year is read as -1. -/
theorem DateTaken.readInt_year (h : DateTaken f) (hdate : ¬IsDate f) :
    readInt (slice f 4 6) = -1 := by
  obtain ⟨d, hd, hnot⟩ : ∃ d ∈ slice f 4 6, ¬IsDigit d := by
    by_contra hall
    have hsix : f.take 4 ++ slice f 4 6 = f := by
      rw [← slice_zero, slice_append (Nat.zero_le 4) (by decide), slice_zero,
        List.take_of_length_le (Nat.le_of_eq h.1)]
    refine hdate ⟨h.1, ?_⟩
    rw [← hsix, List.forall_mem_append]
    exact ⟨h.2, by simpa using hall⟩
  exact readInt_nondigit hd hnot

/-- Storing a date changes nothing where the reader has it and the time fails. -/
theorem updateTime_eq_self_iff (zone : Int) (clk : Clock) (r : NmeaReader D) (day mon year : Int)
    (time : Token) :
    nmeaReaderUpdateTime zone clk { r with utcYear := year, utcMon := mon, utcDay := day } time =
        (r, -1) ↔
      time.stop < time.p + 6 ∧ r.date = (day, mon, year) := by
  rw [nmeaReaderUpdateTime]
  by_cases hlen : time.stop < time.p + 6
  · rw [if_pos hlen, and_iff_right hlen]
    constructor
    · intro heq
      exact (congrArg (NmeaReader.date ∘ Prod.fst) heq).symm
    · intro hsame
      obtain ⟨rfl, hrest⟩ := Prod.mk.inj hsame
      obtain ⟨rfl, rfl⟩ := Prod.mk.inj hrest
      rfl
  · rw [if_neg hlen]
    refine iff_of_false (fun heq => ?_) fun h => hlen h.1
    cases congrArg Prod.snd heq

/-- Where the rule holds: anything but a date whose year alone is malformed; there, only the reader
that has the very same date of 1999 is left unchanged, if the time fails too. -/
theorem updateDate_iff (zone : Int) (clk : Clock) (r : NmeaReader D) (h : Spells mem date f)
    (time : Token) : DateRule f r (nmeaReaderUpdateDate zone clk r date time) ↔
      (DateTaken f → IsDate f) ∨
        time.stop < time.p + 6 ∧ r.date = ((decVal (f.take 2) : Int), (decVal (slice f 2 4) : Int),
          1999) := by
  rw [updateDate_eq zone clk r h, DateRule]
  by_cases hdate : IsDate f
  · rw [if_pos hdate, if_pos hdate.taken, updateTime_date, hdate.readInt_year]
    refine iff_of_true ?_ (.inl fun _ => hdate)
    have hknown : ¬(decVal (slice f 4 6) : Int) + 2000 < 0 := by omega
    rw [if_neg fun h => hknown h.2, NmeaReader.date, dateOf, Int.add_comm]
  · rw [if_neg hdate]
    by_cases htaken : DateTaken f
    · rw [if_pos htaken, htaken.readInt_year hdate, or_iff_right fun h => hdate (h htaken)]
      exact updateTime_eq_self_iff zone clk r _ _ _ time
    · rw [if_neg htaken]
      exact iff_of_true rfl (.inl fun h => absurd h htaken)

end Rmc

/-- The token of a whole string. -/
def tokenOf (s : List UInt8) : Token := ⟨s, 0, s.length⟩

theorem tokenOf_spells (s : List UInt8) : Spells s (tokenOf s) s :=
  .token rfl (Nat.zero_le _) (Nat.le_refl _) (by rw [tokenOf, slice_zero, List.take_length])

theorem updateDate_2019 :
    DateRule (ascii ['2', '3', '0', '8', '1', '9']) (zeroReader : NmeaReader ℚ)
      (nmeaReaderUpdateDate 0 ⟨0, 0, 0⟩ zeroReader (tokenOf (ascii ['2', '3', '0', '8', '1', '9']))
        (tokenOf (ascii ['1', '2', '3', '5', '1', '9']))) := by
  rw [updateDate_iff 0 ⟨0, 0, 0⟩ zeroReader (tokenOf_spells _)]
  exact .inl fun _ => by decide +kernel

/-- A year that is no number is taken for 1999. -/
def badYear : List UInt8 := ascii ['2', '3', '0', '8', '-', '9']

theorem not_dateRule_badYear :
    ¬DateRule badYear (zeroReader : NmeaReader ℚ)
      (nmeaReaderUpdateDate 0 ⟨0, 0, 0⟩ zeroReader (tokenOf badYear)
        (tokenOf (ascii ['1', '2', '3', '5', '1', '9']))) := by
  rw [DateRule, if_neg (by decide)]
  intro heq
  have hresult := congrArg Prod.snd heq
  revert hresult
  decide +kernel

/-! ## ZDA -/

/-- `n` digits. -/
def IsDigits (n : Nat) (f : List UInt8) : Prop := f.length = n ∧ ∀ c ∈ f, IsDigit c

instance (n : Nat) (f : List UInt8) : Decidable (IsDigits n f) := inferInstanceAs (Decidable (_ ∧ _))

/-- `hhmmss[.ff]`. -/
def IsTime (f : List UInt8) : Prop :=
  IsDigits 6 (f.take 6) ∧ (f.drop 6 = [] ∨ ∃ ds, f.drop 6 = 0x2E :: ds ∧ ∀ d ∈ ds, IsDigit d)

section Zda

variable (fs : List (List UInt8))

/-- The time, the day, the month and the year of a ZDA sentence have the right form. -/
structure ZdaWellFormed : Prop where
  time : IsTime (fs.getD 1 [])
  day : IsDigits 2 (fs.getD 2 [])
  month : IsDigits 2 (fs.getD 3 [])
  year : IsDigits 4 (fs.getD 4 [])

/-- The day, the month or the year is too short, or there is a byte in it that is no digit. -/
def ZdaMalformed : Prop :=
  (fs.getD 2 []).length < 2 ∨ (fs.getD 3 []).length < 2 ∨ (fs.getD 4 []).length < 4 ∨
    ∃ c ∈ fs.getD 2 [] ++ fs.getD 3 [] ++ fs.getD 4 [], ¬IsDigit c

instance : Decidable (ZdaMalformed fs) := inferInstanceAs (Decidable (_ ∨ _ ∨ _ ∨ ∃ c ∈ _, _))

def zdaDate : Int × Int × Int :=
  (decVal (fs.getD 2 []), decVal (fs.getD 3 []), decVal (fs.getD 4 []))

/-- `nmea_reader_update_time` is called for a time that is long enough. -/
def ZdaTimed : Prop := 6 ≤ (fs.getD 1 []).length ∧ (fs.getD 1 []).head? ≠ some 0

instance : Decidable (ZdaTimed fs) := inferInstanceAs (Decidable (_ ∧ _))

/-- What the time alone makes of a date. -/
def zdaTimeDate (clk : Clock) (date : Int × Int × Int) : Int × Int × Int :=
  if ZdaTimed fs ∧ date.2.2 < 0 then clk.date else date

/-- A date is decoded, and a malformed one has no effect. -/
structure ZdaRule (clk : Clock) (date date' : Int × Int × Int) : Prop where
  decoded : ZdaWellFormed fs → date' = zdaDate fs
  refused : ZdaMalformed fs → date' = zdaTimeDate fs clk date

/-- `nmea_reader_update_cdate` is called and does not fail. -/
def ZdaStored : Prop :=
  2 ≤ (fs.getD 2 []).length ∧ 2 ≤ (fs.getD 3 []).length ∧ 4 ≤ (fs.getD 4 []).length ∧
    (fs.getD 4 []).head? ≠ some 0

instance : Decidable (ZdaStored fs) := inferInstanceAs (Decidable (_ ∧ _ ∧ _ ∧ _))

/-- What is stored for the three fields. -/
def zdaStored : Int × Int × Int :=
  (readInt ((fs.getD 2 []).take 2), readInt ((fs.getD 3 []).take 2), -1)

theorem zdaStored_year : (zdaStored fs).2.2 < 0 := Int.negSucc_lt_zero 0

end Zda

omit [CDouble D] in
theorem updateCdate_eq (r : NmeaReader D) {tokD tokM tokY : Token} {d m y : List UInt8}
    (hd : LineToken tokD d) (hm : LineToken tokM m) (hy : LineToken tokY y) :
    (nmeaReaderUpdateCdate r tokD tokM tokY).1.date =
      if 2 ≤ d.length ∧ 2 ≤ m.length ∧ 4 ≤ y.length then
        (readInt (d.take 2), readInt (m.take 2), -1)
      else r.date := by
  have hd2 := hd.length_iff 2
  have hm2 := hm.length_iff 2
  have hy4 := hy.length_iff 4
  rw [nmeaReaderUpdateCdate]
  by_cases hlen : 2 ≤ d.length ∧ 2 ≤ m.length ∧ 4 ≤ y.length
  · rw [if_neg (by omega), if_pos hlen]
    show (str2int tokD.mem tokD.p (tokD.p + 2), str2int tokM.mem tokM.p (tokM.p + 2),
      str2int tokY.mem tokY.p (tokY.stop + 4)) = _
    have hstop := hy.stop_eq
    have htake (f : List UInt8) : f.take 2 = slice f 0 2 := slice_zero.symm
    rw [htake d, htake m, ← hd.str2int_eq (Nat.zero_le 2) hlen.1,
      ← hm.str2int_eq (Nat.zero_le 2) hlen.2.1]
    rw [str2int_nondigit (by omega) (Nat.lt_add_of_pos_right (by decide)) hy.not_isDigit]
    rfl
  · rw [if_pos (by omega), if_neg hlen]

theorem handle_date (zone : Int) (cbs : GpsCallbacks) (clk : Clock) (t : List Token)
    (r : NmeaReader D) : (handle zone cbs clk t r).1.date =
      (parseSentence zone clk t r).1.date := by
  rw [handle]
  dsimp only
  generalize parseSentence zone clk t r = p
  rw [reportLocation, reportSvStatus]
  split <;> split <;> rfl

section ParseZda

variable {t : List Token} {fs : List (List UInt8)}
  (h : ∀ i < 5, LineToken (nmeaTokenizerGet t (i : Nat)) (fs.getD i []))
include h

omit [CDouble D] in
/-- What the first `if` leaves of the date. -/
theorem zdaStored_date (r : NmeaReader D) :
    (if (nmeaTokenizerGet t 4).char0 ≠ 0 then (nmeaReaderUpdateCdate r
      (nmeaTokenizerGet t 2) (nmeaTokenizerGet t 3) (nmeaTokenizerGet t 4)).1 else r).date =
      if ZdaStored fs then zdaStored fs else r.date := by
  have h4 : LineToken (nmeaTokenizerGet t 4) (fs.getD 4 []) := h 4 (by decide)
  have hcdate := updateCdate_eq r (h 2 (by decide)) (h 3 (by decide)) h4
  by_cases hy : fs.getD 4 [] = []
  · have hnot : ¬ZdaStored fs := fun h => absurd h.2.2.1 (by rw [hy]; decide)
    rw [hy, if_neg (fun h => absurd h.2.2 (by decide))] at hcdate
    rw [if_neg hnot]
    split
    · exact hcdate
    · rfl
  · have hhead := h4.char0_ne_zero hy
    by_cases hchar : (nmeaTokenizerGet t 4).char0 ≠ 0
    · rw [if_pos hchar]
      refine hcdate.trans (if_congr ⟨fun hlen => ?_, fun hs => ?_⟩ rfl rfl)
      · exact ⟨hlen.1, hlen.2.1, hlen.2.2, hhead.mp hchar⟩
      · exact ⟨hs.1, hs.2.1, hs.2.2.1⟩
    · rw [if_neg hchar, if_neg fun hs : ZdaStored fs => hchar (hhead.mpr hs.2.2.2)]

/-- What the second `if` leaves of it. -/
theorem zdaTimeDate_date (zone : Int) (clk : Clock) (r : NmeaReader D) :
    (if (nmeaTokenizerGet t 1).char0 ≠ 0 then
      (nmeaReaderUpdateTime zone clk r (nmeaTokenizerGet t 1)).1 else r).date =
      zdaTimeDate fs clk r.date := by
  have h1 : LineToken (nmeaTokenizerGet t 1) (fs.getD 1 []) := h 1 (by decide)
  have hupdate := updateTime_date zone clk r (nmeaTokenizerGet t 1)
  have hlen := h1.length_iff 6
  have hidle (hnot : ¬ZdaTimed fs) : zdaTimeDate fs clk r.date = r.date :=
    if_neg fun h => hnot h.1
  by_cases hy : fs.getD 1 [] = []
  · rw [hy] at hlen
    rw [if_neg (fun h => absurd (hlen.mp h.1) (by decide))] at hupdate
    rw [hidle fun h => absurd h.1 (by rw [hy]; decide)]
    split
    · exact hupdate
    · rfl
  · have hhead := h1.char0_ne_zero hy
    by_cases hchar : (nmeaTokenizerGet t 1).char0 ≠ 0
    · rw [if_pos hchar]
      refine hupdate.trans (if_congr (and_congr ?_ Iff.rfl) rfl rfl)
      exact hlen.trans ⟨fun hsix => ⟨hsix, hhead.mp hchar⟩, And.left⟩
    · rw [if_neg hchar, hidle fun ht => hchar (hhead.mpr ht.2)]

theorem parseZda_date (zone : Int) (clk : Clock) (r : NmeaReader D) :
    (parseZda zone clk t r).date =
      zdaTimeDate fs clk (if ZdaStored fs then zdaStored fs else r.date) := by
  rw [← zdaStored_date h r]
  exact zdaTimeDate_date h zone clk _

end ParseZda

/-- The date that `nmea_reader_parse` leaves for a ZDA sentence. -/
theorem zda_date (zone : Int) (cbs : GpsCallbacks) (clk : Clock) {r : NmeaReader D}
    {w : List UInt8} (h : Holds r (w ++ [0x0A]))
    (hid : slice ((fields (w ++ [0x0A])).getD 0 []) 2 5 = ascii ['Z', 'D', 'A']) :
    (nmeaReaderParse zone cbs clk r).1.date =
      zdaTimeDate (fields (w ++ [0x0A])) clk
        (if ZdaStored (fields (w ++ [0x0A])) then zdaStored (fields (w ++ [0x0A]))
          else r.date) := by
  have hid5 : 5 ≤ ((fields (w ++ [0x0A])).getD 0 []).length :=
    le_of_slice_length (congrArg List.length hid) (by decide)
  obtain ⟨out, -, hparse⟩ := parse_line zone cbs clk h hid5
  have htoken (i : Nat) (hi : i < 5) := h.lineToken (Nat.lt_trans hi (by decide : 5 < maxNmeaTokens))
  have hsid := h.sentenceId hid5
  have hshort := fun hw : w.length < 8 => short_line hw hid5
  generalize fields (w ++ [0x0A]) = fs at *
  rw [hparse]
  split
  case isTrue hw =>
    have htime : ¬ZdaTimed fs := fun ht =>
      absurd ((hshort hw 1).1 (Nat.le_refl 1)) (Nat.not_lt.mpr ht.1)
    have hyear : ¬ZdaStored fs := by
      intro hs
      have hlen := hs.2.2.1
      rw [(hshort hw 4).2 (Nat.le_refl 4)] at hlen
      cases hlen
    rw [if_neg hyear, zdaTimeDate, if_neg fun h => htime h.1]
  case isFalse hw =>
    have hsent : parseSentence zone clk (lineTokens r) r =
        (parseZda zone clk (lineTokens r) r, []) := by
      rw [parseSentence, hsid, hid]
      rfl
    rw [handle_date, hsent]
    exact parseZda_date htoken zone clk r

theorem IsDigits.head_ne_zero {n : Nat} {f : List UInt8} (hn : 0 < n)
    (hf : IsDigits n (f.take n)) : f.head? ≠ some 0 := by
  intro h
  cases f with
  | nil => cases h
  | cons b f =>
    cases h
    obtain ⟨n, rfl⟩ : ∃ m, n = m + 1 := ⟨n - 1, by omega⟩
    exact absurd (hf.2 0 List.mem_cons_self) (by decide)

/-- A date of the right form is stored with a negative year, which the time then replaces. -/
theorem ZdaWellFormed.timeDate_eq {fs : List (List UInt8)} (hw : ZdaWellFormed fs) (clk : Clock)
    (date : Int × Int × Int) :
    zdaTimeDate fs clk (if ZdaStored fs then zdaStored fs else date) = clk.date := by
  have hfour : 4 ≤ (fs.getD 4 []).length := Nat.le_of_eq hw.year.1.symm
  have hsix : 6 ≤ (fs.getD 1 []).length := by
    have hlen := hw.time.1.1
    rw [List.length_take] at hlen
    omega
  have hyear : IsDigits 4 ((fs.getD 4 []).take 4) := by
    rw [List.take_of_length_le (Nat.le_of_eq hw.year.1)]
    exact hw.year
  rw [if_pos ⟨Nat.le_of_eq hw.day.1.symm, Nat.le_of_eq hw.month.1.symm, hfour,
    hyear.head_ne_zero (by decide)⟩]
  exact if_pos ⟨⟨hsix, hw.time.1.head_ne_zero (by decide)⟩, zdaStored_year fs⟩

/-- Where storing the fields makes no difference behind the time. -/
theorem zdaTimeDate_stored_iff (fs : List (List UInt8)) (clk : Clock) (date : Int × Int × Int) :
    zdaTimeDate fs clk (if ZdaStored fs then zdaStored fs else date) = zdaTimeDate fs clk date ↔
      (ZdaStored fs →
        if ZdaTimed fs then date.2.2 < 0 ∨ date = clk.date else date = zdaStored fs) := by
  by_cases hstored : ZdaStored fs
  · rw [if_pos hstored, forall_prop_of_true hstored]
    by_cases htimed : ZdaTimed fs
    · rw [if_pos htimed, zdaTimeDate, if_pos ⟨htimed, zdaStored_year fs⟩,
        zdaTimeDate]
      by_cases hyear : date.2.2 < 0
      · rw [if_pos ⟨htimed, hyear⟩]
        exact iff_of_true rfl (.inl hyear)
      · rw [if_neg fun h => hyear h.2, or_iff_right hyear]
        exact eq_comm
    · rw [if_neg htimed, zdaTimeDate, if_neg fun h => htimed h.1, zdaTimeDate,
        if_neg fun h => htimed h.1]
      exact eq_comm
  · rw [if_neg hstored]
    exact iff_of_true rfl fun h => absurd h hstored

/-- Where the rule holds: for a date of the right form, only on that very day; for a malformed one,
where nothing is stored, or where what takes its place is what the time leaves as well. -/
theorem zda_iff (zone : Int) (cbs : GpsCallbacks) (clk : Clock) (r : NmeaReader D) (w : List UInt8)
    (h : Holds r (w ++ [0x0A]))
    (hid : slice ((fields (w ++ [0x0A])).getD 0 []) 2 5 = ascii ['Z', 'D', 'A']) :
    let fs := fields (w ++ [0x0A])
    ZdaRule fs clk r.date (nmeaReaderParse zone cbs clk r).1.date ↔
      (ZdaWellFormed fs → clk.date = zdaDate fs) ∧
      (ZdaMalformed fs → ZdaStored fs →
        if ZdaTimed fs then r.utcYear < 0 ∨ r.date = clk.date else r.date = zdaStored fs) := by
  intro fs
  rw [zda_date zone cbs clk h hid]
  show ZdaRule fs clk r.date (zdaTimeDate fs clk (if ZdaStored fs then zdaStored fs else r.date)) ↔ _
  have hdecoded (hw : ZdaWellFormed fs) := hw.timeDate_eq clk r.date
  have hrefused := zdaTimeDate_stored_iff fs clk r.date
  constructor
  · intro hrule
    refine ⟨fun hw => ?_, fun hm => hrefused.mp (hrule.refused hm)⟩
    rw [← hdecoded hw]
    exact hrule.decoded hw
  · rintro ⟨hwell, hmal⟩
    exact ⟨fun hw => (hdecoded hw).trans (hwell hw), fun hm => hrefused.mpr (hmal hm)⟩

/-- 2019-08-23 12:35:19. -/
def zdaLine : List UInt8 :=
  ascii ['$', 'G', 'P', 'Z', 'D', 'A', ',', '1', '2', '3', '5', '1', '9', ',', '2', '3', ',', '0', '8',
    ',', '2', '0', '1', '9', ',', ',']

theorem zdaLine_wellFormed : ZdaWellFormed (fields (zdaLine ++ [0x0A])) where
  time := ⟨by decide +kernel, .inl (by decide +kernel)⟩
  day := by decide +kernel
  month := by decide +kernel
  year := by decide +kernel

/-- A reader without a date that has the sentence in its buffer. -/
def zdaReader : NmeaReader ℚ := (nmeaReaderInit 0 ⟨0, 0, 0⟩).holding (zdaLine ++ [0x0A])

theorem zdaReader_holds : Holds zdaReader (zdaLine ++ [0x0A]) := holding_holds _ (by decide)

theorem zda_sameDay :
    ZdaRule (fields (zdaLine ++ [0x0A])) ⟨1566563719, 0, 0⟩ zdaReader.date
      (nmeaReaderParse 0 ⟨false, false, false, false⟩ ⟨1566563719, 0, 0⟩ zdaReader).1.date :=
  (zda_iff 0 ⟨false, false, false, false⟩ ⟨1566563719, 0, 0⟩ zdaReader zdaLine zdaReader_holds
    (by decide +kernel)).mpr ⟨fun _ => by decide +kernel, fun h => absurd h (by decide +kernel)⟩

/-- On any other day the system date is taken. -/
theorem not_zdaRule_otherDay :
    Holds zdaReader (zdaLine ++ [0x0A]) ∧
      slice ((fields (zdaLine ++ [0x0A])).getD 0 []) 2 5 = ascii ['Z', 'D', 'A'] ∧
      ¬ZdaRule (fields (zdaLine ++ [0x0A])) ⟨0, 0, 0⟩ zdaReader.date
        (nmeaReaderParse 0 ⟨false, false, false, false⟩ ⟨0, 0, 0⟩ zdaReader).1.date := by
  refine ⟨zdaReader_holds, by decide +kernel, fun h => ?_⟩
  have hdate := h.decoded zdaLine_wellFormed
  revert hdate
  decide +kernel

end HeadUnit.Gps
