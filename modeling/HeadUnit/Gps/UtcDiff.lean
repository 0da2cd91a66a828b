import HeadUnit.Gps.Reader

/-!
# The UTC difference

`nmea_reader_update_utc_diff` takes the difference of two second counts that give every year 365
days. It is minus the offset of the zone, but for a day where UTC and local time are on either side
of the end of a leap year (`utcDiff_iff`).
-/

namespace HeadUnit.Gps

open Calendar

/-! ## Years that meet -/

/-- The days of leap years before a year, up to a constant. -/
def leapDays (y : Int) : Int := yearStart y - 365 * y

theorem leapDays_succ (y : Int) : leapDays (y + 1) = leapDays y + if IsLeap y then 1 else 0 := by
  have hsucc := yearStart_succ y
  rw [leapDays, leapDays, hsucc]
  split <;> omega

/-- A day is one of the year it is in. -/
theorem gmtimeR_year (t : Int) :
    yearStart ((gmtimeR t).year + 1900) ≤ t / daySecs ∧
      t / daySecs < yearStart ((gmtimeR t).year + 1900 + 1) := by
  have hspec := yearOf_spec (t / daySecs)
  simp only [gmtimeR]
  rw [Int.sub_add_cancel]
  exact hspec

/-- Days that are neighbours are in the same year or in years that are. -/
theorem year_le_succ {n n' y y' : Int} (hn : n' ≤ n + 1) (hy : n < yearStart (y + 1))
    (hy' : yearStart y' ≤ n') : y' ≤ y + 1 := by
  by_contra hlt
  have hmono := yearStart_mono (x := y + 1 + 1) (y := y') (by omega)
  have hsucc := yearStart_succ (y + 1)
  split at hsucc <;> omega

/-! ## The difference -/

variable {D : Type} {zone : Int}

/-- `utc_diff` is off by a day for each leap year that ends between UTC and local time. -/
theorem utcDiff_leapDays (zone : Int) (clk : Clock) (r : NmeaReader D) :
    (nmeaReaderUpdateUtcDiff zone clk r).utcDiff = wrap32 (-zone + daySecs *
      (leapDays ((localtimeR zone clk.now).year + 1900) -
        leapDays ((gmtimeR clk.now).year + 1900))) := by
  have htime := gmtimeR_time clk.now
  have htime' := gmtimeR_time (clk.now + zone)
  have hday := gmtimeR_day clk.now
  have hday' := gmtimeR_day (clk.now + zone)
  simp only [nmeaReaderUpdateUtcDiff, localtimeR, wrap32_sub, leapDays]
  simp only [daySecs] at htime htime' hday hday' ⊢
  generalize gmtimeR clk.now = tm at *
  generalize gmtimeR (clk.now + zone) = tm' at *
  congr 1
  omega

/-- Where UTC and local time are in the same year, `utc_diff` is minus the offset of the zone. -/
theorem utcDiff_eq {clk : Clock} (r : NmeaReader D)
    (hzone : -(14 * 3600) ≤ zone ∧ zone ≤ 14 * 3600)
    (hyear : (gmtimeR clk.now).year = (localtimeR zone clk.now).year) :
    (nmeaReaderUpdateUtcDiff zone clk r).utcDiff = -zone := by
  rw [utcDiff_leapDays, hyear, Int.sub_self, Int.mul_zero, Int.add_zero]
  exact wrap32_eq (by omega) (by omega)

/-- The years of UTC and of local time are the same, or the one that is ending is no leap year. -/
def NoLeapDayBetween (zone t : Int) : Prop :=
  (gmtimeR t).year = (localtimeR zone t).year ∨
    ¬IsLeap (min (gmtimeR t).year (localtimeR zone t).year + 1900)

instance (zone t : Int) : Decidable (NoLeapDayBetween zone t) := inferInstanceAs (Decidable (_ ∨ _))

theorem utcDiff_iff (hzone : -(14 * 3600) ≤ zone ∧ zone ≤ 14 * 3600) (clk : Clock)
    (r : NmeaReader D) :
    (nmeaReaderUpdateUtcDiff zone clk r).utcDiff = -zone ↔ NoLeapDayBetween zone clk.now := by
  obtain ⟨hlo, hhi⟩ := gmtimeR_year clk.now
  obtain ⟨hlo', hhi'⟩ := gmtimeR_year (clk.now + zone)
  rw [utcDiff_leapDays, NoLeapDayBetween, localtimeR]
  simp only [daySecs] at hlo hhi hlo' hhi' ⊢
  generalize (gmtimeR clk.now).year = y at *
  generalize (gmtimeR (clk.now + zone)).year = y' at *
  have hle := year_le_succ (by omega) hhi hlo'
  have hle' := year_le_succ (by omega) hhi' hlo
  rcases Int.lt_trichotomy y y' with hlt | rfl | hlt
  · -- local time is in the next year
    obtain rfl : y' = y + 1 := by omega
    have hsucc := leapDays_succ (y + 1900)
    have hcomm : y + 1 + 1900 = y + 1900 + 1 := by omega
    rw [min_eq_left (Int.le_of_lt hlt), hcomm, hsucc]
    split
    · rw [wrap32_eq (by omega) (by omega)]
      simp [*]
    · rw [wrap32_eq (by omega) (by omega)]
      simp [*]
  · rw [Int.sub_self, Int.mul_zero, Int.add_zero, wrap32_eq (by omega) (by omega)]
    exact iff_of_true rfl (.inl rfl)
  · -- local time is still in the last year
    obtain rfl : y = y' + 1 := by omega
    have hsucc := leapDays_succ (y' + 1900)
    have hcomm : y' + 1 + 1900 = y' + 1900 + 1 := by omega
    rw [min_eq_right (Int.le_of_lt hlt), hcomm, hsucc]
    split
    · rw [wrap32_eq (by omega) (by omega)]
      simp [*]
    · rw [wrap32_eq (by omega) (by omega)]
      simp [*]

/-- Half an hour before the end of 2020, with local time one hour ahead. -/
theorem not_utcDiff_newYear :
    (nmeaReaderUpdateUtcDiff 3600 ⟨1609457400, 0, 0⟩ (zeroReader : NmeaReader ℚ)).utcDiff ≠
      -3600 := by
  decide +kernel

/-- Half an hour before the end of 2019 the difference is right. -/
theorem utcDiff_newYear_2019 :
    (nmeaReaderUpdateUtcDiff 3600 ⟨1577835000, 0, 0⟩ (zeroReader : NmeaReader ℚ)).utcDiff = -3600 :=
  (utcDiff_iff (by decide) ⟨1577835000, 0, 0⟩ zeroReader).mpr (by decide +kernel)

end HeadUnit.Gps
