import Mathlib.Data.List.Basic

/-!
# Civil time

The conversions between seconds since 1970-01-01 00:00 UTC and `struct tm` in the Gregorian
calendar: `gmtimeR`, and `localtimeR` and `mktime` for a zone at a fixed offset from UTC.
-/

/-- `struct tm`, without the fields derived from these. -/
structure Tm where
  sec : Int
  min : Int
  hour : Int
  mday : Int
  mon : Int
  year : Int
  yday : Int
  deriving DecidableEq, Repr

namespace Calendar

/-- Seconds in a day. -/
def daySecs : Int := 86400

def IsLeap (y : Int) : Prop := y % 4 = 0 ∧ (y % 100 ≠ 0 ∨ y % 400 = 0)

instance (y : Int) : Decidable (IsLeap y) := inferInstanceAs (Decidable (_ ∧ _))

/-- Days from 1970-01-01 to the first day of year `y`. -/
def yearStart (y : Int) : Int :=
  365 * (y - 1970) + ((y - 1) / 4 - (y - 1) / 100 + (y - 1) / 400 - 477)

/-- Days from the first day of the year to the first day of month `m`, counted from 0. -/
def monthStart (leap : Bool) (m : Nat) : Int :=
  [0, 31, 59, 90, 120, 151, 181, 212, 243, 273, 304, 334, 365].getD m 0 +
    if leap ∧ 2 ≤ m then 1 else 0

/-- Days from 1970-01-01 to a date; the month counts from 0, the day from 1. -/
def days (y : Int) (m : Nat) (d : Int) : Int := yearStart y + monthStart (IsLeap y) m + (d - 1)

/-- The year of the day `n` days after 1970-01-01. -/
def yearOf (n : Int) : Int :=
  let y := 1970 + 400 * n / 146097
  if n < yearStart y then y - 1 else if yearStart (y + 1) ≤ n then y + 1 else y

/-- The last month, at most `m`, that has begun on a day of the year. -/
def monthOf (leap : Bool) (yday : Int) : (m : Nat) → Nat
  | 0 => 0
  | m + 1 => if monthStart leap (m + 1) ≤ yday then m + 1 else monthOf leap yday m

def gmtimeR (t : Int) : Tm :=
  let n := t / daySecs
  let y := yearOf n
  let yday := n - yearStart y
  let mon := monthOf (IsLeap y) yday 11
  { sec := t % 60
    min := t / 60 % 60
    hour := t / 3600 % 24
    mday := yday - monthStart (IsLeap y) mon + 1
    mon := mon
    year := y - 1900
    yday := yday }

def localtimeR (zone t : Int) : Tm := gmtimeR (t + zone)

/-- The seconds of a broken-down UTC time, months out of range carried into the year. -/
def timegm (tm : Tm) : Int :=
  let y := tm.year + 1900 + tm.mon / 12
  days y (tm.mon % 12).toNat tm.mday * daySecs + tm.hour * 3600 + tm.min * 60 + tm.sec

/-- `mktime` where local time is UTC plus `zone`. -/
def mktime (zone : Int) (tm : Tm) : Int := timegm tm - zone

/-- A time of day of a date of the calendar. -/
structure Valid (tm : Tm) : Prop where
  sec : 0 ≤ tm.sec ∧ tm.sec < 60
  min : 0 ≤ tm.min ∧ tm.min < 60
  hour : 0 ≤ tm.hour ∧ tm.hour < 24
  mon : 0 ≤ tm.mon ∧ tm.mon < 12
  mday : 1 ≤ tm.mday
  mday_le : tm.mday ≤ monthStart (IsLeap (tm.year + 1900)) (tm.mon.toNat + 1) -
    monthStart (IsLeap (tm.year + 1900)) tm.mon.toNat

/-! ## Years and days -/

theorem yearStart_succ (y : Int) :
    yearStart (y + 1) = yearStart y + if IsLeap y then 366 else 365 := by
  have h4 : (y + 1 - 1) / 4 = (y - 1) / 4 + if y % 4 = 0 then 1 else 0 := by split <;> omega
  have h100 : (y + 1 - 1) / 100 = (y - 1) / 100 + if y % 100 = 0 then 1 else 0 := by
    split <;> omega
  have h400 : (y + 1 - 1) / 400 = (y - 1) / 400 + if y % 400 = 0 then 1 else 0 := by
    split <;> omega
  simp only [yearStart, h4, h100, h400]
  by_cases h : IsLeap y
  · rw [if_pos h]
    obtain ⟨h1, h2⟩ := h
    rw [if_pos h1]
    split <;> split <;> omega
  · rw [if_neg h]
    rw [IsLeap] at h
    split <;> split <;> split <;> omega

theorem yearStart_mono {x y : Int} (h : x ≤ y) : yearStart x ≤ yearStart y := by
  obtain ⟨k, rfl⟩ : ∃ k : Nat, y = x + k := ⟨(y - x).toNat, by omega⟩
  clear h
  induction k with
  | zero => simp
  | succ k ih =>
    have hsucc := yearStart_succ (x + k)
    rw [Int.add_assoc] at hsucc
    push_cast
    split at hsucc <;> omega

/-- The estimate `yearOf` starts from is off by at most a year. -/
theorem yearOf_estimate (n : Int) :
    yearStart (1970 + 400 * n / 146097 - 1) ≤ n ∧
      n < yearStart (1970 + 400 * n / 146097 + 1 + 1) := by
  simp only [yearStart]
  constructor <;> omega

/-- The year of a day is the one whose days it is among. -/
theorem yearOf_spec (n : Int) : yearStart (yearOf n) ≤ n ∧ n < yearStart (yearOf n + 1) := by
  obtain ⟨hlo, hhi⟩ := yearOf_estimate n
  rw [yearOf]
  generalize 1970 + 400 * n / 146097 = y at hlo hhi
  by_cases h1 : n < yearStart y
  · rw [if_pos h1, Int.sub_add_cancel]
    exact ⟨hlo, h1⟩
  · rw [if_neg h1]
    by_cases h2 : yearStart (y + 1) ≤ n
    · rw [if_pos h2]
      exact ⟨h2, hhi⟩
    · rw [if_neg h2]
      exact ⟨Int.not_lt.mp h1, Int.not_le.mp h2⟩

theorem yearOf_eq {n y : Int} (hlo : yearStart y ≤ n) (hhi : n < yearStart (y + 1)) :
    yearOf n = y := by
  obtain ⟨h1, h2⟩ := yearOf_spec n
  rcases Int.lt_trichotomy (yearOf n) y with h | h | h
  · have := yearStart_mono (x := yearOf n + 1) (y := y) (by omega)
    omega
  · exact h
  · have := yearStart_mono (x := y + 1) (y := yearOf n) (by omega)
    omega

theorem monthStart_mono (leap : Bool) :
    ∀ m ≤ 12, ∀ k ≤ m, monthStart leap k ≤ monthStart leap m := by
  cases leap <;> decide

theorem monthOf_eq {leap : Bool} {yday : Int} {m n : Nat} (hmn : m ≤ n) (hn : n ≤ 11)
    (hlo : monthStart leap m ≤ yday) (hhi : yday < monthStart leap (m + 1)) :
    monthOf leap yday n = m := by
  induction n with
  | zero => exact (Nat.le_zero.mp hmn).symm
  | succ n ih =>
    rw [monthOf]
    rcases Nat.lt_or_ge n m with h | h
    · have hm : m = n + 1 := by omega
      rw [if_pos (hm ▸ hlo), hm]
    · have hmono := monthStart_mono leap (n + 1) (by omega) (m + 1) (by omega)
      rw [if_neg (by omega), ih h (by omega)]

/-! ## Conversions -/

/-- The seconds of the day in `gmtimeR` are those of the instant. -/
theorem gmtimeR_time (t : Int) :
    (gmtimeR t).hour * 3600 + (gmtimeR t).min * 60 + (gmtimeR t).sec = t % daySecs := by
  simp only [gmtimeR, daySecs]
  omega

/-- Day, year and day of the year in `gmtimeR` belong together. -/
theorem gmtimeR_day (t : Int) :
    yearStart ((gmtimeR t).year + 1900) + (gmtimeR t).yday = t / daySecs := by
  simp only [gmtimeR]
  rw [Int.sub_add_cancel]
  omega

/-- `gmtimeR` spells out the instant that `timegm` gives a valid date and time. -/
theorem gmtimeR_timegm {tm : Tm} (h : Valid tm) :
    gmtimeR (timegm tm) = { tm with yday := (gmtimeR (timegm tm)).yday } := by
  obtain ⟨hs, hm, hh, hmon, hd, hd'⟩ := h
  have hmon0 : tm.mon / 12 = 0 := by omega
  have hmod : (tm.mon % 12).toNat = tm.mon.toNat := by omega
  have hday : timegm tm / daySecs = days (tm.year + 1900) tm.mon.toNat tm.mday := by
    simp only [timegm, hmon0, hmod, Int.add_zero, daySecs]
    omega
  have hdays : days (tm.year + 1900) tm.mon.toNat tm.mday = yearStart (tm.year + 1900) +
      (monthStart (IsLeap (tm.year + 1900)) tm.mon.toNat + (tm.mday - 1)) := by
    rw [days, Int.add_assoc]
  have hstart : ∀ leap : Bool, 0 ≤ monthStart leap tm.mon.toNat ∧
      monthStart leap (tm.mon.toNat + 1) ≤ if leap then 366 else 365 := by
    intro leap
    have h0 := monthStart_mono leap tm.mon.toNat (by omega) 0 (by omega)
    have h12 := monthStart_mono leap 12 (by omega) (tm.mon.toNat + 1) (by omega)
    cases leap
    · exact ⟨h0, h12⟩
    · exact ⟨h0, h12⟩
  obtain ⟨hlo, hhi⟩ := hstart (IsLeap (tm.year + 1900))
  have hyear : yearOf (timegm tm / daySecs) = tm.year + 1900 := by
    have hsucc := yearStart_succ (tm.year + 1900)
    rw [hday, hdays]
    apply yearOf_eq
    · omega
    · rw [hsucc]
      by_cases hleap : IsLeap (tm.year + 1900)
      · simp only [hleap, decide_true, if_true] at hhi hd' ⊢; omega
      · simp only [hleap, decide_false, if_false, Bool.false_eq_true] at hhi hd' ⊢; omega
  have hyday : timegm tm / daySecs - yearStart (tm.year + 1900) =
      monthStart (IsLeap (tm.year + 1900)) tm.mon.toNat + (tm.mday - 1) := by
    rw [hday, hdays]; omega
  have hmonth : monthOf (IsLeap (tm.year + 1900))
      (monthStart (IsLeap (tm.year + 1900)) tm.mon.toNat + (tm.mday - 1)) 11 = tm.mon.toNat :=
    monthOf_eq (by omega) (by omega) (by omega) (by omega)
  have hsecs : timegm tm = timegm tm / daySecs * daySecs +
      (tm.hour * 3600 + tm.min * 60 + tm.sec) := by
    rw [hday]
    simp only [timegm, hmon0, hmod, Int.add_zero]
    omega
  have hsec : timegm tm % 60 = tm.sec := by simp only [daySecs] at hsecs; omega
  have hmin : timegm tm / 60 % 60 = tm.min := by simp only [daySecs] at hsecs; omega
  have hhour : timegm tm / 3600 % 24 = tm.hour := by simp only [daySecs] at hsecs; omega
  have hmday : monthStart (IsLeap (tm.year + 1900)) tm.mon.toNat + (tm.mday - 1) -
      monthStart (IsLeap (tm.year + 1900)) tm.mon.toNat + 1 = tm.mday := by omega
  have hmonInt : (tm.mon.toNat : Int) = tm.mon := by omega
  simp only [gmtimeR, hyear, hyday, hmonth, hsec, hmin, hhour, hmday, hmonInt, Int.add_sub_cancel]

end Calendar
