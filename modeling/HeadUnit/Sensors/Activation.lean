import HeadUnit.Sensors.Enable

/-!
# Failed activations

The drivers count before they ask the hardware. Where the hardware of the magnetometer or of the
pressure sensor refuses, `activate` returns the error and leaves the counts as they are by then.
-/

namespace HeadUnit.Sensors

variable {s : SensorsPollContext} {c : Call}

/-- A call that returns an error leaves all counts as they were. -/
def FailsUnchanged (s : SensorsPollContext) (c : Call) : Prop :=
  ∀ err, .returned err ∈ (s.activate c).2 → err ≠ 0 → (s.activate c).1 = s

/-- The sensors whose driver's `writeEnable` may fail. -/
def MayFail (handle : Int) : Prop := handle = idM ∨ handle = idO ∨ handle = idP ∨ handle = idT

instance (handle : Int) : Decidable (MayFail handle) := inferInstanceAs (Decidable (_ ∨ _ ∨ _ ∨ _))

/-- All counts that a call for such a sensor goes through are 0. -/
def SensorsPollContext.Unused (s : SensorsPollContext) (handle : Int) : Prop :=
  handle = idM ∧ s.accel.mUser = 0 ∧ s.mag.mEnabled MagSensor.mag = 0 ∨
    handle = idO ∧ s.accel.mUser = 0 ∧ s.mag.mEnabled MagSensor.orn = 0 ∨
    handle = idP ∧ s.pressure.mEnabled PressSensor.press = 0 ∨
    handle = idT ∧ s.pressure.mEnabled PressSensor.temperature = 0

/-! ## Counts -/

theorem counted_eq_self_iff (count enabled : Int) :
    counted count enabled = count ↔ enabled = 0 ∧ count = 0 := by
  rw [counted]
  split <;> split <;> omega

theorem countedUser_eq_self_iff (mUser enabled : Int) :
    countedUser mUser enabled = mUser ↔ enabled = 0 ∧ mUser = 0 := by
  rw [countedUser]
  split
  · omega
  · split <;> omega

/-- Counting leaves a pair of counts alone where it leaves the one it goes to alone. -/
theorem update_counted_eq_self_iff (mEnabled : Fin 2 → Int) (what : Fin 2) (enabled : Int) :
    Function.update mEnabled what (counted (mEnabled what) enabled) = mEnabled ↔
      enabled = 0 ∧ mEnabled what = 0 := by
  rw [Function.update_eq_self_iff, counted_eq_self_iff]

namespace SensorsPollContext

/-- What a call for the pressure or the temperature sensor does. -/
theorem activate_pressure (s : SensorsPollContext) (enabled written : Int) {handle : Int}
    {what : Fin 2} (h : handle = idP ∧ what = PressSensor.press ∨
      handle = idT ∧ what = PressSensor.temperature) :
    (s.activate ⟨handle, enabled, written⟩).1 = { s with
      pressure :=
        ⟨Function.update s.pressure.mEnabled what (counted (s.pressure.mEnabled what) enabled)⟩ } := by
  rcases h with ⟨rfl, rfl⟩ | ⟨rfl, rfl⟩
  · rfl
  · rfl

theorem activate_mag_eq_self_iff (s : SensorsPollContext) (enabled written : Int) {handle : Int}
    {what : Fin 2} (h : handle = idM ∧ what = MagSensor.mag ∨ handle = idO ∧ what = MagSensor.orn) :
    (s.activate ⟨handle, enabled, written⟩).1 = s ↔
      enabled = 0 ∧ s.accel.mUser = 0 ∧ s.mag.mEnabled what = 0 := by
  obtain ⟨⟨mUser, mEnabled⟩, ⟨pair⟩, pressure, gyro⟩ := s
  rw [(activate_mag _ enabled written h).1]
  simp only [mk.injEq, SharedSensor.mk.injEq, PairSensor.mk.injEq, and_true,
    countedUser_eq_self_iff, update_counted_eq_self_iff]
  exact and_and_left.symm

theorem activate_pressure_eq_self_iff (s : SensorsPollContext) (enabled written : Int) {handle : Int}
    {what : Fin 2} (h : handle = idP ∧ what = PressSensor.press ∨
      handle = idT ∧ what = PressSensor.temperature) :
    (s.activate ⟨handle, enabled, written⟩).1 = s ↔
      enabled = 0 ∧ s.pressure.mEnabled what = 0 := by
  obtain ⟨accel, mag, ⟨pair⟩, gyro⟩ := s
  rw [activate_pressure _ enabled written h]
  simp only [mk.injEq, PairSensor.mk.injEq, true_and, and_true, update_counted_eq_self_iff]

/-- Where the hardware may refuse, nothing is counted only where a sensor that is not enabled is
disabled. -/
theorem activate_eq_self_iff (h : MayFail c.handle) :
    (s.activate c).1 = s ↔ c.enabled = 0 ∧ s.Unused c.handle := by
  have hMO : idM ≠ idO := by decide
  have hMP : idM ≠ idP := by decide
  have hMT : idM ≠ idT := by decide
  have hOP : idO ≠ idP := by decide
  have hOT : idO ≠ idT := by decide
  have hPT : idP ≠ idT := by decide
  obtain ⟨handle, enabled, written⟩ := c
  rw [Unused]
  rcases h with rfl | rfl | rfl | rfl
  · rw [activate_mag_eq_self_iff s enabled written (.inl ⟨rfl, rfl⟩)]
    simp only [hMO, hMP, hMT, true_and, false_and, or_false]
  · rw [activate_mag_eq_self_iff s enabled written (.inr ⟨rfl, rfl⟩)]
    simp only [hMO.symm, hOP, hOT, true_and, false_and, or_false, false_or]
  · rw [activate_pressure_eq_self_iff s enabled written (.inl ⟨rfl, rfl⟩)]
    simp only [hMP.symm, hOP.symm, hPT, true_and, false_and, or_false, false_or]
  · rw [activate_pressure_eq_self_iff s enabled written (.inr ⟨rfl, rfl⟩)]
    simp only [hMT.symm, hOT.symm, hPT.symm, true_and, false_and, false_or]

/-! ## Errors -/

theorem returned_not_mem_request (err : Int) (d : Driver) (on : Bool) :
    .returned err ∉ [Effect.request d on] :=
  fun hmem => nomatch List.mem_singleton.mp hmem

theorem returned_mem_iff (requests : List Effect) (enabled err result : Int)
    (h : .returned err ∉ requests) :
    Effect.returned err ∈ requests ++ (if enabled ≠ 0 ∧ result = 0 then [Effect.wakeMessage] else []) ++
      [.returned result] ↔ err = result := by
  have hwake : Effect.returned err ∉
      (if enabled ≠ 0 ∧ result = 0 then [Effect.wakeMessage] else []) := by
    split
    · exact fun hmem => nomatch List.mem_singleton.mp hmem
    · exact List.not_mem_nil
  rw [List.mem_append, List.mem_append, or_iff_right (not_or.mpr ⟨h, hwake⟩), List.mem_singleton,
    Effect.returned.injEq]

/-- The result where the hardware may refuse. -/
theorem activate_returned (h : MayFail c.handle) (err : Int) :
    .returned err ∈ (s.activate c).2 ↔ err = c.written := by
  obtain ⟨handle, enabled, written⟩ := c
  have hone := returned_not_mem_request err
  have htwo (d d' : Driver) (on on' : Bool) :
      .returned err ∉ [Effect.request d on] ++ [Effect.request d' on'] :=
    fun hmem => (List.mem_append.mp hmem).elim (hone d on) (hone d' on')
  rcases h with rfl | rfl | rfl | rfl
  · exact returned_mem_iff _ enabled err written (htwo .accel .mag _ _)
  · exact returned_mem_iff _ enabled err written (htwo .accel .mag _ _)
  · exact returned_mem_iff _ enabled err written (hone .pressure _)
  · exact returned_mem_iff _ enabled err written (hone .pressure _)

/-- Elsewhere an error means that there is no such sensor. -/
theorem activate_unknown (h : ¬MayFail c.handle) {err : Int}
    (herr : .returned err ∈ (s.activate c).2) (hne : err ≠ 0) : (s.activate c).1 = s := by
  obtain ⟨handle, enabled, written⟩ := c
  obtain ⟨hM, hO, hP, hT⟩ : handle ≠ idM ∧ handle ≠ idO ∧ handle ≠ idP ∧ handle ≠ idT := by
    rw [MayFail, not_or, not_or, not_or] at h
    exact h
  have hzero (d : Driver) (on : Bool)
      (hmem : Effect.returned err ∈ [Effect.request d on] ++
        (if enabled ≠ 0 ∧ (0 : Int) = 0 then [Effect.wakeMessage] else []) ++ [.returned 0]) :
      err = 0 :=
    (returned_mem_iff _ enabled err 0 (returned_not_mem_request err d on)).mp hmem
  by_cases hA : handle = idA
  · subst hA
    exact absurd (hzero .accel _ herr) hne
  by_cases hG : handle = idGy
  · subst hG
    exact absurd (hzero .gyro _ herr) hne
  rw [activate, handleToDriver, if_neg hA, if_neg (not_or.mpr ⟨hM, hO⟩), if_neg (not_or.mpr ⟨hP, hT⟩),
    if_neg hG]

end SensorsPollContext

open SensorsPollContext

/-- Where the rule holds: unless the hardware of the magnetometer or of the pressure sensor refuses,
and there where a sensor is disabled none of whose counts is above 0. -/
theorem failsUnchanged_iff (s : SensorsPollContext) (c : Call) :
    FailsUnchanged s c ↔
      (MayFail c.handle → c.written ≠ 0 → c.enabled = 0 ∧ s.Unused c.handle) := by
  by_cases h : MayFail c.handle
  · rw [forall_prop_of_true h, ← activate_eq_self_iff h]
    constructor
    · exact fun hfails hwritten => hfails _ ((activate_returned h _).mpr rfl) hwritten
    · intro hsame err herr hne
      rw [(activate_returned h err).mp herr] at hne
      exact hsame hne
  · exact iff_of_true (fun err => activate_unknown h) fun hmay => absurd hmay h

/-- The magnetic sensor is enabled in vain: it and the accelerometer count a user. -/
theorem not_failsUnchanged_mag : ¬FailsUnchanged .init ⟨idM, 1, -5⟩ := by
  intro h
  have hsame := h (-5) (by decide) (by decide)
  exact absurd (congrArg (·.accel.mUser) hsame) (by decide)

end HeadUnit.Sensors
