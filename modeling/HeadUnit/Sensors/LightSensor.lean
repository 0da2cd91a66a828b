import Mathlib.Data.List.Destutter
import HeadUnit.Sensors.Drivers
import HeadUnit.Std.Outcome

/-!
# The light sensor

`LightSensor.cpp` reports a value when an `EV_SYN` finds another one than the last that was
reported, so its reports are the readings without repetitions (`lightSensor_reports`). The
thresholds that `setIntLux` writes are left out; nothing here reads them.
-/

namespace HeadUnit.Sensors

variable {D : Type}

/-- `ABS_MISC`. -/
def eventTypeLight : Nat := 0x28

/-- `light` is `data[0]` of the event. -/
structure LightSensor (D : Type) where
  mEnabled : Bool
  mPreviousLight : D
  mPendingEvent : SensorsEvent D

namespace LightSensor

variable [CDouble D]

/-- What an `EV_ABS` does. -/
def processEvent (s : LightSensor D) (code : Nat) (value : Int) : LightSensor D :=
  if code = eventTypeLight then
    { s with mPendingEvent := { s.mPendingEvent with
      v := Function.update s.mPendingEvent.v data0 (CDouble.toFloat (CDouble.ofInt value)) } }
  else s

variable [DecidableEq D]

/-- The answer to an `EV_SYN`. -/
def answer (s : LightSensor D) (time : Int) : LightSensor D × List (SensorsEvent D) :=
  let event := { s.mPendingEvent with timestamp := time }
  if s.mEnabled ∧ event.v data0 ≠ s.mPreviousLight then
    ({ s with mPendingEvent := event, mPreviousLight := event.v data0 }, [event])
  else ({ s with mPendingEvent := event }, [])

def read (s : LightSensor D) (event : InputEvent) : LightSensor D × List (SensorsEvent D) :=
  if event.type = evAbs then (s.processEvent event.code event.value, [])
  else if event.type = evSyn then s.answer (timevalToNano event.time)
  else (s, [])

/-- The body of the `while` loop, which always calls `next`. -/
def visit (s : LightSensor D) (event : InputEvent) (_count : Nat) :
    LightSensor D × Bool × List (SensorsEvent D) :=
  let (s, events) := s.read event
  (s, true, events)

end LightSensor

/-- The driver from where `readEvents` calls `fill`. -/
def lightSensor (D : Type) [CDouble D] [DecidableEq D] : SensorBase D :=
  ⟨LightSensor D, 4, LightSensor.visit⟩

section

variable [CDouble D] [DecidableEq D]

structure LightReader (D : Type) [CDouble D] [DecidableEq D] where
  mHasPendingEvent : Bool
  sensor : (lightSensor D).State

/-- A call of `readEvents`, with what `getTimestamp` returns in it. -/
structure LightCall where
  timestamp : Int
  call : ReadCall

def LightReader.readEvents (s : LightReader D) (c : LightCall) :
    Except Stop (LightReader D × List (SensorsEvent D)) :=
  if s.mHasPendingEvent then
    let event := { s.sensor.kept.mPendingEvent with timestamp := c.timestamp }
    .ok (⟨false, { s.sensor with kept := { s.sensor.kept with mPendingEvent := event } }⟩,
      if s.sensor.kept.mEnabled then [event] else [])
  else
    match (lightSensor D).readEvents s.sensor c.call with
    | .error stop => .error stop
    | .ok (sensor, events) => .ok ({ s with sensor }, events)

/-- The light sensor in use. -/
def lightReader (D : Type) [CDouble D] [DecidableEq D] :
    Machine Stop (LightReader D) LightCall (SensorsEvent D) := ⟨LightReader.readEvents⟩

/-- The driver as it is constructed, for given contents of its memory. -/
def LightReader.start (kept : LightSensor D) (mBuffer : Vector InputEvent (2 * 4)) :
    LightReader D := ⟨false, kept, .init mBuffer⟩

/-- `mHasPendingEvent` is never set. -/
theorem LightReader.after_eq (sensor : (lightSensor D).State) (cs : List LightCall) :
    (lightReader D).after ⟨false, sensor⟩ cs =
        ((lightSensor D).calls.after sensor (cs.map (·.call))).map (⟨false, ·⟩) ∧
      (lightReader D).trace ⟨false, sensor⟩ cs =
        (lightSensor D).calls.trace sensor (cs.map (·.call)) := by
  induction cs generalizing sensor with
  | nil => exact ⟨rfl, rfl⟩
  | cons c cs ih =>
    have hstep : (lightReader D).step ⟨false, sensor⟩ c =
        match (lightSensor D).readEvents sensor c.call with
        | .error stop => .error stop
        | .ok (sensor, events) => .ok (⟨false, sensor⟩, events) := rfl
    rw [List.map_cons, Machine.after, Machine.after, Machine.trace, Machine.trace, hstep]
    have hcall : (lightSensor D).calls.step sensor c.call =
      (lightSensor D).readEvents sensor c.call := rfl
    rw [hcall]
    cases (lightSensor D).readEvents sensor c.call with
    | error stop => exact ⟨rfl, rfl⟩
    | ok result =>
      obtain ⟨hafter, htrace⟩ := ih result.1
      exact ⟨hafter, congrArg (result.2 ++ ·) htrace⟩

/-! ## What it reports -/

/-- The light at each `EV_SYN` of the stream. -/
def readings (s : LightSensor D) : List InputEvent → List D
  | [] => []
  | e :: es =>
    (if e.type = evSyn then [s.mPendingEvent.v data0] else []) ++ readings (s.read e).1 es

namespace LightSensor

theorem serves : Transducer.Serves ⟨read (D := D)⟩ visit := by
  refine .of_taken (fun s e => ?_) fun _ _ _ => rfl
  show (s.read e).2.length ≤ 1
  unfold read answer
  split
  case isTrue => exact Nat.zero_le 1
  case isFalse =>
    split
    case isFalse => exact Nat.zero_le 1
    case isTrue =>
      dsimp only
      split
      case isTrue => exact Nat.le_refl 1
      case isFalse => exact Nat.zero_le 1

/-- What is reported is what is read, without repetitions. -/
theorem out_eq (s : LightSensor D) (hs : s.mEnabled = true) (es : List InputEvent) :
    s.mPreviousLight :: (Transducer.out ⟨read⟩ s es).map (·.v data0) =
      (readings s es).destutter' (· ≠ ·) s.mPreviousLight := by
  induction es generalizing s with
  | nil => rfl
  | cons e es ih =>
    rw [Transducer.out_cons, readings]
    show s.mPreviousLight :: (List.map _ ((s.read e).2 ++ Transducer.out _ (s.read e).1 es)) = _
    rw [List.map_append]
    have hne : evSyn ≠ evAbs := by decide
    by_cases habs : e.type = evAbs
    · have hread : s.read e = (s.processEvent e.code e.value, []) := if_pos habs
      have hkept : (s.processEvent e.code e.value).mEnabled = true ∧
          (s.processEvent e.code e.value).mPreviousLight = s.mPreviousLight := by
        unfold processEvent
        split <;> exact ⟨hs, rfl⟩
      have hrest := ih (s.processEvent e.code e.value) hkept.1
      rw [hkept.2] at hrest
      rw [if_neg fun hsyn => hne (hsyn.symm.trans habs), hread]
      exact hrest
    by_cases hsyn : e.type = evSyn
    · have hread : s.read e = s.answer (timevalToNano e.time) := (if_neg habs).trans (if_pos hsyn)
      rw [if_pos hsyn, hread, List.singleton_append, List.destutter'_cons, answer]
      by_cases hnew : s.mPendingEvent.v data0 ≠ s.mPreviousLight
      · rw [if_pos ⟨hs, hnew⟩, if_pos hnew.symm]
        exact congrArg (_ :: ·) (ih ⟨s.mEnabled, s.mPendingEvent.v data0,
          { s.mPendingEvent with timestamp := timevalToNano e.time }⟩ hs)
      · rw [if_neg fun h => hnew h.2, if_neg fun h => hnew h.symm]
        exact ih ⟨s.mEnabled, s.mPreviousLight,
          { s.mPendingEvent with timestamp := timevalToNano e.time }⟩ hs
    · have hread : s.read e = (s, []) := (if_neg habs).trans (if_neg hsyn)
      rw [if_neg hsyn, hread]
      exact ih s hs

end LightSensor

/-- However often and with whatever room the enabled light sensor is read, it never reports a value
twice in a row, and once its ring is empty it has reported its readings without repetitions. -/
theorem lightSensor_reports (kept : LightSensor D) (hkept : kept.mEnabled = true)
    (mBuffer : Vector InputEvent (2 * 4)) (cs : List LightCall) {s : LightReader D}
    (hrun : (lightReader D).after (.start kept mBuffer) cs = .ok s) :
    let lights := ((lightReader D).trace (.start kept mBuffer) cs).map (·.v data0)
    let stream := MagReader.stream (cs.map (·.call))
    (kept.mPreviousLight :: lights).IsChain (· ≠ ·) ∧
    kept.mPreviousLight :: lights <+:
      (readings kept stream).destutter' (· ≠ ·) kept.mPreviousLight ∧
    (s.sensor.mInputReader.readEvent = false → kept.mPreviousLight :: lights =
      (readings kept stream).destutter' (· ≠ ·) kept.mPreviousLight) := by
  obtain ⟨hafter, htrace⟩ := LightReader.after_eq ⟨kept, .init mBuffer⟩ cs
  have hring : (InputEventCircularReader.init (n := (lightSensor D).numEvents) mBuffer).Holds [] :=
    .init (Nat.zero_lt_succ 3) mBuffer
  rw [LightReader.start] at hrun ⊢
  rw [hafter] at hrun
  rw [htrace]
  rcases SensorBase.after_spec (S := lightSensor D) LightSensor.serves
    (s := ⟨kept, .init mBuffer⟩) hring (cs.map (·.call)) with hstop | ⟨t, q, hok, ht, hlag⟩
  · rw [hstop] at hrun
    cases hrun
  rw [hok] at hrun
  cases hrun
  have hout := kept.out_eq hkept (MagReader.stream (cs.map (·.call)))
  have hprefix : kept.mPreviousLight :: ((lightSensor D).calls.trace ⟨kept, .init mBuffer⟩
      (cs.map (·.call))).map (·.v data0) <+:
        (readings kept (MagReader.stream (cs.map (·.call)))).destutter' (· ≠ ·)
          kept.mPreviousLight := by
    rw [← hout]
    exact List.cons_prefix_cons.mpr ⟨rfl, hlag.prefix_out.map _⟩
  refine ⟨?_, hprefix, fun hempty => ?_⟩
  · obtain ⟨rest, hrest⟩ := hprefix
    have hchain := List.isChain_destutter' (· ≠ ·)
      (readings kept (MagReader.stream (cs.map (·.call)))) kept.mPreviousLight
    rw [← hrest] at hchain
    exact hchain.left_of_append
  obtain rfl : q = [] := by
    by_contra hne
    exact absurd (hempty.symm.trans (ht.readEvent_iff.mpr hne)) Bool.false_ne_true
  rw [← hout, hlag.out_of_nil]
  rfl

end

/-- The light stays at 5, which is reported once, and goes to 7 in the next call. -/
def lightCalls : List LightCall :=
  [⟨0, 4, by decide, [⟨⟨0, 0⟩, evAbs, eventTypeLight, 5⟩, ⟨⟨0, 0⟩, evSyn, 0, 0⟩,
    ⟨⟨1, 0⟩, evAbs, eventTypeLight, 5⟩, ⟨⟨1, 0⟩, evSyn, 0, 0⟩]⟩,
  ⟨0, 4, by decide, [⟨⟨2, 0⟩, evAbs, eventTypeLight, 7⟩, ⟨⟨2, 0⟩, evSyn, 0, 0⟩]⟩]

def darkSensor : LightSensor ℚ := ⟨true, -1, ⟨4, 5, 0, fun _ => 0, 0⟩⟩

theorem lightSensor_reports_twice :
    let start : LightReader ℚ := .start darkSensor (Vector.replicate _ ⟨⟨0, 0⟩, 0, 0, 0⟩)
    ∃ s, (lightReader ℚ).after start lightCalls = .ok s ∧
      ((lightReader ℚ).trace start lightCalls).map (·.v data0) = [5, 7] ∧
      (readings darkSensor (MagReader.stream (lightCalls.map (·.call)))).destutter' (· ≠ ·) (-1) =
        [-1, 5, 7] := by
  intro start
  obtain ⟨s, hrun, hempty⟩ := Except.exists_of_toOption
    (f := fun s => s.sensor.mInputReader.readEvent)
    (x := (lightReader ℚ).after start lightCalls) (b := false) (by decide +kernel)
  have htrace : ((lightReader ℚ).trace start lightCalls).map (·.v data0) = [5, 7] := by
    decide +kernel
  have hall := (lightSensor_reports darkSensor rfl _ lightCalls hrun).2.2 hempty
  exact ⟨s, hrun, htrace, hall.symm.trans (congrArg (-1 :: ·) htrace)⟩

end HeadUnit.Sensors
