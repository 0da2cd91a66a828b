import HeadUnit.Sensors.Channels
import HeadUnit.Std.Outcome

/-!
# Delivery does not depend on the calls

`reports` says what a stream of input events amounts to for the magnetic and the orientation sensor.
This is what calls of `MagReader.readEvents` deliver that take in the whole stream
(`readEvents_reports`): they are calls of one of the drivers behind `SensorBase`, which lag behind it.
-/

namespace HeadUnit.Sensors

variable {D : Type} [CDouble D]

/-- What is to be delivered for the stream behind `past`: for each `EV_SYN`, an event of each enabled
sensor for which there has been a value since the last one, with its time and the last values. -/
def reports (mEnabled : Fin 2 → Int) (init : Fin 2 → SensorsEvent D) :
    List InputEvent → List InputEvent → List (SensorsEvent D) :=
  Channel.reports MagSensor.channel mEnabled init

/-- The driver as it is constructed, for given contents of its memory. -/
def MagReader.start (mEnabled : Fin 2 → Int) (init : Fin 2 → SensorsEvent D)
    (mBuffer : Vector InputEvent (2 * 16)) : MagReader D :=
  ⟨mEnabled, ⟨fun _ => false, init⟩, .init mBuffer⟩

/-- The calls are calls of the driver behind `SensorBase`. -/
theorem MagReader.embeds :
    (magReader D).Embeds (magSensor D).calls MagReader.toState :=
  MagReader.readEvents_eq

/-- The calls never leave the ring's buffer; calls that take in the whole stream deliver what it
amounts to, and so any two such schedules of one stream deliver the same. -/
theorem readEvents_reports (mEnabled : Fin 2 → Int) (init : Fin 2 → SensorsEvent D)
    (mBuffer : Vector InputEvent (2 * 16)) :
    (∀ calls stop, (magReader D).after (.start mEnabled init mBuffer) calls = .error stop →
      stop = .disabled) ∧
    (∀ calls s, (magReader D).after (.start mEnabled init mBuffer) calls = .ok s →
      s.mInputReader.readEvent = false →
      (magReader D).trace (.start mEnabled init mBuffer) calls =
        reports mEnabled init [] (MagReader.stream calls)) ∧
    ∀ calls calls' s s', MagReader.stream calls = MagReader.stream calls' →
      (magReader D).after (.start mEnabled init mBuffer) calls = .ok s →
      s.mInputReader.readEvent = false →
      (magReader D).after (.start mEnabled init mBuffer) calls' = .ok s' →
      s'.mInputReader.readEvent = false →
      (magReader D).trace (.start mEnabled init mBuffer) calls =
        (magReader D).trace (.start mEnabled init mBuffer) calls' := by
  have hring : (MagReader.start mEnabled init mBuffer).toState.mInputReader.Holds [] :=
    .init (by decide) mBuffer
  have hcalls (calls) := SensorBase.after_spec (magAccount D).serves hring calls
  have hdeliver (calls s) (hrun : (magReader D).after (.start mEnabled init mBuffer) calls = .ok s)
      (hempty : s.mInputReader.readEvent = false) :
      (magReader D).trace (.start mEnabled init mBuffer) calls =
        reports mEnabled init [] (MagReader.stream calls) := by
    rcases hcalls calls with hstop | ⟨s', q', hok, hs', hlag⟩
    · rw [MagReader.embeds.after, hrun] at hstop
      cases hstop
    rw [MagReader.embeds.after, hrun] at hok
    obtain rfl : s.toState = s' := Except.ok.inj hok
    obtain rfl : q' = [] := by
      by_contra hne
      rw [show s.mInputReader.readEvent = true from hs'.readEvent_iff.mpr hne] at hempty
      cases hempty
    rw [← MagReader.embeds.trace, hlag.out_of_nil]
    refine Tracks.reports ?_ (magAccount D).answers
      (MagReader.stream calls)
    exact .start mEnabled init
  refine ⟨fun calls stop hrun => ?_, hdeliver, fun calls calls' s s' hstream hs he hs' he' => ?_⟩
  · rcases hcalls calls with hstop | ⟨s', q', hok, -⟩
    · rw [MagReader.embeds.after, hrun] at hstop
      exact Except.error.inj hstop
    · rw [MagReader.embeds.after, hrun] at hok
      cases hok
  · rw [hdeliver calls s hs he, hdeliver calls' s' hs' he', hstream]

/-- A value of each sensor, and an `EV_SYN`. -/
def bothSensors : List InputEvent :=
  [⟨⟨0, 0⟩, evAbs, magEventX, 20⟩, ⟨⟨0, 0⟩, evAbs, ornEventYaw, 300⟩, ⟨⟨1, 0⟩, evSyn, 0, 0⟩]

/-- The first call has room for the magnetic sensor only, so that the `EV_SYN` stays in the ring. -/
def partlyAnswered : List ReadCall := [⟨1, by decide, bothSensors⟩, ⟨1, by decide, []⟩]

theorem readEvents_reports_partly :
    let mEnabled : Fin 2 → Int := fun _ => 1
    let init : Fin 2 → SensorsEvent ℚ := fun _ => ⟨0, 0, 0, fun _ => 0, 0⟩
    let start : MagReader ℚ := .start mEnabled init (Vector.replicate _ ⟨⟨0, 0⟩, 0, 0, 0⟩)
    (∃ s, (magReader ℚ).after start (partlyAnswered.take 1) = .ok s ∧
      s.mInputReader.readEvent = true) ∧
    ((magReader ℚ).trace start partlyAnswered).map
      (fun e => (e.timestamp, e.v data0)) = [(1000000000, 1), (1000000000, 3)] ∧
    (magReader ℚ).trace start partlyAnswered = reports mEnabled init [] bothSensors ∧
    (magReader ℚ).trace start partlyAnswered =
      (magReader ℚ).trace start [⟨2, by decide, bothSensors⟩] := by
  intro mEnabled init start
  obtain ⟨-, hreports, hsame⟩ :=
    readEvents_reports mEnabled init (Vector.replicate _ ⟨⟨0, 0⟩, 0, 0, 0⟩)
  have hrun (calls : List ReadCall) (stays : Bool)
      (h : ((magReader ℚ).after start calls).toOption.map (fun s => s.mInputReader.readEvent) =
        some stays) := Except.exists_of_toOption h
  obtain ⟨s, hs, hempty⟩ := hrun partlyAnswered false (by decide +kernel)
  obtain ⟨s', hs', hempty'⟩ := hrun [⟨2, by decide, bothSensors⟩] false (by decide +kernel)
  exact ⟨hrun _ true (by decide +kernel), by decide +kernel, hreports partlyAnswered s hs hempty,
    hsame _ _ s s' rfl hs hempty hs' hempty'⟩

end HeadUnit.Sensors
