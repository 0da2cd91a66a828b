import HeadUnit.Sensors.Answering
import HeadUnit.Std.Lag

/-!
# The drivers behind `SensorBase`

`readEvents` and `processEvent` of the drivers that `sensors.cpp` uses. Their `readEvents` differ in
what they do with one input event, so `SensorBase` is that, and one loop serves them all. A call lags
behind a transducer that answers each input event at once (`SensorBase.readEvents_spec`), and the
driver of `MagEvents` is one of them (`MagReader.readEvents_eq`).
-/

namespace HeadUnit.Sensors

variable {D : Type}

/-! ## One loop for all -/

/-- What sets a driver apart: what it keeps between input events, `numEvents` of its ring, and the
body of its `while` loop: what it keeps then, whether it calls `next`, and what it writes. -/
structure SensorBase (D : Type) where
  Kept : Type
  numEvents : Nat
  visit : Kept → InputEvent → Nat → Kept × Bool × List (SensorsEvent D)

structure SensorBase.State (S : SensorBase D) where
  kept : S.Kept
  mInputReader : InputEventCircularReader InputEvent S.numEvents

namespace SensorBase

variable (S : SensorBase D)

/-- The `while` loop. -/
def loop : Nat → S.State → Nat → Except Stop (S.State × List (SensorsEvent D))
  | 0, s, count =>
    if count = 0 ∨ s.mInputReader.readEvent = false then .ok (s, []) else .error .outOfFuel
  | fuel + 1, s, count =>
    if count = 0 ∨ s.mInputReader.readEvent = false then .ok (s, [])
    else
      match s.mInputReader.event with
      | .error f => .error (.fault f)
      | .ok event =>
        let (kept, taken, events) := S.visit s.kept event count
        let ring := if taken then s.mInputReader.next else s.mInputReader
        match loop fuel ⟨kept, ring⟩ (count - events.length) with
        | .error e => .error e
        | .ok (s, more) => .ok (s, events ++ more)

/-- The loop takes an event out of the ring each time around, but for the last one. -/
def readEvents (s : S.State) (c : ReadCall) :
    Except Stop (S.State × List (SensorsEvent D)) :=
  if s.mInputReader.mFreeSpace < c.events.length then .error .disabled
  else
    match s.mInputReader.fill c.events with
    | .error f => .error (.fault f)
    | .ok (mInputReader, _) => S.loop S.numEvents { s with mInputReader } c.count

end SensorBase

/-! ## Drivers of one sensor -/

/-- `data[0]` of an event. -/
def data0 : Fin 3 := (Fin.last 0).castSucc.castSucc
/-- `data[1]` of an event. -/
def data1 : Fin 3 := (Fin.last 1).castSucc
/-- `data[2]` of an event. -/
def data2 : Fin 3 := Fin.last 2

structure SingleSensor (D : Type) where
  mEnabled : Int
  mPendingMask : Bool
  mPendingEvent : SensorsEvent D

namespace SingleSensor

/-- `mPendingMask = 1`, and a component of the event. -/
def setComponent (s : SingleSensor D) (k : Fin 3) (x : D) : SingleSensor D :=
  { s with
    mPendingMask := true
    mPendingEvent := { s.mPendingEvent with v := Function.update s.mPendingEvent.v k x } }

/-- The answer to an `EV_SYN`. -/
def answer (s : SingleSensor D) (time : Int) : SingleSensor D × List (SensorsEvent D) :=
  if s.mPendingMask then
    let event := { s.mPendingEvent with timestamp := time }
    ({ s with mPendingMask := false, mPendingEvent := event },
      if s.mEnabled ≠ 0 then [event] else [])
  else (s, [])

/-- The body of the `while` loop. -/
def visit (processEvent : SingleSensor D → Nat → Int → SingleSensor D) (s : SingleSensor D)
    (event : InputEvent) (_count : Nat) : SingleSensor D × Bool × List (SensorsEvent D) :=
  if event.type = evAbs ∨ event.type = evRel ∨ event.type = evKey then
    (processEvent s event.code event.value, true, [])
  else if event.type = evSyn then
    let (s, events) := s.answer (timevalToNano event.time)
    (s, !s.mPendingMask, events)
  else (s, true, [])

end SingleSensor

/-! ### `AccelSensor.cpp` -/

section

variable [CDouble D]

namespace AccelSensor

/-- `ABS_X`. -/
def accEventX : Nat := 0x00
/-- `ABS_Y`. -/
def accEventY : Nat := 0x01
/-- `ABS_Z`. -/
def accEventZ : Nat := 0x02

def gravityEarth : D := CDouble.toFloat 9.80665

/-- `ACC_DATA_CONVERSION`. -/
def accDataConversion (value : Int) : D :=
  CDouble.toFloat (CDouble.toFloat (CDouble.ofInt value) *
    CDouble.toFloat (gravityEarth / CDouble.ofInt 0x4000))

def processEvent (s : SingleSensor D) (code : Nat) (value : Int) : SingleSensor D :=
  if code = accEventX then
    s.setComponent data0 (CDouble.toFloat (CDouble.ofInt 16 * accDataConversion value))
  else if code = accEventY then
    s.setComponent data1 (CDouble.toFloat (CDouble.ofInt 16 * accDataConversion value))
  else if code = accEventZ then
    s.setComponent data2 (CDouble.toFloat (CDouble.ofInt (-16) * accDataConversion value))
  else s

end AccelSensor

namespace GyroSensor

/-- `ABS_X`. -/
def gyroEventX : Nat := 0x00
/-- `ABS_Y`. -/
def gyroEventY : Nat := 0x01
/-- `ABS_Z`. -/
def gyroEventZ : Nat := 0x02

/-- `CONVERT_GYRO`. -/
def convertGyro : D :=
  CDouble.toFloat (CDouble.toFloat (70.0 / 1000.0) *
    CDouble.toFloat (CDouble.toFloat 3.14159265358979323846 / 180.0))

def processEvent (s : SingleSensor D) (code : Nat) (value : Int) : SingleSensor D :=
  if code = gyroEventX then
    s.setComponent data0 (CDouble.toFloat (CDouble.toFloat (CDouble.ofInt value) * convertGyro))
  else if code = gyroEventY then
    s.setComponent data1 (CDouble.toFloat (CDouble.toFloat (CDouble.ofInt value) * -convertGyro))
  else if code = gyroEventZ then
    s.setComponent data2 (CDouble.toFloat (CDouble.toFloat (CDouble.ofInt value) * convertGyro))
  else s

end GyroSensor

end

/-! ## Drivers of two sensors -/

structure SensorPair (D : Type) where
  mEnabled : Fin 2 → Int
  pending : Pending D

/-- The sensors `i` with `i < sensors`. -/
def SensorPair.sensors : List (Fin 2) := [(Fin.last 0).castSucc, Fin.last 1]

/-- The body of the `while` loop, whose `for` loop goes through both sensors. -/
def SensorPair.visit (processEvent : Pending D → Nat → Int → Pending D) (s : SensorPair D)
    (event : InputEvent) (count : Nat) : SensorPair D × Bool × List (SensorsEvent D) :=
  if event.type = evAbs ∨ event.type = evRel ∨ event.type = evKey then
    ({ s with pending := processEvent s.pending event.code event.value }, true, [])
  else if event.type = evSyn then
    let (pending, _, events) := Pending.answerLoop s.mEnabled (timevalToNano event.time)
      SensorPair.sensors s.pending count
    ({ s with pending }, pending.clear, events)
  else (s, true, [])

section

variable [CDouble D]

/-- The driver of `MagSensor.cpp`. -/
def magSensor (D : Type) [CDouble D] : SensorBase D :=
  ⟨SensorPair D, 16, SensorPair.visit Pending.processEvent⟩

/-! ### `PressSensor.cpp` -/

namespace PressSensor

/-- `ABS_PRESSURE`. -/
def pressEvent : Nat := 0x18

/-- `ABS_MISC`. -/
def temperatureEvent : Nat := 0x28

/-- `PRESS_DATA_CONVERSION`. -/
def pressDataConversion (value : Int) : D :=
  CDouble.toFloat (CDouble.toFloat (CDouble.ofInt value) / 400.0)

/-- `TEMPERATURE_DATA_CONVERSION`. -/
def temperatureDataConversion (value : Int) : D :=
  CDouble.toFloat (CDouble.toFloat (CDouble.ofInt value) / 16.0)

/-- `pressure` and `temperature` are `data[0]` of their events. -/
def processEvent (p : Pending D) (code : Nat) (value : Int) : Pending D :=
  if code = pressEvent then p.setComponent press data0 (pressDataConversion value)
  else if code = temperatureEvent then
    p.setComponent temperature data0 (temperatureDataConversion value)
  else p

end PressSensor

end

/-! ## Calls lag behind -/

namespace SensorBase

variable {S : SensorBase D} {T : Transducer S.Kept InputEvent (SensorsEvent D)} {s : S.State}
  {q : List InputEvent}

/-- A call that has had room left has emptied the ring. -/
theorem loop_spec (hT : T.Serves S.visit) {fuel : Nat} (count : Nat)
    (h : s.mInputReader.Holds q) (hfuel : q.length ≤ fuel) :
    ∃ s' out q', S.loop fuel s count = .ok (s', out) ∧ s'.mInputReader.Holds q' ∧
      T.Lag s.kept q s'.kept q' out ∧ out.length ≤ count ∧ (out.length < count → q' = []) := by
  induction fuel generalizing s q count with
  | zero =>
    obtain rfl : q = [] := List.length_eq_zero_iff.mp (Nat.le_zero.mp hfuel)
    have hempty : s.mInputReader.readEvent = false :=
      Bool.eq_false_iff.mpr fun hread => h.readEvent_iff.mp hread rfl
    exact ⟨s, [], [], if_pos (.inr hempty), h, .refl s.kept [], Nat.zero_le _, fun _ => rfl⟩
  | succ fuel ih =>
    by_cases hcount : count = 0
    · refine ⟨s, [], q, if_pos (.inl hcount), h, .refl s.kept q, Nat.zero_le _, fun hlt => ?_⟩
      exact absurd (hcount ▸ hlt) (Nat.not_lt_zero _)
    by_cases hread : s.mInputReader.readEvent = false
    · have hempty : q = [] := by
        by_contra hne
        rw [h.readEvent_iff.mpr hne] at hread
        cases hread
      exact ⟨s, [], q, if_pos (.inr hread), h, .refl s.kept q, Nat.zero_le _, fun _ => hempty⟩
    obtain ⟨e, rest, rfl⟩ :=
      List.exists_cons_of_ne_nil (h.readEvent_iff.mp ((Bool.not_eq_false _).mp hread))
    have hrest : rest.length ≤ fuel := Nat.le_of_succ_le_succ hfuel
    have hpos : 0 < count := Nat.pos_of_ne_zero hcount
    have hroom := hT.room s.kept e count hpos
    have htaken := hT.taken s.kept e count hpos
    have hpartly := hT.partly s.kept e count hpos
    rw [loop, if_neg (not_or.mpr ⟨hcount, hread⟩), h.event]
    rcases hvisit : S.visit s.kept e count with ⟨kept, taken, out⟩
    rw [hvisit] at hroom htaken hpartly
    dsimp only at hroom htaken hpartly
    simp only [hvisit]
    cases taken with
    | true =>
      obtain ⟨s', more, q', hloop, hs', hlag, hlen, hall⟩ :=
        ih (s := ⟨kept, s.mInputReader.next⟩) (count - out.length) h.next hrest
      refine ⟨s', out ++ more, q', ?_, hs', ?_, ?_, fun hlt => hall ?_⟩
      · rw [if_pos rfl, hloop]
      · exact (Transducer.Lag.next rest (htaken rfl)).trans hlag
      · rw [List.length_append]
        omega
      · rw [List.length_append] at hlt
        omega
    | false =>
      -- There is no more room, so the loop ends here.
      obtain ⟨hfull, t, more, hstep, hmore⟩ := hpartly rfl
      have hloop : S.loop fuel ⟨kept, s.mInputReader⟩ (count - out.length) =
          .ok (⟨kept, s.mInputReader⟩, []) := by
        rw [hfull, Nat.sub_self]
        cases fuel <;> exact if_pos (.inl rfl)
      refine ⟨⟨kept, s.mInputReader⟩, out, e :: rest, ?_, h, .partly rest hstep hmore, hroom,
        fun hlt => absurd hfull (Nat.ne_of_lt hlt)⟩
      rw [if_neg Bool.false_ne_true, hloop]
      dsimp only
      rw [List.append_nil]

theorem readEvents_spec (hT : T.Serves S.visit) {c : ReadCall} (h : s.mInputReader.Holds q) :
    S.readEvents s c = .error .disabled ∨ ∃ s' out q', S.readEvents s c = .ok (s', out) ∧
      s'.mInputReader.Holds q' ∧ T.Lag s.kept (q ++ c.events) s'.kept q' out ∧
        out.length ≤ c.count ∧ (out.length < c.count → q' = []) := by
  by_cases hroom : s.mInputReader.mFreeSpace < c.events.length
  · exact .inl (if_pos hroom)
  obtain ⟨ring, hfill, hring⟩ := h.fill (Nat.not_lt.mp hroom)
  have hlen : (q ++ c.events).length ≤ S.numEvents :=
    Nat.le.intro ((Nat.add_comm ..).trans hring.free)
  obtain ⟨s', out, q', hloop, hs', hlag⟩ :=
    loop_spec hT (s := { s with mInputReader := ring }) c.count hring hlen
  refine .inr ⟨s', out, q', ?_, hs', hlag⟩
  rw [readEvents, if_neg hroom, hfill]
  exact hloop

/-- The driver in use. -/
def calls (S : SensorBase D) : Machine Stop S.State ReadCall (SensorsEvent D) := ⟨S.readEvents⟩

theorem after_spec (hT : T.Serves S.visit) (h : s.mInputReader.Holds q) (cs : List ReadCall) :
    S.calls.after s cs = .error .disabled ∨ ∃ s' q', S.calls.after s cs = .ok s' ∧
      s'.mInputReader.Holds q' ∧
        T.Lag s.kept (q ++ MagReader.stream cs) s'.kept q' (S.calls.trace s cs) := by
  induction cs generalizing s q with
  | nil =>
    refine .inr ⟨s, q, rfl, h, ?_⟩
    show T.Lag s.kept (q ++ []) s.kept q []
    rw [List.append_nil]
    exact .refl s.kept q
  | cons c cs ih =>
    rcases readEvents_spec hT (c := c) h with hcall | ⟨t, out, q₁, hcall, ht, hfirst, -⟩
    · have hstep : S.calls.step s c = .error .disabled := hcall
      left
      rw [Machine.after, hstep]
    have hstep : S.calls.step s c = .ok (t, out) := hcall
    rw [S.calls.after_cons_of_ok hstep, S.calls.trace_cons_of_ok hstep]
    rcases ih ht with hstop | ⟨s', q', hrun, hs', hrest⟩
    · exact .inl hstop
    refine .inr ⟨s', q', hrun, hs', ?_⟩
    have hfirst := hfirst.append (MagReader.stream cs)
    rw [List.append_assoc] at hfirst
    exact hfirst.trans hrest

end SensorBase

/-! ## What the drivers lag behind -/

/-- A driver of one sensor with room for everything. -/
def SingleSensor.read (processEvent : SingleSensor D → Nat → Int → SingleSensor D)
    (s : SingleSensor D) (e : InputEvent) : SingleSensor D × List (SensorsEvent D) :=
  if e.type = evAbs ∨ e.type = evRel ∨ e.type = evKey then
    (processEvent s e.code e.value, [])
  else if e.type = evSyn then s.answer (timevalToNano e.time)
  else (s, [])

/-- A driver of two sensors with room for everything. -/
def SensorPair.read (processEvent : Pending D → Nat → Int → Pending D) (s : SensorPair D)
    (e : InputEvent) : SensorPair D × List (SensorsEvent D) :=
  if e.type = evAbs ∨ e.type = evRel ∨ e.type = evKey then
    ({ s with pending := processEvent s.pending e.code e.value }, [])
  else if e.type = evSyn then
    let (pending, events) := s.pending.answerAll s.mEnabled (timevalToNano e.time) sensors
    ({ s with pending }, events)
  else (s, [])

theorem SingleSensor.answer_mask (s : SingleSensor D) (time : Int) :
    (s.answer time).1.mPendingMask = false := by
  unfold answer
  split
  case isTrue => rfl
  case isFalse hmask => exact Bool.eq_false_iff.mpr hmask

theorem SingleSensor.answer_out (s : SingleSensor D) (time : Int) :
    (s.answer time).2 = if s.mPendingMask = true ∧ s.mEnabled ≠ 0 then
      [{ s.mPendingEvent with timestamp := time }] else [] := by
  unfold answer
  split
  case isTrue hmask => exact if_congr (and_iff_right hmask).symm rfl rfl
  case isFalse hmask => exact (if_neg fun h => hmask h.1).symm

theorem SingleSensor.serves (processEvent : SingleSensor D → Nat → Int → SingleSensor D) :
    Transducer.Serves ⟨SingleSensor.read processEvent⟩ (SingleSensor.visit processEvent) := by
  refine .of_taken (fun s e => ?_) fun s e n => ?_
  · show (SingleSensor.read processEvent s e).2.length ≤ 1
    unfold SingleSensor.read
    split
    case isTrue => exact Nat.zero_le _
    case isFalse =>
      split
      case isTrue =>
        rw [answer_out]
        split
        · exact Nat.le_refl 1
        · exact Nat.zero_le 1
      case isFalse => exact Nat.zero_le _
  · show SingleSensor.visit processEvent s e n =
      ((SingleSensor.read processEvent s e).1, true, (SingleSensor.read processEvent s e).2)
    unfold SingleSensor.visit SingleSensor.read
    split
    case isTrue => rfl
    case isFalse =>
      split
      case isTrue =>
        dsimp only
        rw [answer_mask]
        rfl
      case isFalse => rfl

theorem SensorPair.serves (processEvent : Pending D → Nat → Int → Pending D) :
    Transducer.Serves ⟨SensorPair.read processEvent⟩ (SensorPair.visit processEvent) := by
  have hboth (i : Fin 2) : i ∈ [] ++ SensorPair.sensors := by
    match i with
    | 0 => exact List.mem_cons_self
    | 1 => exact .tail _ List.mem_cons_self
  have hloop (s : SensorPair D) (time : Int) (n : Nat) :=
    Pending.answerLoop_spec s.mEnabled time (p := s.pending) SensorPair.sensors n
      (fun _ hi => absurd hi List.not_mem_nil) hboth
  refine ⟨fun s e n hn => ?_, fun s e n hn htaken => ?_, fun s e n hn hstays => ?_⟩
  · unfold SensorPair.visit
    split
    case isTrue => exact Nat.zero_le _
    case isFalse =>
      split
      case isTrue =>
        exact Nat.le.intro
          (Pending.answerLoop_length s.mEnabled (timevalToNano e.time) SensorPair.sensors s.pending n)
      case isFalse => exact Nat.zero_le _
  · show SensorPair.read processEvent s e = _
    unfold SensorPair.visit at htaken ⊢
    unfold SensorPair.read
    split
    case isTrue => rfl
    case isFalse hvalue =>
      rw [if_neg hvalue] at htaken
      split
      case isTrue hsyn =>
        rw [if_pos hsyn] at htaken
        obtain ⟨p', count', events, hanswer, hrest⟩ := hloop s (timevalToNano e.time) n
        rw [hanswer] at htaken ⊢
        rcases hrest with ⟨-, hall⟩ | ⟨hclear, -⟩
        · rw [hall]
        · exact absurd (hclear.symm.trans htaken) Bool.false_ne_true
      case isFalse => rfl
  · unfold SensorPair.visit at hstays ⊢
    split
    case isTrue hvalue =>
      rw [if_pos hvalue] at hstays
      cases hstays
    case isFalse hvalue =>
      rw [if_neg hvalue] at hstays
      split
      case isTrue hsyn =>
        rw [if_pos hsyn] at hstays
        have hlen := Pending.answerLoop_length s.mEnabled (timevalToNano e.time) SensorPair.sensors s.pending n
        obtain ⟨p', count', events, hanswer, hrest⟩ := hloop s (timevalToNano e.time) n
        rw [hanswer] at hstays hlen ⊢
        rcases hrest with ⟨hclear, -⟩ | ⟨-, hcount, t, more, hall, hmore⟩
        · exact absurd (hclear.symm.trans hstays) (Bool.false_ne_true ∘ Eq.symm)
        · have hread (p : Pending D) (t : Pending D × List (SensorsEvent D))
              (hp : p.answerAll s.mEnabled (timevalToNano e.time) SensorPair.sensors = t) :
              SensorPair.read processEvent { s with pending := p } e =
                ({ s with pending := t.1 }, t.2) := by
            rw [SensorPair.read, if_neg hvalue, if_pos hsyn]
            exact congrArg (fun t => (({ s with pending := t.1 } : SensorPair D), t.2)) hp
          refine ⟨?_, { s with pending := t }, more, hread s.pending _ hall, hread p' _ hmore⟩
          dsimp only at hlen ⊢
          omega
      case isFalse hsyn =>
        rw [if_neg hsyn] at hstays
        cases hstays

/-! ## The driver of `MagEvents` -/

namespace MagReader

variable [CDouble D]

def toState (s : MagReader D) : (magSensor D).State := ⟨⟨s.mEnabled, s.pending⟩, s.mInputReader⟩

theorem visit_eq (s : MagReader D) (event : InputEvent) (count : Nat) :
    ∃ kept taken events, (magSensor D).visit s.toState.kept event count = (kept, taken, events) ∧
      s.visit event count = (⟨kept.mEnabled, kept.pending,
        if taken then s.mInputReader.next else s.mInputReader⟩, count - events.length, events) := by
  have hvisit : (magSensor D).visit s.toState.kept event count =
      SensorPair.visit Pending.processEvent ⟨s.mEnabled, s.pending⟩ event count := rfl
  rw [hvisit]
  unfold SensorPair.visit MagReader.visit
  split
  case isTrue => exact ⟨_, _, _, rfl, rfl⟩
  case isFalse =>
    split
    case isFalse => exact ⟨_, _, _, rfl, rfl⟩
    case isTrue =>
      have hlen := Pending.answerLoop_length s.mEnabled (timevalToNano event.time) SensorPair.sensors s.pending
        count
      rcases hanswer : Pending.answerLoop s.mEnabled (timevalToNano event.time) SensorPair.sensors s.pending
        count with ⟨p', count', events⟩
      rw [hanswer] at hlen
      obtain rfl : count' = count - events.length := Nat.eq_sub_of_add_eq' hlen
      refine ⟨⟨s.mEnabled, p'⟩, p'.clear, events, rfl, ?_⟩
      have hmag : Pending.answerLoop s.mEnabled (timevalToNano event.time)
        [MagSensor.mag, MagSensor.orn] s.pending count = (p', count - events.length, events) := hanswer
      rw [hmag]
      dsimp only
      split <;> rfl

theorem loop_eq (s : MagReader D) (fuel count : Nat) :
    (magSensor D).loop fuel s.toState count =
      (loop fuel s count).map fun r => (r.1.toState, r.2) := by
  induction fuel generalizing s count with
  | zero =>
    show (if count = 0 ∨ s.mInputReader.readEvent = false then _ else _) = Except.map _
      (if count = 0 ∨ s.mInputReader.readEvent = false then _ else _)
    split <;> rfl
  | succ fuel ih =>
    by_cases hstop : count = 0 ∨ s.mInputReader.readEvent = false
    · have hstop' : count = 0 ∨ s.toState.mInputReader.readEvent = false := hstop
      rw [loop, SensorBase.loop, if_pos hstop, if_pos hstop']
      rfl
    have hstop' : ¬(count = 0 ∨ s.toState.mInputReader.readEvent = false) := hstop
    have hevent : s.toState.mInputReader.event = s.mInputReader.event := rfl
    rw [loop, SensorBase.loop, if_neg hstop, if_neg hstop', hevent]
    cases s.mInputReader.event with
    | error f => rfl
    | ok event =>
      obtain ⟨kept, taken, events, hvisit, hmag⟩ := s.visit_eq event count
      have hrest : (magSensor D).loop fuel
          ⟨kept, if taken then s.toState.mInputReader.next else s.toState.mInputReader⟩
          (count - events.length) = (loop fuel ⟨kept.mEnabled, kept.pending,
            if taken then s.mInputReader.next else s.mInputReader⟩ (count - events.length)).map
              fun r => (r.1.toState, r.2) := by
        cases taken with
        | true => exact ih ⟨kept.mEnabled, kept.pending, s.mInputReader.next⟩ _
        | false => exact ih ⟨kept.mEnabled, kept.pending, s.mInputReader⟩ _
      simp only [hvisit, hmag, hrest]
      generalize loop (D := D) fuel _ (count - events.length) = r
      cases r <;> rfl

/-- The call of `MagEvents` is that of the driver. -/
theorem readEvents_eq (s : MagReader D) (c : ReadCall) :
    (magSensor D).readEvents s.toState c =
      (s.readEvents c).map fun r => (r.1.toState, r.2) := by
  rw [MagReader.readEvents, SensorBase.readEvents]
  have hspace : s.toState.mInputReader.mFreeSpace = s.mInputReader.mFreeSpace := rfl
  have hfill : s.toState.mInputReader.fill c.events = s.mInputReader.fill c.events := rfl
  rw [hspace, hfill]
  split
  case isTrue => rfl
  case isFalse =>
    cases s.mInputReader.fill c.events with
    | error f => rfl
    | ok r => exact loop_eq { s with mInputReader := r.1 } 16 c.count

end MagReader

end HeadUnit.Sensors
