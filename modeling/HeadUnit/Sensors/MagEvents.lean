import HeadUnit.Std.Decimal
import HeadUnit.Std.Machine
import HeadUnit.Sensors.Enable
import HeadUnit.Sensors.EventRing

/-!
# Events of the magnetic and the orientation sensor

`MagSensor::readEvents` and `processEvent`. An `EV_SYN` is answered with an event for each sensor
that is pending; where the caller's space runs out in between, the next call goes on with the same
`EV_SYN`.
-/

namespace HeadUnit.Sensors

/-! ## Input events -/

def evSyn : Nat := 0x00
def evKey : Nat := 0x01
def evRel : Nat := 0x02
def evAbs : Nat := 0x03

/-- `ABS_X`. -/
def magEventX : Nat := 0x00
/-- `ABS_Y`. -/
def magEventY : Nat := 0x01
/-- `ABS_Z`. -/
def magEventZ : Nat := 0x02
/-- `ABS_RX`. -/
def ornEventYaw : Nat := 0x03
/-- `ABS_RY`. -/
def ornEventPitch : Nat := 0x04
/-- `ABS_RZ`. -/
def ornEventRoll : Nat := 0x05
/-- `ABS_WHEEL`. -/
def ornEventStatus : Nat := 0x08

structure Timeval where
  tvSec : Int
  tvUsec : Int
  deriving DecidableEq, Repr

def timevalToNano (t : Timeval) : Int := t.tvSec * 1000000000 + t.tvUsec * 1000

structure InputEvent where
  time : Timeval
  type : Nat
  code : Nat
  value : Int
  deriving DecidableEq, Repr

variable {D : Type} [CDouble D]

/-- `MAG_DATA_CONVERSION`. -/
def magDataConversion (value : Int) : D :=
  CDouble.toFloat (CDouble.toFloat (CDouble.ofInt value) / 20.0)

/-- `ORN_DATA_CONVERSION`. -/
def ornDataConversion (value : Int) : D :=
  CDouble.toFloat (CDouble.toFloat (CDouble.ofInt value) / 100.0)

/-- The fields of `sensors_event_t` that are set or handed over here. `v` are `magnetic.x`, `y`, `z`
or `orientation.azimuth`, `pitch`, `roll`. -/
@[ext] structure SensorsEvent (D : Type) where
  sensor : Int
  type : Int
  timestamp : Int
  v : Fin 3 → D
  status : Int8

/-! ## The driver -/

/-- What the driver keeps between input events: the bits of `mPendingMask`, and `mPendingEvent`. -/
structure Pending (D : Type) where
  mPendingMask : Fin 2 → Bool
  mPendingEvent : Fin 2 → SensorsEvent D

namespace Pending

/-- `mPendingMask |= 1 << what`, and a component of the event. -/
def setComponent (p : Pending D) (what : Fin 2) (k : Fin 3) (x : D) : Pending D where
  mPendingMask := Function.update p.mPendingMask what true
  mPendingEvent := Function.update p.mPendingEvent what
    { p.mPendingEvent what with v := Function.update (p.mPendingEvent what).v k x }

def processEvent (p : Pending D) (code : Nat) (value : Int) : Pending D :=
  if code = magEventX then p.setComponent MagSensor.mag 0 (magDataConversion value)
  else if code = magEventY then p.setComponent MagSensor.mag 1 (magDataConversion value)
  else if code = magEventZ then p.setComponent MagSensor.mag 2 (magDataConversion value)
  else if code = ornEventYaw then p.setComponent MagSensor.orn 0 (ornDataConversion value)
  else if code = ornEventPitch then p.setComponent MagSensor.orn 1 (ornDataConversion value)
  else if code = ornEventRoll then p.setComponent MagSensor.orn 2 (ornDataConversion value)
  else if code = ornEventStatus then
    { mPendingMask := fun _ => true
      mPendingEvent := fun i => { p.mPendingEvent i with status := Int8.ofInt value } }
  else p

/-- `mPendingMask` is 0. -/
def clear (p : Pending D) : Bool := p.mPendingMask MagSensor.mag = false ∧
  p.mPendingMask MagSensor.orn = false

/-- The body of the `for` loop at `i`, and what it delivers. -/
def answer (mEnabled : Fin 2 → Int) (time : Int) (p : Pending D) (i : Fin 2) :
    Pending D × List (SensorsEvent D) :=
  if p.mPendingMask i then
    let event := { p.mPendingEvent i with timestamp := time }
    ({ mPendingMask := Function.update p.mPendingMask i false
       mPendingEvent := Function.update p.mPendingEvent i event },
      if mEnabled i ≠ 0 then [event] else [])
  else (p, [])

/-- The `for` loop over the sensors `is`. -/
def answerLoop (mEnabled : Fin 2 → Int) (time : Int) :
    List (Fin 2) → Pending D → Nat → Pending D × Nat × List (SensorsEvent D)
  | [], p, count => (p, count, [])
  | i :: is, p, count =>
    if p.clear ∨ count = 0 then (p, count, [])
    else
      let (p, event) := p.answer mEnabled time i
      let (p, count, events) := answerLoop mEnabled time is p (count - event.length)
      (p, count, event ++ events)

end Pending

/-- Why a call of `readEvents` is not a call of the driver. -/
inductive Stop where
  /-- `read` does not return more than it is asked for. -/
  | disabled
  | fault (f : Fault)
  | outOfFuel

structure MagReader (D : Type) where
  mEnabled : Fin 2 → Int
  pending : Pending D
  mInputReader : InputEventCircularReader InputEvent 16

/-- A call of `readEvents` with room for `count` events, in which `read` delivers `events`. -/
structure ReadCall where
  count : Nat
  pos : 0 < count
  events : List InputEvent

namespace MagReader

/-- The body of the `while` loop. -/
def visit (s : MagReader D) (event : InputEvent) (count : Nat) :
    MagReader D × Nat × List (SensorsEvent D) :=
  if event.type = evAbs ∨ event.type = evRel ∨ event.type = evKey then
    ({ s with
      pending := s.pending.processEvent event.code event.value
      mInputReader := s.mInputReader.next }, count, [])
  else if event.type = evSyn then
    let (pending, count, events) := Pending.answerLoop s.mEnabled (timevalToNano event.time)
      [MagSensor.mag, MagSensor.orn] s.pending count
    if pending.clear then
      ({ s with pending, mInputReader := s.mInputReader.next }, count, events)
    else ({ s with pending }, count, events)
  else ({ s with mInputReader := s.mInputReader.next }, count, [])

/-- The `while` loop. -/
def loop : Nat → MagReader D → Nat → Except Stop (MagReader D × List (SensorsEvent D))
  | 0, s, count =>
    if count = 0 ∨ s.mInputReader.readEvent = false then .ok (s, []) else .error .outOfFuel
  | fuel + 1, s, count =>
    if count = 0 ∨ s.mInputReader.readEvent = false then .ok (s, [])
    else
      match s.mInputReader.event with
      | .error f => .error (.fault f)
      | .ok event =>
        let (s, count, events) := s.visit event count
        match loop fuel s count with
        | .error e => .error e
        | .ok (s, more) => .ok (s, events ++ more)

/-- The loop takes an event out of the ring each time around, but for the last one. -/
def readEvents (s : MagReader D) (c : ReadCall) :
    Except Stop (MagReader D × List (SensorsEvent D)) :=
  if s.mInputReader.mFreeSpace < c.events.length then .error .disabled
  else
    match s.mInputReader.fill c.events with
    | .error f => .error (.fault f)
    | .ok (mInputReader, _) => loop 16 { s with mInputReader } c.count

/-- What `read` delivers in the course of the calls. -/
def stream (calls : List ReadCall) : List InputEvent := (calls.map ReadCall.events).flatten

end MagReader

/-- The driver in use. -/
def magReader (D : Type) [CDouble D] : Machine Stop (MagReader D) ReadCall (SensorsEvent D) :=
  ⟨MagReader.readEvents⟩

end HeadUnit.Sensors
