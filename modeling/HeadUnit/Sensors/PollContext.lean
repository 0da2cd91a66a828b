import HeadUnit.Sensors.Channels
import HeadUnit.Sensors.Poll

/-!
# The sensors as the framework sees them

`pollEvents` with its drivers, over all calls of a process: `Poll` asks the drivers, and here they
answer with what they read from their devices. What happens on both sides is put on record, and the
invariant of a run says that each driver has passed on what its device's stream amounts to, as far
as it has got.
-/

namespace HeadUnit.Sensors

variable {D : Type}

/-! ## The machine -/

/-- What the outside answers. -/
inductive Answer where
  /-- The bit of the driver is not set. -/
  | notPending
  /-- `read` delivers events of the device that is visited. -/
  | read (events : List InputEvent)
  | readFailed (errno : Nat)
  | polled (n : Nat) (revents : Fin numFds → Bool)
  | pollFailed (errno : Nat)
  /-- The framework calls again, with room for `count` events. -/
  | call (count : Nat)

/-- What is put on record. -/
inductive Happening (D : Type) where
  | call (count : Nat)
  | read (driver : Fin numSensorDrivers) (events : List InputEvent)
  | written (driver : Fin numSensorDrivers) (slot : Int) (event : SensorsEvent D)

structure PollContext (mSensors : Fin numSensorDrivers → SensorBase D) where
  poll : PollState
  sensor : ∀ i, (mSensors i).State

/-- A step of `pollEvents`. -/
def PollState.respond (s : PollState) (r : Response) : Except Stop (PollState × List Int) :=
  match pollEvents.step s r with
  | .ok result => .ok result
  | .error .disabled => .error .disabled

namespace PollContext

variable {mSensors : Fin numSensorDrivers → SensorBase D}

/-- A step in which no driver is called. -/
def respond (s : PollContext mSensors) (r : Response) :
    Except Stop (PollContext mSensors × List (Happening D)) := do
  let (poll, _) ← s.poll.respond r
  .ok ({ s with poll }, [])

/-- `readEvents` of driver `i` with room for `count` events. -/
def readEvents (s : PollContext mSensors) (i : Fin numSensorDrivers) (c : ReadCall) :
    Except Stop (PollContext mSensors × List (Happening D)) := do
  let (sensor, written) ← (mSensors i).readEvents (s.sensor i) c
  let (poll, slots) ← s.poll.respond (.readEvents (.events written.length))
  .ok (⟨poll, Function.update s.sensor i sensor⟩,
    .read i c.events :: List.zipWith (.written i) slots written)

def step (s : PollContext mSensors) (a : Answer) :
    Except Stop (PollContext mSensors × List (Happening D)) :=
  match a, s.poll.pc with
  | .call count, .returned _ =>
    .ok ({ s with poll := pollStart count s.poll.revents }, [.call count])
  | .notPending, .driver _ => s.respond .notPending
  | .read events, .driver i =>
    if h : s.poll.revents i.castSucc ∧ 0 < s.poll.count.toNat then
      s.readEvents i ⟨s.poll.count.toNat, h.2, events⟩
    else .error .disabled
  | .readFailed errno, .driver i =>
    if s.poll.revents i.castSucc then s.respond (.readEvents (.error errno)) else .error .disabled
  | .polled n revents, .poll => s.respond (.polled n revents)
  | .pollFailed errno, .poll => s.respond (.pollFailed errno)
  | _, _ => .error .disabled

end PollContext

/-- The sensors in use. -/
def pollContext (mSensors : Fin numSensorDrivers → SensorBase D) :
    Machine Stop (PollContext mSensors) Answer (Happening D) := ⟨PollContext.step⟩

/-- What driver `i` has read. -/
def Happening.readBy (i : Fin numSensorDrivers) : Happening D → List InputEvent
  | .read j events => if j = i then events else []
  | _ => []

/-- The event, if it has been written by driver `i`. -/
def Happening.writtenBy (i : Fin numSensorDrivers) : Happening D → Option (SensorsEvent D)
  | .written j _ event => if j = i then some event else none
  | _ => none

/-- The stream that driver `i` has taken from its device. -/
def taken (i : Fin numSensorDrivers) (os : List (Happening D)) : List InputEvent :=
  os.flatMap (·.readBy i)

/-- What the framework has got from driver `i`. -/
def delivered (i : Fin numSensorDrivers) (os : List (Happening D)) : List (SensorsEvent D) :=
  os.filterMap (·.writtenBy i)

/-- The size of the framework's array, and the slots of it that have been written. -/
structure LastCall where
  room : Nat
  slots : List Int

def LastCall.add (c : LastCall) : Happening D → LastCall
  | .call count => ⟨count, []⟩
  | .read _ _ => c
  | .written _ slot _ => { c with slots := c.slots ++ [slot] }

/-- The last call on record. -/
def lastCall (os : List (Happening D)) : LastCall := os.foldl LastCall.add ⟨0, []⟩

theorem taken_append (i : Fin numSensorDrivers) (os ws : List (Happening D)) :
    taken i (os ++ ws) = taken i os ++ taken i ws := List.flatMap_append

theorem delivered_append (i : Fin numSensorDrivers) (os ws : List (Happening D)) :
    delivered i (os ++ ws) = delivered i os ++ delivered i ws := List.filterMap_append

section

variable (i j : Fin numSensorDrivers)

/-- The writes of driver `i`. -/
theorem taken_written (slots : List Int) (events : List (SensorsEvent D)) :
    taken j (List.zipWith (.written i) slots events) = [] := by
  induction slots generalizing events with
  | nil => rfl
  | cons slot slots ih =>
    cases events with
    | nil => rfl
    | cons event events => exact ih events

theorem delivered_written {slots : List Int} {events : List (SensorsEvent D)}
    (hlen : slots.length = events.length) :
    delivered j (List.zipWith (.written i) slots events) = if i = j then events else [] := by
  induction slots generalizing events with
  | nil =>
    cases events with
    | nil => exact (ite_self []).symm
    | cons event events => cases hlen
  | cons slot slots ih =>
    cases events with
    | nil => cases hlen
    | cons event events =>
      have hrest := ih (Nat.succ.inj hlen)
      rw [delivered] at hrest
      rw [delivered, List.zipWith_cons_cons]
      by_cases hij : i = j
      · have hby : (Happening.written i slot event).writtenBy j = some event := if_pos hij
        rw [List.filterMap_cons_some hby, hrest, if_pos hij, if_pos hij]
      · have hby : (Happening.written i slot event).writtenBy j = none := if_neg hij
        rw [List.filterMap_cons_none hby, hrest, if_neg hij, if_neg hij]

theorem foldl_written (c : LastCall) {slots : List Int} {events : List (SensorsEvent D)}
    (hlen : slots.length = events.length) :
    (List.zipWith (.written i) slots events).foldl LastCall.add c =
      ⟨c.room, c.slots ++ slots⟩ := by
  induction slots generalizing events c with
  | nil => rw [List.append_nil]; rfl
  | cons slot slots ih =>
    cases events with
    | nil => cases hlen
    | cons event events =>
      rw [List.zipWith_cons_cons, List.foldl_cons, ih _ (Nat.succ.inj hlen)]
      exact congrArg (LastCall.mk c.room) (List.append_assoc ..)

end

end HeadUnit.Sensors
