import Mathlib.Logic.Function.Basic
import HeadUnit.Std.Machine

/-!
# Enabling the sensors

`sensors_poll_context_t::activate` and the `setEnable` of its drivers. A driver counts how often each
of its sensors is enabled and asks the hardware to be on while one is; the magnetic and the
orientation sensor use the accelerometer as well, which counts its users separately. `update_delay`
is left out: it writes a delay that nothing here reads.
-/

namespace HeadUnit.Sensors

/-! ## Drivers -/

def idA : Int := 0
def idM : Int := 1
def idO : Int := 2
def idGy : Int := 3
def idP : Int := 5
def idT : Int := 6

def einval : Int := 22

/-- A count after `++` or `--`, which is then kept from being negative. -/
def counted (count enabled : Int) : Int :=
  let count := if enabled ≠ 0 then count + 1 else count - 1
  if count < 0 then 0 else count

/-- A count of users, which is kept from being negative after `--` only. -/
def countedUser (mUser enabled : Int) : Int :=
  if enabled ≠ 0 then mUser + 1 else if mUser - 1 < 0 then 0 else mUser - 1

/-- The counts of a driver that is shared: its users and those of its own sensor. -/
structure SharedSensor where
  mUser : Int
  mEnabled : Int
  deriving DecidableEq, Repr

/-- The counts of a driver of two sensors. -/
structure PairSensor where
  mEnabled : Fin 2 → Int

/-- `setEnable` of a shared driver for the given handles: the counts, the error and what the hardware
is asked for. `writeEnable` is commented out in these drivers and returns 0. -/
def SharedSensor.setEnable (handles : List Int) (own : Int) (s : SharedSensor)
    (handle enabled : Int) : SharedSensor × Int × List Bool :=
  if handle ∉ handles then (s, -1, [])
  else
    let mUser := countedUser s.mUser enabled
    let mEnabled := if handle = own then counted s.mEnabled enabled else s.mEnabled
    (⟨mUser, mEnabled⟩, 0, [decide (0 < mUser)])

/-- `setEnable` of a driver of two sensors, of which `second` is the handle of the second one;
`written` is what `writeEnable` returns. -/
def PairSensor.setEnable (second : Int) (s : PairSensor) (handle enabled written : Int) :
    PairSensor × Int × List Bool :=
  let what : Fin 2 := if handle = second then 1 else 0
  let mEnabled := Function.update s.mEnabled what (counted (s.mEnabled what) enabled)
  (⟨mEnabled⟩, written, [decide (0 < mEnabled 0 ∨ 0 < mEnabled 1)])

namespace AccelSensor

def setEnable : SharedSensor → Int → Int → SharedSensor × Int × List Bool :=
  SharedSensor.setEnable [idA, idO, idM] idA

end AccelSensor

namespace GyroSensor

def setEnable : SharedSensor → Int → Int → SharedSensor × Int × List Bool :=
  SharedSensor.setEnable [idGy] idGy

end GyroSensor

namespace MagSensor

/-- `mag` of the driver's enumeration. -/
def mag : Fin 2 := 0

/-- `orn` of the driver's enumeration. -/
def orn : Fin 2 := 1

def setEnable : PairSensor → Int → Int → Int → PairSensor × Int × List Bool :=
  PairSensor.setEnable idO

end MagSensor

namespace PressSensor

/-- `press` of the driver's enumeration. -/
def press : Fin 2 := 0

/-- `temperature` of the driver's enumeration. -/
def temperature : Fin 2 := 1

def setEnable : PairSensor → Int → Int → Int → PairSensor × Int × List Bool :=
  PairSensor.setEnable idT

end PressSensor

/-! ## The context -/

inductive Driver where
  | accel
  | mag
  | pressure
  | gyro
  deriving DecidableEq, Repr

structure SensorsPollContext where
  accel : SharedSensor
  mag : PairSensor
  pressure : PairSensor
  gyro : SharedSensor

/-- What a call of `activate` does to the outside. -/
inductive Effect where
  /-- `enable_sensor` or `disable_sensor` of a driver. -/
  | request (driver : Driver) (on : Bool)
  | wakeMessage
  | returned (err : Int)
  deriving DecidableEq, Repr

/-- A call of `activate`, with what the driver's `writeEnable` returns in it. -/
structure Call where
  handle : Int
  enabled : Int
  written : Int
  deriving DecidableEq, Repr

def handleToDriver (handle : Int) : Option Driver :=
  if handle = idA then some .accel
  else if handle = idM ∨ handle = idO then some .mag
  else if handle = idP ∨ handle = idT then some .pressure
  else if handle = idGy then some .gyro
  else none

namespace SensorsPollContext

/-- The constructors of the drivers. -/
def init : SensorsPollContext := ⟨⟨0, 0⟩, ⟨fun _ => 0⟩, ⟨fun _ => 0⟩, ⟨0, 0⟩⟩

/-- `mSensors[index]->setEnable`. -/
def setEnable (s : SensorsPollContext) (index : Driver) (c : Call) :
    SensorsPollContext × Int × List Effect :=
  match index with
  | .accel =>
    let (accel, err, on) := AccelSensor.setEnable s.accel c.handle c.enabled
    ({ s with accel }, err, on.map (.request .accel))
  | .mag =>
    let (mag, err, on) := MagSensor.setEnable s.mag c.handle c.enabled c.written
    ({ s with mag }, err, on.map (.request .mag))
  | .pressure =>
    let (pressure, err, on) := PressSensor.setEnable s.pressure c.handle c.enabled c.written
    ({ s with pressure }, err, on.map (.request .pressure))
  | .gyro =>
    let (gyro, err, on) := GyroSensor.setEnable s.gyro c.handle c.enabled
    ({ s with gyro }, err, on.map (.request .gyro))

/-- The call of the sensor's own driver, and the end of `activate`. -/
def activateDriver (s : SensorsPollContext) (index : Driver) (c : Call) :
    SensorsPollContext × List Effect :=
  let (s, err, requests) := s.setEnable index c
  let wake := if c.enabled ≠ 0 ∧ err = 0 then [Effect.wakeMessage] else []
  (s, requests ++ wake ++ [.returned err])

def activate (s : SensorsPollContext) (c : Call) : SensorsPollContext × List Effect :=
  match handleToDriver c.handle with
  | none => (s, [.returned (-einval)])
  | some index =>
    if c.handle = idO ∨ c.handle = idM then
      let (s, err, requests) := s.setEnable .accel c
      if err ≠ 0 then (s, requests ++ [.returned err])
      else
        -- `err |=` starts from 0 here.
        let (s, effects) := s.activateDriver index c
        (s, requests ++ effects)
    else s.activateDriver index c

/-- The enabled accelerometer, magnetic and orientation sensors. -/
def users (s : SensorsPollContext) : Int :=
  s.accel.mEnabled + s.mag.mEnabled MagSensor.mag + s.mag.mEnabled MagSensor.orn

end SensorsPollContext

/-- The context in use. -/
def sensors : Transducer SensorsPollContext Call Effect := ⟨SensorsPollContext.activate⟩

/-! ## The users of the accelerometer -/

/-- What the effect asks of the hardware of a driver. -/
def Effect.requestOf (d : Driver) : Effect → Option Bool
  | .request driver on => if driver = d then some on else none
  | _ => none

/-- The last thing that was asked of the hardware of a driver. -/
def lastRequest (d : Driver) (es : List Effect) : Option Bool :=
  (es.filterMap (Effect.requestOf d)).getLast?

/-- The accelerometer counts its users, and its hardware is on while there are any. -/
structure CountsUsers (es : List Effect) (s : SensorsPollContext) : Prop where
  user : s.accel.mUser = s.users
  enabled : 0 < s.users → lastRequest .accel es = some true

theorem counted_nonneg (count enabled : Int) : 0 ≤ counted count enabled := by
  show 0 ≤ if (if enabled ≠ 0 then count + 1 else count - 1) < 0 then 0
    else if enabled ≠ 0 then count + 1 else count - 1
  generalize (if enabled ≠ 0 then count + 1 else count - 1) = count'
  split
  case isTrue => exact Int.le_refl 0
  case isFalse hneg => exact Int.not_lt.mp hneg

namespace SensorsPollContext

variable {s : SensorsPollContext} {c : Call} {es : List Effect}

/-- The call disables a sensor that is not enabled, while another one uses the accelerometer. -/
def Underflows (s : SensorsPollContext) (c : Call) : Prop :=
  c.enabled = 0 ∧ 0 < s.users ∧ (c.handle = idA ∧ s.accel.mEnabled = 0 ∨
    c.handle = idM ∧ s.mag.mEnabled MagSensor.mag = 0 ∨
    c.handle = idO ∧ s.mag.mEnabled MagSensor.orn = 0)

theorem wake_requestOf (d : Driver) (enabled err : Int) (es : List Effect) :
    ((if enabled ≠ 0 ∧ err = 0 then [Effect.wakeMessage] else []) ++ es).filterMap
      (Effect.requestOf d) = es.filterMap (Effect.requestOf d) := by
  split <;> rfl

/-- What a call for the accelerometer does. -/
theorem activate_accel (s : SensorsPollContext) (enabled written : Int) :
    (s.activate ⟨idA, enabled, written⟩).1 = { s with
      accel := ⟨countedUser s.accel.mUser enabled, counted s.accel.mEnabled enabled⟩ } ∧
    (s.activate ⟨idA, enabled, written⟩).2.filterMap (Effect.requestOf .accel) =
      [decide (0 < countedUser s.accel.mUser enabled)] := by
  refine ⟨rfl, ?_⟩
  show ([Effect.request .accel (decide (0 < countedUser s.accel.mUser enabled))] ++
    (if enabled ≠ 0 ∧ (0 : Int) = 0 then [Effect.wakeMessage] else []) ++
      [Effect.returned 0]).filterMap (Effect.requestOf .accel) = _
  rw [List.append_assoc, List.filterMap_append, wake_requestOf]
  rfl

/-- What a call for the magnetic or the orientation sensor does. -/
theorem activate_mag (s : SensorsPollContext) (enabled written : Int) {handle : Int} {what : Fin 2}
    (h : handle = idM ∧ what = MagSensor.mag ∨ handle = idO ∧ what = MagSensor.orn) :
    (s.activate ⟨handle, enabled, written⟩).1 = { s with
      accel := ⟨countedUser s.accel.mUser enabled, s.accel.mEnabled⟩
      mag := ⟨Function.update s.mag.mEnabled what (counted (s.mag.mEnabled what) enabled)⟩ } ∧
    (s.activate ⟨handle, enabled, written⟩).2.filterMap (Effect.requestOf .accel) =
      [decide (0 < countedUser s.accel.mUser enabled)] := by
  have hrest (on : Bool) (on' : Bool) : ([Effect.request .accel on] ++ ([Effect.request .mag on'] ++
      (if enabled ≠ 0 ∧ written = 0 then [Effect.wakeMessage] else []) ++
      [Effect.returned written])).filterMap (Effect.requestOf .accel) = [on] := by
    rw [List.append_assoc [Effect.request .mag on'], List.filterMap_append, List.filterMap_append,
      wake_requestOf]
    rfl
  rcases h with ⟨rfl, rfl⟩ | ⟨rfl, rfl⟩
  · exact ⟨rfl, hrest _ _⟩
  · exact ⟨rfl, hrest _ _⟩

theorem requestOf_other (d d' : Driver) (hd : d' ≠ d) (on : List Bool) :
    (on.map (Effect.request d')).filterMap (Effect.requestOf d) = [] := by
  rw [List.filterMap_map]
  exact List.filterMap_eq_nil_iff.mpr fun _ _ => if_neg hd

/-- The other calls leave the accelerometer alone. -/
theorem activate_other (s : SensorsPollContext) (hA : c.handle ≠ idA) (hM : c.handle ≠ idM)
    (hO : c.handle ≠ idO) :
    (s.activate c).1.accel = s.accel ∧ (s.activate c).1.mag = s.mag ∧
      (s.activate c).2.filterMap (Effect.requestOf .accel) = [] := by
  have hend (index : Driver) (hindex : index = .pressure ∨ index = .gyro) :
      (s.activateDriver index c).1.accel = s.accel ∧ (s.activateDriver index c).1.mag = s.mag ∧
        (s.activateDriver index c).2.filterMap (Effect.requestOf .accel) = [] := by
    rcases hindex with rfl | rfl
    · refine ⟨rfl, rfl, ?_⟩
      rw [activateDriver]
      dsimp only [setEnable]
      rw [List.append_assoc, List.filterMap_append, wake_requestOf,
        requestOf_other .accel .pressure nofun]
      rfl
    · refine ⟨rfl, rfl, ?_⟩
      rw [activateDriver]
      dsimp only [setEnable]
      rw [List.append_assoc, List.filterMap_append, wake_requestOf,
        requestOf_other .accel .gyro nofun]
      rfl
  rw [activate, handleToDriver, if_neg hA, if_neg (not_or.mpr ⟨hM, hO⟩)]
  split
  case h_1 => exact ⟨rfl, rfl, rfl⟩
  case h_2 index hindex =>
    rw [if_neg (not_or.mpr ⟨hO, hM⟩)]
    refine hend index ?_
    split at hindex
    case isTrue =>
      cases hindex
      exact .inl rfl
    case isFalse =>
      split at hindex
      case isTrue =>
        cases hindex
        exact .inr rfl
      case isFalse => cases hindex

/-! ## Underflow -/

structure NonNeg (s : SensorsPollContext) : Prop where
  accel : 0 ≤ s.accel.mEnabled
  mag : ∀ what, 0 ≤ s.mag.mEnabled what

/-- The two ways of counting part where the sensor's own count is kept at 0 and the users' is not. -/
theorem countedUser_eq_iff {count rest : Int} (enabled : Int) (hcount : 0 ≤ count) (hrest : 0 ≤ rest) :
    countedUser (count + rest) enabled = counted count enabled + rest ↔
      ¬(enabled = 0 ∧ 0 < count + rest ∧ count = 0) := by
  by_cases he : enabled = 0
  · have hcounted : counted count enabled = if count - 1 < 0 then 0 else count - 1 := by
      rw [counted, if_neg (not_not.mpr he)]
    rw [hcounted, countedUser, if_neg (not_not.mpr he)]
    split <;> split <;> omega
  · have hcounted : counted count enabled = count + 1 := by
      rw [counted, if_pos he]
      exact if_neg (by omega)
    rw [hcounted, countedUser, if_pos he]
    omega

theorem underflows_iff (count : Int) (hcount : c.handle = idA ∧ count = s.accel.mEnabled ∨
    c.handle = idM ∧ count = s.mag.mEnabled MagSensor.mag ∨
    c.handle = idO ∧ count = s.mag.mEnabled MagSensor.orn) :
    s.Underflows c ↔ c.enabled = 0 ∧ 0 < s.users ∧ count = 0 := by
  refine and_congr_right fun _ => and_congr_right fun _ => ?_
  have hAM : idA ≠ idM := by decide
  have hAO : idA ≠ idO := by decide
  have hMO : idM ≠ idO := by decide
  rcases hcount with ⟨h, rfl⟩ | ⟨h, rfl⟩ | ⟨h, rfl⟩
  · simp only [h, hAM, hAO, true_and, false_and, or_false]
  · simp only [h, hAM.symm, hMO, true_and, false_and, or_false, false_or]
  · simp only [h, hAO.symm, hMO.symm, true_and, false_and, false_or]

/-- Where the counts add up, they do so after a call if and only if it does not underflow. -/
theorem user_activate_iff (h : NonNeg s) (huser : s.accel.mUser = s.users) :
    ¬s.Underflows c ↔ (s.activate c).1.accel.mUser = (s.activate c).1.users := by
  have ha := h.accel
  have hm := h.mag MagSensor.mag
  have ho := h.mag MagSensor.orn
  have husers : s.users =
    s.accel.mEnabled + s.mag.mEnabled MagSensor.mag + s.mag.mEnabled MagSensor.orn := rfl
  obtain ⟨handle, enabled, written⟩ := c
  by_cases hA : handle = idA
  · have hiff := countedUser_eq_iff enabled ha (Int.add_nonneg hm ho)
    rw [← Int.add_assoc, ← husers, ← Int.add_assoc] at hiff
    subst hA
    rw [underflows_iff _ (.inl ⟨rfl, rfl⟩), (activate_accel s enabled written).1, ← hiff, ← huser]
    exact Iff.rfl
  by_cases hM : handle = idM
  · have hiff := countedUser_eq_iff enabled hm (Int.add_nonneg ha ho)
    rw [Int.add_left_comm, ← Int.add_assoc, ← husers] at hiff
    rw [underflows_iff _ (.inr (.inl ⟨hM, rfl⟩)), (activate_mag s enabled written (.inl ⟨hM, rfl⟩)).1,
      ← hiff, ← huser]
    dsimp only [users]
    rw [Function.update_self, Function.update_of_ne (by decide), Int.add_left_comm,
      ← Int.add_assoc]
  by_cases hO : handle = idO
  · have hiff := countedUser_eq_iff enabled ho (Int.add_nonneg ha hm)
    rw [Int.add_comm, ← husers] at hiff
    rw [underflows_iff _ (.inr (.inr ⟨hO, rfl⟩)), (activate_mag s enabled written (.inr ⟨hO, rfl⟩)).1,
      ← hiff, ← huser]
    dsimp only [users]
    rw [Function.update_self, Function.update_of_ne (by decide), Int.add_comm (counted _ _)]
  obtain ⟨haccel, hmag, -⟩ := activate_other (c := ⟨handle, enabled, written⟩) s hA hM hO
  rw [users, haccel, hmag, huser]
  refine ⟨fun _ => rfl, fun _ hu => ?_⟩
  rcases hu.2.2 with hu | hu | hu
  · exact hA hu.1
  · exact hM hu.1
  · exact hO hu.1

/-- What a call can do to the two drivers, and what it asks of the accelerometer. -/
inductive Counts (s : SensorsPollContext) (enabled : Int) :
    SharedSensor → PairSensor → List Bool → Prop
  | other : Counts s enabled s.accel s.mag []
  | accel : Counts s enabled ⟨countedUser s.accel.mUser enabled, counted s.accel.mEnabled enabled⟩
    s.mag [decide (0 < countedUser s.accel.mUser enabled)]
  | mag (what : Fin 2) : Counts s enabled ⟨countedUser s.accel.mUser enabled, s.accel.mEnabled⟩
    ⟨Function.update s.mag.mEnabled what (counted (s.mag.mEnabled what) enabled)⟩
    [decide (0 < countedUser s.accel.mUser enabled)]

theorem counts_activate (s : SensorsPollContext) (c : Call) :
    Counts s c.enabled (s.activate c).1.accel (s.activate c).1.mag
      ((s.activate c).2.filterMap (Effect.requestOf .accel)) := by
  obtain ⟨handle, enabled, written⟩ := c
  have hpair (what : Fin 2)
      (h : handle = idM ∧ what = MagSensor.mag ∨ handle = idO ∧ what = MagSensor.orn) :
      Counts s enabled (s.activate ⟨handle, enabled, written⟩).1.accel
        (s.activate ⟨handle, enabled, written⟩).1.mag
        ((s.activate ⟨handle, enabled, written⟩).2.filterMap (Effect.requestOf .accel)) := by
    obtain ⟨hstate, hrequest⟩ := activate_mag s enabled written h
    rw [hrequest, hstate]
    exact .mag what
  by_cases hA : handle = idA
  · subst hA
    obtain ⟨hstate, hrequest⟩ := activate_accel s enabled written
    rw [hrequest, hstate]
    exact .accel
  by_cases hM : handle = idM
  · exact hpair MagSensor.mag (.inl ⟨hM, rfl⟩)
  by_cases hO : handle = idO
  · exact hpair MagSensor.orn (.inr ⟨hO, rfl⟩)
  obtain ⟨haccel, hmag, hrequest⟩ := activate_other (c := ⟨handle, enabled, written⟩) s hA hM hO
  rw [haccel, hmag, hrequest]
  exact .other

theorem Counts.nonneg {enabled : Int} {accel : SharedSensor} {mag : PairSensor} {on : List Bool}
    (hc : Counts s enabled accel mag on) (h : NonNeg s) :
    0 ≤ accel.mEnabled ∧ ∀ what, 0 ≤ mag.mEnabled what := by
  cases hc with
  | other => exact ⟨h.accel, h.mag⟩
  | accel => exact ⟨counted_nonneg _ _, h.mag⟩
  | mag what =>
    refine ⟨h.accel, fun what' => ?_⟩
    dsimp only
    rw [Function.update_apply]
    split
    case isTrue => exact counted_nonneg _ _
    case isFalse => exact h.mag what'

theorem Counts.last {enabled : Int} {accel : SharedSensor} {mag : PairSensor} {on requests : List Bool}
    (hc : Counts s enabled accel mag on)
    (h : 0 < s.accel.mUser → requests.getLast? = some true) (huser : 0 < accel.mUser) :
    (requests ++ on).getLast? = some true := by
  cases hc with
  | other =>
    rw [List.append_nil]
    exact h huser
  | accel => rw [List.getLast?_concat, decide_eq_true huser]
  | mag => rw [List.getLast?_concat, decide_eq_true huser]

theorem NonNeg.activate (h : NonNeg s) (c : Call) : NonNeg (s.activate c).1 :=
  ⟨((s.counts_activate c).nonneg h).1, ((s.counts_activate c).nonneg h).2⟩

/-- While the accelerometer has users, its hardware was last asked to be on. -/
def Requested (es : List Effect) (s : SensorsPollContext) : Prop :=
  0 < s.accel.mUser → lastRequest .accel es = some true

theorem Requested.activate (h : Requested es s) (c : Call) :
    Requested (es ++ (s.activate c).2) (s.activate c).1 := by
  intro huser
  rw [lastRequest, List.filterMap_append]
  exact (s.counts_activate c).last h huser

end SensorsPollContext

open SensorsPollContext

/-- The accelerometer's count of users is right throughout if and only if no sensor that is not
enabled is disabled while another one uses the accelerometer. -/
theorem countsUsers_iff (calls : List Call) :
    sensors.Along (fun s c => ¬s.Underflows c) .init calls ↔
      ∀ k, CountsUsers (sensors.out .init (calls.take k)) (sensors.final .init (calls.take k)) := by
  have halong : sensors.Along (fun s c => ¬s.Underflows c) .init calls ↔
      (∀ k, NonNeg (sensors.final .init (calls.take k)) ∧
        (sensors.final .init (calls.take k)).accel.mUser =
          (sensors.final .init (calls.take k)).users) ∧ ∀ w ∈ sensors.out .init calls, True := by
    refine sensors.along_iff (P := fun s => NonNeg s ∧ s.accel.mUser = s.users) (fun s c h => ?_)
      ⟨⟨Int.le_refl 0, fun _ => Int.le_refl 0⟩, rfl⟩
    rw [user_activate_iff h.1 h.2]
    exact ⟨fun hu => ⟨⟨h.1.activate c, hu⟩, fun _ _ => trivial⟩, fun hu => hu.1.2⟩
  have hnonneg (is : List Call) : NonNeg (sensors.final .init is) :=
    sensors.final_invariant (fun _ c h => h.activate c) ⟨Int.le_refl 0, fun _ => Int.le_refl 0⟩
  have hrequested (is : List Call) : Requested (sensors.out .init is) (sensors.final .init is) :=
    sensors.history (P := fun _ es s => Requested es s) (fun h => absurd h (Int.lt_irrefl 0))
      (fun _ _ _ c h => h.activate c) is
  rw [halong]
  constructor
  · rintro ⟨hcounts, -⟩ k
    refine ⟨(hcounts k).2, fun husers => hrequested _ ?_⟩
    rw [(hcounts k).2]
    exact husers
  · exact fun h => ⟨fun k => ⟨hnonneg _, (h k).user⟩, fun _ _ => trivial⟩

/-- The accelerometer is enabled, the magnetic sensor is disabled without having been enabled: the
hardware is asked to be off. -/
theorem not_countsUsers_disable : ¬CountsUsers (sensors.out .init [⟨idA, 1, 0⟩, ⟨idM, 0, 0⟩])
    (sensors.final .init [⟨idA, 1, 0⟩, ⟨idM, 0, 0⟩]) := by
  intro h
  have hoff : lastRequest .accel (sensors.out .init [⟨idA, 1, 0⟩, ⟨idM, 0, 0⟩]) = some false := by
    decide
  exact nomatch hoff.symm.trans (h.enabled (by decide))

end HeadUnit.Sensors
