import Mathlib.Algebra.GroupWithZero.Nat
import Mathlib.Data.List.Nodup
import Mathlib.Logic.Function.Basic
import HeadUnit.Std.Machine

/-!
# Polling the sensors

`sensors_poll_context_t::pollEvents` of `sensors.cpp` as a machine that asks the drivers and `poll`
and gets their answers. What it emits are the slots of the caller's array that are written, counted
from `data` as the caller passed it.
-/

namespace HeadUnit.Sensors

/-! ## The machine -/

/-- `accel`, `mag`, `pressure` and `gyro`. -/
abbrev numSensorDrivers : Nat := 4

/-- One for each driver and one for the wake pipe. -/
abbrev numFds : Nat := numSensorDrivers + 1

def wake : Fin numFds := Fin.last numSensorDrivers

def eintr : Nat := 4

/-- Where `pollEvents` stands. -/
inductive PollPc where
  /-- Before the visit of driver `i`. -/
  | driver (i : Fin numSensorDrivers)
  | poll
  | returned (value : Int)
  deriving DecidableEq

/-- The variables of `pollEvents` and the `POLLIN` bits of `mPollFds`. -/
structure PollState where
  count : Int
  nbEvents : Int
  data : Int
  revents : Fin numFds → Bool
  pc : PollPc

/-- What `readEvents` returns: the number of events it has written, or an error. -/
inductive ReadResult where
  | events (n : Nat)
  | error (errno : Nat)
  deriving DecidableEq

def ReadResult.value : ReadResult → Int
  | .events n => n
  | .error errno => -errno

def ReadResult.written : ReadResult → Nat
  | .events n => n
  | .error _ => 0

/-- What a driver promises when it is given `count`. -/
def ReadResult.Allowed (count : Int) : ReadResult → Prop
  | .events n => n ≤ count
  | .error errno => 0 < errno

instance (count : Int) : DecidablePred (ReadResult.Allowed count)
  | .events n => inferInstanceAs (Decidable ((n : Int) ≤ count))
  | .error errno => inferInstanceAs (Decidable (0 < errno))

/-- What the drivers and `poll` answer. -/
inductive Response where
  /-- `hasPendingEvents` is false. -/
  | notPending
  /-- There is `POLLIN` or `hasPendingEvents`, and `readEvents` has been called. -/
  | readEvents (result : ReadResult)
  | polled (n : Nat) (revents : Fin numFds → Bool)
  | pollFailed (errno : Nat)

inductive Refusal where
  | disabled
  deriving DecidableEq

/-- `n` slots from `p` on. -/
def slots (p : Int) (n : Nat) : List Int := (List.range n).map fun k : Nat => p + k

namespace PollState

/-- The `for` loop at `i`, and what follows when it ends. -/
def visit (s : PollState) (i : Nat) : PollState :=
  if s.count ≠ 0 then
    if h : i < numSensorDrivers then { s with pc := .driver ⟨i, h⟩ } else { s with pc := .poll }
  else { s with pc := .returned s.nbEvents }

/-- `readEvents` of driver `i` has returned. -/
def readEvents (s : PollState) (i : Fin numSensorDrivers) (result : ReadResult) : PollState :=
  let nb := result.value
  { s with
    revents := if nb < s.count then Function.update s.revents i.castSucc false else s.revents
    count := s.count - nb
    nbEvents := s.nbEvents + nb
    data := s.data + nb }

def step (s : PollState) (r : Response) : Except Refusal (PollState × List Int) :=
  match s.pc, r with
  | .driver i, .notPending =>
    if s.revents i.castSucc then .error .disabled else .ok (s.visit (i + 1), [])
  | .driver i, .readEvents result =>
    if result.Allowed s.count then
      .ok ((s.readEvents i result).visit (i + 1), slots s.data result.written)
    else .error .disabled
  | .poll, .polled n revents =>
    let s := { s with revents := Function.update revents wake false }
    if n ≠ 0 then .ok (s.visit 0, []) else .ok ({ s with pc := .returned s.nbEvents }, [])
  | .poll, .pollFailed errno =>
    if errno = eintr then .ok (s, [])
    else if 0 < errno then .ok ({ s with pc := .returned (-errno) }, [])
    else .error .disabled
  | _, _ => .error .disabled

end PollState

/-- A call of `pollEvents`. -/
def pollEvents : Machine Refusal PollState Response Int := ⟨PollState.step⟩

/-- A call with room for `count` events, with the bits that the last call has left. -/
def pollStart (count : Nat) (revents : Fin numFds → Bool) : PollState :=
  PollState.visit ⟨count, 0, 0, revents, .poll⟩ 0

/-- What a caller with an array of `count` slots relies on. -/
structure StaysInside (count : Nat) (os : List Int) (s : PollState) : Prop where
  inside : ∀ k ∈ os, 0 ≤ k ∧ k < count
  once : os.Nodup
  counter : s.count ≤ count
  result : ∀ v, s.pc = .returned v → 0 ≤ v → v = os.length

/-! ## Slots and errors -/

theorem length_slots (p : Int) (n : Nat) : (slots p n).length = n := by
  rw [slots, List.length_map, List.length_range]

theorem slots_add (p : Int) (n m : Nat) : slots p (n + m) = slots p n ++ slots (p + n) m := by
  rw [slots, List.range_add, List.map_append, List.map_map]
  refine congrArg _ (List.map_congr_left fun k _ => ?_)
  rw [Function.comp_apply, Int.natCast_add, Int.add_assoc]

theorem mem_slots {k p : Int} {n : Nat} : k ∈ slots p n ↔ p ≤ k ∧ k < p + n := by
  rw [slots, List.mem_map]
  constructor
  · rintro ⟨j, hj, rfl⟩
    have := List.mem_range.mp hj
    omega
  · rintro ⟨hle, hlt⟩
    exact ⟨(k - p).toNat, List.mem_range.mpr (by omega), by omega⟩

theorem nodup_slots (p : Int) (n : Nat) : (slots p n).Nodup := by
  refine List.Nodup.map (fun j k hjk => ?_) List.nodup_range
  exact Int.natCast_inj.mp (Int.add_left_cancel hjk)

/-- The answers are no errors of a driver. -/
def Response.NoError : Response → Prop
  | .readEvents (.error _) => False
  | _ => True

/-- What the errors of the drivers take off the result. -/
def Response.deficit : Response → Nat
  | .readEvents (.error errno) => errno
  | _ => 0

/-! ## What a step does -/

namespace PollState

variable {s s' : PollState} {r : Response} {rs : List Response} {ws os : List Int}

@[simp] theorem visit_count (s : PollState) (i : Nat) : (s.visit i).count = s.count := by
  unfold visit
  split
  · split <;> rfl
  · rfl

@[simp] theorem visit_nbEvents (s : PollState) (i : Nat) : (s.visit i).nbEvents = s.nbEvents := by
  unfold visit
  split
  · split <;> rfl
  · rfl

@[simp] theorem visit_data (s : PollState) (i : Nat) : (s.visit i).data = s.data := by
  unfold visit
  split
  · split <;> rfl
  · rfl

theorem visit_returned {i : Nat} {v : Int} (h : (s.visit i).pc = .returned v) :
    v = s.nbEvents := by
  unfold visit at h
  split at h
  case isTrue => split at h <;> cases h
  case isFalse =>
    cases h
    rfl

inductive Step : PollState → Response → PollState → List Int → Prop
  | notPending {s : PollState} (i : Nat) : Step s .notPending (s.visit i) []
  | readEvents {s : PollState} {i result} (hallowed : result.Allowed s.count) :
    Step s (.readEvents result) ((s.readEvents i result).visit (i + 1))
      (slots s.data result.written)
  | again {s : PollState} {n} (revents revents' : Fin numFds → Bool) :
    Step s (.polled n revents) (visit { s with revents := revents' } 0) []
  | done {s : PollState} {n} (revents revents' : Fin numFds → Bool) :
    Step s (.polled n revents) { s with revents := revents', pc := .returned s.nbEvents } []
  | interrupted {s : PollState} : Step s (.pollFailed eintr) s []
  | failed {s : PollState} {errno : Nat} (hpos : 0 < errno) :
    Step s (.pollFailed errno) { s with pc := .returned (-errno) } []

theorem step_of_ok (h : s.step r = .ok (s', ws)) : Step s r s' ws := by
  unfold step at h
  split at h
  case h_1 i _ =>
    split at h
    case isTrue => cases h
    case isFalse =>
      cases h
      exact .notPending _
  case h_2 i result _ =>
    split at h
    case isTrue hallowed =>
      cases h
      exact .readEvents hallowed
    case isFalse => cases h
  case h_3 n revents _ =>
    dsimp only at h
    split at h
    case isTrue =>
      cases h
      exact .again revents _
    case isFalse =>
      cases h
      exact .done revents _
  case h_4 errno _ =>
    split at h
    case isTrue heintr =>
      cases h
      exact heintr ▸ .interrupted
    case isFalse =>
      split at h
      case isTrue hpos =>
        cases h
        exact .failed hpos
      case isFalse => cases h
  case h_5 => cases h

/-! ## Without errors -/

/-- The slots are filled in order, and the three variables say how many there are. -/
structure Filled (count : Nat) (os : List Int) (s : PollState) : Prop where
  slots : os = slots 0 os.length
  data : s.data = os.length
  nbEvents : s.nbEvents = os.length
  count : s.count + os.length = count
  space : 0 ≤ s.count
  returned : ∀ v, s.pc = .returned v → 0 ≤ v → v = s.nbEvents

theorem Filled.step {count : Nat} (h : Filled count os s) (hr : Response.NoError r)
    (hs : Step s r s' ws) : Filled count (os ++ ws) s' := by
  cases hs with
  | notPending i =>
    rw [List.append_nil]
    exact ⟨h.slots, by rw [visit_data, h.data], by rw [visit_nbEvents, h.nbEvents],
      by rw [visit_count, h.count], by rw [visit_count]; exact h.space,
      fun v hv _ => (visit_returned hv).trans (visit_nbEvents s i).symm⟩
  | @readEvents i result hallowed =>
    cases result with
    | error => exact hr.elim
    | events n =>
      have hn : (n : Int) ≤ s.count := hallowed
      have hlen : (os ++ Sensors.slots s.data n).length = os.length + n := by
        rw [List.length_append, length_slots]
      have hcount := h.count
      show Filled count (os ++ Sensors.slots s.data n) _
      refine ⟨?_, ?_, ?_, ?_, ?_, fun v hv _ => (visit_returned hv).trans (visit_nbEvents ..).symm⟩
      · rw [hlen, slots_add, Int.zero_add, ← h.slots, h.data]
      · rw [visit_data, hlen]
        show s.data + n = _
        rw [h.data, Int.natCast_add]
      · rw [visit_nbEvents, hlen]
        show s.nbEvents + n = _
        rw [h.nbEvents, Int.natCast_add]
      · rw [visit_count, hlen]
        show s.count - n + _ = _
        omega
      · rw [visit_count]
        exact Int.sub_nonneg.mpr hn
  | again revents revents' =>
    rw [List.append_nil]
    refine ⟨h.slots, ?_, ?_, ?_, ?_, fun v hv _ => (visit_returned hv).trans (visit_nbEvents ..).symm⟩
    · rw [visit_data, ← h.data]
    · rw [visit_nbEvents, ← h.nbEvents]
    · rw [visit_count, ← h.count]
    · rw [visit_count]
      exact h.space
  | done =>
    rw [List.append_nil]
    refine ⟨h.slots, h.data, h.nbEvents, h.count, h.space, fun v hv _ => ?_⟩
    cases hv
    rfl
  | interrupted => exact (List.append_nil os).symm ▸ h
  | failed hpos =>
    rw [List.append_nil]
    refine ⟨h.slots, h.data, h.nbEvents, h.count, h.space, fun v hv hv0 => ?_⟩
    cases hv
    omega

theorem Filled.start (count : Nat) (revents : Fin numFds → Bool) :
    Filled count [] (pollStart count revents) := by
  refine ⟨rfl, ?_, ?_, ?_, ?_, fun v hv _ => (visit_returned hv).trans (visit_nbEvents ..).symm⟩
  · exact visit_data ..
  · exact visit_nbEvents ..
  · rw [pollStart, visit_count]
    exact Int.add_zero _
  · rw [pollStart, visit_count]
    exact Int.natCast_nonneg count

theorem Filled.staysInside {count : Nat} (h : Filled count os s) : StaysInside count os s := by
  have hcount := h.count
  have hspace := h.space
  refine ⟨fun k hk => ?_, h.slots ▸ nodup_slots 0 _, by omega, fun v hv hv0 => ?_⟩
  · rw [h.slots, mem_slots] at hk
    omega
  · rw [h.returned v hv hv0, h.nbEvents]

/-! ## With errors -/

/-- `nbEvents` counts the events written less the errors. -/
theorem Step.nbEvents (hs : Step s r s' ws) :
    s'.nbEvents + Response.deficit r = s.nbEvents + ws.length := by
  cases hs with
  | @readEvents i result =>
    rw [visit_nbEvents, length_slots]
    show s.nbEvents + result.value + _ = _
    cases result with
    | events => exact Int.add_zero _
    | error errno => exact (Int.neg_add_cancel_right ..).trans (Int.add_zero _).symm
  | notPending | again => rw [visit_nbEvents]; rfl
  | done | interrupted | failed => rfl

theorem nbEvents_of_after (hrun : pollEvents.after s rs = .ok s') :
    s'.nbEvents + (rs.map Response.deficit).sum = s.nbEvents + (pollEvents.trace s rs).length := by
  induction rs generalizing s with
  | nil =>
    cases hrun
    rfl
  | cons r rs ih =>
    obtain ⟨t, ws, hstep, hrest⟩ := pollEvents.step_of_after_cons hrun
    have hfirst := Step.nbEvents (step_of_ok hstep)
    have hlast := ih hrest
    rw [pollEvents.trace_cons_of_ok hstep, List.length_append, List.map_cons, List.sum_cons]
    omega

theorem Step.noError (hs : Step s r s' ws) (h : Response.deficit r = 0) : Response.NoError r := by
  cases hs with
  | @readEvents i result hallowed =>
    cases result with
    | events => trivial
    | error errno => exact absurd h (Nat.ne_of_gt hallowed)
  | notPending | again | done | interrupted | failed => trivial

theorem noError_of_after (hrun : pollEvents.after s rs = .ok s')
    (h : (rs.map Response.deficit).sum = 0) : ∀ r ∈ rs, Response.NoError r := by
  induction rs generalizing s with
  | nil => exact fun r hr => nomatch hr
  | cons r rs ih =>
    obtain ⟨t, ws, hstep, hrest⟩ := pollEvents.step_of_after_cons hrun
    rw [List.map_cons, List.sum_cons, Nat.add_eq_zero_iff] at h
    exact List.forall_mem_cons.mpr ⟨(step_of_ok hstep).noError h.1, ih hrest h.2⟩

/-- A result that is not negative is `nbEvents`. -/
theorem returned_of_after {v : Int} {count : Nat} {revents : Fin numFds → Bool}
    (hrun : pollEvents.after (pollStart count revents) rs = .ok s) (hv : s.pc = .returned v)
    (hv0 : 0 ≤ v) : v = s.nbEvents := by
  refine pollEvents.after_invariant (P := fun s => ∀ v, s.pc = .returned v → 0 ≤ v → v = s.nbEvents)
    ?_ (fun t r t' ws ht hstep v hv hv0 => ?_) hrun v hv hv0
  · exact fun v hv _ => (visit_returned hv).trans (visit_nbEvents ..).symm
  · cases step_of_ok hstep with
    | notPending | readEvents | again => exact (visit_returned hv).trans (visit_nbEvents ..).symm
    | done =>
      cases hv
      rfl
    | interrupted => exact ht v hv hv0
    | failed hpos =>
      cases hv
      omega

end PollState

/-- As long as no driver returns an error, `pollEvents` stays inside the array; and a call that
returns a result, with its number of events, has had no such error. -/
theorem pollEvents_staysInside {count : Nat} {revents : Fin numFds → Bool} {rs : List Response}
    {s : PollState} (hrun : pollEvents.after (pollStart count revents) rs = .ok s) :
    ((∀ r ∈ rs, r.NoError) →
      StaysInside count (pollEvents.trace (pollStart count revents) rs) s) ∧
    ∀ v, s.pc = .returned v → 0 ≤ v →
      (StaysInside count (pollEvents.trace (pollStart count revents) rs) s ↔ ∀ r ∈ rs, r.NoError) := by
  have hsafe (hr : ∀ r ∈ rs, r.NoError) :
      StaysInside count (pollEvents.trace (pollStart count revents) rs) s := by
    refine PollState.Filled.staysInside (s := s) ?_
    refine Machine.Along.history pollEvents (Q := fun _ r => r.NoError) ?_ ?_ (.start ..) hrun
    · exact fun _ _ _ _ _ h hr hstep => h.step hr (PollState.step_of_ok hstep)
    · exact pollEvents.along_of_forall fun _ => hr
  refine ⟨hsafe, fun v hv hv0 => ⟨fun h => ?_, hsafe⟩⟩
  have hvalue := PollState.returned_of_after hrun hv hv0
  have hevents := PollState.nbEvents_of_after hrun
  have hstart : (pollStart count revents).nbEvents = 0 := PollState.visit_nbEvents ..
  have hresult := h.result v hv hv0
  exact PollState.noError_of_after hrun (by omega)

/-- `poll` reports the gyroscope, which fills both slots. -/
def gyroPoll : List Response :=
  [.notPending, .notPending, .notPending, .notPending, .polled 1 (· = 3), .notPending, .notPending,
    .notPending, .readEvents (.events 2)]

theorem pollEvents_staysInside_gyro :
    ∃ s, pollEvents.after (pollStart 2 fun _ => false) gyroPoll = .ok s ∧ s.pc = .returned 2 ∧
      StaysInside 2 (pollEvents.trace (pollStart 2 fun _ => false) gyroPoll) s := by
  have hrun := show pollEvents.after (pollStart 2 fun _ => false) gyroPoll = .ok _ from rfl
  exact ⟨_, hrun, rfl, (pollEvents_staysInside hrun).1
    (by simp only [gyroPoll, List.forall_mem_cons, Response.NoError, List.not_mem_nil,
      false_implies, implies_true, and_self])⟩

/-- The gyroscope is gone when it is read (`ENODEV`, 19); the next event is written 19 slots before
the array. -/
def faultyPoll : List Response :=
  [.notPending, .notPending, .notPending, .notPending, .polled 1 (· = 3), .notPending, .notPending,
    .notPending, .readEvents (.error 19), .polled 1 (· = 0), .readEvents (.events 1)]

theorem faultyPoll_not_staysInside :
    ∃ s, pollEvents.after (pollStart 2 fun _ => false) faultyPoll = .ok s ∧
      ¬StaysInside 2 (pollEvents.trace (pollStart 2 fun _ => false) faultyPoll) s := by
  refine ⟨_, rfl, fun h => ?_⟩
  have hslot := (h.inside (-19) (by decide +kernel)).1
  omega

end HeadUnit.Sensors
