import Mathlib.Data.List.FinRange
import HeadUnit.Sensors.Drivers

/-!
# What a driver's input amounts to

A `Channel` is a sensor as the input events know it. What a stream of input events amounts to for
the channels of a driver (`Channel.reports`) is, for each `EV_SYN`, an event of each enabled sensor
for which there has been a value since the last one, with its time and the last values. Each driver
of `sensors.cpp` has an `Account`: its channels, and the proof that it answers for them.
-/

namespace HeadUnit.Sensors

variable {D : Type}

/-! ## Values -/

/-- The input event carries a value. -/
def IsValue (e : InputEvent) : Prop := e.type = evAbs ∨ e.type = evRel ∨ e.type = evKey

instance (e : InputEvent) : Decidable (IsValue e) := inferInstanceAs (Decidable (_ ∨ _))

theorem IsValue.ne_syn (he : IsValue e) : e.type ≠ evSyn := by
  intro hsyn
  rw [IsValue, hsyn] at he
  revert he
  decide

/-- The last value with the code. -/
def lastValue (code : Nat) (past : List InputEvent) : Option Int :=
  (past.filter fun e => IsValue e ∧ e.code = code).getLast?.map (·.value)

theorem lastValue_snoc (code : Nat) (past : List InputEvent) (e : InputEvent) :
    lastValue code (past ++ [e]) =
      if IsValue e ∧ e.code = code then some e.value else lastValue code past := by
  rw [lastValue, List.filter_append]
  split
  case isTrue h =>
    simp only [List.filter_cons, List.filter_nil, decide_eq_true h, if_true, List.getLast?_concat,
      Option.map_some]
  case isFalse h =>
    simp only [List.filter_cons, List.filter_nil, decide_eq_false h, Bool.false_eq_true, if_false,
      List.append_nil, lastValue]

/-! ## What a stream amounts to -/

/-- The codes of the components of a sensor and of its status, and what becomes of a value. -/
structure Channel (D : Type) where
  component : Fin 3 → Option Nat
  status : Option Nat
  conversion : Fin 3 → Int → D

namespace Channel

/-- The code is one of the channel. -/
def Concerns (c : Channel D) (code : Nat) : Prop :=
  c.status = some code ∨ ∃ k, c.component k = some code

instance (c : Channel D) (code : Nat) : Decidable (c.Concerns code) :=
  inferInstanceAs (Decidable (_ ∨ _))

/-- Since the last `EV_SYN` there has been a value for the channel. -/
def pendingAfter (c : Channel D) (past : List InputEvent) : Bool :=
  (past.reverse.takeWhile (·.type ≠ evSyn)).any fun e => IsValue e ∧ c.Concerns e.code

/-- The last value with the code, if the channel has it. -/
def lastOf (code : Option Nat) (past : List InputEvent) : Option Int := code.bind (lastValue · past)

/-- The event at the given time, with the last values of all its components. -/
def eventAt (c : Channel D) (init : SensorsEvent D) (past : List InputEvent) (time : Int) :
    SensorsEvent D :=
  { init with
    timestamp := time
    v := fun k => ((lastOf (c.component k) past).map (c.conversion k)).getD (init.v k)
    status := ((lastOf c.status past).map Int8.ofInt).getD init.status }

variable {n : Nat}

/-- What is to be delivered for an `EV_SYN`: an event of each enabled sensor that is pending. -/
def report (channel : Fin n → Channel D) (mEnabled : Fin n → Int) (init : Fin n → SensorsEvent D)
    (past : List InputEvent) (syn : InputEvent) : List (SensorsEvent D) :=
  ((List.finRange n).filter fun i => (channel i).pendingAfter past ∧ mEnabled i ≠ 0).map fun i =>
    (channel i).eventAt (init i) past (timevalToNano syn.time)

/-- What is to be delivered for the stream behind `past`. -/
def reports (channel : Fin n → Channel D) (mEnabled : Fin n → Int) (init : Fin n → SensorsEvent D) :
    List InputEvent → List InputEvent → List (SensorsEvent D)
  | _, [] => []
  | past, e :: es =>
    (if e.type = evSyn then report channel mEnabled init past e else []) ++
      reports channel mEnabled init (past ++ [e]) es

/-! ## What a value does -/

/-- The event with a value. -/
def take (c : Channel D) (e : InputEvent) (event : SensorsEvent D) : SensorsEvent D :=
  { event with
    v := fun k => if c.component k = some e.code then c.conversion k e.value else event.v k
    status := if c.status = some e.code then Int8.ofInt e.value else event.status }

variable {past : List InputEvent} {e : InputEvent} (c : Channel D)

theorem lastOf_value (he : IsValue e) (code : Option Nat) (past : List InputEvent) :
    lastOf code (past ++ [e]) = if code = some e.code then some e.value else lastOf code past := by
  cases code with
  | none => exact (if_neg (fun h => nomatch h)).symm
  | some code =>
    rw [lastOf, Option.bind_some, lastValue_snoc]
    refine if_congr ?_ rfl rfl
    rw [Option.some_inj, and_iff_right he, eq_comm]

theorem lastOf_other (he : ¬IsValue e) (code : Option Nat) (past : List InputEvent) :
    lastOf code (past ++ [e]) = lastOf code past := by
  cases code with
  | none => rfl
  | some code =>
    rw [lastOf, Option.bind_some, lastValue_snoc, if_neg fun h => he h.1]
    rfl

theorem eventAt_value (he : IsValue e) (init : SensorsEvent D) (past : List InputEvent)
    (time : Int) : c.eventAt init (past ++ [e]) time = c.take e (c.eventAt init past time) := by
  refine SensorsEvent.ext rfl rfl rfl (funext fun k => ?_) ?_
  · show ((lastOf (c.component k) (past ++ [e])).map _).getD _ = if _ then _ else _
    rw [lastOf_value he]
    split <;> rfl
  · show ((lastOf c.status (past ++ [e])).map _).getD _ = if _ then _ else _
    rw [lastOf_value he]
    split <;> rfl

theorem eventAt_other (he : ¬IsValue e) (init : SensorsEvent D) (past : List InputEvent)
    (time : Int) : c.eventAt init (past ++ [e]) time = c.eventAt init past time := by
  simp only [eventAt, lastOf_other he]

theorem pendingAfter_snoc (he : e.type ≠ evSyn) (past : List InputEvent) :
    c.pendingAfter (past ++ [e]) =
      (decide (IsValue e ∧ c.Concerns e.code) || c.pendingAfter past) := by
  rw [pendingAfter, List.reverse_append]
  show ((e :: past.reverse).takeWhile _).any _ = _
  simp only [List.takeWhile_cons, decide_eq_true he, if_true, List.any_cons, pendingAfter]

theorem pendingAfter_syn (he : e.type = evSyn) (past : List InputEvent) :
    c.pendingAfter (past ++ [e]) = false := by
  rw [pendingAfter, List.reverse_append]
  show ((e :: past.reverse).takeWhile _).any _ = _
  simp only [List.takeWhile_cons, decide_eq_false (not_not.mpr he), Bool.false_eq_true, if_false,
    List.any_nil]

end Channel

/-! ## Drivers that answer for channels -/

/-- What a driver keeps of its sensors. -/
@[ext] structure View (D : Type) (n : Nat) where
  mEnabled : Fin n → Int
  mask : Fin n → Bool
  event : Fin n → SensorsEvent D

/-- Up to the time, which is set when it is answered. -/
def SensorsEvent.AtAnyTime (event event' : SensorsEvent D) : Prop :=
  ∀ time, { event with timestamp := time } = { event' with timestamp := time }

/-- A driver that keeps the values of its channels and answers an `EV_SYN` with the pending ones. -/
structure Answers {σ : Type} {n : Nat} (read : σ → InputEvent → σ × List (SensorsEvent D))
    (channel : Fin n → Channel D) (view : σ → View D n) : Prop where
  value : ∀ s e, IsValue e → (read s e).2 = [] ∧ view (read s e).1 =
    { view s with
      mask := fun i => decide ((channel i).Concerns e.code) || (view s).mask i
      event := fun i => (channel i).take e ((view s).event i) }
  syn : ∀ s e, e.type = evSyn →
    (read s e).2 =
      ((List.finRange n).filter fun i => (view s).mask i ∧ (view s).mEnabled i ≠ 0).map (fun i =>
        { (view s).event i with timestamp := timevalToNano e.time }) ∧
    (view (read s e).1).mEnabled = (view s).mEnabled ∧
    (∀ i, (view (read s e).1).mask i = false) ∧
    ∀ i, ((view (read s e).1).event i).AtAnyTime ((view s).event i)
  other : ∀ s e, ¬IsValue e → e.type ≠ evSyn → read s e = (s, [])

/-- What the driver keeps after `past`. -/
structure Tracks {n : Nat} (channel : Fin n → Channel D) (mEnabled : Fin n → Int)
    (init : Fin n → SensorsEvent D) (past : List InputEvent) (v : View D n) : Prop where
  mEnabled : v.mEnabled = mEnabled
  mask : ∀ i, v.mask i = (channel i).pendingAfter past
  event : ∀ time i, { v.event i with timestamp := time } =
    (channel i).eventAt (init i) past time

section

variable {σ : Type} {n : Nat} {read : σ → InputEvent → σ × List (SensorsEvent D)}
  {channel : Fin n → Channel D} {view : σ → View D n} {mEnabled : Fin n → Int}
  {init : Fin n → SensorsEvent D} {past : List InputEvent} {s : σ} {e : InputEvent}

theorem Tracks.start (mEnabled : Fin n → Int) (init : Fin n → SensorsEvent D) :
    Tracks channel mEnabled init [] ⟨mEnabled, fun _ => false, init⟩ := by
  refine ⟨rfl, fun _ => rfl, fun time i => SensorsEvent.ext rfl rfl rfl (funext fun k => ?_) ?_⟩
  · show (init i).v k = ((Channel.lastOf ((channel i).component k) []).map _).getD _
    cases (channel i).component k <;> rfl
  · show (init i).status = ((Channel.lastOf (channel i).status []).map _).getD _
    cases (channel i).status <;> rfl

theorem Tracks.value (h : Tracks channel mEnabled init past (view s))
    (hread : Answers read channel view) (he : IsValue e) :
    Tracks channel mEnabled init (past ++ [e]) (view (read s e).1) := by
  rw [(hread.value s e he).2]
  refine ⟨h.mEnabled, fun i => ?_, fun time i => ?_⟩
  · rw [Channel.pendingAfter_snoc _ he.ne_syn, ← h.mask]
    simp only [he, true_and]
  · rw [Channel.eventAt_value _ he, ← h.event]
    rfl

theorem Tracks.syn (h : Tracks channel mEnabled init past (view s))
    (hread : Answers read channel view) (he : e.type = evSyn) :
    (read s e).2 = Channel.report channel mEnabled init past e ∧
      Tracks channel mEnabled init (past ++ [e]) (view (read s e).1) := by
  obtain ⟨hout, henabled, hmask, hevent⟩ := hread.syn s e he
  have hnot : ¬IsValue e := fun hvalue => hvalue.ne_syn he
  refine ⟨?_, henabled.trans h.mEnabled, fun i => ?_, fun time i => ?_⟩
  · rw [hout, Channel.report]
    simp only [h.mask, h.mEnabled, h.event]
  · rw [hmask, Channel.pendingAfter_syn _ he]
  · rw [hevent i time, h.event, Channel.eventAt_other _ hnot]

theorem Tracks.other (h : Tracks channel mEnabled init past (view s)) (he : ¬IsValue e)
    (hsyn : e.type ≠ evSyn) : Tracks channel mEnabled init (past ++ [e]) (view s) := by
  refine ⟨h.mEnabled, fun i => ?_, fun time i => ?_⟩
  · rw [h.mask, Channel.pendingAfter_snoc _ hsyn, decide_eq_false fun hc => he hc.1,
      Bool.false_or]
  · rw [h.event, Channel.eventAt_other _ he]

/-- Reading event by event delivers what the stream amounts to. -/
theorem Tracks.reports (h : Tracks channel mEnabled init past (view s))
    (hread : Answers read channel view) (es : List InputEvent) :
    (⟨read⟩ : Transducer σ InputEvent (SensorsEvent D)).out s es =
      Channel.reports channel mEnabled init past es := by
  induction es generalizing past s with
  | nil => rfl
  | cons e es ih =>
    rw [Transducer.out_cons, Channel.reports]
    by_cases hvalue : IsValue e
    · have hnone : (read s e).2 = [] := (hread.value s e hvalue).1
      rw [if_neg hvalue.ne_syn, hnone]
      exact ih (h.value hread hvalue)
    by_cases hsyn : e.type = evSyn
    · obtain ⟨hout, htracks⟩ := h.syn hread hsyn
      rw [if_pos hsyn, hout]
      exact congrArg (_ ++ ·) (ih htracks)
    · have hother : Transducer.step ⟨read⟩ s e = (s, []) := hread.other s e hvalue hsyn
      rw [if_neg hsyn, hother]
      exact ih (h.other hvalue hsyn)

end

/-- A driver with its sensors, what it keeps when it is constructed, and the proofs that it answers
for them. -/
structure Account (S : SensorBase D) where
  sensors : Nat
  channel : Fin sensors → Channel D
  view : S.Kept → View D sensors
  start : (Fin sensors → Int) → (Fin sensors → SensorsEvent D) → S.Kept
  view_start : ∀ mEnabled init, view (start mEnabled init) = ⟨mEnabled, fun _ => false, init⟩
  read : S.Kept → InputEvent → S.Kept × List (SensorsEvent D)
  serves : Transducer.Serves ⟨read⟩ S.visit
  answers : Answers read channel view

/-! ### Drivers of one sensor -/

/-- A sensor with three components and no status. -/
def axes (code : Fin 3 → Nat) (conversion : Fin 3 → Int → D) : Channel D :=
  ⟨fun k => some (code k), none, conversion⟩

theorem filter_map_single {α β : Type} (f : α → Prop) [DecidablePred f] (g : α → β) (i : α) :
    ([i].filter f).map g = if f i then [g i] else [] := by
  simp only [List.filter_cons, List.filter_nil, decide_eq_true_eq]
  split <;> rfl

namespace SingleSensor

def view (s : SingleSensor D) : View D 1 :=
  ⟨fun _ => s.mEnabled, fun _ => s.mPendingMask, fun _ => s.mPendingEvent⟩

def start (mEnabled : Fin 1 → Int) (init : Fin 1 → SensorsEvent D) : SingleSensor D :=
  ⟨mEnabled (Fin.last 0), false, init (Fin.last 0)⟩

theorem view_start (mEnabled : Fin 1 → Int) (init : Fin 1 → SensorsEvent D) :
    (start mEnabled init).view = ⟨mEnabled, fun _ => false, init⟩ := by
  refine View.ext (funext fun i => ?_) rfl (funext fun i => ?_)
  · exact congrArg mEnabled (Subsingleton.elim _ i)
  · exact congrArg init (Subsingleton.elim _ i)

theorem answer_view (s : SingleSensor D) (time : Int) :
    (s.answer time).1.mEnabled = s.mEnabled ∧
      (s.answer time).1.mPendingEvent.AtAnyTime s.mPendingEvent := by
  unfold answer
  split <;> exact ⟨rfl, fun _ => rfl⟩

theorem answers {code : Fin 3 → Nat} {conversion : Fin 3 → Int → D}
    {processEvent : SingleSensor D → Nat → Int → SingleSensor D} (hcode : code.Injective)
    (hcomponent : ∀ s k value, processEvent s (code k) value = s.setComponent k (conversion k value))
    (hother : ∀ s c value, (∀ k, c ≠ code k) → processEvent s c value = s) :
    Answers (read processEvent) (fun _ : Fin 1 => axes code conversion) view := by
  refine ⟨fun s e he => ?_, fun s e he => ?_, fun s e he hsyn => ?_⟩
  · have hread : read processEvent s e = (processEvent s e.code e.value, []) := if_pos he
    refine ⟨congrArg Prod.snd hread, ?_⟩
    rw [hread]
    by_cases hk : ∃ k, e.code = code k
    · obtain ⟨k, hk⟩ := hk
      have hconcerns : (axes code conversion).Concerns e.code := .inr ⟨k, congrArg some hk.symm⟩
      rw [hk, hcomponent, ← hk]
      refine View.ext rfl (funext fun i => ?_) (funext fun i => ?_)
      · exact (Bool.or_eq_true_iff.mpr (.inl (decide_eq_true hconcerns))).symm
      · refine SensorsEvent.ext rfl rfl rfl (funext fun l => ?_) rfl
        show Function.update s.mPendingEvent.v k _ l = if some (code l) = some e.code then _ else _
        rw [Function.update_apply]
        by_cases hl : l = k
        · rw [if_pos hl, if_pos (by rw [hl, hk]), hl]
          rfl
        · rw [if_neg hl, if_neg fun h => hl (hcode ((Option.some_inj.mp h).trans hk))]
          rfl
    · rw [not_exists] at hk
      have hconcerns : ¬(axes code conversion).Concerns e.code := by
        rintro (h | ⟨k, h⟩)
        · cases h
        · exact hk k (Option.some_inj.mp h).symm
      rw [hother s e.code e.value hk]
      refine View.ext rfl (funext fun i => ?_) (funext fun i => ?_)
      · rw [decide_eq_false hconcerns]
        exact (Bool.false_or _).symm
      · refine SensorsEvent.ext rfl rfl rfl (funext fun l => ?_) rfl
        exact (if_neg fun h => hk l (Option.some_inj.mp h).symm).symm
  · have hvalue : ¬IsValue e := fun hvalue => hvalue.ne_syn he
    have hread : read processEvent s e = s.answer (timevalToNano e.time) :=
      (if_neg hvalue).trans (if_pos he)
    obtain ⟨henabled, hevent⟩ := s.answer_view (timevalToNano e.time)
    rw [hread]
    refine ⟨?_, funext fun _ => henabled, fun _ => answer_mask .., fun _ => hevent⟩
    rw [answer_out]
    exact (filter_map_single (fun i => s.view.mask i = true ∧ s.view.mEnabled i ≠ 0)
      (fun i => { s.view.event i with timestamp := timevalToNano e.time }) 0).symm
  · exact (if_neg he).trans (if_neg hsyn)

end SingleSensor

section

variable [CDouble D]

namespace AccelSensor

def code : Fin 3 → Nat
  | 0 => accEventX
  | 1 => accEventY
  | 2 => accEventZ

def conversion (k : Fin 3) (value : Int) : D :=
  CDouble.toFloat (CDouble.ofInt (if k = data2 then -16 else 16) * accDataConversion value)

theorem processEvent_component (s : SingleSensor D) (k : Fin 3) (value : Int) :
    processEvent s (code k) value = s.setComponent k (conversion k value) := by
  match k with
  | 0 | 1 | 2 => rfl

end AccelSensor

namespace GyroSensor

def code : Fin 3 → Nat
  | 0 => gyroEventX
  | 1 => gyroEventY
  | 2 => gyroEventZ

def conversion (k : Fin 3) (value : Int) : D :=
  CDouble.toFloat (CDouble.toFloat (CDouble.ofInt value) *
    if k = data1 then -convertGyro else convertGyro)

theorem processEvent_component (s : SingleSensor D) (k : Fin 3) (value : Int) :
    processEvent s (code k) value = s.setComponent k (conversion k value) := by
  match k with
  | 0 | 1 | 2 => rfl

end GyroSensor

end

/-! ### Drivers of two sensors -/

theorem filter_map_pair {α β : Type} (f : α → Prop) [DecidablePred f] (g : α → β) (i j : α) :
    ([i, j].filter f).map g = (if f i then [g i] else []) ++ if f j then [g j] else [] := by
  simp only [List.filter_cons, List.filter_nil, decide_eq_true_eq]
  split <;> split <;> rfl

namespace SensorPair

def view (s : SensorPair D) : View D 2 := ⟨s.mEnabled, s.pending.mPendingMask, s.pending.mPendingEvent⟩

theorem answers {channel : Fin 2 → Channel D} {processEvent : Pending D → Nat → Int → Pending D}
    (hmask : ∀ p code value i, (processEvent p code value).mPendingMask i =
      (decide ((channel i).Concerns code) || p.mPendingMask i))
    (hevent : ∀ (p : Pending D) (e : InputEvent) i,
      (processEvent p e.code e.value).mPendingEvent i = (channel i).take e (p.mPendingEvent i)) :
    Answers (read processEvent) channel view := by
  refine ⟨fun s e he => ?_, fun s e he => ?_, fun s e he hsyn => ?_⟩
  · have hread : read processEvent s e =
      ({ s with pending := processEvent s.pending e.code e.value }, []) := if_pos he
    refine ⟨congrArg Prod.snd hread, ?_⟩
    rw [hread]
    exact View.ext rfl (funext fun i => hmask ..) (funext fun i => hevent ..)
  · have hvalue : ¬IsValue e := fun hvalue => hvalue.ne_syn he
    have hread : read processEvent s e =
        ({ s with pending := (s.pending.answerAll s.mEnabled (timevalToNano e.time) sensors).1 },
          (s.pending.answerAll s.mEnabled (timevalToNano e.time) sensors).2) :=
      (if_neg hvalue).trans (if_pos he)
    rw [hread]
    refine ⟨?_, rfl, fun i => ?_, fun i time => ?_⟩
    · show (s.pending.answer _ _ _).2 ++ (((s.pending.answer _ _ _).1.answer _ _ _).2 ++ []) =
        List.map _ (List.filter _ sensors)
      have hne : Fin.last 1 ≠ (Fin.last 0).castSucc := by decide
      rw [List.append_nil, Pending.answer_out, Pending.answer_out, Pending.answer_mask, if_neg hne,
        Pending.answer_event, sensors, filter_map_pair]
      rfl
    · show (((s.pending.answer _ _ _).1.answer _ _ _).1).mPendingMask i = false
      rw [Pending.answer_mask, Pending.answer_mask]
      match i with
      | 0 => rfl
      | 1 => rfl
    · show { (((s.pending.answer _ _ _).1.answer _ _ _).1).mPendingEvent i with timestamp := time } = _
      rw [Pending.answer_event, Pending.answer_event]
      rfl
  · exact (if_neg he).trans (if_neg hsyn)

end SensorPair

section

variable [CDouble D]

namespace MagSensor

/-- The code of component `k` of sensor `i`. -/
def code : Fin 2 → Fin 3 → Nat
  | 0, 0 => magEventX
  | 0, 1 => magEventY
  | 0, 2 => magEventZ
  | 1, 0 => ornEventYaw
  | 1, 1 => ornEventPitch
  | 1, 2 => ornEventRoll

def conversion (i : Fin 2) (value : Int) : D :=
  if i = mag then magDataConversion value else ornDataConversion value

def channel (i : Fin 2) : Channel D :=
  ⟨fun k => some (code i k), some ornEventStatus, fun _ => conversion i⟩

theorem code_inj {i j : Fin 2} {k l : Fin 3} (h : code i k = code j l) : i = j ∧ k = l := by
  revert i j k l
  decide

theorem code_ne (i : Fin 2) (k : Fin 3) : code i k ≠ ornEventStatus := by
  revert i k
  decide

theorem concerns_iff (i : Fin 2) (c : Nat) :
    (channel (D := D) i).Concerns c ↔ c = ornEventStatus ∨ ∃ k, c = code i k := by
  constructor
  · rintro (h | ⟨k, h⟩)
    · exact .inl (Option.some_inj.mp h).symm
    · exact .inr ⟨k, (Option.some_inj.mp h).symm⟩
  · rintro (h | ⟨k, h⟩)
    · exact .inl (congrArg some h.symm)
    · exact .inr ⟨k, congrArg some h.symm⟩

theorem processEvent_component (p : Pending D) (i : Fin 2) (k : Fin 3) (value : Int) :
    p.processEvent (code i k) value = p.setComponent i k (conversion i value) := by
  match i, k with
  | 0, 0 | 0, 1 | 0, 2 | 1, 0 | 1, 1 | 1, 2 => rfl

/-- A code is one of a component, that of the status, or of no interest. -/
theorem processEvent_cases (p : Pending D) (c : Nat) (value : Int) :
    (∃ i k, c = code i k ∧ p.processEvent c value = p.setComponent i k (conversion i value)) ∨
    (c = ornEventStatus ∧ p.processEvent c value =
      { mPendingMask := fun _ => true
        mPendingEvent := fun i => { p.mPendingEvent i with status := Int8.ofInt value } }) ∨
    (c ≠ ornEventStatus ∧ (∀ i k, c ≠ code i k) ∧ p.processEvent c value = p) := by
  by_cases hcomponent : ∃ i k, c = code i k
  · obtain ⟨i, k, rfl⟩ := hcomponent
    exact .inl ⟨i, k, rfl, processEvent_component p i k value⟩
  by_cases hstatus : c = ornEventStatus
  · subst hstatus
    exact .inr (.inl ⟨rfl, rfl⟩)
  have hne (i : Fin 2) (k : Fin 3) : c ≠ code i k := fun h => hcomponent ⟨i, k, h⟩
  refine .inr (.inr ⟨hstatus, hne, ?_⟩)
  exact (if_neg (hne 0 0)).trans <| (if_neg (hne 0 1)).trans <| (if_neg (hne 0 2)).trans <|
    (if_neg (hne 1 0)).trans <| (if_neg (hne 1 1)).trans <| (if_neg (hne 1 2)).trans <|
    if_neg hstatus

theorem processEvent_mask (p : Pending D) (c : Nat) (value : Int) (j : Fin 2) :
    (p.processEvent c value).mPendingMask j =
      (decide ((channel (D := D) j).Concerns c) || p.mPendingMask j) := by
  rcases processEvent_cases p c value with ⟨i, k, rfl, h⟩ | ⟨rfl, h⟩ | ⟨hstatus, hnone, h⟩
  · rw [h]
    show Function.update p.mPendingMask i true j = _
    rw [Function.update_apply]
    split
    case isTrue hji =>
      rw [decide_eq_true ((concerns_iff j _).mpr (.inr ⟨k, by rw [hji]⟩)), Bool.true_or]
    case isFalse hji =>
      rw [decide_eq_false, Bool.false_or]
      intro hc
      rcases (concerns_iff j _).mp hc with hc | ⟨l, hl⟩
      · exact code_ne i k hc
      · exact hji (code_inj hl).1.symm
  · rw [h, decide_eq_true ((concerns_iff j _).mpr (.inl rfl)), Bool.true_or]
  · rw [h, decide_eq_false, Bool.false_or]
    intro hc
    rcases (concerns_iff j c).mp hc with hc | ⟨l, hl⟩
    · exact hstatus hc
    · exact hnone j l hl

theorem processEvent_event (p : Pending D) (e : InputEvent) (j : Fin 2) :
    (p.processEvent e.code e.value).mPendingEvent j = (channel j).take e (p.mPendingEvent j) := by
  have hcomponent (l : Fin 3) : (channel (D := D) j).component l = some e.code ↔ e.code = code j l :=
    Option.some_inj.trans eq_comm
  have hstatus : (channel (D := D) j).status = some e.code ↔ e.code = ornEventStatus :=
    Option.some_inj.trans eq_comm
  rcases processEvent_cases p e.code e.value with ⟨i, k, hcode, h⟩ | ⟨hcode, h⟩ | ⟨hcode, hnone, h⟩
  · have hkeep : ((channel (D := D) j).take e (p.mPendingEvent j)).status =
        (p.mPendingEvent j).status :=
      if_neg fun hs => code_ne i k (hcode.symm.trans (hstatus.mp hs))
    rw [h]
    show Function.update p.mPendingEvent i _ j = _
    rw [Function.update_apply]
    split
    case isTrue hji =>
      subst hji
      refine SensorsEvent.ext rfl rfl rfl (funext fun l => ?_) hkeep.symm
      show Function.update _ k _ l = if _ then _ else _
      rw [Function.update_apply]
      refine if_congr ?_ rfl rfl
      rw [hcomponent, hcode]
      exact ⟨fun hl => hl ▸ rfl, fun hl => (code_inj hl).2.symm⟩
    case isFalse hji =>
      refine SensorsEvent.ext rfl rfl rfl (funext fun l => ?_) hkeep.symm
      refine (if_neg fun hl => hji ?_).symm
      exact (code_inj (hcode.symm.trans ((hcomponent l).mp hl))).1.symm
  · rw [h]
    refine SensorsEvent.ext rfl rfl rfl (funext fun l => ?_) (if_pos (hstatus.mpr hcode)).symm
    exact (if_neg fun hl => code_ne j l (((hcomponent l).mp hl).symm.trans hcode)).symm
  · rw [h]
    refine SensorsEvent.ext rfl rfl rfl (funext fun l => ?_) ?_
    · exact (if_neg fun hl => hnone j l ((hcomponent l).mp hl)).symm
    · exact (if_neg fun hs => hcode (hstatus.mp hs)).symm

end MagSensor

def magAccount (D : Type) [CDouble D] : Account (magSensor D) where
  sensors := 2
  channel := MagSensor.channel
  view := SensorPair.view
  start mEnabled init := ⟨mEnabled, fun _ => false, init⟩
  view_start _ _ := rfl
  read := SensorPair.read Pending.processEvent
  serves := SensorPair.serves Pending.processEvent
  answers := SensorPair.answers MagSensor.processEvent_mask MagSensor.processEvent_event

namespace PressSensor

def code : Fin 2 → Nat
  | 0 => pressEvent
  | 1 => temperatureEvent

def conversion (i : Fin 2) (value : Int) : D :=
  if i = press then pressDataConversion value else temperatureDataConversion value

/-- The first component is the only one. -/
def channel (i : Fin 2) : Channel D :=
  ⟨fun k => if k = data0 then some (code i) else none, none, fun _ => conversion i⟩

theorem concerns_iff (i : Fin 2) (c : Nat) : (channel (D := D) i).Concerns c ↔ c = code i := by
  constructor
  · rintro (h | ⟨k, h⟩)
    · cases h
    · change (if k = data0 then some (code i) else none) = some c at h
      split at h
      case isTrue => exact (Option.some_inj.mp h).symm
      case isFalse => cases h
  · rintro rfl
    exact .inr ⟨data0, rfl⟩

theorem processEvent_component (p : Pending D) (i : Fin 2) (value : Int) :
    processEvent p (code i) value = p.setComponent i data0 (conversion i value) := by
  match i with
  | 0 | 1 => rfl

theorem processEvent_cases (p : Pending D) (c : Nat) (value : Int) :
    (∃ i, c = code i ∧ processEvent p c value = p.setComponent i data0 (conversion i value)) ∨
      (∀ i, c ≠ code i) ∧ processEvent p c value = p := by
  by_cases hc : ∃ i, c = code i
  · obtain ⟨i, rfl⟩ := hc
    exact .inl ⟨i, rfl, processEvent_component p i value⟩
  · rw [not_exists] at hc
    have hpress : c ≠ pressEvent := hc 0
    have htemperature : c ≠ temperatureEvent := hc 1
    refine .inr ⟨hc, ?_⟩
    rw [processEvent, if_neg hpress, if_neg htemperature]

theorem code_injective : code.Injective := by decide

theorem processEvent_mask (p : Pending D) (c : Nat) (value : Int) (i : Fin 2) :
    (processEvent p c value).mPendingMask i =
      (decide ((channel (D := D) i).Concerns c) || p.mPendingMask i) := by
  rw [decide_eq_decide.mpr (concerns_iff i c)]
  rcases processEvent_cases p c value with ⟨j, rfl, h⟩ | ⟨hnone, h⟩
  · rw [h]
    show Function.update p.mPendingMask j true i = _
    rw [Function.update_apply]
    by_cases hij : i = j
    · rw [if_pos hij, decide_eq_true (congrArg code hij.symm), Bool.true_or]
    · rw [if_neg hij, decide_eq_false fun h => hij (code_injective h).symm, Bool.false_or]
  · rw [h, decide_eq_false (hnone i), Bool.false_or]

theorem processEvent_event (p : Pending D) (e : InputEvent) (i : Fin 2) :
    (processEvent p e.code e.value).mPendingEvent i = (channel i).take e (p.mPendingEvent i) := by
  have hnone (k : Fin 3) (hk : k = data0 → e.code ≠ code i) :
      (channel (D := D) i).component k ≠ some e.code := by
    show (if k = data0 then some (code i) else none) ≠ some e.code
    split
    case isTrue hzero => exact fun h => hk hzero (Option.some_inj.mp h).symm
    case isFalse => exact fun h => nomatch h
  rcases processEvent_cases p e.code e.value with ⟨j, hj, h⟩ | ⟨hother, h⟩
  · rw [h]
    show Function.update p.mPendingEvent j _ i = _
    rw [Function.update_apply]
    by_cases hij : i = j
    · subst hij
      rw [if_pos rfl]
      refine SensorsEvent.ext rfl rfl rfl (funext fun k => ?_) rfl
      show Function.update (p.mPendingEvent i).v data0 _ k = if _ then _ else _
      rw [Function.update_apply]
      by_cases hk : k = data0
      · have hcomponent : (channel (D := D) i).component k = some e.code :=
          (if_pos hk).trans (congrArg some hj.symm)
        rw [if_pos hk, if_pos hcomponent]
        rfl
      · rw [if_neg hk, if_neg (hnone k fun hzero => absurd hzero hk)]
    · rw [if_neg hij]
      refine SensorsEvent.ext rfl rfl rfl (funext fun k => ?_) rfl
      exact (if_neg (hnone k fun _ hcode => hij (code_injective (hcode.symm.trans hj)))).symm
  · rw [h]
    refine SensorsEvent.ext rfl rfl rfl (funext fun k => ?_) rfl
    exact (if_neg (hnone k fun _ => hother i)).symm

end PressSensor

end

end HeadUnit.Sensors
