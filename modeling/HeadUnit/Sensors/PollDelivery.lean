import HeadUnit.Sensors.PollContext
import HeadUnit.Std.Outcome

/-!
# Nothing is lost on the way to the framework

Each step of a process that polls the sensors keeps `Delivering`: every driver has passed on what
its device's stream amounts to, but for a queue, and a queue is not forgotten, as the driver's bit
is set until it is empty. So a call that has room left at its end has left no queue behind.
-/

namespace HeadUnit.Sensors

variable {D : Type}

/-! ## What a step does -/

namespace PollState

variable {s : PollState} {i : Fin numSensorDrivers}

theorem step_notPending (hpc : s.pc = .driver i) : s.step .notPending =
    if s.revents i.castSucc then .error .disabled else .ok (s.visit (i + 1), []) := by
  unfold step
  rw [hpc]

theorem step_readEvents (hpc : s.pc = .driver i) (result : ReadResult) :
    s.step (.readEvents result) = if result.Allowed s.count then
      .ok ((s.readEvents i result).visit (i + 1), slots s.data result.written)
    else .error .disabled := by
  unfold step
  rw [hpc]

theorem step_polled (hpc : s.pc = .poll) (n : Nat) (revents : Fin numFds → Bool) :
    s.step (.polled n revents) = if n ≠ 0 then
      .ok (visit { s with revents := Function.update revents wake false } 0, [])
    else .ok ({ s with
      revents := Function.update revents wake false, pc := .returned s.nbEvents }, []) := by
  unfold step
  rw [hpc]

theorem step_pollFailed (hpc : s.pc = .poll) (errno : Nat) :
    s.step (.pollFailed errno) = if errno = eintr then .ok (s, [])
    else if 0 < errno then .ok ({ s with pc := .returned (-errno) }, [])
    else .error .disabled := by
  unfold step
  rw [hpc]

end PollState

namespace PollContext

variable {mSensors : Fin numSensorDrivers → SensorBase D} {s s' : PollContext mSensors}
  {a : Answer} {ws : List (Happening D)}

inductive Step : PollContext mSensors → Answer → PollContext mSensors → List (Happening D) → Prop
  | call {s : PollContext mSensors} {v : Int} (hpc : s.poll.pc = .returned v) (count : Nat) :
    Step s (.call count) { s with poll := pollStart count s.poll.revents } [.call count]
  | notPending {s : PollContext mSensors} {j : Fin numSensorDrivers} (hpc : s.poll.pc = .driver j)
      (hbit : s.poll.revents j.castSucc = false) :
    Step s .notPending { s with poll := s.poll.visit (j + 1) } []
  | read {s : PollContext mSensors} {j : Fin numSensorDrivers} (hpc : s.poll.pc = .driver j)
      (hbit : s.poll.revents j.castSucc = true) {c : ReadCall} (hcount : c.count = s.poll.count)
      {sensor : (mSensors j).State} {written : List (SensorsEvent D)}
      (hread : (mSensors j).readEvents (s.sensor j) c = .ok (sensor, written))
      (hallowed : (ReadResult.events written.length).Allowed s.poll.count) :
    Step s (.read c.events)
      ⟨(s.poll.readEvents j (.events written.length)).visit (j + 1),
        Function.update s.sensor j sensor⟩
      (.read j c.events :: List.zipWith (.written j) (slots s.poll.data written.length) written)
  | readFailed {s : PollContext mSensors} {errno : Nat} (poll : PollState) :
    Step s (.readFailed errno) { s with poll } []
  | again {s : PollContext mSensors} (hpc : s.poll.pc = .poll) {n : Nat}
      (revents revents' : Fin numFds → Bool) :
    Step s (.polled n revents)
      { s with poll := PollState.visit { s.poll with revents := revents' } 0 } []
  | done {s : PollContext mSensors} (hpc : s.poll.pc = .poll) {n : Nat}
      (revents revents' : Fin numFds → Bool) :
    Step s (.polled n revents)
      { s with poll := { s.poll with revents := revents', pc := .returned s.poll.nbEvents } } []
  | interrupted {s : PollContext mSensors} : Step s (.pollFailed eintr) s []
  | failed {s : PollContext mSensors} (hpc : s.poll.pc = .poll) {errno : Nat} (hpos : 0 < errno) :
    Step s (.pollFailed errno) { s with poll := { s.poll with pc := .returned (-errno) } } []

theorem respond_eq_ok {r : Response} (h : s.respond r = .ok (s', ws)) :
    ∃ poll out, s.poll.step r = .ok (poll, out) ∧ s' = { s with poll } ∧ ws = [] := by
  unfold respond PollState.respond at h
  have hstep : pollEvents.step s.poll r = s.poll.step r := rfl
  rw [hstep] at h
  cases hpoll : s.poll.step r with
  | error e =>
    rw [hpoll] at h
    cases e
    cases h
  | ok result =>
    rw [hpoll] at h
    cases h
    exact ⟨result.1, result.2, rfl, rfl, rfl⟩

theorem step_of_ok (h : s.step a = .ok (s', ws)) : Step s a s' ws := by
  unfold step at h
  split at h
  case h_1 count v hpc =>
    cases h
    exact .call hpc count
  case h_2 j hpc =>
    obtain ⟨poll, out, hpoll, rfl, rfl⟩ := respond_eq_ok h
    rw [PollState.step_notPending hpc] at hpoll
    split at hpoll
    case isTrue => cases hpoll
    case isFalse hbit =>
      cases hpoll
      exact .notPending hpc (Bool.eq_false_iff.mpr hbit)
  case h_3 events j hpc =>
    split at h
    case isFalse => cases h
    case isTrue hguard =>
      obtain ⟨hbit, hpos⟩ := hguard
      unfold readEvents PollState.respond at h
      cases hread : (mSensors j).readEvents (s.sensor j) ⟨s.poll.count.toNat, hpos, events⟩ with
      | error e =>
        rw [hread] at h
        cases h
      | ok result =>
        obtain ⟨sensor, written⟩ := result
        rw [hread, Except.ok_bind] at h
        have hstep : pollEvents.step s.poll (.readEvents (.events written.length)) =
          s.poll.step (.readEvents (.events written.length)) := rfl
        dsimp only at h
        rw [hstep, PollState.step_readEvents hpc] at h
        by_cases hallowed : (ReadResult.events written.length).Allowed s.poll.count
        · rw [if_pos hallowed] at h
          cases h
          exact .read hpc hbit (Int.toNat_of_nonneg (by omega)) hread hallowed
        · rw [if_neg hallowed] at h
          cases h
  case h_4 errno j hpc =>
    split at h
    case isFalse => cases h
    case isTrue =>
      obtain ⟨poll, out, -, rfl, rfl⟩ := respond_eq_ok h
      exact .readFailed poll
  case h_5 n revents hpc =>
    obtain ⟨poll, out, hpoll, rfl, rfl⟩ := respond_eq_ok h
    rw [PollState.step_polled hpc] at hpoll
    split at hpoll
    case isTrue =>
      cases hpoll
      exact .again hpc revents _
    case isFalse =>
      cases hpoll
      exact .done hpc revents _
  case h_6 errno hpc =>
    obtain ⟨poll, out, hpoll, rfl, rfl⟩ := respond_eq_ok h
    rw [PollState.step_pollFailed hpc] at hpoll
    split at hpoll
    case isTrue heintr =>
      cases hpoll
      exact heintr ▸ .interrupted
    case isFalse =>
      split at hpoll
      case isTrue hpos =>
        cases hpoll
        exact .failed hpc hpos
      case isFalse => cases hpoll
  case h_7 => cases h

end PollContext

/-! ## The invariant -/

/-- The `for` loop of this turn is past driver `i`. -/
def PollState.Past (s : PollState) (i : Fin numSensorDrivers) : Prop :=
  match s.pc with
  | .driver j => i < j
  | .poll | .returned _ => True

/-- From what it has taken, the driver has passed on `out`, but for what its queue amounts to. The
bit is set while there is a queue, and there is none once the driver is done. -/
def Served {S : SensorBase D} (A : Account S) (first : S.Kept) (stream : List InputEvent)
    (out : List (SensorsEvent D)) (s : S.State) (bit : Bool) (done : Prop) : Prop :=
  ∃ q, s.mInputReader.Holds q ∧ Transducer.Lag ⟨A.read⟩ first stream s.kept q out ∧
    (q ≠ [] → bit = true) ∧ (done → q = [])

section

variable {S : SensorBase D} {A : Account S} {first : S.Kept} {stream : List InputEvent}
  {out : List (SensorsEvent D)} {s : S.State} {bit : Bool} {done : Prop}

theorem Served.mono {done' : Prop} (h : Served A first stream out s bit done)
    (hdone : done' → done) : Served A first stream out s bit done' := by
  obtain ⟨q, hring, hlag, hbit, hempty⟩ := h
  exact ⟨q, hring, hlag, hbit, fun hd => hempty (hdone hd)⟩

/-- A driver that is done does not need its bit. -/
theorem Served.of_done (h : Served A first stream out s bit done) (hdone : done) (bit' : Bool)
    (done' : Prop) : Served A first stream out s bit' done' := by
  obtain ⟨q, hring, hlag, -, hempty⟩ := h
  obtain rfl := hempty hdone
  exact ⟨[], hring, hlag, fun hne => absurd rfl hne, fun _ => rfl⟩

/-- Without its bit, a driver is done. -/
theorem Served.of_not_bit (h : Served A first stream out s bit done) (hbit : bit = false)
    (done' : Prop) : Served A first stream out s bit done' := by
  obtain ⟨q, hring, hlag, hset, -⟩ := h
  have hempty : q = [] := by
    by_contra hne
    exact absurd ((hset hne).symm.trans hbit) (Bool.false_ne_true ∘ Eq.symm)
  exact ⟨q, hring, hlag, hset, fun _ => hempty⟩

/-- A call of the driver. -/
theorem Served.read (h : Served A first stream out s bit done) {c : ReadCall} {s' : S.State}
    {written : List (SensorsEvent D)} (hread : S.readEvents s c = .ok (s', written)) :
    written.length ≤ c.count ∧ ∀ bit' done', (bit' = false → written.length < c.count) →
      (done' → written.length < c.count) →
      Served A first (stream ++ c.events) (out ++ written) s' bit' done' := by
  obtain ⟨q, hring, hlag, -, -⟩ := h
  rcases SensorBase.readEvents_spec A.serves (c := c) hring with hstop | ⟨t, w, q', hok, hs⟩
  · exact nomatch hread.symm.trans hstop
  obtain ⟨rfl, rfl⟩ := Prod.mk.inj (Except.ok.inj (hread.symm.trans hok))
  obtain ⟨hring', hlag', hlen, hempty⟩ := hs
  refine ⟨hlen, fun bit' done' hbit hdone => ?_⟩
  refine ⟨q', hring', (hlag.append c.events).trans hlag', fun hne => ?_, fun hd => ?_⟩
  · by_contra hunset
    exact hne (hempty (hbit ((Bool.not_eq_true _).mp hunset)))
  · exact hempty (hdone hd)

end

variable {mSensors : Fin numSensorDrivers → SensorBase D} {account : ∀ i, Account (mSensors i)}
  {first : ∀ i, (mSensors i).Kept} {os ws : List (Happening D)} {s s' : PollContext mSensors}
  {a : Answer}

/-- The framework's array is filled in order, and every driver has passed on what it owes. -/
structure Delivering (account : ∀ i, Account (mSensors i)) (first : ∀ i, (mSensors i).Kept)
    (os : List (Happening D)) (s : PollContext mSensors) : Prop where
  filled : PollState.Filled (lastCall os).room (lastCall os).slots s.poll
  asks : (∀ v, s.poll.pc ≠ .returned v) → s.poll.count ≠ 0
  sensor : ∀ i, Served (account i) (first i) (taken i os) (delivered i os) (s.sensor i)
    (s.poll.revents i.castSucc) (s.poll.count ≠ 0 ∧ s.poll.Past i)

theorem PollState.visit_asks {s : PollState} (i : Nat) (h : ∀ v, (s.visit i).pc ≠ .returned v) :
    (s.visit i).count ≠ 0 := by
  rw [visit_count]
  intro hzero
  refine h s.nbEvents ?_
  rw [visit, if_neg (not_not.mpr hzero)]

theorem PollState.visit_revents (s : PollState) (i : Nat) : (s.visit i).revents = s.revents := by
  unfold visit
  split
  · split <;> rfl
  · rfl

/-- Behind a visit with room left, the drivers up to it are past. -/
theorem PollState.Past.of_visit {s : PollState} {n : Nat} {i : Fin numSensorDrivers}
    (hcount : s.count ≠ 0) (h : (s.visit n).Past i) : (i : Nat) < n ∨ numSensorDrivers ≤ n := by
  unfold visit at h
  rw [if_pos hcount] at h
  split at h
  case isTrue => exact .inl h
  case isFalse hn => exact .inr (Nat.not_lt.mp hn)

theorem Delivering.call (h : Delivering account first os s) (count : Nat) :
    Delivering account first (os ++ [.call count])
      { s with poll := pollStart count s.poll.revents } := by
  have hlast : lastCall (os ++ [Happening.call (D := D) count]) = ⟨count, []⟩ := List.foldl_append
  refine ⟨hlast ▸ PollState.Filled.start count _, PollState.visit_asks 0, fun i => ?_⟩
  rw [taken_append, delivered_append]
  show Served _ _ (taken i os ++ []) (delivered i os ++ []) _ _ _
  rw [List.append_nil, List.append_nil, pollStart, PollState.visit_revents]
  refine (h.sensor i).mono ?_
  rintro ⟨hcount, hpast⟩
  rw [PollState.visit_count] at hcount
  rcases PollState.Past.of_visit hcount hpast with hlt | hle
  · exact absurd hlt (Nat.not_lt_zero _)
  · exact absurd hle (by decide)

theorem Delivering.visit (h : Delivering account first os s) {j : Fin numSensorDrivers}
    (hpc : s.poll.pc = .driver j) (hbit : s.poll.revents j.castSucc = false) :
    Delivering account first (os ++ []) { s with poll := s.poll.visit (j + 1) } := by
  have hfilled := h.filled.step (r := .notPending) trivial (.notPending (j + 1))
  rw [List.append_nil] at hfilled ⊢
  refine ⟨hfilled, PollState.visit_asks _, fun i => ?_⟩
  rw [PollState.visit_revents, PollState.visit_count]
  by_cases hij : i = j
  · subst hij
    exact (h.sensor i).of_not_bit hbit _
  · refine (h.sensor i).mono ?_
    rintro ⟨hcount, hpast⟩
    refine ⟨hcount, ?_⟩
    have hlt : (i : Nat) < j := by
      have hne : (i : Nat) ≠ j := fun heq => hij (Fin.ext heq)
      have hi := i.isLt
      rcases PollState.Past.of_visit hcount hpast with hlt | hle <;> omega
    rw [PollState.Past, hpc]
    exact hlt

theorem Delivering.read (h : Delivering account first os s) {j : Fin numSensorDrivers}
    (hpc : s.poll.pc = .driver j) (hbit : s.poll.revents j.castSucc = true) {c : ReadCall}
    (hcount : c.count = s.poll.count) {sensor : (mSensors j).State}
    {written : List (SensorsEvent D)}
    (hread : (mSensors j).readEvents (s.sensor j) c = .ok (sensor, written))
    (hallowed : (ReadResult.events written.length).Allowed s.poll.count) :
    Delivering account first
      (os ++ (.read j c.events ::
        List.zipWith (.written j) (slots s.poll.data written.length) written))
      ⟨(s.poll.readEvents j (.events written.length)).visit (j + 1),
        Function.update s.sensor j sensor⟩ := by
  have hlen : (slots s.poll.data written.length).length = written.length := length_slots ..
  have hlast : lastCall (os ++ (.read j c.events ::
      List.zipWith (.written j) (slots s.poll.data written.length) written)) =
        ⟨(lastCall os).room, (lastCall os).slots ++ slots s.poll.data written.length⟩ :=
    List.foldl_append.trans (foldl_written j (lastCall os) hlen)
  have hfilled := h.filled.step (r := .readEvents (.events written.length)) trivial
    (.readEvents (i := j) hallowed)
  refine ⟨hlast ▸ hfilled, PollState.visit_asks _, fun i => ?_⟩
  have htaken : taken i (Happening.read j c.events ::
      List.zipWith (.written j) (slots s.poll.data written.length) written) =
        if j = i then c.events else [] := by
    show _ ++ taken i _ = _
    rw [taken_written, List.append_nil]
    rfl
  have hdelivered : delivered i (Happening.read j c.events ::
      List.zipWith (.written j) (slots s.poll.data written.length) written) =
        if j = i then written else [] := delivered_written j i hlen
  rw [taken_append, delivered_append, htaken, hdelivered, PollState.visit_count,
    PollState.visit_revents]
  have hleft : (s.poll.readEvents j (.events written.length)).count =
    s.poll.count - written.length := rfl
  have hrevents : (s.poll.readEvents j (.events written.length)).revents =
    if (written.length : Int) < s.poll.count then Function.update s.poll.revents j.castSucc false
    else s.poll.revents := rfl
  by_cases hij : j = i
  · subst hij
    rw [if_pos rfl, if_pos rfl]
    show Served _ _ _ _ (Function.update s.sensor j sensor j) _ _
    rw [Function.update_self]
    obtain ⟨hle, hserved⟩ := (h.sensor j).read hread
    refine hserved _ _ (fun hunset => ?_) ?_
    · -- The bit is set still unless there has been room left.
      by_contra hfull
      rw [hrevents, if_neg (by omega), hbit] at hunset
      cases hunset
    · rintro ⟨hne, -⟩
      rw [hleft] at hne
      omega
  · have hne : (i : Nat) ≠ j := fun heq => hij (Fin.ext heq.symm)
    have hi : (s.poll.readEvents j (.events written.length)).revents i.castSucc =
        s.poll.revents i.castSucc := by
      rw [hrevents]
      split
      · exact Function.update_of_ne (fun heq => hij (Fin.castSucc_injective _ heq).symm) ..
      · rfl
    rw [if_neg hij, if_neg hij, List.append_nil, List.append_nil, hi]
    show Served _ _ _ _ (Function.update s.sensor j sensor i) _ _
    rw [Function.update_of_ne (Ne.symm hij)]
    refine (h.sensor i).mono ?_
    rintro ⟨hcount', hpast⟩
    have hasks : s.poll.count ≠ 0 := by
      refine h.asks fun v hv => ?_
      rw [hpc] at hv
      cases hv
    refine ⟨hasks, ?_⟩
    have hlt : (i : Nat) < j := by
      have hsize := i.isLt
      rcases PollState.Past.of_visit hcount' hpast with hlt | hle <;> omega
    rw [PollState.Past, hpc]
    exact hlt

/-- Before `poll` is called, all drivers are done. -/
theorem Delivering.of_poll (h : Delivering account first os s) (hpc : s.poll.pc = .poll)
    (i : Fin numSensorDrivers) (bit : Bool) (done : Prop) :
    Served (account i) (first i) (taken i os) (delivered i os) (s.sensor i) bit done := by
  refine (h.sensor i).of_done ⟨h.asks fun v hv => ?_, ?_⟩ bit done
  · rw [hpc] at hv
    cases hv
  · rw [PollState.Past, hpc]
    trivial

/-- The answer is no error of a driver. -/
def Answer.NoError : Answer → Prop
  | .readFailed _ => False
  | _ => True

theorem Delivering.step (h : Delivering account first os s) (ha : a.NoError)
    (hstep : s.step a = .ok (s', ws)) : Delivering account first (os ++ ws) s' := by
  cases PollContext.step_of_ok hstep with
  | call _ count => exact h.call count
  | notPending hpc hbit => exact h.visit hpc hbit
  | read hpc hbit hcount hread hallowed => exact h.read hpc hbit hcount hread hallowed
  | readFailed => exact ha.elim
  | again hpc revents revents' =>
    have hfilled := h.filled.step (r := .polled 0 revents) trivial (.again revents revents')
    rw [List.append_nil] at hfilled ⊢
    exact ⟨hfilled, PollState.visit_asks 0, fun i => h.of_poll hpc i _ _⟩
  | done hpc revents revents' =>
    have hfilled := h.filled.step (r := .polled 0 revents) trivial (.done revents revents')
    rw [List.append_nil] at hfilled ⊢
    exact ⟨hfilled, fun hpc' => absurd rfl (hpc' _), fun i => h.of_poll hpc i _ _⟩
  | interrupted =>
    rw [List.append_nil]
    exact h
  | failed hpc hpos =>
    have hfilled := h.filled.step (r := .pollFailed _) trivial (.failed hpos)
    rw [List.append_nil] at hfilled ⊢
    exact ⟨hfilled, fun hpc' => absurd rfl (hpc' _), fun i => h.of_poll hpc i _ _⟩

/-! ## Runs -/

/-- The sensors before the first call, for given contents of their memory. -/
def PollContext.start (account : ∀ i, Account (mSensors i))
    (mEnabled : ∀ i, Fin (account i).sensors → Int)
    (init : ∀ i, Fin (account i).sensors → SensorsEvent D)
    (mBuffer : ∀ i, Vector InputEvent (2 * (mSensors i).numEvents)) : PollContext mSensors :=
  ⟨⟨0, 0, 0, fun _ => false, .returned 0⟩,
    fun i => ⟨(account i).start (mEnabled i) (init i), .init (mBuffer i)⟩⟩

theorem Delivering.start {mEnabled : ∀ i, Fin (account i).sensors → Int}
    {init : ∀ i, Fin (account i).sensors → SensorsEvent D}
    {mBuffer : ∀ i, Vector InputEvent (2 * (mSensors i).numEvents)}
    (hpos : ∀ i, 0 < (mSensors i).numEvents) :
    Delivering account (fun i => (account i).start (mEnabled i) (init i)) []
      (.start account mEnabled init mBuffer) := by
  refine ⟨⟨rfl, rfl, rfl, rfl, Int.le_refl 0, ?_⟩, fun hpc => absurd rfl (hpc 0), fun i => ?_⟩
  · intro v hv _
    cases hv
    rfl
  · exact ⟨[], .init (hpos i) _, .refl _ [], fun hne => absurd rfl hne, fun _ => rfl⟩

theorem Delivering.after {as : List Answer} (h : Delivering account first [] s)
    (has : ∀ a ∈ as, a.NoError) (hrun : (pollContext mSensors).after s as = .ok s') :
    Delivering account first ((pollContext mSensors).trace s as) s' :=
  Machine.Along.history (pollContext mSensors) (Q := fun _ a => a.NoError)
    (fun _ _ _ _ _ h ha hstep => h.step ha hstep)
    ((pollContext mSensors).along_of_forall fun _ => has) h hrun

/-- What the framework has got, it has got in order, and a call with room left has passed on
everything. -/
theorem Delivering.delivers {mEnabled : ∀ i, Fin (account i).sensors → Int}
    {init : ∀ i, Fin (account i).sensors → SensorsEvent D}
    (h : Delivering account (fun i => (account i).start (mEnabled i) (init i)) os s) :
    (∀ i, delivered i os <+:
      Channel.reports (account i).channel (mEnabled i) (init i) [] (taken i os)) ∧
    ∀ v, s.poll.pc = .returned v → 0 ≤ v →
      (lastCall os).slots = slots 0 v.toNat ∧
      (v < (lastCall os).room → ∀ i, delivered i os =
        Channel.reports (account i).channel (mEnabled i) (init i) [] (taken i os)) ∧
      ∀ i, delivered i os ≠
          Channel.reports (account i).channel (mEnabled i) (init i) [] (taken i os) →
        s.poll.revents i.castSucc = true := by
  have hreports (i : Fin numSensorDrivers) :
      Transducer.out ⟨(account i).read⟩ ((account i).start (mEnabled i) (init i)) (taken i os) =
        Channel.reports (account i).channel (mEnabled i) (init i) [] (taken i os) := by
    refine Tracks.reports ?_ (account i).answers (taken i os)
    rw [(account i).view_start]
    exact .start (mEnabled i) (init i)
  refine ⟨fun i => ?_, fun v hv hv0 => ⟨?_, fun hroom i => ?_, fun i howed => ?_⟩⟩
  · obtain ⟨q, -, hlag, -⟩ := h.sensor i
    rw [← hreports]
    exact hlag.prefix_out
  · have hvalue := h.filled.returned v hv hv0
    have hslots := h.filled.nbEvents
    have hlen : (lastCall os).slots.length = v.toNat := by omega
    rw [← hlen]
    exact h.filled.slots
  · have hvalue := h.filled.returned v hv hv0
    have hslots := h.filled.nbEvents
    have hcount := h.filled.count
    obtain ⟨q, -, hlag, -, hempty⟩ := h.sensor i
    have hpast : s.poll.Past i := by
      rw [PollState.Past, hv]
      trivial
    obtain rfl := hempty ⟨by omega, hpast⟩
    rw [← hreports]
    exact hlag.out_of_nil
  · obtain ⟨q, -, hlag, hbit, -⟩ := h.sensor i
    refine hbit fun hnil => howed ?_
    subst hnil
    rw [← hreports]
    exact hlag.out_of_nil

section

variable [CDouble D]

end

end HeadUnit.Sensors
