import HeadUnit.Athr.FixDelivery
import HeadUnit.Athr.Starts
import HeadUnit.Std.Outcome

/-!
# The driver with its reader

The threads of the driver and the reader they share, as one machine (`device`). The driver takes what
the reader holds for arbitrary; here its variables are those of the reader (`Agrees`), so that a run
is a run of the driver, action by action, and at the same time one of the reader (`Runs`). The steps
are those of both: a section of `fix_sem`, a byte, an initialisation of the reader, one test or
assignment.
-/

namespace HeadUnit.Athr

open Gps hiding Group Updates Pending Reported Delivering slot

variable {D : Type} [CDouble D] [DecidableEq D]

/-! ## The machine -/

/-- The driver's variables that belong to the reader. -/
def FixState.vars (s : FixState D) (v : NmeaVars) : NmeaVars :=
  { v with
    bGetFormalNMEA := s.bGetFormalNMEA
    hasLatLong := s.reader.fix.flags.latLong
    svStatusChanged := s.reader.svStatusChanged
    firstFix := s.firstFix
    fixFreq := s.fixFreq }

structure Device (D : Type) where
  threads : GpsState
  fix : FixState D

/-- What an action of the driver does with the reader. -/
def accessOf (clk : Clock) (s : GpsState) : Action → Option Access
  | .stateThread _ =>
    match s.stateThread with
    | .readerInit => some (.readerInit clk)
    | .setStart => some (.setInit .start)
    | .setInit => some (.setInit .init)
    | .wakeupSection => some .wakeup
    | _ => none
  | .timer _ =>
    match s.timer with
    | .fix => some .timer
    | .gapOver gap => some (.gapOver (100 ≤ gap))
    | _ => none
  | _ => none

/-- What `gps_nmea_thread` does, and `athr_gps_set_fix_frequency`. -/
inductive NmeaAction where
  | data (clk : Clock) (c : UInt8)
  | readerInit (clk : Clock)
  | wakeup
  | setFixFrequency (freq : Int)
  /-- It opens or closes the device, or sets `sleep_lock` or `bOrionShutdown`. -/
  | tty (sleepLock : Int) (bOrionShutdown isOpen : Bool)
  deriving DecidableEq, Repr

inductive DeviceAction where
  | threads (clk : Clock) (a : Action)
  | nmea (a : NmeaAction)

def NmeaAction.access : NmeaAction → Option Access
  | .data clk c => some (.data clk c)
  | .readerInit clk => some (.readerInit clk)
  | .wakeup => some .wakeup
  | .setFixFrequency freq => some (.setFixFrequency freq)
  | .tty .. => none

def NmeaAction.vars (v : NmeaVars) : NmeaAction → NmeaVars
  | .tty sleepLock bOrionShutdown isOpen =>
    { v with sleepLock := sleepLock, bOrionShutdown := bOrionShutdown, isOpen := isOpen }
  | _ => v

/-- An access to the reader, if there is one. -/
def FixState.access (zone : Int) (cbs : GpsCallbacks) (s : FixState D) :
    Option Access → FixState D × List (Event D)
  | some a => s.step zone cbs a
  | none => (s, [])

/-- What the callbacks of the driver's model are. -/
def callbacks (cbs : GpsCallbacks) : Callbacks := ⟨cbs.locationCb, cbs.svStatusCb⟩

/-- What is seen of the driver: what its threads put out, what they do with the reader, and what the
reader puts out. -/
inductive Seen (D : Type) where
  | threads (o : Output)
  | access (a : Access)
  | reader (e : Event D)

namespace Seen

def threads? : Seen D → Option Output
  | .threads o => some o
  | _ => none

def access? : Seen D → Option Access
  | .access a => some a
  | _ => none

def reader? : Seen D → Option (Event D)
  | .reader e => some e
  | _ => none

end Seen

/-- What is seen of one step. -/
def seen (outs : List Output) (access : Option Access) (out : List (Event D)) : List (Seen D) :=
  outs.map .threads ++ access.toList.map .access ++ out.map .reader

def Device.step (zone : Int) (cbs : GpsCallbacks) (d : Device D) :
    DeviceAction → Except Refusal (Device D × List (Seen D))
  | .threads _ (.others _) => .error .disabled
  | .threads clk a =>
    match GpsState.step (callbacks cbs) d.threads a with
    | .error e => .error e
    | .ok (threads, outs) =>
      let access := accessOf clk d.threads a
      let (fix, out) := d.fix.access zone cbs access
      .ok (⟨threads, fix⟩, seen outs access out)
  | .nmea a =>
    let (fix, out) := d.fix.access zone cbs a.access
    .ok (⟨{ d.threads with nmea := fix.vars (a.vars d.threads.nmea) }, fix⟩, seen [] a.access out)

def device (zone : Int) (cbs : GpsCallbacks) :
    Machine Refusal (Device D) DeviceAction (Seen D) := ⟨Device.step zone cbs⟩

/-- `gps_state_init`. -/
def deviceInit : Device D := ⟨gpsStateInit, fixStateInit⟩

omit [CDouble D] [DecidableEq D] in
theorem threads_seen (outs : List Output) (access : Option Access) (out : List (Event D)) :
    (seen outs access out).filterMap Seen.threads? = outs := by
  simp [seen, List.filterMap_map, Function.comp_def, Seen.threads?]

omit [CDouble D] [DecidableEq D] in
theorem access_seen (outs : List Output) (access : Option Access) (out : List (Event D)) :
    (seen outs access out).filterMap Seen.access? = access.toList := by
  simp [seen, List.filterMap_map, Function.comp_def, Seen.access?]

omit [CDouble D] [DecidableEq D] in
theorem reader_seen (outs : List Output) (access : Option Access) (out : List (Event D)) :
    (seen outs access out).filterMap Seen.reader? = out := by
  simp [seen, List.filterMap_map, Function.comp_def, Seen.reader?]

/-! ## Both views agree -/

/-- The variables of the driver are those of the reader. -/
structure Agrees (d : Device D) : Prop where
  vars : ∃ v, d.threads.nmea = d.fix.vars v
  init : d.threads.init = d.fix.init

omit [CDouble D] [DecidableEq D] in
theorem timerSection_vars (cbs : GpsCallbacks) (s : FixState D) (v : NmeaVars) :
    ((s.vars v).reportSection (callbacks cbs)).1 = (timerSection cbs s).1.vars v := by
  rw [NmeaVars.reportSection, timerSection]
  cases hlat : s.reader.fix.flags.latLong <;> cases hloc : cbs.locationCb <;>
    cases hsv : s.reader.svStatusChanged <;> cases hcb : cbs.svStatusCb <;>
    simp [FixState.vars, callbacks, FixState.locationCb, hlat, hloc, hsv, hcb, LocationFlags.zero]

omit [CDouble D] [DecidableEq D] in
/-- A move of a thread is no access to the reader. -/
theorem accessOf_controlMove {s : GpsState} {pc : ControlPc} (h : GpsState.ControlMove s pc)
    (clk : Clock) (tty : Tty) : accessOf clk s (.stateThread tty) = none := by
  cases h with
  | epoll hpc | alreadyStarted hpc | start hpc | stop hpc | notStarted hpc | wakeup hpc | awake hpc =>
    simp only [accessOf, hpc]

omit [CDouble D] [DecidableEq D] in
theorem accessOf_timerMove {s : GpsState} {pc : TimerPc} (h : GpsState.TimerMove s pc)
    (clk : Clock) (tty : Tty) : accessOf clk s (.timer tty) = none := by
  cases h with
  | checkFails hpc => rcases hpc with hpc | hpc | hpc <;> simp only [accessOf, hpc]
  | gapOver hpc => rcases hpc with hpc | hpc | hpc | hpc <;> simp only [accessOf, hpc]
  | recheckFails hpc => rcases hpc with hpc | hpc | ⟨hpc, -⟩ <;> simp only [accessOf, hpc]
  | top hpc | started hpc | notStarted hpc | running hpc | stopped hpc | checkInit hpc
    | checkLastcmd hpc | checkStarted hpc | gapInit hpc | gapNmea hpc | gapRunning hpc
    | gapOrion hpc | gapBreak hpc | recheckInit hpc | recheckLastcmd hpc | recheckStarted hpc
    | loop hpc | exit hpc => simp only [accessOf, hpc]

/-- A step of the machine is one of the driver and an access to the reader. -/
theorem Device.step_cases {zone : Int} {cbs : GpsCallbacks} {d d' : Device D} {a : DeviceAction}
    {out : List (Seen D)} (hstep : (device zone cbs).step d a = .ok (d', out)) :
    (∃ clk a' outs, a = .threads clk a' ∧
      (athr (callbacks cbs)).step d.threads a' = .ok (d'.threads, outs) ∧ (∀ v, a' ≠ .others v) ∧
      d'.fix = (d.fix.access zone cbs (accessOf clk d.threads a')).1 ∧
      out = seen outs (accessOf clk d.threads a')
        (d.fix.access zone cbs (accessOf clk d.threads a')).2) ∨
    ∃ a', a = .nmea a' ∧ d'.fix = (d.fix.access zone cbs a'.access).1 ∧
      d'.threads = { d.threads with nmea := d'.fix.vars (a'.vars d.threads.nmea) } ∧
      out = seen [] a'.access (d.fix.access zone cbs a'.access).2 := by
  change d.step zone cbs a = _ at hstep
  unfold Device.step at hstep
  split at hstep
  · cases hstep
  · rename_i clk a' hothers
    split at hstep
    · cases hstep
    · rename_i threads outs hthreads
      cases hstep
      exact .inl ⟨clk, a', outs, rfl, hthreads, hothers, rfl, rfl⟩
  · cases hstep
    exact .inr ⟨_, rfl, rfl, rfl, rfl⟩

omit [CDouble D] [DecidableEq D] in
theorem timerSection_init (cbs : GpsCallbacks) (s : FixState D) :
    (timerSection cbs s).1.init = s.init := by
  rw [timerSection]
  by_cases hlat : s.reader.fix.flags.latLong = true
  · simp only [if_pos hlat]
    split <;> split <;> rfl
  · simp only [if_neg hlat]
    split <;> rfl

omit [CDouble D] [DecidableEq D] in
theorem reportFirstFix_init (cbs : GpsCallbacks) (s : FixState D) :
    (reportFirstFix cbs s).1.init = s.init := by
  rw [reportFirstFix]
  split
  · cases cbs.locationCb <;> rfl
  · rfl

theorem parse_init (zone : Int) (cbs : GpsCallbacks) (clk : Clock) (s : FixState D) :
    (nmeaReaderParse zone cbs clk s).1.init = s.init := by
  rw [nmeaReaderParse]
  split
  · rfl
  · dsimp only
    split
    · split <;> rfl
    · exact reportFirstFix_init ..

theorem addc_init (zone : Int) (cbs : GpsCallbacks) (clk : Clock) (s : FixState D) (c : UInt8) :
    (nmeaReaderAddc zone cbs clk s c).1.init = s.init := by
  rw [nmeaReaderAddc]
  dsimp only
  split
  · rfl
  · split
    · rfl
    · split
      · exact parse_init ..
      · rfl

omit [CDouble D] [DecidableEq D] in
theorem wakeupSection_vars (s : FixState D) (v : NmeaVars) (tty : Tty) :
    ((s.vars v).wakeupSection tty).1 =
      { s with bGetFormalNMEA := false }.vars (v.wakeupSection tty).1 := by
  rw [NmeaVars.wakeupSection, NmeaVars.wakeupSection, NmeaVars.writeTty, NmeaVars.writeTty]
  cases hopen : (v.isOpen || tty.opens) && tty.writes <;>
    simp [FixState.vars, NmeaVars.gpsOpentty, hopen]

omit [CDouble D] [DecidableEq D] in
theorem sleepSection_vars (s : FixState D) (v : NmeaVars) (tty : Tty) :
    ((s.vars v).sleepSection tty).1 = s.vars (v.sleepSection tty).1 := by
  rw [NmeaVars.sleepSection, NmeaVars.sleepSection, NmeaVars.writeTty, NmeaVars.writeTty]
  cases hopen : (v.isOpen || tty.opens) && tty.writes <;>
    simp [FixState.vars, NmeaVars.gpsOpentty, hopen]

theorem Agrees.threads {zone : Int} {cbs : GpsCallbacks} {threads threads' : GpsState}
    {fix : FixState D} {a : Action} {clk : Clock} {outs : List Output}
    (h : Agrees (⟨threads, fix⟩ : Device D))
    (hs : GpsState.Step (callbacks cbs) threads a threads' outs) (hothers : ∀ v, a ≠ .others v) :
    Agrees (⟨threads', (fix.access zone cbs (accessOf clk threads a)).1⟩ : Device D) := by
  obtain ⟨⟨v, hv⟩, hinit⟩ := h
  dsimp only at hv hinit
  cases hs with
  | start | stop | write => exact ⟨⟨v, hv⟩, hinit⟩
  | controlMove hmove =>
    rw [accessOf_controlMove hmove]
    exact ⟨⟨v, hv⟩, hinit⟩
  | timerMove hmove =>
    rw [accessOf_timerMove hmove]
    exact ⟨⟨v, hv⟩, hinit⟩
  | read hpc | quit hpc | setStarted hpc =>
    simp only [accessOf, hpc]
    exact ⟨⟨v, hv⟩, hinit⟩
  | readerInit hpc =>
    simp only [accessOf, hpc]
    exact ⟨⟨v, congrArg NmeaVars.nmeaReaderInit hv⟩, hinit⟩
  | setStart hpc | setInit hpc =>
    simp only [accessOf, hpc]
    exact ⟨⟨v, hv⟩, rfl⟩
  | wakeupSection hpc =>
    simp only [accessOf, hpc]
    exact ⟨⟨_, (congrArg (fun v => (NmeaVars.wakeupSection v _).1) hv).trans
      (wakeupSection_vars fix v _)⟩, hinit⟩
  | report hpc =>
    simp only [accessOf, hpc]
    exact ⟨⟨_, (congrArg (fun v => (NmeaVars.reportSection _ v).1) hv).trans
      (timerSection_vars cbs fix v)⟩, hinit.trans (timerSection_init cbs fix).symm⟩
  | gapOver hpc =>
    simp only [accessOf, hpc, hv]
    exact ⟨⟨v, rfl⟩, hinit⟩
  | sleep hpc =>
    simp only [accessOf, hpc]
    exact ⟨⟨_, (congrArg (fun v => (NmeaVars.sleepSection v _).1) hv).trans
      (sleepSection_vars fix v _)⟩, hinit⟩
  | closetty hpc =>
    simp only [accessOf, hpc, hv]
    exact ⟨⟨v.gpsClosetty, rfl⟩, hinit⟩
  | others => exact absurd rfl (hothers _)

theorem Agrees.step {zone : Int} {cbs : GpsCallbacks} {d d' : Device D} {a : DeviceAction}
    {out : List (Seen D)} (h : Agrees d) (hstep : (device zone cbs).step d a = .ok (d', out)) :
    Agrees d' := by
  obtain ⟨threads', fix'⟩ := d'
  rcases Device.step_cases hstep with ⟨clk, a', outs, rfl, hthreads, hothers, rfl, -⟩ |
    ⟨a', rfl, rfl, hthreads, -⟩
  · exact h.threads (GpsState.step_of_ok hthreads) hothers
  · refine ⟨⟨_, congrArg GpsState.nmea hthreads⟩, ?_⟩
    rw [hthreads]
    refine h.init.trans (Eq.symm ?_)
    cases a' with
    | data clk c => exact addc_init zone cbs clk d.fix c
    | readerInit | wakeup | setFixFrequency | tty => rfl

/-! ## Both report the same -/

/-- What the framework gets to see of an output of the threads. -/
def Output.report : Output → Option Output
  | .tty _ => none
  | o => some o

/-- What the framework gets to see of the reader, without the values. -/
def Event.report : Event D → Option Output
  | .reader (.location _) => some .location
  | .reader (.svStatus _) => some .svStatus
  | _ => none

theorem NmeaVars.writeTty_report (v : NmeaVars) (tty : Tty) (text : String) :
    (v.writeTty tty text).2.filterMap Output.report = [] := by
  rw [NmeaVars.writeTty]
  split <;> rfl

omit [CDouble D] [DecidableEq D] in
theorem timerSection_report (cbs : GpsCallbacks) (s : FixState D) (v : NmeaVars) :
    ((s.vars v).reportSection (callbacks cbs)).2.filterMap Output.report =
      ((timerSection cbs s).2.map Event.reader).filterMap Event.report := by
  rw [NmeaVars.reportSection, timerSection]
  cases hlat : s.reader.fix.flags.latLong <;> cases hloc : cbs.locationCb <;>
    cases hsv : s.reader.svStatusChanged <;> cases hcb : cbs.svStatusCb <;>
    simp [FixState.vars, callbacks, FixState.locationCb, hlat, hloc, hsv, hcb, Output.report,
      Event.report]

/-- In a step of the control loop or the timer thread the framework gets from the reader what the
driver's model puts out. -/
theorem Agrees.reports {zone : Int} {cbs : GpsCallbacks} {threads threads' : GpsState}
    {fix : FixState D} {a : Action} {clk : Clock} {outs : List Output}
    (h : Agrees (⟨threads, fix⟩ : Device D))
    (hs : GpsState.Step (callbacks cbs) threads a threads' outs) :
    outs.filterMap Output.report =
      (fix.access zone cbs (accessOf clk threads a)).2.filterMap Event.report := by
  obtain ⟨⟨v, hv⟩, -⟩ := h
  dsimp only at hv
  cases hs with
  | start | stop | write | others => rfl
  | controlMove hmove =>
    rw [accessOf_controlMove hmove]
    rfl
  | timerMove hmove =>
    rw [accessOf_timerMove hmove]
    rfl
  | read hpc | quit hpc | setStarted hpc | readerInit hpc | setStart hpc | setInit hpc
    | gapOver hpc | closetty hpc =>
    simp only [accessOf, hpc]
    rfl
  | wakeupSection hpc =>
    simp only [accessOf, hpc]
    exact NmeaVars.writeTty_report ..
  | report hpc =>
    simp only [accessOf, hpc, hv]
    exact timerSection_report cbs fix v
  | sleep hpc =>
    simp only [accessOf, hpc]
    exact NmeaVars.writeTty_report ..

/-! ## Both runs -/

/-- The action of the driver's model that an action stands for: what the NMEA thread and
`athr_gps_set_fix_frequency` do are writes to the variables of the reader. -/
inductive Stands : DeviceAction → Action → Prop
  | threads (clk : Clock) (a : Action) : Stands (.threads clk a) a
  | nmea (a : NmeaAction) (v : NmeaVars) : Stands (.nmea a) (.others v)

/-- A run of the machine is one of the driver, action by action and with its outputs, and one of the
reader, with the accesses and the outputs that are seen of it. -/
structure Runs (zone : Int) (cbs : GpsCallbacks) (as : List DeviceAction) (ws : List (Seen D))
    (d : Device D) : Prop where
  agrees : Agrees d
  driver : ∃ acts, List.Forall₂ Stands as acts ∧
    (athr (callbacks cbs)).after gpsStateInit acts = .ok d.threads ∧
    (athr (callbacks cbs)).trace gpsStateInit acts = ws.filterMap Seen.threads?
  final : (fixes zone cbs).final fixStateInit (ws.filterMap Seen.access?) = d.fix
  out : (fixes zone cbs).out fixStateInit (ws.filterMap Seen.access?) = ws.filterMap Seen.reader?

/-- One more access, or none. -/
theorem FixState.access_run {zone : Int} {cbs : GpsCallbacks} {accs : List Access} {s : FixState D}
    (hfinal : (fixes zone cbs).final fixStateInit accs = s) (access : Option Access) :
    (fixes zone cbs).final fixStateInit (accs ++ access.toList) = (s.access zone cbs access).1 ∧
      (fixes zone cbs).out fixStateInit (accs ++ access.toList) =
        (fixes zone cbs).out fixStateInit accs ++ (s.access zone cbs access).2 := by
  subst hfinal
  cases access with
  | none => exact ⟨by rw [Option.toList_none, List.append_nil]; rfl,
      by rw [Option.toList_none, List.append_nil]; exact (List.append_nil _).symm⟩
  | some a => exact ⟨Transducer.final_snoc _ a, Transducer.out_snoc _ a⟩

/-- A step of the machine is one of the driver, with an access to the reader or none. -/
theorem Device.stands_of_step {zone : Int} {cbs : GpsCallbacks} {d d' : Device D} {a : DeviceAction}
    {out : List (Seen D)} (hstep : (device zone cbs).step d a = .ok (d', out)) :
    ∃ act outs access, Stands a act ∧
      (athr (callbacks cbs)).step d.threads act = .ok (d'.threads, outs) ∧
      d'.fix = (d.fix.access zone cbs access).1 ∧
      out = seen outs access (d.fix.access zone cbs access).2 := by
  rcases Device.step_cases hstep with ⟨clk, a', outs, rfl, hthreads, -, hfix, hout⟩ |
    ⟨a', rfl, hfix, hthreads, hout⟩
  · exact ⟨a', outs, accessOf clk d.threads a', .threads clk a', hthreads, hfix, hout⟩
  · refine ⟨.others (d'.fix.vars (a'.vars d.threads.nmea)), [], a'.access, .nmea a' _, ?_, hfix,
      hout⟩
    rw [hthreads]
    rfl

theorem Runs.step {zone : Int} {cbs : GpsCallbacks} {as : List DeviceAction}
    {ws out : List (Seen D)} {d d' : Device D} {a : DeviceAction} (h : Runs zone cbs as ws d)
    (hstep : (device zone cbs).step d a = .ok (d', out)) :
    Runs zone cbs (as ++ [a]) (ws ++ out) d' := by
  obtain ⟨acts, hstands, hacts, htrace⟩ := h.driver
  obtain ⟨act, outs, access, hact, hthreads, hfix, rfl⟩ := Device.stands_of_step hstep
  obtain ⟨hfinal, hout⟩ := FixState.access_run h.final access
  refine ⟨h.agrees.step hstep,
    ⟨acts ++ [act], List.rel_append hstands (.cons hact .nil), ?_, ?_⟩, ?_, ?_⟩
  · rw [(athr (callbacks cbs)).after_append hacts, (athr (callbacks cbs)).after_cons_of_ok hthreads]
    rfl
  · rw [(athr (callbacks cbs)).trace_append hacts, htrace,
      (athr (callbacks cbs)).trace_cons_of_ok hthreads, List.filterMap_append, threads_seen]
    exact congrArg (_ ++ ·) (List.append_nil outs)
  · rw [List.filterMap_append, access_seen, hfinal, hfix]
  · rw [List.filterMap_append, access_seen, hout, h.out, List.filterMap_append, reader_seen]

theorem Runs.of_after {zone : Int} {cbs : GpsCallbacks} {as : List DeviceAction} {d : Device D}
    (hrun : (device zone cbs).after deviceInit as = .ok d) :
    Runs zone cbs as ((device zone cbs).trace deviceInit as) d :=
  (device zone cbs).after_word_history (P := Runs zone cbs)
    ⟨⟨⟨gpsStateInit.nmea, rfl⟩, rfl⟩, ⟨[], .nil, rfl, rfl⟩, rfl, rfl⟩
    (fun _ _ _ _ _ _ h hstep => h.step hstep) hrun

/-! ## Who reports -/

namespace GpsState

/-- The timer thread reports only for a receiver that is started, or at the end. -/
def ReportsStarted (s : GpsState) : Prop :=
  s.timer = .fix → s.started = true ∨ s.continueThread = false

theorem ReportsStarted.step {cbs : Callbacks} {s s' : GpsState} {a : Action} {out : List Output}
    (h : ReportsStarted s) (hs : Step cbs s a s' out) : ReportsStarted s' := by
  cases hs with
  | start | stop | write | others | controlMove | read | readerInit | setStart | setInit
    | wakeupSection => exact h
  | quit => exact fun _ => .inr rfl
  | setStarted => exact fun _ => .inl rfl
  | timerMove hmove =>
    intro hpc
    cases hmove with
    | started _ hstarted => exact .inl hstarted
    | stopped _ hrunning => exact .inr hrunning
    | _ => cases hpc
  | report | gapOver | sleep | closetty => exact nofun

theorem ReportsStarted.of_after {cbs : Callbacks} {acts : List Action} {s : GpsState}
    (hrun : (athr cbs).after gpsStateInit acts = .ok s) : ReportsStarted s :=
  (athr cbs).after_invariant (P := ReportsStarted) (fun hpc => by cases hpc)
    (fun _ _ _ _ ht hstep => ht.step (step_of_ok hstep)) hrun

end GpsState

/-- What a step of the driver shows to the framework, behind a run that showed `ws`. -/
structure Shows (ws : List (Seen D)) (d : Device D) (a : DeviceAction) (out : List (Seen D)) :
    Prop where
  /-- The control loop and the timer thread put out what the reader reports in their step. -/
  same : ∀ clk a', a = .threads clk a' → (out.filterMap Seen.threads?).filterMap Output.report =
    (out.filterMap Seen.reader?).filterMap Event.report
  /-- The model of the threads puts out nothing for the NMEA thread. -/
  nmea : ∀ a', a = .nmea a' → out.filterMap Seen.threads? = []
  /-- A fix is handed over by the timer thread while the receiver is started or the driver ends, or
  else by the NMEA thread as the first one, in `STATE_INIT`. -/
  location : ∀ fix, .reader (.location fix) ∈ out.filterMap Seen.reader? →
    (∃ clk tty, a = .threads clk (.timer tty) ∧
      (d.threads.started = true ∨ d.threads.continueThread = false)) ∨
    ∃ clk c, a = .nmea (.data clk c) ∧ d.fix.init = .init ∧
      ∀ fix', .reader (.location fix') ∉ ws.filterMap Seen.reader?

/-- The whole driver is a run of its threads with the variables of its reader, and in each of its
steps the framework gets what this run puts out. -/
theorem device_refines (zone : Int) (cbs : GpsCallbacks) (hcb : cbs.locationCb = true)
    (as : List DeviceAction) (d : Device D)
    (hrun : (device zone cbs).after (deviceInit : Device D) as = .ok d) :
    Runs zone cbs as ((device zone cbs).trace (deviceInit : Device D) as) d ∧
      ∀ a d' out, (device zone cbs).step d a = .ok (d', out) →
        Shows ((device zone cbs).trace (deviceInit : Device D) as) d a out := by
  have hruns := Runs.of_after hrun
  refine ⟨hruns, fun a d' out hstep => ?_⟩
  obtain ⟨acts, -, hacts, -⟩ := hruns.driver
  rcases Device.step_cases hstep with ⟨clk, a', outs, rfl, hthreads, -, -, rfl⟩ |
    ⟨a', rfl, -, -, rfl⟩
  · refine ⟨fun _ _ _ => ?_, fun _ h => (by cases h), fun fix hfix => ?_⟩
    · rw [threads_seen, reader_seen]
      exact hruns.agrees.reports (GpsState.step_of_ok hthreads)
    rw [reader_seen] at hfix
    cases a' with
    | timer tty =>
      refine .inl ⟨clk, tty, rfl, GpsState.ReportsStarted.of_after hacts ?_⟩
      by_contra hpc
      rw [accessOf] at hfix
      split at hfix
      · exact hpc ‹_›
      · cases hfix
      · cases hfix
    | stateThread tty =>
      rw [accessOf] at hfix
      split at hfix
      · cases List.mem_singleton.mp hfix
      all_goals cases hfix
    | start | stop | write | others => cases hfix
  · refine ⟨fun _ _ h => (by cases h), fun _ _ => threads_seen .., fun fix hfix => ?_⟩
    rw [reader_seen] at hfix
    cases a' with
    | data clk c =>
      obtain ⟨hfirst, hinit⟩ := data_location zone hcb hfix
      refine .inr ⟨clk, c, rfl, hinit, fun fix' hfix' => ?_⟩
      rw [← hruns.out] at hfix'
      have hdone := (run_delivering zone hcb _).first fix' hfix'
      rw [hruns.final] at hdone
      cases hfirst.symm.trans hdone
    | readerInit clk => cases List.mem_singleton.mp hfix
    | wakeup | setFixFrequency | tty => cases hfix

/-- A start, a sentence with coordinates and the section of the timer thread. -/
def startedRun : List DeviceAction :=
  let clk : Clock := ⟨0, 0, 0⟩
  let tty : Tty := ⟨true, true, 1⟩
  [.threads clk (.start 0), .threads clk (.write 0)] ++
    List.replicate 8 (.threads clk (.stateThread tty)) ++
    (ascii ['$', 'G', 'P', 'G', 'L', 'L', ',', '4', '8', '0', '7', '.', '0', ',', 'N', ',', '0', '1',
      '1', '3', '1', '.', '0', ',', 'E', ',', ',', 'A', '\n']).map (fun c => .nmea (.data clk c)) ++
    List.replicate 3 (.threads clk (.timer tty))

theorem device_refines_started : ∃ d : Device ℚ,
    (device 0 ⟨true, false, false, false⟩).after deviceInit startedRun = .ok d ∧
      d.fix.firstFix = true ∧
      Runs 0 ⟨true, false, false, false⟩ startedRun
        ((device 0 ⟨true, false, false, false⟩).trace deviceInit startedRun) d := by
  obtain ⟨d, hrun, hfirst⟩ := Except.exists_of_toOption (f := fun d : Device ℚ => d.fix.firstFix)
    (x := (device 0 ⟨true, false, false, false⟩).after deviceInit startedRun) (b := true)
    (by decide +kernel)
  exact ⟨d, hrun, hfirst,
    (device_refines 0 ⟨true, false, false, false⟩ rfl startedRun d hrun).1⟩

end HeadUnit.Athr
