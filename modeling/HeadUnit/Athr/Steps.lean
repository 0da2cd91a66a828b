import HeadUnit.Athr.Driver

/-!
# The steps of the driver

`Step` lists what the actions do, each with its guard (`step_of_ok`). Most of them only look at a
variable and go on (`ControlMove`, `TimerMove`).
-/

namespace HeadUnit.Athr

namespace GpsState

/-- The control loop goes on at the given place and changes nothing else. -/
inductive ControlMove : GpsState → ControlPc → Prop
  | epoll {s} (hpc : s.stateThread = .epollWait) (hcontrol : s.control ≠ []) : ControlMove s .read
  | alreadyStarted {s} (hpc : s.stateThread = .command .start) (hstarted : s.started = true) :
    ControlMove s .epollWait
  | start {s} (hpc : s.stateThread = .command .start) (hstarted : s.started = false) :
    ControlMove s .readerInit
  | stop {s} (hpc : s.stateThread = .command .stop) (hstarted : s.started = true) :
    ControlMove s .setInit
  | notStarted {s} (hpc : s.stateThread = .command .stop) (hstarted : s.started = false) :
    ControlMove s .epollWait
  | wakeup {s} (hpc : s.stateThread = .wakeup) (hlock : s.nmea.sleepLock = 0) :
    ControlMove s .wakeupSection
  | awake {s} (hpc : s.stateThread = .wakeup) (hlock : s.nmea.sleepLock ≠ 0) :
    ControlMove s .epollWait

/-- The timer thread goes on at the given place and changes nothing else. -/
inductive TimerMove : GpsState → TimerPc → Prop
  | top {s} (hpc : s.timer = .top) : TimerMove s .notStarted
  | started {s} (hpc : s.timer = .notStarted) (hstarted : s.started = true) : TimerMove s .fix
  | notStarted {s} (hpc : s.timer = .notStarted) (hstarted : s.started = false) :
    TimerMove s .notStartedRunning
  | running {s} (hpc : s.timer = .notStartedRunning) (hrunning : s.continueThread = true) :
    TimerMove s .notStarted
  | stopped {s} (hpc : s.timer = .notStartedRunning) (hrunning : s.continueThread = false) :
    TimerMove s .fix
  | checkInit {s} (hpc : s.timer = .checkInit) (hinit : s.init = .init) : TimerMove s .checkLastcmd
  | checkLastcmd {s} (hpc : s.timer = .checkLastcmd) (hcmd : s.lastcmd = .stop) :
    TimerMove s .checkStarted
  | checkStarted {s} (hpc : s.timer = .checkStarted) (hstarted : s.started = true) :
    TimerMove s (.gapInit 0)
  | checkFails {s} (hpc : s.timer = .checkInit ∨ s.timer = .checkLastcmd ∨ s.timer = .checkStarted) :
    TimerMove s .loop
  | gapInit {s gap} (hpc : s.timer = .gapInit gap) (hinit : s.init ≠ .start) :
    TimerMove s (.gapNmea gap)
  | gapNmea {s gap} (hpc : s.timer = .gapNmea gap) (hnmea : s.nmea.bGetFormalNMEA = false) :
    TimerMove s (.gapRunning gap)
  | gapRunning {s gap} (hpc : s.timer = .gapRunning gap) (hrunning : s.continueThread = true) :
    TimerMove s (.gapOrion gap)
  | gapOrion {s gap} (hpc : s.timer = .gapOrion gap) (horion : s.nmea.bOrionShutdown = false)
    (hgap : gap + 1 ≤ 100) : TimerMove s (.gapInit (gap + 1))
  | gapBreak {s gap} (hpc : s.timer = .gapOrion gap) (horion : s.nmea.bOrionShutdown = false)
    (hgap : 100 < gap + 1) : TimerMove s (.gapOver (gap + 1))
  | gapOver {s gap} (hpc : s.timer = .gapInit gap ∨ s.timer = .gapNmea gap ∨
      s.timer = .gapRunning gap ∨ s.timer = .gapOrion gap) : TimerMove s (.gapOver gap)
  | recheckInit {s} (hpc : s.timer = .recheckInit) (hinit : s.init = .init) :
    TimerMove s .recheckLastcmd
  | recheckLastcmd {s} (hpc : s.timer = .recheckLastcmd) (hcmd : s.lastcmd = .stop) :
    TimerMove s .recheckStarted
  | recheckStarted {s} (hpc : s.timer = .recheckStarted) (hstarted : s.started = true) :
    TimerMove s .sleep
  | recheckFails {s} (hpc : s.timer = .recheckInit ∨ s.timer = .recheckLastcmd ∨
      s.timer = .recheckStarted ∧ s.started = false) : TimerMove s .loop
  | loop {s} (hpc : s.timer = .loop) (hrunning : s.continueThread = true) : TimerMove s .top
  | exit {s} (hpc : s.timer = .loop) (hrunning : s.continueThread = false) : TimerMove s .exited

inductive Step (cbs : Callbacks) : GpsState → Action → GpsState → List Output → Prop
  | start {s k} (hcall : s.calls k = .idle) : Step cbs s (.start k)
      { s with lastcmd := .start, calls := Function.update s.calls k (.write .start) } []
  | stop {s k} (hcall : s.calls k = .idle) : Step cbs s (.stop k)
      { s with lastcmd := .stop, calls := Function.update s.calls k (.write .stop) } []
  | write {s k cmd} (hcall : s.calls k = .write cmd) : Step cbs s (.write k)
      { s with control := s.control ++ [cmd], calls := Function.update s.calls k .idle } []
  | controlMove {s tty pc} (hmove : ControlMove s pc) :
    Step cbs s (.stateThread tty) { s with stateThread := pc } []
  | read {s tty cmd rest} (hpc : s.stateThread = .read) (hcontrol : s.control = cmd :: rest) :
    Step cbs s (.stateThread tty) { s with control := rest, stateThread := .command cmd } []
  | quit {s tty} (hpc : s.stateThread = .command .quit) :
    Step cbs s (.stateThread tty) { s with continueThread := false, stateThread := .exited } []
  | readerInit {s tty} (hpc : s.stateThread = .readerInit) : Step cbs s (.stateThread tty)
      { s with nmea := s.nmea.nmeaReaderInit, stateThread := .setStarted } []
  | setStarted {s tty} (hpc : s.stateThread = .setStarted) :
    Step cbs s (.stateThread tty) { s with started := true, stateThread := .setStart } []
  | setStart {s tty} (hpc : s.stateThread = .setStart) :
    Step cbs s (.stateThread tty) { s with init := .start, stateThread := .wakeup } []
  | setInit {s tty} (hpc : s.stateThread = .setInit) :
    Step cbs s (.stateThread tty) { s with init := .init, stateThread := .epollWait } []
  | wakeupSection {s tty} (hpc : s.stateThread = .wakeupSection) : Step cbs s (.stateThread tty)
      { s with nmea := (s.nmea.wakeupSection tty).1, stateThread := .epollWait }
      (s.nmea.wakeupSection tty).2
  | timerMove {s tty pc} (hmove : TimerMove s pc) : Step cbs s (.timer tty) { s with timer := pc } []
  | report {s tty} (hpc : s.timer = .fix) : Step cbs s (.timer tty)
      { s with nmea := (s.nmea.reportSection cbs).1, timer := .checkInit }
      (s.nmea.reportSection cbs).2
  | gapOver {s tty gap} (hpc : s.timer = .gapOver gap) : Step cbs s (.timer tty)
      { s with
        nmea := { s.nmea with bGetFormalNMEA := s.nmea.bGetFormalNMEA || decide (100 ≤ gap) }
        timer := .recheckInit } []
  | sleep {s tty} (hpc : s.timer = .sleep) : Step cbs s (.timer tty)
      { s with nmea := (s.nmea.sleepSection tty).1, started := false, timer := .closetty }
      (s.nmea.sleepSection tty).2
  | closetty {s tty} (hpc : s.timer = .closetty) :
    Step cbs s (.timer tty) { s with nmea := s.nmea.gpsClosetty, timer := .loop } []
  | others {s nmea} : Step cbs s (.others nmea) { s with nmea := nmea } []

variable {cbs : Callbacks} {s s' : GpsState} {a : Action} {tty : Tty} {out : List Output}

theorem gpsStateThread_of_ok (h : s.gpsStateThread tty = .ok (s', out)) :
    Step cbs s (.stateThread tty) s' out := by
  unfold gpsStateThread at h
  split at h
  case h_1 hpc =>
    split at h
    case isTrue => cases h
    case isFalse hcontrol =>
      cases h
      exact .controlMove (.epoll hpc hcontrol)
  case h_2 hpc =>
    split at h
    case h_1 => cases h
    case h_2 hcontrol =>
      cases h
      exact .read hpc hcontrol
  case h_3 hpc =>
    cases h
    exact .quit hpc
  case h_4 hpc =>
    split at h
    case isTrue hstarted =>
      cases h
      exact .controlMove (.alreadyStarted hpc hstarted)
    case isFalse hstarted =>
      cases h
      exact .controlMove (.start hpc (Bool.eq_false_iff.mpr hstarted))
  case h_5 hpc =>
    split at h
    case isTrue hstarted =>
      cases h
      exact .controlMove (.stop hpc hstarted)
    case isFalse hstarted =>
      cases h
      exact .controlMove (.notStarted hpc (Bool.eq_false_iff.mpr hstarted))
  case h_6 hpc =>
    cases h
    exact .readerInit hpc
  case h_7 hpc =>
    cases h
    exact .setStarted hpc
  case h_8 hpc =>
    cases h
    exact .setStart hpc
  case h_9 hpc =>
    cases h
    exact .setInit hpc
  case h_10 hpc =>
    split at h
    case isTrue hlock =>
      cases h
      exact .controlMove (.wakeup hpc hlock)
    case isFalse hlock =>
      cases h
      exact .controlMove (.awake hpc hlock)
  case h_11 hpc =>
    cases h
    exact .wakeupSection hpc
  case h_12 => cases h

/-- A test of the timer thread. -/
theorem timerMove_of_ite {p : Prop} [Decidable p] {pc pc' : TimerPc}
    (h : (if p then .ok ({ s with timer := pc }, []) else .ok ({ s with timer := pc' }, []) :
      Except Refusal (GpsState × List Output)) = .ok (s', out))
    (hpos : p → TimerMove s pc) (hneg : ¬p → TimerMove s pc') : Step cbs s (.timer tty) s' out := by
  split at h
  case isTrue hp =>
    cases h
    exact .timerMove (hpos hp)
  case isFalse hp =>
    cases h
    exact .timerMove (hneg hp)

theorem gpsTimerThread_of_ok (h : s.gpsTimerThread cbs tty = .ok (s', out)) :
    Step cbs s (.timer tty) s' out := by
  have hfalse {b : Bool} (h : ¬b = true) : b = false := Bool.eq_false_iff.mpr h
  unfold gpsTimerThread at h
  cases hpc : s.timer <;> simp only [hpc] at h
  case top =>
    cases h
    exact .timerMove (.top hpc)
  case notStarted =>
    exact timerMove_of_ite h (.started hpc) fun hp => .notStarted hpc (hfalse hp)
  case notStartedRunning =>
    exact timerMove_of_ite h (.running hpc) fun hp => .stopped hpc (hfalse hp)
  case fix =>
    cases h
    exact .report hpc
  case checkInit =>
    exact timerMove_of_ite h (.checkInit hpc) fun _ => .checkFails (.inl hpc)
  case checkLastcmd =>
    exact timerMove_of_ite h (.checkLastcmd hpc) fun _ => .checkFails (.inr (.inl hpc))
  case checkStarted =>
    exact timerMove_of_ite h (.checkStarted hpc) fun _ => .checkFails (.inr (.inr hpc))
  case gapInit gap =>
    exact timerMove_of_ite h (fun _ => .gapOver (.inl hpc)) (.gapInit hpc)
  case gapNmea gap =>
    exact timerMove_of_ite h (fun _ => .gapOver (.inr (.inl hpc))) fun hp =>
      .gapNmea hpc (hfalse hp)
  case gapRunning gap =>
    exact timerMove_of_ite h (.gapRunning hpc) fun _ => .gapOver (.inr (.inr (.inl hpc)))
  case gapOrion gap =>
    split at h
    case isTrue =>
      cases h
      exact .timerMove (.gapOver (.inr (.inr (.inr hpc))))
    case isFalse horion =>
      exact timerMove_of_ite h (.gapBreak hpc (hfalse horion)) fun hp =>
        .gapOrion hpc (hfalse horion) (Nat.le_of_not_lt hp)
  case gapOver gap =>
    cases h
    exact .gapOver hpc
  case recheckInit =>
    exact timerMove_of_ite h (.recheckInit hpc) fun _ => .recheckFails (.inl hpc)
  case recheckLastcmd =>
    exact timerMove_of_ite h (.recheckLastcmd hpc) fun _ => .recheckFails (.inr (.inl hpc))
  case recheckStarted =>
    exact timerMove_of_ite h (.recheckStarted hpc) fun hp =>
      .recheckFails (.inr (.inr ⟨hpc, hfalse hp⟩))
  case sleep =>
    cases h
    exact .sleep hpc
  case closetty =>
    cases h
    exact .closetty hpc
  case loop =>
    exact timerMove_of_ite h (.loop hpc) fun hp => .exit hpc (hfalse hp)
  case exited =>
    cases h

theorem setLastcmd_of_ok {k : Nat} {cmd : Cmd} (h : s.setLastcmd k cmd = .ok (s', out)) :
    s.calls k = .idle ∧ out = [] ∧
      s' = { s with lastcmd := cmd, calls := Function.update s.calls k (.write cmd) } := by
  rw [setLastcmd] at h
  split at h
  case h_1 hcall =>
    cases h
    exact ⟨hcall, rfl, rfl⟩
  case h_2 => cases h

theorem step_of_ok (h : (athr cbs).step s a = .ok (s', out)) : Step cbs s a s' out := by
  cases a with
  | start k =>
    obtain ⟨hcall, rfl, rfl⟩ := setLastcmd_of_ok h
    exact .start hcall
  | stop k =>
    obtain ⟨hcall, rfl, rfl⟩ := setLastcmd_of_ok h
    exact .stop hcall
  | write k =>
    change s.writeControl k = _ at h
    rw [writeControl] at h
    split at h
    case h_1 => cases h
    case h_2 hcall =>
      cases h
      exact .write hcall
  | stateThread tty => exact gpsStateThread_of_ok h
  | timer tty => exact gpsTimerThread_of_ok h
  | others nmea =>
    cases h
    exact .others

end GpsState

end HeadUnit.Athr
