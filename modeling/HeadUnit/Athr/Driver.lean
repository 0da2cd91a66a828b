import Mathlib.Logic.Function.Basic
import HeadUnit.Std.Machine

/-!
# The threads of the ATHR driver

`gps_state_start`, `gps_state_stop`, the control loop of `gps_state_thread` and `gps_timer_thread`
of `athr_gps.c` as one machine. An action is a section between `gps_state_lock_fix` and
`gps_state_unlock_fix`, a write to or a read from the control socket, or one test or assignment of
a shared variable outside of these. Any number of calls of `gps_state_start` and `gps_state_stop`
are under way at a time. What the NMEA thread and the other calls of the framework write is
arbitrary at any time (`NmeaVars`).
-/

namespace HeadUnit.Athr

/-! ## State -/

inductive Cmd where
  | quit
  | start
  | stop
  deriving DecidableEq, Repr

/-- `STATE_QUIT`, `STATE_INIT` and `STATE_START`. -/
inductive Init where
  | quit
  | init
  | start
  deriving DecidableEq, Repr

/-- What the NMEA thread, its reader or `athr_gps_set_fix_frequency` also write. `isOpen` is
`fd != -1`. -/
structure NmeaVars where
  sleepLock : Int
  bGetFormalNMEA : Bool
  bOrionShutdown : Bool
  isOpen : Bool
  hasLatLong : Bool
  svStatusChanged : Bool
  firstFix : Bool
  fixFreq : Int
  deriving DecidableEq, Repr

/-- Where a call of `gps_state_start` or `gps_state_stop` stands. -/
inductive CallPc where
  | idle
  /-- Between the unlock and the write to the control socket. -/
  | write (cmd : Cmd)
  deriving DecidableEq, Repr

/-- Where the control loop stands. -/
inductive ControlPc where
  | epollWait
  | read
  /-- Before the test of `started`, or at `Exit`. -/
  | command (cmd : Cmd)
  | readerInit
  | setStarted
  | setStart
  | setInit
  /-- Before the test of `sleep_lock` in `gps_wakeup`. -/
  | wakeup
  | wakeupSection
  | exited
  deriving DecidableEq, Repr

/-- Where the timer thread stands. The conditions are tested one operand at a time; `gap` counts the
rounds of the loop that waits for NMEA data. -/
inductive TimerPc where
  | top
  | notStarted
  | notStartedRunning
  | fix
  | checkInit
  | checkLastcmd
  | checkStarted
  | gapInit (gap : Nat)
  | gapNmea (gap : Nat)
  | gapRunning (gap : Nat)
  | gapOrion (gap : Nat)
  | gapOver (gap : Nat)
  | recheckInit
  | recheckLastcmd
  | recheckStarted
  | sleep
  | closetty
  | loop
  | exited
  deriving DecidableEq, Repr

/-- The static variables and `GpsState`, the bytes in the control socket, and where everybody
stands. -/
structure GpsState where
  lastcmd : Cmd
  started : Bool
  init : Init
  continueThread : Bool
  nmea : NmeaVars
  control : List Cmd
  calls : Nat → CallPc
  stateThread : ControlPc
  timer : TimerPc

/-- Which of the callbacks that the timer thread uses are set. -/
structure Callbacks where
  locationCb : Bool
  svStatusCb : Bool
  deriving DecidableEq, Repr

/-- How the serial device and `time` answer: whether it can be opened, whether it takes a write. -/
structure Tty where
  opens : Bool
  writes : Bool
  now : Int
  deriving DecidableEq, Repr

inductive Output where
  | location
  | svStatus
  | tty (text : String)
  deriving DecidableEq, Repr

inductive Refusal where
  | disabled
  deriving DecidableEq, Repr

inductive Action where
  | start (k : Nat)
  | stop (k : Nat)
  | write (k : Nat)
  | stateThread (tty : Tty)
  | timer (tty : Tty)
  | others (nmea : NmeaVars)

/-- `gps_state_init`, with the control loop and the timer thread at their beginnings. -/
def gpsStateInit : GpsState where
  lastcmd := .quit
  started := false
  init := .init
  continueThread := true
  nmea := {
    sleepLock := 0
    bGetFormalNMEA := true
    bOrionShutdown := false
    isOpen := false
    hasLatLong := false
    svStatusChanged := false
    firstFix := false
    fixFreq := -1 }
  control := []
  calls := fun _ => .idle
  stateThread := .epollWait
  timer := .top

namespace NmeaVars

def gpsOpentty (v : NmeaVars) (tty : Tty) : NmeaVars := { v with isOpen := v.isOpen || tty.opens }

def gpsClosetty (v : NmeaVars) : NmeaVars := { v with isOpen := false }

def nmeaReaderInit (v : NmeaVars) : NmeaVars :=
  { v with hasLatLong := false, svStatusChanged := false }

/-- `write(state->fd, …)`, which sets `bOrionShutdown` if it fails. -/
def writeTty (v : NmeaVars) (tty : Tty) (text : String) : NmeaVars × List Output :=
  if v.isOpen && tty.writes then ({ v with bOrionShutdown := false }, [.tty text])
  else ({ v with bOrionShutdown := true }, [])

/-- The section of `gps_wakeup`; `athr_run_hook_start` returns 0. -/
def wakeupSection (v : NmeaVars) (tty : Tty) : NmeaVars × List Output :=
  let v := { v.gpsOpentty tty with sleepLock := tty.now }
  let (v, out) := v.writeTty tty "$PUNV,WAKEUP*2C\r\n"
  ({ v with bGetFormalNMEA := false }, out)

/-- The first section of `gps_sleep`, but for `started = 0`; `athr_run_hook_stop` returns 0. -/
def sleepSection (v : NmeaVars) (tty : Tty) : NmeaVars × List Output :=
  let (v, out) := (v.gpsOpentty tty).writeTty tty "$PUNV,SLEEP*7E\r\n"
  ({ v with sleepLock := 0 }, out)

/-- The section of the timer thread that reports to the framework. -/
def reportSection (cbs : Callbacks) (v : NmeaVars) : NmeaVars × List Output :=
  let (v, location) : NmeaVars × List Output :=
    if v.hasLatLong then
      let fixFreq := if v.fixFreq = 0 then -1 else v.fixFreq
      if cbs.locationCb then
        ({ v with hasLatLong := false, firstFix := true, fixFreq := fixFreq }, [.location])
      else ({ v with fixFreq := fixFreq }, [])
    else (v, [])
  let (v, svStatus) : NmeaVars × List Output :=
    if v.svStatusChanged && cbs.svStatusCb then ({ v with svStatusChanged := false }, [.svStatus])
    else (v, [])
  (v, location ++ svStatus)

end NmeaVars

namespace GpsState

/-! ## Actions -/

/-- The section of `gps_state_start` and `gps_state_stop`. -/
def setLastcmd (s : GpsState) (k : Nat) (cmd : Cmd) : Except Refusal (GpsState × List Output) :=
  match s.calls k with
  | .idle => .ok ({ s with lastcmd := cmd, calls := Function.update s.calls k (.write cmd) }, [])
  | .write _ => .error .disabled

/-- The write of `gps_state_start` and `gps_state_stop`. -/
def writeControl (s : GpsState) (k : Nat) : Except Refusal (GpsState × List Output) :=
  match s.calls k with
  | .idle => .error .disabled
  | .write cmd =>
    .ok ({ s with control := s.control ++ [cmd], calls := Function.update s.calls k .idle }, [])

def gpsStateStart (s : GpsState) (k : Nat) : Except Refusal (GpsState × List Output) :=
  s.setLastcmd k .start

def gpsStateStop (s : GpsState) (k : Nat) : Except Refusal (GpsState × List Output) :=
  s.setLastcmd k .stop

/-- The next action of the control loop. -/
def gpsStateThread (s : GpsState) (tty : Tty) : Except Refusal (GpsState × List Output) :=
  match s.stateThread with
  | .epollWait =>
    if s.control = [] then .error .disabled else .ok ({ s with stateThread := .read }, [])
  | .read =>
    match s.control with
    | [] => .error .disabled
    | cmd :: rest => .ok ({ s with control := rest, stateThread := .command cmd }, [])
  | .command .quit => .ok ({ s with continueThread := false, stateThread := .exited }, [])
  | .command .start =>
    if s.started then .ok ({ s with stateThread := .epollWait }, [])
    else .ok ({ s with stateThread := .readerInit }, [])
  | .command .stop =>
    if s.started then .ok ({ s with stateThread := .setInit }, [])
    else .ok ({ s with stateThread := .epollWait }, [])
  | .readerInit => .ok ({ s with nmea := s.nmea.nmeaReaderInit, stateThread := .setStarted }, [])
  | .setStarted => .ok ({ s with started := true, stateThread := .setStart }, [])
  | .setStart => .ok ({ s with init := .start, stateThread := .wakeup }, [])
  | .setInit => .ok ({ s with init := .init, stateThread := .epollWait }, [])
  | .wakeup =>
    if s.nmea.sleepLock = 0 then .ok ({ s with stateThread := .wakeupSection }, [])
    else .ok ({ s with stateThread := .epollWait }, [])
  | .wakeupSection =>
    let (nmea, out) := s.nmea.wakeupSection tty
    .ok ({ s with nmea := nmea, stateThread := .epollWait }, out)
  | .exited => .error .disabled

/-- The next action of the timer thread. Behind the section that reports, the thread sleeps for
`fix_freq` seconds if that is set and `init` is not `STATE_QUIT`, which nobody sees. -/
def gpsTimerThread (cbs : Callbacks) (s : GpsState) (tty : Tty) :
    Except Refusal (GpsState × List Output) :=
  match s.timer with
  | .top => .ok ({ s with timer := .notStarted }, [])
  | .notStarted =>
    if s.started then .ok ({ s with timer := .fix }, [])
    else .ok ({ s with timer := .notStartedRunning }, [])
  | .notStartedRunning =>
    if s.continueThread then .ok ({ s with timer := .notStarted }, [])
    else .ok ({ s with timer := .fix }, [])
  | .fix =>
    let (nmea, out) := s.nmea.reportSection cbs
    .ok ({ s with nmea := nmea, timer := .checkInit }, out)
  | .checkInit =>
    if s.init = .init then .ok ({ s with timer := .checkLastcmd }, [])
    else .ok ({ s with timer := .loop }, [])
  | .checkLastcmd =>
    if s.lastcmd = .stop then .ok ({ s with timer := .checkStarted }, [])
    else .ok ({ s with timer := .loop }, [])
  | .checkStarted =>
    if s.started then .ok ({ s with timer := .gapInit 0 }, [])
    else .ok ({ s with timer := .loop }, [])
  | .gapInit gap =>
    if s.init = .start then .ok ({ s with timer := .gapOver gap }, [])
    else .ok ({ s with timer := .gapNmea gap }, [])
  | .gapNmea gap =>
    if s.nmea.bGetFormalNMEA then .ok ({ s with timer := .gapOver gap }, [])
    else .ok ({ s with timer := .gapRunning gap }, [])
  | .gapRunning gap =>
    if s.continueThread then .ok ({ s with timer := .gapOrion gap }, [])
    else .ok ({ s with timer := .gapOver gap }, [])
  | .gapOrion gap =>
    if s.nmea.bOrionShutdown then .ok ({ s with timer := .gapOver gap }, [])
    else if 100 < gap + 1 then .ok ({ s with timer := .gapOver (gap + 1) }, [])
    else .ok ({ s with timer := .gapInit (gap + 1) }, [])
  | .gapOver gap =>
    let nmea := { s.nmea with bGetFormalNMEA := s.nmea.bGetFormalNMEA || decide (100 ≤ gap) }
    .ok ({ s with nmea := nmea, timer := .recheckInit }, [])
  | .recheckInit =>
    if s.init = .init then .ok ({ s with timer := .recheckLastcmd }, [])
    else .ok ({ s with timer := .loop }, [])
  | .recheckLastcmd =>
    if s.lastcmd = .stop then .ok ({ s with timer := .recheckStarted }, [])
    else .ok ({ s with timer := .loop }, [])
  | .recheckStarted =>
    if s.started then .ok ({ s with timer := .sleep }, [])
    else .ok ({ s with timer := .loop }, [])
  | .sleep =>
    let (nmea, out) := s.nmea.sleepSection tty
    .ok ({ s with nmea := nmea, started := false, timer := .closetty }, out)
  | .closetty => .ok ({ s with nmea := s.nmea.gpsClosetty, timer := .loop }, [])
  | .loop =>
    if s.continueThread then .ok ({ s with timer := .top }, [])
    else .ok ({ s with timer := .exited }, [])
  | .exited => .error .disabled

def step (cbs : Callbacks) (s : GpsState) : Action → Except Refusal (GpsState × List Output)
  | .start k => s.gpsStateStart k
  | .stop k => s.gpsStateStop k
  | .write k => s.writeControl k
  | .stateThread tty => s.gpsStateThread tty
  | .timer tty => s.gpsTimerThread cbs tty
  | .others nmea => .ok ({ s with nmea := nmea }, [])

end GpsState

/-- The driver in use. -/
def athr (cbs : Callbacks) : Machine Refusal GpsState Action Output := ⟨GpsState.step cbs⟩

end HeadUnit.Athr
