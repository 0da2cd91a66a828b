import HeadUnit.Gps.Reader

/-!
# The GPS thread

`gps_state_thread` of `gps_neu.c` as a transducer over what its `epoll_wait` loop reads: bytes of
the serial device, command bytes of the control socket, and a hang-up of either.
-/

namespace HeadUnit.Gps

def cmdQuit : UInt8 := 0
def cmdStart : UInt8 := 1
def cmdStop : UInt8 := 2

inductive ThreadEvent where
  | data (clk : Clock) (c : UInt8)
  | control (cmd : UInt8)
  | hangup
  deriving DecidableEq, Repr

/-- `quit` once the thread function has returned. -/
structure GpsThread (D : Type) where
  reader : NmeaReader D
  started : Bool
  quit : Bool

variable {D : Type} [CDouble D]

def gpsStateThread (zone : Int) (clk : Clock) : GpsThread D where
  reader := nmeaReaderInit zone clk
  started := false
  quit := false

/-- A command byte read from the control socket. -/
def GpsThread.control (cbs : GpsCallbacks) (s : GpsThread D) (cmd : UInt8) :
    GpsThread D × List (Output D) :=
  if cmd = cmdQuit then ({ s with quit := true }, [])
  else if cmd = cmdStart then
    if s.started then (s, [])
    else
      let (reader, out) := nmeaReaderSetCallback s.reader cbs.locationCb
      ({ s with started := true, reader := reader }, out)
  else if cmd = cmdStop then
    if s.started then
      let (reader, out) := nmeaReaderSetCallback s.reader false
      ({ s with started := false, reader := reader }, out)
    else (s, [])
  else (s, [])

def GpsThread.step (zone : Int) (cbs : GpsCallbacks) (s : GpsThread D) (e : ThreadEvent) :
    GpsThread D × List (Output D) :=
  if s.quit then (s, [])
  else
    match e with
    | .data clk c =>
      let (reader, out) := nmeaReaderAddc zone cbs clk s.reader c
      ({ s with reader := reader }, out)
    | .control cmd => s.control cbs cmd
    | .hangup => ({ s with quit := true }, [])

def gpsThread (zone : Int) (cbs : GpsCallbacks) :
    Transducer (GpsThread D) ThreadEvent (Output D) :=
  ⟨GpsThread.step zone cbs⟩

end HeadUnit.Gps
