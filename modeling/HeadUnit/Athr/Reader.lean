import HeadUnit.Athr.Driver
import HeadUnit.Gps.Reader

/-!
# The reader of the ATHR driver

`nmea_reader_parse` of `athr_gps.c`, the section of the timer thread that reports what it leaves, and
the other accesses to the reader. The tokenizer, `str2int` and `str2float`, the updates of
coordinates, altitude, bearing and speed and the branches for GSA, GSV and VTG are the code of
`gps_neu.c`; the rest is this driver's own. The reader of `gps_neu.c` has a callback, which stays
unset here.
-/

namespace HeadUnit.Athr

open Gps

/-! ## State -/

/-- `AthTimemap_t`. -/
structure AthTimemap (D : Type) where
  valid : Bool
  systime : D
  timestamp : Int

structure NmeaReader (D : Type) extends Gps.NmeaReader D where
  timemap : AthTimemap D

/-- The reader and the variables of `GpsState` that are read or written together with it. -/
structure FixState (D : Type) where
  reader : NmeaReader D
  init : Init
  firstFix : Bool
  fixFreq : Int
  bGetFormalNMEA : Bool

/-- The reader behind code that is also in `gps_neu.c`. -/
def NmeaReader.onGps {D : Type} (r : NmeaReader D) (gps : Gps.NmeaReader D) : NmeaReader D :=
  { r with toNmeaReader := gps }

variable {D : Type} [CDouble D]

def nmeaReaderUpdateUtcDiff (zone : Int) (clk : Clock) (r : NmeaReader D) : NmeaReader D :=
  r.onGps (Gps.nmeaReaderUpdateUtcDiff zone clk r.toNmeaReader)

def nmeaReaderInit (zone : Int) (clk : Clock) : NmeaReader D where
  toNmeaReader := Gps.nmeaReaderInit zone clk
  timemap := ⟨false, CDouble.ofInt 0, 0⟩

/-! ## Update functions

Each returns the reader and its C result. -/

/-- The time stamp comes with the C result 0. -/
def nmeaReaderGetTimestamp (zone : Int) (clk : Clock) (r : NmeaReader D) (tok : Token) :
    NmeaReader D × Option Int :=
  if tok.p + 6 > tok.stop then (r, none)
  else if r.utcYear < 0 then (r, none)
  else
    let hour := str2int tok.mem tok.p (tok.p + 2)
    let minute := str2int tok.mem (tok.p + 2) (tok.p + 4)
    let seconds : D := str2float tok.mem (tok.p + 4) tok.stop
    let tm : Tm :=
      { hour := hour
        min := minute
        sec := CDouble.toInt seconds
        year := r.utcYear - 1900
        mon := r.utcMon - 1
        mday := r.utcDay
        yday := 0 }
    let r := nmeaReaderUpdateUtcDiff zone clk r
    (r, some (Calendar.mktime zone tm - r.utcDiff))

def nmeaReaderUpdateTime (zone : Int) (clk : Clock) (r : NmeaReader D) (tok : Token) :
    NmeaReader D × Int :=
  match nmeaReaderGetTimestamp zone clk r tok with
  | (r, none) => (r, -1)
  | (r, some timestamp) => ({ r with fix := { r.fix with timestamp := timestamp * 1000 } }, 0)

def nmeaReaderUpdateCdate (r : NmeaReader D) (tokD tokM tokY : Token) : NmeaReader D × Int :=
  let (gps, ret) := Gps.nmeaReaderUpdateCdate r.toNmeaReader tokD tokM tokY
  (r.onGps gps, ret)

/-- A token of another length is read all the same. -/
def nmeaReaderUpdateDate (zone : Int) (clk : Clock) (r : NmeaReader D) (date mtime : Token) :
    NmeaReader D × Int :=
  let tok := date
  let day := str2int tok.mem tok.p (tok.p + 2)
  let mon := str2int tok.mem (tok.p + 2) (tok.p + 4)
  let year := str2int tok.mem (tok.p + 4) (tok.p + 6) + 2000
  -- `(day|mon|year) < 0`: the sign bit of one of them is set
  if day < 0 ∨ mon < 0 ∨ year < 0 then (r, -1)
  else nmeaReaderUpdateTime zone clk { r with utcYear := year, utcMon := mon, utcDay := day } mtime

def nmeaReaderUpdateLatlong (r : NmeaReader D) (latitude : Token) (latitudeHemi : UInt8)
    (longitude : Token) (longitudeHemi : UInt8) : NmeaReader D × Int :=
  let (gps, ret) :=
    Gps.nmeaReaderUpdateLatlong r.toNmeaReader latitude latitudeHemi longitude longitudeHemi
  (r.onGps gps, ret)

def nmeaReaderUpdateAltitude (r : NmeaReader D) (altitude units : Token) : NmeaReader D × Int :=
  let (gps, ret) := Gps.nmeaReaderUpdateAltitude r.toNmeaReader altitude units
  (r.onGps gps, ret)

def nmeaReaderUpdateBearing (r : NmeaReader D) (bearing : Token) : NmeaReader D × Int :=
  let (gps, ret) := Gps.nmeaReaderUpdateBearing r.toNmeaReader bearing
  (r.onGps gps, ret)

def nmeaReaderUpdateSpeed (r : NmeaReader D) (speed : Token) : NmeaReader D × Int :=
  let (gps, ret) := Gps.nmeaReaderUpdateSpeed r.toNmeaReader speed
  (r.onGps gps, ret)

/-- The accuracy is stored, and flagged unless the float that was stored is the double 99.99. -/
def nmeaReaderUpdateAccuracy [DecidableEq D] (r : NmeaReader D) (accuracy : Token) :
    NmeaReader D × Int :=
  if accuracy.p ≥ accuracy.stop then (r, -1)
  else
    let acc : D := CDouble.toFloat (str2float accuracy.mem accuracy.p accuracy.stop)
    let r := { r with fix := { r.fix with accuracy := acc } }
    if acc = 99.99 then (r, 0)
    else ({ r with fix := { r.fix with flags := { r.fix.flags with accuracy := true } } }, 0)

def nmeaReaderUpdateTimemap (zone : Int) (clk : Clock) (r : NmeaReader D)
    (systimeTok timestampTok : Token) : NmeaReader D × Int :=
  if systimeTok.p ≥ systimeTok.stop ∨ timestampTok.p ≥ timestampTok.stop then
    ({ r with timemap := { r.timemap with valid := false } }, -1)
  else
    match nmeaReaderGetTimestamp zone clk r timestampTok with
    | (r, none) => ({ r with timemap := { r.timemap with valid := false } }, -1)
    | (r, some timestamp) =>
      ({ r with
          timemap := {
            valid := true
            systime := str2float systimeTok.mem systimeTok.p systimeTok.stop
            timestamp := timestamp * 1000 } }, 0)

/-! ## Sentences -/

/-- `!memcmp(tok.p, text, n)` for a text of `n` characters. -/
def startsWith (tok : Token) (text : List Char) : Bool :=
  (tok.mem.drop tok.p).take text.length = ascii text

/-- The `$PUNV` sentences. -/
def parsePunv [DecidableEq D] (zone : Int) (clk : Clock) (t : List Token) (r : NmeaReader D) :
    NmeaReader D :=
  let tokCfg := nmeaTokenizerGet t 1
  if startsWith tokCfg ['C', 'F', 'G', '_', 'R'] then r
  else if startsWith tokCfg ['Q', 'U', 'A', 'L'] then
    if (nmeaTokenizerGet t 3).char0 ≠ 0x2C then
      (nmeaReaderUpdateAccuracy r (nmeaTokenizerGet t 10)).1
    else r
  else if startsWith tokCfg ['T', 'I', 'M', 'E', 'M', 'A', 'P'] then
    (nmeaReaderUpdateTimemap zone clk r (nmeaTokenizerGet t 8) (nmeaTokenizerGet t 2)).1
  else r

/-- A fix has a status above `'0'`. -/
def parseGga (zone : Int) (clk : Clock) (t : List Token) (r : NmeaReader D) : NmeaReader D :=
  if (nmeaTokenizerGet t 6).char0 > 0x30 then
    let r := (nmeaReaderUpdateTime zone clk r (nmeaTokenizerGet t 1)).1
    let r := (nmeaReaderUpdateLatlong r (nmeaTokenizerGet t 2) (nmeaTokenizerGet t 3).char0
      (nmeaTokenizerGet t 4) (nmeaTokenizerGet t 5).char0).1
    (nmeaReaderUpdateAltitude r (nmeaTokenizerGet t 9) (nmeaTokenizerGet t 10)).1
  else r

def parseGll (zone : Int) (clk : Clock) (t : List Token) (r : NmeaReader D) : NmeaReader D :=
  if (nmeaTokenizerGet t 6).char0 = 0x41 then
    let r := (nmeaReaderUpdateTime zone clk r (nmeaTokenizerGet t 5)).1
    (nmeaReaderUpdateLatlong r (nmeaTokenizerGet t 1) (nmeaTokenizerGet t 2).char0
      (nmeaTokenizerGet t 3) (nmeaTokenizerGet t 4).char0).1
  else r

def parseRmc (zone : Int) (clk : Clock) (t : List Token) (r : NmeaReader D) : NmeaReader D :=
  if (nmeaTokenizerGet t 2).char0 = 0x41 then
    let r := (nmeaReaderUpdateDate zone clk r (nmeaTokenizerGet t 9) (nmeaTokenizerGet t 1)).1
    let r := (nmeaReaderUpdateLatlong r (nmeaTokenizerGet t 3) (nmeaTokenizerGet t 4).char0
      (nmeaTokenizerGet t 5) (nmeaTokenizerGet t 6).char0).1
    let r := (nmeaReaderUpdateBearing r (nmeaTokenizerGet t 8)).1
    (nmeaReaderUpdateSpeed r (nmeaTokenizerGet t 7)).1
  else r

def parseZda (zone : Int) (clk : Clock) (t : List Token) (r : NmeaReader D) : NmeaReader D :=
  let tokYear := nmeaTokenizerGet t 4
  let r :=
    if tokYear.char0 ≠ 0 then
      (nmeaReaderUpdateCdate r (nmeaTokenizerGet t 2) (nmeaTokenizerGet t 3) tokYear).1
    else r
  let tokTime := nmeaTokenizerGet t 1
  if tokTime.char0 ≠ 0 then (nmeaReaderUpdateTime zone clk r tokTime).1 else r

/-- The branches of `nmea_reader_parse`. -/
def parseSentence (zone : Int) (clk : Clock) (t : List Token) (r : NmeaReader D) :
    NmeaReader D × List (Gps.Output D) :=
  let id := sentenceId (nmeaTokenizerGet t 0)
  if id = ascii ['G', 'G', 'A'] then (parseGga zone clk t r, [])
  else if id = ascii ['G', 'L', 'L'] then (parseGll zone clk t r, [])
  else if id = ascii ['G', 'S', 'A'] then (r.onGps (parseGsa t r.toNmeaReader), [])
  else if id = ascii ['G', 'S', 'V'] then
    let (gps, writes) := parseGsv t r.toNmeaReader
    (r.onGps gps, writes)
  else if id = ascii ['R', 'M', 'C'] then (parseRmc zone clk t r, [])
  else if id = ascii ['V', 'T', 'G'] then (r.onGps (parseVtg t r.toNmeaReader), [])
  else if id = ascii ['Z', 'D', 'A'] then (parseZda zone clk t r, [])
  else (r, [])

/-! ## Reports -/

/-- `location_cb(&fix)` and `flags = 0`. -/
def FixState.locationCb (s : FixState D) : FixState D × List (Gps.Output D) :=
  let r := s.reader
  ({ s with reader := { r with fix := { r.fix with flags := .zero } } }, [.location r.fix])

/-- The end of `nmea_reader_parse`. The notification of `ATHR_GPSNi` is not compiled. -/
def reportFirstFix (cbs : GpsCallbacks) (s : FixState D) : FixState D × List (Gps.Output D) :=
  if s.firstFix = false ∧ s.init = .init ∧ s.reader.fix.flags.latLong then
    let (s, location) := if cbs.locationCb then s.locationCb else (s, [])
    ({ s with firstFix := true }, location)
  else (s, [])

def nmeaReaderParse [DecidableEq D] (zone : Int) (cbs : GpsCallbacks) (clk : Clock)
    (s : FixState D) : FixState D × List (Gps.Output D) :=
  let r := s.reader
  if r.pos < 9 then (s, [])
  else
    let mem := r.inBuf.toList
    let nmea : List (Gps.Output D) :=
      if cbs.nmeaCb then [.nmea (clk.tvSec * 1000 + clk.tvUsec / 1000) (mem.take r.pos)] else []
    let t := nmeaTokenizerInit mem 0 r.pos
    let tok := nmeaTokenizerGet t 0
    if tok.p + 5 > tok.stop then
      if startsWith tok ['P', 'U', 'N', 'V'] then
        ({ s with reader := parsePunv zone clk t r }, nmea)
      else (s, nmea)
    else
      let bGetFormalNMEA := s.bGetFormalNMEA || startsWith tok ['G', 'P', 'G']
      let (r, writes) := parseSentence zone clk t r
      let (s, location) := reportFirstFix cbs
        { s with reader := r, bGetFormalNMEA := bGetFormalNMEA }
      (s, nmea ++ writes ++ location)

def nmeaReaderAddc [DecidableEq D] (zone : Int) (cbs : GpsCallbacks) (clk : Clock) (s : FixState D)
    (c : UInt8) : FixState D × List (Gps.Output D) :=
  let r := s.reader
  if r.overflow then ({ s with reader := { r with overflow := c ≠ 0x0A } }, [])
  else if r.pos ≥ 84 - 1 then ({ s with reader := { r with overflow := true, pos := 0 } }, [])
  else
    let write := .inWrite r.pos
    let r := r.onGps (r.store c)
    let s := { s with reader := r }
    if c = 0x0A then
      let (s', out) := nmeaReaderParse zone cbs clk s
      ({ s' with reader := { s'.reader with pos := 0 } },
        write :: .parse r.inBuf.toList r.pos :: out)
    else (s, [write])

/-- The section of `gps_timer_thread` that reports to the framework. -/
def timerSection (cbs : GpsCallbacks) (s : FixState D) : FixState D × List (Gps.Output D) :=
  let (s, location) :=
    if s.reader.fix.flags.latLong then
      let (s, location) :=
        if cbs.locationCb then
          let (s, location) := s.locationCb
          ({ s with firstFix := true }, location)
        else (s, [])
      ({ s with fixFreq := if s.fixFreq = 0 then -1 else s.fixFreq }, location)
    else (s, [])
  if s.reader.svStatusChanged ∧ cbs.svStatusCb then
    ({ s with reader := { s.reader with svStatusChanged := false } },
      location ++ [.svStatus s.reader.svStatus])
  else (s, location)

/-! ## Threads -/

/-- What the threads do with the reader, in atomic steps. `nmea_reader_init` and the assignments of
`init` take no lock in the source; here they fall between the bytes and the sections of `fix_sem`. -/
inductive Access where
  /-- `gps_nmea_thread` hands a byte to the reader. -/
  | data (clk : Clock) (c : UInt8)
  /-- The section of `gps_timer_thread`. -/
  | timer
  /-- `nmea_reader_init` of the control loop at a start, or of `gps_nmea_thread` when it wakes the
  receiver. -/
  | readerInit (clk : Clock)
  /-- An assignment of `init` in the control loop. -/
  | setInit (state : Init)
  /-- `athr_gps_set_fix_frequency`. -/
  | setFixFrequency (freq : Int)
  /-- The section of `gps_wakeup`. -/
  | wakeup
  /-- `bGetFormalNMEA |= …` of `gps_timer_thread`. -/
  | gapOver (b : Bool)
  deriving DecidableEq, Repr

/-- What is seen of an access: the outputs of the reader, and that the reader was initialised. -/
inductive Event (D : Type) where
  | reader (o : Gps.Output D)
  | readerInit

/-- One access, as a whole. -/
def FixState.step [DecidableEq D] (zone : Int) (cbs : GpsCallbacks) (s : FixState D) :
    Access → FixState D × List (Event D)
  | .data clk c =>
    let (s, out) := nmeaReaderAddc zone cbs clk s c
    (s, out.map .reader)
  | .timer =>
    let (s, out) := timerSection cbs s
    (s, out.map .reader)
  | .readerInit clk => ({ s with reader := nmeaReaderInit zone clk }, [.readerInit])
  | .setInit state => ({ s with init := state }, [])
  | .setFixFrequency freq => ({ s with fixFreq := if freq ≤ 0 then 1 else freq }, [])
  | .wakeup => ({ s with bGetFormalNMEA := false }, [])
  | .gapOver b => ({ s with bGetFormalNMEA := s.bGetFormalNMEA || b }, [])

/-- The reader in use by the threads. -/
def fixes [DecidableEq D] (zone : Int) (cbs : GpsCallbacks) :
    Transducer (FixState D) Access (Event D) :=
  ⟨FixState.step zone cbs⟩

/-- `_gps_state` behind `gps_state_init`: the reader is still zero. -/
def fixStateInit : FixState D where
  reader := { zeroReader with timemap := ⟨false, CDouble.ofInt 0, 0⟩ }
  init := .init
  firstFix := false
  fixFreq := -1
  bGetFormalNMEA := true

end HeadUnit.Athr
