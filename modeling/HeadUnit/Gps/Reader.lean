import HeadUnit.Gps.Tokenizer
import HeadUnit.Std.Calendar
import HeadUnit.Std.Machine

/-!
# The NMEA reader

The reader of `gps_neu.c`: its state, the update functions, `nmea_reader_parse` and
`nmea_reader_addc`. Function pointers are only tested and called: a pointer is the `Bool` that says
whether it is set, and a call is an output. Outputs also record the calls of `nmea_reader_parse`
and the indices at which `in` and `sv_list` are written. A write outside `sv_list`, which C leaves
undefined, is recorded and stores nothing.
-/

namespace HeadUnit.Gps

/-! ## State -/

/-- The bits `GPS_LOCATION_HAS_*` of `GpsLocation.flags`. -/
structure LocationFlags where
  latLong : Bool
  altitude : Bool
  speed : Bool
  bearing : Bool
  accuracy : Bool
  deriving DecidableEq, Repr

/-- `flags = 0`. -/
def LocationFlags.zero : LocationFlags := ⟨false, false, false, false, false⟩

structure GpsLocation (D : Type) where
  flags : LocationFlags
  latitude : D
  longitude : D
  altitude : D
  speed : D
  bearing : D
  accuracy : D
  timestamp : Int

structure GpsSvInfo (D : Type) where
  prn : Int
  snr : D
  elevation : D
  azimuth : D

/-- `GPS_MAX_SVS`. -/
def gpsMaxSvs : Nat := 32

structure GpsSvStatus (D : Type) where
  numSvs : Nat
  svList : Vector (GpsSvInfo D) 32
  usedInFixMask : BitVec 32

/-- The satellites a status callback finds in the list. -/
def GpsSvStatus.svs {D : Type} (sv : GpsSvStatus D) : List (GpsSvInfo D) :=
  sv.svList.toList.take sv.numSvs

/-- `NmeaReader`, with `in[NMEA_MAX_SIZE + 1]` as `inBuf`. -/
structure NmeaReader (D : Type) where
  pos : Nat
  overflow : Bool
  utcYear : Int
  utcMon : Int
  utcDay : Int
  utcDiff : Int
  fix : GpsLocation D
  svStatus : GpsSvStatus D
  svStatusChanged : Bool
  callback : Bool
  inBuf : Vector UInt8 84
  gsaFixed : Bool

/-- Which of the `GpsCallbacks` are installed. -/
structure GpsCallbacks where
  locationCb : Bool
  svStatusCb : Bool
  nmeaCb : Bool
  setCapabilitiesCb : Bool
  deriving DecidableEq, Repr

/-- What `time` and `gettimeofday` return. -/
structure Clock where
  now : Int
  tvSec : Int
  tvUsec : Int
  deriving DecidableEq, Repr

inductive Output (D : Type) where
  | inWrite (pos : Nat)
  | parse (mem : List UInt8) (pos : Nat)
  | nmea (timems : Int) (text : List UInt8)
  | svWrite (curr : Nat)
  | svStatus (sv : GpsSvStatus D)
  | location (fix : GpsLocation D)

variable {D : Type} [CDouble D]

/-- `nmea_reader_update_utc_diff`, in a zone where local time is UTC plus `zone`. -/
def nmeaReaderUpdateUtcDiff (zone : Int) (clk : Clock) (r : NmeaReader D) : NmeaReader D :=
  let tmUtc := Calendar.gmtimeR clk.now
  let tmLocal := Calendar.localtimeR zone clk.now
  let seconds (tm : Tm) : Int :=
    wrap32 (tm.sec + 60 * (tm.min + 60 * (tm.hour + 24 * (tm.yday + 365 * tm.year))))
  { r with utcDiff := wrap32 (seconds tmUtc - seconds tmLocal) }

/-- The reader after `memset`. -/
def zeroReader : NmeaReader D where
  pos := 0
  overflow := false
  utcYear := 0
  utcMon := 0
  utcDay := 0
  utcDiff := 0
  fix := ⟨.zero, CDouble.ofInt 0, CDouble.ofInt 0, CDouble.ofInt 0, CDouble.ofInt 0,
    CDouble.ofInt 0, CDouble.ofInt 0, 0⟩
  svStatus := ⟨0, Vector.replicate 32 ⟨0, CDouble.ofInt 0, CDouble.ofInt 0, CDouble.ofInt 0⟩, 0⟩
  svStatusChanged := false
  callback := false
  inBuf := Vector.replicate 84 0
  gsaFixed := false

def nmeaReaderInit (zone : Int) (clk : Clock) : NmeaReader D :=
  nmeaReaderUpdateUtcDiff zone clk { zeroReader with utcYear := -1, utcMon := -1, utcDay := -1 }

/-- `nmea_reader_set_callback`; `cb` tells whether the callback is not `NULL`. -/
def nmeaReaderSetCallback (r : NmeaReader D) (cb : Bool) : NmeaReader D × List (Output D) :=
  let r := { r with callback := cb }
  if cb ∧ r.fix.flags ≠ .zero then
    ({ r with fix := { r.fix with flags := .zero } }, [.location r.fix])
  else (r, [])

/-! ## Update functions

Each returns the reader and its C result. -/

def nmeaReaderUpdateTime (zone : Int) (clk : Clock) (r : NmeaReader D) (tok : Token) :
    NmeaReader D × Int :=
  if tok.p + 6 > tok.stop then (r, -1)
  else
    let r :=
      if r.utcYear < 0 then
        let tm := Calendar.gmtimeR clk.now
        { r with utcYear := tm.year + 1900, utcMon := tm.mon + 1, utcDay := tm.mday }
      else r
    let hour := str2int tok.mem tok.p (tok.p + 2)
    let minute := str2int tok.mem (tok.p + 2) (tok.p + 4)
    let seconds : D := str2float tok.mem (tok.p + 4) tok.stop
    let tm : Tm :=
      { hour := hour
        min := minute
        sec := CDouble.toInt seconds
        year := r.utcYear - 1900
        mon := r.utcMon - 1
        mday := r.utcDay
        yday := 0 }
    let fixTime := Calendar.mktime zone tm + r.utcDiff
    ({ r with fix := { r.fix with timestamp := fixTime * 1000 } }, 0)

/-- The year is read up to four bytes past the end of its token. -/
def nmeaReaderUpdateCdate (r : NmeaReader D) (tokD tokM tokY : Token) : NmeaReader D × Int :=
  if tokD.p + 2 > tokD.stop ∨ tokM.p + 2 > tokM.stop ∨ tokY.p + 4 > tokY.stop then (r, -1)
  else
    ({ r with
        utcDay := str2int tokD.mem tokD.p (tokD.p + 2)
        utcMon := str2int tokM.mem tokM.p (tokM.p + 2)
        utcYear := str2int tokY.mem tokY.p (tokY.stop + 4) }, 0)

def nmeaReaderUpdateDate (zone : Int) (clk : Clock) (r : NmeaReader D) (date time : Token) :
    NmeaReader D × Int :=
  let tok := date
  if tok.p + 6 ≠ tok.stop then (r, -1)
  else
    let day := str2int tok.mem tok.p (tok.p + 2)
    let mon := str2int tok.mem (tok.p + 2) (tok.p + 4)
    let year := str2int tok.mem (tok.p + 4) (tok.p + 6) + 2000
    -- `(day|mon|year) < 0`: the sign bit of one of them is set
    if day < 0 ∨ mon < 0 ∨ year < 0 then (r, -1)
    else nmeaReaderUpdateTime zone clk { r with utcYear := year, utcMon := mon, utcDay := day } time

def convertFromHhmm (tok : Token) : D :=
  let val : D := str2float tok.mem tok.p tok.stop
  let degrees := CDouble.toInt (CDouble.floor val / CDouble.ofInt 100)
  let minutes := val - CDouble.ofInt degrees * CDouble.ofInt 100
  CDouble.ofInt degrees + minutes / CDouble.ofInt 60

/-- A coordinate, negated in the hemisphere whose letter is `neg`. -/
def coordinate (tok : Token) (hemi neg : UInt8) : D :=
  if hemi = neg then -convertFromHhmm tok else convertFromHhmm tok

def nmeaReaderUpdateLatlong (r : NmeaReader D) (latitude : Token) (latitudeHemi : UInt8)
    (longitude : Token) (longitudeHemi : UInt8) : NmeaReader D × Int :=
  if latitude.p + 6 > latitude.stop then (r, -1)
  else
    let lat : D := coordinate latitude latitudeHemi 0x53
    if longitude.p + 6 > longitude.stop then (r, -1)
    else
      let lon : D := coordinate longitude longitudeHemi 0x57
      ({ r with
          fix := { r.fix with
            flags := { r.fix.flags with latLong := true }
            latitude := lat
            longitude := lon } }, 0)

/-- The units are not looked at. -/
def nmeaReaderUpdateAltitude (r : NmeaReader D) (altitude _units : Token) : NmeaReader D × Int :=
  if altitude.p ≥ altitude.stop then (r, -1)
  else
    ({ r with
        fix := { r.fix with
          flags := { r.fix.flags with altitude := true }
          altitude := str2float altitude.mem altitude.p altitude.stop } }, 0)

def nmeaReaderUpdateBearing (r : NmeaReader D) (bearing : Token) : NmeaReader D × Int :=
  if bearing.p ≥ bearing.stop then (r, -1)
  else
    ({ r with
        fix := { r.fix with
          flags := { r.fix.flags with bearing := true }
          bearing := CDouble.toFloat (str2float bearing.mem bearing.p bearing.stop) } }, 0)

/-- Knots to metres per second. -/
def nmeaReaderUpdateSpeed (r : NmeaReader D) (speed : Token) : NmeaReader D × Int :=
  if speed.p ≥ speed.stop then (r, -1)
  else
    let knots : D := CDouble.toFloat (str2float speed.mem speed.p speed.stop)
    ({ r with
        fix := { r.fix with
          flags := { r.fix.flags with speed := true }
          speed := CDouble.toFloat (knots * 0.514444) } }, 0)

def nmeaReaderUpdateAccuracy (r : NmeaReader D) : NmeaReader D × Int :=
  ({ r with
      fix := { r.fix with
        flags := { r.fix.flags with accuracy := true }
        accuracy := CDouble.ofInt 20 } }, 0)

/-! ## Sentences

One function for each branch of `nmea_reader_parse`. -/

def parseGga (zone : Int) (clk : Clock) (t : List Token) (r : NmeaReader D) : NmeaReader D :=
  let r := (nmeaReaderUpdateTime zone clk r (nmeaTokenizerGet t 1)).1
  let r := (nmeaReaderUpdateLatlong r (nmeaTokenizerGet t 2) (nmeaTokenizerGet t 3).char0
    (nmeaTokenizerGet t 4) (nmeaTokenizerGet t 5).char0).1
  (nmeaReaderUpdateAltitude r (nmeaTokenizerGet t 9) (nmeaTokenizerGet t 10)).1

def parseGll (zone : Int) (clk : Clock) (t : List Token) (r : NmeaReader D) : NmeaReader D :=
  if (nmeaTokenizerGet t 6).char0 = 0x41 then
    let r := (nmeaReaderUpdateTime zone clk r (nmeaTokenizerGet t 5)).1
    (nmeaReaderUpdateLatlong r (nmeaTokenizerGet t 1) (nmeaTokenizerGet t 2).char0
      (nmeaTokenizerGet t 3) (nmeaTokenizerGet t 4).char0).1
  else r

/-- One round of the loop over the fields 3 to 14 of GSA. -/
def gsaField (t : List Token) (r : NmeaReader D) (i : Nat) : NmeaReader D :=
  let tok := nmeaTokenizerGet t i
  let prn := str2int tok.mem tok.p tok.stop
  if prn > 0 ∧ prn < 33 then
    { r with
      svStatus := { r.svStatus with
        usedInFixMask := r.svStatus.usedInFixMask ||| 1#32 <<< (prn - 1).toNat }
      svStatusChanged := true
      gsaFixed := true }
  else r

def parseGsa (t : List Token) (r : NmeaReader D) : NmeaReader D :=
  let fixStatus := (nmeaTokenizerGet t 2).char0
  if fixStatus ≠ 0 ∧ fixStatus ≠ 0x31 then
    (List.range' 3 12).foldl (gsaField t) { r with
      svStatus := { r.svStatus with usedInFixMask := 0 } }
  else if r.gsaFixed then
    { r with
      svStatus := { r.svStatus with usedInFixMask := 0 }
      svStatusChanged := true
      gsaFixed := false }
  else r

/-- The satellite in fields `i * 4 + 4` to `i * 4 + 7` of GSV. -/
def gsvEntry (t : List Token) (i : Nat) : GpsSvInfo D :=
  let prn := nmeaTokenizerGet t (i * 4 + 4)
  let elevation := nmeaTokenizerGet t (i * 4 + 5)
  let azimuth := nmeaTokenizerGet t (i * 4 + 6)
  let snr := nmeaTokenizerGet t (i * 4 + 7)
  { prn := str2int prn.mem prn.p prn.stop
    elevation := CDouble.toFloat (str2float elevation.mem elevation.p elevation.stop)
    azimuth := CDouble.toFloat (str2float azimuth.mem azimuth.p azimuth.stop)
    snr := CDouble.toFloat (str2float snr.mem snr.p snr.stop) }

/-- The loop `while (i < 4 && num_svs < noSatellites)`, `left` rounds before `i` reaches 4. -/
def gsvLoop (t : List Token) (noSatellites : Int) :
    (left i curr : Nat) → GpsSvStatus D → GpsSvStatus D × List (Output D)
  | 0, _, _, sv => (sv, [])
  | left + 1, i, curr, sv =>
    if sv.numSvs < noSatellites then
      let sv' := { sv with
        svList := sv.svList.setIfInBounds curr (gsvEntry t i)
        numSvs := sv.numSvs + 1 }
      let (sv'', out) := gsvLoop t noSatellites left (i + 1) (curr + 1) sv'
      (sv'', .svWrite curr :: out)
    else (sv, [])

/-- A numeric field of a sentence. -/
def intField (t : List Token) (i : Nat) : Int :=
  let tok := nmeaTokenizerGet t i
  str2int tok.mem tok.p tok.stop

def parseGsv (t : List Token) (r : NmeaReader D) : NmeaReader D × List (Output D) :=
  let noSatellites := intField t 3
  if noSatellites > 0 then
    let sentence := intField t 2
    let totalSentences := intField t 1
    let r :=
      if sentence = 1 then
        { r with svStatusChanged := false, svStatus := { r.svStatus with numSvs := 0 } }
      else r
    let (sv, out) := gsvLoop t noSatellites 4 0 r.svStatus.numSvs r.svStatus
    let r := { r with svStatus := sv }
    if sentence = totalSentences then ({ r with svStatusChanged := true }, out) else (r, out)
  else (r, [])

def parseRmc (zone : Int) (clk : Clock) (t : List Token) (r : NmeaReader D) : NmeaReader D :=
  if (nmeaTokenizerGet t 2).char0 = 0x41 then
    let r := (nmeaReaderUpdateDate zone clk r (nmeaTokenizerGet t 9) (nmeaTokenizerGet t 1)).1
    let r := (nmeaReaderUpdateLatlong r (nmeaTokenizerGet t 3) (nmeaTokenizerGet t 4).char0
      (nmeaTokenizerGet t 5) (nmeaTokenizerGet t 6).char0).1
    let r := (nmeaReaderUpdateBearing r (nmeaTokenizerGet t 8)).1
    (nmeaReaderUpdateSpeed r (nmeaTokenizerGet t 7)).1
  else r

def parseVtg (t : List Token) (r : NmeaReader D) : NmeaReader D :=
  let fixStatus := (nmeaTokenizerGet t 9).char0
  if fixStatus ≠ 0 ∧ fixStatus ≠ 0x4E then
    let r := (nmeaReaderUpdateBearing r (nmeaTokenizerGet t 1)).1
    (nmeaReaderUpdateSpeed r (nmeaTokenizerGet t 5)).1
  else r

def parseZda (zone : Int) (clk : Clock) (t : List Token) (r : NmeaReader D) : NmeaReader D :=
  let tokYear := nmeaTokenizerGet t 4
  let r :=
    if tokYear.char0 ≠ 0 then
      (nmeaReaderUpdateCdate r (nmeaTokenizerGet t 2) (nmeaTokenizerGet t 3) tokYear).1
    else r
  let tokTime := nmeaTokenizerGet t 1
  if tokTime.char0 ≠ 0 then (nmeaReaderUpdateTime zone clk r tokTime).1 else r

def ascii (cs : List Char) : List UInt8 := cs.map Char.toUInt8

/-- The three bytes `memcmp` looks at, behind the two of the talker. -/
def sentenceId (tok : Token) : List UInt8 := (tok.mem.drop (tok.p + 2)).take 3

/-- The branches of `nmea_reader_parse`. -/
def parseSentence (zone : Int) (clk : Clock) (t : List Token) (r : NmeaReader D) :
    NmeaReader D × List (Output D) :=
  let id := sentenceId (nmeaTokenizerGet t 0)
  if id = ascii ['G', 'G', 'A'] then (parseGga zone clk t r, [])
  else if id = ascii ['G', 'L', 'L'] then (parseGll zone clk t r, [])
  else if id = ascii ['G', 'S', 'A'] then (parseGsa t r, [])
  else if id = ascii ['G', 'S', 'V'] then parseGsv t r
  else if id = ascii ['R', 'M', 'C'] then (parseRmc zone clk t r, [])
  else if id = ascii ['V', 'T', 'G'] then (parseVtg t r, [])
  else if id = ascii ['Z', 'D', 'A'] then (parseZda zone clk t r, [])
  else (r, [])

/-- The status callback at the end of `nmea_reader_parse`. -/
def reportSvStatus (cbs : GpsCallbacks) (r : NmeaReader D) : NmeaReader D × List (Output D) :=
  if r.svStatusChanged ∧ cbs.svStatusCb then
    ({ r with svStatusChanged := false }, [.svStatus r.svStatus])
  else (r, [])

/-- The location callback at the end of `nmea_reader_parse`. -/
def reportLocation (r : NmeaReader D) : NmeaReader D × List (Output D) :=
  if r.fix.flags ≠ .zero ∧ r.callback then
    ({ r with fix := { r.fix with flags := .zero } }, [.location r.fix])
  else (r, [])

def nmeaReaderParse (zone : Int) (cbs : GpsCallbacks) (clk : Clock) (r : NmeaReader D) :
    NmeaReader D × List (Output D) :=
  if r.pos < 9 then (r, [])
  else
    let mem := r.inBuf.toList
    let nmea : List (Output D) :=
      if cbs.nmeaCb then [.nmea (clk.tvSec * 1000 + clk.tvUsec / 1000) (mem.take r.pos)] else []
    let t := nmeaTokenizerInit mem 0 r.pos
    let tok := nmeaTokenizerGet t 0
    if tok.p + 5 > tok.stop then (r, nmea)
    else
      let (r, writes) := parseSentence zone clk t r
      let r := (nmeaReaderUpdateAccuracy r).1
      let (r, status) := reportSvStatus cbs r
      let (r, location) := reportLocation r
      (r, nmea ++ writes ++ status ++ location)

/-- `r->in[r->pos] = (char)c; r->pos += 1`. -/
def NmeaReader.store (r : NmeaReader D) (c : UInt8) : NmeaReader D :=
  { r with inBuf := r.inBuf.setIfInBounds r.pos c, pos := r.pos + 1 }

def nmeaReaderAddc (zone : Int) (cbs : GpsCallbacks) (clk : Clock) (r : NmeaReader D) (c : UInt8) :
    NmeaReader D × List (Output D) :=
  if r.overflow then ({ r with overflow := c ≠ 0x0A }, [])
  else if r.pos ≥ 84 - 1 then ({ r with overflow := true, pos := 0 }, [])
  else
    let write := .inWrite r.pos
    let r := r.store c
    if c = 0x0A then
      let (r', out) := nmeaReaderParse zone cbs clk r
      ({ r' with pos := 0 }, write :: .parse r.inBuf.toList r.pos :: out)
    else (r, [write])

/-- The reader fed one byte at a time, each with the time of its arrival. -/
def reader (zone : Int) (cbs : GpsCallbacks) :
    Transducer (NmeaReader D) (Clock × UInt8) (Output D) :=
  ⟨fun r i => nmeaReaderAddc zone cbs i.1 r i.2⟩

end HeadUnit.Gps
