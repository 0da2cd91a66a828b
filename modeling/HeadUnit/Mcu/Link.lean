import HeadUnit.Std.Machine
import HeadUnit.Std.Memory

/-!
# The MCU serial link

Sender and receiver of `qemu_mcu.c`. The receiver's globals are the state `McuInfo`, and the banner
a byte makes it print is the output of that byte (`Report`). Accesses to `mcuinfo.data` and to the
sender's `reply` are checked (`Fault`). What `write` does with each attempt is an input.
-/

namespace HeadUnit.Mcu

def mcuSyncByte0 : UInt8 := 0xAA
def mcuSyncByte1 : UInt8 := 0x77
def mcuFlagByteNormal : UInt8 := 0x00
def mcuAckByteFalse : UInt8 := 0
def frameLenMax : Nat := 255

/-- What the fields of a received frame hold. -/
structure Frame where
  framecounter : UInt8
  cmd1 : UInt8
  ack : UInt8
  len : UInt8
  data : List UInt8
  deriving DecidableEq, Repr

/-- The messages `autolink_mcu_parse` prints. A success carries the frame `mcuinfo` holds then. -/
inductive Report where
  | overflow
  | lostSync0
  | lostSync1
  | flagError
  | checksumFailed
  | success (frame : Frame)
  deriving DecidableEq, Repr

/-- `mcuinfo_st`, with `data[MCUINFO_MAX_SIZE + 1]`. -/
structure McuInfo where
  mcufd : Int
  pos : Nat
  flag : UInt8
  checksum : UInt8
  framecounter : UInt8
  cmd1 : UInt8
  ack : UInt8
  len : UInt8
  data : Vector UInt8 128
  deriving DecidableEq, Repr

/-- The zero-initialised global. -/
def mcuinfo : McuInfo where
  mcufd := 0
  pos := 0
  flag := 0
  checksum := 0
  framecounter := 0
  cmd1 := 0
  ack := 0
  len := 0
  data := Vector.replicate 128 0

/-- The frame held at the success branch: `data` up to `len`. -/
def McuInfo.frame (s : McuInfo) : Frame where
  framecounter := s.framecounter
  cmd1 := s.cmd1
  ack := s.ack
  len := s.len
  data := s.data.toList.take s.len.toNat

/-! ## Receiving -/

/-- The receiver's checksum; `data` is the memory at the pointer passed. -/
def autolinkMcuChecksum2 (flag framecounter cmd1 ack : UInt8) (data : List UInt8) (len : Nat) :
    Except Fault UInt8 :=
  Mem.foldRange (· ^^^ ·) data 0 len
    (0 ^^^ flag ^^^ framecounter ^^^ cmd1 ^^^ ack ^^^ UInt8.ofNat len)

/-- The field assignments of `autolink_mcu_parse`, by position. -/
def McuInfo.assign (s : McuInfo) (c : UInt8) : Except Fault McuInfo :=
  if s.pos = 3 then .ok { s with checksum := c }
  else if s.pos = 4 then .ok { s with framecounter := c }
  else if s.pos = 5 then .ok { s with cmd1 := c }
  else if s.pos = 6 then .ok { s with ack := c }
  else if s.pos = 7 then .ok { s with len := c }
  else if s.pos ≥ 8 then
    match Mem.store s.data (s.pos - 8) c with
    | .error e => .error e
    | .ok data => .ok { s with data }
  else .ok s

/-- The end of `autolink_mcu_parse`: check a full frame and start over. -/
def McuInfo.complete (s : McuInfo) : Except Fault (McuInfo × List Report) :=
  match autolinkMcuChecksum2 s.flag s.framecounter s.cmd1 s.ack s.data.toList s.len.toNat with
  | .error e => .error e
  | .ok ck =>
    if s.checksum ≠ ck then .ok ({ s with pos := 0 }, [.checksumFailed])
    else .ok ({ s with pos := 0 }, [.success s.frame])

def autolinkMcuParse (s : McuInfo) (c : UInt8) : Except Fault (McuInfo × List Report) :=
  if s.pos ≥ 128 - 1 then .ok ({ s with pos := 0 }, [.overflow])
  else if mcuSyncByte0 ≠ c ∧ s.pos = 0 then .ok ({ s with pos := 0 }, [.lostSync0])
  else if mcuSyncByte1 ≠ c ∧ s.pos = 1 then .ok ({ s with pos := 0 }, [.lostSync1])
  else if mcuFlagByteNormal ≠ c ∧ s.pos = 2 then .ok ({ s with pos := 0 }, [.flagError])
  else
    match s.assign c with
    | .error e => .error e
    | .ok s =>
      let s := { s with pos := s.pos + 1 }
      if s.pos = s.len.toNat + 8 then s.complete else .ok (s, [])

/-- The receiver fed one byte at a time. -/
def receiver : Machine Fault McuInfo UInt8 Report := ⟨autolinkMcuParse⟩

/-- The frames reported as received. -/
def successes (reports : List Report) : List Frame :=
  reports.filterMap fun
    | .success f => some f
    | _ => none

/-! ## Sending -/

/-- The sender's checksum over `size` bytes at `data`. -/
def autolinkMcuChecksum (flag : UInt8) (data : List UInt8) (size : Nat) : Except Fault UInt8 :=
  Mem.foldRange (· ^^^ ·) data 0 size flag

/-- What a `write` attempt does: `none` returns -1 and writes nothing, `some n` writes the first
`n` bytes, at most all, and returns how many it wrote. -/
abbrev WriteOutcome := Option Nat

/-- Returns the result of `write` and what went onto the wire. -/
def autolinkMcuSendinfo1 (mcufd : Int) (data : List UInt8) (w : WriteOutcome) :
    Int × List UInt8 :=
  if mcufd ≤ 0 then (-1, [])
  else
    match w with
    | none => (-1, [])
    | some n => ((data.take n).length, data.take n)

/-- The frame `autolink_mcu_send_msg1` builds in `reply`. The size of the `memcpy` is the signed
`len` converted to `size_t`. -/
def autolinkMcuReply (cmd1 : UInt8) (data : List UInt8) (len : Int8) :
    Except Fault (List UInt8) := do
  let payload ← Mem.memcpy (frameLenMax - 8) data (len.toInt % 2 ^ 64).toNat
  let body := [0, cmd1, mcuAckByteFalse, len.toUInt8] ++ payload
  let ck ← autolinkMcuChecksum mcuFlagByteNormal body (len.toInt + 4).toNat
  return [mcuSyncByte0, mcuSyncByte1, mcuFlagByteNormal, ck] ++ body

/-- The attempts left of the loop `while (iter < times)`; `writes` gives the outcome of each. -/
def sendLoop (mcufd : Int) (reply : List UInt8) (writes : Nat → WriteOutcome) :
    (left iter : Nat) → Int × List UInt8
  | 0, _ => (-1, [])
  | left + 1, iter =>
    let (ret, wire) := autolinkMcuSendinfo1 mcufd reply (writes iter)
    if ret = reply.length then (0, wire)
    else
      let (result, rest) := sendLoop mcufd reply writes left (iter + 1)
      (result, wire ++ rest)

/-- Returns the result and what went onto the wire. -/
def autolinkMcuSendMsg1 (mcufd times : Int) (cmd1 : UInt8) (data : List UInt8) (len : Int8)
    (writes : Nat → WriteOutcome) : Except Fault (Int × List UInt8) := do
  let reply ← autolinkMcuReply cmd1 data len
  return sendLoop mcufd reply writes times.toNat 0

end HeadUnit.Mcu
