import HeadUnit.Dd.Buffers

/-!
# The conversions of `dd`

`def`, `block`, `unblock` and their `_close`, which move bytes from the input buffer to the output
buffer. A conversion table is never set, so a byte is copied as it is.
-/

namespace HeadUnit.Dd

/-- `'\n'` -/
def newline : UInt8 := 10

/-- `' '` -/
def space : UInt8 := 32

/-! ## `def` -/

def ddDef (w : Setup) (s : State) : Except Halt State := do
  let s := { s with outDbp := s.inDbp, outDbcnt := s.inDbcnt }
  if w.obs ≤ s.inDbcnt then do
    let s ← ddOut w false s
    .ok { s with inDbp := s.outDbp, inDbcnt := s.outDbcnt }
  else .ok s

def ddDefClose (s : State) : State :=
  if s.inDbcnt = 0 then s else { s with outDbcnt := s.inDbcnt }

/-! ## `block` -/

/-- Write the output buffer if it is full. -/
def outIfFull (w : Setup) (s : State) : Except Halt State :=
  if w.obs ≤ s.outDbcnt then ddOut w false s else .ok s

/-- Toss characters to a newline: `cnt` with the newline, and `inp` behind it. -/
def toss (db : List UInt8) : (cnt inp : Nat) → Except Fault (Nat × Nat)
  | 0, inp => .ok (0, inp)
  | cnt + 1, inp => do
    let ch ← Mem.load db inp
    if ch = newline then .ok (cnt + 1, inp + 1) else toss db cnt (inp + 1)

/-- What the loop that copies a record leaves. -/
structure Copied where
  cnt : Nat
  inp : Nat
  ch : UInt8
  outDb : List UInt8

/-- Copy to `outp` until a newline, `left` more characters at most. -/
def copyLine (db : List UInt8) (outp : Nat) : (left : Nat) → Copied → Except Fault Copied
  | 0, r => .ok r
  | left + 1, r => do
    let ch ← Mem.load db r.inp
    if ch = newline then .ok { r with inp := r.inp + 1, ch }
    else do
      let outDb ← Mem.splice r.outDb (outp + r.cnt) [ch]
      copyLine db outp left ⟨r.cnt + 1, r.inp + 1, ch, outDb⟩

/-- If the next character wouldn't have ended the block, it's a truncation. -/
def countTrunc (inp : Nat) (s : State) : Except Fault State := do
  if s.inDbcnt = 0 then .ok { s with trunc := s.trunc + 1 }
  else
    let next ← Mem.load s.inDb inp
    .ok (if next = newline then s else { s with trunc := s.trunc + 1 })

/-- Pad a short record with spaces, or toss what is too much of a line. Returns `inp`. -/
def padOrToss (w : Setup) (cnt inp : Nat) (s : State) : Except Fault (Nat × State) := do
  if cnt < w.cbsz then do
    let db ← Mem.splice s.outMem (s.outDbp + cnt) (List.replicate (w.cbsz - cnt) space)
    .ok (inp, s.setOutMem db)
  else do
    let s ← countTrunc inp s
    let (dbcnt, inp) ← toss s.inDb s.inDbcnt inp
    if dbcnt = 0 then .ok (inp, { s with inDbcnt := 0, intrunc := true })
    else .ok (inp, { s with inDbcnt := dbcnt - 1 })

/-- The body of the loop of `block` up to the write: whether it goes on, `inp` and `ch`. -/
def blockRecord (w : Setup) (inp : Nat) (ch : UInt8) (s : State) :
    Except Fault (Bool × Nat × UInt8 × State) := do
  let r ← copyLine s.inDb s.outDbp (min w.cbsz s.inDbcnt) ⟨0, inp, ch, s.outMem⟩
  let s := s.setOutMem r.outDb
  if r.ch ≠ newline ∧ s.inDbcnt < w.cbsz then
    -- A short record without a newline: reassemble the input block.
    let start ← Mem.back s.inDbp s.inDbcnt
    let db ← Mem.move s.inDb 0 s.inDb start s.inDbcnt
    .ok (false, r.inp, r.ch, { s with inDb := db })
  else
    let dbcnt := s.inDbcnt - r.cnt
    let s := { s with inDbcnt := if r.ch = newline then dbcnt - 1 else dbcnt }
    let (inp, s) ← padOrToss w r.cnt r.inp s
    .ok (true, inp, r.ch,
      { s with outDbp := s.outDbp + w.cbsz, outDbcnt := s.outDbcnt + w.cbsz })

/-- The records in the input buffer, from `inp` on. -/
def blockLoop (w : Setup) : Nat → (inp : Nat) → (ch : UInt8) → State → Except Halt State
  | 0, _, _, s => if s.inDbcnt = 0 then .ok s else .error .outOfFuel
  | fuel + 1, inp, ch, s => do
    if s.inDbcnt = 0 then .ok s
    else
      let (more, inp, ch, s) ← checked (blockRecord w inp ch s)
      if more = false then .ok s
      else
        let s ← outIfFull w s
        blockLoop w fuel inp ch s

def blockRecords (w : Setup) (s : State) : Except Halt State := do
  let inp ← checked (Mem.back s.inDbp s.inDbcnt)
  let s ← blockLoop w s.inDbcnt inp 0 s
  .ok { s with inDbp := s.inDbcnt }

def block (w : Setup) (s : State) : Except Halt State := do
  if s.intrunc then do
    let (cnt, inp) ← checked (toss s.inDb s.inDbrcnt 0)
    if cnt = 0 then .ok { s with inDbcnt := 0, inDbp := 0 }
    else
      blockRecords w { s with intrunc := false, inDbcnt := cnt - 1, inDbp := inp + cnt - 1 }
  else blockRecords w s

def blockClose (w : Setup) (s : State) : Except Fault State := do
  if s.inDbcnt = 0 then .ok s
  else do
    let start ← Mem.back s.inDbp s.inDbcnt
    let db ← Mem.move s.outMem s.outDbp s.inDb start s.inDbcnt
    let db ← Mem.splice db (s.outDbp + s.inDbcnt) (List.replicate (w.cbsz - s.inDbcnt) space)
    .ok { s.setOutMem db with outDbcnt := s.outDbcnt + w.cbsz, trunc := s.trunc + 1 }

/-! ## `unblock` -/

/-- How many of `n` characters from `inp` on are left without the spaces at the end. -/
def trimmed (db : List UInt8) (inp : Nat) : Nat → Except Fault Nat
  | 0 => .ok 0
  | n + 1 => do
    let ch ← Mem.load db (inp + n)
    if ch = space then trimmed db inp n else .ok (n + 1)

/-- Put the line of `n` characters from `inp` on into the output buffer. -/
def putLine (inp n : Nat) (s : State) : Except Fault State := do
  let cnt ← trimmed s.inDb inp n
  let db ← (if cnt = 0 then .ok s.outMem else Mem.move s.outMem s.outDbp s.inDb inp cnt)
  let db ← Mem.splice db (s.outDbp + cnt) [newline]
  .ok { s.setOutMem db with outDbp := s.outDbp + cnt + 1, outDbcnt := s.outDbcnt + cnt + 1 }

/-- The complete records in the input buffer, from `inp` on. -/
def unblockLoop (w : Setup) : Nat → (inp : Nat) → State → Except Halt State
  | 0, _, s => if s.inDbcnt < w.cbsz then .ok s else .error .outOfFuel
  | fuel + 1, inp, s => do
    if s.inDbcnt < w.cbsz then .ok s
    else
      let s ← checked (putLine inp w.cbsz s)
      let s ← outIfFull w s
      unblockLoop w fuel (inp + w.cbsz) { s with inDbcnt := s.inDbcnt - w.cbsz }

def unblock (w : Setup) (s : State) : Except Halt State := do
  let s ← unblockLoop w s.inDbcnt 0 s
  if s.inDbcnt = 0 then .ok { s with inDbp := 0 }
  else
    let left ← checked (Mem.back s.inDbp s.inDbcnt)
    let db ← checked (Mem.move s.inDb 0 s.inDb left s.inDbcnt)
    .ok { s with inDb := db, inDbp := s.inDbcnt }

def unblockClose (s : State) : Except Fault State :=
  if s.inDbcnt = 0 then .ok s else putLine 0 s.inDbcnt s

end HeadUnit.Dd
