import HeadUnit.Dd.Conversions

/-!
# A run of `dd`

`dd_in`, which reads and converts until the end of the input or `count` blocks, and `dd_close`. The
calls of `read` are answered by a list.
-/

namespace HeadUnit.Dd

/-- The answer to a `read` of `ibs` bytes. -/
inductive ReadAnswer (ibs : Nat) where
  /-- Nothing is the end of the input. -/
  | gives (bytes : List UInt8) (fits : bytes.length ≤ ibs)
  /-- The buffer is left as it is. -/
  | failed
  deriving DecidableEq

/-- `conv=` with nothing else, to a seekable output. -/
def Setup.only (cfunc : Conversion) (ibs obs cbsz : Nat) : Setup where
  cfunc
  bs := false
  sync := false
  noerror := false
  osync := false
  sparse := false
  ibs
  obs
  cbsz
  cpyCnt := 0
  alone := Options.alone_of_false
  isPipe := false

/-- The byte that `sync` fills up with. -/
def Options.filler (w : Options) : UInt8 := if w.cfunc = .default then 0 else space

/-- What `setup` allocates, with anything in it, and what else there is at the beginning. -/
def start (w : Setup) (junk : Nat → UInt8) (answers : List WriteAnswer) : State where
  inDb :=
    (List.range (if w.cfunc = .default then (w.obs + w.ibs - 1) % 18446744073709551616
      else (max w.ibs w.cbsz + w.cbsz) % 4294967296)).map junk
  outDb :=
    if w.cfunc = .default then none
    else some ((List.range ((w.obs + w.cbsz) % 4294967296)).map junk)
  inDbp := 0
  inDbcnt := 0
  inDbrcnt := 0
  outDbp := 0
  outDbcnt := 0
  inFull := 0
  inPart := 0
  trunc := 0
  intrunc := false
  out := ⟨[], 0, 0, 0, 0, 0⟩
  answers

/-- `(*cfunc)()` -/
def convert (w : Setup) (s : State) : Except Halt State :=
  match w.cfunc with
  | .default => ddDef w s
  | .block => block w s
  | .unblock => unblock w s

/-- Clear the buffer first if doing `sync` on input. -/
def clear (w : Setup) (s : State) : Except Fault State :=
  if w.sync then do
    let db ← Mem.splice s.inDb s.inDbp (List.replicate w.ibs w.filler)
    .ok { s with inDb := db }
  else .ok s

/-- What is done with the `n` bytes that have been read. -/
def digest (w : Setup) (n : Nat) (s : State) : Except Halt State := do
  let s := { s with inDbrcnt := n, inDbcnt := s.inDbcnt + n }
  if w.bs then do
    let s ← ddOut w true { s with outDbcnt := s.inDbcnt }
    .ok { s with inDbcnt := 0 }
  else convert w { s with inDbp := s.inDbp + n }

def ddIn (w : Setup) : List (ReadAnswer w.ibs) → State → Except Halt State
  | reads, s => do
    if w.cpyCnt ≠ 0 ∧ w.cpyCnt ≤ s.inFull + s.inPart then .ok s
    else
      let s ← checked (clear w s)
      -- There is room for what is asked for.
      let _ ← checked (Mem.slice s.inDb s.inDbp w.ibs)
      match reads with
      | [] => .error (.waiting .read s.out.ops)
      | .gives bytes _ :: reads =>
        if bytes.length = 0 then .ok { s with inDbrcnt := 0 }
        else
          let db ← checked (Mem.splice s.inDb s.inDbp bytes)
          let s := { s with inDb := db }
          let s ←
            (if bytes.length = w.ibs then digest w bytes.length { s with inFull := s.inFull + 1 }
            else digest w (if w.sync then w.ibs else bytes.length) { s with inPart := s.inPart + 1 })
          ddIn w reads s
      | .failed :: reads =>
        if w.noerror = false then .error (.exited .read s.out.ops)
        else if w.sync = false then ddIn w reads s
        else
          let s ← digest w w.ibs { s with inFull := s.inFull + 1 }
          ddIn w reads s

/-- The `_close` of `cfunc`. -/
def convertClose (w : Setup) (s : State) : Except Fault State :=
  match w.cfunc with
  | .default => .ok (ddDefClose s)
  | .block => blockClose w s
  | .unblock => unblockClose s

/-- `conv=osync` fills the last block up. -/
def padOutput (w : Setup) (s : State) : Except Fault State :=
  if w.osync = true ∧ s.outDbcnt < w.obs then do
    let db ← Mem.splice s.outMem s.outDbp (List.replicate (w.obs - s.outDbcnt) 0)
    .ok { s.setOutMem db with outDbcnt := w.obs }
  else .ok s

/-- If there are pending sparse blocks, the final one is written un-sparse. -/
def unsparse (w : Setup) (s : State) : Except Fault State :=
  if s.outDbcnt = 0 ∧ s.out.pending ≠ 0 then do
    let db ← Mem.splice s.outMem 0 (List.replicate w.obs 0)
    .ok { s.setOutMem db with
      outDbcnt := w.obs, outDbp := w.obs, out.pending := s.out.pending - w.obs }
  else .ok s

/-- `dd_close` up to its last `dd_out`. -/
def ddClose (w : Setup) (s : State) : Except Halt State := do
  let s ← checked (convertClose w s)
  let s ← checked (padOutput w s)
  let s ← checked (unsparse w s)
  if s.outDbcnt = 0 then .ok s else ddOut w true s

/-- `main` behind `setup`. -/
def dd (w : Setup) (junk : Nat → UInt8) (reads : List (ReadAnswer w.ibs))
    (answers : List WriteAnswer) : Except Halt State := do
  let s ← ddIn w reads (start w junk answers)
  ddClose w s

end HeadUnit.Dd
