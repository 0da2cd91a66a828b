import HeadUnit.Std.Buffer

/-!
# The output buffer of `dd`

The state of `dd.c` and `dd_out`, which writes the output buffer in blocks of `out.dbsz` bytes. The
calls of `write` are answered by a list; a run for which it is too short waits. `out.db` is `in.db`
unless records are converted, and pointers count from the object that they point into.
-/

namespace HeadUnit.Dd

/-! ## Options -/

/-- What `cfunc` points to. -/
inductive Conversion where
  /-- `def`. -/
  | default
  | block
  | unblock
  deriving DecidableEq, Repr

/-- The operands as `jcl` leaves them. No conversion sets `ctab`. -/
structure Options where
  cfunc : Conversion
  /-- `C_BS`. -/
  bs : Bool
  sync : Bool
  noerror : Bool
  osync : Bool
  sparse : Bool
  /-- `in.dbsz`. -/
  ibs : Nat
  /-- `out.dbsz`. -/
  obs : Nat
  cbsz : Nat
  cpyCnt : Nat
  /-- `C_BS` does not survive a conversion. -/
  alone : bs = true → cfunc = .default ∧ osync = false ∧ sparse = false ∧ ibs = obs

theorem Options.alone_of_false {cfunc : Conversion} {osync sparse : Bool} {ibs obs : Nat}
    (h : false = true) : cfunc = .default ∧ osync = false ∧ sparse = false ∧ ibs = obs :=
  absurd h Bool.false_ne_true

/-- With what `setup` finds out about the output. -/
structure Setup extends Options where
  /-- `lseek` fails with `ESPIPE`. -/
  isPipe : Bool

/-! ## State -/

/-- The answer to a `write`. -/
inductive WriteAnswer where
  /-- It takes what it is given, up to `k` bytes. -/
  | takes (k : Nat)
  /-- `EINTR`. -/
  | interrupted
  | failed
  deriving DecidableEq, Repr

/-- What is done to the output. -/
inductive OutOp where
  | seek (offset : Int)
  | write (bytes : List UInt8)
  deriving DecidableEq, Repr

inductive Call where
  | read
  | lseek
  | write
  deriving DecidableEq, Repr

/-- How a run ends before its time, with what has been done to the output by then. -/
inductive Halt where
  | fault (f : Fault)
  /-- There is no answer to the call. -/
  | waiting (call : Call) (ops : List OutOp)
  /-- `exit(1)` behind the call. -/
  | exited (call : Call) (ops : List OutOp)
  | outOfFuel

def checked {α : Type} : Except Fault α → Except Halt α
  | .ok a => .ok a
  | .error f => .error (.fault f)

/-- The output, `pending` and the counters of `st` that `dd_out` keeps. -/
structure Output where
  ops : List OutOp
  pending : Int
  bytes : Int
  outFull : Nat
  outPart : Nat
  sparse : Nat

structure State where
  inDb : List UInt8
  /-- `none` where `out.db` is `in.db`. -/
  outDb : Option (List UInt8)
  inDbp : Nat
  inDbcnt : Nat
  inDbrcnt : Nat
  outDbp : Nat
  outDbcnt : Nat
  inFull : Nat
  inPart : Nat
  trunc : Nat
  /-- The `intrunc` of `block`. -/
  intrunc : Bool
  out : Output
  answers : List WriteAnswer

namespace State

/-- The object at `out.db`. -/
def outMem (s : State) : List UInt8 := s.outDb.getD s.inDb

def setOutMem (s : State) (db : List UInt8) : State :=
  match s.outDb with
  | none => { s with inDb := db }
  | some _ => { s with outDb := some db }

end State

/-! ## `dd_out` -/

/-- `pending` in the unsigned division by `out.dbsz`. -/
def pendingBlocks (pending : Int) (obs : Nat) : Nat :=
  (pending % 18446744073709551616).toNat / obs

namespace Output

/-- `lseek` over what is pending. -/
def skip (isPipe : Bool) (out : Output) : Except Halt Output :=
  if out.pending = 0 then .ok out
  else if isPipe then .error (.exited .lseek out.ops)
  else .ok { out with ops := out.ops ++ [.seek out.pending] }

/-- What is pending is counted. -/
def settle (obs : Nat) (out : Output) : Output :=
  { out with
    bytes := out.bytes + out.pending
    sparse := out.sparse + pendingBlocks out.pending obs
    outFull := out.outFull + pendingBlocks out.pending obs
    pending := 0 }

/-- A `write` has returned `nw`, the length of `bytes`, in a block of `n` bytes. -/
def wrote (obs n : Nat) (bytes : List UInt8) (out : Output) : Output :=
  { out with
    ops := if bytes = [] then out.ops else out.ops ++ [.write bytes]
    bytes := out.bytes + bytes.length
    outFull := if bytes.length = n ∧ n = obs then out.outFull + 1 else out.outFull
    outPart := if bytes.length = n ∧ n = obs then out.outPart else out.outPart + 1 }

end Output

/-- The inner loop of `dd_out`, where `cnt` bytes of a block of `n` are left, from `outp` on. -/
def writeBlock (w : Setup) (force : Bool) (db : List UInt8) (n : Nat) :
    List WriteAnswer → (cnt outp : Nat) → Output → Except Halt (List WriteAnswer × Nat × Output)
  | answers, cnt, outp, out => do
    let block ← checked (Mem.slice db outp cnt)
    if force = false ∧ w.sparse = true ∧ block.all (· == 0) = true then
      .ok (answers, outp + cnt, { out with pending := out.pending + cnt })
    else
      let out ← out.skip w.isPipe
      match answers with
      | [] => .error (.waiting .write out.ops)
      | .failed :: _ => .error (.exited .write out.ops)
      | .takes 0 :: _ => .error (.exited .write out.ops)
      | .takes (k + 1) :: answers =>
        let nw := min (k + 1) cnt
        let out := (out.settle w.obs).wrote w.obs n (block.take nw)
        if nw = n ∨ nw = cnt then .ok (answers, outp + nw, out)
        else writeBlock w force db n answers (cnt - nw) (outp + nw) out
      | .interrupted :: answers =>
        let out := (out.settle w.obs).wrote w.obs n []
        if 0 = n ∨ 0 = cnt then .ok (answers, outp, out)
        else writeBlock w force db n answers cnt outp out

/-- The outer loop of `dd_out`, which begins with a block of `n` bytes. -/
def outLoop (w : Setup) (force : Bool) (db : List UInt8) :
    Nat → (n dbcnt outp : Nat) → List WriteAnswer → Output →
      Except Halt (List WriteAnswer × Nat × Output)
  | 0, _, _, _, _, _ => .error .outOfFuel
  | fuel + 1, n, dbcnt, outp, answers, out => do
    let (answers, outp, out) ← writeBlock w force db n answers n outp out
    if dbcnt - n < w.obs then .ok (answers, dbcnt - n, out)
    else outLoop w force db fuel w.obs (dbcnt - n) outp answers out

def ddOut (w : Setup) (force : Bool) (s : State) : Except Halt State := do
  let n := if force then s.outDbcnt else w.obs
  let (answers, dbcnt, out) ←
    outLoop w force s.outMem (s.outDbcnt + 1) n s.outDbcnt 0 s.answers s.out
  -- Reassemble the output block.
  let db ←
    if dbcnt = 0 then .ok s.outMem
    else do
      let left ← checked (Mem.back s.outDbp dbcnt)
      checked (Mem.move s.outMem 0 s.outMem left dbcnt)
  .ok { s.setOutMem db with outDbp := dbcnt, outDbcnt := dbcnt, out, answers }

/-! ## The file -/

/-- A file that is written from its beginning. -/
structure OutFile where
  content : List UInt8
  pos : Nat

/-- A `write` behind the end leaves zeros before it. -/
def OutFile.apply (f : OutFile) : OutOp → OutFile
  | .seek offset => { f with pos := (f.pos + offset).toNat }
  | .write bytes =>
    let content := f.content ++ List.replicate (f.pos - f.content.length) 0
    ⟨content.take f.pos ++ (bytes ++ content.drop (f.pos + bytes.length)), f.pos + bytes.length⟩

/-- What a new file holds after all. -/
def fileOf (ops : List OutOp) : List UInt8 := (ops.foldl OutFile.apply ⟨[], 0⟩).content

end HeadUnit.Dd
