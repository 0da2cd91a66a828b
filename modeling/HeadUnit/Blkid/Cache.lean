import HeadUnit.Std.Block

/-!
# The read cache

`volume_id_get_buffer` of the volume probe with `full_read` and the two buffers. The beginning of
the disk is kept in `sbbuf`, one range behind it in `seekbuf`.
-/

namespace HeadUnit.Blkid

def sbBufferSize : Nat := 0x11000

def seekBufferSize : Nat := 0x10000

/-- What becomes of a call of `read`. -/
inductive ReadOutcome where
  | interrupted
  | failed
  | upTo (count : Nat)
  deriving DecidableEq, Repr

/-- What a call of `volume_id_get_buffer` meets: whether `lseek` succeeds, what becomes of the calls
of `read` (behind the last one they fail) and the bytes that `realloc` adds. -/
structure Env where
  seekOk : Bool
  reads : List ReadOutcome
  fresh : Nat → UInt8

/-! ## Reading -/

/-- What is read, which is nothing at the end of the disk, or `none` for -1; and the outcomes that
are left. -/
def safeRead (disk : List UInt8) (pos count : Nat) :
    List ReadOutcome → Option (List UInt8) × List ReadOutcome
  | [] => (none, [])
  | .interrupted :: reads => safeRead disk pos count reads
  | .failed :: reads => (none, reads)
  | .upTo k :: reads => (some ((disk.drop pos).take (min k count)), reads)

/-- The loop of `full_read` from `pos` on, with `len` bytes to go to `dst + total`. -/
def fullRead (disk : List UInt8) (pos len total : Nat) (dst : Block) (reads : List ReadOutcome) :
    Except Fault (Int × Block) :=
  if len = 0 then .ok (total, dst)
  else
    match safeRead disk pos len reads with
    | (none, _) => .ok (if total ≠ 0 then total else -1, dst)
    | (some [], _) => .ok (total, dst)
    | (some (c :: cs), reads) =>
      let cc := cs.length + 1
      match dst.write total (c :: cs) with
      | .error e => .error e
      | .ok dst => fullRead disk (pos + cc) (len - cc) (total + cc) dst reads
termination_by len
decreasing_by omega

/-! ## The buffers -/

inductive Buffer where
  | sb
  | seek
  deriving DecidableEq, Repr

/-- A pointer into one of the two buffers. -/
structure Ptr where
  buffer : Buffer
  offset : Nat
  deriving DecidableEq, Repr

structure VolumeId where
  error : Int
  sbbufLen : Nat
  seekbufLen : Nat
  sbbuf : Option Block
  seekbuf : Option Block
  seekbufOff : Nat

/-- `memset(id, 0, sizeof(struct volume_id))`. -/
def VolumeId.init : VolumeId := ⟨0, 0, 0, none, none, 0⟩

def VolumeId.block (id : VolumeId) : Buffer → Block
  | .sb => id.sbbuf.getD Block.null
  | .seek => id.seekbuf.getD Block.null

def volumeIdFreeBuffer (id : VolumeId) : VolumeId :=
  { id with sbbuf := none, sbbufLen := 0, seekbuf := none, seekbufLen := 0, seekbufOff := 0 }

/-- `realloc`. The size 0 frees a buffer. -/
def xrealloc (fresh : Nat → UInt8) (ptr : Option Block) (size : Nat) : Option Block :=
  match ptr with
  | none => some ⟨size, fresh⟩
  | some b => if size = 0 then none else some ⟨size, fun a => if a < b.size then b.byte a else fresh a⟩

/-- What a call returns, and how the transfer from the disk went if it came to one. -/
structure Reply where
  ptr : Option Ptr
  transfer : Option Bool

/-- The part behind the label `err`. -/
def readFailed (id : VolumeId) (off : Nat) : Reply × VolumeId :=
  (⟨none, some false⟩,
    volumeIdFreeBuffer { id with error := if off < 64 * 1024 then 1 else id.error })

/-- The part behind the label `do_read`: whether all was read, and the bytes at `dst`. -/
def doRead (disk : List UInt8) (env : Env) (off len : Nat) (dst : Block) :
    Except Fault (Bool × Block) :=
  if env.seekOk then
    match fullRead disk off len 0 dst env.reads with
    | .error e => .error e
    | .ok (readLen, dst) => .ok (readLen = len, dst)
  else .ok (false, dst)

def volumeIdGetBuffer (disk : List UInt8) (env : Env) (id : VolumeId) (off len : Nat) :
    Except Fault (Reply × VolumeId) :=
  let stop := (off + len) % 2 ^ 64
  if stop ≤ sbBufferSize then
    let sbbuf := id.sbbuf.getD ⟨sbBufferSize, fun _ => 0⟩
    let id := { id with sbbuf := some sbbuf }
    let ptr : Ptr := ⟨.sb, off % 2 ^ 32⟩
    if stop ≤ id.sbbufLen then .ok (⟨some ptr, none⟩, id)
    else
      match doRead disk env 0 stop sbbuf with
      | .error e => .error e
      | .ok (false, _) => .ok (readFailed id 0)
      | .ok (true, dst) =>
        .ok (⟨some ptr, some true⟩, { id with sbbufLen := stop, sbbuf := some dst })
  else if len > seekBufferSize then .ok (⟨none, none⟩, id)
  else if off ≥ id.seekbufOff ∧ stop ≤ (id.seekbufOff + id.seekbufLen) % 2 ^ 64 then
    .ok (⟨id.seekbuf.map fun _ => ⟨.seek, (off - id.seekbufOff) % 2 ^ 32⟩, none⟩, id)
  else
    let seekbuf := xrealloc env.fresh id.seekbuf len
    match doRead disk env off len (seekbuf.getD Block.null) with
    | .error e => .error e
    | .ok (false, _) => .ok (readFailed id off)
    | .ok (true, dst) =>
      .ok (⟨seekbuf.map fun _ => ⟨.seek, 0⟩, some true⟩,
        { id with seekbufOff := off, seekbufLen := len, seekbuf := seekbuf.map fun _ => dst })

end HeadUnit.Blkid
