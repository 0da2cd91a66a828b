import HeadUnit.Blkid.Cache

/-!
# Probing for a FAT volume

`volume_id_probe_vfat` and `get_attr_volume_id`. The probe tells what it asks for (`Event`); a
division by zero ends it like an access outside of a buffer.
-/

namespace HeadUnit.Blkid

/-! ## Structures on the disk -/

def le16 (byte : Nat → UInt8) (i : Nat) : UInt16 :=
  (byte i).toUInt16 ||| ((byte (i + 1)).toUInt16 <<< 8)

def le32 (byte : Nat → UInt8) (i : Nat) : UInt32 :=
  (le16 byte i).toUInt32 ||| ((le16 byte (i + 2)).toUInt32 <<< 16)

/-- The fields that are used. -/
structure VfatSuperBlock where
  bootJump : Vector UInt8 3
  sysid : List UInt8
  sectorSizeBytes : UInt16
  sectorsPerCluster : UInt8
  reservedSct : UInt16
  fats : UInt8
  dirEntries : UInt16
  sectors : UInt16
  media : UInt8
  fatLength : UInt16
  heads : UInt16
  totalSect : UInt32
  fatMagic : List UInt8
  fat32Length : UInt32
  rootCluster : UInt32
  fat32Magic : List UInt8

/-- `sizeof(struct vfat_super_block)`. Nothing packs the structure, so `sector_size_bytes` is at 12,
not at 11 as in a boot sector. -/
def superBlockSize : Nat := 260

def fat32MagicOffset : Nat := 86

/-- The structure at the offsets that its natural alignment gives. -/
def VfatSuperBlock.ofBytes (byte : Nat → UInt8) : VfatSuperBlock where
  bootJump := #v[byte 0, byte 1, byte 2]
  sysid := (List.range 8).map fun k => byte (3 + k)
  sectorSizeBytes := le16 byte 12
  sectorsPerCluster := byte 14
  reservedSct := le16 byte 16
  fats := byte 18
  dirEntries := le16 byte 20
  sectors := le16 byte 22
  media := byte 24
  fatLength := le16 byte 26
  heads := le16 byte 30
  totalSect := le32 byte 36
  fatMagic := (List.range 8).map fun k => byte (58 + k)
  fat32Length := le32 byte 40
  rootCluster := le32 byte 48
  fat32Magic := (List.range 8).map fun k => byte (fat32MagicOffset + k)

def sizeofDirEntry : Nat := 32

/-- The fields of `struct vfat_dir_entry` that are used. -/
structure VfatDirEntry where
  name0 : UInt8
  attr : UInt8
  clusterHigh : UInt16
  clusterLow : UInt16

def VfatDirEntry.ofBytes (byte : Nat → UInt8) : VfatDirEntry where
  name0 := byte 0
  attr := byte 11
  clusterHigh := le16 byte 20
  clusterLow := le16 byte 26

/-! ## Accesses -/

inductive Crash where
  | fault (f : Fault)
  | divisionByZero

/-- The `size` bytes at `p`, numbered from 0 on. -/
def VolumeId.load (id : VolumeId) (p : Ptr) (size : Nat) : Except Fault (Nat → UInt8) :=
  let b := id.block p.buffer
  if p.offset + size ≤ b.size then .ok fun i => b.byte (p.offset + i)
  else .error ⟨b.size, b.size, Nat.le_refl _⟩

/-- Write `bs` at `p`. -/
def VolumeId.store (id : VolumeId) (p : Ptr) (bs : List UInt8) : Except Fault VolumeId :=
  match (id.block p.buffer).write p.offset bs with
  | .error f => .error f
  | .ok b =>
    match p.buffer with
    | .sb => .ok { id with sbbuf := some b }
    | .seek => .ok { id with seekbuf := some b }

/-! ## The root directory -/

def fatAttrVolumeId : UInt8 := 0x08
def fatAttrDir : UInt8 := 0x10
def fatAttrLongName : UInt8 := 0x0f
def fatAttrMask : UInt8 := 0x3f
def fatEntryFree : UInt8 := 0xe5

/-- The loop of `get_attr_volume_id`, of which `count` rounds are left: the name of the entry found,
or NULL. -/
def getAttrVolumeId (id : VolumeId) (dir : Ptr) : (count : Nat) → Except Fault (Option Ptr)
  | 0 => .ok none
  | count + 1 =>
    match id.load dir sizeofDirEntry with
    | .error f => .error f
    | .ok byte =>
      let entry := VfatDirEntry.ofBytes byte
      let next : Ptr := { dir with offset := dir.offset + sizeofDirEntry }
      if entry.name0 = 0 then .ok none
      else if entry.name0 = fatEntryFree then getAttrVolumeId id next count
      else if entry.attr &&& fatAttrMask = fatAttrLongName then getAttrVolumeId id next count
      else if entry.attr &&& (fatAttrVolumeId ||| fatAttrDir) = fatAttrVolumeId then
        if entry.clusterHigh ≠ 0 ∨ entry.clusterLow ≠ 0 then getAttrVolumeId id next count
        else .ok (some dir)
      else getAttrVolumeId id next count

/-! ## The probe -/

def ntfs : List UInt8 := [0x4E, 0x54, 0x46, 0x53]
def mswin : List UInt8 := [0x4D, 0x53, 0x57, 0x49, 0x4E]
def fat32 : List UInt8 := [0x46, 0x41, 0x54, 0x33, 0x32, 0x20, 0x20, 0x20]
def fat16 : List UInt8 := [0x46, 0x41, 0x54, 0x31, 0x36, 0x20, 0x20, 0x20]
def msdos : List UInt8 := [0x4D, 0x53, 0x44, 0x4F, 0x53]
def fat12 : List UInt8 := [0x46, 0x41, 0x54, 0x31, 0x32, 0x20, 0x20, 0x20]

/-- The tests up to the label `valid`: whether it is reached. -/
def vfatSignature (vs : VfatSuperBlock) : Bool :=
  if vs.sysid.take 4 = ntfs then false
  else if vs.fat32Magic.take 5 = mswin then true
  else if vs.fat32Magic = fat32 then true
  else if vs.fatMagic = fat16 then true
  else if vs.fatMagic.take 5 = msdos then true
  else if vs.fatMagic = fat12 then true
  else if (vs.bootJump[0] ≠ 0xeb ∨ vs.bootJump[2] ≠ 0x90) ∧ vs.bootJump[0] ≠ 0xe9 then false
  else if vs.heads = 0 then false
  else if vs.sectorsPerCluster = 0 ∨ vs.sectorsPerCluster &&& (vs.sectorsPerCluster - 1) ≠ 0 then
    false
  else if vs.media < 0xf8 ∧ vs.media ≠ 0xf0 then false
  else if vs.fats ≠ 2 then false
  else true

/-- What the probe asks for: a range, with its offset in exact arithmetic, and a scan of directory
entries in a buffer. -/
inductive Event where
  | request (exact : Nat) (off : UInt64) (len : Nat)
  | scan (count : Int) (bytes : Nat)
  deriving DecidableEq, Repr

structure Outcome where
  ret : Int
  id : VolumeId
  events : List Event

/-- `a / b`. -/
def divide (a b : UInt32) : Except Crash UInt32 :=
  if b = 0 then .error .divisionByZero else .ok (a / b)

/-- `cluster_count`, which divides twice. -/
def clusterCount (vs : VfatSuperBlock) (fatSizeSct : UInt32) : Except Crash UInt32 := do
  let sectCount := if vs.sectors = 0 then vs.totalSect else vs.sectors.toUInt32
  let dirSize := vs.dirEntries.toUInt32 * 32 + (vs.sectorSizeBytes.toUInt32 - 1)
  let dirSizeSct ← divide dirSize vs.sectorSizeBytes.toUInt32
  divide (sectCount - (vs.reservedSct.toUInt32 + fatSizeSct + dirSizeSct))
    vs.sectorsPerCluster.toUInt32

/-- The variables that the loop over the clusters of the root directory uses. -/
structure ClusterChain where
  startDataSct : UInt32
  bufSize : UInt32
  nextCluster : UInt32
  sectorSizeBytes : UInt16

namespace ClusterChain

variable (c : ClusterChain) (sectorsPerCluster : UInt8)

/-- `next_off`. -/
def nextOff : UInt64 :=
  let nextOffSct := (c.nextCluster - 2).toUInt64 * sectorsPerCluster.toUInt64
  (c.startDataSct.toUInt64 + nextOffSct) * c.sectorSizeBytes.toUInt64

/-- `next_off` without the limits of its type. -/
def exactOff : Nat :=
  let nextOffSct := (c.nextCluster - 2).toNat * sectorsPerCluster.toNat
  (c.startDataSct.toNat + nextOffSct) * c.sectorSizeBytes.toNat

def count : Nat := c.bufSize.toNat / sizeofDirEntry

end ClusterChain

/-- The part behind the loop. -/
def probeEnd (disk : List UInt8) (env : Env) (id : VolumeId) (events : List Event) :
    Except Crash Outcome :=
  match volumeIdGetBuffer disk env id 0 0x200 with
  | .error f => .error (.fault f)
  | .ok (reply, id) =>
    .ok ⟨if reply.ptr = none then -1 else 0, id, events ++ [.request 0 0 0x200]⟩

/-- The loop, of which `rounds` are left; `next_cluster` stays what it is. `call` counts the calls
of `volume_id_get_buffer`. -/
def clusterLoop (disk : List UInt8) (envs : Nat → Env) (vs : Ptr) (c : ClusterChain) :
    (rounds call : Nat) → VolumeId → List Event → Except Crash Outcome
  | 0, call, id, events => probeEnd disk (envs call) id events
  | rounds + 1, call, id, events =>
    match id.load vs superBlockSize with
    | .error f => .error (.fault f)
    | .ok byte =>
      let spc := (VfatSuperBlock.ofBytes byte).sectorsPerCluster
      let events := events ++ [.request (c.exactOff spc) (c.nextOff spc) c.bufSize.toNat]
      match volumeIdGetBuffer disk (envs call) id (c.nextOff spc).toNat c.bufSize.toNat with
      | .error f => .error (.fault f)
      | .ok (⟨none, _⟩, id) => .ok ⟨0, id, events⟩
      | .ok (⟨some buf, _⟩, id) =>
        let events := events ++ [.scan c.count c.bufSize.toNat]
        match getAttrVolumeId id buf c.count with
        | .error f => .error (.fault f)
        | .ok (some _) => probeEnd disk (envs (call + 1)) id events
        | .ok none => clusterLoop disk envs vs c rounds (call + 1) id events

/-- The part behind the label `valid`. -/
def probeValid (disk : List UInt8) (envs : Nat → Env) (p : Ptr) (vs : VfatSuperBlock) (id : VolumeId)
    (events : List Event) : Except Crash Outcome :=
  if vs.sectorSizeBytes ≠ 0x200 ∧ vs.sectorSizeBytes ≠ 0x400 ∧ vs.sectorSizeBytes ≠ 0x800 ∧
      vs.sectorSizeBytes ≠ 0x1000 then .ok ⟨-1, id, events⟩
  else
    let fatSizeSct := (if vs.fatLength = 0 then vs.fat32Length else vs.fatLength.toUInt32) *
      vs.fats.toUInt32
    -- Whether `cluster_count >= FAT16_MAX` or not, what follows is the same.
    match clusterCount vs fatSizeSct with
    | .error e => .error e
    | .ok _ =>
      clusterLoop disk envs p
        { startDataSct := vs.reservedSct.toUInt32 + fatSizeSct
          bufSize := vs.sectorsPerCluster.toUInt32 * vs.sectorSizeBytes.toUInt32
          nextCluster := vs.rootCluster
          sectorSizeBytes := vs.sectorSizeBytes } 99 1 id events

def volumeIdProbeVfat (disk : List UInt8) (envs : Nat → Env) (id : VolumeId) :
    Except Crash Outcome :=
  let events := [.request 0 0 0x200]
  match volumeIdGetBuffer disk (envs 0) id 0 0x200 with
  | .error f => .error (.fault f)
  | .ok (⟨none, _⟩, id) => .ok ⟨-1, id, events⟩
  | .ok (⟨some p, _⟩, id) =>
    match id.store ⟨p.buffer, p.offset + fat32MagicOffset⟩ fat32 with
    | .error f => .error (.fault f)
    | .ok id =>
      match id.load p superBlockSize with
      | .error f => .error (.fault f)
      | .ok byte =>
        let vs := VfatSuperBlock.ofBytes byte
        if vfatSignature vs then probeValid disk envs p vs id events else .ok ⟨-1, id, events⟩

end HeadUnit.Blkid
