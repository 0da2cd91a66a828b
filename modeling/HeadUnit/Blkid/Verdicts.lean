import HeadUnit.Blkid.Coherence
import HeadUnit.Blkid.Probe

/-!
# What the probe accepts

The probe writes a FAT32 magic over the boot sector in its buffer before it tests it. So it refuses
only for the NTFS id or the sector size (`Refused`); the other tests are not reached, and with them
the one for a cluster of no sectors, by which it divides.
-/

namespace HeadUnit.Blkid

variable {disk : List UInt8} {W : Nat → Prop} {envs : Nat → Env} {id : VolumeId}

/-! ## Rules -/

/-- The superblock as it is on the disk. -/
def onDisk (disk : List UInt8) : VfatSuperBlock := .ofBytes fun i => disk.getD i 0

/-- The boot sector is in the buffer or comes there. -/
def SectorRead (disk : List UInt8) (env : Env) (id : VolumeId) : Prop :=
  0x200 ≤ id.sbbufLen ∨ env.Transfers disk 0 0x200

namespace VfatSuperBlock

variable (vs : VfatSuperBlock)

def ValidSectorSize : Prop :=
  vs.sectorSizeBytes = 0x200 ∨ vs.sectorSizeBytes = 0x400 ∨ vs.sectorSizeBytes = 0x800 ∨
    vs.sectorSizeBytes = 0x1000

def Magic : Prop :=
  vs.fat32Magic.take 5 = mswin ∨ vs.fat32Magic = fat32 ∨ vs.fatMagic = fat16 ∨
    vs.fatMagic.take 5 = msdos ∨ vs.fatMagic = fat12

/-- What an old floppy without a magic has. -/
structure Legacy : Prop where
  bootJump : vs.bootJump.get 0 = 0xeb ∧ vs.bootJump.get 2 = 0x90 ∨ vs.bootJump.get 0 = 0xe9
  heads : vs.heads ≠ 0
  clusterSize : ∃ k, vs.sectorsPerCluster.toNat = 2 ^ k
  media : 0xf8 ≤ vs.media ∨ vs.media = 0xf0
  fats : vs.fats = 2

/-- A FAT volume. -/
structure Fat : Prop where
  notNtfs : vs.sysid.take 4 ≠ ntfs
  sectorSize : vs.ValidSectorSize
  evidence : vs.Magic ∨ vs.Legacy

end VfatSuperBlock

/-- The probe returns 0 for FAT volumes only. -/
def AcceptsOnlyFat (disk : List UInt8) (envs : Nat → Env) (id : VolumeId) : Prop :=
  ∀ out, volumeIdProbeVfat disk envs id = .ok out → out.ret = 0 → (onDisk disk).Fat

/-- Nothing wraps around 2^64, and the entries are inside of the buffer. -/
def Event.Defined : Event → Prop
  | .request exact off len => off.toNat = exact ∧ exact + len < 2 ^ 64
  | .scan count bytes => count * sizeofDirEntry ≤ bytes

/-- The probe comes to its end, and all that it asks for is defined. -/
def ArithmeticDefined (disk : List UInt8) (envs : Nat → Env) (id : VolumeId) : Prop :=
  ∃ out, volumeIdProbeVfat disk envs id = .ok out ∧ ∀ e ∈ out.events, e.Defined

/-- There is no boot sector, it has the NTFS id, or its sector size is none of FAT. -/
def Refused (disk : List UInt8) (envs : Nat → Env) (id : VolumeId) : Prop :=
  ¬SectorRead disk (envs 0) id ∨ (onDisk disk).sysid.take 4 = ntfs ∨ ¬(onDisk disk).ValidSectorSize

/-! ## The tests -/

theorem powerOfTwo_iff (spc : UInt8) :
    ¬(spc = 0 ∨ spc &&& (spc - 1) ≠ 0) ↔ ∃ k, spc.toNat = 2 ^ k := by
  have htest : ∀ n : Fin 256,
      (¬(UInt8.ofFin n = 0 ∨ UInt8.ofFin n &&& (UInt8.ofFin n - 1) ≠ 0) ↔
        ∃ k : Fin 8, n.val = 2 ^ k.val) := by decide +kernel
  obtain ⟨⟨n⟩⟩ := spc
  refine (htest n).trans ⟨fun ⟨k, hk⟩ => ⟨k.val, hk⟩, fun ⟨k, hk⟩ => ?_⟩
  have hlt : k < 8 := (Nat.pow_lt_pow_iff_right (by decide : 1 < 2)).mp (hk ▸ n.isLt)
  exact ⟨⟨k, hlt⟩, hk⟩

/-- On a sector that nothing is written to, the tests are for a magic or for all of the known
values. -/
theorem vfatSignature_iff (vs : VfatSuperBlock) :
    vfatSignature vs = true ↔ vs.sysid.take 4 ≠ ntfs ∧ (vs.Magic ∨ vs.Legacy) := by
  have hrefuse (p : Prop) [Decidable p] (b : Bool) :
      (if p then false else b) = true ↔ ¬p ∧ b = true := by simp
  have haccept (p : Prop) [Decidable p] (b : Bool) :
      (if p then true else b) = true ↔ p ∨ b = true := by simp
  have hjump : ¬((vs.bootJump[0] ≠ 0xeb ∨ vs.bootJump[2] ≠ 0x90) ∧ vs.bootJump[0] ≠ 0xe9) ↔
      vs.bootJump[0] = 0xeb ∧ vs.bootJump[2] = 0x90 ∨ vs.bootJump[0] = 0xe9 := by
    rw [not_and_or, not_or, ne_eq, ne_eq, ne_eq, not_not, not_not, not_not]
  have hmedia : ¬(vs.media < 0xf8 ∧ vs.media ≠ 0xf0) ↔ 0xf8 ≤ vs.media ∨ vs.media = 0xf0 := by
    rw [not_and_or, UInt8.not_lt, ne_eq, not_not]
  have hlegacy : vs.Legacy ↔
      (vs.bootJump[0] = 0xeb ∧ vs.bootJump[2] = 0x90 ∨ vs.bootJump[0] = 0xe9) ∧ ¬vs.heads = 0 ∧
        (∃ k, vs.sectorsPerCluster.toNat = 2 ^ k) ∧ (0xf8 ≤ vs.media ∨ vs.media = 0xf0) ∧
        vs.fats = 2 := by
    constructor
    · intro h
      exact ⟨h.bootJump, h.heads, h.clusterSize, h.media, h.fats⟩
    · rintro ⟨hboot, hheads, hcluster, hmedia, hfats⟩
      exact ⟨hboot, hheads, hcluster, hmedia, hfats⟩
  rw [vfatSignature]
  simp only [hrefuse, haccept]
  rw [hjump, hmedia, powerOfTwo_iff, ne_eq (a := vs.fats), not_not, hlegacy, VfatSuperBlock.Magic]
  simp only [and_true, or_assoc, ne_eq]

/-- With the FAT32 magic, only the id of NTFS counts. -/
theorem vfatSignature_fat32 (vs : VfatSuperBlock) :
    vfatSignature { vs with fat32Magic := fat32 } = true ↔ vs.sysid.take 4 ≠ ntfs := by
  rw [vfatSignature_iff]
  exact and_iff_left (.inl (.inr (.inl rfl)))

/-! ## Accesses -/

theorem load_eq_ok {p : Ptr} {size : Nat} (h : p.offset + size ≤ (id.block p.buffer).size) :
    id.load p size = .ok fun i => (id.block p.buffer).byte (p.offset + i) := if_pos h

theorem load_sector (hfits : id.sbbufLen ≤ (id.block .sb).size) (hlen : 0x200 ≤ id.sbbufLen) :
    id.load ⟨.sb, 0⟩ superBlockSize = .ok fun i => (id.block .sb).byte (0 + i) := by
  have hsize : superBlockSize ≤ 0x200 := by decide
  exact load_eq_ok (by dsimp only; omega)

/-- The bytes that the probe writes. -/
def Overwritten (i : Nat) : Prop := fat32MagicOffset ≤ i ∧ i < fat32MagicOffset + 8

/-- The magic goes into the superblock buffer, which otherwise stays as it is. -/
theorem store_magic (h : Coherent disk (fun _ => False) id) (hlen : 0x200 ≤ id.sbbufLen) :
    ∃ id', id.store ⟨.sb, fat32MagicOffset⟩ fat32 = .ok id' ∧ Coherent disk Overwritten id' ∧
      id'.sbbufLen = id.sbbufLen ∧
      ∀ k, k < 8 → (id'.block .sb).byte (fat32MagicOffset + k) = fat32.getD k 0 := by
  have hfits := h.sb.fits
  have hwrite : (id.block .sb).write fat32MagicOffset fat32 =
      .ok ((id.block .sb).put fat32MagicOffset fat32) :=
    Block.write_eq_ok (by show 86 + 8 ≤ _; omega)
  rw [VolumeId.store]
  dsimp only
  rw [hwrite]
  refine ⟨_, rfl, ⟨?_, ⟨hfits, fun i hi hW => ?_⟩, h.sb_le, ⟨h.seek.fits, ?_⟩, h.seek_le, h.seek_end⟩,
    rfl, fun k hk => ?_⟩
  · intro b hb
    cases hb
    rw [Block.put_size, VolumeId.block]
    cases hbuf : id.sbbuf with
    | none =>
      rw [VolumeId.block, hbuf] at hfits
      exact absurd (Nat.le_trans hlen hfits) (by decide)
    | some b => exact h.sb_size b hbuf
  · rw [Nat.zero_add] at hW ⊢
    have hbyte := h.sb.bytes i hi not_false
    rw [Nat.zero_add] at hbyte
    exact hbyte.trans (congrArg some (if_neg hW).symm)
  · exact fun i hi _ => h.seek.bytes i hi not_false
  · show (if _ then _ else _) = _
    rw [if_pos ⟨Nat.le_add_right .., Nat.add_lt_add_left hk _⟩, Nat.add_sub_cancel_left]

/-- What is read of a structure depends on its own bytes. -/
theorem VfatSuperBlock.ofBytes_eq {byte sector : Nat → UInt8}
    (h : ∀ i, i < superBlockSize → ¬Overwritten i → byte i = sector i)
    (hmagic : ∀ k, k < 8 → byte (fat32MagicOffset + k) = fat32.getD k 0) :
    ofBytes byte = { ofBytes sector with fat32Magic := fat32 } := by
  have hbyte (i : Nat) (hi : i < 86) : byte i = sector i :=
    h i (Nat.lt_trans hi (by decide)) fun hW => Nat.not_lt.mpr hW.1 hi
  have hbytes (off : Nat) (hoff : off + 8 ≤ 86) :
      (List.range 8).map (fun k => byte (off + k)) = (List.range 8).map fun k => sector (off + k) :=
    List.map_congr_left fun k hk => hbyte _ (by have := List.mem_range.mp hk; omega)
  have h16 (i : Nat) (hi : i + 1 < 86) : le16 byte i = le16 sector i := by
    rw [le16, le16, hbyte i (by omega), hbyte (i + 1) hi]
  have h32 (i : Nat) (hi : i + 3 < 86) : le32 byte i = le32 sector i := by
    rw [le32, le32, h16 i (by omega), h16 (i + 2) hi]
  have hfat32 : (List.range 8).map (fun k => byte (fat32MagicOffset + k)) = fat32 :=
    (List.map_congr_left fun k hk => hmagic k (List.mem_range.mp hk)).trans (by decide)
  rw [ofBytes, ofBytes, hfat32]
  simp (disch := decide) only [hbyte, hbytes, h16, h32]

/-- The superblock that the probe tests. -/
theorem load_superBlock (h : Coherent disk Overwritten id) (hlen : 0x200 ≤ id.sbbufLen)
    (hmagic : ∀ k, k < 8 → (id.block .sb).byte (fat32MagicOffset + k) = fat32.getD k 0) :
    ∃ byte, id.load ⟨.sb, 0⟩ superBlockSize = .ok byte ∧
      VfatSuperBlock.ofBytes byte = { onDisk disk with fat32Magic := fat32 } := by
  refine ⟨_, load_sector h.sb.fits hlen, VfatSuperBlock.ofBytes_eq ?_ ?_⟩
  · intro i hi hW
    have hbyte := h.sb.bytes i (Nat.lt_of_lt_of_le hi (Nat.le_trans (by decide) hlen))
      (by rwa [Nat.zero_add])
    rw [Nat.zero_add] at hbyte
    rw [Nat.zero_add, List.getD_eq_getElem?_getD, hbyte]
    rfl
  · intro k hk
    rw [Nat.zero_add]
    exact hmagic k hk

/-! ## The loop -/

theorem getAttrVolumeId_total {dir : Ptr} {count : Nat}
    (h : dir.offset + count * sizeofDirEntry ≤ (id.block dir.buffer).size) :
    ∃ name, getAttrVolumeId id dir count = .ok name := by
  induction count generalizing dir with
  | zero => exact ⟨none, rfl⟩
  | succ count ih =>
    rw [Nat.add_one_mul] at h
    obtain ⟨name, hnext⟩ := @ih { dir with offset := dir.offset + sizeofDirEntry }
      (by dsimp only; omega)
    rw [getAttrVolumeId, load_eq_ok (by omega)]
    dsimp only
    repeat' split
    all_goals first | exact ⟨_, rfl⟩ | exact ⟨name, hnext⟩

namespace ClusterChain

variable (c : ClusterChain) (spc : UInt8)

theorem nextOffSct_le : (c.nextCluster - 2).toNat * spc.toNat ≤ 2 ^ 32 * 2 ^ 8 :=
  Nat.mul_le_mul (Nat.le_of_lt (UInt32.toNat_lt _)) (Nat.le_of_lt (UInt8.toNat_lt _))

theorem exactOff_lt : c.exactOff spc < 2 ^ 57 :=
  calc c.exactOff spc
      ≤ (2 ^ 32 + 2 ^ 32 * 2 ^ 8) * 2 ^ 16 :=
        Nat.mul_le_mul (Nat.add_le_add (Nat.le_of_lt (UInt32.toNat_lt _)) (c.nextOffSct_le spc))
          (Nat.le_of_lt (UInt16.toNat_lt _))
    _ < 2 ^ 57 := by decide

/-- The offset of a cluster does not wrap around. -/
theorem nextOff_toNat : (c.nextOff spc).toNat = c.exactOff spc := by
  have hlt := c.exactOff_lt spc
  have hstart : c.startDataSct.toNat < 2 ^ 32 := c.startDataSct.toNat_lt
  have hprod := c.nextOffSct_le spc
  have hmul : (c.nextCluster - 2).toNat * spc.toNat % 2 ^ 64 =
      (c.nextCluster - 2).toNat * spc.toNat := Nat.mod_eq_of_lt (by omega)
  have hadd : (c.startDataSct.toNat + (c.nextCluster - 2).toNat * spc.toNat) % 2 ^ 64 =
      c.startDataSct.toNat + (c.nextCluster - 2).toNat * spc.toNat := Nat.mod_eq_of_lt (by omega)
  rw [nextOff, UInt64.toNat_mul, UInt64.toNat_add, UInt64.toNat_mul, UInt32.toNat_toUInt64,
    UInt32.toNat_toUInt64, UInt8.toNat_toUInt64, UInt16.toNat_toUInt64, hmul, hadd]
  exact Nat.mod_eq_of_lt (Nat.lt_trans hlt (Nat.pow_lt_pow_right (by decide) (by decide)))

end ClusterChain

/-- The superblock is in the buffer. -/
structure HoldsSector (disk : List UInt8) (W : Nat → Prop) (id : VolumeId) : Prop where
  coherent : Coherent disk W id
  sector : 0x200 ≤ id.sbbufLen

theorem forall_mem_snoc {P : Event → Prop} {events : List Event} {e : Event}
    (h : ∀ e ∈ events, P e) (he : P e) : ∀ e' ∈ events ++ [e], P e' :=
  List.forall_mem_append.mpr ⟨h, List.forall_mem_singleton.mpr he⟩

theorem request_sector_defined : Event.Defined (.request 0 0 0x200) := ⟨rfl, by decide⟩

theorem probeEnd_spec (h : HoldsSector disk W id) (env : Env) {events : List Event}
    (he : ∀ e ∈ events, e.Defined) :
    ∃ out, probeEnd disk env id events = .ok out ∧ out.ret = 0 ∧ ∀ e ∈ out.events, e.Defined := by
  obtain ⟨reply, id', hcall, -, -, hiff⟩ :=
    getBuffer_sb_served h.coherent env (show 0 + 0x200 ≤ sbBufferSize by decide)
  have hptr : reply.ptr ≠ none := hiff.mpr (.inl h.sector)
  rw [probeEnd, hcall]
  exact ⟨_, rfl, if_neg hptr, forall_mem_snoc he request_sector_defined⟩

/-- Whatever the directory is, the loop comes to its end and the probe to the result 0. -/
theorem clusterLoop_spec (c : ClusterChain) {rounds call : Nat} {events : List Event}
    (h : HoldsSector disk W id) (he : ∀ e ∈ events, e.Defined) :
    ∃ out, clusterLoop disk envs ⟨.sb, 0⟩ c rounds call id events = .ok out ∧ out.ret = 0 ∧
      ∀ e ∈ out.events, e.Defined := by
  induction rounds generalizing call id events with
  | zero => exact probeEnd_spec h (envs call) he
  | succ rounds ih =>
    rw [clusterLoop, load_sector h.coherent.sb.fits h.sector]
    dsimp only
    generalize (VfatSuperBlock.ofBytes _).sectorsPerCluster = spc
    have hoff := c.exactOff_lt spc
    have hbuf : c.bufSize.toNat < 2 ^ 32 := c.bufSize.toNat_lt
    have hrequest : Event.Defined (.request (c.exactOff spc) (c.nextOff spc) c.bufSize.toNat) :=
      ⟨c.nextOff_toNat spc, by omega⟩
    have hscan : Event.Defined (.scan c.count c.bufSize.toNat) := by
      show (c.count : Int) * ↑sizeofDirEntry ≤ ↑c.bufSize.toNat
      exact_mod_cast Nat.div_mul_le_self _ _
    rw [c.nextOff_toNat]
    have hrange : c.exactOff spc + c.bufSize.toNat < 2 ^ 63 := by omega
    obtain ⟨⟨ptr, transfer⟩, id', hcall, hserved⟩ :=
      volumeIdGetBuffer_served h.coherent (envs call) hrange
    rw [hcall]
    cases ptr with
    | none => exact ⟨_, rfl, rfl, forall_mem_snoc he hrequest⟩
    | some buf =>
      have hpoints := hserved.points buf rfl
      have hcount : c.count * sizeofDirEntry ≤ c.bufSize.toNat := Nat.div_mul_le_self _ _
      obtain ⟨name, hname⟩ := @getAttrVolumeId_total id' buf c.count
        (by have := hpoints.valid; have := hpoints.inside; omega)
      have hholds : HoldsSector disk W id' :=
        ⟨hserved.coherent, Nat.le_trans h.sector (hserved.kept nofun)⟩
      dsimp only
      rw [hname]
      have he' := forall_mem_snoc (forall_mem_snoc he hrequest) hscan
      cases name with
      | some name => exact probeEnd_spec hholds _ he'
      | none => exact ih hholds he'

/-! ## The probe -/

/-- The probe on a boot sector that is read. -/
theorem probe_eq (h : Coherent disk (fun _ => False) id) (hread : SectorRead disk (envs 0) id) :
    ∃ id', HoldsSector disk Overwritten id' ∧
      volumeIdProbeVfat disk envs id =
        if (onDisk disk).sysid.take 4 ≠ ntfs then
          probeValid disk envs ⟨.sb, 0⟩ { onDisk disk with fat32Magic := fat32 } id'
            [.request 0 0 0x200]
        else .ok ⟨-1, id', [.request 0 0 0x200]⟩ := by
  obtain ⟨⟨ptr, transfer⟩, id₁, hcall, hserved, hsb, hiff⟩ :=
    getBuffer_sb_served h (envs 0) (show 0 + 0x200 ≤ sbBufferSize by decide)
  have hptr : ptr = some ⟨.sb, 0⟩ := hsb (hiff.mpr hread)
  subst hptr
  have hlen : 0x200 ≤ id₁.sbbufLen := (hserved.points _ rfl).valid
  obtain ⟨id', hstore, hcoherent, hlen', hmagic⟩ := store_magic hserved.coherent hlen
  obtain ⟨byte, hload, hvs⟩ := load_superBlock hcoherent (hlen' ▸ hlen) hmagic
  refine ⟨id', ⟨hcoherent, hlen' ▸ hlen⟩, ?_⟩
  rw [volumeIdProbeVfat, hcall]
  dsimp only
  rw [Nat.zero_add, hstore]
  dsimp only
  rw [hload]
  dsimp only
  rw [hvs]
  exact if_congr (vfatSignature_fat32 _) rfl rfl

/-- Without a boot sector. -/
theorem probe_unread (h : Coherent disk (fun _ => False) id)
    (hread : ¬SectorRead disk (envs 0) id) :
    ∃ id', volumeIdProbeVfat disk envs id = .ok ⟨-1, id', [.request 0 0 0x200]⟩ := by
  obtain ⟨⟨ptr, transfer⟩, id', hcall, -, -, hiff⟩ :=
    getBuffer_sb_served h (envs 0) (show 0 + 0x200 ≤ sbBufferSize by decide)
  have hptr : ptr = none := not_not.mp (mt hiff.mp hread)
  subst hptr
  rw [volumeIdProbeVfat, hcall]
  exact ⟨id', rfl⟩

theorem probe_refused (h : Coherent disk (fun _ => False) id) (hr : Refused disk envs id) :
    ∃ id', volumeIdProbeVfat disk envs id = .ok ⟨-1, id', [.request 0 0 0x200]⟩ := by
  by_cases hread : SectorRead disk (envs 0) id
  · obtain ⟨id', -, hprobe⟩ := probe_eq h hread
    rw [hprobe]
    split
    case isTrue hntfs =>
      have hsize := (hr.resolve_left (not_not.mpr hread)).resolve_left hntfs
      rw [probeValid, if_pos]
      · exact ⟨id', rfl⟩
      · rwa [VfatSuperBlock.ValidSectorSize, not_or, not_or, not_or] at hsize
    case isFalse => exact ⟨id', rfl⟩
  · exact probe_unread h hread

theorem divide_eq {a b : UInt32} (h : b ≠ 0) : divide a b = .ok (a / b) := if_neg h

theorem VfatSuperBlock.ValidSectorSize.ne_zero {vs : VfatSuperBlock} (h : vs.ValidSectorSize) :
    vs.sectorSizeBytes.toUInt32 ≠ 0 := by
  rcases h with h | h | h | h <;> rw [h] <;> decide

/-- A sector size that is one of FAT's leads to the division by the size of a cluster. -/
theorem clusterCount_eq {vs : VfatSuperBlock} (h : vs.ValidSectorSize) (fatSizeSct : UInt32) :
    ∃ n, clusterCount vs fatSizeSct = divide n vs.sectorsPerCluster.toUInt32 := by
  rw [clusterCount, divide_eq h.ne_zero]
  exact ⟨_, rfl⟩

theorem toUInt32_eq_zero_iff (spc : UInt8) : spc.toUInt32 = 0 ↔ spc = 0 := by
  rw [← UInt32.toNat_inj, ← UInt8.toNat_inj, UInt8.toNat_toUInt32]
  rfl

/-- Behind the label `valid`, with a sector size of FAT. -/
theorem probeValid_spec {vs : VfatSuperBlock} (hsize : vs.ValidSectorSize)
    (h : HoldsSector disk W id) {events : List Event} (he : ∀ e ∈ events, e.Defined) :
    if vs.sectorsPerCluster = 0 then
      probeValid disk envs ⟨.sb, 0⟩ vs id events = .error .divisionByZero
    else ∃ out, probeValid disk envs ⟨.sb, 0⟩ vs id events = .ok out ∧ out.ret = 0 ∧
      ∀ e ∈ out.events, e.Defined := by
  have hsize' : ¬(vs.sectorSizeBytes ≠ 0x200 ∧ vs.sectorSizeBytes ≠ 0x400 ∧
      vs.sectorSizeBytes ≠ 0x800 ∧ vs.sectorSizeBytes ≠ 0x1000) := by
    rwa [← not_or, ← not_or, ← not_or, not_not]
  obtain ⟨n, hcount⟩ := clusterCount_eq hsize
    ((if vs.fatLength = 0 then vs.fat32Length else vs.fatLength.toUInt32) * vs.fats.toUInt32)
  rw [probeValid, if_neg hsize']
  dsimp only
  rw [hcount]
  split
  case isTrue hspc => rw [divide, if_pos ((toUInt32_eq_zero_iff _).mpr hspc)]
  case isFalse hspc =>
    rw [divide_eq (mt (toUInt32_eq_zero_iff _).mp hspc)]
    exact clusterLoop_spec _ h he

/-- Any other boot sector gets to the division, and behind it to the result 0. -/
theorem probe_accepts (h : Coherent disk (fun _ => False) id) (hr : ¬Refused disk envs id) :
    if (onDisk disk).sectorsPerCluster = 0 then
      volumeIdProbeVfat disk envs id = .error .divisionByZero
    else ∃ out, volumeIdProbeVfat disk envs id = .ok out ∧ out.ret = 0 ∧
      ∀ e ∈ out.events, e.Defined := by
  rw [Refused, not_or, not_or, not_not, not_not] at hr
  obtain ⟨hread, hntfs, hsize⟩ := hr
  obtain ⟨id', hholds, hprobe⟩ := probe_eq h hread
  rw [hprobe, if_pos hntfs]
  have hvs : VfatSuperBlock.ValidSectorSize { onDisk disk with fat32Magic := fat32 } := hsize
  exact probeValid_spec hvs hholds (List.forall_mem_singleton.mpr request_sector_defined)

/-- The probe keeps its promise on exactly these disks: those it refuses, those it crashes on and
those that hold a FAT volume. -/
theorem acceptsOnlyFat_iff (h : Coherent disk (fun _ => False) id) :
    AcceptsOnlyFat disk envs id ↔
      Refused disk envs id ∨ (onDisk disk).sectorsPerCluster = 0 ∨
        (onDisk disk).Magic ∨ (onDisk disk).Legacy := by
  by_cases hr : Refused disk envs id
  · obtain ⟨id', hprobe⟩ := probe_refused h hr
    refine iff_of_true (fun out hout hret => ?_) (.inl hr)
    rw [hprobe] at hout
    cases hout
    cases hret
  · have hprobe := probe_accepts h hr
    rw [or_iff_right hr]
    split at hprobe
    case isTrue hspc =>
      refine iff_of_true (fun out hout => ?_) (.inl hspc)
      rw [hprobe] at hout
      cases hout
    case isFalse hspc =>
      obtain ⟨out, hout, hret, -⟩ := hprobe
      rw [or_iff_right hspc]
      rw [Refused, not_or, not_or, not_not, not_not] at hr
      constructor
      · exact fun haccepts => (haccepts out hout hret).evidence
      · exact fun hevidence _ _ _ => ⟨hr.2.1, hr.2.2, hevidence⟩

/-- A boot sector with a sector size, a cluster size and a text where FAT32 has its magic. -/
def bootSector (spc : UInt8) (magic : List UInt8) : List UInt8 :=
  List.replicate 13 0 ++ [2, spc] ++ List.replicate 71 0 ++ magic ++ List.replicate 418 0

/-- Every call of `read` takes what is asked for. -/
def readsAll : Nat → Env := fun _ => ⟨true, [.upTo 0x200], fun _ => 0⟩

theorem bootSector_not_refused (spc : UInt8) (magic : List UInt8) (h : magic.length = 8) :
    ¬Refused (bootSector spc magic) readsAll .init := by
  have hlen : (bootSector spc magic).length = 512 := by
    simp only [bootSector, List.length_append, List.length_replicate, List.length_cons,
      List.length_nil, h]
  rw [Refused, not_or, not_or, not_not, not_not]
  have hsysid : (onDisk (bootSector spc magic)).sysid.take 4 = [0, 0, 0, 0] := rfl
  have hsize : (onDisk (bootSector spc magic)).sectorSizeBytes =
      (0 : UInt8).toUInt16 ||| ((2 : UInt8).toUInt16 <<< 8) := rfl
  refine ⟨.inr ⟨rfl, .inr (by omega), trivial⟩, ?_, .inl ?_⟩
  · rw [hsysid]
    decide
  · rw [hsize]
    decide

/-- A FAT32 volume. -/
theorem acceptsOnlyFat_iff_fat32 : AcceptsOnlyFat (bootSector 1 fat32) readsAll .init :=
  (acceptsOnlyFat_iff (coherent_init _ _)).mpr (.inr (.inr (.inl (.inr (.inl (by decide))))))

/-- A disk without any evidence is accepted. -/
theorem not_acceptsOnlyFat_blank :
    ¬AcceptsOnlyFat (bootSector 1 (List.replicate 8 0)) readsAll .init := by
  intro haccepts
  have hprobe := probe_accepts (coherent_init _ _)
    (bootSector_not_refused 1 (List.replicate 8 0) rfl)
  rw [if_neg (by decide)] at hprobe
  obtain ⟨out, hout, hret, -⟩ := hprobe
  have hfat := haccepts out hout hret
  exact absurd ((vfatSignature_iff _).mpr ⟨hfat.notNtfs, hfat.evidence⟩) (by decide)

/-- The division is the only operation that may be undefined. -/
theorem arithmeticDefined_iff (h : Coherent disk (fun _ => False) id) :
    ArithmeticDefined disk envs id ↔
      Refused disk envs id ∨ (onDisk disk).sectorsPerCluster ≠ 0 := by
  by_cases hr : Refused disk envs id
  · obtain ⟨id', hprobe⟩ := probe_refused h hr
    exact iff_of_true ⟨_, hprobe, List.forall_mem_singleton.mpr request_sector_defined⟩ (.inl hr)
  · have hprobe := probe_accepts h hr
    rw [or_iff_right hr]
    split at hprobe
    case isTrue hspc =>
      refine iff_of_false (fun ⟨out, hout, _⟩ => ?_) (not_not.mpr hspc)
      rw [hprobe] at hout
      cases hout
    case isFalse hspc =>
      obtain ⟨out, hout, -, hdefined⟩ := hprobe
      exact iff_of_true ⟨out, hout, hdefined⟩ hspc

theorem arithmeticDefined_iff_fat32 : ArithmeticDefined (bootSector 1 fat32) readsAll .init :=
  (arithmeticDefined_iff (coherent_init _ _)).mpr (.inr (by decide))

/-- Clusters of no sectors. -/
theorem not_arithmeticDefined_noSectors :
    ¬ArithmeticDefined (bootSector 0 fat32) readsAll .init := by
  rintro ⟨out, hout, -⟩
  have hprobe := probe_accepts (coherent_init _ _)
    (bootSector_not_refused 0 fat32 rfl)
  rw [if_pos (by decide), hout] at hprobe
  cases hprobe

end HeadUnit.Blkid
