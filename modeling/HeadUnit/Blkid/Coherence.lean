import HeadUnit.Blkid.Cache
import HeadUnit.Std.Machine

/-!
# The read cache returns the disk's bytes

Each buffer holds, as far as its recorded length goes, the bytes of the disk (`Coherent`), apart
from those that a caller has overwritten. A failed transfer leaves a buffer half filled, and empties
both.
-/

namespace HeadUnit.Blkid

variable {disk : List UInt8} {W : Nat → Prop} {id id' : VolumeId} {off len : Nat}

/-- The first `len` bytes of `b` are those of the disk from `off` on, apart from those in `W`. -/
structure Mirrors (disk : List UInt8) (W : Nat → Prop) (off len : Nat) (b : Block) : Prop where
  fits : len ≤ b.size
  bytes : ∀ i, i < len → ¬W (off + i) → disk[off + i]? = some (b.byte i)

/-- What every call keeps. -/
structure Coherent (disk : List UInt8) (W : Nat → Prop) (id : VolumeId) : Prop where
  sb_size : ∀ b, id.sbbuf = some b → b.size = sbBufferSize
  sb : Mirrors disk W 0 id.sbbufLen (id.block .sb)
  sb_le : id.sbbufLen ≤ sbBufferSize
  seek : Mirrors disk W id.seekbufOff id.seekbufLen (id.block .seek)
  seek_le : id.seekbufLen ≤ seekBufferSize
  seek_end : id.seekbufOff + id.seekbufLen < 2 ^ 63

def VolumeId.Empty (id : VolumeId) : Prop :=
  (id.sbbuf = none ∧ id.sbbufLen = 0) ∧ id.seekbuf = none ∧ id.seekbufLen = 0

def VolumeId.validLen (id : VolumeId) : Buffer → Nat
  | .sb => id.sbbufLen
  | .seek => id.seekbufLen

/-- `p` points at `len` bytes in the valid part of its buffer, which are those of the disk from
`off` on apart from those in `W`. -/
structure PointsAt (disk : List UInt8) (W : Nat → Prop) (id : VolumeId) (p : Ptr) (off len : Nat) :
    Prop where
  valid : p.offset + len ≤ id.validLen p.buffer
  inside : id.validLen p.buffer ≤ (id.block p.buffer).size
  bytes : ∀ i, i < len → ¬W (off + i) →
    disk[off + i]? = some ((id.block p.buffer).byte (p.offset + i))

/-- The calls of `read` deliver `len` bytes of a disk that has them. -/
def Delivers : List ReadOutcome → (len : Nat) → Prop
  | _, 0 => True
  | [], _ + 1 => False
  | .interrupted :: reads, len + 1 => Delivers reads (len + 1)
  | .failed :: _, _ + 1 => False
  | .upTo 0 :: _, _ + 1 => False
  | .upTo (k + 1) :: reads, len + 1 => Delivers reads (len - k)

/-- The transfer from the disk succeeds. -/
def Env.Transfers (disk : List UInt8) (env : Env) (off len : Nat) : Prop :=
  env.seekOk = true ∧ (len = 0 ∨ off + len ≤ disk.length) ∧ Delivers env.reads len

/-! ## Reading -/

theorem safeRead_some {pos count : Nat} {reads rest : List ReadOutcome} {bs : List UInt8}
    (h : safeRead disk pos count reads = (some bs, rest)) :
    bs.length ≤ count ∧ bs = (disk.drop pos).take bs.length := by
  induction reads with
  | nil => cases h
  | cons r reads ih =>
    cases r with
    | interrupted => exact ih h
    | failed => cases h
    | upTo k =>
      cases h
      refine ⟨Nat.le_trans (List.length_take_le _ _) (Nat.min_le_right k count), ?_⟩
      rw [List.length_take, ← List.take_eq_take_min]

/-- A call of `safe_read` within the disk is a step of the delivery. -/
theorem safeRead_delivers {pos : Nat} {reads rest : List ReadOutcome} {r : Option (List UInt8)}
    (hlen : len ≠ 0) (hdisk : pos + len ≤ disk.length)
    (h : safeRead disk pos len reads = (r, rest)) :
    Delivers reads len ↔ ∃ bs, r = some bs ∧ bs ≠ [] ∧ Delivers rest (len - bs.length) := by
  obtain ⟨n, rfl⟩ := Nat.exists_eq_succ_of_ne_zero hlen
  induction reads with
  | nil =>
    cases h
    exact ⟨False.elim, nofun⟩
  | cons o reads ih =>
    cases o with
    | interrupted => exact ih h
    | failed =>
      cases h
      exact ⟨False.elim, nofun⟩
    | upTo k =>
      cases h
      have hbs : ((disk.drop pos).take (min k (n + 1))).length = min k (n + 1) := by
        rw [List.length_take, List.length_drop]
        omega
      cases k with
      | zero => simp [Delivers]
      | succ k =>
        have hleft : n + 1 - min (k + 1) (n + 1) = n - k := by omega
        constructor
        · refine fun hrest => ⟨_, rfl, List.ne_nil_of_length_pos (by rw [hbs]; omega), ?_⟩
          rwa [hbs, hleft]
        · rintro ⟨bs, ⟨⟩, -, hrest⟩
          rwa [hbs, hleft] at hrest

/-- The loop stays inside of its buffer. It returns the length asked for where that much is
delivered, and the bytes are there then. -/
theorem fullRead_spec (disk : List UInt8) (pos len total : Nat) (dst : Block)
    (reads : List ReadOutcome) (h : total + len ≤ dst.size) :
    ∃ n dst', fullRead disk pos len total dst reads = .ok (n, dst') ∧ dst'.size = dst.size ∧
      (n = ↑(total + len) ↔ (len = 0 ∨ pos + len ≤ disk.length) ∧ Delivers reads len) ∧
      (n = ↑(total + len) → dst'.view 0 (total + len) =
        dst.view 0 total ++ (disk.drop pos).take len) := by
  fun_induction fullRead disk pos len total dst reads with
  | case1 pos total dst reads =>
    refine ⟨total, dst, rfl, rfl, iff_of_true rfl ⟨.inl rfl, ?_⟩, fun _ => ?_⟩
    · cases reads <;> trivial
    · rw [List.take_zero, List.append_nil, Nat.add_zero]
  | case2 pos len total dst reads hlen rest hread =>
    have hn : (if total ≠ 0 then ↑total else -1 : Int) ≠ ↑(total + len) := by
      split <;> omega
    refine ⟨_, dst, rfl, rfl, iff_of_false hn fun ⟨hdisk, hdelivers⟩ => ?_, fun h => absurd h hn⟩
    obtain ⟨bs, hbs, -⟩ := (safeRead_delivers hlen (hdisk.resolve_left hlen) hread).mp hdelivers
    cases hbs
  | case3 pos len total dst reads hlen rest hread =>
    have hn : (total : Int) ≠ ↑(total + len) := by omega
    refine ⟨_, dst, rfl, rfl, iff_of_false hn fun ⟨hdisk, hdelivers⟩ => ?_, fun h => absurd h hn⟩
    obtain ⟨bs, hbs, hne, -⟩ :=
      (safeRead_delivers hlen (hdisk.resolve_left hlen) hread).mp hdelivers
    cases hbs
    exact hne rfl
  | case4 pos len total dst reads hlen c cs rest hread e hwrite =>
    obtain ⟨hle, -⟩ := safeRead_some hread
    rw [List.length_cons] at hle
    rw [Block.write_eq_ok (by simp only [List.length_cons]; omega)] at hwrite
    cases hwrite
  | case5 pos len total dst reads hlen c cs rest hread cc dst₁ hwrite ih =>
    obtain ⟨hle, hbytes⟩ := safeRead_some hread
    have hcc : (c :: cs).length = cc := rfl
    have hpos : 0 < cc := Nat.succ_pos _
    rw [hcc] at hle hbytes
    rw [Block.write_eq_ok (by omega)] at hwrite
    cases hwrite
    obtain ⟨n, dst', hrun, hsize, hiff, hall⟩ := ih (by rw [Block.put_size]; omega)
    have hstop : total + cc + (len - cc) = total + len := by omega
    rw [hstop] at hiff hall
    refine ⟨n, dst', hrun, hsize, hiff.trans ?_, fun hn => ?_⟩
    · have hread' : cc ≤ disk.length - pos := by
        have hlen' := congrArg List.length hbytes
        rw [List.length_take, List.length_drop, hcc] at hlen'
        omega
      by_cases hdisk : pos + len ≤ disk.length
      · have hstep := safeRead_delivers hlen hdisk hread
        simp only [Option.some.injEq, exists_eq_left', hcc, ne_eq, reduceCtorEq,
          not_false_eq_true, true_and] at hstep
        rw [hstep]
        exact and_congr_left fun _ => iff_of_true (.inr (by omega)) (.inr hdisk)
      · exact iff_of_false (fun hleft => hleft.1.elim (by omega) (by omega)) (fun hright => by omega)
    · rw [hall hn, ← hcc, Block.view_put_append, List.append_assoc, hcc, hbytes, ← List.drop_drop,
        ← List.take_add]
      congr 2
      omega

/-! ## One call -/

theorem Mirrors.empty (disk : List UInt8) (W : Nat → Prop) (off : Nat) (b : Block) :
    Mirrors disk W off 0 b :=
  ⟨Nat.zero_le _, fun _ hi => absurd hi (Nat.not_lt_zero _)⟩

theorem Mirrors.of_view {b : Block} (hfits : len ≤ b.size)
    (h : b.view 0 len = (disk.drop off).take len) : Mirrors disk W off len b where
  fits := hfits
  bytes i hi _ := by
    have hget := congrArg (·[i]?) h
    rw [Block.view_getElem?, if_pos hi, Nat.zero_add, List.getElem?_take_of_lt hi,
      List.getElem?_drop] at hget
    exact hget.symm

/-- A piece of what a buffer mirrors. -/
theorem Mirrors.piece {start total at' : Nat} {b : Block} (h : Mirrors disk W start total b)
    (hle : at' + len ≤ total) (i : Nat) (hi : i < len) (hW : ¬W (start + at' + i)) :
    disk[start + at' + i]? = some (b.byte (at' + i)) := by
  rw [Nat.add_assoc] at hW ⊢
  exact h.bytes (at' + i) (by omega) hW

/-- Without overwritten bytes. -/
theorem PointsAt.view_eq {p : Ptr} (h : PointsAt disk (fun _ => False) id p off len) :
    (id.block p.buffer).view p.offset len = (disk.drop off).take len := by
  refine List.ext_getElem? fun i => ?_
  rw [Block.view_getElem?, List.getElem?_take, List.getElem?_drop]
  split
  case isTrue hi => exact (h.bytes i hi not_false).symm
  case isFalse => rfl

theorem doRead_spec (disk : List UInt8) (W : Nat → Prop) (env : Env) (off : Nat) {dst : Block}
    (h : len ≤ dst.size) :
    ∃ filled dst', doRead disk env off len dst = .ok (filled, dst') ∧
      (filled = true ↔ env.Transfers disk off len) ∧
      (filled = true → dst'.size = dst.size ∧ Mirrors disk W off len dst') := by
  rw [doRead, Env.Transfers]
  split
  case isTrue hseek =>
    obtain ⟨n, dst', hrun, hsize, hiff, hall⟩ :=
      fullRead_spec disk off len 0 dst env.reads (by rwa [Nat.zero_add])
    rw [Nat.zero_add] at hiff hall
    rw [hrun]
    refine ⟨_, dst', rfl, ?_, fun hfilled => ⟨hsize, ?_⟩⟩
    · rw [decide_eq_true_iff, hiff]
      exact (and_iff_right hseek).symm
    · exact .of_view (hsize ▸ h) (hall (of_decide_eq_true hfilled))
  case isFalse hseek => exact ⟨false, dst, rfl, iff_of_false nofun fun h => hseek h.1, nofun⟩

/-- What a call does: the caches stay coherent, what is returned are the bytes asked for, and a
failed transfer empties the caches while any other call keeps what the superblock buffer holds. -/
structure Served (disk : List UInt8) (W : Nat → Prop) (id : VolumeId) (off len : Nat)
    (reply : Reply) (id' : VolumeId) : Prop where
  coherent : Coherent disk W id'
  points : ∀ p, reply.ptr = some p → PointsAt disk W id' p off len
  failed : reply.transfer = some false → reply.ptr = none ∧ id'.Empty
  kept : reply.ptr ≠ none → id.sbbufLen ≤ id'.sbbufLen

theorem readFailed_served (disk : List UInt8) (W : Nat → Prop) (id id₁ : VolumeId)
    (off off' len : Nat) :
    Served disk W id₁ off len (readFailed id off').1 (readFailed id off').2 where
  coherent := ⟨nofun, .empty .., Nat.zero_le _, .empty .., Nat.zero_le _, Nat.two_pow_pos 63⟩
  points := nofun
  failed _ := ⟨rfl, ⟨rfl, rfl⟩, rfl, rfl⟩
  kept h := absurd rfl h

theorem xrealloc_size (fresh : Nat → UInt8) (ptr : Option Block) (size : Nat) :
    ((xrealloc fresh ptr size).getD Block.null).size = size := by
  cases ptr with
  | none => rfl
  | some b =>
    rw [xrealloc]
    split
    case isTrue h => exact h.symm
    case isFalse => rfl

/-- The superblock buffer as it is when it is first used. -/
theorem Coherent.sbbuf (h : Coherent disk W id) {b : Block}
    (hb : id.sbbuf.getD ⟨sbBufferSize, fun _ => 0⟩ = b) :
    b.size = sbBufferSize ∧ Mirrors disk W 0 id.sbbufLen b := by
  have hsb := h.sb
  rw [VolumeId.block] at hsb
  cases hbuf : id.sbbuf with
  | none =>
    rw [hbuf] at hb hsb
    subst hb
    have hzero : id.sbbufLen = 0 := Nat.le_zero.mp hsb.fits
    rw [hzero]
    exact ⟨rfl, .empty ..⟩
  | some b' =>
    rw [hbuf] at hb hsb
    subst hb
    exact ⟨h.sb_size _ hbuf, hsb⟩

/-- A range that ends within the superblock buffer is served from there, unless it has to be read
and that fails. -/
theorem getBuffer_sb_served (h : Coherent disk W id) (env : Env) (hsb : off + len ≤ sbBufferSize) :
    ∃ reply id', volumeIdGetBuffer disk env id off len = .ok (reply, id') ∧
      Served disk W id off len reply id' ∧
      (reply.ptr ≠ none → reply.ptr = some ⟨.sb, off⟩) ∧
      (reply.ptr ≠ none ↔ off + len ≤ id.sbbufLen ∨ env.Transfers disk 0 (off + len)) := by
  have hlt : off + len < 2 ^ 32 := Nat.lt_of_le_of_lt hsb (by decide)
  have hstop : (off + len) % 2 ^ 64 = off + len := Nat.mod_eq_of_lt (by omega)
  have hoff : off % 2 ^ 32 = off := Nat.mod_eq_of_lt (by omega)
  have hpiece {n : Nat} {b : Block} (hb : Mirrors disk W 0 n b) (hle : off + len ≤ n) (i : Nat)
      (hi : i < len) (hW : ¬W (off + i)) : disk[off + i]? = some (b.byte (off + i)) := by
    have hget := hb.piece hle i hi
    rw [Nat.zero_add] at hget
    exact hget hW
  rw [volumeIdGetBuffer, hstop, hoff]
  dsimp only
  rw [if_pos hsb]
  obtain ⟨hsize, hsb'⟩ := h.sbbuf rfl
  split
  case isTrue hhit =>
    refine ⟨_, _, rfl, ⟨⟨?_, hsb', h.sb_le, h.seek, h.seek_le, h.seek_end⟩, ?_, nofun,
      fun _ => Nat.le_refl _⟩, fun _ => rfl, iff_of_true nofun (.inl hhit)⟩
    · intro b hb
      cases hb
      exact hsize
    · intro p hp
      cases hp
      exact ⟨hhit, hsb'.fits, hpiece hsb' hhit⟩
  case isFalse hmiss =>
    obtain ⟨filled, dst, hread, hiff, hfilled⟩ := doRead_spec disk W env 0 (hsize ▸ hsb)
    rw [hread, or_iff_right hmiss, ← hiff]
    cases filled with
    | false =>
      exact ⟨_, _, rfl, readFailed_served .., fun hne => absurd rfl hne,
        iff_of_false (fun hne => hne rfl) nofun⟩
    | true =>
      obtain ⟨hdst, hmirrors⟩ := hfilled rfl
      refine ⟨_, _, rfl, ⟨⟨?_, hmirrors, hsb, h.seek, h.seek_le, h.seek_end⟩, ?_, nofun,
        fun _ => Nat.le_of_lt (Nat.lt_of_not_le hmiss)⟩, fun _ => rfl, iff_of_true nofun rfl⟩
      · intro b hb
        cases hb
        exact hdst.trans hsize
      · intro p hp
        cases hp
        exact ⟨Nat.le_refl _, hmirrors.fits, hpiece hmirrors (Nat.le_refl _)⟩

/-- A block of the size asked for is NULL only where that size is 0. -/
theorem mirrors_xrealloc (fresh : Nat → UInt8) (ptr : Option Block) {dst : Block}
    (h : Mirrors disk W off len dst) :
    Mirrors disk W off len (((xrealloc fresh ptr len).map fun _ => dst).getD Block.null) := by
  have hsize := xrealloc_size fresh ptr len
  cases hbuf : xrealloc fresh ptr len with
  | none =>
    rw [hbuf] at hsize
    obtain rfl : 0 = len := hsize
    exact .empty ..
  | some b => exact h

/-- Any other range. -/
theorem getBuffer_seek_served (h : Coherent disk W id) (env : Env) (hrange : off + len < 2 ^ 63)
    (hsb : ¬off + len ≤ sbBufferSize) :
    ∃ reply id', volumeIdGetBuffer disk env id off len = .ok (reply, id') ∧
      Served disk W id off len reply id' := by
  have hend := h.seek_end
  have hle := h.seek_le
  rw [seekBufferSize] at hle
  have hstop : (off + len) % 2 ^ 64 = off + len := Nat.mod_eq_of_lt (by omega)
  have hseek : (id.seekbufOff + id.seekbufLen) % 2 ^ 64 = id.seekbufOff + id.seekbufLen :=
    Nat.mod_eq_of_lt (by omega)
  rw [volumeIdGetBuffer, hstop, hseek]
  dsimp only
  rw [if_neg hsb]
  split
  · exact ⟨_, _, rfl, h, nofun, nofun, fun _ => Nat.le_refl _⟩
  rename_i hlong
  split
  case isTrue hhit =>
    have hinside : off - id.seekbufOff + len ≤ id.seekbufLen := by omega
    have hsmall : (off - id.seekbufOff) % 2 ^ 32 = off - id.seekbufOff :=
      Nat.mod_eq_of_lt (by omega)
    refine ⟨_, _, rfl, h, fun p hp => ?_, nofun, fun _ => Nat.le_refl _⟩
    obtain ⟨b, -, rfl⟩ := Option.map_eq_some_iff.mp hp
    rw [hsmall]
    refine ⟨hinside, h.seek.fits, ?_⟩
    have hpiece := h.seek.piece hinside
    rwa [Nat.add_sub_cancel' hhit.1] at hpiece
  case isFalse hmiss =>
    obtain ⟨filled, dst, hread, -, hfilled⟩ := doRead_spec disk W env off
      (Nat.le_of_eq (xrealloc_size env.fresh id.seekbuf len).symm)
    rw [hread]
    cases filled with
    | false => exact ⟨_, _, rfl, readFailed_served ..⟩
    | true =>
      have hseek' := mirrors_xrealloc env.fresh id.seekbuf (hfilled rfl).2
      refine ⟨_, _, rfl, ⟨h.sb_size, h.sb, h.sb_le, hseek', Nat.not_lt.mp hlong, hrange⟩, ?_,
        nofun, fun _ => Nat.le_refl _⟩
      intro p hp
      obtain ⟨b, -, rfl⟩ := Option.map_eq_some_iff.mp hp
      refine ⟨Nat.le_of_eq (Nat.zero_add len), hseek'.fits, fun i hi hW => ?_⟩
      rw [Nat.zero_add]
      exact hseek'.bytes i hi hW

theorem volumeIdGetBuffer_served (h : Coherent disk W id) (env : Env)
    (hrange : off + len < 2 ^ 63) :
    ∃ reply id', volumeIdGetBuffer disk env id off len = .ok (reply, id') ∧
      Served disk W id off len reply id' := by
  by_cases hsb : off + len ≤ sbBufferSize
  · obtain ⟨reply, id', hcall, hserved, -⟩ := getBuffer_sb_served h env hsb
    exact ⟨reply, id', hcall, hserved⟩
  · exact getBuffer_seek_served h env hrange hsb

/-! ## Whole runs -/

structure Request where
  env : Env
  off : Nat
  len : Nat

/-- The calls of `volume_id_get_buffer` for one disk. -/
def cache (disk : List UInt8) : Machine Fault VolumeId Request Reply where
  step id r :=
    match volumeIdGetBuffer disk r.env id r.off r.len with
    | .error e => .error e
    | .ok (reply, id) => .ok (id, [reply])

theorem coherent_init (disk : List UInt8) (W : Nat → Prop) : Coherent disk W .init :=
  ⟨nofun, .empty .., Nat.zero_le _, .empty .., Nat.zero_le _, Nat.two_pow_pos 63⟩

theorem cache_coherent (disk : List UInt8) (W : Nat → Prop) (requests : List Request)
    (hrange : ∀ r ∈ requests, r.off + r.len < 2 ^ 63) :
    ∃ id, (cache disk).after .init requests = .ok id ∧ Coherent disk W id := by
  refine (cache disk).exists_after (fun id r hr h => ?_) (coherent_init disk W)
  obtain ⟨reply, id', hcall, hserved⟩ := volumeIdGetBuffer_served h r.env (hrange r hr)
  refine ⟨id', [reply], ?_, hserved.coherent⟩
  rw [cache]
  dsimp only
  rw [hcall]

/-- Behind any sequence of calls, the next one returns bytes of the disk or NULL; the recorded
lengths stay within the buffers; and no call whose seek or read fails leaves anything behind. -/
theorem cache_serves (disk : List UInt8) (requests : List Request) (r : Request)
    (hrange : ∀ q ∈ requests ++ [r], q.off + q.len < 2 ^ 63) :
    ∃ id reply id', (cache disk).after .init requests = .ok id ∧
      volumeIdGetBuffer disk r.env id r.off r.len = .ok (reply, id') ∧
      (∀ p, reply.ptr = some p →
        p.offset + r.len ≤ id'.validLen p.buffer ∧
          id'.validLen p.buffer ≤ (id'.block p.buffer).size ∧
          (id'.block p.buffer).view p.offset r.len = (disk.drop r.off).take r.len) ∧
      (id'.sbbufLen ≤ sbBufferSize ∧ id'.seekbufLen ≤ seekBufferSize) ∧
      (reply.transfer = some false → reply.ptr = none ∧ id'.Empty) := by
  obtain ⟨id, hrun, hid⟩ := cache_coherent disk (fun _ => False) requests
    fun q hq => hrange q (List.mem_append_left _ hq)
  obtain ⟨reply, id', hcall, hserved⟩ := volumeIdGetBuffer_served hid r.env
    (hrange r (List.mem_append_right _ (.head _)))
  refine ⟨id, reply, id', hrun, hcall, fun p hp => ?_,
    ⟨hserved.coherent.sb_le, hserved.coherent.seek_le⟩, hserved.failed⟩
  have hpoints := hserved.points p hp
  exact ⟨hpoints.valid, hpoints.inside, hpoints.view_eq⟩

/-- Behind a range beyond the end of the disk, one within it, in pieces. -/
theorem cache_serves_shortDisk :
    ∃ id reply id', (cache [1, 2, 3]).after .init [⟨⟨true, [.upTo 8], fun _ => 0⟩, 2, 2⟩] = .ok id ∧
      volumeIdGetBuffer [1, 2, 3] ⟨true, [.interrupted, .upTo 1, .upTo 2], fun _ => 0⟩ id 0 2 =
        .ok (reply, id') ∧
      ∀ p, reply.ptr = some p → (id'.block p.buffer).view p.offset 2 = [1, 2] := by
  obtain ⟨id, reply, id', hrun, hcall, hpoints, -⟩ := cache_serves [1, 2, 3]
    [⟨⟨true, [.upTo 8], fun _ => 0⟩, 2, 2⟩]
    ⟨⟨true, [.interrupted, .upTo 1, .upTo 2], fun _ => 0⟩, 0, 2⟩ (by simp)
  exact ⟨id, reply, id', hrun, hcall, fun p hp => (hpoints p hp).2.2⟩

end HeadUnit.Blkid
