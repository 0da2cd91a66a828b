import Mathlib.Data.List.Induction
import HeadUnit.Std.Outcome
import HeadUnit.Dd.Buffers

/-!
# What `dd_out` writes

The output stands for `Output.image`: what has been written, with zeros where it has been sought
over, and what is pending. A block that is written comes behind that, however many calls it takes, and
whether it is written or left pending (`writeBlock_spec`). What there is in the buffer is written
before what comes into it later (`ddOut_spec`).
-/

namespace HeadUnit.Dd

/-! ## The file -/

def zeros (k : Nat) : List UInt8 := List.replicate k 0

def OutOp.bytes : OutOp → List UInt8
  | .seek offset => zeros offset.toNat
  | .write bytes => bytes

/-- What is written, with zeros where it is sought over. -/
def written (ops : List OutOp) : List UInt8 := ops.flatMap OutOp.bytes

/-- No seek goes back. -/
def Forward (ops : List OutOp) : Prop := ∀ offset, OutOp.seek offset ∈ ops → 0 ≤ offset

theorem written_snoc (ops : List OutOp) (op : OutOp) :
    written (ops ++ [op]) = written ops ++ op.bytes := by
  rw [written, List.flatMap_append, List.flatMap_singleton, written]

@[simp] theorem length_zeros (k : Nat) : (zeros k).length = k := List.length_replicate

theorem zeros_append (j k : Nat) : zeros j ++ zeros k = zeros (j + k) :=
  List.replicate_append_replicate

theorem Forward.snoc {ops : List OutOp} (h : Forward ops) (bytes : List UInt8) :
    Forward (ops ++ [.write bytes]) := by
  intro offset hmem
  rcases List.mem_append.mp hmem with hmem | hmem
  · exact h offset hmem
  · cases List.mem_singleton.mp hmem

/-- The file is what is written, but for zeros where it is sought behind its end. -/
structure IsFile (f : OutFile) (ops : List OutOp) : Prop where
  inside : f.content.length ≤ f.pos
  written : f.content ++ zeros (f.pos - f.content.length) = written ops
  atEnd : (∀ offset, ops.getLast? ≠ some (.seek offset)) → f.content = Dd.written ops

theorem isFile {ops : List OutOp} (h : Forward ops) :
    IsFile (ops.foldl OutFile.apply ⟨[], 0⟩) ops := by
  induction ops using List.reverseRecOn with
  | nil => exact ⟨Nat.le_refl 0, rfl, fun _ => rfl⟩
  | append_singleton ops op ih =>
    obtain ⟨hle, hfile, -⟩ := ih fun offset hmem => h offset (List.mem_append_left _ hmem)
    rw [List.foldl_append, List.foldl_cons, List.foldl_nil]
    generalize ops.foldl OutFile.apply ⟨[], 0⟩ = f at hle hfile
    have hpos : (written ops).length = f.pos := by
      rw [← hfile, List.length_append, zeros, List.length_replicate]
      omega
    cases op with
    | seek offset =>
      have hoffset := h offset (List.mem_append_right _ (List.mem_singleton_self _))
      have hseek : (f.pos + offset).toNat = f.pos + offset.toNat := by omega
      refine ⟨?_, ?_, fun hlast => absurd (List.getLast?_concat ..) (hlast offset)⟩
      · show f.content.length ≤ (f.pos + offset).toNat
        omega
      · show f.content ++ zeros ((f.pos + offset).toNat - f.content.length) = _
        rw [written_snoc, ← hfile, List.append_assoc, OutOp.bytes, zeros_append, hseek]
        exact congrArg (f.content ++ zeros ·) (by omega)
    | write bytes =>
      have hcontent : (f.apply (.write bytes)).content = written ops ++ bytes := by
        show (f.content ++ zeros (f.pos - f.content.length)).take f.pos ++
          (bytes ++ (f.content ++ zeros (f.pos - f.content.length)).drop (f.pos + bytes.length)) = _
        rw [hfile, List.take_of_length_le (Nat.le_of_eq hpos),
          List.drop_of_length_le (hpos ▸ Nat.le_add_right _ _), List.append_nil]
      have hlen : (written ops ++ bytes).length = (f.apply (.write bytes)).pos := by
        rw [List.length_append, hpos]
        rfl
      refine ⟨?_, ?_, fun _ => ?_⟩
      · exact Nat.le_of_eq ((congrArg List.length hcontent).trans hlen)
      · rw [hcontent, hlen, Nat.sub_self, written_snoc]
        exact List.append_nil _
      · rw [hcontent, written_snoc]
        rfl

theorem fileOf_isPrefix {ops : List OutOp} (h : Forward ops) : fileOf ops <+: written ops :=
  ⟨_, (isFile h).written⟩

/-! ## The output -/

/-- What the output stands for. -/
def Output.image (out : Output) : List UInt8 := written out.ops ++ zeros out.pending.toNat

theorem Output.image_of_settled {out : Output} (h : out.pending = 0) :
    out.image = written out.ops := by
  rw [Output.image, h]
  exact List.append_nil _

def WriteAnswer.takesSome : WriteAnswer → Bool
  | .takes (_ + 1) => true
  | _ => false

/-- How many answers take something. -/
def taking (answers : List WriteAnswer) : Nat := answers.countP WriteAnswer.takesSome

theorem taking_cons (answer : WriteAnswer) (answers : List WriteAnswer) :
    taking (answer :: answers) = taking answers + if answer.takesSome then 1 else 0 :=
  List.countP_cons ..

/-- The device takes `n` bytes at once. -/
def AtOnce (n : Nat) (script : List WriteAnswer) : Prop := ∀ k, .takes k ∈ script → n ≤ k

/-- The device takes whole blocks. -/
def Whole (w : Setup) (script : List WriteAnswer) : Prop := AtOnce w.obs script

theorem AtOnce.mono {n m : Nat} {script : List WriteAnswer} (h : AtOnce n script) (hle : m ≤ n) :
    AtOnce m script := fun k hk => Nat.le_trans hle (h k hk)

theorem atOnce_replicate {n k : Nat} (h : n ≤ k) (count : Nat) :
    AtOnce n (List.replicate count (.takes k)) := by
  intro j hj
  cases List.eq_of_mem_replicate hj
  exact h

/-- The device refuses to write. -/
def Refused (script : List WriteAnswer) : Prop := .failed ∈ script ∨ .takes 0 ∈ script

/-- What holds of the output all the time, `script` being the answers that there were. -/
structure Writing (w : Setup) (script answers : List WriteAnswer) (out : Output) : Prop where
  suffix : answers <:+ script
  forward : Forward out.ops
  pending : 0 ≤ out.pending
  dense : w.sparse = false → out.pending = 0
  bytes : out.bytes + out.pending = out.image.length
  credit : taking script ≤ taking answers + (written out.ops).length
  whole : Whole w script → (w.obs : Int) ∣ out.pending

/-- The last thing that is done is not a seek. -/
def Settled (out : Output) : Prop :=
  out.pending = 0 → ∀ offset, out.ops.getLast? ≠ some (.seek offset)

/-- How `dd_out` may end before its time, where `expected` is what it would have written by now. -/
def Halt.Within (w : Setup) (script : List WriteAnswer) (expected : List UInt8) : Halt → Prop
  | .waiting .write ops => fileOf ops <+: expected ∧ taking script < expected.length
  | .exited .write ops => fileOf ops <+: expected ∧ Refused script
  | .exited .lseek ops => fileOf ops <+: expected ∧ w.isPipe = true ∧ w.sparse = true
  | _ => False

theorem Halt.Within.mono {w : Setup} {script : List WriteAnswer} {xs ys : List UInt8} {e : Halt}
    (h : e.Within w script xs) (hxs : xs <+: ys) : e.Within w script ys := by
  cases e with
  | fault => exact h
  | waiting call ops =>
    cases call with
    | write => exact ⟨h.1.trans hxs, Nat.lt_of_lt_of_le h.2 hxs.length_le⟩
    | read => exact h
    | lseek => exact h
  | exited call ops =>
    cases call with
    | read => exact h
    | write => exact ⟨h.1.trans hxs, h.2⟩
    | lseek => exact ⟨h.1.trans hxs, h.2⟩
  | outOfFuel => exact h

namespace Writing

variable {w : Setup} {script answers : List WriteAnswer} {out : Output}

/-- A file that is finished. -/
theorem fileOf_eq (h : Writing w script answers out) (hsettled : Settled out)
    (hpending : out.pending = 0) : fileOf out.ops = out.image := by
  rw [fileOf, (isFile h.forward).atEnd (hsettled hpending), Output.image_of_settled hpending]

theorem fileOf_isPrefix (h : Writing w script answers out) : fileOf out.ops <+: out.image :=
  (Dd.fileOf_isPrefix h.forward).trans (List.prefix_append ..)

theorem credit_image (h : Writing w script answers out) :
    taking script ≤ taking answers + out.image.length := by
  have hcredit := h.credit
  rw [Output.image, List.length_append]
  omega

/-- Seeking over what is pending. -/
theorem skip (h : Writing w script answers out) :
    (out.skip w.isPipe).Meets
      (fun out' => Writing w script answers (out'.settle w.obs) ∧
        (out'.settle w.obs).image = out.image ∧ (w.sparse = false → out'.ops = out.ops))
      (Halt.Within w script out.image) := by
  have hsettle (ops : List OutOp) (hforward : Forward ops)
      (himage : written ops = out.image) :
      Writing w script answers (Output.settle w.obs { out with ops }) ∧
        (Output.settle w.obs { out with ops }).image = out.image := by
    have heq : (Output.settle w.obs { out with ops }).image = out.image :=
      (List.append_nil _).trans himage
    refine ⟨⟨h.suffix, hforward, Int.le_refl 0, fun _ => rfl, ?_, ?_, fun _ => Int.dvd_zero _⟩, heq⟩
    · rw [heq, ← h.bytes]
      exact Int.add_zero _
    · show taking script ≤ taking answers + (written ops).length
      rw [himage]
      exact h.credit_image
  rw [Output.skip]
  split
  case isTrue hpending =>
    have hops := (Output.image_of_settled hpending).symm
    exact ⟨(hsettle out.ops h.forward hops).1, (hsettle out.ops h.forward hops).2, fun _ => rfl⟩
  case isFalse hpending =>
    split
    case isTrue hpipe =>
      refine ⟨h.fileOf_isPrefix, hpipe, ?_⟩
      rw [← Bool.not_eq_false]
      exact fun hsparse => hpending (h.dense hsparse)
    case isFalse =>
      have hforward : Forward (out.ops ++ [.seek out.pending]) := by
        intro offset hmem
        rcases List.mem_append.mp hmem with hmem | hmem
        · exact h.forward offset hmem
        · cases List.mem_singleton.mp hmem
          exact h.pending
      obtain ⟨hwriting, himage⟩ := hsettle _ hforward (written_snoc ..)
      exact ⟨hwriting, himage, fun hdense => absurd (h.dense hdense) hpending⟩

/-- A `write` that takes some bytes, or none because it is interrupted. -/
theorem wrote {answer : WriteAnswer} (h : Writing w script (answer :: answers) out)
    (hpending : out.pending = 0) (n : Nat) (bytes : List UInt8)
    (hanswer : answer.takesSome = true → bytes ≠ []) :
    Writing w script answers (out.wrote w.obs n bytes) ∧
      (out.wrote w.obs n bytes).image = out.image ++ bytes ∧
      (bytes ≠ [] → Settled (out.wrote w.obs n bytes)) := by
  have hops : written (out.wrote w.obs n bytes).ops = written out.ops ++ bytes := by
    show written (if bytes = [] then out.ops else out.ops ++ [.write bytes]) = _
    split
    case isTrue hnil => rw [hnil, List.append_nil]
    case isFalse => exact written_snoc ..
  have himage : (out.wrote w.obs n bytes).image = out.image ++ bytes := by
    show written (out.wrote w.obs n bytes).ops ++ zeros out.pending.toNat =
      written out.ops ++ zeros out.pending.toNat ++ bytes
    rw [hpending, hops]
    exact (List.append_nil _).trans (congrArg (· ++ bytes) (List.append_nil _).symm)
  refine ⟨⟨(List.suffix_cons answer answers).trans h.suffix, ?_, h.pending, h.dense, ?_, ?_,
      h.whole⟩,
    himage, fun hne _ offset hlast => ?_⟩
  · show Forward (if bytes = [] then out.ops else out.ops ++ [.write bytes])
    split
    · exact h.forward
    · exact h.forward.snoc bytes
  · have hbytes := h.bytes
    rw [himage, List.length_append]
    show out.bytes + bytes.length + out.pending = _
    omega
  · have hcredit := h.credit
    rw [taking_cons] at hcredit
    rw [hops, List.length_append]
    cases hsome : answer.takesSome with
    | false =>
      rw [hsome] at hcredit
      simp only [Bool.false_eq_true, if_false] at hcredit
      omega
    | true =>
      have hlen := List.length_pos_iff.mpr (hanswer hsome)
      rw [hsome] at hcredit
      simp only [if_true] at hcredit
      omega
  · replace hlast : (if bytes = [] then out.ops else out.ops ++ [.write bytes]).getLast? =
        some (.seek offset) := hlast
    rw [if_neg hne, List.getLast?_concat] at hlast
    cases hlast

end Writing

/-- A block that was to be sought over, and is written instead. -/
theorem Writing.unsparse {w : Setup} {script answers : List WriteAnswer} {out : Output}
    (h : Writing w script answers out) (hobs : 0 < w.obs) (hpending : out.pending ≠ 0)
    (hwhole : w.sparse = true → Whole w script) :
    Writing w script answers { out with pending := out.pending - w.obs } ∧
      Output.image { out with pending := out.pending - w.obs } ++ zeros w.obs = out.image := by
  have hsparse : w.sparse = true := by
    rw [← Bool.not_eq_false]
    exact fun hdense => hpending (h.dense hdense)
  obtain ⟨k, hk⟩ := h.whole (hwhole hsparse)
  have hle : (w.obs : Int) ≤ out.pending := by
    have hpos : 0 < out.pending := by
      have hnonneg := h.pending
      omega
    exact Int.le_of_dvd hpos ⟨k, hk⟩
  have himage : Output.image { out with pending := out.pending - w.obs } ++ zeros w.obs =
      out.image := by
    have hsum : (out.pending - w.obs).toNat + w.obs = out.pending.toNat := by omega
    show written out.ops ++ zeros (out.pending - w.obs).toNat ++ zeros w.obs = _
    rw [List.append_assoc, zeros_append, hsum, Output.image]
  refine ⟨⟨h.suffix, h.forward, ?_, ?_, ?_, h.credit, fun _ => ?_⟩, himage⟩
  · show 0 ≤ out.pending - w.obs
    omega
  · exact fun hdense => absurd hsparse (by rw [hdense]; exact Bool.false_ne_true)
  · have hbytes := h.bytes
    have hlen := congrArg List.length himage
    rw [List.length_append, length_zeros] at hlen
    show out.bytes + (out.pending - w.obs) = _
    omega
  · exact Int.dvd_sub ⟨k, hk⟩ (Int.dvd_refl _)

/-! ## One block -/

/-- The bytes of a block are left out and sought over later. -/
def hole (w : Setup) (force : Bool) (bytes : List UInt8) : Prop :=
  force = false ∧ w.sparse = true ∧ bytes.all (· == 0) = true

theorem eq_zeros {bytes : List UInt8} (h : bytes.all (· == 0) = true) :
    bytes = zeros bytes.length :=
  List.eq_replicate_of_mem fun b hb => by simpa using List.all_eq_true.mp h b hb

/-- A `write` of a block. -/
def OutOp.Full (w : Setup) : OutOp → Prop
  | .seek _ => False
  | .write bytes => bytes.length = w.obs

/-- A device that takes whole blocks gets whole blocks, and what is forced in one piece if it takes
that at once. -/
def InBlocks (w : Setup) (force : Bool) (script : List WriteAnswer) (out : Output)
    (bytes : List UInt8) (out' : Output) : Prop :=
  Whole w script → w.sparse = false →
    if force then AtOnce bytes.length script → out'.ops = out.ops ++ [.write bytes]
    else ∀ op ∈ out'.ops, op ∈ out.ops ∨ op.Full w

/-- What a block has become that was `bytes`. -/
structure Placed (w : Setup) (force : Bool) (script : List WriteAnswer) (out : Output)
    (bytes : List UInt8) (answers : List WriteAnswer) (out' : Output) : Prop where
  writing : Writing w script answers out'
  image : out'.image = out.image ++ bytes
  settled : Settled out'
  forced : force = true → out'.pending = 0

section

variable {w : Setup} {force : Bool} {script answers : List WriteAnswer} {out : Output}

theorem Placed.after {taken left : List UInt8} {out₁ out₂ : Output}
    (himage : out₁.image = out.image ++ taken)
    (h : Placed w force script out₁ left answers out₂) :
    Placed w force script out (taken ++ left) answers out₂ :=
  ⟨h.writing, by rw [h.image, himage, List.append_assoc], h.settled, h.forced⟩

theorem Writing.leave {bytes : List UInt8} (h : Writing w script answers out)
    (hbytes : bytes ≠ []) (hhole : hole w force bytes)
    (hwhole : Whole w script → force = false → bytes.length = w.obs) :
    Placed w force script out bytes answers { out with pending := out.pending + bytes.length } := by
  obtain ⟨hforce, hsparse, hzero⟩ := hhole
  have hpending := h.pending
  have hlen := List.length_pos_iff.mpr hbytes
  have himage : written out.ops ++ zeros (out.pending + bytes.length).toNat =
      out.image ++ bytes := by
    have hsum : (out.pending + bytes.length).toNat = out.pending.toNat + bytes.length := by omega
    rw [hsum, ← zeros_append, ← List.append_assoc, ← eq_zeros hzero, Output.image]
  refine ⟨⟨h.suffix, h.forward, ?_, ?_, ?_, ?_, fun hall => ?_⟩, himage, fun hnone => ?_, ?_⟩
  · show 0 ≤ out.pending + bytes.length
    omega
  · exact fun hdense => absurd hsparse (by rw [hdense]; exact Bool.false_ne_true)
  · have hbytes := h.bytes
    show out.bytes + (out.pending + bytes.length) = (written out.ops ++ zeros _).length
    rw [himage, List.length_append]
    omega
  · exact h.credit
  · show (w.obs : Int) ∣ out.pending + bytes.length
    rw [hwhole hall hforce]
    exact Int.dvd_add (h.whole hall) (Int.dvd_refl _)
  · replace hnone : out.pending + bytes.length = 0 := hnone
    omega
  · exact fun hforced => absurd hforced (by rw [hforce]; exact Bool.false_ne_true)

theorem InBlocks.leave {bytes : List UInt8} {out' : Output} (hhole : hole w force bytes) :
    InBlocks w force script out bytes out' := by
  intro _ hdense
  obtain ⟨-, hsparse, -⟩ := hhole
  rw [hdense] at hsparse
  cases hsparse

theorem InBlocks.write {bytes : List UInt8} {n : Nat} {out' : Output}
    (hops : w.sparse = false → out'.ops = out.ops) (hbytes : bytes ≠ [])
    (hwhole : Whole w script → force = false → bytes.length = w.obs) :
    InBlocks w force script out bytes ((out'.settle w.obs).wrote w.obs n bytes) := by
  intro hall hdense
  have hwrote : ((out'.settle w.obs).wrote w.obs n bytes).ops = out.ops ++ [.write bytes] := by
    rw [← hops hdense]
    exact if_neg hbytes
  rw [hwrote]
  cases force with
  | true => exact fun _ => rfl
  | false =>
    intro op hmem
    rcases List.mem_append.mp hmem with hmem | hmem
    · exact .inl hmem
    · cases List.mem_singleton.mp hmem
      exact .inr (hwhole hall rfl)

theorem InBlocks.of_ops {bytes : List UInt8} {out₁ out₂ : Output}
    (hops : w.sparse = false → out₁.ops = out.ops) (h : InBlocks w force script out₁ bytes out₂) :
    InBlocks w force script out bytes out₂ := by
  intro hall hdense
  have hblocks := h hall hdense
  rw [hops hdense] at hblocks
  exact hblocks

section Short

variable {bytes : List UInt8} {k : Nat} (hmem : .takes k ∈ script) (hshort : k < bytes.length)
  (hwhole : Whole w script → force = false → bytes.length = w.obs)

include hmem hshort hwhole in
/-- A device that takes less than a block is none that takes whole blocks. -/
theorem not_whole_of_short (hforce : force = false) : ¬Whole w script := by
  intro hall
  have hobs := hwhole hall hforce
  have hle := hall k hmem
  omega

include hmem hshort hwhole in
theorem InBlocks.short {out' : Output} : InBlocks w force script out bytes out' := by
  intro hall _
  cases force with
  | true => exact fun honce => absurd (honce k hmem) (Nat.not_le.mpr hshort)
  | false => exact absurd hall (not_whole_of_short hmem hshort hwhole rfl)

end Short

/-- However many calls of `write` a block takes, it comes behind what there was. -/
theorem writeBlock_spec (force : Bool) (n : Nat) (before bytes behind : List UInt8)
    (h : Writing w script answers out) (hbytes : bytes ≠ []) (hn : bytes.length ≤ n)
    (hwhole : Whole w script → force = false → bytes.length = w.obs) :
    (writeBlock w force (before ++ (bytes ++ behind)) n answers bytes.length before.length out).Meets
      (fun r => r.2.1 = before.length + bytes.length ∧
        Placed w force script out bytes r.1 r.2.2 ∧ InBlocks w force script out bytes r.2.2)
      (Halt.Within w script (out.image ++ bytes)) := by
  have hlen := List.length_pos_iff.mpr hbytes
  induction answers generalizing before bytes out with
  | nil =>
    rw [writeBlock, Mem.slice_append, checked, Except.ok_bind]
    split
    case isTrue hhole => exact ⟨rfl, h.leave hbytes hhole hwhole, InBlocks.leave hhole⟩
    case isFalse =>
      refine (h.skip.mono (fun _ => id) fun e he => he.mono (List.prefix_append ..)).bind ?_
      rintro out' ⟨h', himage, -⟩
      have hcredit := h'.credit_image
      refine ⟨?_, ?_⟩
      · rw [← himage]
        exact h'.fileOf_isPrefix.trans (List.prefix_append ..)
      · rw [himage] at hcredit
        rw [List.length_append]
        rw [show taking [] = 0 from rfl] at hcredit
        omega
  | cons answer answers ih =>
    rw [writeBlock, Mem.slice_append, checked, Except.ok_bind]
    split
    case isTrue hhole => exact ⟨rfl, h.leave hbytes hhole hwhole, InBlocks.leave hhole⟩
    case isFalse =>
      refine (h.skip.mono (fun _ => id) fun e he => he.mono (List.prefix_append ..)).bind ?_
      rintro out' ⟨h', himage, hops⟩
      have hfile : fileOf out'.ops <+: out.image ++ bytes := by
        rw [← himage]
        exact h'.fileOf_isPrefix.trans (List.prefix_append ..)
      have hmem := h'.suffix.subset List.mem_cons_self
      cases answer with
      | failed => exact ⟨hfile, .inl hmem⟩
      | takes k =>
        cases k with
        | zero => exact ⟨hfile, .inr hmem⟩
        | succ k =>
          have hne : bytes.take (min (k + 1) bytes.length) ≠ [] := by
            rw [← List.length_pos_iff, List.length_take]
            omega
          obtain ⟨hwriting, himage', hsettled⟩ := h'.wrote rfl n _ fun _ => hne
          rw [himage] at himage'
          dsimp only
          split
          case isTrue hdone =>
            have hall : min (k + 1) bytes.length = bytes.length := by omega
            rw [hall, List.take_length] at hwriting himage' hsettled ⊢
            exact ⟨rfl, ⟨hwriting, himage', hsettled hbytes, fun _ => rfl⟩,
              InBlocks.write hops hbytes hwhole⟩
          case isFalse hmore =>
            -- What is left of the block is written next.
            have hshort : k + 1 < bytes.length := by omega
            have hblocks {out₂ : Output} : InBlocks w force script out bytes out₂ :=
              InBlocks.short hmem hshort hwhole
            have hnone (hall : Whole w script) (hforce : force = false) : False :=
              not_whole_of_short hmem hshort hwhole hforce hall
            rw [Nat.min_eq_left (Nat.le_of_lt hshort)] at hwriting himage' ⊢
            obtain ⟨taken, left, rfl, htaken⟩ :
                ∃ taken left, bytes = taken ++ left ∧ taken.length = k + 1 :=
              ⟨_, _, (List.take_append_drop _ _).symm,
                List.length_take_of_le (Nat.le_of_lt hshort)⟩
            rw [← htaken, List.length_append] at hshort
            rw [List.length_append] at hn
            rw [← htaken, List.take_left] at hwriting himage' ⊢
            have hleft : 0 < left.length := by omega
            have hsplit : before ++ (taken ++ left ++ behind) =
                before ++ taken ++ (left ++ behind) := by
              rw [List.append_assoc, List.append_assoc]
            have hnext := ih (before ++ taken) left hwriting (List.length_pos_iff.mp hleft)
              (by omega) (fun hall hforce => (hnone hall hforce).elim) hleft
            rw [List.length_append, himage'] at hnext
            rw [List.length_append, Nat.add_sub_cancel_left, ← Nat.add_assoc, hsplit,
              ← List.append_assoc out.image taken left]
            exact hnext.mono (fun r hr => ⟨hr.1, hr.2.1.after himage', hblocks⟩) fun e => id
      | interrupted =>
        obtain ⟨hwriting, himage', -⟩ := h'.wrote rfl n [] nofun
        rw [himage, List.append_nil] at himage'
        dsimp only
        rw [if_neg (by omega), ← himage']
        refine (ih before bytes hwriting hbytes hn hwhole hlen).mono ?_ fun e => id
        rintro r ⟨hr, hplaced, hblocks⟩
        have htaken : ((out'.settle w.obs).wrote w.obs n []).image = out.image ++ [] :=
          himage'.trans (List.append_nil _).symm
        exact ⟨hr, hplaced.after htaken, hblocks.of_ops hops⟩

/-! ## The blocks of a buffer -/

theorem Placed.trans {xs ys : List UInt8} {answers₁ answers₂ : List WriteAnswer}
    {out₁ out₂ : Output} (h₁ : Placed w force script out xs answers₁ out₁)
    (h₂ : Placed w force script out₁ ys answers₂ out₂) :
    Placed w force script out (xs ++ ys) answers₂ out₂ := h₂.after h₁.image

theorem InBlocks.trans {xs ys : List UInt8} {out₁ out₂ : Output}
    (h₁ : InBlocks w false script out xs out₁) (h₂ : InBlocks w false script out₁ ys out₂) :
    InBlocks w false script out (xs ++ ys) out₂ := by
  intro hall hdense op hmem
  rcases h₂ hall hdense op hmem with hmem | hfull
  · exact h₁ hall hdense op hmem
  · exact .inr hfull

/-- Blocks are written as long as there are any. -/
theorem outLoop_spec (force : Bool) {fuel n : Nat} (before bytes behind : List UInt8)
    (h : Writing w script answers out) (hfuel : bytes.length < fuel) (hpos : 0 < n)
    (hn : n ≤ bytes.length) (hobs : 0 < w.obs)
    (hwhole : if force then n = bytes.length else n = w.obs) :
    (outLoop w force (before ++ (bytes ++ behind)) fuel n bytes.length before.length answers out).Meets
      (fun r => ∃ done left, bytes = done ++ left ∧ r.2.1 = left.length ∧ left.length < w.obs ∧
        (if force then left = [] else w.obs ∣ done.length) ∧
        Placed w force script out done r.1 r.2.2 ∧ InBlocks w force script out done r.2.2)
      (Halt.Within w script (out.image ++ bytes)) := by
  induction fuel generalizing n before bytes answers out with
  | zero => exact absurd hfuel (Nat.not_lt_zero _)
  | succ fuel ih =>
    obtain ⟨block, left, rfl, rfl⟩ : ∃ block left, bytes = block ++ left ∧ block.length = n :=
      ⟨_, _, (List.take_append_drop n _).symm, List.length_take_of_le hn⟩
    have hblock := writeBlock_spec force block.length before block (left ++ behind) h
      (List.length_pos_iff.mp hpos) (Nat.le_refl _) fun _ hforce => by
        rw [hforce] at hwhole
        exact hwhole
    rw [outLoop, List.append_assoc block]
    refine (hblock.mono (fun _ => id) fun e he => he.mono ?_).bind ?_
    · rw [← List.append_assoc]
      exact List.prefix_append ..
    · rintro ⟨answers', outp, out'⟩ ⟨rfl, hplaced, hblocks⟩
      dsimp only at hplaced hblocks ⊢
      rw [List.length_append] at hfuel hwhole ⊢
      rw [Nat.add_sub_cancel_left]
      split
      case isTrue hlt =>
        refine ⟨block, left, rfl, rfl, hlt, ?_, hplaced, hblocks⟩
        cases force with
        | true =>
          rw [if_pos rfl] at hwhole
          exact List.length_eq_zero_iff.mp (by omega)
        | false => exact ⟨1, hwhole.trans (Nat.mul_one _).symm⟩
      case isFalse hge =>
        have hforce : force = false := by
          rw [← Bool.not_eq_true]
          intro hforce
          rw [hforce, if_pos rfl] at hwhole
          omega
        have hnext := ih (before ++ block) left hplaced.writing
          (by omega : left.length < fuel) hobs (Nat.not_lt.mp hge) (by rw [hforce]; rfl)
        rw [List.append_assoc, List.length_append, hplaced.image, List.append_assoc] at hnext
        refine hnext.mono ?_ fun e => id
        rintro r ⟨done, left', rfl, hr, hlt, hnil, hdone, hblocks'⟩
        refine ⟨block ++ done, left', (List.append_assoc ..).symm, hr, hlt, ?_, hplaced.trans hdone,
          ?_⟩
        · rw [hforce] at hwhole hnil ⊢
          rw [List.length_append]
          exact Nat.dvd_add (⟨1, hwhole.trans (Nat.mul_one _).symm⟩) hnil
        · rw [hforce] at hblocks hblocks' ⊢
          exact hblocks.trans hblocks'

/-! ## The buffer -/

/-- What a state is but for its output and its output buffer. -/
def State.flushed (s : State) (db : List UInt8) (dbcnt : Nat) (answers : List WriteAnswer)
    (out : Output) : State :=
  { s.setOutMem db with outDbp := dbcnt, outDbcnt := dbcnt, out, answers }

/-- The bytes of the buffer are written in order, and those that are not come to its beginning. -/
theorem ddOut_spec (force : Bool) {s : State} {bytes behind : List UInt8}
    (h : Writing w script s.answers s.out) (hobs : 0 < w.obs)
    (hmem : s.outMem = bytes ++ behind) (hcnt : s.outDbcnt = bytes.length)
    (hfull : if force then bytes ≠ [] else w.obs ≤ bytes.length ∧ s.outDbp = bytes.length) :
    (ddOut w force s).Meets
      (fun s' => ∃ done left rest answers out, bytes = done ++ left ∧ left.length < w.obs ∧
        (if force then left = [] else w.obs ∣ done.length) ∧
        Placed w force script s.out done answers out ∧ InBlocks w force script s.out done out ∧
        (left ++ rest).length = s.outMem.length ∧
        s' = s.flushed (left ++ rest) left.length answers out)
      (Halt.Within w script (s.out.image ++ bytes)) := by
  have hloop := outLoop_spec (n := if force then bytes.length else w.obs) force [] bytes behind
    h (Nat.lt_succ_self _) ?_ ?_ hobs ?_
  · rw [ddOut, hcnt, hmem]
    refine hloop.bind ?_
    rintro ⟨answers, _, out⟩ ⟨done, left, rfl, rfl, hlt, hnil, hplaced, hblocks⟩
    dsimp only at hplaced hblocks ⊢
    split
    case isTrue hzero =>
      obtain rfl := List.length_eq_zero_iff.mp hzero
      exact ⟨done, [], _, answers, out, rfl, hlt, hnil, hplaced, hblocks, rfl, rfl⟩
    case isFalse hzero =>
      have hforce : force = false := by
        rw [← Bool.not_eq_true]
        intro hforce
        rw [hforce] at hnil
        exact hzero (List.length_eq_zero_iff.mpr hnil)
      rw [hforce] at hfull
      rw [hfull.2, List.length_append, Mem.back_eq_ok, checked, Except.ok_bind, List.append_assoc,
        Mem.move_front]
      refine ⟨done, left, _, answers, out, rfl, hlt, hnil, hplaced, hblocks, ?_, rfl⟩
      simp only [List.length_append, List.length_drop]
      omega
  all_goals cases force
  · exact hobs
  · exact List.length_pos_iff.mpr hfull
  · exact hfull.1
  · exact Nat.le_refl _
  · rfl
  · rfl

end

end HeadUnit.Dd
