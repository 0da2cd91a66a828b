import HeadUnit.Dd.Blocking
import HeadUnit.Dd.Unblocking

/-!
# What `dd` copies

`inputOf` is what `dd` takes from the answers to `read`, and `expected` is what it makes of it: the
converted input, but for the last record under `conv=block,osync`. Whatever pieces `read` gives and
`write` takes, the file is that in the end, and a run that ends before its time leaves the beginning
of it (`dd_copies`). A device that takes what it is given gets the output in `pieces`
(`dd_reblocks`).
-/

namespace HeadUnit.Dd

variable {w : Setup} {script : List WriteAnswer} {s : State} {xs : List UInt8}

/-! ## The input -/

/-- The block that comes of an answer. -/
def Setup.contribution (w : Setup) : ReadAnswer w.ibs → Option (List UInt8)
  | .gives bytes _ =>
    some (if w.sync then bytes ++ List.replicate (w.ibs - bytes.length) w.filler else bytes)
  | .failed => if w.sync then some (List.replicate w.ibs w.filler) else none

/-- `dd_in` goes on behind the answer. -/
def Setup.continues (w : Setup) : ReadAnswer w.ibs → Bool
  | .gives bytes _ => bytes.length ≠ 0
  | .failed => w.noerror

def Setup.blocks (w : Setup) (reads : List (ReadAnswer w.ibs)) : List (List UInt8) :=
  (reads.takeWhile w.continues).filterMap w.contribution

/-- The input behind `counted` blocks. -/
def Setup.inputFrom (w : Setup) (counted : Nat) (reads : List (ReadAnswer w.ibs)) : List UInt8 :=
  (if w.cpyCnt = 0 then w.blocks reads else (w.blocks reads).take (w.cpyCnt - counted)).flatten

def Setup.inputOf (w : Setup) (reads : List (ReadAnswer w.ibs)) : List UInt8 := w.inputFrom 0 reads

/-- The answers last. -/
def Setup.completeFrom (w : Setup) (counted : Nat) (reads : List (ReadAnswer w.ibs)) : Prop :=
  (∃ answer ∈ reads, w.continues answer = false) ∨
    w.cpyCnt ≠ 0 ∧ w.cpyCnt ≤ counted + (w.blocks reads).length

def Setup.complete (w : Setup) (reads : List (ReadAnswer w.ibs)) : Prop := w.completeFrom 0 reads

/-! ## The output -/

/-- What has been converted of `xs`. -/
def Setup.sofar (w : Setup) (xs : List UInt8) : List UInt8 :=
  match w.cfunc with
  | .default => xs
  | .block => (blocker w).out (.filling []) xs
  | .unblock => (unblocker w).out [] xs

/-- What the `_close` of the conversion adds. -/
def Setup.owed (w : Setup) (xs : List UInt8) : List UInt8 :=
  match w.cfunc with
  | .default => []
  | .block => ((blocker w).final (.filling []) xs).rest w.cbsz space
  | .unblock => Records.unblockRest space newline ((unblocker w).final [] xs)

def Setup.converted (w : Setup) (xs : List UInt8) : List UInt8 :=
  match w.cfunc with
  | .default => xs
  | .block => Records.blocked w.cbsz space newline xs
  | .unblock => Records.unblocked w.cbsz space newline xs

/-- How much is missing of the block that the output buffer holds at the end. -/
def Setup.missing (w : Setup) (xs : List UInt8) : Nat :=
  w.obs - ((w.sofar xs).length % w.obs + (w.owed xs).length)

/-- `conv=osync` puts its zeros from `out.dbp` on, which is in front of the record that `block_close`
has added. -/
def Setup.Overwrites (w : Setup) (xs : List UInt8) : Prop :=
  w.osync = true ∧ w.cfunc = .block ∧ w.owed xs ≠ [] ∧ 0 < w.missing xs

instance (w : Setup) (xs : List UInt8) : Decidable (w.Overwrites xs) :=
  inferInstanceAs (Decidable (_ ∧ _ ∧ _ ∧ _))

/-- The file. `stale` is what the buffer holds behind the last record. -/
def Setup.expected (w : Setup) (stale xs : List UInt8) : List UInt8 :=
  if w.Overwrites xs then
    w.sofar xs ++ (zeros (w.missing xs) ++ (w.owed xs ++ stale).drop (w.missing xs))
  else w.converted xs ++ if w.osync then zeros (w.missing xs) else []

/-- The whole blocks of what has been converted, and what is left at the end in one piece. -/
def Setup.pieces (w : Setup) (stale xs : List UInt8) : List (List UInt8) :=
  let whole := (w.sofar xs).length / w.obs * w.obs
  let last := (w.expected stale xs).drop whole
  Records.cut w.obs ((w.expected stale xs).take whole) ++ if last = [] then [] else [last]

/-- The buffers are as large as they are meant to be. -/
structure Setup.Sizes (w : Setup) : Prop where
  ibs : 0 < w.ibs
  obs : 0 < w.obs
  single : w.cfunc = .default → w.obs + w.ibs - 1 < 18446744073709551616
  cbsz : w.cfunc ≠ .default → 0 < w.cbsz
  input : w.cfunc ≠ .default → max w.ibs w.cbsz + w.cbsz < 4294967296
  output : w.cfunc ≠ .default → w.obs + w.cbsz < 4294967296

theorem Setup.Sizes.of_default (hcfunc : w.cfunc = .default) (hibs : 0 < w.ibs) (hobs : 0 < w.obs)
    (hsize : w.obs + w.ibs - 1 < 18446744073709551616) : w.Sizes :=
  ⟨hibs, hobs, fun _ => hsize, fun h => absurd hcfunc h, fun h => absurd hcfunc h,
    fun h => absurd hcfunc h⟩

theorem Setup.sofar_append (w : Setup) (xs ys : List UInt8) :
    w.sofar xs <+: w.sofar (xs ++ ys) := by
  rw [Setup.sofar, Setup.sofar]
  split
  · exact List.prefix_append ..
  · rw [Transducer.out_append]
    exact List.prefix_append ..
  · rw [Transducer.out_append]
    exact List.prefix_append ..

/-- What has been converted and what is owed. -/
theorem Setup.Sizes.sofar_owed (h : w.Sizes) (xs : List UInt8) :
    w.sofar xs ++ w.owed xs = w.converted xs := by
  have hcbsz := h.cbsz
  rw [Setup.sofar, Setup.owed, Setup.converted]
  split
  case h_1 => exact List.append_nil xs
  case h_2 hcfunc => exact Records.blocker_eq_blocked space (hcbsz (by rw [hcfunc]; exact nofun)) xs
  case h_3 hcfunc =>
    exact Records.unblocker_eq_unblocked space newline (hcbsz (by rw [hcfunc]; exact nofun)) xs

/-- At most one record is owed. -/
theorem Setup.Sizes.length_owed_le (h : w.Sizes) (xs : List UInt8) :
    (w.owed xs).length ≤ w.cbsz := by
  have hcbsz := h.cbsz
  rw [Setup.owed]
  split
  case h_1 => exact Nat.zero_le _
  case h_2 => exact Records.BlockState.length_rest_le ..
  case h_3 hcfunc =>
    have hlt := Records.length_unblocker space newline (hcbsz (by rw [hcfunc]; exact nofun)) xs
    have hle := Records.length_unblockRest_le space newline ((unblocker w).final [] xs)
    exact Nat.le_trans hle hlt

/-- Where `conv=osync` has nothing to fill, it changes nothing. -/
theorem Setup.expected_of_full {xs : List UInt8} (h : w.osync = true → w.missing xs = 0)
    (stale : List UInt8) : w.expected stale xs = w.converted xs := by
  have hnot : ¬w.Overwrites xs := fun ho => Nat.ne_of_gt ho.2.2.2 (h ho.1)
  rw [Setup.expected, if_neg hnot]
  split
  case isTrue hosync =>
    rw [h hosync]
    exact List.append_nil _
  case isFalse => exact List.append_nil _

theorem Setup.expected_of_not_osync (h : w.osync = false) (stale xs : List UInt8) :
    w.expected stale xs = w.converted xs :=
  w.expected_of_full (fun hosync => absurd (h.symm.trans hosync) Bool.false_ne_true) stale

theorem Setup.Sizes.sofar_isPrefix (h : w.Sizes) (stale xs : List UInt8) :
    w.sofar xs <+: w.expected stale xs := by
  rw [Setup.expected]
  split
  case isTrue => exact List.prefix_append ..
  case isFalse =>
    rw [← h.sofar_owed, List.append_assoc]
    exact List.prefix_append ..

/-! ## Between two reads -/

/-- The state in which all of `xs` has been taken. -/
def Ready (w : Setup) (script : List WriteAnswer) (s : State) (xs : List UInt8) : Prop :=
  match w.cfunc with
  | .default => CopyReady w script s (w.sofar xs)
  | .block => BlockReady w script s (w.sofar xs) ((blocker w).final (.filling []) xs) ∧
    s.inDb.length = max w.ibs w.cbsz + w.cbsz
  | .unblock => UnblockReady w script s (w.sofar xs) ((unblocker w).final [] xs) ∧
    s.inDb.length = max w.ibs w.cbsz + w.cbsz

/-- The state with `bytes` in the input buffer, and other counters. -/
def State.filled (s : State) (db : List UInt8) (inFull inPart : Nat) : State :=
  { s with inDb := db, inFull, inPart }

section

variable {before tail bytes : List UInt8}

theorem length_fill (hlen : bytes.length ≤ tail.length) :
    (before ++ (bytes ++ tail.drop bytes.length)).length = (before ++ tail).length := by
  simp only [List.length_append, List.length_drop]
  omega

theorem Buffered.filled {sofar : List UInt8} {size : Nat} (h : Buffered w script s sofar size)
    (hseparate : s.outDb.isSome = true) (db : List UInt8) (inFull inPart : Nat) :
    Buffered w script (s.filled db inFull inPart) sofar size := by
  obtain ⟨held, room, hheld, hlt, hsize⟩ := h
  exact ⟨held, room, hheld.congr rfl rfl rfl rfl (State.outMem_congr hseparate rfl), hlt, hsize⟩

theorem CopyReady.filled {sofar : List UInt8} (h : CopyReady w script s sofar)
    (hinDb : s.inDb = before ++ tail) (hbefore : before.length = s.inDbp)
    (hlen : bytes.length ≤ tail.length) (inFull inPart : Nat) :
    CopyReady w script
      (s.filled (before ++ (bytes ++ tail.drop bytes.length)) inFull inPart) sofar := by
  obtain ⟨held, room, hheld, hlt, hsize⟩ := h.buffered
  have hmem := h.outMem.symm.trans hheld.outMem
  rw [hinDb] at hmem
  obtain ⟨rfl, rfl⟩ :=
    List.append_inj hmem (by rw [hbefore, h.inDbp, hheld.outDbp])
  refine ⟨⟨before, bytes ++ tail.drop bytes.length, ?_, hlt, ?_⟩, h.shared, h.inDbp, h.inDbcnt,
    h.direct⟩
  · refine ⟨hheld.writing, hheld.settled, hheld.outDbp, hheld.outDbcnt, ?_, hheld.sofar,
      hheld.blocks⟩
    rw [State.outMem]
    exact congrArg (Option.getD · _) h.shared
  · exact (length_fill hlen).trans hsize

/-- What is kept at the beginning of the input buffer is not touched. -/
theorem isPrefix_filled {part : List UInt8} (hpart : part <+: before ++ tail)
    (hlen : part.length = before.length) (db : List UInt8) : part <+: before ++ db := by
  rw [List.prefix_iff_eq_take, hlen, List.take_left] at hpart
  rw [hpart]
  exact List.prefix_append ..

theorem Ready.room (hsizes : w.Sizes) (h : Ready w script s xs) :
    ∃ before tail, s.inDb = before ++ tail ∧ before.length = s.inDbp ∧ w.ibs ≤ tail.length := by
  have hibs := hsizes.ibs
  suffices hroom : s.inDbp + w.ibs ≤ s.inDb.length by
    refine ⟨s.inDb.take s.inDbp, s.inDb.drop s.inDbp, (List.take_append_drop ..).symm, ?_, ?_⟩
    · exact List.length_take_of_le (by omega)
    · rw [List.length_drop]
      omega
  have hcbsz := hsizes.cbsz
  rw [Ready] at h
  split at h
  case h_1 =>
    obtain ⟨held, room, hheld, hlt, hsize⟩ := h.buffered
    rw [← h.outMem, hheld.outMem, hsize, h.inDbp, hheld.outDbp]
    omega
  case h_2 hcfunc =>
    obtain ⟨hready, hlen⟩ := h
    have hpos := hcbsz (by rw [hcfunc]; exact nofun)
    have hinput := hready.input
    rw [hlen, hready.inDbp]
    generalize (blocker w).final (.filling []) xs = state at hinput
    cases state with
    | filling part =>
      obtain ⟨-, hdbcnt, -, -, hlt⟩ := hinput
      omega
    | tossing =>
      obtain ⟨-, hdbcnt⟩ := hinput
      omega
  case h_3 =>
    obtain ⟨hready, hlen⟩ := h
    have hshort := hready.short
    rw [hlen, hready.inDbp]
    omega

theorem Ready.filled (h : Ready w script s xs) (hinDb : s.inDb = before ++ tail)
    (hbefore : before.length = s.inDbp) (hlen : bytes.length ≤ tail.length) (inFull inPart : Nat) :
    Ready w script (s.filled (before ++ (bytes ++ tail.drop bytes.length)) inFull inPart) xs := by
  rw [Ready] at h ⊢
  split at h
  case h_1 => exact h.filled hinDb hbefore hlen inFull inPart
  case h_2 =>
    obtain ⟨hready, hsize⟩ := h
    refine ⟨⟨hready.buffered.filled hready.separate .., hready.separate, ?_, hready.inDbp⟩, ?_⟩
    · have hinput := hready.input
      have hinDbp := hready.inDbp
      generalize (blocker w).final (.filling []) xs = state at hinput ⊢
      cases state with
      | filling part =>
        obtain ⟨hintrunc, hdbcnt, hpart, hline, hlt⟩ := hinput
        rw [hinDb] at hpart
        exact ⟨hintrunc, hdbcnt, isPrefix_filled hpart (by omega) _, hline, hlt⟩
      | tossing => exact hinput
    · rw [hinDb] at hsize
      exact (length_fill hlen).trans hsize
  case h_3 =>
    obtain ⟨hready, hsize⟩ := h
    refine ⟨⟨hready.buffered.filled hready.separate .., hready.separate, ?_, hready.inDbcnt,
      hready.inDbp, hready.short⟩, ?_⟩
    · have hpart := hready.input
      rw [hinDb] at hpart
      exact isPrefix_filled hpart (hready.inDbp.symm.trans hbefore.symm) _
    · rw [hinDb] at hsize
      exact (length_fill hlen).trans hsize

end

theorem Setup.sofar_default (hcfunc : w.cfunc = .default) (xs : List UInt8) : w.sofar xs = xs := by
  rw [Setup.sofar, hcfunc]

theorem ready_default (hcfunc : w.cfunc = .default) :
    Ready w script s xs ↔ CopyReady w script s xs := by
  rw [Ready, Setup.sofar, hcfunc]

theorem Setup.sofar_block (hcfunc : w.cfunc = .block) (xs : List UInt8) :
    w.sofar xs = (blocker w).out (.filling []) xs := by
  rw [Setup.sofar, hcfunc]

theorem ready_block (hcfunc : w.cfunc = .block) :
    Ready w script s xs ↔ BlockReady w script s ((blocker w).out (.filling []) xs)
      ((blocker w).final (.filling []) xs) ∧ s.inDb.length = max w.ibs w.cbsz + w.cbsz := by
  rw [Ready, Setup.sofar, hcfunc]

theorem Setup.sofar_unblock (hcfunc : w.cfunc = .unblock) (xs : List UInt8) :
    w.sofar xs = (unblocker w).out [] xs := by
  rw [Setup.sofar, hcfunc]

theorem ready_unblock (hcfunc : w.cfunc = .unblock) :
    Ready w script s xs ↔ UnblockReady w script s ((unblocker w).out [] xs)
      ((unblocker w).final [] xs) ∧ s.inDb.length = max w.ibs w.cbsz + w.cbsz := by
  rw [Ready, Setup.sofar, hcfunc]

theorem Setup.buffered (w : Setup) (hcfunc : w.cfunc ≠ .default) : w.bs = false := by
  rw [← Bool.not_eq_true]
  exact fun hbs => hcfunc (w.alone hbs).1

theorem Ready.ended (h : Ready w script s xs) : Ready w script { s with inDbrcnt := 0 } xs := by
  have hbuffered {sofar : List UInt8} {size : Nat} (hbuffered : Buffered w script s sofar size) :
      Buffered w script { s with inDbrcnt := 0 } sofar size := by
    obtain ⟨held, room, hheld, hlt, hsize⟩ := hbuffered
    exact ⟨held, room, hheld.congr rfl rfl rfl rfl rfl, hlt, hsize⟩
  rw [Ready] at h ⊢
  split at h
  case h_1 => exact ⟨hbuffered h.buffered, h.shared, h.inDbp, h.inDbcnt, h.direct⟩
  case h_2 =>
    refine ⟨⟨hbuffered h.1.buffered, h.1.separate, ?_, h.1.inDbp⟩, h.2⟩
    have hinput := h.1.input
    generalize (blocker w).final (.filling []) xs = state at hinput ⊢
    cases state with
    | filling part => exact hinput
    | tossing => exact hinput
  case h_3 =>
    exact ⟨⟨hbuffered h.1.buffered, h.1.separate, h.1.input, h.1.inDbcnt, h.1.inDbp, h.1.short⟩,
      h.2⟩

/-- A block that is taken. -/
theorem digest_spec (hsizes : w.Sizes) {before bytes behind : List UInt8} (h : Ready w script s xs)
    (hinDb : s.inDb = before ++ (bytes ++ behind)) (hbefore : before.length = s.inDbp)
    (hne : bytes ≠ []) :
    (digest w bytes.length s).Meets
      (fun s' => Ready w script s' (xs ++ bytes) ∧ s'.inFull = s.inFull ∧ s'.inPart = s.inPart)
      (Halt.Within w script (w.sofar (xs ++ bytes))) := by
  have hobs := hsizes.obs
  have hcbsz := hsizes.cbsz
  rw [digest]
  cases hcfunc : w.cfunc with
  | default =>
    rw [Setup.sofar_default hcfunc]
    rw [ready_default hcfunc] at h
    have hdone (s' : State) (hs' : CopyReady w script s' (xs ++ bytes) ∧ Kept s s') :
        Ready w script s' (xs ++ bytes) ∧ s'.inFull = s.inFull ∧ s'.inPart = s.inPart :=
      ⟨(ready_default hcfunc).mpr hs'.1, hs'.2.inFull, hs'.2.inPart⟩
    cases hbs : w.bs with
    | true => exact (direct_spec hobs h hbs hinDb hbefore hne rfl).mono hdone fun e => id
    | false =>
      rw [convert, hcfunc]
      exact (ddDef_spec hobs h hbs hinDb hbefore).mono hdone fun e => id
  | block =>
    have hne' : w.cfunc ≠ .default := by rw [hcfunc]; exact nofun
    rw [w.buffered hne', convert, hcfunc, Setup.sofar_block hcfunc, Transducer.out_append]
    rw [ready_block hcfunc] at h
    refine (block_spec hobs (hcbsz hne') h.1 hinDb hbefore).mono ?_ fun e => id
    rintro s' ⟨hready, hkept⟩
    rw [← Transducer.out_append, ← Transducer.final_append] at hready
    exact ⟨(ready_block hcfunc).mpr ⟨hready, hkept.inDb.trans h.2⟩, hkept.inFull, hkept.inPart⟩
  | unblock =>
    have hne' : w.cfunc ≠ .default := by rw [hcfunc]; exact nofun
    rw [w.buffered hne', convert, hcfunc, Setup.sofar_unblock hcfunc, Transducer.out_append]
    rw [ready_unblock hcfunc] at h
    refine (unblock_spec hobs (hcbsz hne') h.1 hinDb hbefore).mono ?_ fun e => id
    rintro s' ⟨hready, hkept⟩
    rw [← Transducer.out_append, ← Transducer.final_append] at hready
    exact ⟨(ready_unblock hcfunc).mpr ⟨hready, hkept.inDb.trans h.2⟩, hkept.inFull, hkept.inPart⟩

/-! ## Taking the input -/

section

variable {answer : ReadAnswer w.ibs} {reads : List (ReadAnswer w.ibs)} {counted : Nat}

theorem Setup.inputFrom_counted (h : w.cpyCnt ≠ 0 ∧ w.cpyCnt ≤ counted)
    (reads : List (ReadAnswer w.ibs)) : w.inputFrom counted reads = [] := by
  rw [Setup.inputFrom, if_neg h.1, Nat.sub_eq_zero_of_le h.2]
  rfl

theorem Setup.blocks_stop (h : w.continues answer = false) (reads : List (ReadAnswer w.ibs)) :
    w.blocks (answer :: reads) = [] := by
  rw [Setup.blocks, List.takeWhile_cons, h]
  rfl

theorem Setup.inputFrom_stop (h : w.continues answer = false) (reads : List (ReadAnswer w.ibs)) :
    w.inputFrom counted (answer :: reads) = [] := by
  rw [Setup.inputFrom, w.blocks_stop h, List.take_nil]
  split <;> rfl

theorem Setup.blocks_skip (h : w.continues answer = true) (hnone : w.contribution answer = none) :
    w.blocks (answer :: reads) = w.blocks reads := by
  rw [Setup.blocks, List.takeWhile_cons, if_pos h, List.filterMap_cons_none hnone, Setup.blocks]

theorem Setup.blocks_take {block : List UInt8} (h : w.continues answer = true)
    (hsome : w.contribution answer = some block) :
    w.blocks (answer :: reads) = block :: w.blocks reads := by
  rw [Setup.blocks, List.takeWhile_cons, if_pos h, List.filterMap_cons_some hsome, Setup.blocks]

theorem Setup.inputFrom_take {block : List UInt8} (h : w.continues answer = true)
    (hsome : w.contribution answer = some block) (hcount : ¬(w.cpyCnt ≠ 0 ∧ w.cpyCnt ≤ counted)) :
    w.inputFrom counted (answer :: reads) = block ++ w.inputFrom (counted + 1) reads := by
  rw [Setup.inputFrom, Setup.inputFrom, w.blocks_take h hsome]
  split
  case isTrue => exact List.flatten_cons
  case isFalse hne =>
    have hsub : w.cpyCnt - counted = w.cpyCnt - (counted + 1) + 1 := by omega
    rw [hsub, List.take_succ_cons, List.flatten_cons]

theorem Setup.inputFrom_skip (h : w.continues answer = true)
    (hnone : w.contribution answer = none) :
    w.inputFrom counted (answer :: reads) = w.inputFrom counted reads := by
  rw [Setup.inputFrom, w.blocks_skip h hnone, Setup.inputFrom]

theorem Setup.completeFrom_skip (h : w.continues answer = true)
    (hnone : w.contribution answer = none) :
    w.completeFrom counted (answer :: reads) ↔ w.completeFrom counted reads := by
  rw [Setup.completeFrom, Setup.completeFrom, w.blocks_skip h hnone, List.exists_mem_cons_iff, h]
  simp only [Bool.true_eq_false, false_or]

theorem Setup.completeFrom_take {block : List UInt8} (h : w.continues answer = true)
    (hsome : w.contribution answer = some block) :
    w.completeFrom counted (answer :: reads) ↔ w.completeFrom (counted + 1) reads := by
  rw [Setup.completeFrom, Setup.completeFrom, w.blocks_take h hsome, List.exists_mem_cons_iff, h,
    List.length_cons, Nat.add_right_comm, Nat.add_assoc]
  simp only [Bool.true_eq_false, false_or]

end

/-- How a run may end before its time. -/
def Halt.EarlyFrom (w : Setup) (counted : Nat) (reads : List (ReadAnswer w.ibs))
    (script : List WriteAnswer) (expected : List UInt8) : Halt → Prop
  | .waiting .read ops => fileOf ops <+: expected ∧ ¬w.completeFrom counted reads
  | .exited .read ops => fileOf ops <+: expected ∧ w.noerror = false ∧ .failed ∈ reads
  | e => e.Within w script expected

theorem Halt.Within.earlyFrom {reads : List (ReadAnswer w.ibs)} {e : Halt}
    (h : e.Within w script xs) (counted : Nat) : e.EarlyFrom w counted reads script xs := by
  cases e with
  | waiting call ops =>
    cases call with
    | read => exact h.elim
    | lseek => exact h
    | write => exact h
  | exited call ops =>
    cases call with
    | read => exact h.elim
    | lseek => exact h
    | write => exact h
  | fault => exact h
  | outOfFuel => exact h

theorem Halt.EarlyFrom.mono {reads : List (ReadAnswer w.ibs)} {counted : Nat} {ys : List UInt8}
    {e : Halt} (h : e.EarlyFrom w counted reads script xs) (hxs : xs <+: ys) :
    e.EarlyFrom w counted reads script ys := by
  cases e with
  | fault => exact h
  | outOfFuel => exact h
  | waiting call ops =>
    cases call with
    | read => exact ⟨h.1.trans hxs, h.2⟩
    | lseek => exact h
    | write => exact ⟨h.1.trans hxs, Nat.lt_of_lt_of_le h.2 hxs.length_le⟩
  | exited call ops =>
    cases call with
    | read => exact ⟨h.1.trans hxs, h.2⟩
    | lseek => exact ⟨h.1.trans hxs, h.2⟩
    | write => exact ⟨h.1.trans hxs, h.2⟩

/-- One more answer. -/
theorem Halt.EarlyFrom.cons {answer : ReadAnswer w.ibs} {reads : List (ReadAnswer w.ibs)}
    {counted counted' : Nat} {e : Halt} (h : e.EarlyFrom w counted' reads script xs)
    (hcomplete : w.completeFrom counted (answer :: reads) → w.completeFrom counted' reads) :
    e.EarlyFrom w counted (answer :: reads) script xs := by
  cases e with
  | fault => exact h
  | outOfFuel => exact h
  | waiting call ops =>
    cases call with
    | read => exact ⟨h.1, fun hcons => h.2 (hcomplete hcons)⟩
    | lseek => exact h
    | write => exact h
  | exited call ops =>
    cases call with
    | read => exact ⟨h.1, h.2.1, List.mem_cons_of_mem _ h.2.2⟩
    | lseek => exact h
    | write => exact h

theorem Ready.fileOf_isPrefix (h : Ready w script s xs) : fileOf s.out.ops <+: w.sofar xs := by
  have hheld {sofar : List UInt8} {size : Nat} (hbuffered : Buffered w script s sofar size) :
      fileOf s.out.ops <+: sofar := by
    obtain ⟨held, room, hheld, -, -⟩ := hbuffered
    rw [← hheld.sofar]
    exact hheld.writing.fileOf_isPrefix.trans (List.prefix_append ..)
  rw [Ready] at h
  split at h
  case h_1 => exact hheld h.buffered
  case h_2 => exact hheld h.1.buffered
  case h_3 => exact hheld h.1.buffered

/-- There is room for a block, which is cleared if it is filled up. -/
theorem clear_spec (hsizes : w.Sizes) (h : Ready w script s xs) :
    ∃ before base behind, Mem.slice (before ++ (base ++ behind)) s.inDbp w.ibs = .ok base ∧
      base.length = w.ibs ∧ before.length = s.inDbp ∧
      (w.sync = true → base = List.replicate w.ibs w.filler) ∧
      clear w s = .ok (s.filled (before ++ (base ++ behind)) s.inFull s.inPart) ∧
      Ready w script (s.filled (before ++ (base ++ behind)) s.inFull s.inPart) xs := by
  obtain ⟨before, tail, hinDb, hbefore, hroom⟩ := h.room hsizes
  have hslice (base : List UInt8) (hlen : base.length = w.ibs) (behind : List UInt8) :
      Mem.slice (before ++ (base ++ behind)) s.inDbp w.ibs = .ok base := by
    rw [← hbefore, ← hlen]
    exact Mem.slice_append ..
  rw [clear]
  split
  case isTrue hsync =>
    have hlen : (List.replicate w.ibs w.filler).length = w.ibs := List.length_replicate
    refine ⟨before, List.replicate w.ibs w.filler, tail.drop w.ibs, hslice _ hlen _, hlen, hbefore,
      fun _ => rfl, ?_, ?_⟩
    · have hsplice : Mem.splice s.inDb s.inDbp (List.replicate w.ibs w.filler) =
          .ok (before ++ (List.replicate w.ibs w.filler ++ tail.drop w.ibs)) := by
        rw [hinDb, ← hbefore, Mem.splice_append before _ tail (hlen.symm ▸ hroom), hlen]
      rw [hsplice]
      rfl
    · have hfilled := h.filled hinDb hbefore (hlen.symm ▸ hroom) s.inFull s.inPart
      rw [hlen] at hfilled
      exact hfilled
  case isFalse hsync =>
    have hself : s.filled (before ++ (tail.take w.ibs ++ tail.drop w.ibs)) s.inFull s.inPart = s := by
      rw [List.take_append_drop, ← hinDb]
      rfl
    have hlen : (tail.take w.ibs).length = w.ibs := List.length_take_of_le hroom
    refine ⟨before, tail.take w.ibs, tail.drop w.ibs, hslice _ hlen _, hlen, hbefore,
      fun htrue => absurd htrue hsync, ?_, ?_⟩
    · rw [hself]
    · rw [hself]
      exact h

/-- What is read, filled up. -/
theorem read_block {before base bytes : List UInt8} (behind : List UInt8)
    (hsync : w.sync = true → base = List.replicate w.ibs w.filler) (hfits : bytes.length ≤ w.ibs) :
    ∃ block behind', w.contribution (.gives bytes hfits) = some block ∧
      block.length = (if w.sync then w.ibs else bytes.length) ∧ bytes.length ≤ block.length ∧
      before ++ (bytes ++ (base ++ behind).drop bytes.length) = before ++ (block ++ behind') := by
  rw [Setup.contribution]
  split
  case isTrue htrue =>
    refine ⟨_, behind, rfl, ?_, ?_, ?_⟩
    · rw [List.length_append, List.length_replicate]
      omega
    · rw [List.length_append]
      exact Nat.le_add_right ..
    · rw [hsync htrue, List.drop_append_of_le_length (by rw [List.length_replicate]; exact hfits),
        List.drop_replicate, List.append_assoc bytes]
  case isFalse => exact ⟨bytes, _, rfl, rfl, Nat.le_refl _, rfl⟩

/-- A block is taken, and the rest of the answers. -/
theorem ddIn_take (hsizes : w.Sizes) {answer : ReadAnswer w.ibs} {reads : List (ReadAnswer w.ibs)}
    {counted : Nat} {block before behind : List UInt8}
    (ih : ∀ {s xs}, Ready w script s xs → (ddIn w reads s).Meets
      (fun s' => Ready w script s' (xs ++ w.inputFrom (s.inFull + s.inPart) reads))
      (Halt.EarlyFrom w (s.inFull + s.inPart) reads script
        (w.sofar (xs ++ w.inputFrom (s.inFull + s.inPart) reads))))
    (hcontinues : w.continues answer = true) (hsome : w.contribution answer = some block)
    (hmore : ¬(w.cpyCnt ≠ 0 ∧ w.cpyCnt ≤ counted)) (h : Ready w script s xs)
    (hinDb : s.inDb = before ++ (block ++ behind)) (hbefore : before.length = s.inDbp)
    (hne : block ≠ []) (hcounted : s.inFull + s.inPart = counted + 1) :
    (digest w block.length s >>= ddIn w reads).Meets
      (fun s' => Ready w script s' (xs ++ w.inputFrom counted (answer :: reads)))
      (Halt.EarlyFrom w counted (answer :: reads) script
        (w.sofar (xs ++ w.inputFrom counted (answer :: reads)))) := by
  rw [Setup.inputFrom_take hcontinues hsome hmore, ← List.append_assoc]
  refine ((digest_spec hsizes h hinDb hbefore hne).mono (fun _ => id) fun e he =>
    (he.mono (w.sofar_append ..)).earlyFrom counted).bind ?_
  rintro s' ⟨hready, hfull, hpart⟩
  have hrest := ih hready
  rw [hfull, hpart, hcounted] at hrest
  refine hrest.mono (fun _ => id) fun e he => ?_
  exact he.cons (w.completeFrom_take hcontinues hsome).mp

/-- All of the input is taken, as far as `read` answers. -/
theorem ddIn_spec (hsizes : w.Sizes) (reads : List (ReadAnswer w.ibs)) (h : Ready w script s xs) :
    (ddIn w reads s).Meets
      (fun s' => Ready w script s' (xs ++ w.inputFrom (s.inFull + s.inPart) reads))
      (Halt.EarlyFrom w (s.inFull + s.inPart) reads script
        (w.sofar (xs ++ w.inputFrom (s.inFull + s.inPart) reads))) := by
  induction reads generalizing s xs with
  | nil =>
    rw [ddIn]
    split
    case isTrue hcount =>
      rw [w.inputFrom_counted hcount, List.append_nil]
      exact h
    case isFalse hmore =>
      obtain ⟨before, base, behind, hslice, -, -, -, hclear, -⟩ := clear_spec hsizes h
      rw [hclear, checked, Except.ok_bind]
      show (checked (Mem.slice (before ++ (base ++ behind)) s.inDbp w.ibs) >>= _).Meets _ _
      rw [hslice, checked, Except.ok_bind]
      refine ⟨h.fileOf_isPrefix.trans (w.sofar_append ..), ?_⟩
      rintro (⟨_, hmem, -⟩ | hcount)
      · exact absurd hmem List.not_mem_nil
      · exact hmore hcount
  | cons answer reads ih =>
    rw [ddIn]
    split
    case isTrue hcount =>
      rw [w.inputFrom_counted hcount, List.append_nil]
      exact h
    case isFalse hmore =>
      obtain ⟨before, base, behind, hslice, hbase, hbefore, hsync, hclear, hready⟩ :=
        clear_spec hsizes h
      have hinDb : (s.filled (before ++ (base ++ behind)) s.inFull s.inPart).inDb =
          before ++ (base ++ behind) := rfl
      rw [hclear, checked, Except.ok_bind]
      show (checked (Mem.slice (before ++ (base ++ behind)) s.inDbp w.ibs) >>= _).Meets _ _
      rw [hslice, checked, Except.ok_bind]
      cases answer with
      | gives bytes hfits =>
        dsimp only
        split
        case isTrue hend =>
          have hstop : w.continues (.gives bytes hfits) = false := decide_eq_false (not_not.mpr hend)
          rw [w.inputFrom_stop hstop, List.append_nil]
          exact hready.ended
        case isFalse hmore' =>
          have hcontinues : w.continues (.gives bytes hfits) = true := decide_eq_true hmore'
          have htail : bytes.length ≤ (base ++ behind).length := by
            rw [List.length_append]
            omega
          have hsplice := Mem.splice_append before bytes (base ++ behind) htail
          rw [hbefore] at hsplice
          obtain ⟨block, behind', hsome, hlen, hle, hdb⟩ := read_block behind hsync hfits
          rw [hdb] at hsplice
          have hne : block ≠ [] := by
            rintro rfl
            exact hmore' (Nat.le_zero.mp hle)
          have hfilled (inFull inPart : Nat) :
              Ready w script (s.filled (before ++ (block ++ behind')) inFull inPart) xs := by
            rw [← hdb]
            exact hready.filled hinDb hbefore htail _ _
          show (checked (Mem.splice (before ++ (base ++ behind)) s.inDbp bytes) >>= _).Meets _ _
          rw [hsplice, checked, Except.ok_bind]
          split
          case isTrue hfull =>
            have hn : block.length = bytes.length := by
              rw [hlen, hfull, ite_self]
            rw [← hn]
            exact ddIn_take hsizes ih hcontinues hsome hmore (hfilled (s.inFull + 1) s.inPart) rfl
              hbefore hne (Nat.add_right_comm ..)
          case isFalse =>
            rw [← hlen]
            exact ddIn_take hsizes ih hcontinues hsome hmore (hfilled s.inFull (s.inPart + 1)) rfl
              hbefore hne rfl
      | failed =>
        dsimp only
        split
        case isTrue hnoerror =>
          exact ⟨h.fileOf_isPrefix.trans (w.sofar_append ..), hnoerror, List.mem_cons_self⟩
        case isFalse hnoerror =>
          have hcontinues : w.continues .failed = true := Bool.of_not_eq_false hnoerror
          split
          case isTrue hnosync =>
            have hnone : w.contribution .failed = none := by rw [Setup.contribution, hnosync]; rfl
            rw [w.inputFrom_skip hcontinues hnone]
            refine (ih hready).mono (fun _ => id) fun e he => ?_
            exact he.cons (w.completeFrom_skip hcontinues hnone).mp
          case isFalse hsync' =>
            have htrue : w.sync = true := Bool.of_not_eq_false hsync'
            have hsome : w.contribution .failed = some base := by
              rw [Setup.contribution, if_pos htrue, hsync htrue]
            have hne : base ≠ [] := by
              rw [← List.length_pos_iff, hbase]
              exact hsizes.ibs
            have hnothing : ([] : List UInt8).length ≤ (base ++ behind).length := Nat.zero_le _
            have hfilled := hready.filled hinDb hbefore hnothing (s.inFull + 1) s.inPart
            have htake := ddIn_take hsizes ih hcontinues hsome hmore hfilled rfl hbefore hne
              (Nat.add_right_comm ..)
            rw [hbase] at htake
            exact htake

/-! ## The end -/

theorem convertClose_spec (hsizes : w.Sizes) (h : Ready w script s xs) :
    ∃ s', convertClose w s = .ok s' ∧ Closed w script s' (w.sofar xs) (w.owed xs) := by
  rw [convertClose, Setup.owed]
  cases hcfunc : w.cfunc with
  | default =>
    rw [ready_default hcfunc] at h
    rw [Setup.sofar_default hcfunc]
    have hibs := hsizes.ibs
    have hself : ddDefClose s = s := by
      rw [ddDefClose]
      split
      · rfl
      · exact congrArg (fun outDbcnt => { s with outDbcnt }) h.inDbcnt
    exact ⟨s, congrArg Except.ok hself, h.buffered.closed (by omega)⟩
  | block =>
    rw [Setup.sofar_block hcfunc]
    exact blockClose_spec hcfunc ((ready_block hcfunc).mp h).1
  | unblock =>
    rw [Setup.sofar_unblock hcfunc]
    exact unblockClose_spec hcfunc ((ready_unblock hcfunc).mp h).1

/-- All that is left of `total` to be written is in the buffer. -/
structure Finishing (w : Setup) (script : List WriteAnswer) (s : State) (xs total : List UInt8) :
    Prop where
  writing : Writing w script s.answers s.out
  settled : s.outDbcnt = 0 → Settled s.out
  held : ∃ held room, s.outMem = held ++ room ∧ s.outDbcnt = held.length ∧
    w.obs ≤ (held ++ room).length ∧ s.out.image ++ held = total ∧
    (held.length ≤ w.obs ∨ held.length < w.obs + (w.owed xs).length)
  blocks : w.bs = false → w.sparse = false →
    s.out.image.length = (w.sofar xs).length / w.obs * w.obs ∧
      (Whole w script → ∀ op ∈ s.out.ops, op.Full w)

/-- The buffer holds what is behind the whole blocks. -/
theorem length_held (hobs : 0 < w.obs) {image held sofar : List UInt8} (hdvd : w.obs ∣ image.length)
    (hsofar : image ++ held = sofar) (hlt : held.length < w.obs) :
    image.length = sofar.length / w.obs * w.obs ∧ held.length = sofar.length % w.obs := by
  obtain ⟨k, hk⟩ := hdvd
  rw [← hsofar, List.length_append, hk, Nat.mul_add_div hobs, Nat.div_eq_of_lt hlt, Nat.mul_add_mod,
    Nat.mod_eq_of_lt hlt, Nat.add_zero]
  exact ⟨Nat.mul_comm .., rfl⟩

/-- The zeros of `conv=osync` come behind what the buffer holds, or over the record that
`block_close` has added. -/
theorem splice_zeros {held owed room : List UInt8} {dbp missing : Nat}
    (hdbp : dbp = held.length + if w.cfunc = .block then 0 else owed.length)
    (hroom : missing ≤ room.length) :
    ∃ stale block rest, stale.length = missing ∧
      Mem.splice (held ++ (owed ++ room)) dbp (zeros missing) = .ok (block ++ rest) ∧
      block.length = held.length + owed.length + missing ∧
      rest.length = room.length - missing ∧
      block = held ++ (if w.cfunc = .block ∧ owed ≠ [] then
        zeros missing ++ (owed ++ stale).drop missing else owed ++ zeros missing) := by
  have hlen := length_zeros missing
  have hstale : (room.take missing).length = missing := List.length_take_of_le hroom
  by_cases hblock : w.cfunc = .block ∧ owed ≠ []
  · have hsplice := Mem.splice_append held (zeros missing) (owed ++ room)
      (by rw [hlen, List.length_append]; omega)
    have hdrop : (owed ++ room).drop missing =
        (owed ++ room.take missing).drop missing ++ room.drop missing := by
      rw [← List.drop_append_of_le_length (by rw [List.length_append, hstale]; omega),
        List.append_assoc, List.take_append_drop]
    rw [hlen, hdrop, ← List.append_assoc (zeros missing), ← List.append_assoc held _ (room.drop _)]
      at hsplice
    refine ⟨room.take missing, _, room.drop missing, hstale, ?_, ?_, List.length_drop,
      congrArg (held ++ ·) (if_pos hblock).symm⟩
    · rw [hdbp, if_pos hblock.1]
      exact hsplice
    · simp only [List.length_append, List.length_drop, hlen, hstale]
      omega
  · have hsplice := Mem.splice_append (held ++ owed) (zeros missing) room (hlen.symm ▸ hroom)
    rw [hlen, List.append_assoc held, ← List.append_assoc (held ++ owed), List.length_append]
      at hsplice
    have hend : dbp = held.length + owed.length := by
      rw [hdbp]
      split
      case isTrue hcfunc =>
        obtain rfl : owed = [] := not_not.mp fun hne => hblock ⟨hcfunc, hne⟩
        rfl
      case isFalse => rfl
    refine ⟨room.take missing, held ++ owed ++ zeros missing, room.drop missing, hstale, ?_, ?_,
      List.length_drop, ?_⟩
    · rw [hend]
      exact hsplice
    · simp only [List.length_append, hlen]
    · rw [if_neg hblock, List.append_assoc]

theorem padOutput_spec (hsizes : w.Sizes) (h : Closed w script s (w.sofar xs) (w.owed xs)) :
    ∃ s' stale, padOutput w s = .ok s' ∧ stale.length = w.missing xs ∧
      Finishing w script s' xs (w.expected stale xs) := by
  have hobs := hsizes.obs
  obtain ⟨hwriting, hsettled, ⟨held, room, hmem, hcnt, hdbp, hsize, himage, hlt⟩, hblocks⟩ := h
  have hwhole (hbs : w.bs = false) := length_held hobs (hblocks hbs).1 himage hlt
  have hmissing (hbs : w.bs = false) : w.missing xs = w.obs - s.outDbcnt := by
    rw [Setup.missing, ← (hwhole hbs).2, hcnt]
  have hbs (hosync : w.osync = true) : w.bs = false := by
    rw [← Bool.not_eq_true]
    exact fun hbs => Bool.false_ne_true ((w.alone hbs).2.1.symm.trans hosync)
  have hconverted := hsizes.sofar_owed xs
  rw [padOutput]
  by_cases hpad : w.osync = true ∧ s.outDbcnt < w.obs
  · obtain ⟨hosync, hless⟩ := hpad
    have hpos : 0 < w.missing xs := hmissing (hbs hosync) ▸ Nat.sub_pos_of_lt hless
    rw [hcnt] at hless
    simp only [List.length_append] at hsize
    have hroom : w.obs - s.outDbcnt ≤ room.length := by omega
    obtain ⟨stale, block, rest, hstale, hsplice, hlen, hrest, hblock⟩ := splice_zeros hdbp hroom
    rw [← hmissing (hbs hosync)] at hstale hblock
    have hexpected : s.out.image ++ block = w.expected stale xs := by
      rw [hblock, ← List.append_assoc, himage, Setup.expected]
      by_cases hover : w.cfunc = .block ∧ w.owed xs ≠ []
      · rw [if_pos hover, if_pos ⟨hosync, hover.1, hover.2, hpos⟩]
      · rw [if_neg hover, if_neg fun ho => hover ⟨ho.2.1, ho.2.2.1⟩, if_pos hosync, ← hconverted,
          List.append_assoc]
    have hobs' : block.length = w.obs := by omega
    rw [if_pos ⟨hosync, hcnt.symm ▸ hless⟩, hmem]
    show ∃ s' stale, (Mem.splice _ _ (zeros (w.obs - s.outDbcnt)) >>= _) = _ ∧ _
    rw [hsplice, Except.ok_bind]
    refine ⟨_, stale, rfl, hstale, ?_, fun hzero => absurd hzero (Nat.ne_of_gt hobs),
      ⟨block, rest, State.setOutMem_outMem .., hobs'.symm, ?_, ?_, .inl (Nat.le_of_eq hobs')⟩, ?_⟩
    · show Writing w script (s.setOutMem _).answers (s.setOutMem _).out
      rw [State.setOutMem_answers, State.setOutMem_out]
      exact hwriting
    · rw [List.length_append, hobs']
      exact Nat.le_add_right ..
    · show (s.setOutMem _).out.image ++ _ = _
      rw [State.setOutMem_out, hexpected]
    · intro hbs hdense
      show (s.setOutMem _).out.image.length = _ ∧ (_ → ∀ op ∈ (s.setOutMem _).out.ops, _)
      rw [State.setOutMem_out]
      exact ⟨(hwhole hbs).1, fun hall => (hblocks hbs).2 hall hdense⟩
  · have hfull (hosync : w.osync = true) : w.missing xs = 0 := by
      rw [hmissing (hbs hosync)]
      exact Nat.sub_eq_zero_of_le (Nat.not_lt.mp fun hless => hpad ⟨hosync, hless⟩)
    rw [if_neg hpad]
    refine ⟨s, zeros (w.missing xs), rfl, length_zeros _, hwriting, fun _ => hsettled,
      ⟨held ++ w.owed xs, room, by rw [hmem, List.append_assoc], by rw [hcnt, List.length_append],
        by rw [List.append_assoc]; exact hsize, ?_, .inr ?_⟩,
      fun hbs hdense => ⟨(hwhole hbs).1, fun hall => (hblocks hbs).2 hall hdense⟩⟩
    · rw [w.expected_of_full hfull, ← List.append_assoc, himage, hconverted]
    · rw [List.length_append]
      omega

/-- A last block of zeros is left to be written where the file would end in a hole. -/
theorem unsparse_spec (hobs : 0 < w.obs) {total : List UInt8}
    (h : Finishing w script s xs total) (hwhole : w.sparse = true → Whole w script) :
    ∃ s', unsparse w s = .ok s' ∧ Finishing w script s' xs total ∧
      (s'.outDbcnt = 0 → s'.out.pending = 0) := by
  obtain ⟨hwriting, hsettled, ⟨held, room, hmem, hcnt, hsize, himage, hfits⟩, hblocks⟩ := h
  rw [unsparse]
  by_cases hlast : s.outDbcnt = 0 ∧ s.out.pending ≠ 0
  · obtain ⟨hzero, hpending⟩ := hlast
    obtain rfl : held = [] := List.length_eq_zero_iff.mp (hcnt.symm.trans hzero)
    obtain ⟨hwriting', himage'⟩ := hwriting.unsparse hobs hpending hwhole
    have hsplice : Mem.splice s.outMem 0 (List.replicate w.obs 0) =
        .ok (zeros w.obs ++ room.drop w.obs) := by
      have hfront := Mem.splice_front (zeros w.obs) room (by rw [length_zeros]; exact hsize)
      rw [length_zeros] at hfront
      rw [hmem]
      exact hfront
    rw [if_pos ⟨hzero, hpending⟩, hsplice, Except.ok_bind]
    refine ⟨_, rfl, ⟨?_, fun hnone => absurd hnone (Nat.ne_of_gt hobs), ⟨zeros w.obs,
      room.drop w.obs, ?_, ?_, ?_, ?_, .inl (Nat.le_of_eq (length_zeros _))⟩, fun _ hdense => ?_⟩,
      fun hnone => absurd hnone (Nat.ne_of_gt hobs)⟩
    · show Writing w script (s.setOutMem _).answers
        { (s.setOutMem _).out with pending := s.out.pending - w.obs }
      rw [State.setOutMem_answers, State.setOutMem_out]
      exact hwriting'
    · exact State.setOutMem_outMem ..
    · exact (length_zeros _).symm
    · rw [List.length_append, length_zeros]
      omega
    · show Output.image { (s.setOutMem _).out with pending := s.out.pending - w.obs } ++ _ = _
      rw [State.setOutMem_out, himage', ← himage, List.append_nil]
    · exact absurd (hwriting.dense hdense) hpending
  · rw [if_neg hlast]
    refine ⟨s, rfl, ⟨hwriting, hsettled, ⟨held, room, hmem, hcnt, hsize, himage, hfits⟩, hblocks⟩,
      fun hzero => ?_⟩
    exact not_not.mp fun hpending => hlast ⟨hzero, hpending⟩

/-- The writes of whole blocks. -/
theorem ops_eq_cut (hobs : 0 < w.obs) {ops : List OutOp} (hfull : ∀ op ∈ ops, op.Full w) :
    ops = (Records.cut w.obs (written ops)).map .write := by
  have hwrites : ops = (ops.map OutOp.bytes).map .write := by
    rw [List.map_map]
    refine ((List.map_congr_left fun op hop => ?_).trans (List.map_id ops)).symm
    cases op with
    | seek offset => exact (hfull _ hop).elim
    | write bytes => rfl
  have hlens : ∀ l ∈ ops.map OutOp.bytes, l.length = w.obs := by
    intro l hl
    obtain ⟨op, hop, rfl⟩ := List.mem_map.mp hl
    cases op with
    | seek offset => exact (hfull _ hop).elim
    | write bytes => exact hfull _ hop
  have hcut := Records.cut_flatten_append hobs hlens []
  rw [Records.cut_nil, List.append_nil, List.append_nil] at hcut
  rw [written, List.flatMap_def, hcut]
  exact hwrites

/-- Behind the whole blocks the rest comes in one piece. -/
theorem Setup.pieces_eq {image last stale : List UInt8}
    (himage : image.length = (w.sofar xs).length / w.obs * w.obs)
    (hexpected : image ++ last = w.expected stale xs) :
    w.pieces stale xs = Records.cut w.obs image ++ if last = [] then [] else [last] := by
  rw [Setup.pieces, ← hexpected, ← himage, List.take_left, List.drop_left]

/-- Where the last piece is no more than a block, the output is cut into blocks. -/
theorem Setup.Sizes.pieces_eq_cut (hsizes : w.Sizes) {stale : List UInt8}
    (hlens : ∀ piece ∈ w.pieces stale xs, piece.length ≤ w.obs) :
    w.pieces stale xs = Records.cut w.obs (w.expected stale xs) := by
  have hle : (w.sofar xs).length / w.obs * w.obs ≤ (w.expected stale xs).length :=
    Nat.le_trans (Nat.div_mul_le_self ..) (hsizes.sofar_isPrefix stale xs).length_le
  obtain ⟨image, last, hexpected, himage⟩ : ∃ image last, image ++ last = w.expected stale xs ∧
      image.length = (w.sofar xs).length / w.obs * w.obs :=
    ⟨_, _, List.take_append_drop _ _, List.length_take_of_le hle⟩
  rw [w.pieces_eq himage hexpected] at hlens ⊢
  have hlast : last.length ≤ w.obs := by
    by_cases hnil : last = []
    · exact hnil ▸ Nat.zero_le _
    · rw [if_neg hnil] at hlens
      exact hlens last (List.mem_append_right _ (List.mem_singleton_self _))
  rw [← hexpected, Records.cut_append_of_dvd hsizes.obs ⟨_, himage.trans (Nat.mul_comm ..)⟩,
    Records.cut_of_le hlast]

/-- What a run that is complete has done. -/
structure Complete (w : Setup) (script : List WriteAnswer) (xs stale : List UInt8) (out : Output) :
    Prop where
  file : fileOf out.ops = w.expected stale xs
  bytes : out.bytes = (w.expected stale xs).length
  pieces : w.bs = false → w.sparse = false → AtOnce (w.obs + (w.owed xs).length) script →
    out.ops = (w.pieces stale xs).map .write ∧ ∀ piece ∈ w.pieces stale xs,
      piece.length < w.obs + max 1 (w.owed xs).length

/-- The whole blocks that are out and what is held are the pieces of the output. -/
theorem Finishing.pieces_eq {stale held : List UInt8} (hobs : 0 < w.obs)
    (h : Finishing w script s xs (w.expected stale xs))
    (himage : s.out.image ++ held = w.expected stale xs)
    (hfits : held.length ≤ w.obs ∨ held.length < w.obs + (w.owed xs).length)
    (hbs : w.bs = false) (hdense : w.sparse = false)
    (honce : AtOnce (w.obs + (w.owed xs).length) script) :
    s.out.ops ++ (if held = [] then [] else [.write held]) = (w.pieces stale xs).map .write ∧
      ∀ piece ∈ w.pieces stale xs, piece.length < w.obs + max 1 (w.owed xs).length := by
  obtain ⟨hblocks, hfull⟩ := h.blocks hbs hdense
  have hfull := hfull (honce.mono (Nat.le_add_right ..))
  have hops := ops_eq_cut hobs hfull
  rw [Output.image_of_settled (h.writing.dense hdense)] at hblocks himage
  rw [w.pieces_eq hblocks himage, List.map_append, ← hops]
  refine ⟨?_, fun piece hpiece => ?_⟩
  · split <;> rfl
  · rcases List.mem_append.mp hpiece with hpiece | hpiece
    · have hlen : piece.length = w.obs := hfull (.write piece) (hops ▸ List.mem_map_of_mem hpiece)
      omega
    · split at hpiece
      · exact absurd hpiece List.not_mem_nil
      · cases List.mem_singleton.mp hpiece
        omega

theorem ddClose_spec (hsizes : w.Sizes) (h : Ready w script s xs)
    (hwhole : w.sparse = true → Whole w script) :
    ∃ stale, stale.length = w.missing xs ∧ (ddClose w s).Meets
      (fun s' => Complete w script xs stale s'.out)
      (Halt.Within w script (w.expected stale xs)) := by
  obtain ⟨s₁, hclose, hclosed⟩ := convertClose_spec hsizes h
  obtain ⟨s₂, stale, hpad, hstale, hpadded⟩ := padOutput_spec hsizes hclosed
  obtain ⟨s₃, hunsparse, hfinishing, hpending⟩ := unsparse_spec hsizes.obs hpadded hwhole
  obtain ⟨held, room, hmem, hcnt, -, himage, hfits⟩ := hfinishing.held
  have hpieces := hfinishing.pieces_eq hsizes.obs himage hfits
  refine ⟨stale, hstale, ?_⟩
  rw [ddClose, hclose, checked, Except.ok_bind, hpad, checked, Except.ok_bind, hunsparse, checked,
    Except.ok_bind]
  split
  case isTrue hzero =>
    obtain rfl : held = [] := List.length_eq_zero_iff.mp (hcnt.symm.trans hzero)
    rw [List.append_nil] at himage
    have hnone := hpending hzero
    have hbytes := hfinishing.writing.bytes
    rw [himage, hnone, Int.add_zero] at hbytes
    refine ⟨(hfinishing.writing.fileOf_eq (hfinishing.settled hzero) hnone).trans himage, hbytes, ?_⟩
    intro hbs hdense honce
    obtain ⟨hops, hlens⟩ := hpieces hbs hdense honce
    rw [if_pos rfl, List.append_nil] at hops
    exact ⟨hops, hlens⟩
  case isFalse hne =>
    have hnonempty : held ≠ [] := fun hnil => hne (hcnt.trans (congrArg List.length hnil))
    have hout := ddOut_spec true hfinishing.writing hsizes.obs hmem hcnt hnonempty
    rw [himage] at hout
    refine hout.mono ?_ fun e => id
    rintro s' ⟨done, left, rest, answers, out, rfl, -, hnil, hplaced, hwrites, -, rfl⟩
    rw [if_pos rfl] at hnil
    subst hnil
    have hnone := hplaced.forced rfl
    have hbytes := hplaced.writing.bytes
    rw [hplaced.image, hnone, Int.add_zero] at hbytes
    rw [List.append_nil] at himage hpieces hfits hnonempty
    rw [himage] at hbytes
    refine ⟨?_, hbytes, ?_⟩
    · exact (hplaced.writing.fileOf_eq hplaced.settled hnone).trans (hplaced.image.trans himage)
    · intro hbs hdense honce
      obtain ⟨hops, hlens⟩ := hpieces hbs hdense honce
      rw [if_neg hnonempty] at hops
      refine ⟨?_, hlens⟩
      rw [← hops]
      exact hwrites (honce.mono (Nat.le_add_right ..)) hdense (honce.mono (by omega))

/-! ## The run -/

/-- How a run may end before its time. -/
def Halt.Early (w : Setup) (reads : List (ReadAnswer w.ibs)) (script : List WriteAnswer)
    (expected : List UInt8) (e : Halt) : Prop := e.EarlyFrom w 0 reads script expected

theorem start_ready (hsizes : w.Sizes) (junk : Nat → UInt8) (script : List WriteAnswer) :
    Ready w script (start w junk script) [] := by
  have hcbsz := hsizes.cbsz
  have hinput := hsizes.input
  have houtput := hsizes.output
  have hwriting : Writing w script script ⟨[], 0, 0, 0, 0, 0⟩ := by
    refine ⟨List.suffix_refl _, fun _ hmem => absurd hmem List.not_mem_nil, Int.le_refl 0,
      fun _ => rfl, rfl, Nat.le_refl _, fun _ => Int.dvd_zero _⟩
  have hsettled : Settled ⟨[], 0, 0, 0, 0, 0⟩ := fun _ offset hlast => by cases hlast
  have hheld : Held w script (start w junk script) [] [] (start w junk script).outMem :=
    ⟨hwriting, hsettled, rfl, rfl, rfl, rfl,
      fun _ => ⟨Nat.dvd_zero _, fun _ _ _ hmem => absurd hmem List.not_mem_nil⟩⟩
  by_cases hcfunc : w.cfunc = .default
  · have hshared : (start w junk script).outDb = none := if_pos hcfunc
    have hsize : (start w junk script).outMem.length = w.obs + w.ibs - 1 := by
      rw [State.outMem, hshared]
      show ((List.range _).map junk).length = _
      rw [List.length_map, List.length_range, if_pos hcfunc,
        Nat.mod_eq_of_lt (hsizes.single hcfunc)]
    exact (ready_default hcfunc).mpr
      ⟨⟨[], _, hheld, hsizes.obs, hsize⟩, hshared, rfl, rfl, fun _ => rfl⟩
  · have hsome : (start w junk script).outDb =
        some ((List.range ((w.obs + w.cbsz) % 4294967296)).map junk) := if_neg hcfunc
    have hseparate : (start w junk script).outDb.isSome = true := by rw [hsome]; rfl
    have hsize : (start w junk script).outMem.length = w.obs + w.cbsz := by
      rw [State.outMem, hsome]
      show ((List.range _).map junk).length = _
      rw [List.length_map, List.length_range, Nat.mod_eq_of_lt (houtput hcfunc)]
    have hinDb : (start w junk script).inDb.length = max w.ibs w.cbsz + w.cbsz := by
      show ((List.range _).map junk).length = _
      rw [List.length_map, List.length_range, if_neg hcfunc, Nat.mod_eq_of_lt (hinput hcfunc)]
    have hbuffered : Buffered w script (start w junk script) [] (w.obs + w.cbsz) :=
      ⟨[], _, hheld, hsizes.obs, hsize⟩
    cases hrecords : w.cfunc with
    | default => exact absurd hrecords hcfunc
    | block =>
      exact (ready_block hrecords).mpr ⟨⟨hbuffered, hseparate,
        ⟨rfl, rfl, List.nil_prefix, List.not_mem_nil, hcbsz hcfunc⟩, rfl⟩, hinDb⟩
    | unblock =>
      exact (ready_unblock hrecords).mpr ⟨⟨hbuffered, hseparate, List.nil_prefix, rfl, rfl,
        hcbsz hcfunc⟩, hinDb⟩

theorem dd_meets (hsizes : w.Sizes) (junk : Nat → UInt8) (reads : List (ReadAnswer w.ibs))
    (script : List WriteAnswer) (hwhole : w.sparse = true → Whole w script) :
    ∃ stale, stale.length = w.missing (w.inputOf reads) ∧
      (dd w junk reads script).Meets
        (fun s => Complete w script (w.inputOf reads) stale s.out)
        (Halt.Early w reads script (w.expected stale (w.inputOf reads))) := by
  have hin := ddIn_spec hsizes reads (start_ready hsizes junk script)
  have hmono (stale : List UInt8) (e : Halt)
      (he : e.EarlyFrom w 0 reads script (w.sofar (w.inputOf reads))) :
      e.Early w reads script (w.expected stale (w.inputOf reads)) :=
    he.mono (hsizes.sofar_isPrefix stale _)
  rw [dd]
  cases hrun : ddIn w reads (start w junk script) with
  | ok s =>
    obtain ⟨stale, hstale, hclose⟩ := ddClose_spec hsizes (hin.of_ok hrun) hwhole
    exact ⟨stale, hstale, hclose.mono (fun _ => id) fun e he => he.earlyFrom 0⟩
  | error e =>
    rw [hrun] at hin
    exact ⟨zeros _, length_zeros _, hmono _ e hin⟩

/-- Whatever pieces the input comes in and the output is taken in, the file is the converted input,
and a run that ends before its time leaves the beginning of it. -/
theorem dd_copies (hsizes : w.Sizes) (junk : Nat → UInt8) (reads : List (ReadAnswer w.ibs))
    (script : List WriteAnswer) (hwhole : w.sparse = true → Whole w script) :
    ∃ stale, stale.length = w.missing (w.inputOf reads) ∧
      (dd w junk reads script).Meets
        (fun s => fileOf s.out.ops = w.expected stale (w.inputOf reads) ∧
          s.out.bytes = (w.expected stale (w.inputOf reads)).length)
        (Halt.Early w reads script (w.expected stale (w.inputOf reads))) := by
  obtain ⟨stale, hstale, hmeets⟩ := dd_meets hsizes junk reads script hwhole
  exact ⟨stale, hstale, hmeets.mono (fun _ h => ⟨h.file, h.bytes⟩) fun _ => id⟩

/-- Five bytes that come in two pieces and go in four. -/
theorem dd_copies_five :
    ∃ s, dd (.only .default 4 2 0) (fun _ => 255) [.gives [1, 2, 3] (by decide),
        .gives [4, 5] (by decide), .gives [] (by decide)]
        [.takes 1, .interrupted, .takes 9, .takes 9, .takes 9] = .ok s ∧
      fileOf s.out.ops = [1, 2, 3, 4, 5] ∧ s.out.bytes = 5 := by
  obtain ⟨s, hrun, -⟩ := Except.exists_of_toOption (f := fun s => fileOf s.out.ops)
    (x := dd (.only .default 4 2 0) (fun _ => 255) [.gives [1, 2, 3] (by decide),
      .gives [4, 5] (by decide), .gives [] (by decide)]
      [.takes 1, .interrupted, .takes 9, .takes 9, .takes 9])
    (b := [1, 2, 3, 4, 5]) (by decide +kernel)
  have hsizes : (Setup.only .default 4 2 0).Sizes :=
    .of_default rfl (by decide) (by decide) (by decide)
  obtain ⟨stale, hfile, hbytes⟩ :=
    (dd_copies hsizes _ _ _ nofun).imp fun stale h => h.2.of_ok hrun
  rw [Setup.expected_of_not_osync rfl] at hfile hbytes
  exact ⟨s, hrun, hfile, hbytes⟩

/-- With `conv=block,osync` the zeros come over the record of an unterminated line. -/
example : ((dd { Setup.only .block 3 4 2 with osync := true, alone := Options.alone_of_false }
    (fun _ => 255) [.gives [97] (by decide), .gives [] (by decide)] [.takes 9]).toOption.map
      fun s => fileOf s.out.ops) = some [0, 0, 255, 255] := by decide +kernel

/-- However the input is split, the output is written in blocks of `out.dbsz` bytes, but for the
last piece, in which all comes that the buffer holds at the end. -/
theorem dd_reblocks (hsizes : w.Sizes) (junk : Nat → UInt8) (reads : List (ReadAnswer w.ibs))
    (hbs : w.bs = false) (hdense : w.sparse = false)
    (honce : AtOnce (w.obs + (w.owed (w.inputOf reads)).length) script)
    (hrun : dd w junk reads script = .ok s) :
    ∃ stale, stale.length = w.missing (w.inputOf reads) ∧
      s.out.ops = (w.pieces stale (w.inputOf reads)).map .write ∧
      (∀ piece ∈ w.pieces stale (w.inputOf reads),
        piece.length < w.obs + max 1 (w.owed (w.inputOf reads)).length) ∧
      (w.owed (w.inputOf reads)).length ≤ w.cbsz ∧
      (w.owed (w.inputOf reads) = [] → w.pieces stale (w.inputOf reads) =
        Records.cut w.obs (w.expected stale (w.inputOf reads))) := by
  have hdensely (hsparse : w.sparse = true) : Whole w script :=
    absurd (hdense.symm.trans hsparse) Bool.false_ne_true
  obtain ⟨stale, hstale, hmeets⟩ := dd_meets hsizes junk reads script hdensely
  obtain ⟨hops, hlens⟩ := (hmeets.of_ok hrun).pieces hbs hdense honce
  refine ⟨stale, hstale, hops, hlens, hsizes.length_owed_le _, fun hnone => ?_⟩
  refine hsizes.pieces_eq_cut fun piece hpiece => ?_
  have hlt := hlens piece hpiece
  rw [hnone] at hlt
  exact Nat.le_of_lt_succ hlt

theorem dd_reblocks_five :
    ∃ s, dd (.only .default 4 2 0) (fun _ => 255) [.gives [1, 2, 3] (by decide),
        .gives [4, 5] (by decide), .gives [] (by decide)] (List.replicate 3 (.takes 2)) = .ok s ∧
      s.out.ops = (Records.cut 2 [1, 2, 3, 4, 5]).map .write := by
  obtain ⟨s, hrun, -⟩ := Except.exists_of_toOption (f := fun s => fileOf s.out.ops)
    (x := dd (.only .default 4 2 0) (fun _ => 255) [.gives [1, 2, 3] (by decide),
      .gives [4, 5] (by decide), .gives [] (by decide)] (List.replicate 3 (.takes 2)))
    (b := [1, 2, 3, 4, 5]) (by decide +kernel)
  have hsizes : (Setup.only .default 4 2 0).Sizes :=
    .of_default rfl (by decide) (by decide) (by decide)
  have honce : AtOnce 2 (List.replicate 3 (.takes 2)) := atOnce_replicate (Nat.le_refl 2) 3
  obtain ⟨stale, -, hops, -, -, hpieces⟩ := dd_reblocks hsizes _ _ rfl rfl honce hrun
  rw [hpieces rfl, Setup.expected_of_not_osync rfl] at hops
  exact ⟨s, hrun, hops⟩

end HeadUnit.Dd
