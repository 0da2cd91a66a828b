import HeadUnit.Std.Records
import HeadUnit.Dd.Output
import HeadUnit.Dd.Run

/-!
# The output buffer between two calls

`Held` is the invariant of the output buffer: what the output stands for and what the buffer holds
make up the converted input so far. `def` adds to it what has been read (`ddDef_spec`), and with
`bs` it is written at once (`direct_spec`).
-/

namespace HeadUnit.Dd

variable {w : Setup} {script : List WriteAnswer} {s : State} {sofar : List UInt8}

/-! ## The output buffer -/

@[simp] theorem State.setOutMem_outMem (s : State) (db : List UInt8) :
    (s.setOutMem db).outMem = db := by
  rw [State.setOutMem, State.outMem]
  split
  case h_1 h => rw [h]; rfl
  case h_2 h => rfl

@[simp] theorem State.setOutMem_out (s : State) (db : List UInt8) :
    (s.setOutMem db).out = s.out := by
  rw [State.setOutMem]
  split <;> rfl

@[simp] theorem State.setOutMem_answers (s : State) (db : List UInt8) :
    (s.setOutMem db).answers = s.answers := by
  rw [State.setOutMem]
  split <;> rfl

theorem State.setOutMem_of_some {s : State} (h : s.outDb.isSome = true) (db : List UInt8) :
    s.setOutMem db = { s with outDb := some db } := by
  rw [State.setOutMem]
  split
  case h_1 hnone => rw [hnone] at h; exact absurd h Bool.false_ne_true
  case h_2 => rfl

theorem State.setOutMem_of_none {s : State} (h : s.outDb = none) (db : List UInt8) :
    s.setOutMem db = { s with inDb := db } := by
  rw [State.setOutMem, h]

/-- The output buffer does not depend on the other one. -/
theorem State.outMem_congr {s s' : State} (h : s.outDb.isSome = true) (hdb : s'.outDb = s.outDb) :
    s'.outMem = s.outMem := by
  obtain ⟨db, hsome⟩ := Option.isSome_iff_exists.mp h
  rw [State.outMem, State.outMem, hdb, hsome]
  rfl

theorem State.flushed_of_none {s : State} (h : s.outDb = none) (db : List UInt8) (dbcnt : Nat)
    (answers : List WriteAnswer) (out : Output) :
    s.flushed db dbcnt answers out =
      { s with inDb := db, outDbp := dbcnt, outDbcnt := dbcnt, out, answers } := by
  rw [State.flushed, State.setOutMem_of_none h]

theorem State.flushed_self {s : State} (h : s.outDbp = s.outDbcnt) :
    s.flushed s.outMem s.outDbcnt s.answers s.out = s := by
  obtain ⟨inDb, outDb⟩ := s
  dsimp only at h
  subst h
  cases outDb with
  | none => rfl
  | some db => rfl

/-- The buffer has `held` at its beginning, and `sofar` is what has been written and that. -/
structure Held (w : Setup) (script : List WriteAnswer) (s : State) (sofar held room : List UInt8) :
    Prop where
  writing : Writing w script s.answers s.out
  settled : Settled s.out
  outDbp : s.outDbp = held.length
  outDbcnt : s.outDbcnt = held.length
  outMem : s.outMem = held ++ room
  sofar : s.out.image ++ held = sofar
  blocks : w.bs = false → w.obs ∣ s.out.image.length ∧
    (Whole w script → w.sparse = false → ∀ op ∈ s.out.ops, op.Full w)

variable {held room : List UInt8}

/-- What of the state the invariant is about. -/
theorem Held.congr (h : Held w script s sofar held room) {s' : State}
    (hanswers : s'.answers = s.answers) (hout : s'.out = s.out) (hdbp : s'.outDbp = s.outDbp)
    (hdbcnt : s'.outDbcnt = s.outDbcnt) (hmem : s'.outMem = s.outMem) :
    Held w script s' sofar held room := by
  obtain ⟨hwriting, hsettled, hdbp', hdbcnt', hmem', hsofar, hblocks⟩ := h
  rw [← hanswers, ← hout] at hwriting
  rw [← hout] at hsettled hsofar hblocks
  exact ⟨hwriting, hsettled, hdbp.trans hdbp', hdbcnt.trans hdbcnt', hmem.trans hmem', hsofar,
    hblocks⟩

/-- More comes into the buffer. -/
theorem Held.put (h : Held w script s sofar held room) {more : List UInt8} {s' : State}
    (hanswers : s'.answers = s.answers) (hout : s'.out = s.out)
    (hdbp : s'.outDbp = s.outDbp + more.length) (hdbcnt : s'.outDbcnt = s.outDbcnt + more.length)
    (hmem : s'.outMem = held ++ (more ++ room.drop more.length)) :
    Held w script s' (sofar ++ more) (held ++ more) (room.drop more.length) := by
  obtain ⟨hwriting, hsettled, hdbp', hdbcnt', -, hsofar, hblocks⟩ := h
  rw [← hanswers, ← hout] at hwriting
  rw [← hout] at hsettled hsofar hblocks
  refine ⟨hwriting, hsettled, ?_, ?_, ?_, ?_, hblocks⟩
  · rw [hdbp, hdbp', List.length_append]
  · rw [hdbcnt, hdbcnt', List.length_append]
  · rw [hmem, List.append_assoc]
  · rw [← hsofar, List.append_assoc]

/-- A full buffer is written until less than a block remains. -/
theorem Held.flush (h : Held w script s sofar held room) (hobs : 0 < w.obs) :
    (outIfFull w s).Meets
      (fun s' => ∃ held' room' answers out, held'.length < w.obs ∧
        (held' ++ room').length = (held ++ room).length ∧
        s' = s.flushed (held' ++ room') held'.length answers out ∧
        Held w script s' sofar held' room')
      (Halt.Within w script sofar) := by
  rw [outIfFull]
  split
  case isTrue hfull =>
    rw [h.outDbcnt] at hfull
    have hout := ddOut_spec false h.writing hobs h.outMem h.outDbcnt ⟨hfull, h.outDbp⟩
    rw [h.sofar] at hout
    refine hout.mono ?_ fun e => id
    rintro s' ⟨done, left, rest, answers, out, hheld, hlt, hdvd, hplaced, hblocks, hlen, rfl⟩
    rw [h.outMem] at hlen
    refine ⟨left, rest, answers, out, hlt, hlen, rfl, ?_⟩
    refine ⟨hplaced.writing, hplaced.settled, rfl, rfl, State.setOutMem_outMem .., ?_,
      fun hbs => ?_⟩
    · rw [← h.sofar, hheld, ← List.append_assoc, ← hplaced.image]
      rfl
    · refine ⟨?_, fun hall hdense op hmem => ?_⟩
      · show w.obs ∣ out.image.length
        rw [hplaced.image, List.length_append]
        exact Nat.dvd_add (h.blocks hbs).1 hdvd
      · rcases hblocks hall hdense op hmem with hmem | hfull
        · exact (h.blocks hbs).2 hall hdense op hmem
        · exact hfull
  case isFalse hless =>
    refine ⟨held, room, s.answers, s.out, ?_, rfl, ?_, h⟩
    · rw [h.outDbcnt] at hless
      exact Nat.not_le.mp hless
    · rw [← h.outMem, ← h.outDbcnt]
      exact (State.flushed_self (h.outDbp.trans h.outDbcnt.symm)).symm

/-- The buffer holds less than a block. -/
def Buffered (w : Setup) (script : List WriteAnswer) (s : State) (sofar : List UInt8) (size : Nat) :
    Prop :=
  ∃ held room, Held w script s sofar held room ∧ held.length < w.obs ∧ (held ++ room).length = size

/-- The input buffer is another one, and as it was. -/
structure SameInput (s s' : State) : Prop where
  separate : s'.outDb.isSome = true
  inDb : s'.inDb = s.inDb
  inDbp : s'.inDbp = s.inDbp
  inDbcnt : s'.inDbcnt = s.inDbcnt
  intrunc : s'.intrunc = s.intrunc
  inFull : s'.inFull = s.inFull
  inPart : s'.inPart = s.inPart

theorem Held.writeFull (h : Held w script s sofar held room) (hobs : 0 < w.obs)
    (hseparate : s.outDb.isSome = true) :
    (outIfFull w s).Meets
      (fun s' => Buffered w script s' sofar (held ++ room).length ∧ SameInput s s')
      (Halt.Within w script sofar) := by
  refine (h.flush hobs).mono ?_ fun e => id
  rintro s' ⟨held', room', answers, out, hlt, hlen, rfl, hheld⟩
  refine ⟨⟨held', room', hheld, hlt, hlen⟩, ?_⟩
  rw [State.flushed, State.setOutMem_of_some hseparate]
  exact ⟨rfl, rfl, rfl, rfl, rfl, rfl, rfl⟩

/-- What a conversion leaves of the rest of the state. -/
structure Kept (s s' : State) : Prop where
  inDb : s'.inDb.length = s.inDb.length
  inFull : s'.inFull = s.inFull
  inPart : s'.inPart = s.inPart

theorem Kept.trans {s₁ s₂ s₃ : State} (h₁ : Kept s₁ s₂) (h₂ : Kept s₂ s₃) : Kept s₁ s₃ :=
  ⟨h₂.inDb.trans h₁.inDb, h₂.inFull.trans h₁.inFull, h₂.inPart.trans h₁.inPart⟩

/-- The state in which a conversion finds the `n` bytes that have been read. -/
def State.received (s : State) (n : Nat) : State :=
  { s with inDbrcnt := n, inDbcnt := s.inDbcnt + n, inDbp := s.inDbp + n }

theorem Buffered.received {size : Nat} (h : Buffered w script s sofar size) (n : Nat) :
    Buffered w script (s.received n) sofar size := by
  obtain ⟨held, room, hheld, hlt, hsize⟩ := h
  exact ⟨held, room, hheld.congr rfl rfl rfl rfl rfl, hlt, hsize⟩

/-- Behind the `_close` of a conversion, which has added `owed`. `block_close` leaves `out.dbp` in
front of what it adds. -/
structure Closed (w : Setup) (script : List WriteAnswer) (s : State) (sofar owed : List UInt8) :
    Prop where
  writing : Writing w script s.answers s.out
  settled : Settled s.out
  held : ∃ held room, s.outMem = held ++ (owed ++ room) ∧ s.outDbcnt = held.length + owed.length ∧
    s.outDbp = held.length + (if w.cfunc = .block then 0 else owed.length) ∧
    w.obs ≤ (held ++ (owed ++ room)).length ∧ s.out.image ++ held = sofar ∧ held.length < w.obs
  blocks : w.bs = false → w.obs ∣ s.out.image.length ∧
    (Whole w script → w.sparse = false → ∀ op ∈ s.out.ops, op.Full w)

theorem Buffered.closed {size : Nat} (h : Buffered w script s sofar size) (hsize : w.obs ≤ size) :
    Closed w script s sofar [] := by
  obtain ⟨held, room, hheld, hlt, rfl⟩ := h
  refine ⟨hheld.writing, hheld.settled, ⟨held, room, hheld.outMem, hheld.outDbcnt, ?_, hsize,
    hheld.sofar, hlt⟩, hheld.blocks⟩
  rw [hheld.outDbp, List.length_nil, ite_self]
  rfl

/-! ## `def` -/

/-- The state between two reads where there is only one buffer. -/
structure CopyReady (w : Setup) (script : List WriteAnswer) (s : State) (sofar : List UInt8) :
    Prop where
  buffered : Buffered w script s sofar (w.obs + w.ibs - 1)
  shared : s.outDb = none
  inDbp : s.inDbp = s.outDbp
  inDbcnt : s.inDbcnt = s.outDbcnt
  direct : w.bs = true → s.outDbcnt = 0

section

variable {before bytes behind : List UInt8}

theorem CopyReady.outMem (h : CopyReady w script s sofar) : s.outMem = s.inDb := by
  rw [State.outMem, h.shared]
  rfl

/-- What is read comes into the output buffer. -/
theorem CopyReady.append (h : CopyReady w script s sofar)
    (hread : s.inDb = before ++ (bytes ++ behind)) (hbefore : before.length = s.inDbp) :
    Held w script
      { s.received bytes.length with
        outDbp := s.inDbp + bytes.length, outDbcnt := s.inDbcnt + bytes.length }
      (sofar ++ bytes) (before ++ bytes) behind := by
  obtain ⟨held, room, hheld, -, -⟩ := h.buffered
  obtain rfl : held = before := by
    have hmem := hheld.outMem
    have hlen : held.length = before.length := by rw [hbefore, h.inDbp, hheld.outDbp]
    rw [h.outMem, hread] at hmem
    exact (List.append_inj hmem.symm hlen).1
  refine ⟨hheld.writing, hheld.settled, ?_, ?_, ?_, ?_, hheld.blocks⟩
  · rw [List.length_append, hbefore]
  · rw [List.length_append, hbefore, h.inDbcnt, hheld.outDbcnt, h.inDbp, hheld.outDbp]
  · rw [List.append_assoc, ← hread, ← h.outMem]
    rfl
  · rw [← hheld.sofar, List.append_assoc]
    rfl

theorem ddDef_spec (hobs : 0 < w.obs) (h : CopyReady w script s sofar) (hbs : w.bs = false)
    (hread : s.inDb = before ++ (bytes ++ behind)) (hbefore : before.length = s.inDbp) :
    (ddDef w (s.received bytes.length)).Meets
      (fun s' => CopyReady w script s' (sofar ++ bytes) ∧ Kept s s')
      (Halt.Within w script (sofar ++ bytes)) := by
  have hheld := h.append hread hbefore
  have hshared := h.shared
  obtain ⟨_, _, hheld₀, -, hsize⟩ := h.buffered
  have hlen : (before ++ bytes ++ behind).length = w.obs + w.ibs - 1 := by
    rw [← hsize, ← hheld₀.outMem, h.outMem, hread, List.append_assoc]
  have hdirect (k : Nat) : w.bs = true → k = 0 := fun htrue => by
    rw [hbs] at htrue
    cases htrue
  have hflush := hheld.flush hobs
  rw [outIfFull] at hflush
  rw [ddDef]
  split
  case isTrue hfull =>
    replace hfull : w.obs ≤ s.inDbcnt + bytes.length := hfull
    rw [if_pos hfull] at hflush
    refine hflush.bind ?_
    rintro s' ⟨held', room', answers, out, hlt, hlen', hs', hheld'⟩
    rw [State.flushed_of_none (by exact hshared)] at hs'
    subst hs'
    rw [hlen] at hlen'
    refine ⟨⟨⟨held', room', hheld'.congr rfl rfl rfl rfl rfl, hlt, hlen'⟩, hshared, rfl, rfl,
      hdirect _⟩, ?_, rfl, rfl⟩
    rw [hread, ← List.append_assoc, hlen]
    exact hlen'
  case isFalse hless =>
    refine ⟨⟨⟨before ++ bytes, behind, hheld, ?_, hlen⟩, hshared, rfl, rfl, hdirect _⟩,
      rfl, rfl, rfl⟩
    rw [← hheld.outDbcnt]
    exact Nat.not_le.mp hless

/-- A block that is written as it is read. -/
theorem direct_spec (hobs : 0 < w.obs) (h : CopyReady w script s sofar) (hbs : w.bs = true)
    (hread : s.inDb = before ++ (bytes ++ behind)) (hbefore : before.length = s.inDbp)
    (hne : bytes ≠ []) {s₁ : State} (hs₁ : s₁ = { s with
      inDbrcnt := bytes.length, inDbcnt := s.inDbcnt + bytes.length,
      outDbcnt := s.inDbcnt + bytes.length }) :
    (ddOut w true s₁ >>= fun s => .ok { s with inDbcnt := 0 }).Meets
      (fun s' => CopyReady w script s' (sofar ++ bytes) ∧ Kept s s')
      (Halt.Within w script (sofar ++ bytes)) := by
  obtain ⟨held, room, hheld, -, hsize⟩ := h.buffered
  have hzero := h.direct hbs
  obtain rfl : held = [] := List.length_eq_zero_iff.mp (hheld.outDbcnt.symm.trans hzero)
  obtain rfl : before = [] := by
    rw [← List.length_eq_zero_iff, hbefore, h.inDbp, hheld.outDbp]
    rfl
  have hsofar : s.out.image = sofar := (List.append_nil _).symm.trans hheld.sofar
  have hcnt : s₁.outDbcnt = bytes.length := by
    rw [hs₁]
    show s.inDbcnt + bytes.length = _
    rw [h.inDbcnt, hzero, Nat.zero_add]
  have hmem : s₁.outMem = bytes ++ behind := by
    rw [hs₁]
    exact h.outMem.trans hread
  have hwriting : Writing w script s₁.answers s₁.out := by
    rw [hs₁]
    exact hheld.writing
  have hout := ddOut_spec true hwriting hobs hmem hcnt hne
  have himage : s₁.out.image = sofar := by rw [hs₁, ← hsofar]
  rw [himage] at hout
  refine hout.bind ?_
  rintro s' ⟨done, left, rest, answers, out, rfl, hlt, hnil, hplaced, -, hlen, hs'⟩
  rw [if_pos rfl] at hnil
  subst hnil
  rw [hs₁, State.flushed_of_none (by exact h.shared)] at hs'
  subst hs'
  rw [hmem] at hlen
  have hsize' : ([] ++ rest).length = w.obs + w.ibs - 1 := by
    rw [hlen, ← hsize, ← hheld.outMem, h.outMem, hread]
    rfl
  have hinDbp : s.inDbp = 0 := hbefore.symm
  have hnotbs : w.bs = false → w.obs ∣ out.image.length ∧
      (Whole w script → w.sparse = false → ∀ op ∈ out.ops, op.Full w) := fun hfalse => by
    rw [hbs] at hfalse
    cases hfalse
  refine ⟨⟨⟨[], rest, ⟨hplaced.writing, hplaced.settled, rfl, rfl, ?_, ?_, hnotbs⟩, hlt, hsize'⟩,
    h.shared, hinDbp, rfl, fun _ => rfl⟩, ?_, rfl, rfl⟩
  · rw [State.outMem]
    exact congrArg (Option.getD · _) h.shared
  · show out.image ++ [] = _
    rw [hplaced.image, himage, List.append_nil, List.append_nil]
  · show ([] ++ rest).length = _
    rw [hlen, hread]
    rfl

end

end HeadUnit.Dd
