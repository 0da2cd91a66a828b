import HeadUnit.Dd.Held

/-!
# `block`

The loop takes the lines of its input as `Records.blocker` does, and a call goes on where the last
one stopped (`block_spec`), so it does not matter in which pieces the input comes.
-/

namespace HeadUnit.Dd

variable {w : Setup} {script : List WriteAnswer} {s : State} {sofar held room : List UInt8}

/-! ## `block` -/

section

variable {db before line behind : List UInt8}

/-- Tossing what is not a newline. -/
theorem toss_append (h : newline ∉ line) (hdb : db = before ++ (line ++ behind)) (cnt : Nat) :
    toss db (line.length + cnt) before.length = toss db cnt (before ++ line).length := by
  induction line generalizing before with
  | nil => rw [List.append_nil, List.length_nil, Nat.zero_add]
  | cons ch line ih =>
    obtain ⟨hch, hline⟩ := not_or.mp (List.mem_cons.not.mp h)
    have hload : Mem.load db before.length = .ok ch := by
      rw [hdb]
      exact Mem.load_append ..
    have hsplit : db = before ++ [ch] ++ (line ++ behind) := by
      rw [hdb, List.append_assoc]
      rfl
    rw [List.length_cons, Nat.add_right_comm, toss, hload, Except.ok_bind, if_neg (Ne.symm hch)]
    have hrest := ih hline hsplit
    rw [List.length_append, List.length_singleton] at hrest
    rw [hrest, List.append_assoc]
    rfl

theorem toss_newline (h : newline ∉ line) (hdb : db = before ++ (line ++ newline :: behind))
    (cnt : Nat) :
    toss db (line.length + (cnt + 1)) before.length =
      .ok (cnt + 1, (before ++ line).length + 1) := by
  have hload : Mem.load db (before ++ line).length = .ok newline := by
    rw [hdb, ← List.append_assoc]
    exact Mem.load_append ..
  rw [toss_append h hdb, toss, hload, Except.ok_bind, if_pos rfl]

theorem toss_all (h : newline ∉ line) (hdb : db = before ++ (line ++ behind)) :
    toss db line.length before.length = .ok (0, (before ++ line).length) := toss_append h hdb 0

/-- Copying what is not a newline. -/
theorem copyLine_append {front room : List UInt8} (h : newline ∉ line)
    (hdb : db = before ++ (line ++ behind)) (hroom : line.length ≤ room.length)
    {outp cnt : Nat} (hcnt : outp + cnt = front.length) (ch : UInt8) (left : Nat) :
    copyLine db outp (line.length + left) ⟨cnt, before.length, ch, front ++ room⟩ =
      copyLine db outp left ⟨cnt + line.length, (before ++ line).length, line.getLastD ch,
        front ++ (line ++ room.drop line.length)⟩ := by
  induction line generalizing before front room cnt ch with
  | nil => rw [List.length_nil, Nat.zero_add, List.append_nil]; rfl
  | cons x line ih =>
    obtain ⟨hx, hline⟩ := not_or.mp (List.mem_cons.not.mp h)
    rw [List.length_cons] at hroom
    obtain ⟨y, room, rfl⟩ := List.exists_cons_of_length_pos (Nat.zero_lt_of_lt hroom)
    have hload : Mem.load db before.length = .ok x := by
      rw [hdb]
      exact Mem.load_append ..
    have hsplit : db = before ++ [x] ++ (line ++ behind) := by
      rw [hdb, List.append_assoc]
      rfl
    have hsplice : Mem.splice (front ++ y :: room) front.length [x] = .ok (front ++ x :: room) :=
      Mem.splice_append front [x] (y :: room) (Nat.le_add_left ..)
    rw [List.length_cons, Nat.add_right_comm, copyLine, hload, Except.ok_bind, if_neg (Ne.symm hx),
      hcnt, hsplice, Except.ok_bind]
    have hnext : outp + (cnt + 1) = (front ++ [x]).length := by
      rw [List.length_append, ← hcnt]
      rfl
    have hrest := ih hline hsplit (Nat.le_of_succ_le_succ hroom) hnext x
    have hsum : cnt + 1 + line.length = cnt + (line.length + 1) := by omega
    simp only [List.append_assoc, List.singleton_append, hsum] at hrest
    rw [List.length_append, List.length_singleton] at hrest
    rw [List.getLastD_cons]
    exact hrest

end

/-- A state with `data` in the input buffer behind what has been converted, which is `before`. -/
structure BlockEntry (s : State) (before data behind : List UInt8) : Prop where
  separate : s.outDb.isSome = true
  inDb : s.inDb = before ++ (data ++ behind)
  inDbp : s.inDbp = (before ++ data).length
  inDbcnt : s.inDbcnt = data.length

/-- The state behind a record: what is left of the input, whether a line is being tossed, how many
have been cut. -/
def State.recorded (s : State) (db : List UInt8) (cbsz dbcnt trunc : Nat) (intrunc : Bool) :
    State :=
  { s with
    outDb := some db
    outDbp := s.outDbp + cbsz
    outDbcnt := s.outDbcnt + cbsz
    inDbcnt := dbcnt
    trunc
    intrunc }

section

variable {before data behind line : List UInt8} {inp : Nat} {ch : UInt8}

theorem getLastD_ne_newline (h : newline ∉ line) (hne : line ≠ []) (ch : UInt8) :
    line.getLastD ch ≠ newline := by
  intro heq
  apply h
  rw [← heq, List.getLastD_eq_getLast?, List.getLast?_eq_some_getLast hne]
  exact List.getLast_mem hne

variable (ch)

/-- A line that is padded with spaces behind what there is. -/
theorem splice_blanks (held : List UInt8) {cbsz : Nat} (hlen : line.length ≤ cbsz)
    (hroom : cbsz ≤ room.length) :
    Mem.splice (held ++ (line ++ room.drop line.length)) (held.length + line.length)
      (List.replicate (cbsz - line.length) space) =
        .ok (held ++ (Records.fit cbsz space line ++ room.drop cbsz)) := by
  have hsplice := Mem.splice_append (held ++ line)
    (List.replicate (cbsz - line.length) space) (room.drop line.length)
    (by rw [List.length_replicate, List.length_drop]; omega)
  have hsum : line.length + (cbsz - line.length) = cbsz := by omega
  rw [List.length_append, List.append_assoc, List.append_assoc, List.length_replicate,
    List.drop_drop, hsum] at hsplice
  rw [hsplice, Records.fit, List.take_of_length_le hlen, List.append_assoc]

theorem padOrToss_pad (inp : Nat) {cnt : Nat} {db : List UInt8} (hseparate : s.outDb.isSome = true)
    (hcnt : cnt < w.cbsz) (hdb : Mem.splice s.outMem (s.outDbp + cnt)
      (List.replicate (w.cbsz - cnt) space) = .ok db) :
    padOrToss w cnt inp s = .ok (inp, { s with outDb := some db }) := by
  rw [padOrToss, if_pos hcnt, hdb, Except.ok_bind, State.setOutMem_of_some hseparate]

/-- A line that is shorter than a record. -/
theorem blockRecord_line (h : Held w script s sofar held room)
    (hentry : BlockEntry s before (line ++ newline :: data) behind) (hline : newline ∉ line)
    (hlen : line.length < w.cbsz) (hroom : w.cbsz ≤ room.length) (hintrunc : s.intrunc = false) :
    ∃ ch', blockRecord w before.length ch s =
      .ok (true, (before ++ (line ++ [newline])).length, ch',
        s.recorded (held ++ (Records.fit w.cbsz space line ++ room.drop w.cbsz)) w.cbsz data.length
          s.trunc false) := by
  have hload : Mem.load s.inDb (before ++ line).length = .ok newline := by
    rw [hentry.inDb, List.append_assoc, ← List.append_assoc before]
    exact Mem.load_append ..
  have hmaxlen : ∃ left, min w.cbsz s.inDbcnt = line.length + (left + 1) := by
    rw [hentry.inDbcnt, List.length_append, List.length_cons]
    exact ⟨min w.cbsz (line.length + (data.length + 1)) - line.length - 1, by omega⟩
  obtain ⟨left, hmaxlen⟩ := hmaxlen
  have hcopy : copyLine s.inDb s.outDbp (min w.cbsz s.inDbcnt) ⟨0, before.length, ch, s.outMem⟩ =
      .ok ⟨line.length, (before ++ line).length + 1, newline,
        held ++ (line ++ room.drop line.length)⟩ := by
    have hinDb : s.inDb = before ++ (line ++ (newline :: data ++ behind)) := by
      rw [hentry.inDb, List.append_assoc]
    have hcnt : s.outDbp + 0 = held.length := h.outDbp
    rw [hmaxlen, h.outMem, copyLine_append hline hinDb (by omega) hcnt, copyLine, hload,
      Except.ok_bind, if_pos rfl, Nat.zero_add]
  have hpad : Mem.splice (held ++ (line ++ room.drop line.length)) (s.outDbp + line.length)
      (List.replicate (w.cbsz - line.length) space) =
        .ok (held ++ (Records.fit w.cbsz space line ++ room.drop w.cbsz)) := by
    rw [h.outDbp]
    exact splice_blanks held (Nat.le_of_lt hlen) hroom
  have hdbcnt : s.inDbcnt - line.length - 1 = data.length := by
    rw [hentry.inDbcnt, List.length_append, List.length_cons]
    omega
  have hinp : (before ++ (line ++ [newline])).length = (before ++ line).length + 1 := by
    rw [← List.append_assoc, List.length_append]
    rfl
  refine ⟨newline, ?_⟩
  rw [blockRecord, hcopy, Except.ok_bind, if_neg (fun hne => hne.1 rfl),
    State.setOutMem_of_some hentry.separate]
  dsimp only
  rw [if_pos rfl, hdbcnt, hinp, State.recorded, ← hintrunc]
  have hrecord := padOrToss_pad ((before ++ line).length + 1)
    (s := { s with outDb := some (held ++ (line ++ room.drop line.length)), inDbcnt := data.length })
    rfl hlen hpad
  exact congrArg (· >>= _) hrecord

theorem countTrunc_eq_ok {rest : List UInt8} (hinDb : s.inDb = before ++ (rest ++ behind))
    (hdbcnt : s.inDbcnt = rest.length) :
    ∃ trunc, countTrunc before.length s = .ok { s with trunc } := by
  rw [countTrunc]
  cases rest with
  | nil => exact ⟨s.trunc + 1, if_pos hdbcnt⟩
  | cons x rest =>
    have hne : s.inDbcnt ≠ 0 := by
      rw [hdbcnt]
      exact Nat.succ_ne_zero _
    have hload : Mem.load s.inDb before.length = .ok x := by
      rw [hinDb]
      exact Mem.load_append ..
    rw [if_neg hne, hload, Except.ok_bind]
    split
    · exact ⟨s.trunc, rfl⟩
    · exact ⟨s.trunc + 1, rfl⟩

theorem padOrToss_toss {cnt dbcnt inp' : Nat} {rest : List UInt8} (hcnt : w.cbsz ≤ cnt)
    (hinDb : s.inDb = before ++ (rest ++ behind)) (hdbcnt : s.inDbcnt = rest.length)
    (htoss : toss s.inDb s.inDbcnt before.length = .ok (dbcnt, inp'))
    (hintrunc : s.intrunc = false) :
    ∃ trunc, padOrToss w cnt before.length s =
      .ok (inp', { s with trunc, inDbcnt := dbcnt - 1, intrunc := decide (dbcnt = 0) }) := by
  obtain ⟨trunc, hpeek⟩ := countTrunc_eq_ok hinDb hdbcnt
  refine ⟨trunc, ?_⟩
  rw [padOrToss, if_neg (Nat.not_lt.mpr hcnt), hpeek, Except.ok_bind]
  dsimp only
  rw [htoss, Except.ok_bind]
  dsimp only
  split
  case isTrue hzero => rw [hzero]; rfl
  case isFalse hne => rw [decide_eq_false hne, ← hintrunc]

/-- A line that fills its record; what is too much of it is tossed. -/
theorem blockRecord_long {full rest : List UInt8} {dbcnt inp' : Nat}
    (h : Held w script s sofar held room) (hentry : BlockEntry s before (full ++ rest) behind)
    (hfull : newline ∉ full) (hlen : full.length = w.cbsz) (hpos : 0 < w.cbsz)
    (hroom : w.cbsz ≤ room.length) (hintrunc : s.intrunc = false)
    (htoss : toss s.inDb rest.length (before ++ full).length = .ok (dbcnt, inp')) :
    ∃ ch' trunc, blockRecord w before.length ch s =
      .ok (true, inp', ch', s.recorded (held ++ (full ++ room.drop w.cbsz)) w.cbsz (dbcnt - 1) trunc
        (decide (dbcnt = 0))) := by
  have hmaxlen : min w.cbsz s.inDbcnt = full.length := by
    rw [hentry.inDbcnt, List.length_append]
    omega
  have hinDb : s.inDb = before ++ (full ++ (rest ++ behind)) := by
    rw [hentry.inDb, List.append_assoc]
  have hcopy : copyLine s.inDb s.outDbp (min w.cbsz s.inDbcnt) ⟨0, before.length, ch, s.outMem⟩ =
      .ok ⟨full.length, (before ++ full).length, full.getLastD ch,
        held ++ (full ++ room.drop full.length)⟩ := by
    have hcnt : s.outDbp + 0 = held.length := h.outDbp
    have happend := copyLine_append hfull hinDb (hlen ▸ hroom) hcnt ch 0
    rw [hmaxlen, h.outMem]
    rw [Nat.zero_add] at happend
    exact happend
  have hch : full.getLastD ch ≠ newline := getLastD_ne_newline hfull
    (fun hnil => by rw [hnil, List.length_nil] at hlen; omega) ch
  have hdbcnt : s.inDbcnt - full.length = rest.length := by
    rw [hentry.inDbcnt, List.length_append, Nat.add_sub_cancel_left]
  have hmore : ¬s.inDbcnt < w.cbsz := by
    rw [hentry.inDbcnt, List.length_append]
    omega
  have hsplit : s.inDb = before ++ full ++ (rest ++ behind) :=
    hinDb.trans (List.append_assoc ..).symm
  have hcnt : w.cbsz ≤ full.length := Nat.le_of_eq hlen.symm
  obtain ⟨trunc, hrecord⟩ := padOrToss_toss
    (s := { s with outDb := some (held ++ (full ++ room.drop full.length)), inDbcnt := rest.length })
    hcnt hsplit rfl htoss hintrunc
  refine ⟨full.getLastD ch, trunc, ?_⟩
  rw [blockRecord, hcopy, Except.ok_bind, State.setOutMem_of_some hentry.separate]
  dsimp only
  rw [if_neg (fun hbreak => hmore hbreak.2), if_neg hch, hdbcnt, ← hlen]
  exact congrArg (· >>= _) hrecord

/-- The beginning of a line is kept for later. -/
theorem blockRecord_short (h : Held w script s sofar held room)
    (hentry : BlockEntry s before line behind) (hline : newline ∉ line) (hne : line ≠ [])
    (hlen : line.length < w.cbsz) (hroom : w.cbsz ≤ room.length) :
    ∃ inp' ch' inDb room', inDb.length = s.inDb.length ∧ line <+: inDb ∧
      (held ++ room').length = (held ++ room).length ∧
      blockRecord w before.length ch s =
        .ok (false, inp', ch', { s with inDb, outDb := some (held ++ room') }) := by
  have hmaxlen : min w.cbsz s.inDbcnt = line.length := by
    rw [hentry.inDbcnt]
    omega
  have hcopy : copyLine s.inDb s.outDbp (min w.cbsz s.inDbcnt) ⟨0, before.length, ch, s.outMem⟩ =
      .ok ⟨line.length, (before ++ line).length, line.getLastD ch,
        held ++ (line ++ room.drop line.length)⟩ := by
    have hcnt : s.outDbp + 0 = held.length := h.outDbp
    have happend := copyLine_append hline hentry.inDb
      (Nat.le_trans (Nat.le_of_lt hlen) hroom) hcnt ch 0
    rw [hmaxlen, h.outMem]
    rw [Nat.zero_add] at happend
    exact happend
  have hmove : Mem.move s.inDb 0 s.inDb before.length s.inDbcnt =
      .ok (line ++ s.inDb.drop line.length) := by
    rw [hentry.inDbcnt, hentry.inDb]
    exact Mem.move_front ..
  refine ⟨(before ++ line).length, line.getLastD ch, line ++ s.inDb.drop line.length,
    line ++ room.drop line.length, ?_, List.prefix_append .., ?_, ?_⟩
  · rw [List.length_append, List.length_drop, hentry.inDb, List.length_append, List.length_append]
    omega
  · simp only [List.length_append, List.length_drop]
    omega
  · have hshort : s.inDbcnt < w.cbsz := by
      rw [hentry.inDbcnt]
      exact hlen
    rw [blockRecord, hcopy, Except.ok_bind, State.setOutMem_of_some hentry.separate]
    dsimp only
    rw [if_pos ⟨getLastD_ne_newline hline hne ch, hshort⟩, hentry.inDbp,
      List.length_append, hentry.inDbcnt, Mem.back_eq_ok, Except.ok_bind]
    rw [hentry.inDbcnt] at hmove
    rw [hmove, Except.ok_bind]

/-- A line that is complete. -/
theorem blockRecord_newline (h : Held w script s sofar held room)
    (hentry : BlockEntry s before (line ++ newline :: data) behind) (hline : newline ∉ line)
    (hpos : 0 < w.cbsz) (hroom : w.cbsz ≤ room.length) (hintrunc : s.intrunc = false) :
    ∃ ch' trunc, blockRecord w before.length ch s =
      .ok (true, (before ++ (line ++ [newline])).length, ch',
        s.recorded (held ++ (Records.fit w.cbsz space line ++ room.drop w.cbsz)) w.cbsz data.length
          trunc false) := by
  by_cases hlen : line.length < w.cbsz
  · obtain ⟨ch', hrecord⟩ := blockRecord_line ch h hentry hline hlen hroom hintrunc
    exact ⟨ch', s.trunc, hrecord⟩
  · have hle := Nat.not_lt.mp hlen
    obtain ⟨full, more, rfl, hfull⟩ : ∃ full more, line = full ++ more ∧ full.length = w.cbsz :=
      ⟨_, _, (List.take_append_drop _ _).symm, List.length_take_of_le hle⟩
    rw [List.mem_append, not_or] at hline
    rw [List.append_assoc] at hentry
    have hsplit : s.inDb = before ++ full ++ (more ++ newline :: (data ++ behind)) := by
      rw [hentry.inDb]
      simp only [List.append_assoc, List.cons_append]
    have htoss := toss_newline hline.2 hsplit data.length
    have hcount : (more ++ newline :: data).length = more.length + (data.length + 1) :=
      List.length_append
    rw [← hcount] at htoss
    obtain ⟨ch', trunc, hrecord⟩ :=
      blockRecord_long ch h hentry hline.1 hfull hpos hroom hintrunc htoss
    have hinp : (before ++ (full ++ more ++ [newline])).length =
        (before ++ full ++ more).length + 1 := by
      simp only [List.length_append, List.length_singleton, Nat.add_assoc]
    have hfit : Records.fit w.cbsz space (full ++ more) = full := by
      rw [Records.fit_of_le hle, ← hfull, List.take_left]
    exact ⟨ch', trunc, by rw [hrecord, hinp, hfit]; rfl⟩

/-- A line that is not complete, but fills its record. -/
theorem blockRecord_unterminated (h : Held w script s sofar held room)
    (hentry : BlockEntry s before line behind) (hline : newline ∉ line)
    (hlen : w.cbsz ≤ line.length) (hpos : 0 < w.cbsz) (hroom : w.cbsz ≤ room.length)
    (hintrunc : s.intrunc = false) :
    ∃ inp' ch' trunc, blockRecord w before.length ch s =
      .ok (true, inp', ch',
        s.recorded (held ++ (line.take w.cbsz ++ room.drop w.cbsz)) w.cbsz 0 trunc true) := by
  obtain ⟨full, more, rfl, hfull⟩ : ∃ full more, line = full ++ more ∧ full.length = w.cbsz :=
    ⟨_, _, (List.take_append_drop _ _).symm, List.length_take_of_le hlen⟩
  rw [List.mem_append, not_or] at hline
  have hsplit : s.inDb = before ++ full ++ (more ++ behind) := by
    rw [hentry.inDb, List.append_assoc, List.append_assoc]
  have htoss := toss_all hline.2 hsplit
  obtain ⟨ch', trunc, hrecord⟩ :=
    blockRecord_long ch h hentry hline.1 hfull hpos hroom hintrunc htoss
  refine ⟨(before ++ full ++ more).length, ch', trunc, ?_⟩
  rw [hrecord, ← hfull, List.take_left]
  rfl

end

/-! ### The loop -/

/-- What is kept of the input is the beginning of a line. -/
def BlockInput (w : Setup) (s : State) : Records.BlockState UInt8 → Prop
  | .filling part => s.intrunc = false ∧ s.inDbcnt = part.length ∧ part <+: s.inDb ∧
    newline ∉ part ∧ part.length < w.cbsz
  | .tossing => s.intrunc = true ∧ s.inDbcnt = 0

abbrev blocker (w : Setup) : Transducer (Records.BlockState UInt8) UInt8 UInt8 :=
  Records.blocker w.cbsz space newline

theorem blockLoop_done (h : s.inDbcnt = 0) (fuel inp : Nat) (ch : UInt8) :
    blockLoop w fuel inp ch s = .ok s := by
  cases fuel <;> exact if_pos h

section

variable {before data behind : List UInt8} {inp fuel : Nat} {ch : UInt8} {size : Nat}

/-- A record comes into the output buffer. -/
theorem Held.recorded (h : Held w script s sofar held room) {record : List UInt8}
    (hrecord : record.length = w.cbsz) (dbcnt trunc : Nat) (intrunc : Bool) :
    Held w script
      (s.recorded (held ++ (record ++ room.drop w.cbsz)) w.cbsz dbcnt trunc intrunc)
      (sofar ++ record) (held ++ record) (room.drop w.cbsz) := by
  rw [← hrecord]
  exact h.put rfl rfl rfl rfl rfl

theorem Held.writeRecord (h : Held w script s sofar held room) (hobs : 0 < w.obs)
    (record : List UInt8) (hrecord : record.length = w.cbsz) (hroom : w.cbsz ≤ room.length)
    (dbcnt trunc : Nat) (intrunc : Bool) :
    (outIfFull w
        (s.recorded (held ++ (record ++ room.drop w.cbsz)) w.cbsz dbcnt trunc intrunc)).Meets
      (fun s' => Buffered w script s' (sofar ++ record) (held ++ room).length ∧
        SameInput (s.recorded (held ++ (record ++ room.drop w.cbsz)) w.cbsz dbcnt trunc intrunc) s')
      (Halt.Within w script (sofar ++ record)) := by
  have hsize : (held ++ record ++ room.drop w.cbsz).length = (held ++ room).length := by
    simp only [List.length_append, List.length_drop]
    omega
  rw [← hsize]
  exact (h.recorded hrecord dbcnt trunc intrunc).writeFull hobs rfl

/-- The end of the input, which may be the beginning of a line. -/
theorem blockLoop_unterminated (hobs : 0 < w.obs) (hpos : 0 < w.cbsz) {line : List UInt8}
    (h : Buffered w script s sofar (w.obs + w.cbsz)) (hentry : BlockEntry s before line behind)
    (hline : newline ∉ line) (hintrunc : s.intrunc = false) (hfuel : line.length ≤ fuel) :
    (blockLoop w fuel before.length ch s).Meets
      (fun s' => Buffered w script s' (sofar ++ (blocker w).out (.filling []) line)
          (w.obs + w.cbsz) ∧
        BlockInput w s' ((blocker w).final (.filling []) line) ∧ Kept s s' ∧ s'.outDb.isSome = true)
      (Halt.Within w script (sofar ++ (blocker w).out (.filling []) line)) := by
  obtain ⟨hfinal, hout⟩ := Records.blocker_fill space hpos hline
  rw [hfinal, hout]
  by_cases hnil : line = []
  · subst hnil
    rw [blockLoop_done hentry.inDbcnt, List.length_nil, if_pos hpos, if_pos hpos, List.append_nil]
    exact ⟨h, ⟨hintrunc, hentry.inDbcnt, List.nil_prefix, hline, hpos⟩, ⟨rfl, rfl, rfl⟩,
      hentry.separate⟩
  · obtain ⟨held, room, hheld, hlt, hsize⟩ := h
    have hroom : w.cbsz ≤ room.length := by
      rw [List.length_append] at hsize
      omega
    have hne : s.inDbcnt ≠ 0 := by
      rw [hentry.inDbcnt]
      exact fun hzero => hnil (List.length_eq_zero_iff.mp hzero)
    obtain ⟨fuel, rfl⟩ : ∃ fuel', fuel = fuel' + 1 :=
      Nat.exists_eq_add_one.mpr (Nat.lt_of_lt_of_le (List.length_pos_iff.mpr hnil) hfuel)
    rw [blockLoop, if_neg hne]
    by_cases hlen : line.length < w.cbsz
    · -- The beginning of a line stays in the input buffer.
      obtain ⟨inp', ch', inDb, room', hinDb, hkept, hroom', hrecord⟩ :=
        blockRecord_short ch hheld hentry hline hnil hlen hroom
      rw [if_pos hlen, if_pos hlen, List.append_nil, hrecord, checked, Except.ok_bind]
      dsimp only
      rw [if_pos rfl]
      refine ⟨⟨held, room', ?_, hlt, hroom'.trans hsize⟩,
        ⟨hintrunc, hentry.inDbcnt, hkept, hline, hlen⟩, ⟨hinDb, rfl, rfl⟩, rfl⟩
      exact ⟨hheld.writing, hheld.settled, hheld.outDbp, hheld.outDbcnt, rfl, hheld.sofar,
        hheld.blocks⟩
    · -- Its record is full, and the rest is tossed.
      obtain ⟨inp', ch', trunc, hrecord⟩ := blockRecord_unterminated ch hheld hentry hline
        (Nat.not_lt.mp hlen) hpos hroom hintrunc
      have htake : (line.take w.cbsz).length = w.cbsz :=
        List.length_take_of_le (Nat.not_lt.mp hlen)
      rw [if_neg hlen, if_neg hlen, hrecord, checked, Except.ok_bind]
      dsimp only
      rw [if_neg (Bool.not_eq_false true ▸ rfl)]
      refine (hheld.writeRecord hobs (line.take w.cbsz) htake hroom 0 trunc true).bind ?_
      rintro s' ⟨hbuffered, hsame⟩
      rw [blockLoop_done hsame.inDbcnt]
      rw [hsize] at hbuffered
      exact ⟨hbuffered, ⟨hsame.intrunc, hsame.inDbcnt⟩,
        ⟨congrArg List.length hsame.inDb, hsame.inFull, hsame.inPart⟩, hsame.separate⟩

/-- The loop takes the input as `Records.blocker` does. -/
theorem blockLoop_spec (hobs : 0 < w.obs) (hpos : 0 < w.cbsz)
    (h : Buffered w script s sofar (w.obs + w.cbsz)) (hentry : BlockEntry s before data behind)
    (hintrunc : s.intrunc = false) (hfuel : data.length ≤ fuel) :
    (blockLoop w fuel before.length ch s).Meets
      (fun s' => Buffered w script s' (sofar ++ (blocker w).out (.filling []) data)
          (w.obs + w.cbsz) ∧
        BlockInput w s' ((blocker w).final (.filling []) data) ∧ Kept s s' ∧ s'.outDb.isSome = true)
      (Halt.Within w script (sofar ++ (blocker w).out (.filling []) data)) := by
  induction data using Lines.induction newline generalizing before s ch sofar fuel with
  | unterminated line hline =>
    exact blockLoop_unterminated hobs hpos h hentry hline hintrunc hfuel
  | line line xs hline ih =>
    obtain ⟨hfinal, hout⟩ := Records.blocker_line space hpos hline xs
    rw [hfinal, hout, ← List.append_assoc]
    obtain ⟨held, room, hheld, hlt, hsize⟩ := h
    have hroom : w.cbsz ≤ room.length := by
      rw [List.length_append] at hsize
      omega
    have hlen : (line ++ newline :: xs).length = line.length + (xs.length + 1) := List.length_append
    rw [hlen] at hfuel
    have hne : s.inDbcnt ≠ 0 := by
      rw [hentry.inDbcnt, hlen]
      omega
    obtain ⟨fuel, rfl⟩ : ∃ fuel', fuel = fuel' + 1 := Nat.exists_eq_add_one.mpr (by omega)
    obtain ⟨ch', trunc, hrecord⟩ := blockRecord_newline ch hheld hentry hline hpos
      hroom hintrunc
    rw [blockLoop, if_neg hne, hrecord, checked, Except.ok_bind]
    dsimp only
    rw [if_neg (Bool.not_eq_false true ▸ rfl)]
    have hwrite := hheld.writeRecord hobs (Records.fit w.cbsz space line) (Records.length_fit ..)
      hroom xs.length trunc false
    refine (hwrite.mono (fun _ => id) fun e he => he.mono (List.prefix_append ..)).bind ?_
    rintro s' ⟨hbuffered, hsame⟩
    rw [hsize] at hbuffered
    have hentry' : BlockEntry s' (before ++ (line ++ [newline])) xs behind := by
      refine ⟨hsame.separate, ?_, ?_, hsame.inDbcnt⟩
      · refine (hsame.inDb.trans hentry.inDb).trans ?_
        simp only [List.append_assoc, List.cons_append, List.nil_append]
      · refine (hsame.inDbp.trans hentry.inDbp).trans ?_
        simp only [List.append_assoc, List.singleton_append]
    refine (ih hbuffered hentry' hsame.intrunc (by omega)).mono ?_ fun e => id
    rintro s'' ⟨hbuffered', hinput, hkept, hseparate⟩
    have hrecorded : Kept s s' := ⟨congrArg List.length hsame.inDb, hsame.inFull, hsame.inPart⟩
    exact ⟨hbuffered', hinput, hrecorded.trans hkept, hseparate⟩

/-- The state between two calls of `block`. -/
structure BlockReady (w : Setup) (script : List WriteAnswer) (s : State) (sofar : List UInt8)
    (state : Records.BlockState UInt8) : Prop where
  buffered : Buffered w script s sofar (w.obs + w.cbsz)
  separate : s.outDb.isSome = true
  input : BlockInput w s state
  inDbp : s.inDbp = s.inDbcnt

theorem blockRecords_spec (hobs : 0 < w.obs) (hpos : 0 < w.cbsz)
    (h : Buffered w script s sofar (w.obs + w.cbsz)) (hentry : BlockEntry s before data behind)
    (hintrunc : s.intrunc = false) :
    (blockRecords w s).Meets
      (fun s' => BlockReady w script s' (sofar ++ (blocker w).out (.filling []) data)
          ((blocker w).final (.filling []) data) ∧ Kept s s')
      (Halt.Within w script (sofar ++ (blocker w).out (.filling []) data)) := by
  have hback : Mem.back s.inDbp s.inDbcnt = .ok before.length := by
    rw [hentry.inDbp, hentry.inDbcnt, List.length_append, Mem.back_eq_ok]
  rw [blockRecords, hback, checked, Except.ok_bind]
  refine (blockLoop_spec hobs hpos h hentry hintrunc (Nat.le_of_eq hentry.inDbcnt.symm)).bind ?_
  rintro s' ⟨⟨held, room, hheld, hlt, hsize⟩, hinput, hkept, hseparate⟩
  refine ⟨⟨⟨held, room, hheld.congr rfl rfl rfl rfl rfl, hlt, hsize⟩, hseparate, ?_, rfl⟩,
    ⟨hkept.inDb, hkept.inFull, hkept.inPart⟩⟩
  generalize (blocker w).final (.filling []) data = state at hinput ⊢
  cases state with
  | filling part => exact hinput
  | tossing => exact hinput

/-- The beginning of a line that was kept is joined to what comes. -/
theorem block_filling (hobs : 0 < w.obs) (hpos : 0 < w.cbsz) {part bytes : List UInt8}
    (h : BlockReady w script s sofar (.filling part))
    (hread : s.inDb = before ++ (bytes ++ behind)) (hbefore : before.length = s.inDbp) :
    (block w (s.received bytes.length)).Meets
      (fun s' => BlockReady w script s' (sofar ++ (blocker w).out (.filling part) bytes)
          ((blocker w).final (.filling part) bytes) ∧ Kept s s')
      (Halt.Within w script (sofar ++ (blocker w).out (.filling part) bytes)) := by
  have hinDbp := h.inDbp
  obtain ⟨hintrunc, hdbcnt, hpart, hline, hlt⟩ := h.input
  obtain rfl : part = before := by
    have hlen : part.length = before.length := by omega
    rw [List.prefix_iff_eq_take, hread, hlen, List.take_left] at hpart
    exact hpart
  have hentry : BlockEntry (s.received bytes.length) [] (part ++ bytes) behind := by
    refine ⟨h.separate, ?_, ?_, ?_⟩
    · show s.inDb = _
      rw [hread, List.nil_append, List.append_assoc]
    · show s.inDbp + bytes.length = _
      rw [← hbefore, List.nil_append, List.length_append]
    · show s.inDbcnt + bytes.length = _
      rw [hdbcnt, List.length_append]
  obtain ⟨hfinal, hout⟩ := Records.blocker_fill space hpos hline
  rw [if_pos hlt] at hfinal hout
  have hrecords := blockRecords_spec hobs hpos (h.buffered.received bytes.length) hentry hintrunc
  rw [Transducer.final_append, Transducer.out_append, hfinal, hout, List.nil_append] at hrecords
  have hgo : ¬(s.received bytes.length).intrunc = true := by
    rw [Bool.not_eq_true]
    exact hintrunc
  rw [block, if_neg hgo]
  exact hrecords.mono (fun s' hs' => ⟨hs'.1, hs'.2.inDb, hs'.2.inFull, hs'.2.inPart⟩) fun e => id

/-- The rest of a line that is too long is tossed first. -/
theorem block_tossing (hobs : 0 < w.obs) (hpos : 0 < w.cbsz) {bytes : List UInt8}
    (h : BlockReady w script s sofar .tossing)
    (hread : s.inDb = before ++ (bytes ++ behind)) (hbefore : before.length = s.inDbp) :
    (block w (s.received bytes.length)).Meets
      (fun s' => BlockReady w script s' (sofar ++ (blocker w).out .tossing bytes)
          ((blocker w).final .tossing bytes) ∧ Kept s s')
      (Halt.Within w script (sofar ++ (blocker w).out .tossing bytes)) := by
  have hinDbp := h.inDbp
  obtain ⟨hintrunc, hdbcnt⟩ := h.input
  obtain rfl : before = [] := List.length_eq_zero_iff.mp (by omega)
  have hgo : (s.received bytes.length).intrunc = true := hintrunc
  rw [List.nil_append] at hread
  rw [block, if_pos hgo]
  by_cases hmem : newline ∈ bytes
  · -- The newline is behind the line that is tossed.
    obtain ⟨line, rest, rfl, hline⟩ := List.eq_append_cons_of_mem hmem
    obtain ⟨hfinal, hout⟩ := Records.blocker_toss_line (c := w.cbsz) space hline rest
    have htoss : toss s.inDb (line ++ newline :: rest).length 0 =
        .ok (rest.length + 1, line.length + 1) := by
      have hsplit : s.inDb = [] ++ (line ++ newline :: (rest ++ behind)) := by
        rw [hread, List.append_assoc]
        rfl
      rw [List.length_append]
      exact toss_newline hline hsplit rest.length
    rw [hfinal, hout]
    show (checked (toss s.inDb (line ++ newline :: rest).length 0) >>= _).Meets _ _
    rw [htoss, checked, Except.ok_bind]
    dsimp only
    rw [if_neg (Nat.succ_ne_zero _)]
    obtain ⟨held, room, hheld, hlt, hsize⟩ := h.buffered
    let resumed : State :=
      { s.received (line ++ newline :: rest).length with
        intrunc := false
        inDbcnt := rest.length
        inDbp := line.length + 1 + (rest.length + 1) - 1 }
    have hentry : BlockEntry resumed (line ++ [newline]) rest behind := by
      refine ⟨h.separate, hread.trans ?_, ?_, rfl⟩
      · simp only [List.append_assoc, List.cons_append, List.nil_append]
      · show line.length + 1 + (rest.length + 1) - 1 = _
        rw [List.length_append, List.length_append, List.length_singleton]
        omega
    have hbuffered' : Buffered w script resumed sofar (w.obs + w.cbsz) :=
      ⟨held, room, hheld.congr rfl rfl rfl rfl rfl, hlt, hsize⟩
    exact (blockRecords_spec hobs hpos hbuffered' hentry rfl).mono
      (fun s' hs' => ⟨hs'.1, hs'.2.inDb, hs'.2.inFull, hs'.2.inPart⟩) fun e => id
  · obtain ⟨hfinal, hout⟩ := Records.blocker_toss (c := w.cbsz) space hmem
    have hsplit : s.inDb = [] ++ (bytes ++ behind) := hread
    have htoss : toss s.inDb bytes.length 0 = .ok (0, ([] ++ bytes).length) :=
      toss_all hmem hsplit
    rw [hfinal, hout, List.append_nil]
    show (checked (toss s.inDb bytes.length 0) >>= _).Meets _ _
    rw [htoss, checked, Except.ok_bind]
    dsimp only
    rw [if_pos rfl]
    obtain ⟨held, room, hheld, hlt, hsize⟩ := h.buffered
    exact ⟨⟨⟨held, room, hheld.congr rfl rfl rfl rfl rfl, hlt, hsize⟩, h.separate,
      ⟨hintrunc, rfl⟩, rfl⟩, rfl, rfl, rfl⟩

/-- A call of `block` goes on where the last one stopped. -/
theorem block_spec (hobs : 0 < w.obs) (hpos : 0 < w.cbsz) {state : Records.BlockState UInt8}
    {bytes : List UInt8} (h : BlockReady w script s sofar state)
    (hread : s.inDb = before ++ (bytes ++ behind)) (hbefore : before.length = s.inDbp) :
    (block w (s.received bytes.length)).Meets
      (fun s' => BlockReady w script s' (sofar ++ (blocker w).out state bytes)
          ((blocker w).final state bytes) ∧ Kept s s')
      (Halt.Within w script (sofar ++ (blocker w).out state bytes)) := by
  cases state with
  | filling part => exact block_filling hobs hpos h hread hbefore
  | tossing => exact block_tossing hobs hpos h hread hbefore

theorem blockClose_spec (hcfunc : w.cfunc = .block) {state : Records.BlockState UInt8}
    (h : BlockReady w script s sofar state) :
    ∃ s', blockClose w s = .ok s' ∧ Closed w script s' sofar (state.rest w.cbsz space) := by
  have hclosed := h.buffered.closed (Nat.le_add_right ..)
  have hinDbp := h.inDbp
  rw [blockClose]
  cases state with
  | tossing => exact ⟨s, if_pos h.input.2, hclosed⟩
  | filling part =>
    obtain ⟨-, hdbcnt, ⟨z, hpart⟩, -, hlt⟩ := h.input
    rw [Records.BlockState.rest]
    by_cases hnil : part = []
    · rw [if_pos hnil]
      subst hnil
      exact ⟨s, if_pos hdbcnt, hclosed⟩
    · obtain ⟨held, room, hheld, hfull, hsize⟩ := h.buffered
      rw [List.length_append] at hsize
      have hroom : w.cbsz ≤ room.length := by omega
      have hback : Mem.back s.inDbp s.inDbcnt = .ok 0 := by
        rw [hinDbp]
        exact (congrArg (Mem.back · _) (Nat.zero_add _).symm).trans (Mem.back_eq_ok 0 _)
      have hmove : Mem.move s.outMem s.outDbp s.inDb 0 s.inDbcnt =
          .ok (held ++ (part ++ room.drop part.length)) := by
        rw [hheld.outMem, hheld.outDbp, ← hpart, hdbcnt]
        exact Mem.move_append held room [] part z (by omega)
      have hpad : Mem.splice (held ++ (part ++ room.drop part.length)) (s.outDbp + s.inDbcnt)
          (List.replicate (w.cbsz - s.inDbcnt) space) =
            .ok (held ++ (Records.fit w.cbsz space part ++ room.drop w.cbsz)) := by
        rw [hheld.outDbp, hdbcnt]
        exact splice_blanks held (Nat.le_of_lt hlt) hroom
      have hzero : s.inDbcnt ≠ 0 := by
        rw [hdbcnt]
        exact fun hzero => hnil (List.length_eq_zero_iff.mp hzero)
      have hfit := Records.length_fit w.cbsz space part
      rw [if_neg hzero, if_neg hnil, hback, Except.ok_bind, hmove, Except.ok_bind, hpad,
        Except.ok_bind, State.setOutMem_of_some h.separate]
      refine ⟨_, rfl, hheld.writing, hheld.settled, ⟨held, room.drop w.cbsz, rfl, ?_, ?_, ?_,
        hheld.sofar, hfull⟩, hheld.blocks⟩
      · rw [hfit, ← hheld.outDbcnt]
      · rw [if_pos hcfunc]
        exact hheld.outDbp
      · simp only [List.length_append, List.length_drop, hfit]
        omega

end

end HeadUnit.Dd
