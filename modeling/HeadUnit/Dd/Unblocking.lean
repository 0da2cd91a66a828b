import HeadUnit.Dd.Held

/-!
# `unblock`

The loop takes the records of its input as `Records.unblocker` does, and a call goes on where the
last one stopped (`unblock_spec`).
-/

namespace HeadUnit.Dd

variable {w : Setup} {script : List WriteAnswer} {s : State} {sofar held room : List UInt8}

/-! ## `unblock` -/

abbrev unblocker (w : Setup) : Transducer (List UInt8) UInt8 UInt8 :=
  Records.unblocker w.cbsz space newline

/-- What remains of the input behind a run of the loop. -/
structure UnblockEntry (s : State) (before data behind : List UInt8) : Prop where
  separate : s.outDb.isSome = true
  inDb : s.inDb = before ++ (data ++ behind)
  inDbp : s.inDbp = (before ++ data).length
  inDbcnt : s.inDbcnt = data.length

section

variable {before data behind line : List UInt8} {fuel size : Nat}

theorem trimmed_eq_ok {db : List UInt8} (hdb : db = before ++ (line ++ behind)) :
    trimmed db before.length line.length = .ok (Records.strip space line).length := by
  induction line using List.reverseRecOn generalizing behind with
  | nil => rfl
  | append_singleton line x ih =>
    have hload : Mem.load db (before.length + line.length) = .ok x := by
      rw [hdb, List.append_assoc, ← List.append_assoc before, ← List.length_append]
      exact Mem.load_append ..
    rw [List.length_append, List.length_singleton, trimmed, hload, Except.ok_bind]
    split
    case isTrue hx =>
      rw [hx, Records.strip_concat_blank]
      have hsplit : db = before ++ (line ++ x :: behind) := by
        rw [hdb, List.append_assoc]
        rfl
      exact ih hsplit
    case isFalse hx => rw [Records.strip_concat hx, List.length_append, List.length_singleton]

/-- A line comes into the output buffer without its trailing spaces. -/
theorem putLine_spec (h : Held w script s sofar held room) (hseparate : s.outDb.isSome = true)
    (hinDb : s.inDb = before ++ (line ++ behind)) (hroom : line.length < room.length) :
    ∃ s' room', putLine before.length line.length s = .ok s' ∧
      Held w script s' (sofar ++ (Records.strip space line ++ [newline]))
        (held ++ (Records.strip space line ++ [newline])) room' ∧
      (held ++ (Records.strip space line ++ [newline]) ++ room').length = (held ++ room).length ∧
      SameInput s s' := by
  have hlen := (Records.strip_prefix_self space line).length_le
  have hmove : (if (Records.strip space line).length = 0 then .ok s.outMem
      else Mem.move s.outMem s.outDbp s.inDb before.length (Records.strip space line).length) =
        .ok (held ++ (Records.strip space line ++ room.drop (Records.strip space line).length)) := by
    split
    case isTrue hzero => rw [List.length_eq_zero_iff.mp hzero, h.outMem]; rfl
    case isFalse =>
      obtain ⟨blanks, hline⟩ := Records.strip_prefix_self space line
      rw [h.outMem, h.outDbp, hinDb, ← hline, List.append_assoc, hline]
      exact Mem.move_append held room before _ (blanks ++ behind) (by omega)
  have hsplice := Mem.splice_append (held ++ Records.strip space line) [newline]
    (room.drop (Records.strip space line).length)
    (by rw [List.length_singleton, List.length_drop]; omega)
  rw [List.append_assoc, List.length_append, ← h.outDbp] at hsplice
  rw [putLine, trimmed_eq_ok hinDb, Except.ok_bind, hmove, Except.ok_bind, hsplice, Except.ok_bind,
    State.setOutMem_of_some hseparate]
  have hmore : (Records.strip space line ++ [newline]).length =
      (Records.strip space line).length + 1 := List.length_append
  refine ⟨_, _, rfl, h.put rfl rfl ?_ ?_ ?_, ?_, ⟨rfl, rfl, rfl, rfl, rfl, rfl, rfl⟩⟩
  · show s.outDbp + (Records.strip space line).length + 1 = _
    rw [hmore, Nat.add_assoc]
  · show s.outDbcnt + (Records.strip space line).length + 1 = _
    rw [hmore, Nat.add_assoc]
  · rw [hmore, ← List.drop_drop, List.append_assoc (Records.strip space line),
      ← List.append_assoc held]
    rfl
  · simp only [List.length_append, List.length_drop, List.length_singleton]
    omega

/-- The loop takes the input as `Records.unblocker` does. -/
theorem unblockLoop_spec (hobs : 0 < w.obs) (hpos : 0 < w.cbsz)
    (h : Buffered w script s sofar (w.obs + w.cbsz)) (hentry : UnblockEntry s before data behind)
    (hfuel : data.length ≤ fuel) :
    (unblockLoop w fuel before.length s).Meets
      (fun s' => Buffered w script s' (sofar ++ (unblocker w).out [] data) (w.obs + w.cbsz) ∧
        (∃ before', UnblockEntry s' before' ((unblocker w).final [] data) behind) ∧
        ((unblocker w).final [] data).length < w.cbsz ∧ Kept s s')
      (Halt.Within w script (sofar ++ (unblocker w).out [] data)) := by
  induction data using Records.cut_induction hpos generalizing before s sofar fuel with
  | short data hlt =>
    obtain ⟨hfinal, hout⟩ := Records.unblocker_fill space newline hlt
    have hdone : s.inDbcnt < w.cbsz := by
      rw [hentry.inDbcnt]
      exact hlt
    rw [hfinal, hout, List.append_nil]
    cases fuel <;> rw [unblockLoop, if_pos hdone]
    · exact ⟨h, ⟨before, hentry⟩, hlt, rfl, rfl, rfl⟩
    · exact ⟨h, ⟨before, hentry⟩, hlt, rfl, rfl, rfl⟩
  | piece record data hrecord ih =>
    obtain ⟨hfinal, hout⟩ := Records.unblocker_record space newline hpos hrecord data
    obtain ⟨held, room, hheld, hlt, hsize⟩ := h
    have hroom := hsize
    rw [List.length_append] at hroom
    have hmore : ¬s.inDbcnt < w.cbsz := by
      rw [hentry.inDbcnt, List.length_append]
      omega
    have hinDb : s.inDb = before ++ (record ++ (data ++ behind)) := by
      rw [hentry.inDb, List.append_assoc]
    rw [List.length_append] at hfuel
    obtain ⟨fuel, rfl⟩ : ∃ fuel', fuel = fuel' + 1 := Nat.exists_eq_add_one.mpr (by omega)
    obtain ⟨s₁, room', hput, hheld', hsize', hsame⟩ :=
      putLine_spec hheld hentry.separate hinDb (by omega)
    rw [hrecord] at hput
    rw [hfinal, hout, ← List.append_assoc, unblockLoop, if_neg hmore, hput, checked, Except.ok_bind]
    refine ((hheld'.writeFull hobs hsame.separate).mono (fun _ => id)
      fun e he => he.mono (List.prefix_append ..)).bind ?_
    rintro s₂ ⟨⟨held₂, room₂, hheld₂, hlt₂, hsize₂⟩, hsame'⟩
    rw [hsize', hsize] at hsize₂
    have hdbcnt : s₂.inDbcnt - w.cbsz = data.length := by
      rw [hsame'.inDbcnt, hsame.inDbcnt, hentry.inDbcnt, List.length_append]
      omega
    have hentry' : UnblockEntry { s₂ with inDbcnt := s₂.inDbcnt - w.cbsz } (before ++ record) data
        behind := by
      refine ⟨hsame'.separate, (hsame'.inDb.trans hsame.inDb).trans ?_,
        (hsame'.inDbp.trans hsame.inDbp).trans ?_, hdbcnt⟩
      · rw [hinDb, List.append_assoc]
      · rw [hentry.inDbp, List.append_assoc]
    have hbuffered' : Buffered w script { s₂ with inDbcnt := s₂.inDbcnt - w.cbsz }
        (sofar ++ (Records.strip space record ++ [newline])) (w.obs + w.cbsz) :=
      ⟨held₂, room₂, hheld₂.congr rfl rfl rfl rfl rfl, hlt₂, hsize₂⟩
    have hrest := ih hbuffered' hentry' (by omega : data.length ≤ fuel)
    rw [List.length_append, hrecord] at hrest
    have hkept₂ : Kept s { s₂ with inDbcnt := s₂.inDbcnt - w.cbsz } :=
      ⟨congrArg List.length (hsame'.inDb.trans hsame.inDb), hsame'.inFull.trans hsame.inFull,
        hsame'.inPart.trans hsame.inPart⟩
    refine hrest.mono ?_ fun e => id
    rintro s₃ ⟨hbuffered, hentry₃, hlt₃, hkept₃⟩
    exact ⟨hbuffered, hentry₃, hlt₃, hkept₂.trans hkept₃⟩

/-- The state between two calls of `unblock`. -/
structure UnblockReady (w : Setup) (script : List WriteAnswer) (s : State)
    (sofar part : List UInt8) : Prop where
  buffered : Buffered w script s sofar (w.obs + w.cbsz)
  separate : s.outDb.isSome = true
  input : part <+: s.inDb
  inDbcnt : s.inDbcnt = part.length
  inDbp : s.inDbp = part.length
  short : part.length < w.cbsz

/-- A call of `unblock` goes on where the last one stopped. -/
theorem unblock_spec (hobs : 0 < w.obs) (hpos : 0 < w.cbsz) {part bytes : List UInt8}
    (h : UnblockReady w script s sofar part) (hread : s.inDb = before ++ (bytes ++ behind))
    (hbefore : before.length = s.inDbp) :
    (unblock w (s.received bytes.length)).Meets
      (fun s' => UnblockReady w script s' (sofar ++ (unblocker w).out part bytes)
          ((unblocker w).final part bytes) ∧ Kept s s')
      (Halt.Within w script (sofar ++ (unblocker w).out part bytes)) := by
  obtain rfl : part = before := by
    have hpart := h.input
    have hlen : part.length = before.length := h.inDbp.symm.trans hbefore.symm
    rw [List.prefix_iff_eq_take, hread, hlen, List.take_left] at hpart
    exact hpart
  have hentry : UnblockEntry (s.received bytes.length) [] (part ++ bytes) behind := by
    refine ⟨h.separate, ?_, ?_, ?_⟩
    · show s.inDb = _
      rw [hread, List.nil_append, List.append_assoc]
    · show s.inDbp + bytes.length = _
      rw [← hbefore, List.nil_append, List.length_append]
    · show s.inDbcnt + bytes.length = _
      rw [h.inDbcnt, List.length_append]
  obtain ⟨hfinal, hout⟩ := Records.unblocker_fill space newline h.short
  have hloop := unblockLoop_spec hobs hpos (h.buffered.received bytes.length) hentry
    (Nat.le_of_eq hentry.inDbcnt.symm)
  rw [Transducer.final_append, Transducer.out_append, hfinal, hout, List.nil_append] at hloop
  rw [unblock]
  refine hloop.bind ?_
  generalize (unblocker w).final part bytes = left
  rintro s' ⟨⟨held, room, hheld, hlt, hsize⟩, ⟨before', hentry'⟩, hshort, hkept⟩
  split
  case isTrue hzero =>
    obtain rfl : left = [] := List.length_eq_zero_iff.mp (hentry'.inDbcnt.symm.trans hzero)
    exact ⟨⟨⟨held, room, hheld.congr rfl rfl rfl rfl rfl, hlt, hsize⟩, hentry'.separate,
      List.nil_prefix, hzero, rfl, hshort⟩, hkept.inDb, hkept.inFull, hkept.inPart⟩
  case isFalse =>
    have hback : Mem.back s'.inDbp s'.inDbcnt = .ok before'.length := by
      rw [hentry'.inDbp, hentry'.inDbcnt, List.length_append, Mem.back_eq_ok]
    have hmove : Mem.move s'.inDb 0 s'.inDb before'.length s'.inDbcnt =
        .ok (left ++ s'.inDb.drop left.length) := by
      rw [hentry'.inDbcnt, hentry'.inDb]
      exact Mem.move_front ..
    rw [hback, checked, Except.ok_bind, hmove, checked, Except.ok_bind]
    have hlen : (left ++ s'.inDb.drop left.length).length = s'.inDb.length := by
      rw [List.length_append, List.length_drop, hentry'.inDb, List.length_append,
        List.length_append]
      omega
    have hmem := State.outMem_congr hentry'.separate
      (show { s' with inDb := left ++ s'.inDb.drop left.length, inDbp := s'.inDbcnt }.outDb = s'.outDb
        from rfl)
    exact ⟨⟨⟨held, room, hheld.congr rfl rfl rfl rfl hmem, hlt, hsize⟩, hentry'.separate,
      List.prefix_append .., hentry'.inDbcnt, hentry'.inDbcnt, hshort⟩,
      hlen.trans hkept.inDb, hkept.inFull, hkept.inPart⟩

theorem unblockClose_spec (hcfunc : w.cfunc = .unblock) {part : List UInt8}
    (h : UnblockReady w script s sofar part) :
    ∃ s', unblockClose s = .ok s' ∧
      Closed w script s' sofar (Records.unblockRest space newline part) := by
  rw [unblockClose, Records.unblockRest]
  by_cases hnil : part = []
  · subst hnil
    have hzero : s.inDbcnt = 0 := h.inDbcnt
    rw [if_pos hzero, if_pos rfl]
    exact ⟨s, rfl, h.buffered.closed (Nat.le_add_right ..)⟩
  · obtain ⟨held, room, hheld, hlt, hsize⟩ := h.buffered
    obtain ⟨behind, hinDb⟩ := h.input
    rw [List.length_append] at hsize
    have hzero : s.inDbcnt ≠ 0 := by
      rw [h.inDbcnt]
      exact fun hzero => hnil (List.length_eq_zero_iff.mp hzero)
    have hshort := h.short
    have hsplit : s.inDb = [] ++ (part ++ behind) := hinDb.symm
    obtain ⟨s', room', hput, hheld', hsize', -⟩ :=
      putLine_spec hheld h.separate hsplit (by omega)
    rw [if_neg hzero, if_neg hnil, h.inDbcnt]
    have hsofar := hheld'.sofar
    rw [← List.append_assoc, List.append_left_inj] at hsofar
    refine ⟨s', hput, hheld'.writing, hheld'.settled, ⟨held, room', ?_, ?_, ?_, ?_, hsofar, hlt⟩,
      hheld'.blocks⟩
    · rw [hheld'.outMem, List.append_assoc]
    · rw [hheld'.outDbcnt, List.length_append]
    · rw [hheld'.outDbp, List.length_append, hcfunc]
      rfl
    · rw [← List.append_assoc, hsize', List.length_append]
      omega

end

end HeadUnit.Dd
