import Mathlib.Data.List.DropRight
import HeadUnit.Mcu.Script
import HeadUnit.Mcu.Sender
import HeadUnit.Std.Lines

/-!
# Which scripts keep the buffers

The text of a line decides what the loop body does with it. A line without the flag is skipped. A
text of more than 126 characters makes the `char` that holds its length negative, and `memcpy` gets
that as its size. Any other line stays inside the buffers, or ends the program at a field that
`HexStrToChar` does not take.
-/

namespace HeadUnit.Mcu

/-- The text of a line: what stands before the first NUL, without the end of the line. -/
def lineText (line : List UInt8) : List UInt8 :=
  (line.takeWhile (· ≠ 0)).rdropWhile fun c => IsEol c

/-- The fields of a `MCU-ARM:` line. -/
def lineFields (line : List UInt8) : List (List UInt8) :=
  ((lineText line).drop mcuToArmFlag.length).splitOn 0x2C

/-- The line holds a message. -/
def IsMessage (line : List UInt8) : Prop := mcuToArmFlag <+: lineText line

/-- The length of the line does not fit a `char`. -/
def TooLong (line : List UInt8) : Prop := IsMessage line ∧ 126 < (lineText line).length

/-- The line ends the program. -/
def Exits (line : List UInt8) : Prop := IsMessage line ∧ ∃ f ∈ lineFields line, hexStrToChar f = none

instance (line : List UInt8) : Decidable (IsMessage line) :=
  inferInstanceAs (Decidable (_ <+: _))

instance (line : List UInt8) : Decidable (TooLong line) := inferInstanceAs (Decidable (_ ∧ _))

instance (line : List UInt8) : Decidable (Exits line) := inferInstanceAs (Decidable (_ ∧ _))

/-- The sizes and lengths of a message are what they should be. -/
structure LineSent.InRange (e : LineSent) : Prop where
  copied_nonneg : 0 ≤ e.copied.toInt
  len_eq : e.len.toInt = e.payload
  len_le : e.len.toInt ≤ 247

/-! ## The buffer of a line -/

open Mem (IsString)

theorem readLine_spec {line : List UInt8} (h : line.length ≤ 254) :
    ∃ buf, readLine line = .ok buf ∧ IsString buf.toList (line.takeWhile (· ≠ 0)) := by
  rw [readLine]
  split
  case isTrue hl =>
    subst hl
    refine ⟨_, rfl, ?_⟩
    rw [Vector.toList_replicate]
    exact Mem.isString_append [] (List.replicate 254 0)
  case isFalse =>
    obtain ⟨buf, hbuf, hlist⟩ := Mem.copyInto_eq_ok (Vector.replicate 255 0)
      (line ++ [0]) (k := line.length + 1) (by simp) (by omega)
    refine ⟨buf, hbuf, ?_⟩
    rw [hlist, List.take_of_length_le (by simp), List.append_assoc]
    exact Mem.isString_append line _

/-- Overwriting the last character shortens a string by it. -/
theorem trim_last {buf : Vector UInt8 255} {u : List UInt8} {c : UInt8}
    (h : IsString buf.toList (u ++ [c])) :
    Mem.load buf.toList u.length = .ok c ∧
      ∃ buf', Mem.store buf u.length 0 = .ok buf' ∧ IsString buf'.toList u := by
  have hlt : u.length < 255 := by
    have := h.length_lt
    rw [List.length_append, Vector.length_toList] at this
    exact Nat.lt_of_succ_lt this
  obtain ⟨hnul, rest, hbuf⟩ := h
  rw [List.append_assoc] at hbuf
  constructor
  · rw [Mem.load_eq_ok (by rw [Vector.length_toList]; exact hlt)]
    simp [hbuf]
  · refine ⟨_, Mem.store_eq_ok hlt 0, fun h0 => hnul (List.mem_append_left _ h0), 0 :: rest, ?_⟩
    rw [Vector.toList_set, hbuf, List.set_append_right _ _ (Nat.le_refl _), Nat.sub_self]
    rfl

theorem trimLine_spec {buf : Vector UInt8 255} {u : List UInt8} (h : IsString buf.toList u) :
    ∃ buf', trimLine u.length buf = .ok buf' ∧
      IsString buf'.toList (u.rdropWhile fun c => IsEol c) := by
  induction u using List.reverseRecOn generalizing buf with
  | nil => exact ⟨buf, rfl, h⟩
  | append_singleton u c ih =>
    obtain ⟨hload, buf₁, hstore, hbuf₁⟩ := trim_last h
    have hc : c ≠ 0 := fun h0 => h.1 (by simp [h0])
    rw [List.length_append, List.length_singleton, trimLine, hload]
    by_cases heol : IsEol c
    · obtain ⟨buf', hbuf', hu⟩ := ih hbuf₁
      refine ⟨buf', ?_, ?_⟩
      · simp only [Except.ok_bind, if_pos (Or.inl heol), hstore]
        exact hbuf'
      · rwa [List.rdropWhile_concat_pos _ _ _ (by simpa using heol)]
    · refine ⟨buf, ?_, ?_⟩
      · simp only [Except.ok_bind, if_neg (not_or.mpr ⟨heol, hc⟩)]
        rfl
      · rwa [List.rdropWhile_concat_neg _ _ _ (by simpa using heol)]

/-- What the loop body does up to the test for the flag. -/
theorem confLine_cases (fd : Int) (writes : Nat → WriteOutcome) (v : Locals) {line : List UInt8}
    (h : line.length ≤ 254) :
    (¬IsMessage line ∧ confLine fd writes v line = .ok (v, [])) ∨
    (IsMessage line ∧ ∃ buf, IsString buf.toList (lineText line) ∧ confLine fd writes v line =
      sendLine fd writes v buf (Int8.ofInt ((lineText line).length + 1))) := by
  obtain ⟨buf, hbuf, hu⟩ := readLine_spec h
  obtain ⟨buf', hbuf', ht⟩ := trimLine_spec hu
  have hflag : 0 ∉ mcuToArmFlag := by decide
  have hfirst : IsMessage line → ¬(buf[0] = 0x23 ∨ IsEol buf[0]) := by
    intro hm
    have htake := (hu.take_eq_iff hflag).mpr (hm.trans (List.rdropWhile_prefix _ _))
    have hget : buf[0] = 0x4D := by
      rw [← Vector.getElem_toList (by simp), ← List.getElem_take (j := mcuToArmFlag.length)]
      · simp only [htake]
        rfl
      · simp [mcuToArmFlag]
    rw [hget]
    decide
  have htake := ht.take_eq_iff hflag
  rw [confLine, hbuf]
  by_cases hm : IsMessage line
  · refine .inr ⟨hm, buf', ht, ?_⟩
    simp only [checked, Except.ok_bind, if_neg (hfirst hm), hu.strlen, hbuf', ht.strlen,
      ne_eq, htake.mpr hm, not_true, if_false]
    rfl
  · refine .inl ⟨hm, ?_⟩
    simp only [checked, Except.ok_bind, hu.strlen, hbuf', ht.strlen,
      if_pos (mt htake.mp hm), ite_self]
    rfl

/-! ## Sending a line -/

theorem strsepAll_spec {data : Vector UInt8 255} {u : List UInt8} (h : IsString data.toList u) :
    ∃ data', strsepAll data = .ok (u.splitOn 0x2C, data') := by
  simp only [strsepAll, h.strlen, h.take, Except.ok_bind]
  exact ⟨_, rfl⟩

/-- The fields are stored one behind the other, unless the program exits at one of them. -/
theorem fieldLoop_spec (fs : List (List UInt8)) {i : Nat} (hi : i + fs.length ≤ 256) (cmd : UInt8)
    (msgData : Vector UInt8 255) :
    ((∃ f ∈ fs, hexStrToChar f = none) ∧ fieldLoop fs i cmd msgData = .error .exit) ∨
    ((∀ f ∈ fs, hexStrToChar f ≠ none) ∧
      ∃ cmd' msgData', fieldLoop fs i cmd msgData = .ok (i + fs.length, cmd', msgData')) := by
  induction fs generalizing i cmd msgData with
  | nil => exact .inr ⟨(fun _ h => nomatch h), cmd, msgData, rfl⟩
  | cons f fs ih =>
    rw [List.length_cons] at hi ⊢
    rw [fieldLoop]
    rcases hf : hexStrToChar f with _ | num
    · exact .inl ⟨⟨f, List.mem_cons_self, hf⟩, rfl⟩
    · -- whether it is the command or stored, the loop goes on with the next field
      have hnext : ∀ cmd msgData,
          ((∃ g ∈ f :: fs, hexStrToChar g = none) ∧
            fieldLoop fs (i + 1) cmd msgData = .error .exit) ∨
          ((∀ g ∈ f :: fs, hexStrToChar g ≠ none) ∧ ∃ cmd' msgData',
            fieldLoop fs (i + 1) cmd msgData = .ok (i + (fs.length + 1), cmd', msgData')) := by
        intro cmd msgData
        have hstep := ih (i := i + 1) (by omega) cmd msgData
        rw [Nat.add_right_comm, Nat.add_assoc] at hstep
        rcases hstep with ⟨⟨g, hg, hgf⟩, hrun⟩ | ⟨hall, hrun⟩
        · exact .inl ⟨⟨g, List.mem_cons_of_mem f hg, hgf⟩, hrun⟩
        · refine .inr ⟨fun g hg => ?_, hrun⟩
          rcases List.mem_cons.mp hg with rfl | hg
          · rw [hf]
            exact Option.some_ne_none num
          · exact hall g hg
      dsimp only
      split
      · exact hnext num msgData
      · rw [Mem.store_eq_ok (by omega)]
        exact hnext cmd _

/-- A message that fits a `char` is sent without leaving `reply`. -/
theorem sendMsg1_ok (fd : Int) (cmd : UInt8) (data : List UInt8) {n : Nat} (hn : n ≤ 127)
    (hdata : n ≤ data.length) (writes : Nat → WriteOutcome) :
    ∃ r, autolinkMcuSendMsg1 fd 1 cmd data (Int8.ofInt n) writes = .ok r := by
  have hlen : (Int8.ofInt n).toInt = n := Int8.toInt_ofInt_of_le (by omega) (by omega)
  let m : Message := ⟨cmd, data, Int8.ofInt n, by rw [hlen]; omega, by rw [hlen]; omega⟩
  have hreply : autolinkMcuReply cmd data (Int8.ofInt n) = .ok m.frame.bytes := m.reply_eq
  rw [autolinkMcuSendMsg1, hreply]
  exact ⟨_, rfl⟩

section
variable (fd : Int) (writes : Nat → WriteOutcome) (v : Locals) {buf : Vector UInt8 255}
  {t : List UInt8} (h : IsString buf.toList t)
include h

/-- The length of a long text becomes negative, and its conversion to `size_t` huge. -/
theorem sendLine_tooLong (ht : 126 < t.length) :
    ∃ f, sendLine fd writes v buf (Int8.ofInt (t.length + 1)) = .error (.fault f) := by
  have hlt : t.length < 255 := by simpa using h.length_lt
  have hlen : (Int8.ofInt (t.length + 1)).toInt = (t.length : Int) + 1 - 256 := by
    rw [Int8.toInt_ofInt, Int.bmod_def]
    simp only [Int8.size]
    omega
  obtain ⟨f, hf⟩ := Mem.copyInto_eq_error v.data (buf.toList.drop mcuToArmFlag.length)
    (k := ((Int8.ofInt (t.length + 1)).toInt % 2 ^ 64).toNat) (by rw [hlen]; omega)
  refine ⟨f, ?_⟩
  rw [sendLine, hf]
  rfl

/-- What is left to do once the text is copied and split into its fields. -/
theorem sendLine_eq (ht : t.length ≤ 126) (hflag : mcuToArmFlag <+: t) :
    ∃ data, sendLine fd writes v buf (Int8.ofInt (t.length + 1)) = do
      let (i, cmd, msgData) ←
        fieldLoop ((t.drop mcuToArmFlag.length).splitOn 0x2C) 0 v.cmd v.msgData
      let msgLen := Int8.ofInt (i - 1)
      let (_, wire) ← checked
        (autolinkMcuSendMsg1 fd 1 cmd msgData.toList msgLen fun _ => writes v.sent)
      return ({ data, msgData, cmd, sent := v.sent + 1 },
        [⟨Int8.ofInt (t.length + 1),
          ((t.drop mcuToArmFlag.length).splitOn 0x2C).length - 1, msgLen, wire⟩]) := by
  have h8 : mcuToArmFlag.length ≤ t.length := hflag.length_le
  have hlen : (Int8.ofInt (t.length + 1)).toInt = (t.length : Int) + 1 :=
    Int8.toInt_ofInt_of_le (by omega) (by omega)
  have hsize : ((Int8.ofInt (t.length + 1)).toInt % 2 ^ 64).toNat = t.length + 1 := by
    rw [hlen]
    omega
  obtain ⟨data, hcopy, hdata⟩ := Mem.copyInto_eq_ok v.data
    (buf.toList.drop mcuToArmFlag.length) (k := t.length + 1)
    (by simp [mcuToArmFlag]; omega) (by omega)
  have hstr : IsString data.toList (t.drop mcuToArmFlag.length) := by
    rw [hdata]
    exact (h.drop h8).of_take (by rw [List.length_drop]; omega) _
  obtain ⟨data', hsep⟩ := strsepAll_spec hstr
  refine ⟨data', ?_⟩
  simp only [sendLine, hsize, hcopy, checked, hsep, Except.ok_bind]

omit h in
/-- The fields of a text are fewer than its characters. -/
theorem length_fields_le (ht : t.length ≤ 126) (hflag : mcuToArmFlag <+: t) :
    0 < ((t.drop mcuToArmFlag.length).splitOn 0x2C).length ∧
      ((t.drop mcuToArmFlag.length).splitOn 0x2C).length ≤ 119 := by
  have h8 : mcuToArmFlag.length ≤ t.length := hflag.length_le
  have hpieces := Lines.length_splitOn 0x2C (t.drop mcuToArmFlag.length)
  rw [List.length_drop] at hpieces
  have hflag8 : mcuToArmFlag.length = 8 := rfl
  exact ⟨List.length_pos_iff.mpr (List.splitOn_ne_nil _ _), by omega⟩

theorem sendLine_spec (ht : t.length ≤ 126) (hflag : mcuToArmFlag <+: t) :
    ((∃ f ∈ (t.drop mcuToArmFlag.length).splitOn 0x2C, hexStrToChar f = none) ∧
      sendLine fd writes v buf (Int8.ofInt (t.length + 1)) = .error .exit) ∨
    ((∀ f ∈ (t.drop mcuToArmFlag.length).splitOn 0x2C, hexStrToChar f ≠ none) ∧
      ∃ v' e, sendLine fd writes v buf (Int8.ofInt (t.length + 1)) = .ok (v', [e]) ∧
        e.InRange) := by
  have hlen : (Int8.ofInt (t.length + 1)).toInt = (t.length : Int) + 1 :=
    Int8.toInt_ofInt_of_le (by omega) (by omega)
  obtain ⟨hpos, hle⟩ := length_fields_le ht hflag
  obtain ⟨data, hsend⟩ := sendLine_eq fd writes v h ht hflag
  rw [hsend]
  generalize (t.drop mcuToArmFlag.length).splitOn 0x2C = fs at hpos hle ⊢
  rcases fieldLoop_spec fs (i := 0) (by omega) v.cmd v.msgData with
    ⟨hbad, hrun⟩ | ⟨hgood, cmd, msgData, hrun⟩
  · refine .inl ⟨hbad, ?_⟩
    simp only [hrun]
    rfl
  · obtain ⟨n, hn⟩ : ∃ n, fs.length = n + 1 := ⟨fs.length - 1, by omega⟩
    have hmsgLen : ((0 + fs.length : Nat) : Int) - 1 = (n : Int) := by omega
    obtain ⟨⟨ret, wire⟩, hmsg⟩ := sendMsg1_ok fd cmd msgData.toList (n := n) (by omega)
      (by rw [Vector.length_toList]; omega) fun _ => writes v.sent
    refine .inr ⟨hgood, ⟨data, msgData, cmd, v.sent + 1⟩,
      ⟨Int8.ofInt (t.length + 1), fs.length - 1, Int8.ofInt n, wire⟩, ?_, ?_⟩
    · simp only [hrun, hmsgLen, hmsg, checked, Except.ok_bind]
      rfl
    · have hint : (Int8.ofInt n).toInt = n := Int8.toInt_ofInt_of_le (by omega) (by omega)
      refine ⟨by rw [hlen]; omega, ?_, ?_⟩
      · rw [hint, hn]
        rfl
      · rw [hint]
        omega

end

/-! ## Runs -/

theorem fgetsAll_length_le (stream : List UInt8) : ∀ line ∈ fgetsAll stream, line.length ≤ 254 := by
  induction stream using fgetsAll.induct with
  | case1 stream heof ih =>
    rw [fgetsAll, dif_pos heof]
    intro line hline
    rcases List.mem_cons.mp hline with rfl | hline
    · exact (fgets_rest 254 stream).2
    · exact ih line hline
  | case2 stream heof =>
    rw [fgetsAll, dif_neg heof]
    intro line hline
    rw [List.mem_singleton.mp hline]
    exact (fgets_rest 254 stream).2

/-- What a line does is decided by its text. -/
theorem confLine_spec (fd : Int) (writes : Nat → WriteOutcome) (v : Locals) {line : List UInt8}
    (h : line.length ≤ 254) :
    (TooLong line ∧ ∃ f, confLine fd writes v line = .error (.fault f)) ∨
    (¬TooLong line ∧ Exits line ∧ confLine fd writes v line = .error .exit) ∨
    (¬TooLong line ∧ ¬Exits line ∧
      ∃ v' es, confLine fd writes v line = .ok (v', es) ∧ ∀ e ∈ es, e.InRange) := by
  rcases confLine_cases fd writes v h with ⟨hm, hrun⟩ | ⟨hm, buf, hbuf, hrun⟩
  · exact .inr (.inr ⟨fun hl => hm hl.1, fun he => hm he.1, v, [], hrun, fun _ he => nomatch he⟩)
  rw [hrun]
  rcases Nat.lt_or_ge 126 (lineText line).length with hl | hl
  · exact .inl ⟨⟨hm, hl⟩, sendLine_tooLong fd writes v hbuf hl⟩
  · have hshort : ¬TooLong line := fun ht => Nat.not_lt.mpr hl ht.2
    rcases sendLine_spec fd writes v hbuf hl hm with ⟨hbad, hrun⟩ | ⟨hgood, v', e, hrun, he⟩
    · exact .inr (.inl ⟨hshort, ⟨hm, hbad⟩, hrun⟩)
    · refine .inr (.inr ⟨hshort, fun ⟨_, f, hf, hnone⟩ => hgood f hf hnone, v', [e], hrun, ?_⟩)
      intro e' he'
      rw [List.mem_singleton.mp he']
      exact he

/-- No access of the run leaves its array, and the sizes and lengths are what they should be. -/
structure KeepsBuffers (fd : Int) (writes : Nat → WriteOutcome) (v : Locals)
    (lines : List (List UInt8)) : Prop where
  no_fault : ∀ f, (script fd writes).after v lines ≠ .error (.fault f)
  in_range : ∀ e ∈ (script fd writes).trace v lines, e.InRange

/-- No line that the program reads before it exits is too long. -/
def ReachesNoLong (lines : List (List UInt8)) : Prop :=
  ∀ pre line post, lines = pre ++ line :: post → (∀ l ∈ pre, ¬Exits l) → ¬TooLong line

theorem reachesNoLong_cons {line : List UInt8} {lines : List (List UInt8)} :
    ReachesNoLong (line :: lines) ↔ ¬TooLong line ∧ (¬Exits line → ReachesNoLong lines) := by
  constructor
  · intro h
    refine ⟨h [] line lines rfl (fun _ hl => nomatch hl), fun hex pre l post heq hpre => ?_⟩
    refine h (line :: pre) l post (congrArg (line :: ·) heq) fun k hk => ?_
    rcases List.mem_cons.mp hk with rfl | hk
    · exact hex
    · exact hpre k hk
  · rintro ⟨hline, hrest⟩ pre l post heq hpre
    rcases pre with _ | ⟨k, pre⟩
    · cases heq
      exact hline
    · cases heq
      exact hrest (hpre line List.mem_cons_self) pre l post rfl
        fun m hm => hpre m (List.mem_cons_of_mem line hm)

theorem keepsBuffers_iff (fd : Int) (writes : Nat → WriteOutcome) (v : Locals)
    {lines : List (List UInt8)} (h : ∀ line ∈ lines, line.length ≤ 254) :
    KeepsBuffers fd writes v lines ↔ ReachesNoLong lines := by
  induction lines generalizing v with
  | nil =>
    constructor
    · intro _ pre line post heq
      exact absurd heq.symm (List.append_ne_nil_of_right_ne_nil pre (List.cons_ne_nil line post))
    · intro _
      refine ⟨fun f hf => ?_, fun e he => absurd he List.not_mem_nil⟩
      cases hf
  | cons line lines ih =>
    have hrest := fun v' => ih v' fun l hl => h l (List.mem_cons_of_mem line hl)
    rw [reachesNoLong_cons]
    rcases confLine_spec fd writes v (h line List.mem_cons_self) with
      ⟨hl, f, hrun⟩ | ⟨hl, hex, hrun⟩ | ⟨hl, hex, v', es, hrun, hes⟩
    · refine ⟨fun hk => absurd ?_ (hk.no_fault f), fun hr => absurd hl hr.1⟩
      simp only [Machine.after, script, hrun]
    · refine ⟨fun _ => ⟨hl, fun hn => absurd hex hn⟩, fun _ => ⟨fun f => ?_, ?_⟩⟩
      · simp only [Machine.after, script, hrun]
        intro hf
        cases hf
      · simp only [Machine.trace, script, hrun]
        exact fun e he => absurd he List.not_mem_nil
    · have hafter : (script fd writes).after v (line :: lines) =
          (script fd writes).after v' lines := by
        simp only [Machine.after, script, hrun]
      have htrace : (script fd writes).trace v (line :: lines) =
          es ++ (script fd writes).trace v' lines := by
        simp only [Machine.trace, script, hrun]
      constructor
      · intro hk
        refine ⟨hl, fun _ => (hrest v').mp ⟨?_, ?_⟩⟩
        · exact hafter ▸ hk.no_fault
        · exact fun e he => hk.in_range e (htrace ▸ List.mem_append_right es he)
      · intro hr
        have hk := (hrest v').mpr (hr.2 hex)
        refine ⟨hafter ▸ hk.no_fault, fun e he => ?_⟩
        rw [htrace] at he
        rcases List.mem_append.mp he with he | he
        · exact hes e he
        · exact hk.in_range e he

/-- `autolink_mcu_read_conf` keeps its buffers on a file if and only if none of the `MCU-ARM:` lines
it reads is longer than 126 characters. -/
theorem readConf_keepsBuffers_iff (fd : Int) (writes : Nat → WriteOutcome) (v : Locals)
    (file : List UInt8) :
    KeepsBuffers fd writes v (fgetsAll file) ↔ ReachesNoLong (fgetsAll file) :=
  keepsBuffers_iff fd writes v (fgetsAll_length_le file)

/-- The command 00 and 39 payload bytes 00, in one line of 127 characters. -/
def longScript : List UInt8 :=
  mcuToArmFlag ++ (List.replicate 39 [0x30, 0x30, 0x2C]).flatten ++ [0x30, 0x30]

theorem fgetsAll_longScript : fgetsAll longScript = [longScript] := by
  have heof : fgets 254 longScript = (longScript, [], true) := by decide +kernel
  rw [fgetsAll, heof]
  rfl

theorem longScript_not_keepsBuffers :
    (∀ line ∈ fgetsAll longScript, ¬Exits line) ∧
      ¬KeepsBuffers 3 (fun _ => some 255)
        ⟨Vector.replicate 255 0, Vector.replicate 255 0, 0, 0⟩ (fgetsAll longScript) := by
  rw [fgetsAll_longScript]
  refine ⟨by decide +kernel, fun hk => ?_⟩
  have hlong : TooLong longScript := by decide +kernel
  have hlen : ∀ line ∈ [longScript], line.length ≤ 254 := by decide +kernel
  exact (keepsBuffers_iff _ _ _ hlen).mp hk [] longScript [] rfl (fun _ hl => nomatch hl) hlong

end HeadUnit.Mcu
