import HeadUnit.Mcu.ScriptBounds

/-!
# What a script sends

A line `MCU-ARM:t0,t1,...,tn` stands for the frame with command `t0` and payload `t1,...,tn`
(`scriptFrame`). `HexStrToChar` takes the first digit of a field for the high one even where it is
the only one, so that a field of one digit is sent sixteen times too large; all else goes through
(`readConf_transmits_iff`).
-/

namespace HeadUnit.Mcu

/-! ## Fields -/

/-- A hexadecimal digit of either case. -/
def IsHexDigit (c : UInt8) : Prop :=
  0x30 ≤ c ∧ c ≤ 0x39 ∨ 0x41 ≤ c ∧ c ≤ 0x46 ∨ 0x61 ≤ c ∧ c ≤ 0x66

instance (c : UInt8) : Decidable (IsHexDigit c) := inferInstanceAs (Decidable (_ ∨ _))

def hexValue (c : UInt8) : Nat :=
  if c ≤ 0x39 then c.toNat - 0x30 else if c ≤ 0x46 then c.toNat - 0x41 + 10
  else c.toNat - 0x61 + 10

/-- The number that a field denotes. -/
def fieldValue (t : List UInt8) : Nat := t.foldl (fun v c => 16 * v + hexValue c) 0

/-- One or two digits. -/
def IsHexField (t : List UInt8) : Prop :=
  (t.length = 1 ∨ t.length = 2) ∧ ∀ c ∈ t, IsHexDigit c

instance (t : List UInt8) : Decidable (IsHexField t) := inferInstanceAs (Decidable (_ ∧ _))

theorem hexDigit_eq {c : UInt8} (h : IsHexDigit c) :
    hexDigit c = some (.ofNat (hexValue c)) ∧ hexValue c < 16 ∧ (hexValue c = 0 ↔ c = 0x30) := by
  have hall : ∀ n < 256, IsHexDigit (.ofNat n) →
      hexDigit (.ofNat n) = some (.ofNat (hexValue (.ofNat n))) ∧ hexValue (.ofNat n) < 16 ∧
        (hexValue (.ofNat n) = 0 ↔ UInt8.ofNat n = 0x30) := by
    decide +kernel
  have hc := hall c.toNat c.toNat_lt
  rw [UInt8.ofNat_toNat] at hc
  exact hc h

theorem high_eq_iff : ∀ n < 16, UInt8.ofNat n <<< 4 = UInt8.ofNat n ↔ n = 0 := by
  decide +kernel

theorem high_or_low : ∀ m < 16, ∀ n < 16,
    UInt8.ofNat m <<< 4 ||| UInt8.ofNat n = UInt8.ofNat (16 * m + n) := by
  decide +kernel

/-- A field is read, and read as its number if and only if it has two digits or is `0`. -/
theorem hexStrToChar_field {t : List UInt8} (h : IsHexField t) :
    ∃ num, hexStrToChar t = some num ∧
      (num = .ofNat (fieldValue t) ↔ (t.length = 1 → t = [0x30])) := by
  obtain ⟨hlen, hdigits⟩ := h
  match t with
  | [] => simp at hlen
  | [c] =>
    obtain ⟨hc, hlt, hzero⟩ := hexDigit_eq (hdigits c (List.mem_singleton_self c))
    refine ⟨UInt8.ofNat (hexValue c) <<< 4, ?_, ?_⟩
    · simp [hexStrToChar, hexLoop, hc]
    · have hvalue : fieldValue [c] = hexValue c := by simp [fieldValue]
      rw [hvalue, high_eq_iff _ hlt, hzero]
      simp
  | [c, d] =>
    obtain ⟨hc, hlt, -⟩ := hexDigit_eq (hdigits c (by simp))
    obtain ⟨hd, hlt', -⟩ := hexDigit_eq (hdigits d (by simp))
    refine ⟨UInt8.ofNat (hexValue c) <<< 4 ||| UInt8.ofNat (hexValue d), ?_, ?_⟩
    · simp [hexStrToChar, hexLoop, hc, hd]
    · have hvalue : fieldValue [c, d] = 16 * hexValue c + hexValue d := by simp [fieldValue]
      rw [hvalue, high_or_low _ hlt _ hlt']
      simp
  | _ :: _ :: _ :: t =>
    rw [List.length_cons, List.length_cons, List.length_cons] at hlen
    omega

/-! ## Lines -/

/-- The fields of a line `MCU-ARM:t0,t1,...,tn`, with any end of line. -/
def scriptFields (line : List UInt8) : Option (List (List UInt8)) :=
  let text := line.rdropWhile fun c => IsEol c
  let ts := (text.drop mcuToArmFlag.length).splitOn 0x2C
  if mcuToArmFlag <+: text ∧ ∀ t ∈ ts, IsHexField t then some ts else none

/-- The frame of a command and its payload. -/
def numsFrame (nums : List UInt8) : Frame :=
  ⟨0, nums.headD 0, mcuAckByteFalse, .ofNat (nums.length - 1), nums.tail⟩

/-- The frame that a line stands for. -/
def scriptFrame (line : List UInt8) : Option Frame :=
  (scriptFields line).map fun ts => numsFrame (ts.map fun t => .ofNat (fieldValue t))

theorem mem_intercalate {x c : UInt8} {ts : List (List UInt8)} (h : c ∈ [x].intercalate ts) :
    c = x ∨ ∃ t ∈ ts, c ∈ t := by
  induction ts with
  | nil => cases h
  | cons t ts ih =>
    cases ts with
    | nil =>
      rw [List.intercalate_singleton] at h
      exact .inr ⟨t, List.mem_singleton_self t, h⟩
    | cons t' ts =>
      rw [List.intercalate_cons_cons, List.append_assoc, List.mem_append, List.mem_append] at h
      rcases h with h | h | h
      · exact .inr ⟨t, List.mem_cons_self, h⟩
      · exact .inl (List.mem_singleton.mp h)
      · refine (ih h).imp id ?_
        rintro ⟨u, hu, hc⟩
        exact ⟨u, List.mem_cons_of_mem t hu, hc⟩

/-- The characters of the text of a message. -/
theorem mem_text {ts : List (List UInt8)} (h : ∀ t ∈ ts, IsHexField t) {c : UInt8}
    (hc : c ∈ mcuToArmFlag ++ [0x2C].intercalate ts) :
    c ∈ mcuToArmFlag ∨ c = 0x2C ∨ IsHexDigit c := by
  refine (List.mem_append.mp hc).imp id fun hc => (mem_intercalate hc).imp id ?_
  rintro ⟨t, ht, hc⟩
  exact (h t ht).2 c hc

theorem rdropWhile_eol {u eol : List UInt8} (hu : ∀ c ∈ u, ¬IsEol c) (heol : ∀ c ∈ eol, IsEol c) :
    (u ++ eol).rdropWhile (fun c => IsEol c) = u := by
  induction eol using List.reverseRecOn with
  | nil =>
    rw [List.append_nil, List.rdropWhile_eq_self_iff]
    intro hl
    simpa using hu _ (List.getLast_mem hl)
  | append_singleton eol c ih =>
    have hc : IsEol c := heol c (by simp)
    rw [← List.append_assoc, List.rdropWhile_concat_pos _ _ _ (by simpa using hc)]
    exact ih fun d hd => heol d (List.mem_append_left _ hd)

theorem scriptFields_eq_some_iff {line : List UInt8} {ts : List (List UInt8)} :
    scriptFields line = some ts ↔ ts ≠ [] ∧ (∀ t ∈ ts, IsHexField t) ∧
      ∃ eol, (∀ c ∈ eol, IsEol c) ∧ line = mcuToArmFlag ++ [0x2C].intercalate ts ++ eol := by
  rw [scriptFields]
  constructor
  · intro h
    split at h
    case isFalse => cases h
    case isTrue hif =>
      obtain ⟨⟨text, htext⟩, hall⟩ := hif
      cases h
      refine ⟨List.splitOn_ne_nil _ _, hall, line.rtakeWhile fun c => IsEol c, ?_, ?_⟩
      · intro c hc
        simpa using List.mem_rtakeWhile_imp hc
      · rw [List.intercalate_splitOn, ← htext, List.drop_left, htext,
          List.rdropWhile_append_rtakeWhile]
  · rintro ⟨hne, hall, eol, heol, rfl⟩
    have htext : (mcuToArmFlag ++ [0x2C].intercalate ts ++ eol).rdropWhile (fun c => IsEol c) =
        mcuToArmFlag ++ [0x2C].intercalate ts := by
      refine rdropWhile_eol ?_ heol
      intro c hc
      rcases mem_text hall hc with hflag | rfl | hc
      · have hflags : ∀ c ∈ mcuToArmFlag, ¬IsEol c := by decide +kernel
        exact hflags c hflag
      · decide
      · rintro (rfl | rfl) <;> revert hc <;> decide
    have hsplit : ([0x2C].intercalate ts).splitOn 0x2C = ts := by
      refine List.splitOn_intercalate _ (fun t ht hc => ?_) hne
      have hdigit := (hall t ht).2 _ hc
      revert hdigit
      decide
    rw [htext, List.drop_left, hsplit, if_pos ⟨List.prefix_append _ _, hall⟩]

/-- The loop sees the fields of such a line. -/
theorem lineFields_eq {line : List UInt8} {ts : List (List UInt8)}
    (h : scriptFields line = some ts) : IsMessage line ∧ lineFields line = ts := by
  obtain ⟨-, hall, eol, heol, hline⟩ := scriptFields_eq_some_iff.mp h
  have hnul : ∀ c ∈ line, c ≠ 0 := by
    rintro c hc rfl
    rw [hline] at hc
    rcases List.mem_append.mp hc with hc | hc
    · rcases mem_text hall hc with hc | hc | hc <;> revert hc <;> decide
    · have heol := heol 0 hc
      revert heol
      decide
  have htext : lineText line = line.rdropWhile fun c => IsEol c := by
    rw [lineText, List.takeWhile_eq_self_iff.mpr]
    intro c hc
    simpa using hnul c hc
  rw [IsMessage, lineFields, htext]
  rw [scriptFields] at h
  split at h
  case isFalse => cases h
  case isTrue hif => exact ⟨hif.1, Option.some.inj h⟩

/-- A line that ends the program is none of these. -/
theorem scriptFields_of_exits {line : List UInt8} (h : Exits line) : scriptFields line = none := by
  obtain ⟨-, f, hf, hnone⟩ := h
  refine Option.eq_none_iff_forall_ne_some.mpr fun ts hts => ?_
  rw [(lineFields_eq hts).2] at hf
  obtain ⟨num, hnum, -⟩ := hexStrToChar_field ((scriptFields_eq_some_iff.mp hts).2.1 f hf)
  rw [hnum] at hnone
  cases hnone

theorem scriptFrame_eq_none_iff {line : List UInt8} :
    scriptFrame line = none ↔ scriptFields line = none := Option.map_eq_none_iff

theorem scriptFrame_of_not_isMessage {line : List UInt8} (h : ¬IsMessage line) :
    scriptFrame line = none := by
  apply scriptFrame_eq_none_iff.mpr
  exact Option.eq_none_iff_forall_ne_some.mpr fun ts hts => h (lineFields_eq hts).1

/-! ## What the loop body sends -/

/-- Behind the command, the values are stored one behind the other. -/
theorem fieldLoop_values {fs : List (List UInt8)} {nums : List UInt8}
    (h : fs.map hexStrToChar = nums.map some) {i : Nat} (hi : 1 ≤ i) (hroom : i + fs.length ≤ 256)
    (cmd : UInt8) (msgData : Vector UInt8 255) :
    ∃ msgData', fieldLoop fs i cmd msgData = .ok (i + fs.length, cmd, msgData') ∧
      msgData'.toList.take (i - 1 + fs.length) = msgData.toList.take (i - 1) ++ nums := by
  induction fs generalizing nums i msgData with
  | nil =>
    obtain rfl : nums = [] := List.map_eq_nil_iff.mp h.symm
    exact ⟨msgData, rfl, by rw [List.append_nil]; rfl⟩
  | cons f fs ih =>
    cases nums with
    | nil => cases h
    | cons num nums =>
      rw [List.map_cons, List.map_cons, List.cons.injEq] at h
      rw [List.length_cons] at hroom
      obtain ⟨msgData', hrun, htake⟩ := ih h.2 (i := i + 1) (by omega) (by omega)
        (msgData.set (i - 1) num (by omega))
      have hstored : (msgData.set (i - 1) num (by omega)).toList.take (i + 1 - 1) =
          msgData.toList.take (i - 1) ++ [num] := by
        rw [Vector.toList_set, Nat.sub_add_comm hi]
        exact Mem.take_succ_set num (by rw [Vector.length_toList]; omega)
      refine ⟨msgData', ?_, ?_⟩
      · rw [fieldLoop, h.1]
        dsimp only
        rw [if_neg (by omega), Mem.store_eq_ok (by omega), List.length_cons, Nat.add_comm fs.length,
          ← Nat.add_assoc]
        exact hrun
      · rw [hstored, List.append_assoc] at htake
        rw [List.length_cons, Nat.add_comm fs.length, ← Nat.add_assoc, ← Nat.sub_add_comm hi]
        exact htake

/-- One attempt is made to write the frame of the command and the payload. -/
theorem sendMsg1_sends (fd : Int) (cmd : UInt8) {data payload : List UInt8}
    (hdata : data.take payload.length = payload) (hlen : payload.length ≤ 127)
    (writes : Nat → WriteOutcome) :
    ∃ ret, autolinkMcuSendMsg1 fd 1 cmd data (Int8.ofInt payload.length) writes = .ok (ret,
      (autolinkMcuSendinfo1 fd (numsFrame (cmd :: payload)).bytes (writes 0)).2) := by
  have hint : (Int8.ofInt payload.length).toInt = payload.length :=
    Int8.toInt_ofInt_of_le (by omega) (by omega)
  have hle := congrArg List.length hdata
  rw [List.length_take] at hle
  let m : Message := ⟨cmd, data, Int8.ofInt payload.length, by rw [hint]; omega,
    by rw [hint]; omega⟩
  have hframe : m.frame = numsFrame (cmd :: payload) := by
    have hnat : m.frame.len.toNat = payload.length := by
      rw [← m.len_toNat, hint]
      rfl
    have hbyte : m.frame.len = .ofNat payload.length := by
      rw [← hnat, UInt8.ofNat_toNat]
    show Frame.mk 0 cmd mcuAckByteFalse m.frame.len (data.take m.len.toInt.toNat) = _
    rw [m.len_toNat, hnat, hdata, hbyte]
    rfl
  have hreply : autolinkMcuReply cmd data (Int8.ofInt payload.length) = .ok m.frame.bytes :=
    m.reply_eq
  rw [autolinkMcuSendMsg1, hreply, hframe]
  simp only [Except.ok_bind, pure, Except.pure, Int.toNat_one, sendLoop]
  split
  · exact ⟨0, rfl⟩
  · rw [List.append_nil]
    exact ⟨-1, rfl⟩

open Mem (IsString)

/-- A text of which all fields are read is sent as the frame of their values. -/
theorem sendLine_sends (fd : Int) (writes : Nat → WriteOutcome) (v : Locals)
    {buf : Vector UInt8 255} {t : List UInt8} (h : IsString buf.toList t) (ht : t.length ≤ 126)
    (hflag : mcuToArmFlag <+: t) {nums : List UInt8}
    (hnums : ((t.drop mcuToArmFlag.length).splitOn 0x2C).map hexStrToChar = nums.map some) :
    ∃ v' e, sendLine fd writes v buf (Int8.ofInt (t.length + 1)) = .ok (v', [e]) ∧
      v'.sent = v.sent + 1 ∧
      e.wire = (autolinkMcuSendinfo1 fd (numsFrame nums).bytes (writes v.sent)).2 := by
  obtain ⟨hpos, hle⟩ := length_fields_le ht hflag
  obtain ⟨data, hsend⟩ := sendLine_eq fd writes v h ht hflag
  rw [hsend]
  generalize (t.drop mcuToArmFlag.length).splitOn 0x2C = fs at hpos hle hnums ⊢
  have hlens := congrArg List.length hnums
  rw [List.length_map, List.length_map] at hlens
  match fs, nums with
  | [], _ => cases hpos
  | _ :: _, [] => cases hnums
  | f :: fs, num :: nums =>
    rw [List.map_cons, List.map_cons, List.cons.injEq] at hnums
    rw [List.length_cons] at hle hlens
    obtain ⟨msgData, hrun, htake⟩ :=
      fieldLoop_values hnums.2 (Nat.le_refl 1) (by omega) num v.msgData
    rw [List.length_cons, Nat.add_right_cancel_iff] at hlens
    have hfields : fieldLoop (f :: fs) 0 v.cmd v.msgData = .ok (1 + nums.length, num, msgData) := by
      rw [fieldLoop, hnums.1, ← hlens]
      exact hrun
    have hpayload : msgData.toList.take nums.length = nums := by
      rw [Nat.sub_self, Nat.zero_add, hlens, List.take_zero, List.nil_append] at htake
      exact htake
    have hmsgLen : ((1 + nums.length : Nat) : Int) - 1 = nums.length := by omega
    obtain ⟨ret, hmsg⟩ :=
      sendMsg1_sends fd num hpayload (by omega) fun _ => writes v.sent
    refine ⟨⟨data, msgData, num, v.sent + 1⟩, ⟨Int8.ofInt (t.length + 1), fs.length,
      Int8.ofInt nums.length, _⟩, ?_, rfl, rfl⟩
    simp only [hfields, hmsgLen, hmsg, checked, Except.ok_bind]
    rfl

/-! ## Lines that are sent as they should be -/

/-- The line is of the form, and no field but `0` has one digit. -/
def Exact (line : List UInt8) : Prop :=
  ∃ ts ∈ scriptFields line, ∀ t ∈ ts, t.length = 1 → t = [0x30]

/-- Up to the first line that ends the program, all messages are exact; behind it, no line is of the
form. -/
def Faithful : List (List UInt8) → Prop
  | [] => True
  | line :: lines =>
    if Exits line then ∀ l ∈ lines, scriptFields l = none
    else (IsMessage line → Exact line) ∧ Faithful lines

instance (line : List UInt8) : Decidable (Exact line) :=
  inferInstanceAs (Decidable (∃ ts ∈ scriptFields line, _))

instance Faithful.decidable : (lines : List (List UInt8)) → Decidable (Faithful lines)
  | [] => .isTrue trivial
  | line :: lines =>
    haveI := decidable lines
    inferInstanceAs (Decidable (if Exits line then _ else _))

theorem numsFrame_inj {a b : List UInt8} (ha : a ≠ []) (hb : b ≠ [])
    (h : numsFrame a = numsFrame b) : a = b := by
  rw [numsFrame, numsFrame, Frame.mk.injEq] at h
  match a, b with
  | [], _ => exact absurd rfl ha
  | _, [] => exact absurd rfl hb
  | _ :: _, _ :: _ =>
    obtain ⟨-, hhead, -, -, htail⟩ := h
    exact congrArg₂ List.cons hhead htail

/-- A message is sent as the frame that the line stands for if and only if it is exact. -/
theorem exact_iff {line : List UInt8} {nums : List UInt8}
    (hnums : (lineFields line).map hexStrToChar = nums.map some) :
    Exact line ↔ scriptFrame line = some (numsFrame nums) := by
  rw [Exact, scriptFrame]
  cases hts : scriptFields line with
  | none => exact iff_of_false (fun ⟨_, h, _⟩ => nomatch h) (fun h => nomatch h)
  | some ts =>
    obtain ⟨hne, hall, -⟩ := scriptFields_eq_some_iff.mp hts
    rw [(lineFields_eq hts).2] at hnums
    have hvalues : nums = ts.map (fun t => .ofNat (fieldValue t)) ↔
        ∀ t ∈ ts, t.length = 1 → t = [0x30] := by
      have hinj : Function.Injective (some : UInt8 → Option UInt8) := fun _ _ => Option.some.inj
      rw [← (List.map_injective_iff.mpr hinj).eq_iff, ← hnums, List.map_map, List.map_inj_left]
      refine forall₂_congr fun t ht => ?_
      obtain ⟨num, hnum, hiff⟩ := hexStrToChar_field (hall t ht)
      rw [hnum, ← hiff]
      exact Option.some_inj
    have hnums' : nums ≠ [] := by
      rintro rfl
      exact hne (List.map_eq_nil_iff.mp hnums)
    simp only [Option.mem_some_iff, exists_eq_left', Option.map_some, Option.some_inj]
    rw [← hvalues]
    constructor
    · intro h
      rw [← h]
    · intro h
      exact (numsFrame_inj (mt List.map_eq_nil_iff.mp hne) hnums' h).symm

/-! ## Runs -/

/-- What reaches the wire of frames that are each written once, the first one as attempt
`start`. -/
def wiresOf (fd : Int) (writes : Nat → WriteOutcome) (start : Nat) (frames : List Frame) :
    List (List UInt8) :=
  (frames.zipIdx start).map fun fk => (autolinkMcuSendinfo1 fd fk.1.bytes (writes fk.2)).2

/-- What the loop body makes of a line. -/
theorem script_cases (fd : Int) (writes : Nat → WriteOutcome) (v : Locals) {line : List UInt8}
    (hlen : line.length ≤ 254) (hshort : (lineText line).length ≤ 126) :
    (¬IsMessage line ∧
      ∀ ls, (script fd writes).trace v (line :: ls) = (script fd writes).trace v ls) ∨
    (Exits line ∧ ∀ ls, (script fd writes).trace v (line :: ls) = []) ∨
    (IsMessage line ∧ ¬Exits line ∧ ∃ nums v' e,
      (lineFields line).map hexStrToChar = nums.map some ∧ v'.sent = v.sent + 1 ∧
      e.wire = (autolinkMcuSendinfo1 fd (numsFrame nums).bytes (writes v.sent)).2 ∧
      ∀ ls, (script fd writes).trace v (line :: ls) = e :: (script fd writes).trace v' ls) := by
  rcases confLine_cases fd writes v hlen with ⟨hm, hrun⟩ | ⟨hm, buf, hbuf, hrun⟩
  · refine .inl ⟨hm, fun ls => ?_⟩
    rw [(script fd writes).trace_cons_of_ok hrun]
    rfl
  by_cases hex : ∃ f ∈ lineFields line, hexStrToChar f = none
  · refine .inr (.inl ⟨⟨hm, hex⟩, fun ls => ?_⟩)
    rcases sendLine_spec fd writes v hbuf hshort hm with ⟨-, hsend⟩ | ⟨hgood, -⟩
    · simp only [Machine.trace, script, hrun, hsend]
    · obtain ⟨f, hf, hnone⟩ := hex
      exact absurd hnone (hgood f hf)
  · have hnums : (lineFields line).map hexStrToChar =
        ((lineFields line).map fun f => (hexStrToChar f).getD 0).map some := by
      rw [List.map_map]
      refine List.map_congr_left fun f hf => ?_
      cases hnum : hexStrToChar f with
      | none => exact absurd ⟨f, hf, hnum⟩ hex
      | some num => simp [hnum]
    obtain ⟨v', e, hsend, hsent, hwire⟩ := sendLine_sends fd writes v hbuf hshort hm hnums
    refine .inr (.inr ⟨hm, fun h => hex h.2, _, v', e, hnums, hsent, hwire, fun ls => ?_⟩)
    exact (script fd writes).trace_cons_of_ok (hrun.trans hsend)

/-- A script of exact messages is sent as it should be, whatever `write` does. -/
theorem wires_of_faithful (fd : Int) (writes : Nat → WriteOutcome) (v : Locals)
    {lines : List (List UInt8)}
    (hlines : ∀ line ∈ lines, line.length ≤ 254 ∧ (lineText line).length ≤ 126)
    (h : Faithful lines) (n : Nat) :
    ((script fd writes).trace v (lines.take n)).map LineSent.wire =
      wiresOf fd writes v.sent ((lines.take n).filterMap scriptFrame) := by
  induction lines generalizing v n with
  | nil =>
    rw [List.take_nil]
    rfl
  | cons line lines ih =>
    obtain ⟨hlen, hshort⟩ := hlines line List.mem_cons_self
    have hrest := fun l hl => hlines l (List.mem_cons_of_mem line hl)
    cases n with
    | zero => rfl
    | succ n =>
      rw [List.take_succ_cons]
      rw [Faithful] at h
      rcases script_cases fd writes v hlen hshort with ⟨hm, hrun⟩ | ⟨hex, hrun⟩ |
        ⟨hm, hex, nums, v', e, hnums, hsent, hwire, hrun⟩
      · rw [if_neg fun hex => hm hex.1] at h
        rw [hrun, List.filterMap_cons_none (scriptFrame_of_not_isMessage hm)]
        exact ih v hrest h.2 n
      · rw [if_pos hex] at h
        have hnone : (line :: lines.take n).filterMap scriptFrame = [] := by
          refine List.filterMap_eq_nil_iff.mpr fun l hl => scriptFrame_eq_none_iff.mpr ?_
          rcases List.mem_cons.mp hl with rfl | hl
          · exact scriptFields_of_exits hex
          · exact h l (List.mem_of_mem_take hl)
        rw [hrun, hnone]
        rfl
      · rw [if_neg hex] at h
        rw [hrun, List.filterMap_cons_some ((exact_iff hnums).mp (h.1 hm)), List.map_cons, hwire,
          ih v' hrest h.2 n, hsent]
        rfl

/-- Where every write succeeds, the frames are seen on the wire. -/
theorem wire_inj {f g : Frame} (hf : f.data.length ≤ 247) (hg : g.data.length ≤ 247)
    (h : (autolinkMcuSendinfo1 1 f.bytes (some 255)).2 =
      (autolinkMcuSendinfo1 1 g.bytes (some 255)).2) : f = g := by
  have hfull (f : Frame) (hf : f.data.length ≤ 247) :
      (autolinkMcuSendinfo1 1 f.bytes (some 255)).2 = f.bytes := by
    rw [sendinfo1_of_pos Int.one_pos]
    apply List.take_of_length_le
    rw [Frame.bytes_length]
    omega
  rw [hfull f hf, hfull g hg] at h
  rw [← f.decode_bytes, h, g.decode_bytes]

/-- What a line puts on the wire shows its frame, if it is the frame that the line spells. -/
theorem scriptFrame_of_wire {line : List UInt8} {nums : List UInt8} {start : Nat}
    (hm : IsMessage line) (hshort : (lineText line).length ≤ 126)
    (hnums : (lineFields line).map hexStrToChar = nums.map some)
    (h : [(autolinkMcuSendinfo1 1 (numsFrame nums).bytes (some 255)).2] =
      wiresOf 1 (fun _ => some 255) start ([line].filterMap scriptFrame)) :
    scriptFrame line = some (numsFrame nums) := by
  have hbound : (lineFields line).length ≤ 119 := (length_fields_le hshort hm).2
  cases hf : scriptFrame line with
  | none =>
    rw [List.filterMap_cons_none hf] at h
    cases h
  | some f =>
    rw [List.filterMap_cons_some hf] at h
    obtain ⟨ts, hts, rfl⟩ := Option.map_eq_some_iff.mp hf
    have hlens := congrArg List.length hnums
    rw [List.length_map, List.length_map] at hlens
    refine congrArg some (wire_inj ?_ ?_ (List.cons.inj h).1).symm
    · rw [numsFrame, List.length_tail]
      omega
    · rw [numsFrame, List.length_tail, List.length_map, ← (lineFields_eq hts).2]
      omega

theorem faithful_of_wires (v : Locals) {lines : List (List UInt8)}
    (hlines : ∀ line ∈ lines, line.length ≤ 254 ∧ (lineText line).length ≤ 126)
    (h : ∀ n, ((script 1 fun _ => some 255).trace v (lines.take n)).map LineSent.wire =
      wiresOf 1 (fun _ => some 255) v.sent ((lines.take n).filterMap scriptFrame)) :
    Faithful lines := by
  induction lines generalizing v with
  | nil => trivial
  | cons line lines ih =>
    obtain ⟨hlen, hshort⟩ := hlines line List.mem_cons_self
    have hrest := fun l hl => hlines l (List.mem_cons_of_mem line hl)
    rw [Faithful]
    rcases script_cases 1 (fun _ => some 255) v hlen hshort with ⟨hm, hrun⟩ | ⟨hex, hrun⟩ |
      ⟨hm, hex, nums, v', e, hnums, hsent, hwire, hrun⟩
    · rw [if_neg fun hex => hm hex.1]
      refine ⟨fun h => absurd h hm, ih v hrest fun n => ?_⟩
      have hn := h (n + 1)
      rw [List.take_succ_cons, hrun,
        List.filterMap_cons_none (scriptFrame_of_not_isMessage hm)] at hn
      exact hn
    · rw [if_pos hex]
      intro l hl
      have hall := h (lines.length + 1)
      rw [List.take_succ_cons, List.take_length, hrun] at hall
      have hnil := List.zipIdx_eq_nil_iff.mp (List.map_eq_nil_iff.mp hall.symm)
      exact scriptFrame_eq_none_iff.mp
        (List.filterMap_eq_nil_iff.mp hnil l (List.mem_cons_of_mem line hl))
    · rw [if_neg hex]
      have hframe : scriptFrame line = some (numsFrame nums) := by
        have hone := h 1
        rw [List.take_succ_cons, List.take_zero, hrun, List.map_cons, hwire] at hone
        exact scriptFrame_of_wire hm hshort hnums hone
      refine ⟨fun _ => (exact_iff hnums).mpr hframe, ih v' hrest fun n => ?_⟩
      have hn := h (n + 1)
      rw [List.take_succ_cons, hrun, List.filterMap_cons_some hframe] at hn
      rw [hsent]
      exact (List.cons.inj hn).2

/-! ## Files -/

/-- The end of a line is not seen. -/
theorem text_newline (p : List UInt8) : lineText (p ++ [0x0A]) = lineText p ∧
    scriptFields (p ++ [0x0A]) = scriptFields p := by
  have hdrop (u : List UInt8) : (u ++ [0x0A]).rdropWhile (fun c => IsEol c) =
      u.rdropWhile fun c => IsEol c := List.rdropWhile_concat_pos _ _ _ (by decide)
  constructor
  · rw [lineText, lineText, List.takeWhile_append]
    split
    case isTrue hlen =>
      have hself : p.takeWhile (· ≠ 0) = p := (List.takeWhile_prefix _).eq_of_length hlen
      have hlast : [(0x0A : UInt8)].takeWhile (· ≠ 0) = [0x0A] := rfl
      rw [hlast, hdrop, hself]
    case isFalse => rfl
  · rw [scriptFields, scriptFields, hdrop]

/-- What `fgets` delivers are the lines of the file. -/
theorem fgetsAll_lines {file : List UInt8} (h : ∀ p ∈ file.splitOn 0x0A, p.length ≤ 126) :
    (fgetsAll file).map lineText = (file.splitOn 0x0A).map lineText ∧
      (fgetsAll file).map scriptFields = (file.splitOn 0x0A).map scriptFields := by
  induction file using Lines.induction (0x0A : UInt8) with
  | unterminated w hw =>
    rw [List.splitOn_eq_singleton hw] at h ⊢
    have hlen := h w (List.mem_singleton_self w)
    have hlast := (fgets_line hw (by omega : w.length < 254)).2
    rw [fgetsAll, hlast, dif_neg Bool.noConfusion]
    exact ⟨rfl, rfl⟩
  | line w xs hw ih =>
    rw [List.splitOn_append_cons_self_of_not_mem hw] at h ⊢
    have hlen := h w List.mem_cons_self
    have hline := (fgets_line hw (by omega : w.length < 254)).1 xs
    obtain ⟨htext, hfields⟩ := ih fun p hp => h p (List.mem_cons_of_mem w hp)
    obtain ⟨htext', hfields'⟩ := text_newline w
    rw [fgetsAll, hline, dif_pos rfl, List.map_cons, List.map_cons, List.map_cons, List.map_cons,
      htext, hfields, htext', hfields']
    exact ⟨rfl, rfl⟩

/-- Whether a script is faithful depends on what is seen of its lines. -/
theorem faithful_congr {lines ps : List (List UInt8)}
    (htext : lines.map lineText = ps.map lineText)
    (hfields : lines.map scriptFields = ps.map scriptFields) : Faithful lines ↔ Faithful ps := by
  induction lines generalizing ps with
  | nil =>
    rw [List.map_eq_nil_iff.mp htext.symm]
  | cons line lines ih =>
    cases ps with
    | nil => cases htext
    | cons p ps =>
      rw [List.map_cons, List.map_cons, List.cons.injEq] at htext hfields
      have hmessage : IsMessage line ↔ IsMessage p := by rw [IsMessage, IsMessage, htext.1]
      have hexits : Exits line ↔ Exits p := by
        rw [Exits, Exits, hmessage, lineFields, lineFields, htext.1]
      have hexact : Exact line ↔ Exact p := by rw [Exact, Exact, hfields.1]
      have hnone : (∀ l ∈ lines, scriptFields l = none) ↔ ∀ l ∈ ps, scriptFields l = none := by
        rw [← List.forall_mem_map (P := (· = none)), hfields.2, List.forall_mem_map]
      rw [Faithful, Faithful]
      by_cases hex : Exits p
      · rw [if_pos (hexits.mpr hex), if_pos hex]
        exact hnone
      · rw [if_neg (mt hexits.mp hex), if_neg hex, hmessage, hexact, ih htext.2 hfields.2]

/-- However many lines are read and whatever `write` does, what reaches the wire is what it takes of
the frames that these lines of the file stand for. -/
def TransmitsScript (v : Locals) (file : List UInt8) : Prop :=
  ∀ fd writes n, ((script fd writes).trace v ((fgetsAll file).take n)).map LineSent.wire =
    wiresOf fd writes v.sent (((file.splitOn 0x0A).take n).filterMap scriptFrame)

/-- A file with lines of at most 126 characters is sent as it should be if and only if it is
faithful. -/
theorem readConf_transmits_iff (v : Locals) {file : List UInt8}
    (h : ∀ p ∈ file.splitOn 0x0A, p.length ≤ 126) :
    TransmitsScript v file ↔ Faithful (file.splitOn 0x0A) := by
  obtain ⟨htext, hfields⟩ := fgetsAll_lines h
  have hbounds : ∀ line ∈ fgetsAll file,
      line.length ≤ 254 ∧ (lineText line).length ≤ 126 := by
    intro line hline
    refine ⟨fgetsAll_length_le file line hline, ?_⟩
    have hmem := List.mem_map_of_mem (f := lineText) hline
    rw [htext] at hmem
    obtain ⟨p, hp, heq⟩ := List.mem_map.mp hmem
    rw [← heq]
    exact ((List.rdropWhile_prefix _ _).trans (List.takeWhile_prefix _)).length_le.trans (h p hp)
  have hframes (n : Nat) : ((file.splitOn 0x0A).take n).filterMap scriptFrame =
      ((fgetsAll file).take n).filterMap scriptFrame := by
    have hmap (ls : List (List UInt8)) : ls.filterMap scriptFrame =
        (ls.map scriptFields).filterMap fun o =>
          o.map fun ts => numsFrame (ts.map fun t => .ofNat (fieldValue t)) := by
      rw [List.filterMap_map]
      rfl
    rw [hmap, hmap, List.map_take, List.map_take, hfields]
  rw [← faithful_congr htext hfields, TransmitsScript]
  simp only [hframes]
  constructor
  · intro hall
    exact faithful_of_wires v hbounds (hall 1 fun _ => some 255)
  · intro hfaithful fd writes n
    exact wires_of_faithful fd writes v hbounds hfaithful n

/-- A comment, a message, a blank line and a message of digits of lower case without an end of
line. -/
def smallScript : List UInt8 :=
  [0x23, 0x0D, 0x0A] ++ mcuToArmFlag ++ [0x41, 0x30, 0x2C, 0x38, 0x32, 0x0D, 0x0A, 0x0A] ++
    mcuToArmFlag ++ [0x61, 0x66, 0x2C, 0x30]

/-- The locals at the beginning. -/
def noLocals : Locals := ⟨Vector.replicate 255 0, Vector.replicate 255 0, 0, 0⟩

theorem smallScript_transmits :
    (smallScript.splitOn 0x0A).filterMap scriptFrame =
        [numsFrame [0xA0, 0x82], numsFrame [0xAF, 0x00]] ∧
      TransmitsScript noLocals smallScript :=
  ⟨by decide +kernel, (readConf_transmits_iff noLocals (by decide +kernel)).mpr (by decide +kernel)⟩

/-- A command of one digit. -/
def oneDigit : List UInt8 := mcuToArmFlag ++ [0x41]

/-- It stands for command 0A, and A0 is sent. -/
theorem not_oneDigit_transmits :
    (oneDigit.splitOn 0x0A).filterMap scriptFrame = [numsFrame [0x0A]] ∧
      ¬TransmitsScript noLocals oneDigit := by
  refine ⟨by decide +kernel, fun h => ?_⟩
  have hlines : fgetsAll oneDigit = [oneDigit] := by
    have heof : fgets 254 oneDigit = (oneDigit, [], true) := by decide +kernel
    rw [fgetsAll, heof]
    rfl
  have hone := h 1 (fun _ => some 255) 1
  rw [hlines] at hone
  revert hone
  decide +kernel

end HeadUnit.Mcu
