import HeadUnit.Gps.Sentences
import HeadUnit.Gps.Splitting

/-!
# The parser sees the line only

The buffer keeps bytes of earlier lines behind the current one, and some functions read behind their
token. A line ends in `'\n'`, and none of them gets further than the byte behind its token with an
effect: parsing is the same in a buffer that ends with the line (`parseSentence_cut`).
-/

namespace HeadUnit.Gps

/-! ## Numbers -/

section Numbers

variable {mem : List UInt8} {n p q : Nat}

theorem getD_take (h : p < n) : (mem.take n).getD p 0 = mem.getD p 0 := by
  rw [List.getD_eq_getElem?_getD, List.getElem?_take_of_lt h, List.getD_eq_getElem?_getD]

theorem slice_of_take (h : q ≤ n) : slice (mem.take n) p q = slice mem p q := by
  rw [slice, slice, List.drop_take, List.take_take, Nat.min_eq_left (by omega)]

theorem str2intLoop_take {len : Nat} (hlen : p + len ≤ n) (result : Int) :
    str2intLoop (mem.take n) q len p result = str2intLoop mem q len p result := by
  induction len generalizing p result with
  | zero => rfl
  | succ len ih =>
    rw [str2intLoop, str2intLoop, getD_take (by omega)]
    simp only [ih (p := p + 1) (by omega)]

theorem str2int_take (hp : p ≤ q) (hq : q ≤ n) : str2int (mem.take n) p q = str2int mem p q := by
  rw [str2int, str2int, str2intLoop_take (by omega)]

/-- A byte that is no digit ends the conversion. -/
theorem str2intLoop_nondigit {len : Nat} (hlen : p + len = q) {k : Nat} (hp : p ≤ k) (hk : k < q)
    (hd : ¬IsDigit (mem.getD k 0)) (result : Int) : str2intLoop mem q len p result = -1 := by
  induction len generalizing p result with
  | zero => omega
  | succ len ih =>
    rw [str2intLoop, if_neg (by omega)]
    dsimp only
    split
    case isTrue => rfl
    case isFalse hc =>
      refine ih (by omega) (Nat.lt_of_le_of_ne hp ?_) _
      rintro rfl
      exact hd ⟨by omega, by omega⟩

theorem str2int_nondigit {k : Nat} (hp : p ≤ k) (hk : k < q) (hd : ¬IsDigit (mem.getD k 0)) :
    str2int mem p q = -1 := by
  rw [str2int]
  split
  case isTrue => rfl
  case isFalse => exact str2intLoop_nondigit (by omega) hp hk hd 0

theorem str2float_take {D : Type} [CDouble D] (hq : q < n) :
    (str2float (mem.take n) p q : D) = str2float mem p q := by
  have hslice : ((mem.take n).drop p).take ((q - p : Int) + 1).toNat =
      (mem.drop p).take ((q - p : Int) + 1).toNat := by
    rw [List.drop_take, List.take_take, Nat.min_eq_left (by omega)]
  rw [str2float, str2float, hslice]

end Numbers

/-! ## Tokens -/

/-- The token in a buffer that ends behind `n` bytes. -/
def Token.cut (n : Nat) (tok : Token) : Token := { tok with mem := tok.mem.take n }

/-- The token and the byte behind it are among the first `n` bytes, and that byte is no digit. -/
structure Token.Within (n : Nat) (tok : Token) : Prop where
  le : tok.p ≤ tok.stop
  lt : tok.stop < n
  behind : ¬IsDigit (tok.mem.getD tok.stop 0)

theorem dummy_within {n : Nat} (hn : 0 < n) : dummy.Within n :=
  ⟨Nat.le_refl 0, hn, by decide⟩

theorem Token.Within.char0 {n : Nat} {tok : Token} (h : tok.Within n) :
    (tok.cut n).char0 = tok.char0 :=
  getD_take (Nat.lt_of_le_of_lt h.le h.lt)

theorem Token.Within.str2int {n : Nat} {tok : Token} (h : tok.Within n) :
    str2int (tok.cut n).mem (tok.cut n).p (tok.cut n).stop = Gps.str2int tok.mem tok.p tok.stop :=
  str2int_take h.le (Nat.le_of_lt h.lt)

theorem Token.Within.str2float {D : Type} [CDouble D] {n : Nat} {tok : Token} (h : tok.Within n) :
    (str2float (tok.cut n).mem (tok.cut n).p (tok.cut n).stop : D) =
      Gps.str2float tok.mem tok.p tok.stop :=
  str2float_take h.lt

/-! ## Update functions -/

section Updates

variable {D : Type} [CDouble D] {n : Nat} {tok : Token} (r : NmeaReader D)

theorem updateTime_cut (h : tok.Within n) (zone : Int) (clk : Clock) :
    nmeaReaderUpdateTime zone clk r (tok.cut n) = nmeaReaderUpdateTime zone clk r tok := by
  have hlt := h.lt
  unfold nmeaReaderUpdateTime
  refine if_ctx_congr Iff.rfl (fun _ => rfl) fun hlen => ?_
  have hstop : tok.p + 6 ≤ tok.stop := Nat.not_lt.mp hlen
  simp only [Token.cut, str2int_take (Nat.le_add_right _ 2) (by omega : tok.p + 2 ≤ n),
    str2int_take (by omega : tok.p + 2 ≤ tok.p + 4) (by omega : tok.p + 4 ≤ n),
    str2float_take hlt]

omit [CDouble D] in
/-- The year is read past the end of its token, where it fails. -/
theorem updateCdate_cut {tokM tokY : Token} (h : tok.Within n) (hM : tokM.Within n)
    (hY : tokY.Within n) :
    nmeaReaderUpdateCdate r (tok.cut n) (tokM.cut n) (tokY.cut n) =
      nmeaReaderUpdateCdate r tok tokM tokY := by
  have hlt := h.lt
  have hltM := hM.lt
  have hyear (mem : List UInt8) (hd : ¬IsDigit (mem.getD tokY.stop 0)) :
      str2int mem tokY.p (tokY.stop + 4) = -1 :=
    str2int_nondigit hY.le (by omega) hd
  have hcut : ¬IsDigit ((tokY.mem.take n).getD tokY.stop 0) := by
    rw [getD_take hY.lt]
    exact hY.behind
  unfold nmeaReaderUpdateCdate
  refine if_ctx_congr Iff.rfl (fun _ => rfl) fun hlen => ?_
  simp only [Token.cut]
  rw [str2int_take (Nat.le_add_right _ 2) (by omega),
    str2int_take (Nat.le_add_right _ 2) (by omega), hyear _ hcut, hyear _ hY.behind]

theorem updateDate_cut {time : Token} (h : tok.Within n) (ht : time.Within n) (zone : Int)
    (clk : Clock) :
    nmeaReaderUpdateDate zone clk r (tok.cut n) (time.cut n) =
      nmeaReaderUpdateDate zone clk r tok time := by
  have hlt := h.lt
  unfold nmeaReaderUpdateDate
  refine if_ctx_congr Iff.rfl (fun _ => rfl) fun hlen => ?_
  have hstop : tok.p + 6 = tok.stop := not_ne_iff.mp hlen
  simp only [updateTime_cut _ ht]
  simp only [Token.cut, str2int_take (Nat.le_add_right _ 2) (by omega : tok.p + 2 ≤ n),
    str2int_take (by omega : tok.p + 2 ≤ tok.p + 4) (by omega : tok.p + 4 ≤ n),
    str2int_take (by omega : tok.p + 4 ≤ tok.p + 6) (by omega : tok.p + 6 ≤ n)]

theorem coordinate_cut (h : tok.Within n) (hemi neg : UInt8) :
    (coordinate (tok.cut n) hemi neg : D) = coordinate tok hemi neg := by
  have hval : (convertFromHhmm (tok.cut n) : D) = convertFromHhmm tok := by
    unfold convertFromHhmm
    rw [h.str2float]
  rw [coordinate, coordinate, hval]

theorem updateLatlong_cut {lon : Token} (h : tok.Within n) (hlon : lon.Within n)
    (latHemi lonHemi : UInt8) :
    nmeaReaderUpdateLatlong r (tok.cut n) latHemi (lon.cut n) lonHemi =
      nmeaReaderUpdateLatlong r tok latHemi lon lonHemi := by
  unfold nmeaReaderUpdateLatlong
  rw [coordinate_cut h, coordinate_cut hlon]
  rfl

theorem updateAltitude_cut (h : tok.Within n) (units : Token) :
    nmeaReaderUpdateAltitude r (tok.cut n) (units.cut n) = nmeaReaderUpdateAltitude r tok units := by
  unfold nmeaReaderUpdateAltitude
  rw [h.str2float]
  rfl

theorem updateBearing_cut (h : tok.Within n) :
    nmeaReaderUpdateBearing r (tok.cut n) = nmeaReaderUpdateBearing r tok := by
  unfold nmeaReaderUpdateBearing
  rw [h.str2float]
  rfl

theorem updateSpeed_cut (h : tok.Within n) :
    nmeaReaderUpdateSpeed r (tok.cut n) = nmeaReaderUpdateSpeed r tok := by
  unfold nmeaReaderUpdateSpeed
  rw [h.str2float]
  rfl

end Updates

/-! ## Sentences -/

section Sentences

variable {D : Type} [CDouble D] {n : Nat} {t : List Token}

theorem get_cut (hn : 0 < n) (i : Int) :
    nmeaTokenizerGet (t.map (Token.cut n)) i = (nmeaTokenizerGet t i).cut n := by
  have hdummy : dummy.cut n = dummy := by
    rw [Token.cut, dummy, List.take_of_length_le hn]
  rw [nmeaTokenizerGet, nmeaTokenizerGet, List.length_map]
  split
  case isTrue => exact hdummy.symm
  case isFalse =>
    nth_rewrite 1 [← hdummy]
    rw [List.getD_map]

variable (hn : 0 < n) (h : ∀ i : Int, (nmeaTokenizerGet t i).Within n) (r : NmeaReader D)
include hn h

theorem parseGga_cut (zone : Int) (clk : Clock) :
    parseGga zone clk (t.map (Token.cut n)) r = parseGga zone clk t r := by
  simp only [parseGga, get_cut hn, updateTime_cut _ (h _), updateLatlong_cut _ (h _) (h _),
    updateAltitude_cut _ (h _), (h _).char0]

theorem parseGll_cut (zone : Int) (clk : Clock) :
    parseGll zone clk (t.map (Token.cut n)) r = parseGll zone clk t r := by
  simp only [parseGll, get_cut hn, updateTime_cut _ (h _), updateLatlong_cut _ (h _) (h _),
    (h _).char0]

theorem parseRmc_cut (zone : Int) (clk : Clock) :
    parseRmc zone clk (t.map (Token.cut n)) r = parseRmc zone clk t r := by
  simp only [parseRmc, get_cut hn, updateDate_cut _ (h _) (h _), updateLatlong_cut _ (h _) (h _),
    updateBearing_cut _ (h _), updateSpeed_cut _ (h _), (h _).char0]

theorem parseVtg_cut : parseVtg (t.map (Token.cut n)) r = parseVtg t r := by
  simp only [parseVtg, get_cut hn, updateBearing_cut _ (h _), updateSpeed_cut _ (h _), (h _).char0]

theorem parseZda_cut (zone : Int) (clk : Clock) :
    parseZda zone clk (t.map (Token.cut n)) r = parseZda zone clk t r := by
  simp only [parseZda, get_cut hn, updateCdate_cut _ (h _) (h _) (h _), updateTime_cut _ (h _),
    (h _).char0]

omit r [CDouble D] in
theorem intField_cut (i : Nat) : intField (t.map (Token.cut n)) i = intField t i := by
  rw [intField, intField, get_cut hn]
  exact (h i).str2int

omit [CDouble D] in
theorem gsaField_cut (i : Nat) : gsaField (t.map (Token.cut n)) r i = gsaField t r i := by
  simp only [gsaField, get_cut hn, (h _).str2int]

omit [CDouble D] in
theorem parseGsa_cut : parseGsa (t.map (Token.cut n)) r = parseGsa t r := by
  have hfield : gsaField (D := D) (t.map (Token.cut n)) = gsaField t :=
    funext fun r => funext fun i => gsaField_cut hn h r i
  simp only [parseGsa, hfield, get_cut hn, (h _).char0]

omit r in
theorem gsvEntry_cut (i : Nat) :
    (gsvEntry (t.map (Token.cut n)) i : GpsSvInfo D) = gsvEntry t i := by
  simp only [gsvEntry, get_cut hn, (h _).str2int, (h _).str2float]

theorem gsvLoop_cut (noSatellites : Int) (left i curr : Nat) (sv : GpsSvStatus D) :
    gsvLoop (t.map (Token.cut n)) noSatellites left i curr sv =
      gsvLoop t noSatellites left i curr sv := by
  induction left generalizing i curr sv with
  | zero => rfl
  | succ left ih =>
    rw [gsvLoop, gsvLoop, gsvEntry_cut hn h]
    simp only [ih]

theorem parseGsv_cut : parseGsv (t.map (Token.cut n)) r = parseGsv t r := by
  simp only [parseGsv, intField_cut hn h, gsvLoop_cut hn h]

/-- A sentence acts the same in a buffer that ends behind it. -/
theorem parseSentence_cut (hid : (nmeaTokenizerGet t 0).p + 5 ≤ n) (zone : Int) (clk : Clock) :
    parseSentence zone clk (t.map (Token.cut n)) r = parseSentence zone clk t r := by
  have hsid : sentenceId ((nmeaTokenizerGet t 0).cut n) = sentenceId (nmeaTokenizerGet t 0) := by
    generalize nmeaTokenizerGet t 0 = tok at hid
    show ((tok.mem.take n).drop (tok.p + 2)).take 3 = _
    rw [List.drop_take, List.take_take, Nat.min_eq_left (by omega), sentenceId]
  simp only [parseSentence, get_cut hn, hsid, parseGga_cut hn h, parseGll_cut hn h,
    parseGsa_cut hn h, parseGsv_cut hn h, parseRmc_cut hn h, parseVtg_cut hn h, parseZda_cut hn h]

end Sentences

/-! ## The tokens of a line -/

section Tokens

variable {mem : List UInt8} {n : Nat}

theorem tokenLoop_cut {stop : Nat} (hstop : stop ≤ n) (left p count : Nat) :
    tokenLoop (mem.take n) stop left p count =
      (tokenLoop mem stop left p count).map (Token.cut n) := by
  have hchr (p : Nat) : memchr (mem.take n) p stop 0x2C = memchr mem p stop 0x2C := by
    have hslice : slice (mem.take n) p stop = slice mem p stop := slice_of_take hstop
    rw [slice, slice] at hslice
    rw [memchr, memchr, hslice]
  induction left generalizing p count with
  | zero => rfl
  | succ left ih =>
    rw [tokenLoop, tokenLoop, hchr]
    dsimp only
    simp only [ih]
    split_ifs <;> rfl

/-- The bytes that end a field of a line. -/
def IsSeparator (b : UInt8) : Prop := b = 0x2C ∨ b = 0x2A ∨ b = 0x0D ∨ b = 0x0A

instance (b : UInt8) : Decidable (IsSeparator b) := inferInstanceAs (Decidable (_ ∨ _))

theorem IsSeparator.not_isDigit {b : UInt8} (h : IsSeparator b) : ¬IsDigit b := by
  rcases h with rfl | rfl | rfl | rfl <;> decide

/-- The text of a line ends before a separator. -/
theorem lineEnd (hn : 0 < n) (hnl : mem.getD (n - 1) 0 = 0x0A) :
    let p := skipDollar mem 0 n
    let stop := trimChecksum mem p (trimNewline mem p n)
    p ≤ stop ∧ stop < n ∧ IsSeparator (mem.getD stop 0) := by
  intro p stop
  have hp : p < n := by
    show skipDollar mem 0 n < n
    rw [skipDollar]
    split
    case isTrue hc =>
      refine Nat.lt_of_le_of_ne hn fun h1 => ?_
      rw [← h1] at hnl
      exact absurd (hc.2.symm.trans hnl) (by decide)
    case isFalse => exact hn
  have hline : p ≤ trimNewline mem p n ∧ trimNewline mem p n < n ∧
      IsSeparator (mem.getD (trimNewline mem p n) 0) := by
    rw [trimNewline, if_pos ⟨hp, hnl⟩]
    split
    case isTrue hc =>
      rw [hc.2]
      exact ⟨by omega, by omega, by decide⟩
    case isFalse =>
      rw [hnl]
      exact ⟨by omega, by omega, by decide⟩
  show p ≤ trimChecksum mem p (trimNewline mem p n) ∧ _
  rw [show stop = trimChecksum mem p (trimNewline mem p n) from rfl, trimChecksum]
  split
  case isTrue hc =>
    rw [hc.2]
    exact ⟨by omega, by omega, by decide⟩
  case isFalse => exact hline

/-- Without what follows the line in the buffer, the tokens are the same. -/
theorem tokenizerInit_cut (hn : 0 < n) (hnl : mem.getD (n - 1) 0 = 0x0A) :
    nmeaTokenizerInit (mem.take n) 0 n = (nmeaTokenizerInit mem 0 n).map (Token.cut n) := by
  obtain ⟨-, hstop, -⟩ := lineEnd hn hnl
  have hdollar : skipDollar (mem.take n) 0 n = skipDollar mem 0 n := by
    rw [skipDollar, skipDollar, getD_take hn]
  have hnewline (p : Nat) : trimNewline (mem.take n) p n = trimNewline mem p n := by
    rw [trimNewline, trimNewline, getD_take (by omega), getD_take (by omega)]
  have hle (p : Nat) : trimNewline mem p n ≤ n := by
    rw [trimNewline]
    split_ifs <;> omega
  have hchecksum (p : Nat) : trimChecksum (mem.take n) p (trimNewline mem p n) =
      trimChecksum mem p (trimNewline mem p n) := by
    have := hle p
    rw [trimChecksum, trimChecksum, getD_take (by omega)]
  simp only [nmeaTokenizerInit, hdollar, hnewline, hchecksum]
  exact tokenLoop_cut (Nat.le_of_lt hstop) _ _ _

/-- A token of a line is in the line, with a separator behind it. -/
theorem tokens_behind (hmem : n ≤ mem.length) (hn : 0 < n) (hnl : mem.getD (n - 1) 0 = 0x0A)
    (i : Int) : nmeaTokenizerGet (nmeaTokenizerInit mem 0 n) i = dummy ∨
      (nmeaTokenizerGet (nmeaTokenizerInit mem 0 n) i).mem = mem ∧
      (nmeaTokenizerGet (nmeaTokenizerInit mem 0 n) i).p ≤
        (nmeaTokenizerGet (nmeaTokenizerInit mem 0 n) i).stop ∧
      (nmeaTokenizerGet (nmeaTokenizerInit mem 0 n) i).stop < n ∧
      IsSeparator (mem.getD (nmeaTokenizerGet (nmeaTokenizerInit mem 0 n) i).stop 0) := by
  obtain ⟨hp, hstop, hend⟩ := lineEnd hn hnl
  rw [nmeaTokenizerGet]
  split
  case isTrue => exact .inl rfl
  case isFalse hi =>
    apply Or.inr
    have hlt : i.toNat < (nmeaTokenizerInit mem 0 n).length := by omega
    rw [List.getD_eq_getElem _ _ hlt]
    obtain ⟨htok, -, hle, hlt, hbehind⟩ := tokenLoop_inside (by omega) hp _ (List.getElem_mem hlt)
    refine ⟨htok, hle, Nat.lt_of_le_of_lt hlt hstop, ?_⟩
    rcases hbehind with hcomma | hlast
    · exact .inl hcomma
    · exact hlast ▸ hend

theorem tokens_within (hmem : n ≤ mem.length) (hn : 0 < n) (hnl : mem.getD (n - 1) 0 = 0x0A)
    (i : Int) : (nmeaTokenizerGet (nmeaTokenizerInit mem 0 n) i).Within n := by
  rcases tokens_behind hmem hn hnl i with hdummy | ⟨htok, hle, hlt, hbehind⟩
  · rw [hdummy]
    exact dummy_within hn
  · refine ⟨hle, hlt, ?_⟩
    rw [htok]
    exact hbehind.not_isDigit

end Tokens

/-! ## Parsing a line -/

/-- The tokens of a line, if it is one that `nmea_reader_parse` acts upon. -/
def sentenceTokens (text : List UInt8) : Option (List Token) :=
  let t := nmeaTokenizerInit text 0 text.length
  if 9 ≤ text.length ∧ (nmeaTokenizerGet t 0).p + 5 ≤ (nmeaTokenizerGet t 0).stop then some t
  else none

/-- Parsing depends on the line in the buffer only. -/
theorem parse_text {D : Type} [CDouble D] (zone : Int) (cbs : GpsCallbacks) (clk : Clock)
    {r : NmeaReader D} {w : List UInt8} (h : Holds r (w ++ [0x0A])) :
    ∃ out, (∀ o ∈ out, o.isLine) ∧ nmeaReaderParse zone cbs clk r =
      match sentenceTokens (w ++ [0x0A]) with
      | none => (r, out)
      | some t => ((handle zone cbs clk t r).1, out ++ (handle zone cbs clk t r).2) := by
  obtain ⟨out, hout, hparse⟩ := parse_eq zone cbs clk r
  refine ⟨out, fun o ho => (hout o ho).1, ?_⟩
  have hlen : r.pos = w.length + 1 := by rw [h.pos, List.length_append, List.length_singleton]
  have hn : 0 < r.pos := by omega
  have hmem : r.pos ≤ r.inBuf.toList.length := by
    have htake := congrArg List.length h.take
    rw [List.length_take, ← h.pos] at htake
    omega
  have hnl : r.inBuf.toList.getD (r.pos - 1) 0 = 0x0A := by
    rw [← getD_take (n := r.pos) (by omega), h.take, hlen]
    simp
  have htok : sentenceTokens (w ++ [0x0A]) =
      ((Output.parse r.inBuf.toList r.pos : Output D).tokens).map (List.map (Token.cut r.pos)) := by
    rw [sentenceTokens, Output.tokens, ← h.pos, ← h.take, tokenizerInit_cut hn hnl]
    simp only [get_cut hn]
    by_cases hid : 9 ≤ r.pos ∧ (nmeaTokenizerGet (nmeaTokenizerInit r.inBuf.toList 0 r.pos) 0).p + 5
        ≤ (nmeaTokenizerGet (nmeaTokenizerInit r.inBuf.toList 0 r.pos) 0).stop
    · rw [if_pos hid]
      exact if_pos hid
    · rw [if_neg hid]
      exact if_neg hid
  rw [hparse, htok]
  rcases htokens : (Output.parse r.inBuf.toList r.pos : Output D).tokens with _ | t
  · rfl
  · rw [Output.tokens] at htokens
    split at htokens
    case isFalse => cases htokens
    case isTrue hid =>
      cases htokens
      have hwithin := tokens_within hmem hn hnl
      have hcut := parseSentence_cut hn hwithin r
        (hid.2.trans (Nat.le_of_lt (hwithin 0).lt)) zone clk
      simp only [Option.map_some, handle, hcut]

end HeadUnit.Gps
