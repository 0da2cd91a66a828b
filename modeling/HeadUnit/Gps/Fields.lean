import Mathlib.Data.List.GetD
import Mathlib.Data.List.TakeWhile
import HeadUnit.Gps.Reader
import HeadUnit.Std.Lines

/-!
# The fields of a sentence

The fields of a sentence are what commas separate in it, without an initial `$`, the end of the line
and a checksum. Token `i` of the tokenizer spells field `i` of the text between the two pointers
(`get_spells`); a field behind the last one and an empty last one are both the empty dummy.
-/

namespace HeadUnit.Gps

/-! ## The list between two offsets -/

/-- The bytes from `p` to `stop`. -/
def slice (mem : List UInt8) (p stop : Nat) : List UInt8 := (mem.drop p).take (stop - p)

section Slice

variable {mem : List UInt8} {p q stop : Nat}

theorem slice_self : slice mem p p = [] := by simp [slice]

theorem slice_length (h : stop ≤ mem.length) : (slice mem p stop).length = stop - p := by
  rw [slice, List.length_take, List.length_drop]
  omega

/-- A slice that has its full length is inside the list. -/
theorem le_of_slice_length (h : (slice mem p stop).length = stop - p) (hp : p < stop) :
    stop ≤ mem.length := by
  rw [slice, List.length_take, List.length_drop] at h
  omega

theorem slice_append (hpq : p ≤ q) (hq : q ≤ stop) :
    slice mem p q ++ slice mem q stop = slice mem p stop := by
  have hdrop : mem.drop q = (mem.drop p).drop (q - p) := by
    rw [List.drop_drop]
    congr 1
    omega
  have hlen : stop - p = (q - p) + (stop - q) := by omega
  rw [slice, slice, slice, hdrop, hlen, List.take_add]

theorem slice_singleton (h : p < mem.length) : slice mem p (p + 1) = [mem.getD p 0] := by
  rw [slice, Nat.add_sub_cancel_left, List.drop_eq_getElem_cons h, List.take_succ_cons,
    List.take_zero, List.getD_eq_getElem _ _ h]

theorem slice_cons (h : p < stop) (hstop : stop ≤ mem.length) :
    slice mem p stop = mem.getD p 0 :: slice mem (p + 1) stop := by
  rw [← slice_append (Nat.le_succ p) h, slice_singleton (by omega)]
  rfl

theorem slice_snoc (h : p < stop) (hstop : stop ≤ mem.length) :
    slice mem p stop = slice mem p (stop - 1) ++ [mem.getD (stop - 1) 0] := by
  obtain ⟨last, rfl⟩ : ∃ last, stop = last + 1 := ⟨stop - 1, by omega⟩
  rw [← slice_append (Nat.le_of_lt_succ h) (Nat.le_succ last), slice_singleton (by omega)]
  rfl

theorem slice_getD {i : Nat} (h : i < stop - p) (hstop : stop ≤ mem.length) :
    (slice mem p stop).getD i 0 = mem.getD (p + i) 0 := by
  rw [List.getD_eq_getElem _ _ (by rw [slice_length hstop]; exact h),
    List.getD_eq_getElem _ _ (by omega)]
  simp [slice]

theorem slice_take {n : Nat} (h : n ≤ stop - p) :
    (slice mem p stop).take n = slice mem p (p + n) := by
  rw [slice, slice, List.take_take, Nat.min_eq_left h, Nat.add_sub_cancel_left]

theorem slice_zero : slice mem 0 stop = mem.take stop := by simp [slice]

end Slice

theorem memchr_eq_none {mem : List UInt8} {p stop : Nat} {c : UInt8}
    (h : memchr mem p stop c = none) : c ∉ slice mem p stop := by
  have hall := List.findIdx?_eq_none_iff.mp (Option.map_eq_none_iff.mp h)
  intro hc
  simpa using hall c hc

theorem memchr_eq_some {mem : List UInt8} {p q stop : Nat} {c : UInt8} (hstop : stop ≤ mem.length)
    (h : memchr mem p stop c = some q) :
    p ≤ q ∧ q < stop ∧ mem.getD q 0 = c ∧ c ∉ slice mem p q := by
  obtain ⟨k, hk, rfl⟩ := Option.map_eq_some_iff.mp h
  obtain ⟨hlt, hc, hbefore⟩ := List.findIdx?_eq_some_iff_getElem.mp hk
  have hlen : k < stop - p := Nat.lt_of_lt_of_le hlt (List.length_take_le _ _)
  rw [List.getElem_take, List.getElem_drop, decide_eq_true_eq] at hc
  refine ⟨Nat.le_add_right p k, by omega, ?_, ?_⟩
  · rw [List.getD_eq_getElem _ _ (by omega), hc]
  · intro hmem
    obtain ⟨j, hj, hjc⟩ := List.mem_iff_getElem.mp hmem
    rw [slice, Nat.add_sub_cancel_left, List.length_take] at hj
    have hjk : j < k := by omega
    apply hbefore j hjk
    rw [decide_eq_true_eq, ← hjc]
    simp [slice]

/-! ## Fields -/

/-- Without an initial `$`. -/
def dropDollar : List UInt8 → List UInt8
  | c :: s => if c = 0x24 then s else c :: s
  | [] => []

/-- Without LF or CRLF at the end. -/
def dropNewline (s : List UInt8) : List UInt8 :=
  if s.getLast? = some 0x0A then
    if s.dropLast.getLast? = some 0x0D then s.dropLast.dropLast else s.dropLast
  else s

/-- Without `*` and two characters at the end. -/
def dropChecksum (s : List UInt8) : List UInt8 :=
  if 3 ≤ s.length ∧ s.getD (s.length - 3) 0 = 0x2A then s.take (s.length - 3) else s

/-- The fields of a sentence. -/
def fields (text : List UInt8) : List (List UInt8) :=
  (dropChecksum (dropNewline (dropDollar text))).splitOn 0x2C

theorem slice_skipDollar {mem : List UInt8} {p stop : Nat} (hp : p ≤ stop)
    (hstop : stop ≤ mem.length) :
    slice mem (skipDollar mem p stop) stop = dropDollar (slice mem p stop) ∧
      p ≤ skipDollar mem p stop ∧ skipDollar mem p stop ≤ stop := by
  rw [skipDollar]
  rcases Nat.lt_or_eq_of_le hp with hlt | rfl
  · rw [slice_cons hlt hstop, dropDollar]
    by_cases hc : mem.getD p 0 = 0x24
    · rw [if_pos ⟨hlt, hc⟩, if_pos hc]
      exact ⟨rfl, by omega, by omega⟩
    · rw [if_neg fun h => hc h.2, if_neg hc, ← slice_cons hlt hstop]
      exact ⟨rfl, by omega, by omega⟩
  · rw [if_neg (by omega), slice_self]
    exact ⟨rfl, by omega, by omega⟩

theorem slice_trimNewline {mem : List UInt8} {p stop : Nat} (hp : p ≤ stop)
    (hstop : stop ≤ mem.length) :
    slice mem p (trimNewline mem p stop) = dropNewline (slice mem p stop) ∧
      p ≤ trimNewline mem p stop ∧ trimNewline mem p stop ≤ stop := by
  -- the last byte, where there is one
  have hlast {stop : Nat} (hstop : stop ≤ mem.length) (c : UInt8) :
      (slice mem p stop).getLast? = some c ↔ p < stop ∧ mem.getD (stop - 1) 0 = c := by
    by_cases hlt : p < stop
    · rw [slice_snoc hlt hstop, List.getLast?_concat, Option.some.injEq]
      exact ⟨fun h => ⟨hlt, h⟩, And.right⟩
    · have hnil : slice mem p stop = [] := by
        rw [slice, Nat.sub_eq_zero_of_le (by omega), List.take_zero]
      simp [hnil, hlt]
  have hinit {stop : Nat} (hlt : p < stop) (hstop : stop ≤ mem.length) :
      (slice mem p stop).dropLast = slice mem p (stop - 1) := by
    rw [slice_snoc hlt hstop, List.dropLast_concat]
  rw [trimNewline, dropNewline]
  by_cases hlf : p < stop ∧ mem.getD (stop - 1) 0 = 0x0A
  · rw [if_pos hlf, if_pos ((hlast hstop _).mpr hlf), hinit hlf.1 hstop]
    by_cases hcr : p < stop - 1 ∧ mem.getD (stop - 1 - 1) 0 = 0x0D
    · rw [if_pos hcr, if_pos ((hlast (by omega) _).mpr hcr), hinit hcr.1 (by omega)]
      exact ⟨rfl, by omega, by omega⟩
    · rw [if_neg hcr, if_neg fun h => hcr ((hlast (by omega) _).mp h)]
      exact ⟨rfl, by omega, by omega⟩
  · rw [if_neg hlf, if_neg fun h => hlf ((hlast hstop _).mp h)]
    exact ⟨rfl, by omega, by omega⟩

theorem slice_trimChecksum {mem : List UInt8} {p stop : Nat} (hp : p ≤ stop)
    (hstop : stop ≤ mem.length) :
    slice mem p (trimChecksum mem p stop) = dropChecksum (slice mem p stop) ∧
      p ≤ trimChecksum mem p stop ∧ trimChecksum mem p stop ≤ stop := by
  rw [trimChecksum, dropChecksum, slice_length hstop]
  by_cases hlen : p + 3 ≤ stop
  · rw [slice_getD (by omega) hstop, slice_take (by omega)]
    have hstar : p + (stop - p - 3) = stop - 3 := by omega
    rw [hstar]
    by_cases hc : mem.getD (stop - 3) 0 = 0x2A
    · rw [if_pos ⟨hlen, hc⟩, if_pos ⟨by omega, hc⟩]
      exact ⟨rfl, by omega, by omega⟩
    · rw [if_neg fun h => hc h.2, if_neg fun h => hc h.2]
      exact ⟨rfl, by omega, by omega⟩
  · rw [if_neg fun h => hlen h.1, if_neg fun h => hlen (by omega)]
    exact ⟨rfl, by omega, by omega⟩

/-! ## Tokens -/

/-- `tok` spells `f` in `mem`; the dummy spells the empty field. -/
inductive Spells (mem : List UInt8) (tok : Token) (f : List UInt8) : Prop
  | token (mem_eq : tok.mem = mem) (le : tok.p ≤ tok.stop) (stop_le : tok.stop ≤ mem.length)
      (slice_eq : slice mem tok.p tok.stop = f)
  | dummy (tok_eq : tok = Gps.dummy) (empty : f = [])

theorem tokenLoop_self (mem : List UInt8) (stop left count : Nat) :
    tokenLoop mem stop left stop count = [] := by
  cases left with
  | zero => rfl
  | succ left => rw [tokenLoop, if_neg (Nat.lt_irrefl stop)]

/-- A round takes the field before the next comma, or the last one. -/
theorem tokenLoop_succ {mem : List UInt8} {p stop count : Nat} (hstop : stop ≤ mem.length)
    (hlt : p < stop) (hcount : count < maxNmeaTokens) (left : Nat) :
    (∃ q, p ≤ q ∧ q < stop ∧ mem.getD q 0 = 0x2C ∧
      tokenLoop mem stop (left + 1) p count =
        ⟨mem, p, q⟩ :: tokenLoop mem stop left (q + 1) (count + 1) ∧
      (slice mem p stop).splitOn 0x2C =
        slice mem p q :: (slice mem (q + 1) stop).splitOn 0x2C) ∨
    (tokenLoop mem stop (left + 1) p count = [⟨mem, p, stop⟩] ∧
      (slice mem p stop).splitOn 0x2C = [slice mem p stop]) := by
  rw [tokenLoop, if_pos hlt]
  cases hq : memchr mem p stop 0x2C with
  | none =>
    refine .inr ⟨?_, List.splitOn_eq_singleton (memchr_eq_none hq)⟩
    simp only [Option.getD_none, Nat.lt_irrefl, if_false, if_pos hcount, tokenLoop_self]
  | some q =>
    obtain ⟨hpq, hqstop, hcomma, hfield⟩ := memchr_eq_some hstop hq
    have hsplit : slice mem p stop = slice mem p q ++ 0x2C :: slice mem (q + 1) stop := by
      rw [← slice_append hpq (Nat.le_of_lt hqstop), slice_cons hqstop hstop, hcomma]
    refine .inl ⟨q, hpq, hqstop, hcomma, ?_, ?_⟩
    · simp only [Option.getD_some, if_pos hqstop, if_pos hcount]
    · rw [hsplit, List.splitOn_append_cons_self_of_not_mem hfield]

/-- Token `i` of the loop spells field `i` of what is left, with a comma behind it if another field
follows. -/
theorem tokenLoop_spells {mem : List UInt8} {stop : Nat} (hstop : stop ≤ mem.length)
    {left p count i : Nat} (hleft : stop - p ≤ left) (hp : p ≤ stop)
    (hi : count + i < maxNmeaTokens) :
    Spells mem ((tokenLoop mem stop left p count).getD i dummy)
        (((slice mem p stop).splitOn 0x2C).getD i []) ∧
      (i + 1 < ((slice mem p stop).splitOn 0x2C).length →
        ((tokenLoop mem stop left p count).getD i dummy).mem = mem ∧
          mem.getD ((tokenLoop mem stop left p count).getD i dummy).stop 0 = 0x2C) := by
  induction left generalizing p count i with
  | zero =>
    obtain rfl : p = stop := by omega
    rw [tokenLoop_self, slice_self, List.splitOn_nil]
    exact ⟨.dummy rfl (by cases i <;> rfl), fun h => by simp at h⟩
  | succ left ih =>
    rcases Nat.lt_or_eq_of_le hp with hlt | rfl
    · rcases tokenLoop_succ hstop hlt (by omega : count < maxNmeaTokens) left with
        ⟨q, hpq, hqstop, hcomma, hloop, hsplit⟩ | ⟨hloop, hsplit⟩
      · rw [hloop, hsplit]
        cases i with
        | zero =>
          exact ⟨.token rfl hpq ((Nat.le_of_lt hqstop).trans hstop) rfl, fun _ => ⟨rfl, hcomma⟩⟩
        | succ i =>
          obtain ⟨hspells, hsep⟩ := ih (p := q + 1) (by omega) (by omega)
            (by omega : count + 1 + i < maxNmeaTokens)
          refine ⟨hspells, fun h => hsep ?_⟩
          simpa using h
      · rw [hloop, hsplit]
        refine ⟨?_, fun h => by simp at h⟩
        cases i with
        | zero => exact .token rfl hp hstop rfl
        | succ i => exact .dummy rfl rfl
    · rw [tokenLoop_self, slice_self, List.splitOn_nil]
      exact ⟨.dummy rfl (by cases i <;> rfl), fun h => by simp at h⟩

/-- An empty last field is no token. -/
theorem tokenLoop_dummy {mem : List UInt8} {stop : Nat} (hstop : stop ≤ mem.length)
    {left p count i : Nat} (hleft : stop - p ≤ left) (hp : p ≤ stop)
    (hi : count + i < maxNmeaTokens) (hlen : ((slice mem p stop).splitOn 0x2C).length ≤ i + 1)
    (hnil : ((slice mem p stop).splitOn 0x2C).getD i [] = []) :
    (tokenLoop mem stop left p count).getD i dummy = dummy := by
  induction left generalizing p count i with
  | zero =>
    obtain rfl : p = stop := by omega
    rw [tokenLoop_self]
    rfl
  | succ left ih =>
    rcases Nat.lt_or_eq_of_le hp with hlt | rfl
    · rcases tokenLoop_succ hstop hlt (by omega : count < maxNmeaTokens) left with
        ⟨q, hpq, hqstop, -, hloop, hsplit⟩ | ⟨hloop, hsplit⟩
      · rw [hsplit] at hlen hnil
        rw [List.length_cons] at hlen
        rw [hloop]
        cases i with
        | zero =>
          have hrest := List.length_pos_iff.mpr (List.splitOn_ne_nil 0x2C (slice mem (q + 1) stop))
          omega
        | succ i =>
          exact ih (p := q + 1) (by omega) (by omega)
            (by omega : count + 1 + i < maxNmeaTokens) (by omega) hnil
      · rw [hsplit] at hnil
        rw [hloop]
        cases i with
        | zero =>
          have hfield := congrArg List.length hnil
          rw [List.getD_cons_zero, slice_length hstop, List.length_nil] at hfield
          omega
        | succ i => rfl
    · rw [tokenLoop_self]
      rfl

/-- The loop splits the text of a line without dollar, newline and checksum. -/
theorem get_eq {mem : List UInt8} {pos : Nat} (hpos : pos ≤ mem.length) :
    ∃ p stop, p ≤ stop ∧ stop ≤ mem.length ∧
      (slice mem p stop).splitOn 0x2C = fields (mem.take pos) ∧
      ∀ i : Nat, nmeaTokenizerGet (nmeaTokenizerInit mem 0 pos) i =
        (tokenLoop mem stop (stop - p) p 0).getD i dummy := by
  obtain ⟨hdollar, hle₁, hle₁'⟩ := slice_skipDollar (Nat.zero_le pos) hpos
  obtain ⟨hnewline, hle₂, hle₂'⟩ := slice_trimNewline hle₁' hpos
  obtain ⟨hchecksum, hle₃, hle₃'⟩ := slice_trimChecksum hle₂ (hle₂'.trans hpos)
  refine ⟨_, _, hle₃, hle₃'.trans (hle₂'.trans hpos), ?_, ?_⟩
  · rw [hchecksum, hnewline, hdollar, slice_zero]
    rfl
  · intro i
    show nmeaTokenizerGet (nmeaTokenizerInit mem 0 pos) i =
      (nmeaTokenizerInit mem 0 pos).getD i dummy
    rw [nmeaTokenizerGet]
    split
    case isTrue h => rw [List.getD_eq_default _ _ (by omega)]
    case isFalse h => rfl

/-- Token `i` of a line of the buffer spells field `i` of the line. -/
theorem get_spells {mem : List UInt8} {pos : Nat} (hpos : pos ≤ mem.length) {i : Nat}
    (hi : i < maxNmeaTokens) :
    Spells mem (nmeaTokenizerGet (nmeaTokenizerInit mem 0 pos) i)
        ((fields (mem.take pos)).getD i []) ∧
      (i + 1 < (fields (mem.take pos)).length →
        mem.getD (nmeaTokenizerGet (nmeaTokenizerInit mem 0 pos) i).stop 0 = 0x2C) := by
  obtain ⟨p, stop, hp, hstop, hfields, hget⟩ := get_eq hpos
  obtain ⟨hspells, hcomma⟩ :=
    tokenLoop_spells hstop (Nat.le_refl _) hp (by omega : 0 + i < maxNmeaTokens)
  rw [hget, ← hfields]
  exact ⟨hspells, fun h => (hcomma h).2⟩

/-- A field with another one behind it is a token of the line. -/
theorem get_mem {mem : List UInt8} {pos : Nat} (hpos : pos ≤ mem.length) {i : Nat}
    (hi : i < maxNmeaTokens) (hlen : i + 1 < (fields (mem.take pos)).length) :
    (nmeaTokenizerGet (nmeaTokenizerInit mem 0 pos) i).mem = mem := by
  obtain ⟨p, stop, hp, hstop, hfields, hget⟩ := get_eq hpos
  rw [← hfields] at hlen
  rw [hget]
  exact ((tokenLoop_spells hstop (Nat.le_refl _) hp (by omega : 0 + i < maxNmeaTokens)).2 hlen).1

/-- An empty last field is read as the dummy. -/
theorem get_dummy {mem : List UInt8} {pos : Nat} (hpos : pos ≤ mem.length) {i : Nat}
    (hi : i < maxNmeaTokens) (hlen : (fields (mem.take pos)).length ≤ i + 1)
    (hnil : (fields (mem.take pos)).getD i [] = []) :
    nmeaTokenizerGet (nmeaTokenizerInit mem 0 pos) i = dummy := by
  obtain ⟨p, stop, hp, hstop, hfields, hget⟩ := get_eq hpos
  rw [← hfields] at hlen hnil
  rw [hget]
  exact tokenLoop_dummy hstop (Nat.le_refl _) hp (by omega : 0 + i < maxNmeaTokens) hlen hnil

/-! ## Numbers -/

namespace Spells

variable {mem f : List UInt8} {tok : Token}

theorem stop_eq (h : Spells mem tok f) : tok.stop = tok.p + f.length := by
  cases h with
  | token mem_eq le stop_le slice_eq => rw [← slice_eq, slice_length stop_le]; omega
  | dummy tok_eq empty => rw [tok_eq, empty]; rfl

/-- Behind the first `k` bytes of a field. -/
theorem slice_eq {a b : Nat} (h : Spells mem tok f) (hab : a ≤ b) (hb : b ≤ f.length) :
    slice tok.mem (tok.p + a) (tok.p + b) = slice f a b := by
  cases h with
  | token mem_eq le stop_le hslice =>
    subst mem_eq hslice
    rw [slice_length stop_le] at hb
    rw [slice, slice, slice, List.drop_take, List.drop_drop, List.take_take]
    congr 1
    omega
  | dummy tok_eq empty =>
    subst empty
    obtain rfl : b = 0 := by simpa using hb
    obtain rfl : a = 0 := by omega
    rw [slice_self, slice_self]

theorem char0_eq (h : Spells mem tok f) (hf : f ≠ []) : tok.char0 = f.getD 0 0 := by
  have hlen : 0 < f.length := List.length_pos_of_ne_nil hf
  have hslice := h.slice_eq (Nat.zero_le 1) hlen
  cases h with
  | token mem_eq le stop_le hslice' =>
    subst mem_eq hslice'
    rw [slice_length stop_le] at hlen
    rw [slice_getD hlen stop_le]
    rfl
  | dummy tok_eq empty => exact absurd empty hf

theorem sentenceId_eq (h : Spells mem tok f) (hf : 5 ≤ f.length) :
    sentenceId tok = slice f 2 5 := by
  have hthree : tok.p + 5 - (tok.p + 2) = 3 := by omega
  rw [← h.slice_eq (by decide : 2 ≤ 5) hf, slice, hthree, sentenceId]

end Spells

/-- What `str2int` returns for a field. -/
def scanInt : List UInt8 → Int → Int
  | [], result => result
  | b :: f, result =>
    let c : Int := b.toNat - 48
    if c < 0 ∨ c ≥ 10 then -1 else scanInt f (wrap32 (result * 10 + c))

def readInt (f : List UInt8) : Int := if f = [] then -1 else scanInt f 0

theorem str2intLoop_eq {mem : List UInt8} {stop len p : Nat} (hstop : p + len ≤ stop)
    (hmem : p + len ≤ mem.length) (result : Int) :
    str2intLoop mem stop len p result = scanInt (slice mem p (p + len)) result := by
  induction len generalizing p result with
  | zero => rw [Nat.add_zero, slice_self, str2intLoop, scanInt]
  | succ len ih =>
    have hnext : p + (len + 1) = p + 1 + len := by omega
    rw [slice_cons (by omega) hmem, str2intLoop, if_neg (by omega), scanInt, hnext]
    dsimp only
    rw [ih (by omega) (by omega)]

theorem str2int_eq {mem : List UInt8} {p stop : Nat} (hp : p ≤ stop) (hmem : stop ≤ mem.length) :
    str2int mem p stop = readInt (slice mem p stop) := by
  have hlen := slice_length (p := p) hmem
  rcases Nat.lt_or_eq_of_le hp with hlt | rfl
  · obtain ⟨len, rfl⟩ : ∃ len, stop = p + len := ⟨stop - p, by omega⟩
    have hne : slice mem p (p + len) ≠ [] := by
      intro hnil
      rw [hnil] at hlen
      simp at hlen
      omega
    have htoNat : ((p + len : Nat) - p : Int).toNat = len := by omega
    rw [str2int, if_neg (by omega), readInt, if_neg hne, htoNat,
      str2intLoop_eq (Nat.le_refl _) hmem]
  · rw [str2int, if_pos (by omega), readInt, slice_self, if_pos rfl]

theorem Spells.str2int_eq {mem f : List UInt8} {tok : Token} (h : Spells mem tok f) {a b : Nat}
    (hab : a ≤ b) (hb : b ≤ f.length) :
    str2int tok.mem (tok.p + a) (tok.p + b) = readInt (slice f a b) := by
  have hle : tok.p + b ≤ tok.mem.length := by
    have hstop := h.stop_eq
    cases h with
    | token mem_eq le stop_le slice_eq => rw [mem_eq]; omega
    | dummy tok_eq empty =>
      subst tok_eq empty
      have hzero : b = 0 := by simpa using hb
      subst hzero
      decide
  rw [Gps.str2int_eq (by omega) hle, h.slice_eq hab hb]

theorem Spells.str2int {mem f : List UInt8} {tok : Token} (h : Spells mem tok f) :
    str2int tok.mem tok.p tok.stop = readInt f := by
  have hwhole := h.str2int_eq (Nat.zero_le _) (Nat.le_refl f.length)
  rw [Nat.add_zero, ← h.stop_eq] at hwhole
  rw [hwhole, slice_zero, List.take_length]

theorem decVal_cons (d : UInt8) (ds : List UInt8) :
    decVal (d :: ds) = (d.toNat - 48) * 10 ^ ds.length + decVal ds := by
  rw [← List.singleton_append, decVal_append]
  simp [decVal]

/-- Digits are read modulo 2^32. -/
theorem scanInt_wrap {f : List UInt8} (hf : ∀ d ∈ f, IsDigit d) (result : Int) :
    scanInt f (wrap32 result) = wrap32 (result * 10 ^ f.length + decVal f) := by
  induction f generalizing result with
  | nil => simp [scanInt]
  | cons d f ih =>
    obtain ⟨hlo, hhi⟩ := hf d List.mem_cons_self
    have hvalue : result * 10 ^ (d :: f).length + decVal (d :: f) =
        (result * 10 + (d.toNat - 48 : Nat)) * 10 ^ f.length + decVal f := by
      rw [decVal_cons, List.length_cons, pow_succ]
      push_cast
      ring
    have hdigit : ((d.toNat - 48 : Nat) : Int) = d.toNat - 48 := by omega
    rw [scanInt, if_neg (by omega), wrap32_mul_add, hvalue, hdigit]
    exact ih (fun c hc => hf c (List.mem_cons_of_mem d hc)) _

theorem readInt_wrap {f : List UInt8} (hne : f ≠ []) (hf : ∀ d ∈ f, IsDigit d) :
    readInt f = wrap32 (decVal f) := by
  have hscan := scanInt_wrap hf 0
  rw [Int.zero_mul, Int.zero_add] at hscan
  rw [readInt, if_neg hne]
  exact hscan

theorem readInt_digits {f : List UInt8} (hne : f ≠ []) (hf : ∀ d ∈ f, IsDigit d)
    (hlen : f.length ≤ 9) : readInt f = decVal f := by
  have hpow : (10 : Nat) ^ f.length ≤ 10 ^ 9 := Nat.pow_le_pow_right (by omega) hlen
  have hval := decVal_lt hf
  rw [readInt_wrap hne hf, wrap32_eq (by omega) (by omega)]

/-- A byte that is no digit ends the conversion. -/
theorem scanInt_nondigit {f : List UInt8} {d : UInt8} (hd : d ∈ f) (h : ¬IsDigit d)
    (result : Int) : scanInt f result = -1 := by
  induction f generalizing result with
  | nil => cases hd
  | cons b f ih =>
    rw [scanInt]
    split
    case isTrue => rfl
    case isFalse hc =>
      rcases List.mem_cons.mp hd with rfl | hd
      · exact absurd ⟨by omega, by omega⟩ h
      · exact ih hd _

theorem readInt_nondigit {f : List UInt8} {d : UInt8} (hd : d ∈ f) (h : ¬IsDigit d) :
    readInt f = -1 := by
  rw [readInt, if_neg (List.ne_nil_of_mem hd), scanInt_nondigit hd h]

/-- Short numbers are read without a sign if and only if they consist of digits. -/
theorem readInt_nonneg_iff {f : List UInt8} (hne : f ≠ []) (hlen : f.length ≤ 9) :
    0 ≤ readInt f ↔ ∀ d ∈ f, IsDigit d := by
  constructor
  · intro hnn d hd
    by_contra h
    rw [readInt_nondigit hd h] at hnn
    omega
  · intro hf
    rw [readInt_digits hne hf hlen]
    omega

/-- `str2float` reads a field together with the byte behind it. -/
theorem str2float_eq {D : Type} [CDouble D] {mem : List UInt8} {p stop : Nat} (hp : p ≤ stop)
    (hmem : stop < mem.length) (hlen : stop - p ≤ 30) (hnul : ∀ b ∈ slice mem p stop, b ≠ 0)
    (hbehind : mem.getD stop 0 ≠ 0) :
    (str2float mem p stop : D) = CDouble.strtod (slice mem p stop ++ [mem.getD stop 0]) := by
  have hslice : (mem.drop p).take ((stop - p : Int) + 1).toNat =
      slice mem p stop ++ [mem.getD stop 0] := by
    have hcount : ((stop - p : Int) + 1).toNat = stop + 1 - p := by omega
    rw [hcount, ← slice_singleton hmem, slice_append hp (Nat.le_succ stop)]
    rfl
  have hall : ∀ b ∈ slice mem p stop ++ [mem.getD stop 0], decide (b ≠ 0) = true := by
    intro b hb
    rcases List.mem_append.mp hb with hb | hb
    · exact decide_eq_true (hnul b hb)
    · rw [List.mem_singleton.mp hb]
      exact decide_eq_true hbehind
  rw [str2float, if_neg (by omega), if_neg (by omega), hslice]
  rw [List.takeWhile_eq_self_iff.mpr hall]

/-! ## Lengths -/

theorem length_dropNewline_le (s : List UInt8) : (dropNewline s).length ≤ s.length := by
  rw [dropNewline]
  split
  · split
    · simp
      omega
    · simp
  · exact Nat.le_refl _

theorem length_body_le (text : List UInt8) :
    (dropChecksum (dropNewline (dropDollar text))).length ≤ text.length := by
  have hdollar : (dropDollar text).length ≤ text.length := by
    cases text with
    | nil => exact Nat.le_refl _
    | cons c s =>
      rw [dropDollar]
      split <;> simp
  have hnewline := length_dropNewline_le (dropDollar text)
  rw [dropChecksum]
  split
  · rw [List.length_take]
    omega
  · omega

/-- A text is no shorter than its fields and the commas between them. -/
theorem length_fields_le (text : List UInt8) :
    (fields text).flatten.length + (fields text).length ≤ text.length + 1 := by
  have hle := length_body_le text
  have hlen := Lines.length_splitOn 0x2C (dropChecksum (dropNewline (dropDollar text)))
  rw [fields]
  omega

end HeadUnit.Gps
