import HeadUnit.Gps.Locality

/-!
# The tokens of a line

A line ends in `'\n'`, so that a separator is behind each of its tokens: the byte that some
functions read behind a field is a comma, `*`, CR or LF, or the NUL of the dummy.
-/

namespace HeadUnit.Gps

/-- `tok` is a field of a line. -/
structure LineToken (tok : Token) (f : List UInt8) : Prop where
  spells : Spells tok.mem tok f
  behind : tok = dummy ∨ tok.stop < tok.mem.length ∧ IsSeparator (tok.mem.getD tok.stop 0)

theorem Spells.self {mem f : List UInt8} {tok : Token} (h : Spells mem tok f) :
    Spells tok.mem tok f := by
  cases h with
  | token mem_eq le stop_le slice_eq =>
    subst mem_eq
    exact .token rfl le stop_le slice_eq
  | dummy tok_eq empty => exact .dummy tok_eq empty

namespace LineToken

variable {tok : Token} {f : List UInt8}

theorem stop_eq (h : LineToken tok f) : tok.stop = tok.p + f.length := h.spells.stop_eq

theorem length_iff (h : LineToken tok f) (n : Nat) : tok.p + n ≤ tok.stop ↔ n ≤ f.length := by
  have hstop := h.stop_eq
  omega

/-- A field with a byte in it is no dummy. -/
theorem stop_lt (h : LineToken tok f) (hf : f ≠ []) :
    tok.stop < tok.mem.length ∧ IsSeparator (tok.mem.getD tok.stop 0) := by
  rcases h.behind with rfl | hbehind
  · have hlen : 0 = 0 + f.length := h.stop_eq
    exact absurd (List.length_eq_zero_iff.mp (by omega)) hf
  · exact hbehind

theorem not_isDigit (h : LineToken tok f) : ¬IsDigit (tok.mem.getD tok.stop 0) := by
  rcases h.behind with rfl | ⟨-, hsep⟩
  · decide
  · exact hsep.not_isDigit

/-- The first character of a field, where no separator is one. -/
theorem char0_iff (h : LineToken tok f) {c : UInt8} (hc : ¬IsSeparator c) (h0 : c ≠ 0) :
    tok.char0 = c ↔ f.head? = some c := by
  cases f with
  | nil =>
    have hstop : tok.stop = tok.p := h.stop_eq
    refine iff_of_false ?_ (fun h => nomatch h)
    rintro rfl
    rcases h.behind with rfl | ⟨-, hsep⟩
    · exact h0 rfl
    · rw [hstop] at hsep
      exact hc hsep
  | cons b f =>
    rw [h.spells.char0_eq (List.cons_ne_nil b f)]
    exact Option.some_inj.symm

/-- The first character of a field is NUL where NUL is in it, or for the dummy. -/
theorem char0_cons {b : UInt8} (h : LineToken tok (b :: f)) : tok.char0 = b :=
  h.spells.char0_eq (List.cons_ne_nil b f)

/-- A field that is not empty begins with NUL where its token does. -/
theorem char0_ne_zero (h : LineToken tok f) (hf : f ≠ []) :
    tok.char0 ≠ 0 ↔ f.head? ≠ some 0 := by
  cases f with
  | nil => exact absurd rfl hf
  | cons b f =>
    rw [h.char0_cons]
    exact not_congr Option.some_inj.symm

theorem str2int (h : LineToken tok f) : str2int tok.mem tok.p tok.stop = readInt f :=
  h.spells.str2int

theorem str2int_eq (h : LineToken tok f) {a b : Nat} (hab : a ≤ b) (hb : b ≤ f.length) :
    Gps.str2int tok.mem (tok.p + a) (tok.p + b) = readInt (slice f a b) :=
  h.spells.str2int_eq hab hb

end LineToken

/-! ## The tokens in the buffer -/

variable {D : Type}

/-- The tokens of what the buffer holds. -/
def lineTokens (r : NmeaReader D) : List Token := nmeaTokenizerInit r.inBuf.toList 0 r.pos

variable {r : NmeaReader D} {w : List UInt8}

theorem Holds.pos_le {text : List UInt8} (h : Holds r text) : r.pos ≤ r.inBuf.toList.length := by
  have hlen := congrArg List.length h.take
  rw [List.length_take, ← h.pos] at hlen
  omega

theorem Holds.lineToken (h : Holds r (w ++ [0x0A])) {i : Nat} (hi : i < maxNmeaTokens) :
    LineToken (nmeaTokenizerGet (lineTokens r) i) ((fields (w ++ [0x0A])).getD i []) := by
  have hspells := (get_spells h.pos_le hi).1
  rw [h.take] at hspells
  have hpos := h.pos
  rw [List.length_append, List.length_singleton] at hpos
  have hnl : r.inBuf.toList.getD (r.pos - 1) 0 = 0x0A := by
    rw [← getD_take (n := r.pos) (by omega), h.take, hpos]
    simp
  refine ⟨hspells.self, ?_⟩
  rcases tokens_behind h.pos_le (by omega) hnl i with hdummy | ⟨hmem, -, hlt, hsep⟩
  · exact .inl hdummy
  · apply Or.inr
    rw [lineTokens, hmem]
    exact ⟨Nat.lt_of_lt_of_le hlt h.pos_le, hsep⟩

theorem Holds.sentenceId (h : Holds r (w ++ [0x0A]))
    (hid : 5 ≤ ((fields (w ++ [0x0A])).getD 0 []).length) :
    sentenceId (nmeaTokenizerGet (lineTokens r) 0) =
      slice ((fields (w ++ [0x0A])).getD 0 []) 2 5 :=
  (h.lineToken (i := 0) (by decide)).spells.sentenceId_eq hid

/-- The reader with `text` in its buffer. -/
def NmeaReader.holding (r : NmeaReader D) (text : List UInt8) : NmeaReader D :=
  { r with pos := text.length, inBuf := .ofFn fun i => text.getD i 0 }

theorem holding_holds (r : NmeaReader D) {text : List UInt8} (hlen : text.length ≤ 84) :
    Holds (r.holding text) text where
  pos := rfl
  take := by
    show (Vector.ofFn fun i : Fin 84 => text.getD i 0).toList.take text.length = text
    apply List.ext_getElem
    · rw [List.length_take, Vector.length_toList]
      omega
    · intro i hi hi'
      rw [List.getElem_take, Vector.getElem_toList, Vector.getElem_ofFn,
        List.getD_eq_getElem _ _ hi']

variable [CDouble D]

/-- A line with a sentence id is handled, unless it is shorter than nine bytes. -/
theorem parse_line (zone : Int) (cbs : GpsCallbacks) (clk : Clock) (h : Holds r (w ++ [0x0A]))
    (hid : 5 ≤ ((fields (w ++ [0x0A])).getD 0 []).length) :
    ∃ out, (∀ o ∈ out, o.isLine) ∧ nmeaReaderParse zone cbs clk r =
      if w.length < 8 then (r, out)
      else ((handle zone cbs clk (lineTokens r) r).1,
        out ++ (handle zone cbs clk (lineTokens r) r).2) := by
  obtain ⟨out, hout, hparse⟩ := parse_eq zone cbs clk r
  refine ⟨out, fun o ho => (hout o ho).1, ?_⟩
  have hpos := h.pos
  rw [List.length_append, List.length_singleton] at hpos
  have htok := ((h.lineToken (i := 0) (by decide)).length_iff 5).mpr hid
  rw [hparse, Output.tokens]
  by_cases hshort : w.length < 8
  · rw [if_pos hshort, if_neg fun h => absurd h.1 (by omega)]
  · rw [if_neg hshort, if_pos ⟨by omega, htok⟩]
    rfl

/-- A short line with a sentence id has little else in it. -/
theorem short_line (hshort : w.length < 8)
    (hid : 5 ≤ ((fields (w ++ [0x0A])).getD 0 []).length) (i : Nat) :
    (1 ≤ i → ((fields (w ++ [0x0A])).getD i []).length < 6) ∧
      (4 ≤ i → (fields (w ++ [0x0A])).getD i [] = []) := by
  have hle := length_fields_le (w ++ [0x0A])
  rw [List.length_append, List.length_singleton] at hle
  generalize fields (w ++ [0x0A]) = fs at *
  cases fs with
  | nil => simp
  | cons f₀ fs =>
    have hid : 5 ≤ f₀.length := hid
    simp only [List.flatten_cons, List.length_append, List.length_cons] at hle
    constructor
    · intro hi
      obtain ⟨i, rfl⟩ : ∃ j, i = j + 1 := ⟨i - 1, by omega⟩
      rw [List.getD_cons_succ]
      by_cases hlt : i < fs.length
      · have hmem := List.Sublist.length_le (List.sublist_flatten_of_mem (List.getElem_mem hlt))
        rw [List.getD_eq_getElem _ _ hlt]
        omega
      · rw [List.getD_eq_default _ _ (by omega)]
        exact Nat.zero_lt_succ 5
    · intro hi
      rw [List.getD_eq_default _ _]
      rw [List.length_cons]
      omega

end HeadUnit.Gps
