import HeadUnit.Gps.Effects
import HeadUnit.Gps.Fields
import HeadUnit.Std.Memory

/-!
# Reading one line

A reader between two lines collects a line that fits and parses it as a whole (`reader_line`). The
parser then acts upon the fields of the line (`parse_fields`).
-/

namespace HeadUnit.Gps

variable {D : Type}

/-! ## Collecting -/

/-- Only the line buffer differs. -/
def BufferStep (r r' : NmeaReader D) : Prop :=
  ∃ pos inBuf, r' = { r with pos := pos, inBuf := inBuf }

theorem BufferStep.trans {r₁ r₂ r₃ : NmeaReader D} (h₁ : BufferStep r₁ r₂)
    (h₂ : BufferStep r₂ r₃) : BufferStep r₁ r₃ := by
  obtain ⟨_, _, rfl⟩ := h₁
  obtain ⟨_, _, rfl⟩ := h₂
  exact ⟨_, _, rfl⟩

theorem BufferStep.overflow {r r' : NmeaReader D} (h : BufferStep r r') :
    r'.overflow = r.overflow := by
  obtain ⟨_, _, rfl⟩ := h
  rfl

/-- The buffer holds `text`. -/
structure Holds (r : NmeaReader D) (text : List UInt8) : Prop where
  pos : r.pos = text.length
  take : r.inBuf.toList.take r.pos = text

theorem Holds.store {r : NmeaReader D} {text : List UInt8} (h : Holds r text) (c : UInt8)
    (hlt : r.pos < 84) : Holds (r.store c) (text ++ [c]) where
  pos := by rw [NmeaReader.store, List.length_append, List.length_singleton, h.pos]
  take := by
    rw [NmeaReader.store, Vector.toList_setIfInBounds, Mem.take_succ_set c (by simpa using hlt),
      h.take]

variable [CDouble D] (zone : Int) (cbs : GpsCallbacks)

/-- Bytes other than `'\n'` are collected as long as they fit. -/
theorem reader_collects {r : NmeaReader D} (hpos : r.pos = 0) (hover : r.overflow = false)
    {is : List (Clock × UInt8)} (hnl : 0x0A ∉ is.map Prod.snd) (hlen : is.length ≤ 83) :
    BufferStep r ((reader zone cbs).final r is) ∧
      Holds ((reader zone cbs).final r is) (is.map Prod.snd) ∧
      ∀ o ∈ (reader zone cbs).out r is, o.isLine := by
  induction is using List.reverseRecOn with
  | nil =>
    rw [Transducer.final_nil]
    exact ⟨⟨_, _, rfl⟩, ⟨hpos, by rw [hpos]; rfl⟩, fun o ho => nomatch ho⟩
  | append_singleton is i ih =>
    rw [List.map_append, List.mem_append, not_or] at hnl
    rw [List.length_append, List.length_singleton] at hlen
    obtain ⟨hsame, hholds, hout⟩ := ih hnl.1 (by omega)
    have hc : i.2 ≠ 0x0A := fun hc => hnl.2 (List.mem_singleton.mpr hc.symm)
    have hpos' := hholds.pos
    rw [List.length_map] at hpos'
    rw [Transducer.final_snoc, Transducer.out_snoc, List.map_append]
    generalize (reader zone cbs).final r is = r' at *
    have hstep : (reader zone cbs).step r' i = (r'.store i.2, [.inWrite r'.pos]) := by
      show nmeaReaderAddc zone cbs i.1 r' i.2 = _
      rw [nmeaReaderAddc, hsame.overflow, hover, if_neg Bool.false_ne_true, if_neg (by omega)]
      exact if_neg hc
    rw [hstep]
    refine ⟨hsame.trans ⟨_, _, rfl⟩, hholds.store i.2 (by omega), ?_⟩
    intro o ho
    rcases List.mem_append.mp ho with ho | ho
    · exact hout o ho
    · rw [List.mem_singleton.mp ho]
      rfl

/-- A line that fits is parsed as a whole. -/
theorem reader_line {r : NmeaReader D} (hpos : r.pos = 0) (hover : r.overflow = false)
    {is : List (Clock × UInt8)} {w : List UInt8} (his : is.map Prod.snd = w ++ [0x0A])
    (hnl : 0x0A ∉ w) (hlen : w.length < 83) :
    ∃ i ∈ is, ∃ r' out, BufferStep r r' ∧ Holds r' (w ++ [0x0A]) ∧ (∀ o ∈ out, o.isLine) ∧
      (reader zone cbs).final r is = { (nmeaReaderParse zone cbs i.1 r').1 with pos := 0 } ∧
      (reader zone cbs).out r is = out ++ (nmeaReaderParse zone cbs i.1 r').2 := by
  obtain ⟨js, is, rfl, rfl, hlast⟩ := List.map_eq_append_iff.mp his
  obtain ⟨i, rfl, hi⟩ := List.map_eq_singleton_iff.mp hlast
  rw [List.length_map] at hlen
  obtain ⟨hsame, hholds, hout⟩ := reader_collects zone cbs hpos hover hnl (by omega)
  have hpos' := hholds.pos
  rw [List.length_map] at hpos'
  rw [Transducer.final_snoc, Transducer.out_snoc]
  generalize (reader zone cbs).final r js = r' at *
  have hstep : (reader zone cbs).step r' i =
      ({ (nmeaReaderParse zone cbs i.1 (r'.store i.2)).1 with pos := 0 },
        .inWrite r'.pos :: .parse (r'.store i.2).inBuf.toList (r'.store i.2).pos ::
          (nmeaReaderParse zone cbs i.1 (r'.store i.2)).2) := by
    show nmeaReaderAddc zone cbs i.1 r' i.2 = _
    rw [nmeaReaderAddc, hsame.overflow, hover, if_neg Bool.false_ne_true, if_neg (by omega)]
    exact if_pos hi
  rw [hstep]
  refine ⟨i, List.mem_append_right js List.mem_cons_self, r'.store i.2, (reader zone cbs).out r js ++
    [.inWrite r'.pos, .parse (r'.store i.2).inBuf.toList (r'.store i.2).pos],
    hsame.trans ⟨_, _, rfl⟩, hi ▸ hholds.store i.2 (by omega), ?_, rfl, ?_⟩
  · intro o ho
    rcases List.mem_append.mp ho with ho | ho
    · exact hout o ho
    · rcases List.mem_pair.mp ho with rfl | rfl <;> rfl
  · rw [List.append_assoc]
    rfl

/-! ## Fields -/

/-- What the parser acts upon when the buffer holds a sentence. -/
theorem parse_fields (clk : Clock) {r : NmeaReader D} {text : List UInt8} (h : Holds r text)
    (hid : 5 ≤ ((fields text).getD 0 []).length) (hlen : 9 ≤ text.length) :
    ∃ t out, (∀ o ∈ out, o.isLine) ∧
      nmeaReaderParse zone cbs clk r =
        ((handle zone cbs clk t r).1, out ++ (handle zone cbs clk t r).2) ∧
      sentenceId (nmeaTokenizerGet t 0) = slice ((fields text).getD 0 []) 2 5 ∧
      ∀ i : Nat, i < maxNmeaTokens →
        Spells r.inBuf.toList (nmeaTokenizerGet t i) ((fields text).getD i []) ∧
          (i + 1 < (fields text).length →
            r.inBuf.toList.getD (nmeaTokenizerGet t i).stop 0 = 0x2C) := by
  have hmem : r.pos ≤ r.inBuf.toList.length := by
    have hlen := congrArg List.length h.take
    rw [List.length_take, ← h.pos] at hlen
    omega
  have hspells (i : Nat) (hi : i < maxNmeaTokens) := get_spells hmem hi
  rw [h.take] at hspells
  obtain ⟨h0, -⟩ := hspells 0 (by decide)
  have htokens : (Output.parse r.inBuf.toList r.pos : Output D).tokens =
      some (nmeaTokenizerInit r.inBuf.toList 0 r.pos) := by
    have hstop := h0.stop_eq
    have hpos := h.pos
    rw [Output.tokens]
    refine if_pos ⟨by omega, ?_⟩
    simp only [Nat.cast_zero] at hstop
    omega
  obtain ⟨out, hout, hparse⟩ := parse_eq zone cbs clk r
  rw [htokens] at hparse
  exact ⟨_, out, fun o ho => (hout o ho).1, hparse, h0.sentenceId_eq hid, hspells⟩

theorem Spells.intField {mem f : List UInt8} {t : List Token} {i : Nat}
    (h : Spells mem (nmeaTokenizerGet t i) f) : intField t i = readInt f :=
  h.str2int

end HeadUnit.Gps
