import HeadUnit.Gps.Fields

/-!
# The tokenizer splits at commas

`nmea_tokenizer_init` on a text that stands anywhere in memory: its loop ends, the tokens lie in the
text, and token `i` is field `i` of the text split at its commas (`tokenizer_splits`).
-/

namespace HeadUnit.Gps

variable {mem : List UInt8} {stop : Nat}

/-! ## The loop -/

/-- One round of `while (p < end)` on `p` and the tokens recorded. -/
def tokenRound (mem : List UInt8) (stop : Nat) (s : Nat × List Token) : Nat × List Token :=
  let q := (memchr mem s.1 stop 0x2C).getD stop
  (if q < stop then q + 1 else q,
    if s.2.length < maxNmeaTokens then s.2 ++ [⟨mem, s.1, q⟩] else s.2)

/-- The loop ends when `p` has reached `end`, with the tokens of `tokenLoop`. -/
theorem tokenLoop_while (hstop : stop ≤ mem.length) {left p : Nat} (hp : p ≤ stop)
    (hleft : stop - p ≤ left) (toks : List Token) :
    While (·.1 < stop) (tokenRound mem stop) (p, toks)
      (stop, toks ++ tokenLoop mem stop left p toks.length) := by
  induction left generalizing p toks with
  | zero =>
    obtain rfl : p = stop := by omega
    rw [tokenLoop_self, List.append_nil]
    exact .done (Nat.lt_irrefl p)
  | succ left ih =>
    rcases Nat.lt_or_eq_of_le hp with hlt | rfl
    · apply While.round (s := (p, toks)) hlt
      have hq : p ≤ (memchr mem p stop 0x2C).getD stop ∧
          (memchr mem p stop 0x2C).getD stop ≤ stop := by
        cases hq : memchr mem p stop 0x2C with
        | none => exact ⟨hp, Nat.le_refl stop⟩
        | some q =>
          obtain ⟨hpq, hqstop, -, -⟩ := memchr_eq_some hstop hq
          exact ⟨hpq, Nat.le_of_lt hqstop⟩
      rw [tokenLoop, if_pos hlt, tokenRound]
      dsimp only
      generalize (memchr mem p stop 0x2C).getD stop = q at hq ⊢
      have hnext : (if q < stop then q + 1 else q) ≤ stop ∧
          stop - (if q < stop then q + 1 else q) ≤ left := by
        split <;> omega
      generalize (if q < stop then q + 1 else q) = next at hnext ⊢
      split
      · have hrest := ih hnext.1 hnext.2 (toks ++ [⟨mem, p, q⟩])
        rw [List.length_append, List.append_assoc] at hrest
        exact hrest
      · exact ih hnext.1 hnext.2 toks
    · rw [tokenLoop_self, List.append_nil]
      exact .done (Nat.lt_irrefl p)

/-- At most 32 tokens are recorded. -/
theorem tokenLoop_length (left p count : Nat) :
    (tokenLoop mem stop left p count).length ≤ maxNmeaTokens - count := by
  induction left generalizing p count with
  | zero => exact Nat.zero_le _
  | succ left ih =>
    rw [tokenLoop]
    dsimp only
    split
    · split
      · rw [List.length_cons]
        have hrest := ih (if (memchr mem p stop 0x2C).getD stop < stop then
          (memchr mem p stop 0x2C).getD stop + 1 else (memchr mem p stop 0x2C).getD stop) (count + 1)
        omega
      · exact ih _ _
    · exact Nat.zero_le _

/-- The tokens of a piece of memory lie in it and end at commas and at its end. -/
theorem tokenLoop_inside (hstop : stop ≤ mem.length) {left p count : Nat} (hp : p ≤ stop) :
    ∀ tok ∈ tokenLoop mem stop left p count,
      tok.mem = mem ∧ p ≤ tok.p ∧ tok.p ≤ tok.stop ∧ tok.stop ≤ stop ∧
        (mem.getD tok.stop 0 = 0x2C ∨ tok.stop = stop) := by
  induction left generalizing p count with
  | zero => exact fun tok ht => absurd ht List.not_mem_nil
  | succ left ih =>
    rw [tokenLoop]
    split
    case isFalse => exact fun tok ht => absurd ht List.not_mem_nil
    case isTrue hlt =>
    cases hq : memchr mem p stop 0x2C with
    | none =>
      simp only [Option.getD_none, Nat.lt_irrefl, if_false, tokenLoop_self]
      intro tok ht
      split at ht
      · rw [List.mem_singleton.mp ht]
        exact ⟨rfl, Nat.le_refl p, hp, Nat.le_refl stop, .inr rfl⟩
      · cases ht
    | some q =>
      obtain ⟨hpq, hqstop, hcomma, -⟩ := memchr_eq_some hstop hq
      have hnext {count : Nat} : ∀ tok ∈ tokenLoop mem stop left (q + 1) count,
          tok.mem = mem ∧ p ≤ tok.p ∧ tok.p ≤ tok.stop ∧ tok.stop ≤ stop ∧
            (mem.getD tok.stop 0 = 0x2C ∨ tok.stop = stop) := by
        intro tok ht
        obtain ⟨hmem, hle, hrest⟩ := ih (by omega) tok ht
        exact ⟨hmem, by omega, hrest⟩
      simp only [Option.getD_some, if_pos hqstop]
      intro tok ht
      split at ht
      · rcases List.mem_cons.mp ht with rfl | ht
        · exact ⟨rfl, Nat.le_refl p, hpq, Nat.le_of_lt hqstop, .inl hcomma⟩
        · exact hnext tok ht
      · exact hnext tok ht

/-! ## The whole tokenizer -/

/-- Where the loop of `nmea_tokenizer_init` begins and ends. -/
def bodyBounds (mem : List UInt8) (p stop : Nat) : Nat × Nat :=
  let p := skipDollar mem p stop
  (p, trimChecksum mem p (trimNewline mem p stop))

theorem bodyBounds_le (hstop : stop ≤ mem.length) :
    (bodyBounds mem 0 stop).1 ≤ (bodyBounds mem 0 stop).2 ∧ (bodyBounds mem 0 stop).2 ≤ stop := by
  obtain ⟨-, -, hle₁⟩ := slice_skipDollar (Nat.zero_le stop) hstop
  obtain ⟨-, hle₂, hle₂'⟩ := slice_trimNewline hle₁ hstop
  obtain ⟨-, hle₃, hle₃'⟩ := slice_trimChecksum hle₂ (hle₂'.trans hstop)
  exact ⟨hle₃, hle₃'.trans hle₂'⟩

/-- `t` are the tokens of `text`, which stands at the beginning of `mem`. -/
structure SplitsText (mem text : List UInt8) (t : List Token) : Prop where
  /-- The loop ends, with these tokens. -/
  ends : ∀ s, While (·.1 < (bodyBounds mem 0 text.length).2)
    (tokenRound mem (bodyBounds mem 0 text.length).2) ((bodyBounds mem 0 text.length).1, []) s ↔
      s = ((bodyBounds mem 0 text.length).2, t)
  length_le : t.length ≤ 32
  inside : ∀ tok ∈ t, tok.mem = mem ∧ tok.p ≤ tok.stop ∧ tok.stop ≤ text.length
  field : ∀ i : Nat, i < 32 → Spells mem (nmeaTokenizerGet t i) ((fields text).getD i [])
  outside : ∀ i : Int, i < 0 ∨ 32 ≤ i → nmeaTokenizerGet t i = dummy

/-- A text with anything behind it in memory is split at its commas. -/
theorem tokenizer_splits (text rest : List UInt8) :
    SplitsText (text ++ rest) text (nmeaTokenizerInit (text ++ rest) 0 text.length) := by
  have hstop : text.length ≤ (text ++ rest).length := by
    rw [List.length_append]
    exact Nat.le_add_right _ _
  obtain ⟨hp, hle⟩ := bodyBounds_le hstop
  have hlen : (nmeaTokenizerInit (text ++ rest) 0 text.length).length ≤ 32 :=
    tokenLoop_length _ _ 0
  constructor
  case ends =>
    exact (tokenLoop_while (hle.trans hstop) hp (Nat.le_refl _) []).ends_iff
  case length_le => exact hlen
  case inside =>
    intro tok ht
    obtain ⟨hmem, -, hbounds, hend, -⟩ := tokenLoop_inside (hle.trans hstop) hp tok ht
    exact ⟨hmem, hbounds, hend.trans hle⟩
  case field =>
    intro i hi
    have hspells := (get_spells hstop hi).1
    rw [List.take_left] at hspells
    exact hspells
  case outside =>
    intro i hi
    rw [nmeaTokenizerGet, if_pos (by omega)]

end HeadUnit.Gps
