import Mathlib.Data.List.Basic
import Mathlib.Data.List.Induction
import Mathlib.Data.List.TakeWhile
import Mathlib.Algebra.Order.Floor.Ring
import Mathlib.Data.Rat.Floor
import Mathlib.Tactic.Linarith
import Mathlib.Tactic.Positivity
import Mathlib.Tactic.FieldSimp

/-!
# Decimal text and C arithmetic

Digit strings and their values, `int` arithmetic modulo 2^32, and the operations of C's `double`
that decimal input goes through. `CDouble` leaves the number format open; the exact rationals are
one instance.
-/

/-- An ASCII digit. -/
def IsDigit (b : UInt8) : Prop := 48 ≤ b.toNat ∧ b.toNat ≤ 57

instance (b : UInt8) : Decidable (IsDigit b) := inferInstanceAs (Decidable (_ ∧ _))

instance (ds : List UInt8) : Decidable (∀ d ∈ ds, IsDigit d) := List.decidableBAll IsDigit ds

/-- The value of a digit string. -/
def decVal (ds : List UInt8) : Nat := ds.foldl (fun v d => 10 * v + (d.toNat - 48)) 0

@[simp] theorem decVal_nil : decVal [] = 0 := rfl

theorem decVal_snoc (ds : List UInt8) (d : UInt8) :
    decVal (ds ++ [d]) = 10 * decVal ds + (d.toNat - 48) := by
  simp [decVal]

theorem decVal_append (as bs : List UInt8) :
    decVal (as ++ bs) = decVal as * 10 ^ bs.length + decVal bs := by
  induction bs using List.reverseRecOn with
  | nil => simp
  | append_singleton bs b ih =>
    rw [← List.append_assoc, decVal_snoc, ih, decVal_snoc, List.length_append,
      List.length_singleton, Nat.pow_succ, Nat.mul_add, Nat.add_assoc]
    congr 1
    rw [Nat.mul_comm 10, Nat.mul_assoc]

theorem decVal_lt {ds : List UInt8} (h : ∀ d ∈ ds, IsDigit d) : decVal ds < 10 ^ ds.length := by
  induction ds using List.reverseRecOn with
  | nil => simp
  | append_singleton ds d ih =>
    have hds := ih fun c hc => h c (List.mem_append_left _ hc)
    have hd := (h d (by simp)).2
    rw [decVal_snoc, List.length_append, List.length_singleton, Nat.pow_succ]
    omega

/-- `int` arithmetic modulo 2^32. -/
def wrap32 (x : Int) : Int := Int.bmod x (2 ^ 32)

theorem wrap32_mul_add (x c : Int) : wrap32 (wrap32 x * 10 + c) = wrap32 (x * 10 + c) := by
  simp only [wrap32, Int.bmod_def]
  omega

theorem wrap32_eq {x : Int} (hlo : -2 ^ 31 ≤ x) (hhi : x < 2 ^ 31) : wrap32 x = x := by
  rw [wrap32, Int.bmod_def]
  omega

theorem wrap32_sub (x y : Int) : wrap32 (wrap32 x - wrap32 y) = wrap32 (x - y) := by
  simp only [wrap32, Int.bmod_def]
  omega

/-! ## Floating point -/

/-- A byte that ends a decimal number. -/
def EndsNumber (c : UInt8) : Prop := ¬IsDigit c ∧ c ≠ 0x2E ∧ c ≠ 0x65 ∧ c ≠ 0x45

instance (c : UInt8) : Decidable (EndsNumber c) := inferInstanceAs (Decidable (_ ∧ _))

/-- `.` and at most three digits, or nothing. -/
def IsFraction (frac : List UInt8) : Prop :=
  frac = [] ∨ ∃ ds, frac = 0x2E :: ds ∧ ds.length ≤ 3 ∧ ∀ d ∈ ds, IsDigit d

/-- The operations of `double`. `strtod` gets the bytes up to the terminating NUL, `toInt` is the
cast to `int` and `toFloat` the rounding of a store to a `float`. The law is what correct rounding
guarantees of two integer digits with a short fraction. -/
class CDouble (D : Type) extends Add D, Sub D, Mul D, Div D, Neg D, OfScientific D where
  ofInt : Int → D
  floor : D → D
  toInt : D → Int
  toFloat : D → D
  strtod : List UInt8 → D
  toInt_strtod (d₁ d₂ : UInt8) (frac : List UInt8) (c : UInt8) : IsDigit d₁ → IsDigit d₂ →
    IsFraction frac → EndsNumber c → toInt (strtod ([d₁, d₂] ++ frac ++ [c])) = decVal [d₁, d₂]

namespace Decimal

def isSpace (b : UInt8) : Bool := b = 0x20 ∨ (0x09 ≤ b ∧ b ≤ 0x0D)

/-- An optional sign, and whether it is `-`. -/
def sign : List UInt8 → Bool × List UInt8
  | [] => (false, [])
  | c :: s => if c = 0x2D then (true, s) else if c = 0x2B then (false, s) else (false, c :: s)

/-- The digits after an optional point, and what follows them. -/
def fraction : List UInt8 → List UInt8 × List UInt8
  | [] => ([], [])
  | c :: s =>
    if c = 0x2E then (s.takeWhile (IsDigit ·), s.dropWhile (IsDigit ·)) else ([], c :: s)

/-- The value of an optional exponent. -/
def exponent : List UInt8 → Int
  | [] => 0
  | c :: s =>
    if c = 0x65 ∨ c = 0x45 then
      let (neg, s) := sign s
      let e : Int := decVal (s.takeWhile (IsDigit ·))
      if neg then -e else e
    else 0

/-- `m * 10 ^ e`. -/
def scale (m : Int) (e : Int) : ℚ :=
  if 0 ≤ e then (m * 10 ^ e.toNat : Int) else (m : ℚ) / (10 ^ (-e).toNat : Nat)

/-- The exact value of the longest decimal number at the start of `s`, 0 if there is none. -/
def strtod (s : List UInt8) : ℚ :=
  let (neg, s) := sign (s.dropWhile isSpace)
  let ip := s.takeWhile (IsDigit ·)
  let (fp, rest) := fraction (s.dropWhile (IsDigit ·))
  if ip = [] ∧ fp = [] then 0
  else
    let v := scale (decVal (ip ++ fp)) (exponent rest - fp.length)
    if neg then -v else v

/-- Truncation towards zero. -/
def trunc (q : ℚ) : Int := if 0 ≤ q then ⌊q⌋ else ⌈q⌉

theorem takeWhile_append_stop {p : UInt8 → Bool} {ds : List UInt8} {c : UInt8} {s : List UInt8}
    (h : ∀ d ∈ ds, p d) (hc : ¬p c) : (ds ++ c :: s).takeWhile p = ds := by
  rw [List.takeWhile_append_of_pos h, List.takeWhile_cons_of_neg hc, List.append_nil]

theorem dropWhile_append_stop {p : UInt8 → Bool} {ds : List UInt8} {c : UInt8} {s : List UInt8}
    (h : ∀ d ∈ ds, p d) (hc : ¬p c) : (ds ++ c :: s).dropWhile p = c :: s := by
  rw [List.dropWhile_append_of_pos h, List.dropWhile_cons_of_neg hc]

theorem sign_digit {d : UInt8} (h : IsDigit d) (s : List UInt8) :
    sign ((d :: s).dropWhile isSpace) = (false, d :: s) := by
  have hne : ∀ c : UInt8, c.toNat < 48 → d ≠ c := by
    rintro c hc rfl
    exact absurd h.1 (Nat.not_le.mpr hc)
  have hsp : ¬isSpace d := by
    simp only [isSpace, decide_eq_true_eq]
    rintro (rfl | ⟨-, hle⟩)
    · exact absurd h.1 (by decide)
    · have hd : d.toNat ≤ 13 := UInt8.le_iff_toNat_le.mp hle
      exact absurd h.1 (by omega)
  rw [List.dropWhile_cons_of_neg hsp, sign, if_neg (hne _ (by decide)), if_neg (hne _ (by decide))]

/-- The value of digits with a fraction, ended by a byte that belongs to no number. -/
theorem strtod_digits {d : UInt8} {ip ds : List UInt8} {c : UInt8} (hd : IsDigit d)
    (hip : ∀ b ∈ ip, IsDigit b) (hds : ∀ b ∈ ds, IsDigit b) (hc : EndsNumber c) :
    strtod (d :: ip ++ 0x2E :: (ds ++ [c])) =
      (decVal (d :: ip ++ ds) : ℚ) / (10 ^ ds.length : Nat) ∧
    strtod (d :: ip ++ [c]) = decVal (d :: ip) := by
  have hall : ∀ b ∈ d :: ip, decide (IsDigit b) = true := by
    intro b hb
    rcases List.mem_cons.mp hb with rfl | hb
    · exact decide_eq_true hd
    · exact decide_eq_true (hip b hb)
  have hall' : ∀ b ∈ ds, decide (IsDigit b) = true := fun b hb => decide_eq_true (hds b hb)
  have hcd : ¬decide (IsDigit c) = true := by simpa using hc.1
  have hexp : exponent [c] = 0 := if_neg (by rintro (h | h); exacts [hc.2.2.1 h, hc.2.2.2 h])
  have hdot : ¬decide (IsDigit 0x2E) = true := by decide
  constructor
  · have hfrac : fraction (0x2E :: (ds ++ [c])) = (ds, [c]) := by
      rw [fraction, if_pos rfl, takeWhile_append_stop hall' hcd, dropWhile_append_stop hall' hcd]
    simp only [strtod, List.cons_append, sign_digit hd]
    rw [← List.cons_append, takeWhile_append_stop hall hdot, dropWhile_append_stop hall hdot, hfrac]
    simp only [hexp, List.cons_ne_nil, false_and, if_false, Bool.false_eq_true, scale]
    by_cases h0 : ds = []
    · subst h0; simp
    · have hpos := List.length_pos_iff.mpr h0
      rw [if_neg (by omega)]
      simp
  · have hfrac : fraction [c] = ([], [c]) := if_neg hc.2.1
    simp only [strtod, List.cons_append, sign_digit hd]
    rw [← List.cons_append, takeWhile_append_stop hall hcd, dropWhile_append_stop hall hcd, hfrac]
    simp [hexp, scale]

/-- `d+[.d*]`. -/
def IsNumeral (f : List UInt8) : Prop :=
  f.takeWhile (IsDigit ·) ≠ [] ∧ (f.dropWhile (IsDigit ·) = [] ∨
    (f.dropWhile (IsDigit ·)).head? = some 0x2E ∧ ∀ b ∈ (f.dropWhile (IsDigit ·)).tail, IsDigit b)

instance (f : List UInt8) : Decidable (IsNumeral f) := inferInstanceAs (Decidable (_ ∧ (_ ∨ _ ∧ _)))

/-- The value of a numeral. -/
def value (f : List UInt8) : ℚ :=
  let fp := (f.dropWhile (IsDigit ·)).tail
  (decVal (f.takeWhile (IsDigit ·) ++ fp) : ℚ) / (10 ^ fp.length : Nat)

theorem value_nonneg (f : List UInt8) : 0 ≤ value f := by
  rw [value]
  positivity

theorem IsNumeral.ne_nul {f : List UInt8} (h : IsNumeral f) : ∀ b ∈ f, b ≠ 0 := by
  have hdigit {b : UInt8} (hb : IsDigit b) : b ≠ 0 := by
    rintro rfl
    exact absurd hb.1 (by decide)
  rw [← List.takeWhile_append_dropWhile (p := (decide <| IsDigit ·)) (l := f)]
  intro b hb
  rcases List.mem_append.mp hb with hb | hb
  · exact hdigit (of_decide_eq_true (List.mem_takeWhile_imp (p := (decide <| IsDigit ·)) hb))
  · rcases h.2 with hnil | ⟨hdot, hfp⟩
    · rw [hnil] at hb
      cases hb
    · obtain ⟨fp, hrest⟩ := List.head?_eq_some_iff.mp hdot
      rw [hrest] at hb hfp
      rcases List.mem_cons.mp hb with rfl | hb
      · decide
      · exact hdigit (hfp b hb)

/-- A numeral is read whole. -/
theorem strtod_numeral {f : List UInt8} {c : UInt8} (h : IsNumeral f) (hc : EndsNumber c) :
    strtod (f ++ [c]) = value f := by
  obtain ⟨hip, hrest⟩ := h
  have hsplit := List.takeWhile_append_dropWhile (p := (decide <| IsDigit ·)) (l := f)
  have hdigits : ∀ b ∈ f.takeWhile (IsDigit ·), IsDigit b :=
    fun b hb => of_decide_eq_true (List.mem_takeWhile_imp (p := (decide <| IsDigit ·)) hb)
  rw [value]
  generalize f.takeWhile (IsDigit ·) = ip at *
  generalize f.dropWhile (IsDigit ·) = rest at *
  subst hsplit
  obtain ⟨d, ip, rfl⟩ := List.exists_cons_of_ne_nil hip
  obtain ⟨hd, hip⟩ := List.forall_mem_cons.mp hdigits
  rcases hrest with rfl | ⟨hdot, hfp⟩
  · rw [List.append_nil, (strtod_digits hd hip hip hc).2]
    simp
  · obtain ⟨fp, rfl⟩ := List.head?_eq_some_iff.mp hdot
    have hread := (strtod_digits hd hip hfp hc).1
    rw [List.append_assoc]
    exact hread

theorem trunc_div {a b k : Nat} (hk : 0 < k) (hb : b < k) :
    trunc (((a * k + b : Nat) : ℚ) / (k : Nat)) = a := by
  have hk' : (0 : ℚ) < k := Nat.cast_pos.mpr hk
  have hb' : (b : ℚ) < k := Nat.cast_lt.mpr hb
  have hq : ((a * k + b : Nat) : ℚ) / (k : Nat) = a + b / k := by
    push_cast
    rw [add_div, mul_div_assoc, div_self hk'.ne', mul_one]
  have hfrac : (b : ℚ) / k < 1 := (div_lt_one hk').mpr hb'
  have hnn : (0 : ℚ) ≤ (b : ℚ) / k := by positivity
  rw [hq, trunc, if_pos (by positivity), Int.floor_eq_iff]
  push_cast
  exact ⟨by linarith, by linarith⟩

theorem trunc_strtod (d₁ d₂ : UInt8) (frac : List UInt8) (c : UInt8) (h₁ : IsDigit d₁)
    (h₂ : IsDigit d₂) (hf : IsFraction frac) (hc : EndsNumber c) :
    trunc (strtod ([d₁, d₂] ++ frac ++ [c])) = decVal [d₁, d₂] := by
  have hip : ∀ b ∈ [d₂], IsDigit b := by simpa using h₂
  rcases hf with rfl | ⟨ds, rfl, -, hds⟩
  · have h := (strtod_digits h₁ hip hip hc).2
    have ht := trunc_div (a := decVal [d₁, d₂]) (b := 0) Nat.one_pos Nat.one_pos
    simp only [Nat.mul_one, Nat.add_zero, Nat.cast_one, div_one] at ht
    rw [← ht, ← h]
    rfl
  · have h := (strtod_digits h₁ hip hds hc).1
    rw [decVal_append] at h
    rw [← trunc_div (a := decVal [d₁, d₂]) (Nat.pow_pos (by decide : 0 < 10)) (decVal_lt hds), ← h]
    simp

end Decimal

/-- Exact rational arithmetic. -/
instance : CDouble ℚ where
  ofInt := Int.cast
  floor q := (⌊q⌋ : Int)
  toInt := Decimal.trunc
  toFloat := id
  strtod := Decimal.strtod
  toInt_strtod := Decimal.trunc_strtod

/-- The cast of a `double` to `int`, which is undefined where the truncated value is no `int`. -/
structure CIntCast where
  toInt : ℚ → Int
  inRange : ∀ q, -2 ^ 31 ≤ Decimal.trunc q → Decimal.trunc q < 2 ^ 31 → toInt q = Decimal.trunc q

/-- Exact rational arithmetic where the cast does something else out of range. -/
@[reducible] def CIntCast.double (cast : CIntCast) : CDouble ℚ :=
  { instCDoubleRat with
    toInt := cast.toInt
    toInt_strtod d₁ d₂ frac c h₁ h₂ hf hc := by
      have htrunc : Decimal.trunc (CDouble.strtod _) = decVal [d₁, d₂] :=
        Decimal.trunc_strtod d₁ d₂ frac c h₁ h₂ hf hc
      have hlt : decVal [d₁, d₂] < 10 ^ 2 := decVal_lt (by
        intro d hd
        rcases List.mem_pair.mp hd with rfl | rfl
        · exact h₁
        · exact h₂)
      exact (cast.inRange _ (by omega) (by omega)).trans htrunc }
