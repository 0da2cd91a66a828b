import Mathlib.Data.List.Basic

/-!
# XOR of a byte string

A checksum by XOR sees a change of the string only through the XOR of the differences.
-/

/-- The XOR of all bytes. -/
def xorSum : List UInt8 → UInt8
  | [] => 0
  | b :: bs => b ^^^ xorSum bs

@[simp] theorem xorSum_nil : xorSum [] = 0 := rfl
@[simp] theorem xorSum_cons (b : UInt8) (bs : List UInt8) :
    xorSum (b :: bs) = b ^^^ xorSum bs := rfl

/-- A loop that folds bytes into `a` computes their XOR on top of `a`. -/
theorem foldl_xor (a : UInt8) (bs : List UInt8) : bs.foldl (· ^^^ ·) a = a ^^^ xorSum bs := by
  induction bs generalizing a with
  | nil => simp
  | cons b bs ih => rw [List.foldl_cons, ih, xorSum_cons, UInt8.xor_assoc]

theorem xorSum_append (v w : List UInt8) : xorSum (v ++ w) = xorSum v ^^^ xorSum w := by
  induction v with
  | nil => simp
  | cons a v ih => rw [List.cons_append, xorSum_cons, ih, xorSum_cons, UInt8.xor_assoc]

/-- The bytewise differences of two strings. -/
def xorDiff (v w : List UInt8) : List UInt8 := List.zipWith (· ^^^ ·) v w

theorem xorDiff_self (v : List UInt8) : xorSum (xorDiff v v) = 0 := by
  induction v with
  | nil => rfl
  | cons a v ih =>
    show (a ^^^ a) ^^^ xorSum (xorDiff v v) = 0
    rw [ih, UInt8.xor_self, UInt8.xor_self]

theorem xorSum_xorDiff {v w : List UInt8} (h : v.length = w.length) :
    xorSum (xorDiff v w) = xorSum v ^^^ xorSum w := by
  induction v generalizing w with
  | nil => rw [List.eq_nil_of_length_eq_zero h.symm]; rfl
  | cons a v ih =>
    obtain _ | ⟨b, w⟩ := w
    · cases h
    · show (a ^^^ b) ^^^ xorSum (xorDiff v w) = _
      rw [ih (Nat.succ.inj h), xorSum_cons, xorSum_cons]
      ac_rfl

/-- Changing one byte changes the XOR by the difference of that byte. -/
theorem xorSum_xorDiff_set {v : List UInt8} {i : Nat} (h : i < v.length) (b : UInt8) :
    xorSum (xorDiff v (v.set i b)) = v[i] ^^^ b := by
  induction v generalizing i with
  | nil => exact absurd h (Nat.not_lt_zero _)
  | cons a v ih =>
    cases i with
    | zero =>
      show (a ^^^ b) ^^^ xorSum (xorDiff v v) = a ^^^ b
      rw [xorDiff_self, UInt8.xor_zero]
    | succ i =>
      have hi : i < v.length := Nat.lt_of_succ_lt_succ h
      show (a ^^^ a) ^^^ xorSum (xorDiff v (v.set i b)) = v[i] ^^^ b
      rw [UInt8.xor_self, UInt8.zero_xor, ih hi]
