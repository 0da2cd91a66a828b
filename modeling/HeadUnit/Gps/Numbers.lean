import HeadUnit.Gps.Fields

/-!
# Numbers that do not fit

`str2int` on a text of any length that stands anywhere in memory: digits are read modulo 2^32, and
what does not fit an `int` fails only where its remainder is that of -1.
-/

namespace HeadUnit.Gps

/-- The value of a digit string that fits, and -1 for anything else. -/
def ExactOrFails (f : List UInt8) (result : Int) : Prop :=
  result = if f ≠ [] ∧ (∀ d ∈ f, IsDigit d) ∧ decVal f < 2 ^ 31 then (decVal f : Int) else -1

theorem wrap32_eq_neg_one_iff (n : Nat) : wrap32 n = -1 ↔ n % 2 ^ 32 = 2 ^ 32 - 1 := by
  rw [wrap32, Int.bmod_def]
  omega

/-- Where the rule holds: for all but the digit strings that do not fit, and of these for those
that are read as -1. -/
theorem str2int_iff (before f after : List UInt8) :
    ExactOrFails f (str2int (before ++ f ++ after) before.length (before.length + f.length)) ↔
      (f ≠ [] → (∀ d ∈ f, IsDigit d) → 2 ^ 31 ≤ decVal f → decVal f % 2 ^ 32 = 2 ^ 32 - 1) := by
  have hslice : slice (before ++ f ++ after) before.length (before.length + f.length) = f := by
    rw [slice, List.append_assoc, List.drop_left, Nat.add_sub_cancel_left, List.take_left]
  have hread : str2int (before ++ f ++ after) before.length (before.length + f.length) =
      readInt f := by
    rw [str2int_eq (Nat.le_add_right _ _) (by simp), hslice]
  rw [hread, ExactOrFails]
  by_cases hne : f = []
  · rw [if_neg fun h => h.1 hne, readInt, if_pos hne]
    exact iff_of_true rfl fun h => absurd hne h
  by_cases hf : ∀ d ∈ f, IsDigit d
  · rw [forall_prop_of_true hne, forall_prop_of_true hf, readInt_wrap hne hf]
    by_cases hlt : decVal f < 2 ^ 31
    · rw [if_pos ⟨hne, hf, hlt⟩, wrap32_eq (by omega) (by omega)]
      exact iff_of_true rfl fun h => absurd h (Nat.not_le.mpr hlt)
    · rw [if_neg fun h => hlt h.2.2, forall_prop_of_true (Nat.not_lt.mp hlt)]
      exact wrap32_eq_neg_one_iff (decVal f)
  · obtain ⟨d, hd, hnot⟩ : ∃ d ∈ f, ¬IsDigit d := by simpa using hf
    rw [if_neg fun h => hf h.2.1, readInt_nondigit hd hnot]
    exact iff_of_true rfl fun _ h => absurd h hf

/-- 2^32 + 7 is read as the number of a satellite. -/
theorem not_exactOrFails_wrapped :
    ¬ExactOrFails (ascii ['4', '2', '9', '4', '9', '6', '7', '3', '0', '3'])
      (str2int ([] ++ ascii ['4', '2', '9', '4', '9', '6', '7', '3', '0', '3'] ++ [0x2C]) 0
        (0 + 10)) := by
  have hread : str2int ([] ++ ascii ['4', '2', '9', '4', '9', '6', '7', '3', '0', '3'] ++ [0x2C]) 0
      (0 + 10) = 7 := by decide +kernel
  rw [hread, ExactOrFails, if_neg (by decide +kernel)]
  decide

end HeadUnit.Gps
