import HeadUnit.Std.CString
import Mathlib.Data.List.Infix
import Mathlib.Data.List.TakeWhile

/-!
# Searching and appending strings

A pointer into an object is what the object holds from there on, and NULL points at nothing.
`strstr` and `strncat` fault where they run off the object. A search gets past a separator that the
text searched for does not have (`strstr_skip`).
-/

namespace List

variable {α : Type*} {u v w : List α} {sep : α}

/-- A word without the separator that is at the beginning is in front of the separator. -/
theorem IsPrefix.of_append_cons (hsep : sep ∉ w) (h : w <+: u ++ sep :: v) : w <+: u := by
  induction u generalizing w with
  | nil =>
    cases w with
    | nil => exact nil_prefix
    | cons c w => exact absurd ((cons_prefix_cons.mp h).1 ▸ mem_cons_self) hsep
  | cons c u ih =>
    cases w with
    | nil => exact nil_prefix
    | cons d w =>
      obtain ⟨rfl, htail⟩ := cons_prefix_cons.mp h
      exact cons_prefix_cons.mpr ⟨rfl, ih (fun hm => hsep (mem_cons_of_mem _ hm)) htail⟩

/-- A word without the separator is on one of its sides. -/
theorem IsInfix.of_append_cons (hsep : sep ∉ w) (h : w <:+: u ++ sep :: v) :
    w <:+: u ∨ w <:+: v := by
  induction u with
  | nil =>
    rcases infix_cons_iff.mp h with h | h
    · exact .inl (IsPrefix.of_append_cons (u := []) hsep h).isInfix
    · exact .inr h
  | cons c u ih =>
    rcases infix_cons_iff.mp h with h | h
    · exact .inl (IsPrefix.of_append_cons (u := c :: u) hsep h).isInfix
    · exact (ih h).imp_left fun h => infix_cons h

end List

namespace Mem

/-- The first occurrence of `needle`, a text without NUL, in the string at `hay`; `none` for NULL. -/
def strstr (needle : List UInt8) : (hay : List UInt8) → Except Fault (Option (List UInt8))
  | [] => .error ⟨0, 0, Nat.le_refl _⟩
  | c :: hay =>
    if needle <+: c :: hay then .ok (some (c :: hay))
    else if c = 0 then .ok none
    else strstr needle hay

/-- The string in an array of `room` bytes, with `s` behind it. -/
def strcat (room : Nat) (dst s : List UInt8) : Except Fault (List UInt8) :=
  if room ≤ dst.length + s.length then .error ⟨room, room, Nat.le_refl _⟩ else .ok (dst ++ s)

/-- The string in an array of `room` bytes, with up to `n` bytes of the string at `src` behind it. -/
def strncat (room : Nat) (dst src : List UInt8) (n : Nat) : Except Fault (List UInt8) :=
  let s := (src.take n).takeWhile (· ≠ 0)
  if s.length < n ∧ s.length = src.length then .error (.behind src.length)
  else strcat room dst s

variable {needle hay u dst src out : List UInt8} {sep : UInt8} {room n : Nat}

theorem strstr_prefix (hne : needle ≠ []) (h : needle <+: hay) :
    strstr needle hay = .ok (some hay) := by
  cases hay with
  | nil => exact absurd (List.prefix_nil.mp h) hne
  | cons c hay => rw [strstr, if_pos h]

/-- What is passed over. -/
theorem strstr_cons {c : UInt8} (h : ¬needle <+: c :: hay) (hc : c ≠ 0) :
    strstr needle (c :: hay) = strstr needle hay := by
  rw [strstr, if_neg h, if_neg hc]

theorem strstr_skip (hne : needle ≠ []) (hsep : sep ∉ needle) (hsep0 : sep ≠ 0) (hu : 0 ∉ u)
    (h : ¬needle <:+: u) : strstr needle (u ++ sep :: hay) = strstr needle hay := by
  induction u with
  | nil =>
    refine strstr_cons (fun hpre => ?_) hsep0
    exact hne (List.prefix_nil.mp (hpre.of_append_cons (u := []) hsep))
  | cons c u ih =>
    have hpre : ¬needle <+: c :: (u ++ sep :: hay) := fun hpre =>
      h (List.IsPrefix.of_append_cons (u := c :: u) hsep hpre).isInfix
    rw [List.cons_append, strstr_cons hpre fun hc => hu (hc ▸ List.mem_cons_self)]
    exact ih (fun hm => hu (List.mem_cons_of_mem c hm)) fun hin => h (List.infix_cons hin)

theorem strstr_absent (hne : needle ≠ []) (h0 : 0 ∉ needle) (hu : 0 ∉ u) (h : ¬needle <:+: u) :
    strstr needle (u ++ 0 :: hay) = .ok none := by
  induction u with
  | nil =>
    have hpre : ¬needle <+: 0 :: hay := fun hpre =>
      hne (List.prefix_nil.mp (hpre.of_append_cons (u := []) h0))
    rw [List.nil_append, strstr, if_neg hpre, if_pos rfl]
  | cons c u ih =>
    have hpre : ¬needle <+: c :: (u ++ 0 :: hay) := fun hpre =>
      h (List.IsPrefix.of_append_cons (u := c :: u) h0 hpre).isInfix
    rw [List.cons_append, strstr_cons hpre fun hc => hu (hc ▸ List.mem_cons_self)]
    exact ih (fun hm => hu (List.mem_cons_of_mem c hm)) fun hin => h (List.infix_cons hin)

/-- What is found is the rest of the string from some place on. -/
theorem strstr_present (hu : 0 ∉ u) (h : needle <:+: u) (hne : needle ≠ []) :
    ∃ v, 0 ∉ v ∧ strstr needle (u ++ 0 :: hay) = .ok (some (v ++ 0 :: hay)) := by
  induction u with
  | nil => exact absurd (List.infix_nil.mp h) hne
  | cons c u ih =>
    by_cases hpre : needle <+: c :: (u ++ 0 :: hay)
    · exact ⟨c :: u, hu, strstr_prefix hne hpre⟩
    · have htail : needle <:+: u := by
        rcases List.infix_cons_iff.mp h with h | h
        · exact absurd (h.trans (List.prefix_append (c :: u) (0 :: hay))) hpre
        · exact h
      rw [List.cons_append, strstr_cons hpre fun hc => hu (hc ▸ List.mem_cons_self)]
      exact ih (fun hm => hu (List.mem_cons_of_mem c hm)) htail

theorem strcat_eq_ok {s : List UInt8} (h : dst.length + s.length < room) :
    strcat room dst s = .ok (dst ++ s) := if_neg (Nat.not_le.mpr h)

theorem strcat_ok {s : List UInt8} (h : strcat room dst s = .ok out) : out = dst ++ s := by
  rw [strcat] at h
  split at h
  · cases h
  · cases h
    rfl

/-- A source that has enough bytes. -/
theorem strncat_eq_ok {s : List UInt8} (hs : (src.take n).takeWhile (· ≠ 0) = s)
    (hsrc : n ≤ src.length) (hroom : dst.length + n < room) :
    strncat room dst src n = .ok (dst ++ s) := by
  have hle : s.length ≤ n := by
    rw [← hs]
    exact Nat.le_trans (List.takeWhile_prefix _).length_le (List.length_take_le _ _)
  rw [strncat, hs, if_neg (by omega)]
  exact strcat_eq_ok (by omega)

theorem strncat_ok (h : strncat room dst src n = .ok out) :
    ∃ s, out = dst ++ s ∧ s.length ≤ n ∧ 0 ∉ s := by
  rw [strncat] at h
  split at h
  · cases h
  · refine ⟨_, strcat_ok h, ?_, fun h0 => ?_⟩
    · exact Nat.le_trans (List.takeWhile_prefix _).length_le (List.length_take_le _ _)
    · simpa using List.mem_takeWhile_imp h0

end Mem
