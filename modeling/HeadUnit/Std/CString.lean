import HeadUnit.Std.Memory

/-!
# Strings in memory

A C string is what stands before the first NUL of its object (`Mem.IsString`). `Mem.strlen` faults
where the object has none.
-/

namespace Mem

variable {α : Type*} {n k : Nat}

/-- Copy the first `k` elements of `src` to the beginning of `dst`. -/
def copyInto (dst : Vector α n) (src : List α) (k : Nat) : Except Fault (Vector α n) :=
  if hs : src.length < k then .error (.behind src.length)
  else if hd : n < k then .error ⟨n, n, Nat.le_refl _⟩
  else .ok ⟨(src.take k ++ dst.toList.drop k).toArray, by
    simp only [List.size_toArray, List.length_append, List.length_take, List.length_drop,
      Vector.length_toList]
    omega⟩

theorem copyInto_eq_ok (dst : Vector α n) (src : List α) (hs : k ≤ src.length) (hd : k ≤ n) :
    ∃ v, copyInto dst src k = .ok v ∧ v.toList = src.take k ++ dst.toList.drop k := by
  rw [copyInto, dif_neg (Nat.not_lt.mpr hs), dif_neg (Nat.not_lt.mpr hd)]
  exact ⟨_, rfl, rfl⟩

theorem copyInto_eq_error (dst : Vector α n) (src : List α) (h : n < k) :
    ∃ e, copyInto dst src k = .error e := by
  unfold copyInto
  by_cases hs : src.length < k
  · exact ⟨_, dif_pos hs⟩
  · rw [dif_neg hs]
    exact ⟨_, dif_pos h⟩

/-- The number of bytes before the first NUL. -/
def strlen (xs : List UInt8) : Except Fault Nat :=
  match xs.findIdx? (· = 0) with
  | some n => .ok n
  | none => .error ⟨xs.length, xs.length, Nat.le_refl _⟩

/-- The object `xs` holds the string `u`. -/
def IsString (xs u : List UInt8) : Prop := 0 ∉ u ∧ ∃ rest, xs = u ++ 0 :: rest

variable {xs u : List UInt8}

/-- A text closed by a NUL holds what stands before its first NUL. -/
theorem isString_append (line rest : List UInt8) :
    IsString (line ++ 0 :: rest) (line.takeWhile (· ≠ 0)) := by
  induction line with
  | nil => exact ⟨List.not_mem_nil, rest, rfl⟩
  | cons c line ih =>
    by_cases hc : c = 0
    · subst hc
      exact ⟨List.not_mem_nil, line ++ 0 :: rest, rfl⟩
    · obtain ⟨hnul, tail, htail⟩ := ih
      rw [List.takeWhile_cons_of_pos (by simpa using hc)]
      refine ⟨fun h0 => ?_, tail, by rw [List.cons_append, htail, List.cons_append]⟩
      rcases List.mem_cons.mp h0 with h | h
      · exact hc h.symm
      · exact hnul h

theorem IsString.strlen (h : IsString xs u) : strlen xs = .ok u.length := by
  obtain ⟨hu, rest, rfl⟩ := h
  have hnone : u.findIdx? (fun c => decide (c = 0)) = none := by
    rw [List.findIdx?_eq_none_iff]
    intro c hc
    exact decide_eq_false fun h0 => hu (h0 ▸ hc)
  have hfind : (u ++ 0 :: rest).findIdx? (fun c => decide (c = 0)) = some u.length := by
    rw [List.findIdx?_append, hnone, List.findIdx?_cons]
    simp
  rw [Mem.strlen, hfind]

theorem IsString.length_lt (h : IsString xs u) : u.length < xs.length := by
  obtain ⟨-, rest, rfl⟩ := h
  simp

theorem IsString.take (h : IsString xs u) : xs.take u.length = u := by
  obtain ⟨-, rest, rfl⟩ := h
  exact List.take_left

/-- What follows a string in its object does not change it. -/
theorem IsString.of_take (h : IsString xs u) (hk : u.length < k) (rest : List UInt8) :
    IsString (xs.take k ++ rest) u := by
  obtain ⟨hu, tail, rfl⟩ := h
  obtain ⟨j, rfl⟩ : ∃ j, k = u.length + (j + 1) := ⟨k - u.length - 1, by omega⟩
  refine ⟨hu, tail.take j ++ rest, ?_⟩
  rw [List.take_length_add_append, List.take_succ_cons, List.append_assoc, List.cons_append]

theorem IsString.drop (h : IsString xs u) (hk : k ≤ u.length) :
    IsString (xs.drop k) (u.drop k) := by
  obtain ⟨hu, tail, rfl⟩ := h
  exact ⟨fun hc => hu (List.mem_of_mem_drop hc), tail, by rw [List.drop_append_of_le_length hk]⟩

/-- A string begins with a word without NUL if and only if its object does. -/
theorem IsString.take_eq_iff (h : IsString xs u) {w : List UInt8} (hw : 0 ∉ w) :
    xs.take w.length = w ↔ w <+: u := by
  obtain ⟨-, tail, rfl⟩ := h
  constructor
  · intro ht
    have hpre : w <+: u ++ 0 :: tail := List.prefix_iff_eq_take.mpr ht.symm
    refine List.prefix_of_prefix_length_le hpre (List.prefix_append u _) ?_
    by_contra hlt
    obtain ⟨v, hv⟩ := hpre
    have hget : (w ++ v)[u.length]? = some 0 := by rw [hv]; simp
    rw [List.getElem?_append_left (Nat.lt_of_not_le hlt)] at hget
    exact hw (List.mem_of_getElem? hget)
  · intro hpre
    exact (List.prefix_iff_eq_take.mp (hpre.trans (List.prefix_append u _))).symm

end Mem
