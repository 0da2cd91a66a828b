import HeadUnit.Std.Memory

/-!
# Objects whose size is known at run time only

An allocated object is the list of its elements. `slice` and `splice` are the checked accesses to a
range of it, and `move` is `memmove`. They are described for an object that is split where the range
begins and ends.
-/

namespace Mem

variable {α : Type*} {xs ys zs : List α} {i k : Nat}

/-- `k` elements from `i` on. -/
def slice (xs : List α) (i k : Nat) : Except Fault (List α) :=
  if i + k ≤ xs.length then .ok ((xs.drop i).take k) else .error (Fault.behind xs.length)

/-- Write `ys` to `xs[i], xs[i + 1], …`. -/
def splice (xs : List α) (i : Nat) (ys : List α) : Except Fault (List α) :=
  if i + ys.length ≤ xs.length then .ok (xs.take i ++ (ys ++ xs.drop (i + ys.length)))
  else .error (Fault.behind xs.length)

/-- The position `k` elements before `p`. -/
def back (p k : Nat) : Except Fault Nat := if k ≤ p then .ok (p - k) else .error (Fault.behind p)

/-- `memmove` of `k` elements from `src[j]` on to `xs[i]`. -/
def move (xs : List α) (i : Nat) (src : List α) (j k : Nat) : Except Fault (List α) := do
  splice xs i (← slice src j k)

theorem slice_append (xs ys zs : List α) :
    slice (xs ++ (ys ++ zs)) xs.length ys.length = .ok ys := by
  have hroom : xs.length + ys.length ≤ (xs ++ (ys ++ zs)).length := by
    rw [List.length_append, List.length_append]
    omega
  rw [slice, if_pos hroom, List.drop_left, List.take_left]

/-- What was behind `xs` is replaced as far as `ys` goes. -/
theorem splice_append (xs ys zs : List α) (h : ys.length ≤ zs.length) :
    splice (xs ++ zs) xs.length ys = .ok (xs ++ (ys ++ zs.drop ys.length)) := by
  have hroom : xs.length + ys.length ≤ (xs ++ zs).length := by
    rw [List.length_append]
    omega
  rw [splice, if_pos hroom, List.take_left, List.drop_append, Nat.add_sub_cancel_left,
    List.drop_eq_nil_of_le (Nat.le_add_right _ _), List.nil_append]

theorem splice_front (ys zs : List α) (h : ys.length ≤ zs.length) :
    splice zs 0 ys = .ok (ys ++ zs.drop ys.length) := splice_append [] ys zs h

theorem load_append (xs : List α) (x : α) (ys : List α) :
    load (xs ++ x :: ys) xs.length = .ok x := by
  have hlt : xs.length < (xs ++ x :: ys).length := by
    rw [List.length_append, List.length_cons]
    omega
  rw [load_eq_ok hlt, List.get_eq_getElem, List.getElem_append_right (Nat.le_refl _)]
  simp only [Nat.sub_self, List.getElem_cons_zero]

theorem back_eq_ok (p k : Nat) : back (p + k) k = .ok p := by
  rw [back, if_pos (Nat.le_add_left k p), Nat.add_sub_cancel]

/-- Moving a part of an object to its beginning. -/
theorem move_front (xs ys zs : List α) :
    move (xs ++ (ys ++ zs)) 0 (xs ++ (ys ++ zs)) xs.length ys.length =
      .ok (ys ++ (xs ++ (ys ++ zs)).drop ys.length) := by
  have hroom : ys.length ≤ (xs ++ (ys ++ zs)).length := by
    rw [List.length_append, List.length_append]
    omega
  rw [move, slice_append]
  exact splice_front ys _ hroom

/-- Moving a part of one object behind a part of another. -/
theorem move_append (front room xs ys zs : List α) (h : ys.length ≤ room.length) :
    move (front ++ room) front.length (xs ++ (ys ++ zs)) xs.length ys.length =
      .ok (front ++ (ys ++ room.drop ys.length)) := by
  rw [move, slice_append]
  exact splice_append front ys room h

end Mem
