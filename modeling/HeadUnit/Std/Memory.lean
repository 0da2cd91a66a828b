import Mathlib.Algebra.Group.Int.Defs
import Mathlib.Algebra.GroupWithZero.Nat
import Mathlib.Data.List.Basic

/-!
# Checked accesses to objects of fixed size

C leaves an access outside its object undefined. Here such an access is a `Fault`, which records
the index and why it is bad, so a function that provably returns `.ok` stays inside its objects.
-/

/-- An access at an index outside its object. -/
structure Fault where
  index : Nat
  size : Nat
  outside : size ≤ index

/-- The access right behind an object of `n` elements. -/
def Fault.behind (n : Nat) : Fault := ⟨n, n, Nat.le_refl n⟩

namespace Except

universe u v

variable {ε : Type u} {α β : Type v} {x : Except ε α} {f : α → Except ε β} {b : β}

theorem ok_bind (a : α) (f : α → Except ε β) : (Except.ok a >>= f) = f a := rfl

/-- A sequence succeeds where its first part does and the rest behind it. -/
theorem bind_eq_ok_iff : (x >>= f) = .ok b ↔ ∃ a, x = .ok a ∧ f a = .ok b := by
  cases x with
  | error e => exact iff_of_false nofun nofun
  | ok a =>
    constructor
    · exact fun h => ⟨a, rfl, h⟩
    · rintro ⟨_, ⟨⟩, h⟩
      exact h

end Except

namespace Mem

variable {α β : Type*} {n : Nat}

/-- Read `xs[i]`. -/
def load (xs : List α) (i : Nat) : Except Fault α :=
  if h : i < xs.length then .ok (xs.get ⟨i, h⟩) else .error ⟨i, xs.length, Nat.le_of_not_lt h⟩

/-- Write `v[i]`. -/
def store (v : Vector α n) (i : Nat) (x : α) : Except Fault (Vector α n) :=
  if h : i < n then .ok (v.set i x h) else .error ⟨i, n, Nat.le_of_not_lt h⟩

/-- Copy the first `k` elements of `src` to a place with room for `room` elements. -/
def memcpy (room : Nat) (src : List α) (k : Nat) : Except Fault (List α) :=
  if src.length < k then .error ⟨src.length, src.length, Nat.le_refl _⟩
  else if room < k then .error ⟨room, room, Nat.le_refl _⟩
  else .ok (src.take k)

/-- Write `xs` to `v[i], v[i + 1], …`. -/
def blit (v : Vector α n) (i : Nat) (xs : List α) : Except Fault (Vector α n) :=
  if h : i + xs.length ≤ n then
    .ok ⟨(v.toList.take i ++ (xs ++ v.toList.drop (i + xs.length))).toArray, by
      simp only [List.size_toArray, List.length_append, List.length_take, List.length_drop,
        Vector.length_toList]
      omega⟩
  else .error ⟨n, n, Nat.le_refl _⟩

theorem load_eq_ok {xs : List α} {i : Nat} (h : i < xs.length) :
    load xs i = .ok (xs.get ⟨i, h⟩) := dif_pos h

theorem store_eq_ok {v : Vector α n} {i : Nat} (h : i < n) (x : α) :
    store v i x = .ok (v.set i x h) := dif_pos h

theorem memcpy_eq_ok {src : List α} {room k : Nat} (h : k ≤ src.length) (hr : k ≤ room) :
    memcpy room src k = .ok (src.take k) := by
  rw [memcpy, if_neg (Nat.not_lt.mpr h), if_neg (Nat.not_lt.mpr hr)]

/-- What stands where after a `blit`. -/
theorem blit_eq_ok (v : Vector α n) {i : Nat} (xs : List α) (h : i + xs.length ≤ n) :
    ∃ w, blit v i xs = .ok w ∧ ∀ j, w.toList[j]? =
      if i ≤ j ∧ j < i + xs.length then xs[j - i]? else v.toList[j]? := by
  refine ⟨_, dif_pos h, fun j => ?_⟩
  have hlen : (v.toList.take i).length = i := by
    rw [List.length_take, Vector.length_toList]
    omega
  show (v.toList.take i ++ (xs ++ v.toList.drop (i + xs.length)))[j]? = _
  split
  case isTrue hj =>
    rw [List.getElem?_append_right (hlen.symm ▸ hj.1), hlen, List.getElem?_append_left (by omega)]
  case isFalse hj =>
    rcases Nat.lt_or_ge j i with hlt | hge
    · rw [List.getElem?_append_left (hlen.symm ▸ hlt), List.getElem?_take_of_lt hlt]
    · have hge' : xs.length ≤ j - i := by omega
      rw [List.getElem?_append_right (hlen.symm ▸ hge), hlen, List.getElem?_append_right hge',
        List.getElem?_drop]
      congr 1
      omega

/-- Copying `k` elements from `i` on to the beginning. -/
theorem copyFront_eq_ok (v : Vector α n) (i : Nat) {k : Nat} (room : Nat) (h : i + k ≤ n)
    (hr : k ≤ room) :
    ∃ xs w, memcpy room (v.toList.drop i) k = .ok xs ∧ blit v 0 xs = .ok w ∧
      ∀ j, w.toList[j]? = if j < k then v.toList[i + j]? else v.toList[j]? := by
  have hlen : k ≤ (v.toList.drop i).length := by
    rw [List.length_drop, Vector.length_toList]
    omega
  have htake : ((v.toList.drop i).take k).length = k := List.length_take_of_le hlen
  obtain ⟨w, hw, hread⟩ := blit_eq_ok v (i := 0) ((v.toList.drop i).take k) (by omega)
  refine ⟨_, w, memcpy_eq_ok hlen hr, hw, fun j => ?_⟩
  rw [hread, htake]
  split
  case isTrue hj =>
    rw [if_pos (by omega), Nat.sub_zero, List.getElem?_take_of_lt (by omega), List.getElem?_drop]
  case isFalse hj => rw [if_neg (by omega)]

/-- Writing the element behind the first `i` extends them. -/
theorem take_succ_set {xs : List α} {i : Nat} (x : α) (h : i < xs.length) :
    (xs.set i x).take (i + 1) = xs.take i ++ [x] := by
  rw [List.take_add_one, List.take_set_of_le (Nat.le_refl i), List.getElem?_set_self h]
  rfl

/-- Fold `f` over `xs[i], …, xs[i + k - 1]`, as a counting loop does. -/
def foldRange (f : β → α → β) (xs : List α) : Nat → Nat → β → Except Fault β
  | _, 0, b => .ok b
  | i, k + 1, b =>
    match load xs i with
    | .error e => .error e
    | .ok x => foldRange f xs (i + 1) k (f b x)

theorem foldRange_eq_ok {f : β → α → β} {xs : List α} {i k : Nat} {b : β}
    (h : i + k ≤ xs.length) :
    foldRange f xs i k b = .ok (((xs.drop i).take k).foldl f b) := by
  induction k generalizing i b with
  | zero => simp [foldRange]
  | succ k ih =>
    have hi : i < xs.length := by omega
    simp only [foldRange, load_eq_ok hi]
    rw [ih (by omega), List.drop_eq_getElem_cons hi]
    rfl

end Mem
