import HeadUnit.Std.Memory

/-!
# Memory blocks

An object on the heap or a mapped device as its size and its bytes. `Block.Paints` says what a
function writes: certain bytes on a set of addresses, and nothing anywhere else.
-/

structure Block where
  size : Nat
  byte : Nat → UInt8

namespace Block

/-- NULL: no byte can be accessed. -/
def null : Block := ⟨0, fun _ => 0⟩

/-- The `len` bytes at `off`. -/
def view (b : Block) (off len : Nat) : List UInt8 := (List.range len).map fun i => b.byte (off + i)

/-- The block with `bs` at `off`. -/
def put (b : Block) (off : Nat) (bs : List UInt8) : Block :=
  { b with byte := fun a => if off ≤ a ∧ a < off + bs.length then bs.getD (a - off) 0 else b.byte a }

/-- Write `bs` at `off`. -/
def write (b : Block) (off : Nat) (bs : List UInt8) : Except Fault Block :=
  if off + bs.length ≤ b.size then .ok (b.put off bs) else .error ⟨b.size, b.size, Nat.le_refl _⟩

variable {b b' b'' : Block} {off len : Nat} {bs : List UInt8}

@[simp] theorem put_size : (b.put off bs).size = b.size := rfl

@[simp] theorem view_length : (b.view off len).length = len := by simp [view]

theorem write_eq_ok (h : off + bs.length ≤ b.size) : b.write off bs = .ok (b.put off bs) := if_pos h

theorem view_getElem? (i : Nat) :
    (b.view off len)[i]? = if i < len then some (b.byte (off + i)) else none := by
  rw [view, List.getElem?_map]
  split
  case isTrue h => rw [List.getElem?_range h, Option.map_some]
  case isFalse h => rw [List.getElem?_eq_none (by simpa using h), Option.map_none]

/-- Writing behind what is seen extends it. -/
theorem view_put_append : (b.put off bs).view 0 (off + bs.length) = b.view 0 off ++ bs := by
  refine List.ext_getElem? fun i => ?_
  rw [view_getElem?, put]
  dsimp only
  rcases Nat.lt_or_ge i off with hlt | hge
  · rw [List.getElem?_append_left (by simpa using hlt), view_getElem?, if_pos (by omega), if_pos hlt,
      if_neg (by omega)]
  · rw [List.getElem?_append_right (by simpa using hge), view_length, Nat.zero_add]
    split
    case isTrue hi =>
      rw [if_pos ⟨hge, hi⟩, List.getD_eq_getElem?_getD]
      have : i - off < bs.length := by omega
      simp [this]
    case isFalse hi => rw [List.getElem?_eq_none (by omega)]

/-! ## What is written -/

/-- `b'` is `b` with the bytes given by `f` on the addresses `R`. -/
structure Paints (R : Nat → Prop) (f : Nat → UInt8) (b b' : Block) : Prop where
  size_eq : b'.size = b.size
  inside : ∀ a, R a → b'.byte a = f a
  outside : ∀ a, ¬R a → b'.byte a = b.byte a

namespace Paints

variable {R S : Nat → Prop} {f : Nat → UInt8}

theorem refl (hR : ∀ a, ¬R a) : Paints R f b b := ⟨rfl, fun a ha => absurd ha (hR a), fun _ _ => rfl⟩

theorem trans (h : Paints R f b b') (h' : Paints S f b' b'') :
    Paints (fun a => R a ∨ S a) f b b'' where
  size_eq := h'.size_eq.trans h.size_eq
  inside a ha := by
    by_cases hS : S a
    · exact h'.inside a hS
    · rw [h'.outside a hS]
      exact h.inside a (ha.resolve_right hS)
  outside a ha := by
    rw [not_or] at ha
    exact (h'.outside a ha.2).trans (h.outside a ha.1)

theorem congr (h : Paints R f b b') (hRS : ∀ a, R a ↔ S a) : Paints S f b b' where
  size_eq := h.size_eq
  inside a ha := h.inside a ((hRS a).mpr ha)
  outside a ha := h.outside a (mt (hRS a).mp ha)

theorem put (hf : ∀ i, i < bs.length → bs.getD i 0 = f (off + i)) :
    Paints (fun a => off ≤ a ∧ a < off + bs.length) f b (b.put off bs) where
  size_eq := rfl
  inside a ha := by
    rw [Block.put]
    dsimp only
    rw [if_pos ha, hf (a - off) (by omega), Nat.add_sub_cancel' ha.1]
  outside a ha := if_neg ha

end Paints

end Block
