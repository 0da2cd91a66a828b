import HeadUnit.Std.Memory

/-!
# Results with a condition on either end

A function that may stop early has a condition for what it returns and one for how it stops.
`Except.Meets` states both, and the rules take a sequence apart.
-/

namespace Except

variable {ε α : Type*} {x : Except ε α} {P Q : α → Prop} {E F : ε → Prop}

/-- What is returned is in `P`, and what stops early stops in `E`. -/
def Meets (x : Except ε α) (P : α → Prop) (E : ε → Prop) : Prop :=
  match x with
  | .ok a => P a
  | .error e => E e

@[simp] theorem meets_ok {a : α} : (Except.ok a : Except ε α).Meets P E ↔ P a := Iff.rfl

@[simp] theorem meets_error {e : ε} : (Except.error e : Except ε α).Meets P E ↔ E e := Iff.rfl

/-- What is returned, seen from outside. -/
theorem exists_of_toOption {β : Type*} {f : α → β} {b : β} (h : x.toOption.map f = some b) :
    ∃ a, x = .ok a ∧ f a = b := by
  cases x with
  | ok a => exact ⟨a, rfl, Option.some.inj h⟩
  | error e => cases h

namespace Meets

theorem mono (h : x.Meets P E) (hP : ∀ a, P a → Q a) (hE : ∀ e, E e → F e) : x.Meets Q F := by
  cases x with
  | ok a => exact hP a h
  | error e => exact hE e h

theorem of_ok {a : α} (h : x.Meets P E) (hx : x = .ok a) : P a := by
  subst hx
  exact h

end Meets

universe u v

/-- The rule of sequences. -/
theorem Meets.bind {ε : Type u} {α β : Type v} {x : Except ε α} {f : α → Except ε β} {P : α → Prop}
    {Q : β → Prop} {E : ε → Prop} (h : x.Meets P E) (hf : ∀ a, P a → (f a).Meets Q E) :
    (x >>= f).Meets Q E := by
  cases x with
  | ok a => exact hf a h
  | error e => exact h

end Except
