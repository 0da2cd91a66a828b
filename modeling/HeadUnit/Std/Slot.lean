import Mathlib.Data.List.Induction

/-!
# A slot that holds the latest value

Some events of a trace put a value into a slot, replacing what it holds, and some take what it
holds. `Slot.held` is what the slot holds behind a trace; a value put is taken by the first taking
event behind it unless a later one replaces it (`Slot.exists_take`).
-/

structure Slot (α β : Type*) where
  takes : α → Bool
  puts : α → Option β

namespace Slot

variable {α β : Type*} (S : Slot α β) {xs ys : List α} {a : α} {v : β}

/-- What a slot that holds `v` holds behind one more event. -/
def next (v : Option β) (a : α) : Option β := if S.takes a then none else (S.puts a).or v

/-- What the slot holds behind a trace. -/
def held (xs : List α) : Option β := xs.foldl S.next none

@[simp] theorem held_nil : S.held [] = none := rfl

theorem held_append : S.held (xs ++ ys) = ys.foldl S.next (S.held xs) := List.foldl_append

theorem held_snoc : S.held (xs ++ [a]) = S.next (S.held xs) a := S.held_append

theorem held_snoc_of_takes (h : S.takes a = true) : S.held (xs ++ [a]) = none := by
  rw [held_snoc, next, if_pos h]

/-- Events that neither take nor put. -/
def Idle (a : α) : Prop := S.takes a = false ∧ S.puts a = none

variable {S}

/-- Behind events that do not take, the slot holds what they put last. -/
theorem held_append_of_not_takes (h : ∀ y ∈ ys, S.takes y = false) :
    S.held (xs ++ ys) = (ys.filterMap S.puts).getLast?.or (S.held xs) := by
  induction ys using List.reverseRecOn with
  | nil => rw [List.append_nil]; rfl
  | append_singleton ys y ih =>
    rw [← List.append_assoc, held_snoc, next, h y (by simp),
      ih fun z hz => h z (List.mem_append_left _ hz), List.filterMap_append, List.getLast?_append]
    cases hp : S.puts y with
    | none => simp [hp]
    | some u => simp [hp]

theorem held_append_idle (h : ∀ y ∈ ys, S.Idle y) : S.held (xs ++ ys) = S.held xs := by
  rw [held_append_of_not_takes fun y hy => (h y hy).1,
    List.filterMap_eq_nil_iff.mpr fun y hy => (h y hy).2]
  rfl

/-- Behind a put and no take the slot holds what was put last. -/
theorem held_append_put (h : S.puts a = some v) (ha : S.takes a = false)
    (hys : ∀ y ∈ ys, S.takes y = false) :
    ∃ w, S.held (xs ++ a :: ys) = some w ∧ ((∀ y ∈ ys, S.puts y = none) → w = v) := by
  rw [held_append_of_not_takes (List.forall_mem_cons.mpr ⟨ha, hys⟩), List.filterMap_cons_some h]
  refine ⟨_, by rw [List.getLast?_eq_some_getLast (List.cons_ne_nil _ _)]; rfl, ?_⟩
  intro hnone
  simp only [List.filterMap_eq_nil_iff.mpr hnone, List.getLast_singleton]

/-- A value that is put and later not held is taken: by the first taking event behind it, which
finds this value or one put later. -/
theorem exists_take (h : S.puts a = some v) (ha : S.takes a = false)
    (hnone : S.held (xs ++ a :: ys) = none) :
    ∃ between t rest w, ys = between ++ t :: rest ∧ S.takes t = true ∧
      (∀ y ∈ between, S.takes y = false) ∧ S.held (xs ++ a :: between) = some w ∧
      ((∀ y ∈ between, S.puts y = none) → w = v) := by
  cases hfind : ys.find? S.takes with
  | none =>
    have hys : ∀ y ∈ ys, S.takes y = false := by simpa using hfind
    obtain ⟨w, hw, -⟩ := held_append_put h ha hys
    cases hw.symm.trans hnone
  | some t =>
    obtain ⟨htakes, between, rest, hsplit, hbetween⟩ := List.find?_eq_some_iff_append.mp hfind
    have hquiet : ∀ y ∈ between, S.takes y = false := by simpa using hbetween
    obtain ⟨w, hw, hlast⟩ := held_append_put h ha hquiet
    exact ⟨between, t, rest, w, hsplit, htakes, hquiet, hw, hlast⟩

end Slot
