import HeadUnit.Std.Machine

/-!
# Terminated lines and a reader with a bounded buffer

`terminated nl xs` are the lines of `xs` that are closed by `nl`. `boundedReader` collects them in a
buffer of `cap` elements: the element that finds the buffer full starts a discarding mode without
being looked at, and the mode ends behind the next terminator. So a line with one element too many
takes the line behind it along (`Spared` says when this does no harm).
-/

namespace Lines

variable {α : Type*} [DecidableEq α]

/-- The terminated lines of `xs`, each with its terminator. -/
def terminated (nl : α) (xs : List α) : List (List α) :=
  (xs.splitOn nl).dropLast.map (· ++ [nl])

theorem terminated_of_not_mem {nl : α} {w : List α} (h : nl ∉ w) : terminated nl w = [] := by
  simp [terminated, List.splitOn_eq_singleton h]

theorem terminated_append {nl : α} {w : List α} (h : nl ∉ w) (xs : List α) :
    terminated nl (w ++ nl :: xs) = (w ++ [nl]) :: terminated nl xs := by
  rw [terminated, List.splitOn_append_cons_self_of_not_mem h,
    List.dropLast_cons_of_ne_nil (by simp), List.map_cons, terminated]

/-- A list is an unterminated line, or a line, its terminator and a list. -/
theorem induction (nl : α) {P : List α → Prop} (unterminated : ∀ w, nl ∉ w → P w)
    (line : ∀ w xs, nl ∉ w → P xs → P (w ++ nl :: xs)) (xs : List α) : P xs := by
  suffices h : ∀ w, nl ∉ w → P (w ++ xs) from h [] (List.not_mem_nil)
  induction xs with
  | nil =>
    intro w hw
    rw [List.append_nil]
    exact unterminated w hw
  | cons c xs ih =>
    intro w hw
    by_cases hc : c = nl
    · subst hc
      exact line w xs hw (ih [] List.not_mem_nil)
    · rw [List.append_cons]
      apply ih
      rintro h
      rcases List.mem_append.mp h with h | h
      · exact hw h
      · exact hc (List.mem_singleton.mp h).symm

/-- Separated pieces are as long as the whole, with one separator between two of them. -/
theorem length_splitOn (nl : α) (xs : List α) :
    (xs.splitOn nl).flatten.length + (xs.splitOn nl).length = xs.length + 1 := by
  induction xs using induction nl with
  | unterminated w hw => rw [List.splitOn_eq_singleton hw, List.flatten_singleton]; rfl
  | line w xs hw ih =>
    rw [List.splitOn_append_cons_self_of_not_mem hw, List.flatten_cons, List.length_append,
      List.length_cons, List.length_append, List.length_cons]
    omega

/-! ## The bounded reader -/

inductive State (α : Type*) where
  | collecting (w : List α)
  | discarding

def step (nl : α) (cap : Nat) : State α → α → State α × List (List α)
  | .discarding, c => (if c = nl then .collecting [] else .discarding, [])
  | .collecting w, c =>
    if cap ≤ w.length then (.discarding, [])
    else if c = nl then (.collecting [], [w ++ [c]])
    else (.collecting (w ++ [c]), [])

/-- Emits the lines it hands over. -/
def boundedReader (nl : α) (cap : Nat) : Transducer (State α) α (List α) := ⟨step nl cap⟩

section Run

variable {nl : α} (cap : Nat) {w : List α}

theorem discard (h : nl ∉ w) :
    (boundedReader nl cap).final .discarding w = .discarding ∧
      (boundedReader nl cap).out .discarding w = [] := by
  induction w with
  | nil => exact ⟨rfl, rfl⟩
  | cons c w ih =>
    have hc : c ≠ nl := fun hc => h (hc ▸ List.mem_cons_self)
    have hw : nl ∉ w := fun hw => h (List.mem_cons_of_mem _ hw)
    have hstep : (boundedReader nl cap).step .discarding c = (.discarding, []) := by
      show step nl cap .discarding c = _
      rw [step, if_neg hc]
    rw [Transducer.final_cons, Transducer.out_cons, hstep]
    exact ih hw

theorem discard_line (h : nl ∉ w) :
    (boundedReader nl cap).final .discarding (w ++ [nl]) = .collecting [] ∧
      (boundedReader nl cap).out .discarding (w ++ [nl]) = [] := by
  obtain ⟨hfin, hout⟩ := discard cap h
  rw [Transducer.final_snoc, Transducer.out_snoc, hfin, hout]
  exact ⟨if_pos rfl, rfl⟩

/-- Behind what fits, the buffer holds it; behind more, the reader discards. -/
theorem collect (h : nl ∉ w) :
    (boundedReader nl cap).final (.collecting []) w =
        (if w.length ≤ cap then .collecting w else .discarding) ∧
      (boundedReader nl cap).out (.collecting []) w = [] := by
  induction w using List.reverseRecOn with
  | nil => exact ⟨rfl, rfl⟩
  | append_singleton w c ih =>
    have hw : nl ∉ w := fun hm => h (List.mem_append_left _ hm)
    have hc : c ≠ nl := fun hc => h (by simp [hc])
    obtain ⟨hfin, hout⟩ := ih hw
    rw [Transducer.final_snoc, Transducer.out_snoc, hfin, hout, List.nil_append,
      List.length_append, List.length_singleton]
    by_cases hle : w.length ≤ cap
    · rw [if_pos hle]
      show (step nl cap (.collecting w) c).1 = _ ∧ (step nl cap (.collecting w) c).2 = _
      by_cases hfull : cap ≤ w.length
      · rw [if_neg (by omega), step, if_pos hfull]
        exact ⟨rfl, rfl⟩
      · rw [if_pos (by omega), step, if_neg hfull, if_neg hc]
        exact ⟨rfl, rfl⟩
    · rw [if_neg hle, if_neg (by omega)]
      show (step nl cap .discarding c).1 = _ ∧ (step nl cap .discarding c).2 = _
      rw [step, if_neg hc]
      exact ⟨rfl, rfl⟩

/-- The three fates of a line: handed over, discarded with the line behind it, discarded. -/
theorem collect_line (h : nl ∉ w) :
    (boundedReader nl cap).final (.collecting []) (w ++ [nl]) =
        (if w.length = cap then .discarding else .collecting []) ∧
      (boundedReader nl cap).out (.collecting []) (w ++ [nl]) =
        (if w.length < cap then [w ++ [nl]] else []) := by
  obtain ⟨hfin, hout⟩ := collect cap h
  rw [Transducer.final_snoc, Transducer.out_snoc, hfin, hout, List.nil_append]
  rcases Nat.lt_trichotomy w.length cap with hlt | heq | hgt
  · rw [if_pos (by omega), if_neg (by omega), if_pos hlt]
    show (step nl cap (.collecting w) nl).1 = _ ∧ (step nl cap (.collecting w) nl).2 = _
    rw [step, if_neg (by omega), if_pos rfl]
    exact ⟨rfl, rfl⟩
  · rw [if_pos (by omega), if_pos heq, if_neg (by omega)]
    show (step nl cap (.collecting w) nl).1 = _ ∧ (step nl cap (.collecting w) nl).2 = _
    rw [step, if_pos (by omega)]
    exact ⟨rfl, rfl⟩
  · rw [if_neg (by omega), if_neg (by omega), if_neg (by omega)]
    exact ⟨if_pos rfl, rfl⟩

end Run

/-! ## What is handed over -/

/-- The state in front of a line. -/
def State.atLine (skip : Bool) : State α := if skip then .discarding else .collecting []

/-- The lines handed over of a sequence of lines; `skip` discards the first of them. -/
def handedOver (cap : Nat) : (skip : Bool) → List (List α) → List (List α)
  | _, [] => []
  | true, _ :: ls => handedOver cap false ls
  | false, l :: ls =>
    (if l.length ≤ cap then [l] else []) ++ handedOver cap (l.length = cap + 1) ls

theorem out_eq (nl : α) (cap : Nat) (skip : Bool) (xs : List α) :
    (boundedReader nl cap).out (.atLine skip) xs = handedOver cap skip (terminated nl xs) := by
  induction xs using induction nl generalizing skip with
  | unterminated w hw =>
    rw [terminated_of_not_mem hw, handedOver]
    cases skip
    · exact (collect cap hw).2
    · exact (discard cap hw).2
  | line w xs hw ih =>
    rw [List.append_cons, Transducer.out_append, ← List.append_cons, terminated_append hw]
    cases skip with
    | true =>
      obtain ⟨hfin, hout⟩ := discard_line cap hw
      exact (congrArg₂ _ hout (congrArg (Transducer.out _ · xs) hfin)).trans (ih false)
    | false =>
      obtain ⟨hfin, hout⟩ := collect_line cap hw
      have hstate : (boundedReader nl cap).final (.collecting []) (w ++ [nl]) =
          .atLine (decide (w.length = cap)) := by
        rw [hfin, State.atLine]
        simp only [decide_eq_true_eq]
      show (boundedReader nl cap).out (.collecting []) _ ++ _ = _
      rw [hout]
      show _ ++ (boundedReader nl cap).out ((boundedReader nl cap).final (.collecting []) _) xs = _
      rw [hstate, ih, handedOver, List.length_append, List.length_singleton]
      simp only [Nat.succ_le_iff, Nat.add_right_cancel_iff]

/-- No line that fits is behind a line with one element too many, unless that one is itself
discarded with the line before it. -/
def Spared (cap : Nat) : List (List α) → Prop
  | l :: m :: ls =>
    if l.length = cap + 1 then cap < m.length ∧ Spared cap ls else Spared cap (m :: ls)
  | _ => True

omit [DecidableEq α]

theorem handedOver_sublist (cap : Nat) (skip : Bool) (ls : List (List α)) :
    (handedOver cap skip ls).Sublist (ls.filter (·.length ≤ cap)) := by
  induction ls generalizing skip with
  | nil => exact .slnil
  | cons l ls ih =>
    rw [List.filter_cons]
    cases skip with
    | true =>
      split
      · exact (ih false).cons l
      · exact ih false
    | false =>
      rw [handedOver]
      by_cases h : l.length ≤ cap
      · rw [if_pos h, if_pos (by simpa using h)]
        exact (ih _).cons_cons l
      · rw [if_neg h, if_neg (by simpa using h)]
        exact ih _

/-- Exactly the lines that fit are handed over if and only if none of them is taken along. -/
theorem handedOver_eq_filter_iff (cap : Nat) (ls : List (List α)) :
    handedOver cap false ls = ls.filter (·.length ≤ cap) ↔ Spared cap ls := by
  induction ls using Spared.induct cap with
  | case1 l m ls h ih =>
    have hl : ¬l.length ≤ cap := by omega
    have hrun : handedOver cap false (l :: m :: ls) = handedOver cap false ls := by
      simp [handedOver, h]
    rw [hrun, Spared, if_pos h, List.filter_cons, if_neg (by simpa using hl), List.filter_cons]
    by_cases hm : m.length ≤ cap
    · rw [if_pos (by simpa using hm)]
      constructor
      · intro heq
        have := (handedOver_sublist cap false ls).length_le
        rw [heq, List.length_cons] at this
        omega
      · rintro ⟨hlt, -⟩
        omega
    · rw [if_neg (by simpa using hm), ih]
      exact ⟨fun hs => ⟨by omega, hs⟩, And.right⟩
  | case2 l m ls h ih =>
    have hrun : handedOver cap false (l :: m :: ls) =
        (if l.length ≤ cap then [l] else []) ++ handedOver cap false (m :: ls) := by
      rw [handedOver, decide_eq_false h]
    rw [hrun, Spared, if_neg h, List.filter_cons, ← ih]
    by_cases hl : l.length ≤ cap
    · simp [hl]
    · simp [hl]
  | case3 ls h =>
    rcases ls with _ | ⟨l, _ | ⟨m, ls⟩⟩
    · simp [handedOver, Spared]
    · simp [handedOver, Spared, List.filter_cons]
    · exact absurd rfl (h l m ls)

end Lines
