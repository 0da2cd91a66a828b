import Mathlib.Data.List.Induction

/-!
# Machines that read one input at a time

A `Transducer` is total: every step moves to a state and emits a list of outputs. A `Machine` may
fault instead, which ends its run. Runs over an input word compose along `++`, an invariant of the
step is an invariant of the run, and a machine whose steps are matched by those of a transducer
(`Machine.Refines`) never faults and emits what the transducer emits. A transducer that reads words
where another one reads letters (`Transducer.Simulates`) does so over whole runs. `While` is the
meaning of a loop that reads no input.
-/

/-- A total machine with outputs. -/
structure Transducer (σ ι ω : Type*) where
  step : σ → ι → σ × List ω

namespace Transducer

variable {σ ι ω : Type*} (T : Transducer σ ι ω) {s : σ} {is js : List ι}

/-- The state after an input word. -/
def final (s : σ) : List ι → σ
  | [] => s
  | i :: is => final (T.step s i).1 is

/-- Everything emitted while reading an input word. -/
def out (s : σ) : List ι → List ω
  | [] => []
  | i :: is => (T.step s i).2 ++ out (T.step s i).1 is

@[simp] theorem final_nil : T.final s [] = s := rfl
@[simp] theorem final_cons (i : ι) : T.final s (i :: is) = T.final (T.step s i).1 is := rfl
@[simp] theorem out_nil : T.out s [] = [] := rfl
@[simp] theorem out_cons (i : ι) :
    T.out s (i :: is) = (T.step s i).2 ++ T.out (T.step s i).1 is := rfl

theorem final_append : T.final s (is ++ js) = T.final (T.final s is) js := by
  induction is generalizing s with
  | nil => rfl
  | cons i is ih => exact ih

theorem out_append : T.out s (is ++ js) = T.out s is ++ T.out (T.final s is) js := by
  induction is generalizing s with
  | nil => rfl
  | cons i is ih => simp only [List.cons_append, out_cons, ih, final_cons, List.append_assoc]

theorem final_snoc (i : ι) : T.final s (is ++ [i]) = (T.step (T.final s is) i).1 := by
  rw [final_append]; rfl

theorem out_snoc (i : ι) : T.out s (is ++ [i]) = T.out s is ++ (T.step (T.final s is) i).2 := by
  rw [out_append]; simp

/-- An invariant of the step is an invariant of the run. -/
theorem final_invariant {P : σ → Prop} (hstep : ∀ s i, P s → P (T.step s i).1) (h : P s) :
    P (T.final s is) := by
  induction is generalizing s with
  | nil => exact h
  | cons i is ih => exact ih (hstep s i h)

/-- A relation between the consumed word, the outputs and the state, kept when a run is extended
at its end. -/
theorem history {P : List ι → List ω → σ → Prop} (hnil : P [] [] s)
    (hsnoc : ∀ is ws t i, P is ws t → P (is ++ [i]) (ws ++ (T.step t i).2) (T.step t i).1)
    (is : List ι) : P is (T.out s is) (T.final s is) := by
  induction is using List.reverseRecOn with
  | nil => exact hnil
  | append_singleton is i ih => rw [out_snoc, final_snoc]; exact hsnoc _ _ _ i ih

/-- `Q` holds of every state of a run together with the input read in it. -/
def Along (Q : σ → ι → Prop) (s : σ) : List ι → Prop
  | [] => True
  | i :: is => Q s i ∧ Along Q (T.step s i).1 is

instance Along.decidable (Q : σ → ι → Prop) [∀ s i, Decidable (Q s i)] :
    (s : σ) → (is : List ι) → Decidable (T.Along Q s is)
  | _, [] => .isTrue trivial
  | s, i :: is =>
    haveI := decidable Q (T.step s i).1 is
    inferInstanceAs (Decidable (Q s i ∧ T.Along Q (T.step s i).1 is))

/-- What the steps that meet a condition keep holds in every state of a run that meets it. -/
theorem along_invariant {Q : σ → ι → Prop} {P : σ → Prop}
    (hstep : ∀ s i, P s → Q s i → P (T.step s i).1) (h : P s) (hq : T.Along Q s is)
    (hjs : js <+: is) : P (T.final s js) := by
  induction is generalizing s js with
  | nil =>
    obtain rfl := List.prefix_nil.mp hjs
    exact h
  | cons i is ih =>
    obtain ⟨hi, hrest⟩ := hq
    cases js with
    | nil => exact h
    | cons j js =>
      obtain ⟨rfl, hprefix⟩ := List.cons_prefix_cons.mp hjs
      rw [final_cons]
      exact ih (hstep s j h hi) hrest hprefix

/-- Two conditions that agree on invariant states agree on runs if one of them keeps the
invariant. -/
theorem along_congr {Q Q' : σ → ι → Prop} {P : σ → Prop} (hiff : ∀ s i, P s → (Q s i ↔ Q' s i))
    (hstep : ∀ s i, P s → Q s i → P (T.step s i).1) (h : P s) :
    T.Along Q s is ↔ T.Along Q' s is := by
  induction is generalizing s with
  | nil => exact Iff.rfl
  | cons i is ih =>
    constructor
    · rintro ⟨hq, hrest⟩
      exact ⟨(hiff s i h).mp hq, (ih (hstep s i h hq)).mp hrest⟩
    · rintro ⟨hq, hrest⟩
      have hq := (hiff s i h).mpr hq
      exact ⟨hq, (ih (hstep s i h hq)).mpr hrest⟩

/-- A condition that decides for each step from an invariant state whether the invariant and a
property of the outputs are kept decides it for the run. -/
theorem along_iff {Q : σ → ι → Prop} {P : σ → Prop} {R : ω → Prop}
    (hstep : ∀ s i, P s → (Q s i ↔ P (T.step s i).1 ∧ ∀ w ∈ (T.step s i).2, R w)) (h : P s) :
    T.Along Q s is ↔ (∀ n, P (T.final s (is.take n))) ∧ ∀ w ∈ T.out s is, R w := by
  induction is generalizing s with
  | nil =>
    constructor
    · intro _
      exact ⟨fun n => by rwa [List.take_nil], fun w hw => nomatch hw⟩
    · exact fun _ => trivial
  | cons i is ih =>
    rw [Along, hstep s i h, out_cons]
    constructor
    · rintro ⟨⟨hP, hR⟩, hrest⟩
      obtain ⟨hstates, houts⟩ := (ih hP).mp hrest
      refine ⟨?_, fun w hw => (List.mem_append.mp hw).elim (hR w) (houts w)⟩
      intro n
      cases n with
      | zero => exact h
      | succ n => exact hstates n
    · rintro ⟨hstates, houts⟩
      have hP : P (T.step s i).1 := hstates 1
      refine ⟨⟨hP, fun w hw => houts w (List.mem_append_left _ hw)⟩, (ih hP).mpr ⟨?_, ?_⟩⟩
      · exact fun n => hstates (n + 1)
      · exact fun w hw => houts w (List.mem_append_right _ hw)

/-- A condition that decides for each step from an invariant state whether a relation of outputs and
state and a property of the step are kept decides it for the run. -/
theorem along_history_iff {G Q L : σ → ι → Prop} {I : σ → Prop} {P : List ω → σ → Prop}
    (hinv : ∀ s i, I s → G s i → I (T.step s i).1)
    (hstep : ∀ ws s i, I s → G s i → P ws s →
      (Q s i ↔ P (ws ++ (T.step s i).2) (T.step s i).1 ∧ L s i))
    (hguard : T.Along G s is) (hI : I s) {ws : List ω} (h : P ws s) :
    T.Along Q s is ↔ ∀ js, js <+: is → P (ws ++ T.out s js) (T.final s js) ∧
      ∀ i, js ++ [i] <+: is → L (T.final s js) i := by
  induction is generalizing s ws with
  | nil =>
    refine iff_of_true trivial ?_
    intro js hjs
    obtain rfl := List.prefix_nil.mp hjs
    rw [out_nil, List.append_nil]
    exact ⟨h, fun i hi => absurd (List.prefix_nil.mp hi) (List.cons_ne_nil i [])⟩
  | cons i is ih =>
    obtain ⟨hg, hguard⟩ := hguard
    have hI' := hinv s i hI hg
    constructor
    · rintro ⟨hq, hrest⟩
      obtain ⟨hP, hL⟩ := (hstep ws s i hI hg h).mp hq
      have hall := (ih hguard hI' hP).mp hrest
      intro js hjs
      cases js with
      | nil =>
        rw [out_nil, List.append_nil]
        refine ⟨h, ?_⟩
        intro j hj
        obtain ⟨rfl, -⟩ := List.cons_prefix_cons.mp hj
        exact hL
      | cons j js =>
        obtain ⟨rfl, hprefix⟩ := List.cons_prefix_cons.mp hjs
        obtain ⟨hP', hL'⟩ := hall js hprefix
        rw [out_cons, ← List.append_assoc]
        exact ⟨hP', fun k hk => hL' k (List.cons_prefix_cons.mp hk).2⟩
    · intro hall
      have hL : L s i := (hall [] List.nil_prefix).2 i (List.prefix_append [i] is)
      have hP := (hall [i] (List.prefix_append [i] is)).1
      rw [out_cons, out_nil, List.append_nil] at hP
      refine ⟨(hstep ws s i hI hg h).mpr ⟨hP, hL⟩, (ih hguard hI' hP).mpr ?_⟩
      intro js hjs
      obtain ⟨hP', hL'⟩ := hall (i :: js) (List.cons_prefix_cons.mpr ⟨rfl, hjs⟩)
      rw [out_cons, ← List.append_assoc] at hP'
      exact ⟨hP', fun k hk => hL' k (List.cons_prefix_cons.mpr ⟨rfl, hk⟩)⟩

/-- What a run emits, one of its steps emits. -/
theorem mem_out {w : ω} (h : w ∈ T.out s is) :
    ∃ js i, js ++ [i] <+: is ∧ w ∈ (T.step (T.final s js) i).2 := by
  induction is using List.reverseRecOn with
  | nil => cases h
  | append_singleton is i ih =>
    rw [out_snoc, List.mem_append] at h
    rcases h with h | h
    · obtain ⟨js, j, hjs, hw⟩ := ih h
      exact ⟨js, j, hjs.trans (List.prefix_append is [i]), hw⟩
    · exact ⟨is, i, List.prefix_refl _, h⟩

/-- To read a word that stands for `k` is, seen through `f`, to read `k`. -/
def Simulates {τ κ ν : Type*} (T : Transducer σ ι ω) (U : Transducer τ κ ν)
    (W : List ι → κ → Prop) (f : ω → Option ν) (R : σ → τ → Prop) : Prop :=
  ∀ s t is k, R s t → W is k →
    R (T.final s is) (U.step t k).1 ∧ (T.out s is).filterMap f = (U.step t k).2

theorem Simulates.run {τ κ ν : Type*} {T : Transducer σ ι ω} {U : Transducer τ κ ν}
    {W : List ι → κ → Prop} {f : ω → Option ν} {R : σ → τ → Prop} (H : T.Simulates U W f R) {t : τ}
    (h : R s t) {iss : List (List ι)} {ks : List κ} (hw : List.Forall₂ W iss ks) :
    R (T.final s iss.flatten) (U.final t ks) ∧
      (T.out s iss.flatten).filterMap f = U.out t ks := by
  induction hw generalizing s t with
  | nil => exact ⟨h, rfl⟩
  | @cons is k iss ks hk _ ih =>
    obtain ⟨hstate, hout⟩ := H s t is k h hk
    obtain ⟨hfinal, hrest⟩ := ih hstate
    rw [List.flatten_cons, final_append, out_append, List.filterMap_append, hout, hrest]
    exact ⟨hfinal, rfl⟩

/-- The transducer that reads words. -/
def onWords (T : Transducer σ ι ω) : Transducer σ (List ι) ω := ⟨fun s is => (T.final s is, T.out s is)⟩

theorem final_onWords (iss : List (List ι)) : T.onWords.final s iss = T.final s iss.flatten := by
  induction iss generalizing s with
  | nil => rfl
  | cons is iss ih =>
    rw [List.flatten_cons, final_append]
    exact ih

theorem out_onWords (iss : List (List ι)) : T.onWords.out s iss = T.out s iss.flatten := by
  induction iss generalizing s with
  | nil => rfl
  | cons is iss ih =>
    rw [List.flatten_cons, out_append]
    exact congrArg (T.out s is ++ ·) ih

/-- If inputs that are kept do the same in related states, and inputs that are deleted neither
leave the relation nor emit anything seen through `f`, then the deletion cannot be seen. -/
theorem final_filter {ν : Type*} {R : σ → σ → Prop} {P : ι → Prop} {p : ι → Bool}
    {f : ω → Option ν}
    (keep : ∀ s t i, R s t → P i → p i = true → R (T.step s i).1 (T.step t i).1 ∧
      (T.step s i).2.filterMap f = (T.step t i).2.filterMap f)
    (delete : ∀ s t i, R s t → P i → p i = false → R (T.step s i).1 t ∧
      (T.step s i).2.filterMap f = [])
    (hP : ∀ i ∈ is, P i) {t : σ} (h : R s t) :
    R (T.final s is) (T.final t (is.filter p)) ∧
      (T.out s is).filterMap f = (T.out t (is.filter p)).filterMap f := by
  induction is generalizing s t with
  | nil => exact ⟨h, rfl⟩
  | cons i is ih =>
    have hi := hP i List.mem_cons_self
    have hrest := fun j hj => hP j (List.mem_cons_of_mem i hj)
    rw [out_cons, List.filterMap_append]
    cases hp : p i with
    | true =>
      obtain ⟨hstate, hout⟩ := keep s t i h hi hp
      obtain ⟨hfinal, hrun⟩ := ih hrest hstate
      rw [List.filter_cons_of_pos hp, out_cons, List.filterMap_append, hout, hrun]
      exact ⟨hfinal, rfl⟩
    | false =>
      obtain ⟨hstate, hout⟩ := delete s t i h hi hp
      obtain ⟨hfinal, hrun⟩ := ih hrest hstate
      rw [List.filter_cons_of_neg (Bool.eq_false_iff.mp hp), hout, hrun]
      exact ⟨hfinal, rfl⟩

end Transducer

/-- A machine whose step may fault. -/
structure Machine (ε σ ι ω : Type*) where
  step : σ → ι → Except ε (σ × List ω)

namespace Machine

variable {ε σ τ ι ω : Type*} (M : Machine ε σ ι ω) {s s' : σ} {is js : List ι}

/-- The state after an input word, or the fault that ended the run. -/
def after (s : σ) : List ι → Except ε σ
  | [] => .ok s
  | i :: is =>
    match M.step s i with
    | .error e => .error e
    | .ok (s', _) => after s' is

/-- Everything emitted up to the end of the word or the first fault. -/
def trace (s : σ) : List ι → List ω
  | [] => []
  | i :: is =>
    match M.step s i with
    | .error _ => []
    | .ok (s', ws) => ws ++ trace s' is

/-- `Q` holds of every state of a run together with the input read in it. -/
def Along (Q : σ → ι → Prop) (s : σ) : List ι → Prop
  | [] => True
  | i :: is => Q s i ∧ ∀ s' ws, M.step s i = .ok (s', ws) → Along Q s' is

theorem after_cons_of_ok {i : ι} {t : σ} {ws : List ω} (h : M.step s i = .ok (t, ws)) :
    M.after s (i :: is) = M.after t is := by
  simp only [after, h]

theorem trace_cons_of_ok {i : ι} {t : σ} {ws : List ω} (h : M.step s i = .ok (t, ws)) :
    M.trace s (i :: is) = ws ++ M.trace t is := by
  simp only [trace, h]

theorem along_cons_of_ok {Q : σ → ι → Prop} {i : ι} {t : σ} {ws : List ω}
    (h : M.step s i = .ok (t, ws)) : M.Along Q s (i :: is) ↔ Q s i ∧ M.Along Q t is := by
  refine and_congr_right fun _ => ⟨fun hrest => hrest t ws h, fun hrest t' ws' h' => ?_⟩
  obtain ⟨rfl, -⟩ := Prod.mk.inj (Except.ok.inj (h.symm.trans h'))
  exact hrest

theorem along_cons_of_error {Q : σ → ι → Prop} {i : ι} {e : ε} (h : M.step s i = .error e) :
    M.Along Q s (i :: is) ↔ Q s i :=
  and_iff_left fun _ _ h' => by cases h.symm.trans h'

instance Along.decidable (Q : σ → ι → Prop) [∀ s i, Decidable (Q s i)] :
    (s : σ) → (is : List ι) → Decidable (M.Along Q s is)
  | _, [] => .isTrue trivial
  | s, i :: is =>
    match h : M.step s i with
    | .error _ => decidable_of_iff (Q s i) (M.along_cons_of_error h).symm
    | .ok (t, _) =>
      haveI := decidable Q t is
      decidable_of_iff (Q s i ∧ M.Along Q t is) (M.along_cons_of_ok h).symm

/-- The first step of a run that goes on. -/
theorem step_of_after_cons {i : ι} (h : M.after s (i :: is) = .ok s') :
    ∃ t ws, M.step s i = .ok (t, ws) ∧ M.after t is = .ok s' := by
  rw [after] at h
  split at h
  case h_1 => cases h
  case h_2 t ws hstep => exact ⟨t, ws, hstep, h⟩

theorem after_append {t : σ} (h : M.after s is = .ok t) :
    M.after s (is ++ js) = M.after t js := by
  induction is generalizing s with
  | nil =>
    cases h
    rfl
  | cons i is ih =>
    obtain ⟨u, ws, hstep, hrun⟩ := M.step_of_after_cons h
    rw [List.cons_append, M.after_cons_of_ok hstep]
    exact ih hrun

theorem trace_append {t : σ} (h : M.after s is = .ok t) :
    M.trace s (is ++ js) = M.trace s is ++ M.trace t js := by
  induction is generalizing s with
  | nil =>
    cases h
    rfl
  | cons i is ih =>
    obtain ⟨u, ws, hstep, hrun⟩ := M.step_of_after_cons h
    rw [List.cons_append, M.trace_cons_of_ok hstep, M.trace_cons_of_ok hstep, ih hrun,
      List.append_assoc]

/-- What each step that meets a condition keeps, of the word read so far, everything emitted and the
state, a run keeps all of whose steps meet it. -/
theorem Along.word_history {Q : σ → ι → Prop} {P : List ι → List ω → σ → Prop}
    (hstep : ∀ js os t i t' ws, P js os t → Q t i → M.step t i = .ok (t', ws) →
      P (js ++ [i]) (os ++ ws) t')
    (hq : M.Along Q s is) (h : P [] [] s) (hrun : M.after s is = .ok s') :
    P is (M.trace s is) s' := by
  have hfrom {is js : List ι} {os : List ω} {s : σ} (hq : M.Along Q s is) (h : P js os s)
      (hrun : M.after s is = .ok s') : P (js ++ is) (os ++ M.trace s is) s' := by
    induction is generalizing s js os with
    | nil =>
      cases hrun
      rw [trace, List.append_nil, List.append_nil]
      exact h
    | cons i is ih =>
      obtain ⟨t, ws, hs, hrest⟩ := M.step_of_after_cons hrun
      rw [M.trace_cons_of_ok hs, ← List.append_assoc, List.append_cons]
      exact ih (hq.2 t ws hs) (hstep js os s i t ws h hq.1 hs) hrest
  exact hfrom hq h hrun

/-- What each step that meets a condition keeps, of the state and of everything emitted so far, a
run keeps all of whose steps meet it. -/
theorem Along.history {Q : σ → ι → Prop} {P : List ω → σ → Prop}
    (hstep : ∀ os t i t' ws, P os t → Q t i → M.step t i = .ok (t', ws) → P (os ++ ws) t')
    (hq : M.Along Q s is) (h : P [] s) (hrun : M.after s is = .ok s') : P (M.trace s is) s' :=
  Along.word_history M (P := fun _ => P) (fun _ => hstep) hq h hrun

/-- What each step keeps that meets a condition, a run keeps all of whose steps meet it. -/
theorem Along.invariant {Q : σ → ι → Prop} {P : σ → Prop}
    (hstep : ∀ t i t' ws, P t → Q t i → M.step t i = .ok (t', ws) → P t')
    (hq : M.Along Q s is) (h : P s) (hrun : M.after s is = .ok s') : P s' :=
  Along.history M (P := fun _ => P) (fun _ => hstep) hq h hrun

theorem along_of_forall {Q : σ → ι → Prop} (h : ∀ t, ∀ i ∈ is, Q t i) : M.Along Q s is := by
  induction is generalizing s with
  | nil => trivial
  | cons i is ih =>
    exact ⟨h s i List.mem_cons_self, fun t ws _ => ih fun u j hj => h u j (.tail i hj)⟩

/-- What each step keeps, of the word read so far, everything emitted and the state, a run keeps. -/
theorem after_word_history {P : List ι → List ω → σ → Prop} (h : P [] [] s)
    (hstep : ∀ js os t i t' ws, P js os t → M.step t i = .ok (t', ws) → P (js ++ [i]) (os ++ ws) t')
    (hrun : M.after s is = .ok s') : P is (M.trace s is) s' :=
  Along.word_history M (Q := fun _ _ => True)
    (fun js os t i t' ws h _ => hstep js os t i t' ws h)
    (M.along_of_forall fun _ _ _ => trivial) h hrun

/-- What each step keeps, of the state and of everything emitted so far, a run keeps. -/
theorem after_history {P : List ω → σ → Prop} (h : P [] s)
    (hstep : ∀ os t i t' ws, P os t → M.step t i = .ok (t', ws) → P (os ++ ws) t')
    (hrun : M.after s is = .ok s') : P (M.trace s is) s' :=
  M.after_word_history (P := fun _ => P) h (fun _ => hstep) hrun

/-- What each step keeps of the state, a run keeps. -/
theorem after_invariant {P : σ → Prop} (h : P s)
    (hstep : ∀ t i t' ws, P t → M.step t i = .ok (t', ws) → P t')
    (hrun : M.after s is = .ok s') : P s' :=
  M.after_history (P := fun _ => P) h (fun _ => hstep) hrun

/-- A run whose steps succeed and keep an invariant ends in a state with the invariant. -/
theorem exists_after {P : σ → Prop} (hstep : ∀ t, ∀ i ∈ is, P t → ∃ t' ws,
    M.step t i = .ok (t', ws) ∧ P t') (h : P s) : ∃ s', M.after s is = .ok s' ∧ P s' := by
  induction is generalizing s with
  | nil => exact ⟨s, rfl, h⟩
  | cons i is ih =>
    obtain ⟨t, ws, hs, ht⟩ := hstep s i List.mem_cons_self h
    rw [M.after_cons_of_ok hs]
    exact ih (fun u j hj => hstep u j (.tail i hj)) ht

/-- The steps of `N` from the states `f s` are those of `M`. -/
def Embeds (M : Machine ε σ ι ω) (N : Machine ε τ ι ω) (f : σ → τ) : Prop :=
  ∀ s i, N.step (f s) i = (M.step s i).map fun r => (f r.1, r.2)

variable {M} in
theorem Embeds.after {N : Machine ε τ ι ω} {f : σ → τ} (H : M.Embeds N f) (s : σ) (is : List ι) :
    N.after (f s) is = (M.after s is).map f := by
  induction is generalizing s with
  | nil => rfl
  | cons i is ih =>
    rw [Machine.after, Machine.after, H s i]
    cases M.step s i with
    | error e => rfl
    | ok r => exact ih r.1

variable {M} in
theorem Embeds.trace {N : Machine ε τ ι ω} {f : σ → τ} (H : M.Embeds N f) (s : σ) (is : List ι) :
    N.trace (f s) is = M.trace s is := by
  induction is generalizing s with
  | nil => rfl
  | cons i is ih =>
    rw [Machine.trace, Machine.trace, H s i]
    cases M.step s i with
    | error e => rfl
    | ok r => exact congrArg (r.2 ++ ·) (ih r.1)

/-- Every step of the machine from a related state succeeds, emits what the transducer emits and
leads to related states. -/
def Refines (M : Machine ε σ ι ω) (T : Transducer τ ι ω) (R : σ → τ → Prop) : Prop :=
  ∀ s t i, R s t → ∃ s', M.step s i = .ok (s', (T.step t i).2) ∧ R s' (T.step t i).1

variable {M} {T : Transducer τ ι ω} {R : σ → τ → Prop}

theorem Refines.after (H : M.Refines T R) {t : τ} (h : R s t) (is : List ι) :
    ∃ s', M.after s is = .ok s' ∧ R s' (T.final t is) := by
  induction is generalizing s t with
  | nil => exact ⟨s, rfl, h⟩
  | cons i is ih =>
    obtain ⟨s₁, hs₁, h₁⟩ := H s t i h
    obtain ⟨s', hs', h'⟩ := ih h₁
    exact ⟨s', by simp only [Machine.after, hs₁, hs'], h'⟩

theorem Refines.trace (H : M.Refines T R) {t : τ} (h : R s t) (is : List ι) :
    M.trace s is = T.out t is := by
  induction is generalizing s t with
  | nil => rfl
  | cons i is ih =>
    obtain ⟨s₁, hs₁, h₁⟩ := H s t i h
    simp only [Machine.trace, hs₁, Transducer.out_cons, ih h₁]

/-- The state a run of the machine ends in is related to the one the transducer ends in. -/
theorem Refines.rel_of_after (H : M.Refines T R) {t : τ} (h : R s t)
    (hs : M.after s is = .ok s') : R s' (T.final t is) := by
  obtain ⟨s₁, hs₁, h₁⟩ := H.after h is
  rw [hs] at hs₁
  cases hs₁
  exact h₁

end Machine

/-! ## Loops -/

/-- `while (cond) body`, entered in the first state, ends in the second. -/
inductive While {σ : Type*} (cond : σ → Prop) (body : σ → σ) : σ → σ → Prop
  | done {s : σ} (h : ¬cond s) : While cond body s s
  | round {s s' : σ} (h : cond s) (rest : While cond body (body s) s') : While cond body s s'

/-- A loop that ends, ends in one state. -/
theorem While.ends_iff {σ : Type*} {cond : σ → Prop} {body : σ → σ} {s s' : σ}
    (h : While cond body s s') (t : σ) : While cond body s t ↔ t = s' := by
  refine ⟨fun ht => ?_, fun ht => ht ▸ h⟩
  induction h with
  | done h =>
    cases ht with
    | done => rfl
    | round hcond => exact absurd hcond h
  | round h _ ih =>
    cases ht with
    | done hcond => exact absurd h hcond
    | round _ rest => exact ih rest

/-- What holds at the beginning and is kept by each round holds at the end, where the condition
fails. -/
theorem While.invariant {σ : Type*} {cond : σ → Prop} {body : σ → σ} {s s' : σ} {P : σ → Prop}
    (h : While cond body s s') (hround : ∀ t, P t → cond t → P (body t)) (hs : P s) :
    P s' ∧ ¬cond s' := by
  induction h with
  | done hcond => exact ⟨hs, hcond⟩
  | round hcond _ ih => exact ih (hround _ hs hcond)

/-- A loop ends whose rounds lower a measure. -/
theorem While.exists_of_measure {σ : Type*} {cond : σ → Prop} {body : σ → σ} {P : σ → Prop}
    (measure : σ → Nat)
    (hround : ∀ t, P t → cond t → P (body t) ∧ measure (body t) < measure t)
    (hcond : ∀ t, Decidable (cond t)) {s : σ} (hs : P s) : ∃ s', While cond body s s' := by
  suffices h : ∀ n t, measure t < n → P t → ∃ s', While cond body t s' from
    h (measure s + 1) s (Nat.lt_succ_self _) hs
  intro n
  induction n with
  | zero => exact fun t ht => absurd ht (Nat.not_lt_zero _)
  | succ n ih =>
    intro t ht hP
    by_cases hc : cond t
    · obtain ⟨hP', hlt⟩ := hround t hP hc
      obtain ⟨s', hrest⟩ := ih (body t) (by omega) hP'
      exact ⟨s', .round hc hrest⟩
    · exact ⟨t, .done hc⟩
