import HeadUnit.Std.Machine

/-!
# Machines that lag behind

A machine with a queue of inputs has not read all it has been given. `Transducer.Lag` says that from
one state and queue to another some outputs have been emitted and nothing has been lost: what the
transducer emits from now on completes what it would have emitted. A visit (`Transducer.Serves`) has
room for a number of outputs, and takes the head of the queue out unless the room runs out first.
-/

namespace Transducer

variable {σ ι ω : Type*}

/-- From `s` with the queue `q`, `out` has been emitted, which leaves `s'` with `q'`. -/
structure Lag (T : Transducer σ ι ω) (s : σ) (q : List ι) (s' : σ) (q' : List ι) (out : List ω) :
    Prop where
  final : T.final s' q' = T.final s q
  out : out ++ T.out s' q' = T.out s q

variable {T : Transducer σ ι ω} {s s' t : σ} {q q' p : List ι} {out more : List ω} {i : ι}

namespace Lag

theorem refl (s : σ) (q : List ι) : T.Lag s q s q [] := ⟨rfl, rfl⟩

theorem trans (h : T.Lag s q s' q' out) (h' : T.Lag s' q' t p more) :
    T.Lag s q t p (out ++ more) := by
  refine ⟨h'.final.trans h.final, ?_⟩
  rw [List.append_assoc, h'.out, h.out]

/-- What comes later does not matter. -/
theorem append (h : T.Lag s q s' q' out) (is : List ι) :
    T.Lag s (q ++ is) s' (q' ++ is) out := by
  refine ⟨?_, ?_⟩
  · rw [final_append, final_append, h.final]
  · rw [out_append, out_append, h.final, ← List.append_assoc, h.out]

/-- The head of the queue is taken out. -/
theorem next (q : List ι) (hstep : T.step s i = (s', out)) : T.Lag s (i :: q) s' q out := by
  refine ⟨?_, ?_⟩
  · rw [final_cons, hstep]
  · rw [out_cons, hstep]

/-- The head of the queue stays, as a part of what it amounts to is still due. -/
theorem partly (q : List ι) (hstep : T.step s i = (t, out ++ more))
    (hmore : T.step s' i = (t, more)) : T.Lag s (i :: q) s' (i :: q) out := by
  refine ⟨?_, ?_⟩
  · rw [final_cons, final_cons, hstep, hmore]
  · rw [out_cons, out_cons, hstep, hmore, List.append_assoc]

/-- What has been emitted is the beginning of what is to be emitted. -/
theorem prefix_out (h : T.Lag s q s' q' out) : out <+: T.out s q := ⟨_, h.out⟩

/-- With nothing left in the queue, everything has been emitted. -/
theorem out_of_nil (h : T.Lag s q s' [] out) : out = T.out s q := by
  have hout := h.out
  rwa [out_nil, List.append_nil] at hout

end Lag

/-- A visit of the head of a queue with room for `n` outputs: the state then, whether the head is
taken out, and what is emitted. A head that stays has been answered as far as there was room. -/
structure Serves (T : Transducer σ ι ω) (visit : σ → ι → Nat → σ × Bool × List ω) : Prop where
  room : ∀ s i n, 0 < n → (visit s i n).2.2.length ≤ n
  taken : ∀ s i n, 0 < n → (visit s i n).2.1 = true →
    T.step s i = ((visit s i n).1, (visit s i n).2.2)
  partly : ∀ s i n, 0 < n → (visit s i n).2.1 = false → (visit s i n).2.2.length = n ∧
    ∃ t more, T.step s i = (t, (visit s i n).2.2 ++ more) ∧ T.step (visit s i n).1 i = (t, more)

/-- Visits that always take the head out. -/
theorem Serves.of_taken {visit : σ → ι → Nat → σ × Bool × List ω}
    (hroom : ∀ s i, (T.step s i).2.length ≤ 1)
    (hvisit : ∀ s i n, visit s i n = ((T.step s i).1, true, (T.step s i).2)) : T.Serves visit := by
  refine ⟨fun s i n hn => ?_, fun s i n hn _ => ?_, fun s i n hn hstays => ?_⟩
  · rw [hvisit]
    exact Nat.le_trans (hroom s i) hn
  · rw [hvisit]
  · rw [hvisit] at hstays
    cases hstays

end Transducer
