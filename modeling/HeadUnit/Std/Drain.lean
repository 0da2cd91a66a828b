import HeadUnit.Std.Machine

/-!
# Loops that drain a descriptor

`for (;;) { ret = read(fd, buff, size); … }` on a nonblocking descriptor: an interrupted call is
repeated, any other error leaves the loop and what is received is passed on element by element. The
loops differ in what they do where nothing is received (`zeroLeaves`). A loop ends if and only if
some call leaves it, and has then passed on everything received once and in order (`drain_iff`).
-/

inductive ReadError where
  | eintr
  | ewouldblock
  | other
  deriving DecidableEq, Repr

/-- The result of a call: what it received, which is nothing where it returns 0, or an error. -/
inductive ReadResult (ι : Type*) where
  | data (is : List ι)
  | failed (err : ReadError)
  deriving DecidableEq, Repr

namespace ReadResult

variable {ι : Type*}

def received : ReadResult ι → List ι
  | .data is => is
  | .failed _ => []

/-- The result leaves the loop. -/
def Leaves (zeroLeaves : Bool) : ReadResult ι → Prop
  | .data is => zeroLeaves = true ∧ is = []
  | .failed err => err ≠ .eintr

end ReadResult

/-- `reads` calls were made; `left` behind a `break`. -/
structure DrainState (σ : Type*) where
  reads : Nat
  left : Bool
  consumer : σ

section Drain

variable {ι σ : Type*}

/-- One round of the loop. -/
def drainRound (zeroLeaves : Bool) (pass : σ → ι → σ) (read : Nat → ReadResult ι)
    (s : DrainState σ) : DrainState σ :=
  match read s.reads with
  | .failed .eintr => { s with reads := s.reads + 1 }
  | .failed _ => { s with reads := s.reads + 1, left := true }
  | .data is =>
    if zeroLeaves ∧ is.isEmpty then { s with reads := s.reads + 1, left := true }
    else { s with reads := s.reads + 1, consumer := is.foldl pass s.consumer }

/-- What the first `n` calls received. -/
def receivedUpTo (read : Nat → ReadResult ι) (n : Nat) : List ι :=
  (List.range n).flatMap fun k => (read k).received

/-- The loop ends behind some number of calls, with everything they received passed on. -/
def Drains (zeroLeaves : Bool) (pass : σ → ι → σ) (read : Nat → ReadResult ι) (s : σ) : Prop :=
  ∃ n, While (·.left = false) (drainRound zeroLeaves pass read) ⟨0, false, s⟩
    ⟨n, true, (receivedUpTo read n).foldl pass s⟩

/-- From some call on the descriptor is at its end or fails, and not for being interrupted. -/
def QuietsDown (read : Nat → ReadResult ι) : Prop :=
  ∃ n, ∀ k, n ≤ k → read k = .data [] ∨ ∃ err, err ≠ .eintr ∧ read k = .failed err

variable (zeroLeaves : Bool) (pass : σ → ι → σ) (read : Nat → ReadResult ι)

theorem receivedUpTo_succ (n : Nat) :
    receivedUpTo read (n + 1) = receivedUpTo read n ++ (read n).received := by
  rw [receivedUpTo, List.range_succ, List.flatMap_append, List.flatMap_singleton, receivedUpTo]

/-- A round makes a call, passes on what it received and leaves if its result does. -/
theorem drainRound_eq (s : DrainState σ) :
    (drainRound zeroLeaves pass read s).reads = s.reads + 1 ∧
      (drainRound zeroLeaves pass read s).consumer =
        (read s.reads).received.foldl pass s.consumer ∧
      ((drainRound zeroLeaves pass read s).left = true ↔
        s.left = true ∨ (read s.reads).Leaves zeroLeaves) := by
  rw [drainRound]
  cases read s.reads with
  | failed err => cases err <;> simp [ReadResult.received, ReadResult.Leaves]
  | data is =>
    dsimp only
    split
    case isTrue h =>
      obtain rfl := List.isEmpty_iff.mp h.2
      simp [ReadResult.received, ReadResult.Leaves, h.1]
    case isFalse h =>
      rw [List.isEmpty_iff] at h
      simp [ReadResult.received, ReadResult.Leaves, h]

/-- What holds in every round: what the calls received is passed on, and the loop is left if and
only if the last of them leaves it. -/
structure DrainInv (s₀ : σ) (s : DrainState σ) : Prop where
  consumer : s.consumer = (receivedUpTo read s.reads).foldl pass s₀
  left : s.left = true → ∃ k, (read k).Leaves zeroLeaves
  stays : s.left = false → ∀ k, k < s.reads → ¬(read k).Leaves zeroLeaves

theorem DrainInv.round {s₀ : σ} {s : DrainState σ} (h : DrainInv zeroLeaves pass read s₀ s)
    (hs : s.left = false) :
    DrainInv zeroLeaves pass read s₀ (drainRound zeroLeaves pass read s) := by
  obtain ⟨hreads, hconsumer, hleft⟩ := drainRound_eq zeroLeaves pass read s
  rw [hs, or_iff_right Bool.false_ne_true] at hleft
  refine ⟨?_, fun hl => ⟨_, hleft.mp hl⟩, fun hl k hk => ?_⟩
  · rw [hconsumer, hreads, receivedUpTo_succ, List.foldl_append, h.consumer]
  · rw [hreads] at hk
    rcases Nat.lt_succ_iff_lt_or_eq.mp hk with hk | rfl
    · exact h.stays hs k hk
    · exact fun hleaves => Bool.eq_false_iff.mp hl (hleft.mpr hleaves)

/-- The loop ends if and only if some call leaves it. -/
theorem drain_iff (s : σ) :
    Drains zeroLeaves pass read s ↔ ∃ k, (read k).Leaves zeroLeaves := by
  have hinit : DrainInv zeroLeaves pass read s ⟨0, false, s⟩ :=
    ⟨rfl, nofun, fun _ k hk => absurd hk (Nat.not_lt_zero k)⟩
  have hround (t : DrainState σ) (h : DrainInv zeroLeaves pass read s t) (ht : t.left = false) :=
    h.round zeroLeaves pass read ht
  constructor
  · rintro ⟨n, hloop⟩
    exact (hloop.invariant hround hinit).1.left rfl
  · rintro ⟨k, hk⟩
    let measure (t : DrainState σ) : Nat := if t.left then 0 else k + 1 - t.reads + 1
    have hmeasure (t : DrainState σ) (ht : DrainInv zeroLeaves pass read s t)
        (hleft : t.left = false) : measure (drainRound zeroLeaves pass read t) < measure t := by
      have hreads : t.reads ≤ k := Nat.not_lt.mp fun hlt => ht.stays hleft k hlt hk
      dsimp only [measure]
      rw [hleft, (drainRound_eq zeroLeaves pass read t).1]
      split
      · exact Nat.succ_pos _
      · rw [if_neg Bool.false_ne_true]
        omega
    obtain ⟨⟨n, left, consumer⟩, hloop⟩ := While.exists_of_measure measure
      (fun t ht hleft => ⟨hround t ht hleft, hmeasure t ht hleft⟩) (fun _ => inferInstance) hinit
    obtain ⟨hinv, hend⟩ := hloop.invariant hround hinit
    obtain rfl : left = true := by simpa using hend
    have hconsumer : consumer = (receivedUpTo read n).foldl pass s := hinv.consumer
    subst hconsumer
    exact ⟨n, hloop⟩

end Drain
