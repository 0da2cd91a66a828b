import HeadUnit.Std.Memory

/-!
# The ring of input events

`InputEventCircularReader` keeps up to `numEvents` events in a buffer of twice that size. `fill` reads
them to one place, past the logical end if need be, and copies what stands there to the beginning.
`Holds` says which queue of events a reader stands for.
-/

namespace HeadUnit.Sensors

/-- Positions count from `mBuffer`, and `mBufferEnd` is at `n`. -/
structure InputEventCircularReader (α : Type) (n : Nat) where
  mBuffer : Vector α (2 * n)
  mHead : Nat
  mCurr : Nat
  mFreeSpace : Nat

namespace InputEventCircularReader

variable {α : Type} {n : Nat}

/-- The constructor, which leaves the buffer as it is. -/
def init (mBuffer : Vector α (2 * n)) : InputEventCircularReader α n := ⟨mBuffer, 0, 0, n⟩

/-- `fill`, where `read` delivers the events `es`, and what it returns. -/
def fill (r : InputEventCircularReader α n) (es : List α) :
    Except Fault (InputEventCircularReader α n × Nat) :=
  if r.mFreeSpace = 0 then .ok (r, 0)
  else do
    let buffer ← Mem.blit r.mBuffer r.mHead es
    let head := r.mHead + es.length
    let space := r.mFreeSpace - es.length
    if n < head then
      let s := head - n
      let copy ← Mem.memcpy (2 * n) (buffer.toList.drop n) s
      let buffer ← Mem.blit buffer 0 copy
      .ok (⟨buffer, s, r.mCurr, space⟩, es.length)
    else .ok (⟨buffer, head, r.mCurr, space⟩, es.length)

/-- `readEvent`: whether there is an event. -/
def readEvent (r : InputEventCircularReader α n) : Bool := (n : Int) - r.mFreeSpace ≠ 0

/-- What `readEvent` points to. -/
def event (r : InputEventCircularReader α n) : Except Fault α := Mem.load r.mBuffer.toList r.mCurr

def next (r : InputEventCircularReader α n) : InputEventCircularReader α n :=
  { r with
    mCurr := if n ≤ r.mCurr + 1 then 0 else r.mCurr + 1
    mFreeSpace := r.mFreeSpace + 1 }

/-! ## The queue -/

/-- The reader stands for the queue `q`: its events follow each other from `mCurr` on, around the
logical end, and `mHead` is behind the last one, up to one round. -/
structure Holds (r : InputEventCircularReader α n) (q : List α) : Prop where
  curr : r.mCurr < n
  head : r.mHead ≤ n
  free : r.mFreeSpace + q.length = n
  behind : (r.mCurr + q.length) % n = r.mHead % n
  events : ∀ i < q.length, r.mBuffer.toList[(r.mCurr + i) % n]? = q[i]?

variable {r : InputEventCircularReader α n} {q es : List α}

theorem Holds.init (hn : 0 < n) (mBuffer : Vector α (2 * n)) :
    Holds (init mBuffer) ([] : List α) :=
  ⟨hn, Nat.zero_le n, rfl, rfl, fun _ h => absurd h (Nat.not_lt_zero _)⟩

theorem Holds.readEvent_iff (h : Holds r q) : r.readEvent = true ↔ q ≠ [] := by
  have hfree := h.free
  rw [readEvent, decide_eq_true_eq, ← List.length_pos_iff]
  omega

theorem Holds.event {x : α} (h : Holds r (x :: q)) : r.event = .ok x := by
  have hcurr := h.curr
  have hx := h.events 0 (Nat.zero_lt_succ _)
  rw [Nat.add_zero, Nat.mod_eq_of_lt h.curr, List.getElem?_cons_zero] at hx
  have hlt : r.mCurr < r.mBuffer.toList.length := by
    rw [Vector.length_toList]
    omega
  rw [List.getElem?_eq_getElem hlt, Option.some.injEq] at hx
  rw [InputEventCircularReader.event, Mem.load_eq_ok hlt, ← hx]
  rfl

theorem Holds.next {x : α} (h : Holds r (x :: q)) : Holds r.next q := by
  have hcurr := h.curr
  have hfree := h.free
  have hnext (k : Nat) : (r.next.mCurr + k) % n = (r.mCurr + (k + 1)) % n := by
    show ((if n ≤ r.mCurr + 1 then 0 else r.mCurr + 1) + k) % n = _
    split
    case isTrue hend =>
      have heq : r.mCurr + (k + 1) = k + n := by omega
      rw [heq, Nat.add_mod_right, Nat.zero_add]
    case isFalse => rw [Nat.add_assoc, Nat.add_comm 1 k]
  rw [List.length_cons] at hfree
  refine ⟨?_, h.head, ?_, ?_, fun i hi => ?_⟩
  · show (if n ≤ r.mCurr + 1 then 0 else r.mCurr + 1) < n
    split <;> omega
  · show r.mFreeSpace + 1 + q.length = n
    omega
  · rw [hnext]
    exact h.behind
  · rw [hnext]
    exact h.events (i + 1) (Nat.succ_lt_succ hi)

/-! ## Filling -/

/-- A position behind one below the end, taken around the end. -/
theorem around {c k : Nat} (hc : c ≤ n) (hk : k < n) :
    (c + k) % n = if c + k < n then c + k else c + k - n := by
  split
  case isTrue hlt => exact Nat.mod_eq_of_lt hlt
  case isFalse hge =>
    rw [Nat.mod_eq_sub_mod (Nat.not_lt.mp hge), Nat.mod_eq_of_lt (by omega)]

/-- What `fill` leaves in the slots below the logical end: the new events from `mHead` on, around
the end, and elsewhere what was there. -/
structure Filled (r r' : InputEventCircularReader α n) (es : List α) : Prop where
  curr : r'.mCurr = r.mCurr
  head_le : r'.mHead ≤ n
  head : r'.mHead % n = (r.mHead + es.length) % n
  free : r'.mFreeSpace + es.length = r.mFreeSpace
  new : ∀ j < es.length, r'.mBuffer.toList[(r.mHead + j) % n]? = es[j]?
  old : ∀ p < n, (∀ j < es.length, p ≠ (r.mHead + j) % n) →
    r'.mBuffer.toList[p]? = r.mBuffer.toList[p]?

theorem fill_filled (hhead : r.mHead ≤ n) (hfree : r.mFreeSpace ≤ n)
    (hes : es.length ≤ r.mFreeSpace) :
    ∃ r', r.fill es = .ok (r', es.length) ∧ Filled r r' es := by
  unfold fill
  split
  case isTrue hfull =>
    obtain rfl : es = [] := List.length_eq_zero_iff.mp (by omega)
    exact ⟨r, rfl, rfl, hhead, rfl, rfl, fun _ h => absurd h (Nat.not_lt_zero _), fun _ _ _ => rfl⟩
  case isFalse hroom =>
  obtain ⟨w, hw, hread⟩ := Mem.blit_eq_ok r.mBuffer (i := r.mHead) es (by omega)
  simp only [hw, Except.ok_bind]
  split
  case isFalse hend =>
    refine ⟨_, rfl, rfl, Nat.not_lt.mp hend, rfl, Nat.sub_add_cancel hes, fun j hj => ?_,
      fun p hp hne => ?_⟩
    · show w.toList[_]? = _
      rw [Nat.mod_eq_of_lt (by omega), hread, if_pos (by omega), Nat.add_sub_cancel_left]
    · show w.toList[p]? = _
      rw [hread, if_neg]
      rintro ⟨hle, hlt⟩
      have hmod : r.mHead + (p - r.mHead) = p := by omega
      refine hne (p - r.mHead) (by omega) ?_
      rw [hmod, Nat.mod_eq_of_lt hp]
  case isTrue hend =>
    obtain ⟨copy, v, hcopy, hv, hslot⟩ := Mem.copyFront_eq_ok w n (2 * n)
      (by omega : n + (r.mHead + es.length - n) ≤ 2 * n) (by omega)
    simp only [hcopy, hv, Except.ok_bind]
    refine ⟨_, rfl, rfl, ?_, ?_, Nat.sub_add_cancel hes, fun j hj => ?_, fun p hp hne => ?_⟩
    · show r.mHead + es.length - n ≤ n
      omega
    · show (r.mHead + es.length - n) % n = _
      exact (Nat.mod_eq_sub_mod (Nat.le_of_lt hend)).symm
    · show v.toList[_]? = _
      rw [around hhead (by omega), hslot]
      split
      case isTrue hlt =>
        rw [if_neg (by omega), hread, if_pos (by omega), Nat.add_sub_cancel_left]
      case isFalse hge =>
        have hback : n + (r.mHead + j - n) = r.mHead + j := by omega
        rw [if_pos (by omega), hback, hread, if_pos (by omega), Nat.add_sub_cancel_left]
    · show v.toList[p]? = _
      rw [hslot, if_neg, hread, if_neg]
      · rintro ⟨hle, hlt⟩
        have hmod : r.mHead + (p - r.mHead) = p := by omega
        refine hne (p - r.mHead) (by omega) ?_
        rw [hmod, Nat.mod_eq_of_lt hp]
      · intro hlt
        have hmod : r.mHead + (p + n - r.mHead) = p + n := by omega
        refine hne (p + n - r.mHead) (by omega) ?_
        rw [hmod, Nat.add_mod_right, Nat.mod_eq_of_lt hp]

/-- `fill` stays in the buffer and appends the events. -/
theorem Holds.fill (h : Holds r q) (hes : es.length ≤ r.mFreeSpace) :
    ∃ r', r.fill es = .ok (r', es.length) ∧ Holds r' (q ++ es) := by
  have hfree := h.free
  have hcurr := h.curr
  obtain ⟨r', hfill, hf⟩ := fill_filled h.head (by omega) hes
  have hspace := hf.free
  have hbehind (j : Nat) : (r.mHead + j) % n = (r.mCurr + (q.length + j)) % n := by
    rw [← Nat.add_assoc, Nat.add_mod, ← h.behind, ← Nat.add_mod]
  refine ⟨r', hfill, hf.curr ▸ hcurr, hf.head_le, ?_, ?_, fun i hi => ?_⟩
  · rw [List.length_append]
    omega
  · rw [hf.curr, hf.head, hbehind, List.length_append]
  · rw [hf.curr]
    rw [List.length_append] at hi
    rcases Nat.lt_or_ge i q.length with hlt | hge
    · rw [List.getElem?_append_left hlt, ← h.events i hlt]
      refine hf.old _ (Nat.mod_lt _ (by omega)) fun j hj heq => ?_
      rw [hbehind, around (Nat.le_of_lt hcurr) (by omega), around (Nat.le_of_lt hcurr) (by omega)]
        at heq
      split at heq <;> split at heq <;> omega
    · have hnew := hf.new (i - q.length) (by omega)
      rw [hbehind, Nat.add_sub_cancel' hge] at hnew
      rw [List.getElem?_append_right hge, hnew]

end InputEventCircularReader

end HeadUnit.Sensors
