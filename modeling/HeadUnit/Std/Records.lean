import Mathlib.Data.List.DropRight
import HeadUnit.Std.Lines

/-!
# Lines and records of fixed size

A text of lines, and a file of records of `c` elements each. `blocked` makes a record of every line,
cut or filled up with blanks; `unblocked` makes a line of every record, without its trailing blanks.
`blocker` and `unblocker` do so element by element with less than a record in hand, so it does not
matter in which pieces they get their input. `unblocked_blocked_iff` and `blocked_unblocked_iff` say
what survives one after the other.
-/

namespace Records

variable {α : Type*} [DecidableEq α] {c : Nat} {blank nl : α} {l w xs ys : List α}

/-- The lines of a text. What is behind the last `nl` is one unless it is nothing. -/
def lines (nl : α) (xs : List α) : List (List α) :=
  let pieces := xs.splitOn nl
  if pieces.getLast? = some [] then pieces.dropLast else pieces

/-- The record of a line. -/
def fit (c : Nat) (blank : α) (l : List α) : List α :=
  l.take c ++ List.replicate (c - l.length) blank

def blocked (c : Nat) (blank nl : α) (xs : List α) : List α := (lines nl xs).flatMap (fit c blank)

/-- Pieces of `c` elements each, but for the last one. -/
def cut (c : Nat) (xs : List α) : List (List α) :=
  if c = 0 ∨ xs.length = 0 then [] else xs.take c :: cut c (xs.drop c)
termination_by xs.length
decreasing_by
  rw [List.length_drop]
  omega

/-- The line of a record. -/
def strip (blank : α) (r : List α) : List α := r.rdropWhile (· = blank)

def unblocked (c : Nat) (blank nl : α) (xs : List α) : List α :=
  (cut c xs).flatMap fun r => strip blank r ++ [nl]

/-! ## Lines -/

theorem lines_of_not_mem (h : nl ∉ w) : lines nl w = if w = [] then [] else [w] := by
  rw [lines, List.splitOn_eq_singleton h]
  simp only [List.getLast?_singleton, Option.some.injEq, List.dropLast_singleton]

theorem lines_append (h : nl ∉ w) (xs : List α) : lines nl (w ++ nl :: xs) = w :: lines nl xs := by
  have hne : xs.splitOn nl ≠ [] := List.splitOn_ne_nil nl xs
  rw [lines, List.splitOn_append_cons_self_of_not_mem h, lines]
  obtain ⟨p, ps, hp⟩ := List.exists_cons_of_ne_nil hne
  rw [hp, List.getLast?_cons_cons, List.dropLast_cons_of_ne_nil (List.cons_ne_nil p ps)]
  split <;> rfl

theorem blocked_of_not_mem (h : nl ∉ w) :
    blocked c blank nl w = if w = [] then [] else fit c blank w := by
  rw [blocked, lines_of_not_mem h]
  split
  · rfl
  · exact List.flatMap_singleton ..

theorem blocked_append (h : nl ∉ w) (xs : List α) :
    blocked c blank nl (w ++ nl :: xs) = fit c blank w ++ blocked c blank nl xs := by
  rw [blocked, lines_append h, List.flatMap_cons, blocked]

omit [DecidableEq α] in
theorem length_fit (c : Nat) (blank : α) (l : List α) : (fit c blank l).length = c := by
  rw [fit, List.length_append, List.length_take, List.length_replicate]
  omega

omit [DecidableEq α] in
theorem fit_of_le (h : c ≤ l.length) : fit c blank l = l.take c := by
  rw [fit, Nat.sub_eq_zero_of_le h, List.replicate_zero, List.append_nil]

/-! ## Pieces -/

omit [DecidableEq α] in
theorem cut_nil (c : Nat) : cut c ([] : List α) = [] := by
  rw [cut, if_pos (.inr rfl)]

omit [DecidableEq α] in
theorem cut_of_pos (hc : 0 < c) (h : xs ≠ []) : cut c xs = xs.take c :: cut c (xs.drop c) := by
  have hlen := List.length_pos_iff.mpr h
  rw [cut, if_neg (by omega)]

omit [DecidableEq α] in
/-- A piece that is complete. -/
theorem cut_append (hc : 0 < c) (hl : l.length = c) (xs : List α) :
    cut c (l ++ xs) = l :: cut c xs := by
  have hne : l ++ xs ≠ [] := by
    intro h
    rw [← hl, (List.append_eq_nil_iff.mp h).1] at hc
    exact absurd hc (Nat.lt_irrefl 0)
  rw [cut_of_pos hc hne, ← hl, List.take_left, List.drop_left]

omit [DecidableEq α] in
theorem cut_of_le (hw : w.length ≤ c) : cut c w = if w = [] then [] else [w] := by
  split
  case isTrue h => rw [h, cut_nil]
  case isFalse h =>
    have hpos := Nat.lt_of_lt_of_le (List.length_pos_iff.mpr h) hw
    rw [cut_of_pos hpos h, List.take_of_length_le hw, List.drop_of_length_le hw, cut_nil]

omit [DecidableEq α] in
/-- Pieces that are complete. -/
theorem cut_flatten_append (hc : 0 < c) {pieces : List (List α)} (h : ∀ l ∈ pieces, l.length = c)
    (xs : List α) : cut c (pieces.flatten ++ xs) = pieces ++ cut c xs := by
  induction pieces with
  | nil => rfl
  | cons l pieces ih =>
    obtain ⟨hl, hpieces⟩ := List.forall_mem_cons.mp h
    rw [List.flatten_cons, List.append_assoc, cut_append hc hl, ih hpieces, List.cons_append]

omit [DecidableEq α] in
/-- Behind complete pieces. -/
theorem cut_append_of_dvd (hc : 0 < c) (h : c ∣ l.length) (xs : List α) :
    cut c (l ++ xs) = cut c l ++ cut c xs := by
  obtain ⟨k, hk⟩ := h
  induction k generalizing l with
  | zero =>
    obtain rfl := List.length_eq_zero_iff.mp hk
    rw [cut_nil]
    rfl
  | succ k ih =>
    have hle : c ≤ l.length := hk ▸ Nat.le_mul_of_pos_right c (Nat.succ_pos k)
    have hpiece : (l.take c).length = c := List.length_take_of_le hle
    have hrest : (l.drop c).length = c * k := by
      rw [List.length_drop, hk, Nat.mul_succ, Nat.add_sub_cancel]
    rw [← List.take_append_drop c l, List.append_assoc, cut_append hc hpiece, cut_append hc hpiece,
      ih hrest, List.cons_append]

omit [DecidableEq α] in
/-- A list is less than a piece, or a piece and a list. -/
theorem cut_induction (hc : 0 < c) {P : List α → Prop} (short : ∀ w, w.length < c → P w)
    (piece : ∀ l xs, l.length = c → P xs → P (l ++ xs)) (xs : List α) : P xs := by
  induction hn : xs.length using Nat.strongRecOn generalizing xs with
  | ind n ih =>
    by_cases hlt : xs.length < c
    · exact short xs hlt
    · rw [← List.take_append_drop c xs]
      refine piece _ _ ?_ (ih _ ?_ _ rfl)
      · rw [List.length_take]
        omega
      · rw [List.length_drop]
        omega

/-! ## Line by line -/

/-- What `blocker` knows of the line that it reads: what there is of it, or that it has made a
record of its beginning. -/
inductive BlockState (α : Type*) where
  | filling (part : List α)
  | tossing

def BlockState.step (c : Nat) (blank nl : α) : BlockState α → α → BlockState α × List α
  | .tossing, x => (if x = nl then .filling [] else .tossing, [])
  | .filling part, x =>
    if x = nl then (.filling [], fit c blank part)
    else if part.length + 1 = c then (.tossing, part ++ [x])
    else (.filling (part ++ [x]), [])

def blocker (c : Nat) (blank nl : α) : Transducer (BlockState α) α α := ⟨BlockState.step c blank nl⟩

/-- What is owed at the end. -/
def BlockState.rest (c : Nat) (blank : α) : BlockState α → List α
  | .filling part => if part = [] then [] else fit c blank part
  | .tossing => []

omit [DecidableEq α] in
theorem BlockState.length_rest_le (c : Nat) (blank : α) (state : BlockState α) :
    (state.rest c blank).length ≤ c := by
  cases state with
  | filling part =>
    rw [rest]
    split
    case isTrue => exact Nat.zero_le c
    case isFalse => exact Nat.le_of_eq (length_fit c blank part)
  | tossing => exact Nat.zero_le c

variable (blank)

theorem blocker_toss (h : nl ∉ w) :
    (blocker c blank nl).final .tossing w = .tossing ∧ (blocker c blank nl).out .tossing w = [] := by
  induction w with
  | nil => exact ⟨rfl, rfl⟩
  | cons x w ih =>
    have hx : x ≠ nl := fun hx => h (hx ▸ List.mem_cons_self)
    have hstep : (blocker c blank nl).step .tossing x = (.tossing, []) :=
      Prod.ext (if_neg hx) rfl
    rw [Transducer.final_cons, Transducer.out_cons, hstep]
    exact ih fun hw => h (.tail x hw)

theorem blocker_toss_line (h : nl ∉ w) (xs : List α) :
    (blocker c blank nl).final .tossing (w ++ nl :: xs) =
        (blocker c blank nl).final (.filling []) xs ∧
      (blocker c blank nl).out .tossing (w ++ nl :: xs) =
        (blocker c blank nl).out (.filling []) xs := by
  obtain ⟨hfinal, hout⟩ := blocker_toss (c := c) blank h
  have hstep : (blocker c blank nl).step .tossing nl = (.filling [], []) :=
    Prod.ext (if_pos rfl) rfl
  rw [Transducer.final_append, Transducer.out_append, hfinal, hout, Transducer.final_cons,
    Transducer.out_cons, hstep]
  exact ⟨rfl, rfl⟩

/-- Reading a line that does not end. -/
theorem blocker_fill (hc : 0 < c) (h : nl ∉ w) :
    (blocker c blank nl).final (.filling []) w = (if w.length < c then .filling w else .tossing) ∧
      (blocker c blank nl).out (.filling []) w = if w.length < c then [] else w.take c := by
  induction w using List.reverseRecOn with
  | nil =>
    rw [List.length_nil, if_pos hc, if_pos hc]
    exact ⟨rfl, rfl⟩
  | append_singleton w x ih =>
    have hw : nl ∉ w := fun hw => h (List.mem_append_left _ hw)
    have hx : x ≠ nl := by
      rintro rfl
      exact h (List.mem_append_right _ (List.mem_singleton_self x))
    obtain ⟨hfinal, hout⟩ := ih hw
    rw [Transducer.final_snoc, Transducer.out_snoc, hfinal, hout, List.length_append,
      List.length_singleton]
    by_cases hlt : w.length < c
    · rw [if_pos hlt, if_pos hlt]
      show (BlockState.step c blank nl (.filling w) x).1 = _ ∧
        [] ++ (BlockState.step c blank nl (.filling w) x).2 = _
      rw [BlockState.step, if_neg hx, List.nil_append]
      by_cases hfull : w.length + 1 = c
      · have htake : (w ++ [x]).take c = w ++ [x] := by
          rw [List.take_of_length_le]
          rw [List.length_append, List.length_singleton]
          omega
        rw [if_pos hfull, if_neg (by omega), if_neg (by omega), htake]
        exact ⟨rfl, rfl⟩
      · rw [if_neg hfull, if_pos (by omega), if_pos (by omega)]
        exact ⟨rfl, rfl⟩
    · rw [if_neg hlt, if_neg hlt, if_neg (by omega), if_neg (by omega),
        List.take_append_of_le_length (Nat.not_lt.mp hlt)]
      exact ⟨if_neg hx, List.append_nil _⟩

theorem blocker_line (hc : 0 < c) (h : nl ∉ w) (xs : List α) :
    (blocker c blank nl).final (.filling []) (w ++ nl :: xs) =
        (blocker c blank nl).final (.filling []) xs ∧
      (blocker c blank nl).out (.filling []) (w ++ nl :: xs) =
        fit c blank w ++ (blocker c blank nl).out (.filling []) xs := by
  obtain ⟨hfinal, hout⟩ := blocker_fill blank hc h
  by_cases hlt : w.length < c
  · rw [if_pos hlt] at hfinal hout
    have hstep : (blocker c blank nl).step (.filling w) nl = (.filling [], fit c blank w) :=
      if_pos rfl
    rw [Transducer.final_append, Transducer.out_append, hfinal, hout, Transducer.final_cons,
      Transducer.out_cons, hstep]
    exact ⟨rfl, rfl⟩
  · obtain ⟨hfinal', hout'⟩ := blocker_toss_line (c := c) blank
      (List.not_mem_nil (a := nl)) xs
    rw [if_neg hlt] at hfinal hout
    rw [Transducer.final_append, Transducer.out_append, hfinal, hout, fit_of_le (Nat.not_lt.mp hlt)]
    exact ⟨hfinal', congrArg (w.take c ++ ·) hout'⟩

/-- Line by line it comes to the same. -/
theorem blocker_eq_blocked (hc : 0 < c) (xs : List α) :
    (blocker c blank nl).out (.filling []) xs ++
      ((blocker c blank nl).final (.filling []) xs).rest c blank = blocked c blank nl xs := by
  induction xs using Lines.induction nl with
  | unterminated w hw =>
    obtain ⟨hfinal, hout⟩ := blocker_fill blank hc hw
    rw [hfinal, hout, blocked_of_not_mem hw]
    by_cases hlt : w.length < c
    · rw [if_pos hlt, if_pos hlt]
      rfl
    · have hne : w ≠ [] := by
        rintro rfl
        exact hlt hc
      rw [if_neg hlt, if_neg hlt, if_neg hne, fit_of_le (Nat.not_lt.mp hlt)]
      exact List.append_nil _
  | line w xs hw ih =>
    obtain ⟨hfinal, hout⟩ := blocker_line blank hc hw xs
    rw [hfinal, hout, List.append_assoc, ih, blocked_append hw]

/-! ## Record by record -/

def unblockStep (c : Nat) (blank nl : α) (part : List α) (x : α) : List α × List α :=
  if part.length + 1 = c then ([], strip blank (part ++ [x]) ++ [nl]) else (part ++ [x], [])

def unblocker (c : Nat) (blank nl : α) : Transducer (List α) α α := ⟨unblockStep c blank nl⟩

/-- What is owed at the end. -/
def unblockRest (blank nl : α) (part : List α) : List α :=
  if part = [] then [] else strip blank part ++ [nl]

variable (nl)

theorem unblocker_fill (hw : w.length < c) :
    (unblocker c blank nl).final [] w = w ∧ (unblocker c blank nl).out [] w = [] := by
  induction w using List.reverseRecOn with
  | nil => exact ⟨rfl, rfl⟩
  | append_singleton w x ih =>
    rw [List.length_append, List.length_singleton] at hw
    obtain ⟨hfinal, hout⟩ := ih (by omega)
    have hstep : (unblocker c blank nl).step w x = (w ++ [x], []) := if_neg (by omega)
    rw [Transducer.final_snoc, Transducer.out_snoc, hfinal, hout, hstep]
    exact ⟨rfl, rfl⟩

theorem unblocker_record (hc : 0 < c) (hl : l.length = c) (xs : List α) :
    (unblocker c blank nl).final [] (l ++ xs) = (unblocker c blank nl).final [] xs ∧
      (unblocker c blank nl).out [] (l ++ xs) =
        strip blank l ++ [nl] ++ (unblocker c blank nl).out [] xs := by
  have hne : l ≠ [] := by
    rintro rfl
    exact absurd (hl.symm.trans List.length_nil) (Nat.ne_of_gt hc)
  obtain ⟨w, x, rfl⟩ := List.eq_nil_or_concat l |>.resolve_left hne
  rw [List.concat_eq_append, List.length_append, List.length_singleton] at *
  obtain ⟨hfinal, hout⟩ := unblocker_fill blank nl (by omega : w.length < c)
  have hstep : (unblocker c blank nl).step w x = ([], strip blank (w ++ [x]) ++ [nl]) := if_pos hl
  rw [Transducer.final_append, Transducer.out_append, Transducer.final_snoc, Transducer.out_snoc,
    hfinal, hout, hstep]
  exact ⟨rfl, rfl⟩

/-- Less than a record is in hand. -/
theorem length_unblocker (hc : 0 < c) (xs : List α) :
    ((unblocker c blank nl).final [] xs).length < c := by
  refine (unblocker c blank nl).final_invariant (P := (·.length < c)) (fun part x h => ?_) hc
  show (unblockStep c blank nl part x).1.length < c
  rw [unblockStep]
  split
  case isTrue => exact hc
  case isFalse =>
    rw [List.length_append, List.length_singleton]
    omega

theorem length_unblockRest_le (part : List α) :
    (unblockRest blank nl part).length ≤ part.length + 1 := by
  rw [unblockRest]
  split
  case isTrue => exact Nat.zero_le _
  case isFalse =>
    rw [List.length_append, List.length_singleton]
    exact Nat.succ_le_succ (List.rdropWhile_prefix _ part).length_le

theorem unblocked_append (hc : 0 < c) (hl : l.length = c) (xs : List α) :
    unblocked c blank nl (l ++ xs) = strip blank l ++ [nl] ++ unblocked c blank nl xs := by
  rw [unblocked, cut_append hc hl, List.flatMap_cons, unblocked]

theorem unblocker_eq_unblocked (hc : 0 < c) (xs : List α) :
    (unblocker c blank nl).out [] xs ++ unblockRest blank nl ((unblocker c blank nl).final [] xs) =
      unblocked c blank nl xs := by
  induction xs using cut_induction hc with
  | short w hw =>
    obtain ⟨hfinal, hout⟩ := unblocker_fill blank nl hw
    rw [hfinal, hout, unblocked, cut_of_le (Nat.le_of_lt hw), unblockRest]
    split
    · rfl
    · rw [List.flatMap_singleton]
      rfl
  | piece l xs hl ih =>
    obtain ⟨hfinal, hout⟩ := unblocker_record blank nl hc hl xs
    rw [hfinal, hout, List.append_assoc, ih, unblocked_append blank nl hc hl]

/-! ## One after the other -/

variable {blank nl}

theorem strip_concat_blank (l : List α) : strip blank (l ++ [blank]) = strip blank l :=
  List.rdropWhile_concat_pos _ l blank (decide_eq_true rfl)

theorem strip_concat {x : α} (hx : x ≠ blank) (l : List α) : strip blank (l ++ [x]) = l ++ [x] :=
  List.rdropWhile_concat_neg _ l x fun h => hx (of_decide_eq_true h)

theorem strip_prefix_self (blank : α) (r : List α) : strip blank r <+: r :=
  List.rdropWhile_prefix _ r

end Records
