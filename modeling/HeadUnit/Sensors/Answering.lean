import HeadUnit.Sensors.MagEvents

/-!
# Answering with little room

`Pending.answerAll` is the `for` loop of an `EV_SYN` with room for everything. The loop as it is does
the same, or it stops for want of room and `answerAll` completes it (`Pending.answerLoop_spec`).
-/

namespace HeadUnit.Sensors

variable {D : Type}

namespace Pending

variable {mEnabled : Fin 2 → Int} {time : Int}

/-- The `for` loop with room for everything. -/
def answerAll (mEnabled : Fin 2 → Int) (time : Int) :
    List (Fin 2) → Pending D → Pending D × List (SensorsEvent D)
  | [], p => (p, [])
  | i :: is, p =>
    let (p, event) := p.answer mEnabled time i
    let (p, events) := answerAll mEnabled time is p
    (p, event ++ events)

variable {p : Pending D}

theorem answer_skip {i : Fin 2} (hi : p.mPendingMask i = false) :
    p.answer mEnabled time i = (p, []) := by
  rw [answer, hi]
  rfl

theorem answer_mask (mEnabled : Fin 2 → Int) (time : Int) (p : Pending D) (i j : Fin 2) :
    (p.answer mEnabled time i).1.mPendingMask j = if j = i then false else p.mPendingMask j := by
  unfold answer
  split
  case isTrue => exact Function.update_apply ..
  case isFalse hi =>
    split
    case isTrue hj => exact hj ▸ Bool.eq_false_iff.mpr hi
    case isFalse => rfl

/-- Answering stamps the events and changes nothing else. -/
theorem answer_event (mEnabled : Fin 2 → Int) (time : Int) (p : Pending D) (i j : Fin 2)
    (time' : Int) : { (p.answer mEnabled time i).1.mPendingEvent j with timestamp := time' } =
      { p.mPendingEvent j with timestamp := time' } := by
  unfold answer
  split
  case isTrue =>
    dsimp only
    rw [Function.update_apply]
    split
    case isTrue hji => rw [hji]
    case isFalse => rfl
  case isFalse => rfl

theorem answer_out (mEnabled : Fin 2 → Int) (time : Int) (p : Pending D) (i : Fin 2) :
    (p.answer mEnabled time i).2 = if p.mPendingMask i = true ∧ mEnabled i ≠ 0 then
      [{ p.mPendingEvent i with timestamp := time }] else [] := by
  unfold answer
  split
  case isTrue hi =>
    refine if_congr ?_ rfl rfl
    exact (and_iff_right hi).symm
  case isFalse hi => exact (if_neg fun h => hi h.1).symm

/-- Sensors that are not pending are passed over. -/
theorem answerAll_append {is : List (Fin 2)} (his : ∀ i ∈ is, p.mPendingMask i = false)
    (js : List (Fin 2)) :
    answerAll mEnabled time (is ++ js) p = answerAll mEnabled time js p := by
  induction is with
  | nil => rfl
  | cons i is ih =>
    rw [List.cons_append, answerAll, answer_skip (his i List.mem_cons_self)]
    exact ih fun j hj => his j (.tail i hj)

theorem answerAll_skip {is : List (Fin 2)} (his : ∀ i ∈ is, p.mPendingMask i = false) :
    answerAll mEnabled time is p = (p, []) := by
  have happend : answerAll mEnabled time (is ++ []) p = (p, []) := answerAll_append his []
  rwa [List.append_nil] at happend

theorem clear_iff : p.clear = true ↔ ∀ i, p.mPendingMask i = false := by
  rw [clear, decide_eq_true_eq]
  constructor
  · rintro ⟨hmag, horn⟩ i
    match i with
    | 0 => exact hmag
    | 1 => exact horn
  · exact fun h => ⟨h _, h _⟩

/-- With the sensors before `is` answered, the `for` loop goes through all of `is`, or it stops for
want of room and what is left is what a fresh loop would deliver. -/
theorem answerLoop_spec (mEnabled : Fin 2 → Int) (time : Int) (is : List (Fin 2))
    {done : List (Fin 2)} (count : Nat)
    (hdone : ∀ i ∈ done, p.mPendingMask i = false) (hall : ∀ i, i ∈ done ++ is) :
    ∃ p' count' events, answerLoop mEnabled time is p count = (p', count', events) ∧
      (p'.clear = true ∧ answerAll mEnabled time is p = (p', events) ∨
        p'.clear = false ∧ count' = 0 ∧ ∃ t more, answerAll mEnabled time is p = (t, events ++ more) ∧
          answerAll mEnabled time (done ++ is) p' = (t, more)) := by
  induction is generalizing p done count with
  | nil =>
    refine ⟨p, count, [], rfl, .inl ⟨clear_iff.mpr fun i => hdone i ?_, rfl⟩⟩
    have hi := hall i
    rwa [List.append_nil] at hi
  | cons i is ih =>
    by_cases hclear : p.clear = true
    · refine ⟨p, count, [], if_pos (.inl hclear), .inl ⟨hclear, ?_⟩⟩
      exact answerAll_skip fun j _ => clear_iff.mp hclear j
    have hclear' := Bool.eq_false_iff.mpr hclear
    by_cases hcount : count = 0
    · refine ⟨p, count, [], if_pos (.inr hcount), .inr ⟨hclear', hcount, _, _, rfl, ?_⟩⟩
      exact answerAll_append hdone (i :: is)
    have hmask := answer_mask mEnabled time p i
    have hdone' : ∀ j ∈ done ++ [i], (p.answer mEnabled time i).1.mPendingMask j = false := by
      intro j hj
      rw [hmask]
      split
      case isTrue => rfl
      case isFalse hne =>
        exact hdone j ((List.mem_append.mp hj).resolve_right fun hji => hne (List.mem_singleton.mp hji))
    have hassoc : done ++ [i] ++ is = done ++ i :: is := by rw [List.append_assoc]; rfl
    obtain ⟨p', count', events, hloop, hrest⟩ := ih (p := (p.answer mEnabled time i).1)
      (count - (p.answer mEnabled time i).2.length) hdone' (hassoc ▸ hall)
    refine ⟨p', count', (p.answer mEnabled time i).2 ++ events, ?_, ?_⟩
    · rw [answerLoop, if_neg (not_or.mpr ⟨hclear, hcount⟩)]
      dsimp only
      rw [hloop]
    · rw [answerAll]
      dsimp only
      rcases hrest with ⟨hp', hrest⟩ | ⟨hp', hcount', t, more, hrest, hmore⟩
      · exact .inl ⟨hp', by rw [hrest]⟩
      · refine .inr ⟨hp', hcount', t, more, ?_, hassoc ▸ hmore⟩
        rw [hrest, List.append_assoc]

/-- The loop uses up as much room as it delivers events. -/
theorem answerLoop_length (mEnabled : Fin 2 → Int) (time : Int) (is : List (Fin 2))
    (p : Pending D) (count : Nat) :
    (answerLoop mEnabled time is p count).2.2.length +
      (answerLoop mEnabled time is p count).2.1 = count := by
  induction is generalizing p count with
  | nil => exact Nat.zero_add count
  | cons i is ih =>
    rw [answerLoop]
    split
    case isTrue => exact Nat.zero_add count
    case isFalse hstop =>
      have hpos := Nat.pos_of_ne_zero (not_or.mp hstop).2
      have hone : (p.answer mEnabled time i).2.length ≤ 1 := by
        rw [answer_out]
        split
        · exact Nat.le_refl 1
        · exact Nat.zero_le 1
      have hle := Nat.le_trans hone hpos
      have hrest := ih (p.answer mEnabled time i).1 (count - (p.answer mEnabled time i).2.length)
      dsimp only
      rw [List.length_append, Nat.add_assoc, hrest]
      exact Nat.add_sub_of_le hle

end Pending

end HeadUnit.Sensors
