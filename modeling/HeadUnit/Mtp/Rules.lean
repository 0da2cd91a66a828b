import HeadUnit.Mtp.Convert

/-!
# Rules files

What is expected of the conversion: the lines of a rules file, and the entry for each rule with
both a vendor and a product.
-/

namespace HeadUnit.Mtp

/-- `ATTR` -/
def attr : List UInt8 := [0x41, 0x54, 0x54, 0x52]

/-- `ATTR{name}=="value"` -/
def attrMatch (name value : List UInt8) : List UInt8 :=
  attr ++ 0x7B :: (name ++ 0x7D :: (flag ++ 0x22 :: (value ++ [0x22])))

/-- A value: not empty, without quotes, in one line. -/
structure IsValue (value : List UInt8) : Prop where
  ne_nil : value ≠ []
  quote : 0x22 ∉ value
  newline : 0x0A ∉ value

/-- A rule for a device; `rest` are the assignments. -/
structure Rule where
  vendor : List UInt8
  product : List UInt8
  rest : List UInt8
  vendor_value : IsValue vendor
  product_value : IsValue product
  newline : 0x0A ∉ rest
  no_vendor : ¬idVendor <:+: rest
  no_product : ¬idProduct <:+: rest

/-- `ATTR{idVendor}=="v", ATTR{idProduct}=="p"` -/
def Rule.head (r : Rule) : List UInt8 :=
  attrMatch idVendor r.vendor ++ 0x2C :: 0x20 :: attrMatch idProduct r.product

def Rule.text (r : Rule) : List UInt8 := r.head ++ r.rest

/-- The lines that a rules file may have. A blank line is plain. -/
inductive Line where
  | comment (text : List UInt8) (newline : 0x0A ∉ text)
  | plain (text : List UInt8) (newline : 0x0A ∉ text)
    (lacks : ¬(idVendor <:+: text ∧ idProduct <:+: text))
  | rule (r : Rule)

def Line.text : Line → List UInt8
  | .comment text _ => 0x23 :: text
  | .plain text _ _ => text
  | .rule r => r.text

/-- A line of the table. -/
def entry (vendor product : List UInt8) : List UInt8 :=
  idVendor ++ [0x3A] ++ vendor ++ [0x2C] ++ (idProduct ++ [0x3A]) ++ product ++ [0x0A]

/-- What is to be written for a line. -/
def Line.expected : Line → List UInt8
  | .rule r => entry r.vendor r.product
  | _ => []

/-- The lines that a newline closes, and what stands behind the last one. -/
structure RulesFile where
  lines : List Line
  last : Line

namespace RulesFile

/-- Each line with its text in the file. -/
def segments (f : RulesFile) : List (Line × List UInt8) :=
  f.lines.map (fun l => (l, l.text ++ [0x0A])) ++ [(f.last, f.last.text)]

def bytes (f : RulesFile) : List UInt8 := f.segments.flatMap Prod.snd

def expected (f : RulesFile) : List UInt8 := f.segments.flatMap fun s => s.1.expected

end RulesFile

/-! ## Pieces of a line -/

/-- A text in pieces of 255 characters. -/
def cut (text : List UInt8) : List (List UInt8) :=
  if text.length ≤ 255 then [text] else text.take 255 :: cut (text.drop 255)
termination_by text.length
decreasing_by
  rw [List.length_drop]
  omega

theorem cut_eq_cons (text : List UInt8) :
    ∃ qs, cut text = text.take 255 :: qs ∧ ∀ q ∈ qs, q.length ≤ 255 ∧ q <:+: text.drop 255 := by
  fun_induction cut text with
  | case1 text h => exact ⟨[], by rw [List.take_of_length_le h], nofun⟩
  | case2 text h ih =>
    obtain ⟨qs, hcut, hqs⟩ := ih
    refine ⟨_, rfl, fun q hq => ?_⟩
    rw [hcut] at hq
    rcases List.mem_cons.mp hq with rfl | hq
    · exact ⟨List.length_take_le 255 _, (List.take_prefix 255 _).isInfix⟩
    · exact ⟨(hqs q hq).1, (hqs q hq).2.trans (List.drop_suffix 255 _).isInfix⟩

theorem cut_length_le {text q : List UInt8} (h : q ∈ cut text) :
    q.length ≤ 255 ∧ q <:+: text := by
  obtain ⟨qs, hcut, hqs⟩ := cut_eq_cons text
  rw [hcut] at h
  rcases List.mem_cons.mp h with rfl | h
  · exact ⟨List.length_take_le 255 _, (List.take_prefix 255 _).isInfix⟩
  · exact ⟨(hqs q h).1, (hqs q h).2.trans (List.drop_suffix 255 _).isInfix⟩

/-- A closed line is read in its pieces. -/
theorem pieces_line {w : List UInt8} (h : 0x0A ∉ w) (rest : List UInt8) :
    pieces (w ++ 0x0A :: rest) = cut (w ++ [0x0A]) ++ pieces rest := by
  induction hn : w.length using Nat.strong_induction_on generalizing w with
  | _ n ih =>
    subst hn
    rcases Nat.lt_or_ge w.length 255 with hlt | hge
    · have hcut : cut (w ++ [0x0A]) = [w ++ [0x0A]] := by
        rw [cut, if_pos (by simpa using Nat.succ_le_of_lt hlt)]
      rw [pieces, (Mcu.fgets_line h hlt).1, dif_pos rfl, hcut]
      rfl
    · have htake : (w.take 255).length = 255 := List.length_take_of_le hge
      have hsplit : w = w.take 255 ++ w.drop 255 := (List.take_append_drop 255 w).symm
      have hfull := Mcu.fgets_full (w := w.take 255) (fun hm => h (List.mem_of_mem_take hm))
        (w.drop 255 ++ 0x0A :: rest)
      rw [htake, ← List.append_assoc, ← hsplit] at hfull
      have hrest := ih (w.drop 255).length (by rw [List.length_drop]; omega)
        (fun hm => h (List.mem_of_mem_drop hm)) rfl
      have hcut : cut (w ++ [0x0A]) = w.take 255 :: cut (w.drop 255 ++ [0x0A]) := by
        rw [cut, if_neg (by simp; omega), List.take_append_of_le_length hge,
          List.drop_append_of_le_length hge]
      rw [pieces, hfull, dif_pos rfl, hrest, hcut]
      rfl

/-- The text behind the last newline is read in its pieces, and nothing once more if the last one is
full. -/
theorem pieces_last {w : List UInt8} (h : 0x0A ∉ w) :
    pieces w = cut w ∨ pieces w = cut w ++ [[]] := by
  induction hn : w.length using Nat.strong_induction_on generalizing w with
  | _ n ih =>
    subst hn
    rcases Nat.lt_or_ge w.length 255 with hlt | hge
    · have hcut : cut w = [w] := by rw [cut, if_pos (Nat.le_of_lt hlt)]
      rw [pieces, (Mcu.fgets_line h hlt).2, dif_neg Bool.noConfusion, hcut]
      exact .inl rfl
    · have htake : (w.take 255).length = 255 := List.length_take_of_le hge
      have hfull := Mcu.fgets_full (w := w.take 255) (fun hm => h (List.mem_of_mem_take hm))
        (w.drop 255)
      rw [htake, List.take_append_drop] at hfull
      rw [pieces, hfull, dif_pos rfl]
      rcases Nat.eq_or_lt_of_le hge with heq | hlt
      · have hnil : w.drop 255 = [] := List.drop_of_length_le (Nat.le_of_eq heq.symm)
        have hend : pieces [] = [[]] := by
          rw [pieces]
          rfl
        rw [cut, if_pos (Nat.le_of_eq heq.symm), hnil, hend,
          List.take_of_length_le (Nat.le_of_eq heq.symm)]
        exact .inr rfl
      · have hrest := ih (w.drop 255).length (by rw [List.length_drop]; omega)
          (fun hm => h (List.mem_of_mem_drop hm)) rfl
        rw [cut, if_neg (Nat.not_le.mpr hlt)]
        rcases hrest with hrest | hrest
        · exact .inl (congrArg _ hrest)
        · exact .inr (congrArg _ hrest)

end HeadUnit.Mtp
