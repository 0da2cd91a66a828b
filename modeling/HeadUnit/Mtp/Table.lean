import HeadUnit.Mtp.Rules

/-!
# The MTP table

A piece of a line is taken for a rule if both names stand in it (`Taken`), and its entry has four
characters of each value or fewer. So the table is exact if and only if the values of all rules are
four characters long and no piece behind the first one of a comment is taken.
-/

namespace HeadUnit.Mtp

open Mem (strstr strcat strncat)

variable {piece out name value hay dst : List UInt8}

/-- A piece that the loop body writes an entry for. -/
def Taken (piece : List UInt8) : Prop :=
  ¬(piece.headD 0 = 0x23 ∨ Mcu.IsEol (piece.headD 0)) ∧
    idVendor <:+: piece.takeWhile (· ≠ 0) ∧ idProduct <:+: piece.takeWhile (· ≠ 0)

/-- The text of an entry as it is written: at most four characters a value. -/
def IsEntry (out : List UInt8) : Prop :=
  ∃ v p : List UInt8, (v.length ≤ 4 ∧ 0 ∉ v) ∧ (p.length ≤ 4 ∧ 0 ∉ p) ∧ out = entry v p

/-! ## Pieces -/

theorem names_ne_nil : idVendor ≠ [] ∧ idProduct ≠ [] ∧ flag ≠ [] := by decide

theorem readBuf_eq (h : piece.length ≤ 255) :
    readBuf piece = piece ++ 0 :: List.replicate (255 - piece.length) 0 := by
  have hsucc : 256 - piece.length = 255 - piece.length + 1 := by omega
  rw [readBuf, hsucc, List.replicate_succ]

theorem readBuf_length (h : piece.length ≤ 255) : (readBuf piece).length = 256 := by
  rw [readBuf, List.length_append, List.length_replicate]
  omega

theorem load_readBuf (h : piece.length ≤ 255) :
    Mem.load (readBuf piece) 0 = .ok (piece.headD 0) := by
  rw [readBuf_eq h]
  cases piece with
  | nil => exact Mem.load_eq_ok (Nat.succ_pos _)
  | cons c piece => exact Mem.load_eq_ok (Nat.succ_pos _)

/-- What the searches in a piece find. -/
theorem strstr_readBuf (h : piece.length ≤ 255) (hne : name ≠ []) (h0 : 0 ∉ name) :
    (name <:+: piece.takeWhile (· ≠ 0) ∧ ∃ data, strstr name (readBuf piece) = .ok (some data)) ∨
      (¬name <:+: piece.takeWhile (· ≠ 0) ∧ strstr name (readBuf piece) = .ok none) := by
  rw [readBuf_eq h]
  obtain ⟨hu, tail, htail⟩ :=
    Mem.isString_append piece (List.replicate (255 - piece.length) 0)
  rw [htail]
  by_cases hin : name <:+: piece.takeWhile (· ≠ 0)
  · obtain ⟨v, -, hfound⟩ := Mem.strstr_present hu hin hne
    exact .inl ⟨hin, v ++ 0 :: tail, hfound⟩
  · exact .inr ⟨hin, Mem.strstr_absent hne h0 hu hin⟩

theorem convertPiece_skipped (h : piece.length ≤ 255) (hnot : ¬Taken piece) :
    convertPiece piece = .ok [] := by
  rw [convertPiece, load_readBuf h, Except.ok_bind]
  split
  · rfl
  rename_i hfirst
  rcases strstr_readBuf h names_ne_nil.1 (by decide) with ⟨hvendor, data, hdata⟩ | ⟨-, hdata⟩
  · rcases strstr_readBuf h names_ne_nil.2.1 (by decide) with ⟨hproduct, -⟩ | ⟨-, hdata'⟩
    · exact absurd ⟨hfirst, hvendor, hproduct⟩ hnot
    · rw [hdata, Except.ok_bind, hdata', Except.ok_bind]
      rfl
  · rw [hdata]
    rfl

theorem convertPiece_taken (h : piece.length ≤ 255) (htaken : Taken piece) :
    convertPiece piece = writeEntry (readBuf piece) := by
  obtain ⟨hfirst, hvendor, hproduct⟩ := htaken
  rw [convertPiece, load_readBuf h, Except.ok_bind, if_neg hfirst]
  rcases strstr_readBuf h names_ne_nil.1 (by decide) with ⟨-, data, hdata⟩ | ⟨hnot, -⟩
  · rcases strstr_readBuf h names_ne_nil.2.1 (by decide) with ⟨-, data', hdata'⟩ | ⟨hnot, -⟩
    · rw [hdata, Except.ok_bind, hdata', Except.ok_bind]
    · exact absurd hproduct hnot
  · exact absurd hvendor hnot

theorem appendField_ok (h : appendField hay name dst = .ok out) :
    ∃ s, out = dst ++ s ∧ s.length ≤ 4 ∧ 0 ∉ s := by
  obtain ⟨data, -, h⟩ := Except.bind_eq_ok_iff.mp h
  obtain ⟨data', -, h⟩ := Except.bind_eq_ok_iff.mp h
  exact Mem.strncat_ok h

/-- Whatever a piece is, what is written for it is an entry. -/
theorem writeEntry_ok (h : writeEntry hay = .ok out) : IsEntry out := by
  obtain ⟨dst, hname, h⟩ := Except.bind_eq_ok_iff.mp h
  obtain ⟨dst, hvendor, h⟩ := Except.bind_eq_ok_iff.mp h
  obtain ⟨dst, hcomma, h⟩ := Except.bind_eq_ok_iff.mp h
  obtain ⟨dst, hname', h⟩ := Except.bind_eq_ok_iff.mp h
  obtain ⟨dst, hproduct, h⟩ := Except.bind_eq_ok_iff.mp h
  obtain rfl := Mem.strcat_ok hname
  obtain ⟨v, rfl, hv, hv0⟩ := appendField_ok hvendor
  obtain rfl := Mem.strcat_ok hcomma
  obtain rfl := Mem.strcat_ok hname'
  obtain ⟨p, rfl, hp, hp0⟩ := appendField_ok hproduct
  exact ⟨v, p, ⟨hv, hv0⟩, ⟨hp, hp0⟩, Mem.strcat_ok h⟩

theorem convertPiece_ok (hlen : piece.length ≤ 255) (h : convertPiece piece = .ok out) :
    (¬Taken piece ∧ out = []) ∨ (Taken piece ∧ IsEntry out) := by
  by_cases htaken : Taken piece
  · rw [convertPiece_taken hlen htaken] at h
    exact .inr ⟨htaken, writeEntry_ok h⟩
  · rw [convertPiece_skipped hlen htaken] at h
    cases h
    exact .inl ⟨htaken, rfl⟩

/-! ## The piece with a rule -/

section Rule

variable {tail v p : List UInt8}

theorem attrMatch_append (name value tail : List UInt8) :
    attrMatch name value ++ tail =
      attr ++ 0x7B :: (name ++ 0x7D :: (flag ++ 0x22 :: (value ++ 0x22 :: tail))) := by
  simp only [attrMatch, List.append_assoc, List.cons_append, List.nil_append]

/-- A name that a match begins with is found there. -/
theorem strstr_attrMatch (value tail : List UInt8) (hne : name ≠ []) (hbrace : 0x7B ∉ name)
    (hattr : ¬name <:+: attr) :
    strstr name (attrMatch name value ++ tail) =
      .ok (some (name ++ 0x7D :: (flag ++ 0x22 :: (value ++ 0x22 :: tail)))) := by
  rw [attrMatch_append, Mem.strstr_skip hne hbrace (by decide) (by decide) hattr]
  exact Mem.strstr_prefix hne (List.prefix_append _ _)

/-- The second name of a rule is found behind the value of the first one. -/
theorem strstr_idProduct (p tail : List UInt8) (hv : 0 ∉ v) (hlen : v.length ≤ 8) :
    strstr idProduct (attrMatch idVendor v ++ 0x2C :: 0x20 :: (attrMatch idProduct p ++ tail)) =
      .ok (some (idProduct ++ 0x7D :: (flag ++ 0x22 :: (p ++ 0x22 :: tail)))) := by
  have hvendor : attr ++ 0x7B :: (idVendor ++ 0x7D :: (flag ++ 0x22 :: (v ++
      0x22 :: 0x2C :: 0x20 :: (attrMatch idProduct p ++ tail)))) =
        (attr ++ 0x7B :: (idVendor ++ 0x7D :: flag)) ++ 0x22 :: (v ++
          0x22 :: 0x2C :: 0x20 :: (attrMatch idProduct p ++ tail)) := rfl
  have hproduct : (0x2C : UInt8) :: 0x20 :: (attrMatch idProduct p ++ tail) =
      (0x2C :: 0x20 :: attr) ++ 0x7B :: (idProduct ++ 0x7D :: (flag ++ 0x22 :: (p ++ 0x22 :: tail))) := by
    rw [attrMatch_append]
    rfl
  have hnot : ¬idProduct <:+: v := fun hin => absurd hin.length_le (Nat.not_le.mpr (by
    have : idProduct.length = 9 := rfl
    omega))
  rw [attrMatch_append, hvendor,
    Mem.strstr_skip names_ne_nil.2.1 (by decide) (by decide) (by decide) (by decide),
    Mem.strstr_skip names_ne_nil.2.1 (by decide) (by decide) hv hnot, hproduct,
    Mem.strstr_skip names_ne_nil.2.1 (by decide) (by decide) (by decide) (by decide)]
  exact Mem.strstr_prefix names_ne_nil.2.1 (List.prefix_append _ _)

/-- The four characters behind the flag and the quote. -/
theorem appendField_eq (hfound : strstr name hay =
      .ok (some (name ++ 0x7D :: (flag ++ 0x22 :: (value ++ 0x22 :: tail)))))
    (hname : 0 ∉ name ∧ ¬flag <:+: name) (htail : 4 ≤ tail.length) (hroom : dst.length < 252) :
    appendField hay name dst =
      .ok (dst ++ ((value ++ 0x22 :: tail).take 4).takeWhile (· ≠ 0)) := by
  have hflag : strstr flag (name ++ 0x7D :: (flag ++ 0x22 :: (value ++ 0x22 :: tail))) =
      .ok (some (flag ++ 0x22 :: (value ++ 0x22 :: tail))) := by
    rw [Mem.strstr_skip names_ne_nil.2.2 (by decide) (by decide) hname.1 hname.2]
    exact Mem.strstr_prefix names_ne_nil.2.2 (List.prefix_append _ _)
  rw [appendField, hfound, Except.ok_bind, Option.getD_some, hflag, Except.ok_bind]
  refine Mem.strncat_eq_ok rfl ?_ (by omega)
  show 4 ≤ (value ++ 0x22 :: tail).length
  rw [List.length_append, List.length_cons]
  omega

theorem field_length_le (s : List UInt8) : ((s.take 4).takeWhile (· ≠ 0)).length ≤ 4 :=
  Nat.le_trans (List.takeWhile_prefix _).length_le (List.length_take_le 4 s)

theorem writeEntry_eq (hv : v.length ≤ 4) (hp : p.length ≤ 4)
    (hvendor : ∀ dst : List UInt8, dst.length < 252 →
      appendField hay idVendor dst = .ok (dst ++ v))
    (hproduct : ∀ dst : List UInt8, dst.length < 252 →
      appendField hay idProduct dst = .ok (dst ++ p)) : writeEntry hay = .ok (entry v p) := by
  have hcomma : ([] ++ (idVendor ++ [0x3A]) ++ v).length + [(0x2C : UInt8)].length < 256 := by
    simp only [idVendor, List.length_append, List.length_cons, List.length_nil]
    omega
  have hname : ([] ++ (idVendor ++ [0x3A]) ++ v ++ [0x2C]).length + (idProduct ++ [0x3A]).length <
      250 := by
    simp only [idVendor, idProduct, List.length_append, List.length_cons, List.length_nil]
    omega
  rw [writeEntry, Mem.strcat_eq_ok (by decide), Except.ok_bind, hvendor _ (by decide),
    Except.ok_bind, Mem.strcat_eq_ok hcomma, Except.ok_bind, Mem.strcat_eq_ok (by omega),
    Except.ok_bind, hproduct _ (by rw [List.length_append]; omega), Except.ok_bind]
  refine Mem.strcat_eq_ok ?_
  rw [List.length_append, List.length_append, List.length_singleton]
  omega

theorem Rule.head_length (r : Rule) :
    r.head.length = 39 + r.vendor.length + r.product.length := by
  simp only [Rule.head, attrMatch, attr, flag, idVendor, idProduct, List.length_append,
    List.length_cons, List.length_nil]
  omega

/-- The piece in which a rule with short values begins. -/
theorem readBuf_rule (r : Rule) (hlen : r.vendor.length + r.product.length ≤ 8)
    (rest : List UInt8) :
    ∃ tail, 4 ≤ tail.length ∧ readBuf ((r.head ++ rest).take 255) =
      attrMatch idVendor r.vendor ++ 0x2C :: 0x20 :: (attrMatch idProduct r.product ++ tail) := by
  have hhead := r.head_length
  have hpiece : ((r.head ++ rest).take 255).length ≤ 255 := List.length_take_le 255 _
  have hsize := readBuf_length hpiece
  have htake : (r.head ++ rest).take 255 = r.head ++ rest.take (255 - r.head.length) := by
    rw [List.take_append, List.take_of_length_le (by omega)]
  rw [readBuf, htake, List.append_assoc] at hsize
  rw [readBuf, htake, List.append_assoc]
  generalize rest.take (255 - r.head.length) ++ _ = tail at hsize
  rw [List.length_append] at hsize
  refine ⟨tail, by omega, ?_⟩
  rw [Rule.head, List.append_assoc]
  rfl

/-- What is written for it. -/
theorem convertPiece_rule (r : Rule) (hlen : r.vendor.length + r.product.length ≤ 8)
    (hv : 0 ∉ r.vendor) (rest : List UInt8) :
    ∃ x y, convertPiece ((r.head ++ rest).take 255) =
      .ok (entry (((r.vendor ++ 0x22 :: x).take 4).takeWhile (· ≠ 0))
        (((r.product ++ 0x22 :: y).take 4).takeWhile (· ≠ 0))) := by
  obtain ⟨tail, htail, hbuf⟩ := readBuf_rule r hlen rest
  have hload : Mem.load (attrMatch idVendor r.vendor ++
      0x2C :: 0x20 :: (attrMatch idProduct r.product ++ tail)) 0 = .ok 0x41 :=
    Mem.load_eq_ok (Nat.succ_pos _)
  have hvendor := strstr_attrMatch r.vendor (0x2C :: 0x20 :: (attrMatch idProduct r.product ++ tail))
    names_ne_nil.1 (by decide) (by decide)
  have hproduct := strstr_idProduct r.product tail hv (by omega)
  have hlong : 4 ≤ ((0x2C : UInt8) :: 0x20 :: (attrMatch idProduct r.product ++ tail)).length := by
    simp only [List.length_cons, List.length_append]
    omega
  refine ⟨0x2C :: 0x20 :: (attrMatch idProduct r.product ++ tail), tail, ?_⟩
  rw [convertPiece, hbuf, hload, Except.ok_bind, if_neg (by decide), hvendor, Except.ok_bind]
  dsimp only
  rw [hproduct, Except.ok_bind]
  exact writeEntry_eq (field_length_le _) (field_length_le _)
    (fun dst hdst => appendField_eq hvendor (by decide) hlong hdst)
    (fun dst hdst => appendField_eq hproduct (by decide) htail hdst)

/-- A value of four characters is written as it is. -/
theorem field_of_four {x : List UInt8} (hlen : v.length = 4) (h0 : 0 ∉ v) :
    ((v ++ 0x22 :: x).take 4).takeWhile (· ≠ 0) = v := by
  rw [← hlen, List.take_left]
  exact List.takeWhile_eq_self_iff.mpr fun c hc => decide_eq_true fun h => h0 (h ▸ hc)

/-- A shorter one takes the quote along. -/
theorem quote_mem_field {x : List UInt8} (hlen : v.length < 4) (h0 : 0 ∉ v) :
    0x22 ∈ ((v ++ 0x22 :: x).take 4).takeWhile (· ≠ 0) := by
  obtain ⟨k, hk⟩ : ∃ k, 4 - v.length = k + 1 := ⟨3 - v.length, by omega⟩
  have hself : ∀ c ∈ v, decide (c ≠ 0) = true := fun c hc => decide_eq_true fun h => h0 (h ▸ hc)
  rw [List.take_append, List.take_of_length_le (by omega), hk, List.take_succ_cons,
    List.takeWhile_append_of_pos hself, List.takeWhile_cons_of_pos (by decide)]
  exact List.mem_append_right _ List.mem_cons_self

end Rule

/-! ## Lines -/

section Lines

variable {ps qs : List (List UInt8)} {s : Line × List UInt8}

/-- Both values are four characters long. -/
structure Rule.FourChars (r : Rule) : Prop where
  vendor : r.vendor.length = 4 ∧ 0 ∉ r.vendor
  product : r.product.length = 4 ∧ 0 ∉ r.product

/-- The line is read as it is meant: its values have four characters if it is a rule, and nothing
behind the first piece is taken if it is a comment. -/
def Spared : Line × List UInt8 → Prop
  | (.comment _ _, text) => ∀ q ∈ (cut text).tail, ¬Taken q
  | (.plain _ _ _, _) => True
  | (.rule r, _) => r.FourChars

/-- A line with its text in a file. -/
def InFile (s : Line × List UInt8) : Prop := s.2 = s.1.text ∨ s.2 = s.1.text ++ [0x0A]

theorem RulesFile.inFile {f : RulesFile} (hs : s ∈ f.segments) : InFile s := by
  rcases List.mem_append.mp hs with hs | hs
  · obtain ⟨l, -, rfl⟩ := List.mem_map.mp hs
    exact .inr rfl
  · rw [List.mem_singleton.mp hs]
    exact .inl rfl

theorem newline_not_mem_attrMatch {name value : List UInt8} (hname : 0x0A ∉ name)
    (hvalue : 0x0A ∉ value) : 0x0A ∉ attrMatch name value := by
  simp [attrMatch, attr, flag, hname, hvalue]

theorem Line.newline_not_mem (l : Line) : 0x0A ∉ l.text := by
  cases l with
  | comment text h => simpa [Line.text] using h
  | plain text h _ => exact h
  | rule r =>
    have hvendor : 0x0A ∉ attrMatch idVendor r.vendor :=
      newline_not_mem_attrMatch (by decide) r.vendor_value.newline
    have hproduct : 0x0A ∉ attrMatch idProduct r.product :=
      newline_not_mem_attrMatch (by decide) r.product_value.newline
    simp [Line.text, Rule.text, Rule.head, hvendor, hproduct, r.newline]

/-- A name in a line is not in its newline. -/
theorem infix_of_closed {text t : List UInt8} (hname : 0x0A ∉ name)
    (ht : t = text ∨ t = text ++ [0x0A]) (h : name <:+: t) : name <:+: text := by
  rcases ht with rfl | rfl
  · exact h
  · rcases h.of_append_cons hname with h | h
    · exact h
    · rw [List.infix_nil.mp h]
      exact List.nil_infix

theorem not_taken_of_lacks (h : ¬(idVendor <:+: piece ∧ idProduct <:+: piece)) : ¬Taken piece :=
  fun htaken => h ⟨htaken.2.1.trans (List.takeWhile_prefix _).isInfix,
    htaken.2.2.trans (List.takeWhile_prefix _).isInfix⟩

theorem convertPieces_cons_ok {q : List UInt8} :
    convertPieces (q :: ps) = .ok out ↔
      ∃ a b, convertPiece q = .ok a ∧ convertPieces ps = .ok b ∧ out = a ++ b := by
  rw [convertPieces]
  cases convertPiece q with
  | error f => exact iff_of_false nofun nofun
  | ok a =>
    cases convertPieces ps with
    | error f => exact iff_of_false nofun nofun
    | ok b =>
      constructor
      · rintro ⟨⟩
        exact ⟨a, b, rfl, rfl, rfl⟩
      · rintro ⟨_, _, ⟨⟩, ⟨⟩, rfl⟩
        rfl

theorem convertPieces_append_ok :
    convertPieces (ps ++ qs) = .ok out ↔
      ∃ a b, convertPieces ps = .ok a ∧ convertPieces qs = .ok b ∧ out = a ++ b := by
  induction ps generalizing out with
  | nil =>
    constructor
    · exact fun h => ⟨[], out, rfl, h, rfl⟩
    · rintro ⟨a, b, ⟨⟩, hb, rfl⟩
      exact hb
  | cons q ps ih =>
    rw [List.cons_append, convertPieces_cons_ok]
    constructor
    · rintro ⟨c, d, hc, hd, rfl⟩
      obtain ⟨a, b, ha, hb, rfl⟩ := ih.mp hd
      exact ⟨c ++ a, b, convertPieces_cons_ok.mpr ⟨c, a, hc, ha, rfl⟩, hb,
        (List.append_assoc ..).symm⟩
    · rintro ⟨e, b, he, hb, rfl⟩
      obtain ⟨c, a, hc, ha, rfl⟩ := convertPieces_cons_ok.mp he
      exact ⟨c, a ++ b, hc, ih.mpr ⟨a, b, ha, hb, rfl⟩, List.append_assoc ..⟩

theorem convertPieces_skipped (h : ∀ q ∈ ps, q.length ≤ 255 ∧ ¬Taken q) :
    convertPieces ps = .ok [] := by
  induction ps with
  | nil => rfl
  | cons q ps ih =>
    obtain ⟨hlen, hnot⟩ := h q List.mem_cons_self
    exact convertPieces_cons_ok.mpr
      ⟨[], [], convertPiece_skipped hlen hnot, ih fun q hq => h q (.tail _ hq), rfl⟩

/-- What is written are entries, and nothing only where no piece is taken. -/
theorem convertPieces_entries (hlen : ∀ q ∈ ps, q.length ≤ 255)
    (h : convertPieces ps = .ok out) :
    ∃ es : List (List UInt8), (∀ e ∈ es, IsEntry e) ∧ out = es.flatten ∧
      (es = [] → ∀ q ∈ ps, ¬Taken q) := by
  induction ps generalizing out with
  | nil =>
    cases h
    exact ⟨[], nofun, rfl, nofun⟩
  | cons q ps ih =>
    obtain ⟨c, b, hc, hb, rfl⟩ := convertPieces_cons_ok.mp h
    obtain ⟨es, hes, rfl, hnone⟩ := ih (fun q hq => hlen q (.tail _ hq)) hb
    rcases convertPiece_ok (hlen q List.mem_cons_self) hc with ⟨hnot, rfl⟩ | ⟨-, hentry⟩
    · exact ⟨es, hes, rfl, fun hnil => List.forall_mem_cons.mpr ⟨hnot, hnone hnil⟩⟩
    · exact ⟨c :: es, List.forall_mem_cons.mpr ⟨hentry, hes⟩, List.flatten_cons.symm, nofun⟩

/-- The pieces of a rule behind its first one lack the names. -/
theorem rule_pieces (r : Rule) (hlen : r.head.length ≤ 255) {t : List UInt8}
    (ht : t = r.text ∨ t = r.text ++ [0x0A]) :
    ∃ rest qs, cut t = (r.head ++ rest).take 255 :: qs ∧ ∀ q ∈ qs, q.length ≤ 255 ∧ ¬Taken q := by
  obtain ⟨rest, hrest, rfl⟩ : ∃ rest, (rest = r.rest ∨ rest = r.rest ++ [0x0A]) ∧
      t = r.head ++ rest := by
    rcases ht with rfl | rfl
    · exact ⟨r.rest, .inl rfl, rfl⟩
    · exact ⟨r.rest ++ [0x0A], .inr rfl, List.append_assoc ..⟩
  obtain ⟨qs, hcut, hqs⟩ := cut_eq_cons (r.head ++ rest)
  refine ⟨rest, qs, hcut, fun q hq => ⟨(hqs q hq).1, not_taken_of_lacks fun hboth => ?_⟩⟩
  have hin : q <:+: rest := by
    have hdrop := (hqs q hq).2
    rw [List.drop_append, List.drop_of_length_le hlen, List.nil_append] at hdrop
    exact hdrop.trans (List.drop_suffix _ _).isInfix
  exact r.no_vendor (infix_of_closed (by decide) hrest (hboth.1.trans hin))

/-- A line that is read as it is meant. -/
theorem segment_exact (hs : InFile s) (h : Spared s) :
    convertPieces (cut s.2) = .ok s.1.expected := by
  obtain ⟨l, t⟩ := s
  cases l with
  | comment text hnl =>
    obtain ⟨qs, hcut, hqs⟩ := cut_eq_cons t
    refine convertPieces_skipped fun q hq => ⟨(cut_length_le hq).1, ?_⟩
    rw [Spared, hcut] at h
    dsimp only at hq
    rw [hcut] at hq
    rcases List.mem_cons.mp hq with rfl | hq
    · have ht : t = 0x23 :: text ∨ t = 0x23 :: text ++ [0x0A] := hs
      have hhead : (t.take 255).headD 0 = 0x23 := by
        rcases ht with rfl | rfl
        · rfl
        · rfl
      exact fun htaken => htaken.1 (.inl hhead)
    · exact h q hq
  | plain text hnl hlacks =>
    refine convertPieces_skipped fun q hq => ⟨(cut_length_le hq).1, ?_⟩
    refine not_taken_of_lacks fun hboth => hlacks ?_
    have hin := (cut_length_le hq).2
    exact ⟨infix_of_closed (by decide) hs (hboth.1.trans hin),
      infix_of_closed (by decide) hs (hboth.2.trans hin)⟩
  | rule r =>
    obtain ⟨hvendor, hproduct⟩ := h
    have hhead := r.head_length
    obtain ⟨rest, qs, hcut, hqs⟩ := rule_pieces r (by omega) hs
    obtain ⟨x, y, hpiece⟩ := convertPiece_rule r (by omega) hvendor.2 rest
    rw [field_of_four hvendor.1 hvendor.2, field_of_four hproduct.1 hproduct.2] at hpiece
    dsimp only
    rw [hcut]
    exact convertPieces_cons_ok.mpr
      ⟨_, [], hpiece, convertPieces_skipped hqs, (List.append_nil _).symm⟩

end Lines

/-! ## Files -/

section Files

variable {f : RulesFile}

/-- A file is read line by line. -/
theorem convert_ok_iff (f : RulesFile) (out : List UInt8) :
    convert f.bytes = .ok out ↔ convertPieces (f.segments.flatMap fun s => cut s.2) = .ok out := by
  have hlast : ∀ {out}, convertPieces (pieces f.last.text) = .ok out ↔
      convertPieces (cut f.last.text) = .ok out := by
    intro out
    rcases pieces_last f.last.newline_not_mem with h | h
    · rw [h]
    · have hnil : convertPieces [[]] = .ok [] :=
        convertPieces_skipped fun q hq => by
          rw [List.mem_singleton.mp hq]
          exact ⟨Nat.zero_le _, not_taken_of_lacks (by decide)⟩
      rw [h, convertPieces_append_ok, hnil]
      constructor
      · rintro ⟨a, b, ha, ⟨⟩, rfl⟩
        rwa [List.append_nil]
      · exact fun h => ⟨out, [], h, rfl, (List.append_nil out).symm⟩
  have hlines : ∀ (ls : List Line) (rest : List UInt8),
      pieces ((ls.map fun l => (l, l.text ++ [0x0A])).flatMap Prod.snd ++ rest) =
        (ls.map fun l => (l, l.text ++ [0x0A])).flatMap (fun s => cut s.2) ++ pieces rest := by
    intro ls rest
    induction ls with
    | nil => rfl
    | cons l ls ih =>
      simp only [List.map_cons, List.flatMap_cons, List.append_assoc, List.cons_append,
        List.nil_append]
      rw [pieces_line l.newline_not_mem, ih]
  rw [convert, RulesFile.bytes, RulesFile.segments, List.flatMap_append, List.flatMap_append,
    List.flatMap_singleton, List.flatMap_singleton, hlines, convertPieces_append_ok,
    convertPieces_append_ok]
  simp only [hlast]

theorem exact_of_spared (h : ∀ s ∈ f.segments, Spared s) : convert f.bytes = .ok f.expected := by
  rw [convert_ok_iff, RulesFile.expected]
  have hfile : ∀ s ∈ f.segments, InFile s := fun s hs => RulesFile.inFile hs
  revert h hfile
  generalize f.segments = segs
  intro h hfile
  induction segs with
  | nil => rfl
  | cons s segs ih =>
    rw [List.flatMap_cons, List.flatMap_cons, convertPieces_append_ok]
    exact ⟨_, _, segment_exact (hfile s List.mem_cons_self) (h s List.mem_cons_self),
      ih (fun s hs => h s (.tail _ hs)) fun s hs => hfile s (.tail _ hs), rfl⟩

/-! ### What an exact table shows -/

theorem IsEntry.split {e : List UInt8} (h : IsEntry e) :
    ∃ w, e = w ++ [0x0A] ∧ w.length ≤ 28 ∧ 0 ∉ e := by
  obtain ⟨v, p, ⟨hv, hv0⟩, ⟨hp, hp0⟩, rfl⟩ := h
  refine ⟨_, rfl, ?_, ?_⟩
  · simp only [idVendor, idProduct, List.length_append, List.length_cons, List.length_nil]
    omega
  · simp [entry, idVendor, idProduct, hv0, hp0]

/-- Lines of the table are short. -/
theorem length_le_of_infix {es : List (List UInt8)} (h : ∀ e ∈ es, IsEntry e) {w : List UInt8}
    (hw : 0x0A ∉ w) (hin : w <:+: es.flatten) : w.length ≤ 28 := by
  induction es with
  | nil =>
    rw [List.infix_nil.mp hin]
    exact Nat.zero_le _
  | cons e es ih =>
    obtain ⟨w', rfl, hlen, -⟩ := (h e List.mem_cons_self).split
    rw [List.flatten_cons, List.append_assoc, List.singleton_append] at hin
    rcases hin.of_append_cons hw with hin | hin
    · exact Nat.le_trans hin.length_le hlen
    · exact ih (fun e he => h e (.tail _ he)) hin

/-- The values in an exact table are short and have no NUL. -/
theorem rule_short {es : List (List UInt8)} (h : ∀ e ∈ es, IsEntry e) {r : Rule}
    (hin : entry r.vendor r.product <:+: es.flatten) :
    r.vendor.length + r.product.length ≤ 8 ∧ 0 ∉ r.vendor ∧ 0 ∉ r.product := by
  let w := idVendor ++ [0x3A] ++ r.vendor ++ [0x2C] ++ (idProduct ++ [0x3A]) ++ r.product
  have hw : 0x0A ∉ w := by
    simp [w, idVendor, idProduct, r.vendor_value.newline, r.product_value.newline]
  have hlen := length_le_of_infix h hw
    ((List.prefix_append w [0x0A]).isInfix.trans hin)
  have h0 : 0 ∉ es.flatten := by
    intro hmem
    obtain ⟨e, he, h0⟩ := List.mem_flatten.mp hmem
    obtain ⟨w, -, -, hnot⟩ := (h e he).split
    exact hnot h0
  have hentry : 0 ∉ entry r.vendor r.product := fun hm => h0 (hin.subset hm)
  refine ⟨?_, fun hm => hentry (by simp [entry, hm]), fun hm => hentry (by simp [entry, hm])⟩
  simp only [w, idVendor, idProduct, List.length_append, List.length_cons, List.length_nil] at hlen
  omega

theorem quote_not_mem_expected (f : RulesFile) : 0x22 ∉ f.expected := by
  intro hmem
  obtain ⟨s, -, hs⟩ := List.mem_flatMap.mp hmem
  obtain ⟨l, t⟩ := s
  cases l with
  | comment => cases hs
  | plain => cases hs
  | rule r =>
    simp [Line.expected, entry, idVendor, idProduct, r.vendor_value.quote,
      r.product_value.quote] at hs

/-- What is written for a line is part of what is written. -/
theorem segment_of_mem {segs : List (Line × List UInt8)} {s : Line × List UInt8} (hs : s ∈ segs)
    (h : convertPieces (segs.flatMap fun s => cut s.2) = .ok out) :
    ∃ a, convertPieces (cut s.2) = .ok a ∧ a <:+: out := by
  obtain ⟨l₁, l₂, rfl⟩ := List.append_of_mem hs
  rw [List.flatMap_append, List.flatMap_cons] at h
  obtain ⟨a, b, -, hb, rfl⟩ := convertPieces_append_ok.mp h
  obtain ⟨c, d, hc, -, rfl⟩ := convertPieces_append_ok.mp hb
  exact ⟨c, hc, ⟨a, d, List.append_assoc ..⟩⟩

/-- The values of a rule with short ones have four characters where the table has no quotes. -/
theorem rule_fourChars {r : Rule} {t : List UInt8} (ht : InFile (.rule r, t))
    (hlen : r.vendor.length + r.product.length ≤ 8) (hv : 0 ∉ r.vendor) (hp : 0 ∉ r.product)
    (h : convertPieces (cut t) = .ok out) (hquote : 0x22 ∉ out) : r.FourChars := by
  have hhead := r.head_length
  obtain ⟨rest, qs, hcut, hqs⟩ := rule_pieces r (by omega) ht
  obtain ⟨x, y, hpiece⟩ := convertPiece_rule r hlen hv rest
  rw [hcut] at h
  obtain ⟨a, b, ha, -, rfl⟩ := convertPieces_cons_ok.mp h
  rw [hpiece] at ha
  cases ha
  have hv4 : ¬r.vendor.length < 4 := fun hlt =>
    hquote (by simp only [entry, List.mem_append, quote_mem_field hlt hv, or_true, true_or])
  have hp4 : ¬r.product.length < 4 := fun hlt =>
    hquote (by simp only [entry, List.mem_append, quote_mem_field hlt hp, or_true, true_or])
  exact ⟨⟨by omega, hv⟩, by omega, hp⟩

/-- Where all rules are read as they are meant, more is written than expected unless the comments
are too. -/
theorem expected_length_le {segs : List (Line × List UInt8)} (hfile : ∀ s ∈ segs, InFile s)
    (hrules : ∀ r t, (.rule r, t) ∈ segs → r.FourChars)
    (h : convertPieces (segs.flatMap fun s => cut s.2) = .ok out) :
    (segs.flatMap fun s => s.1.expected).length ≤ out.length ∧
      (out.length ≤ (segs.flatMap fun s => s.1.expected).length → ∀ s ∈ segs, Spared s) := by
  induction segs generalizing out with
  | nil => exact ⟨Nat.zero_le _, fun _ => nofun⟩
  | cons s segs ih =>
    rw [List.flatMap_cons] at h
    obtain ⟨a, b, ha, hb, rfl⟩ := convertPieces_append_ok.mp h
    obtain ⟨hle, hspared⟩ := ih (fun s hs => hfile s (.tail _ hs))
      (fun r t hr => hrules r t (.tail _ hr)) hb
    rw [List.flatMap_cons, List.length_append, List.length_append]
    generalize (segs.flatMap fun s => s.1.expected).length = n at hle hspared
    obtain ⟨l, t⟩ := s
    have hexact (hs : Spared (l, t)) : a = l.expected := by
      have hseg := segment_exact (hfile (l, t) List.mem_cons_self) hs
      rw [hseg] at ha
      cases ha
      rfl
    cases l with
    | comment text hnl =>
      have hzero : (Line.comment text hnl).expected.length = 0 := rfl
      dsimp only
      refine ⟨by omega, fun hge => ?_⟩
      have hnil : a = [] := List.length_eq_zero_iff.mp (by omega)
      obtain ⟨es, hes, hflat, hnone⟩ :=
        convertPieces_entries (fun q hq => (cut_length_le hq).1) ha
      have hempty : es = [] := by
        cases es with
        | nil => rfl
        | cons e es =>
          obtain ⟨w, rfl, -⟩ := (hes e List.mem_cons_self).split
          rw [hnil] at hflat
          simp at hflat
      exact List.forall_mem_cons.mpr
        ⟨fun q hq => hnone hempty q (List.mem_of_mem_tail hq), hspared (by omega)⟩
    | plain text hnl hlacks =>
      have := congrArg List.length (hexact trivial)
      dsimp only at this ⊢
      refine ⟨by omega, fun hge => List.forall_mem_cons.mpr ⟨trivial, hspared (by omega)⟩⟩
    | rule r =>
      have hfour := hrules r t List.mem_cons_self
      have := congrArg List.length (hexact hfour)
      dsimp only at this ⊢
      refine ⟨by omega, fun hge => List.forall_mem_cons.mpr ⟨hfour, hspared (by omega)⟩⟩

theorem spared_of_exact (h : convert f.bytes = .ok f.expected) : ∀ s ∈ f.segments, Spared s := by
  rw [convert_ok_iff] at h
  have hfile : ∀ s ∈ f.segments, InFile s := fun s hs => RulesFile.inFile hs
  have hlen : ∀ q ∈ f.segments.flatMap fun s => cut s.2, q.length ≤ 255 := by
    intro q hq
    obtain ⟨s, -, hq⟩ := List.mem_flatMap.mp hq
    exact (cut_length_le hq).1
  obtain ⟨es, hes, hflat, -⟩ := convertPieces_entries hlen h
  have hrules : ∀ r t, (.rule r, t) ∈ f.segments → r.FourChars := by
    intro r t hr
    have hin : entry r.vendor r.product <:+: es.flatten := by
      rw [← hflat, RulesFile.expected, List.flatMap_def]
      exact List.infix_of_mem_flatten (List.mem_map.mpr ⟨_, hr, rfl⟩)
    obtain ⟨hshort, hv, hp⟩ := rule_short hes hin
    obtain ⟨a, ha, hsub⟩ := segment_of_mem hr h
    exact rule_fourChars (hfile _ hr) hshort hv hp ha fun hq =>
      quote_not_mem_expected f (hsub.subset hq)
  exact (expected_length_le hfile hrules h).2 (Nat.le_refl _)

/-- The table is exact if and only if the values of all rules have four characters and no piece
behind the first one of a comment is taken for a rule. -/
theorem table_exact_iff (f : RulesFile) :
    convert f.bytes = .ok f.expected ↔ ∀ s ∈ f.segments, Spared s :=
  ⟨spared_of_exact, exact_of_spared⟩

/-- `ATTR{idVendor}=="04a9", ATTR{idProduct}=="22*", GOTO="libmtp_rules_end"` -/
def canonScanners : Rule where
  vendor := [0x30, 0x34, 0x61, 0x39]
  product := [0x32, 0x32, 0x2A]
  rest := [0x2C, 0x20, 0x47, 0x4F, 0x54, 0x4F, 0x3D, 0x22, 0x6C, 0x69, 0x62, 0x6D, 0x74, 0x70, 0x5F,
    0x72, 0x75, 0x6C, 0x65, 0x73, 0x5F, 0x65, 0x6E, 0x64, 0x22]
  vendor_value := ⟨by decide, by decide, by decide⟩
  product_value := ⟨by decide, by decide, by decide⟩
  newline := by decide
  no_vendor := by decide
  no_product := by decide

/-- The quote behind a value of three characters is written. -/
theorem not_exact_canonScanners :
    ¬convert (⟨[.rule canonScanners], .plain [] (by decide) (by decide)⟩ : RulesFile).bytes =
      .ok (⟨[.rule canonScanners], .plain [] (by decide) (by decide)⟩ : RulesFile).expected := by
  intro h
  have hfour : canonScanners.FourChars := spared_of_exact h _ List.mem_cons_self
  exact absurd hfour.product.1 (by decide)

end Files

end HeadUnit.Mtp
