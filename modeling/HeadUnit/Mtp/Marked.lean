import HeadUnit.Mtp.Table
import Mathlib.Data.List.DropRight

/-!
# Devices that are not to be probed

The conversion does not look at the assignments of a rule: the table has an entry for every rule
with both names, whether the rule marks a device for MTP or sends a sensitive one to the end.
-/

namespace HeadUnit.Mtp

/-- `ENV{ID_MTP_DEVICE}="1"` -/
def mark : List UInt8 := [0x45, 0x4E, 0x56, 0x7B, 0x49, 0x44, 0x5F, 0x4D, 0x54, 0x50, 0x5F, 0x44, 0x45,
  0x56, 0x49, 0x43, 0x45, 0x7D, 0x3D, 0x22, 0x31, 0x22]

def IsBlank (c : UInt8) : Prop := c = 0x20 ∨ c = 0x09

instance (c : UInt8) : Decidable (IsBlank c) := inferInstanceAs (Decidable (_ ∨ _))

/-- The assignments of a rule, without the blanks around them. -/
def Rule.assignments (r : Rule) : List (List UInt8) :=
  (r.rest.splitOn 0x2C).map fun a =>
    (a.dropWhile fun c => decide (IsBlank c)).rdropWhile fun c => decide (IsBlank c)

/-- The rule marks its device. -/
def Rule.Marks (r : Rule) : Prop := mark ∈ r.assignments

instance (r : Rule) : Decidable r.Marks := inferInstanceAs (Decidable (_ ∈ _))

def Line.rule? : Line → Option Rule
  | .rule r => some r
  | _ => none

/-- The rules with both names. -/
def RulesFile.rules (f : RulesFile) : List Rule := f.segments.filterMap fun s => s.1.rule?

/-- The table has entries of rules that mark their devices, and no others. -/
def OnlyMarked (f : RulesFile) : Prop :=
  ∀ out, convert f.bytes = .ok out → ∃ rs : List Rule, rs.Sublist f.rules ∧ (∀ r ∈ rs, r.Marks) ∧
    out = rs.flatMap fun r => entry r.vendor r.product

theorem expected_eq_rules (f : RulesFile) :
    f.expected = f.rules.flatMap fun r => entry r.vendor r.product := by
  rw [RulesFile.expected, RulesFile.rules]
  induction f.segments with
  | nil => rfl
  | cons s segs ih =>
    rw [List.flatMap_cons, ih]
    obtain ⟨l, t⟩ := s
    cases l <;> rfl

theorem mem_rules {f : RulesFile} {r : Rule} {t : List UInt8} (h : (.rule r, t) ∈ f.segments) :
    r ∈ f.rules := List.mem_filterMap.mpr ⟨_, h, rfl⟩

/-- Entries of four characters a value are all of one length. -/
theorem table_length {rs : List Rule} (h : ∀ r ∈ rs, r.FourChars) :
    (rs.flatMap fun r => entry r.vendor r.product).length = 29 * rs.length := by
  induction rs with
  | nil => rfl
  | cons r rs ih =>
    obtain ⟨hvendor, hproduct⟩ := h r List.mem_cons_self
    have hentry : (entry r.vendor r.product).length = 29 := by
      simp only [entry, idVendor, idProduct, List.length_append, List.length_cons, List.length_nil,
        hvendor.1, hproduct.1]
    rw [List.flatMap_cons, List.length_append, hentry, ih fun r hr => h r (.tail _ hr),
      List.length_cons]
    omega

/-- A file of short lines with values of four characters is converted exactly. -/
theorem convert_shortLines {f : RulesFile} (hlen : ∀ s ∈ f.segments, s.1.text.length ≤ 254)
    (hfour : ∀ r ∈ f.rules, r.FourChars) : convert f.bytes = .ok f.expected := by
  refine exact_of_spared fun s hs => ?_
  have hfile : InFile s := RulesFile.inFile hs
  have hle : s.2.length ≤ 255 := by
    have := hlen s hs
    rcases hfile with h | h
    · rw [h]
      omega
    · rw [h, List.length_append, List.length_singleton]
      omega
  obtain ⟨l, t⟩ := s
  cases l with
  | comment text hnl =>
    intro q hq
    rw [cut, if_pos hle] at hq
    cases hq
  | plain => trivial
  | rule r => exact hfour r (mem_rules hs)

/-- Only marked devices are in the table if and only if all rules mark their devices. -/
theorem onlyMarked_iff (f : RulesFile) (hlen : ∀ s ∈ f.segments, s.1.text.length ≤ 254)
    (hfour : ∀ r ∈ f.rules, r.FourChars) : OnlyMarked f ↔ ∀ r ∈ f.rules, r.Marks := by
  have hrun := convert_shortLines hlen hfour
  rw [expected_eq_rules] at hrun
  constructor
  · intro h
    obtain ⟨rs, hsub, hmarks, hout⟩ := h _ hrun
    have hsize := congrArg List.length hout
    rw [table_length hfour, table_length fun r hr => hfour r (hsub.subset hr)] at hsize
    rw [← hsub.eq_of_length (by omega)]
    exact hmarks
  · intro h out hout
    rw [hrun] at hout
    cases hout
    exact ⟨f.rules, List.Sublist.refl _, h, rfl⟩

/-- `ATTR{idVendor}=="041e", ATTR{idProduct}=="411f", ENV{ID_MTP_DEVICE}="1"` -/
def zenVision : Rule where
  vendor := [0x30, 0x34, 0x31, 0x65]
  product := [0x34, 0x31, 0x31, 0x66]
  rest := 0x2C :: 0x20 :: mark
  vendor_value := ⟨by decide, by decide, by decide⟩
  product_value := ⟨by decide, by decide, by decide⟩
  newline := by decide
  no_vendor := by decide
  no_product := by decide

theorem onlyMarked_zenVision :
    OnlyMarked ⟨[.rule zenVision], .plain [] (by decide) (by decide)⟩ := by
  refine (onlyMarked_iff ⟨[.rule zenVision], .plain [] (by decide) (by decide)⟩ ?_ ?_).mpr ?_
  · intro s hs
    rcases List.mem_cons.mp hs with rfl | hs
    · exact (by decide : zenVision.text.length ≤ 254)
    · rw [List.mem_singleton.mp hs]
      exact Nat.zero_le _
  · intro r hr
    rw [List.mem_singleton.mp hr]
    exact ⟨by decide, by decide⟩
  · intro r hr
    rw [List.mem_singleton.mp hr]
    decide

/-- `ATTR{idVendor}=="04a9", ATTR{idProduct}=="3113", GOTO="libmtp_rules_end"` -/
def canonCamera : Rule :=
  { canonScanners with
    product := [0x33, 0x31, 0x31, 0x33]
    product_value := ⟨by decide, by decide, by decide⟩ }

/-- A camera that is not to be probed comes into the table. -/
theorem not_onlyMarked_canonCamera :
    ¬OnlyMarked ⟨[.rule canonCamera], .plain [] (by decide) (by decide)⟩ := by
  intro h
  have hspared : ∀ s ∈ (⟨[.rule canonCamera], .plain [] (by decide) (by decide)⟩ :
      RulesFile).segments, Spared s := by
    intro s hs
    rcases List.mem_cons.mp hs with rfl | hs
    · exact ⟨by decide, by decide⟩
    · rw [List.mem_singleton.mp hs]
      trivial
  obtain ⟨rs, hsub, hmarks, hout⟩ := h _ (exact_of_spared hspared)
  have hnil : rs = [] := by
    refine List.eq_nil_iff_forall_not_mem.mpr fun r hr => ?_
    have hcanon : r = canonCamera := List.mem_singleton.mp (hsub.subset hr)
    exact absurd (hcanon ▸ hmarks r hr) (by decide)
  rw [hnil] at hout
  exact absurd hout (by decide)

end HeadUnit.Mtp
