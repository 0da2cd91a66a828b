import HeadUnit.Gps.Effects

/-!
# The satellite list and its array

A GSV sentence appends up to four satellites to `sv_list` as long as `num_svs` is below the count it
announces. Nothing else bounds the index: a count above 32 in a sentence that does not restart the
list writes beyond the array as soon as fewer than four places are left (`satellitesInBounds_iff`).
-/

namespace HeadUnit.Gps

variable {D : Type}

/-- A write to `sv_list`, if it is one, stays in the array. -/
def Output.InArray : Output D → Prop
  | .svWrite curr => curr < gpsMaxSvs
  | _ => True

instance (o : Output D) : Decidable o.InArray :=
  match o with
  | .svWrite curr => inferInstanceAs (Decidable (curr < gpsMaxSvs))
  | .inWrite _ | .parse .. | .nmea .. | .svStatus _ | .location _ => .isTrue trivial

theorem Output.InArray.of_isLine {o : Output D} (h : o.isLine) : o.InArray := by
  cases o with
  | inWrite | parse | nmea => trivial
  | svWrite | svStatus | location => cases h

variable [CDouble D]

/-- The satellites announced and the number of the GSV sentence that `c` completes. -/
def gsvOf (r : NmeaReader D) (c : UInt8) : Option (Int × Int) :=
  (sentenceOf r c).bind fun t =>
    if sentenceId (nmeaTokenizerGet t 0) = ascii ['G', 'S', 'V'] then
      some (intField t 3, intField t 2)
    else none

/-- The index of the first satellite of sentence `k` of `n` announced satellites. -/
def gsvBase (n k : Int) (numSvs : Nat) : Nat := if 0 < n ∧ k = 1 then 0 else numSvs

/-- How many satellites are stored from `base` on. -/
def gsvCount (n : Int) (base : Nat) : Nat := min 4 (n - base).toNat

theorem gsvLoop_spec (t : List Token) (n : Int) (left i curr : Nat) (sv : GpsSvStatus D) :
    (gsvLoop t n left i curr sv).1.numSvs = sv.numSvs + min left (n - sv.numSvs).toNat ∧
      (gsvLoop t n left i curr sv).2 =
        (List.range' curr (min left (n - sv.numSvs).toNat)).map .svWrite := by
  induction left generalizing i curr sv with
  | zero => simp [gsvLoop]
  | succ left ih =>
    rw [gsvLoop]
    split
    case isTrue hlt =>
      have hcount : min (left + 1) (n - sv.numSvs).toNat =
          min left (n - (sv.numSvs + 1 : Nat)).toNat + 1 := by omega
      obtain ⟨hnum, hout⟩ := ih (i + 1) (curr + 1) { sv with
        svList := sv.svList.setIfInBounds curr (gsvEntry t i)
        numSvs := sv.numSvs + 1 }
      rw [hcount, List.range'_succ, List.map_cons]
      exact ⟨hnum.trans (by dsimp only; omega), congrArg _ hout⟩
    case isFalse hlt =>
      have hcount : min (left + 1) (n - sv.numSvs).toNat = 0 := by omega
      rw [hcount]
      exact ⟨rfl, rfl⟩

theorem parseGsv_spec (t : List Token) (r : NmeaReader D) :
    let base := gsvBase (intField t 3) (intField t 2) r.svStatus.numSvs
    let count := gsvCount (intField t 3) base
    (parseGsv t r).1.svStatus.numSvs = base + count ∧
      (parseGsv t r).2 = (List.range' base count).map .svWrite := by
  by_cases hn : 0 < intField t 3
  · by_cases hk : intField t 2 = 1
    · have hloop := gsvLoop_spec t (intField t 3) 4 0 0 { r.svStatus with numSvs := 0 }
      simp only [gsvBase, gsvCount, parseGsv, hn, hk, if_true, true_and]
      split <;> exact hloop
    · have hloop := gsvLoop_spec t (intField t 3) 4 0 r.svStatus.numSvs r.svStatus
      simp only [gsvBase, gsvCount, parseGsv, hn, hk, if_true, if_false, and_false]
      split <;> exact hloop
  · have hcount : gsvCount (intField t 3) r.svStatus.numSvs = 0 := by rw [gsvCount]; omega
    simp only [gsvBase, parseGsv, hn, if_false, false_and, hcount]
    exact ⟨rfl, rfl⟩

/-! ## Steps and runs -/

theorem handle_svs (zone : Int) (cbs : GpsCallbacks) (clk : Clock) (t : List Token)
    (r : NmeaReader D) :
    (handle zone cbs clk t r).1.svStatus = (parseSentence zone clk t r).1.svStatus ∧
      ((∀ o ∈ (handle zone cbs clk t r).2, o.InArray) ↔
        ∀ o ∈ (parseSentence zone clk t r).2, o.InArray) := by
  rw [handle]
  dsimp only
  generalize parseSentence zone clk t r = p
  constructor
  · rw [reportLocation, reportSvStatus]
    split <;> split <;> rfl
  · constructor
    · intro h o ho
      exact h o (List.mem_append_left _ (List.mem_append_left _ ho))
    · intro h o ho
      rcases List.mem_append.mp ho with ho | ho
      · rcases List.mem_append.mp ho with ho | ho
        · exact h o ho
        · rw [reportSvStatus] at ho
          split at ho
          · cases List.mem_singleton.mp ho
            trivial
          · cases ho
      · rw [reportLocation] at ho
        split at ho
        · cases List.mem_singleton.mp ho
          trivial
        · cases ho

/-- A sentence that would fill the array restarts the list or announces no more than it holds. -/
def GsvFits (r : NmeaReader D) (i : Clock × UInt8) : Prop :=
  ∀ n k, gsvOf r i.2 = some (n, k) → n ≤ 32 ∨ k = 1 ∨ r.svStatus.numSvs ≤ 28

instance (r : NmeaReader D) (i : Clock × UInt8) : Decidable (GsvFits r i) :=
  decidable_of_iff (∀ nk ∈ gsvOf r i.2, nk.1 ≤ 32 ∨ nk.2 = 1 ∨ r.svStatus.numSvs ≤ 28) Prod.forall

theorem gsvFits_iff_count {n k : Int} {numSvs : Nat} (h : numSvs ≤ gpsMaxSvs) :
    n ≤ 32 ∨ k = 1 ∨ numSvs ≤ 28 ↔
      gsvBase n k numSvs + gsvCount n (gsvBase n k numSvs) ≤ gpsMaxSvs := by
  rw [gpsMaxSvs] at *
  rw [gsvBase, gsvCount]
  split <;> omega

/-- A sentence keeps the list in its array if and only if it is no GSV sentence or fits. -/
theorem parseSentence_inArray_iff (zone : Int) (clk : Clock) (t : List Token) (r : NmeaReader D)
    (h : r.svStatus.numSvs ≤ gpsMaxSvs) :
    (sentenceId (nmeaTokenizerGet t 0) = ascii ['G', 'S', 'V'] →
        intField t 3 ≤ 32 ∨ intField t 2 = 1 ∨ r.svStatus.numSvs ≤ 28) ↔
      (parseSentence zone clk t r).1.svStatus.numSvs ≤ gpsMaxSvs ∧
        ∀ o ∈ (parseSentence zone clk t r).2, o.InArray := by
  rcases parseSentence_cases zone clk t r with ⟨hgsv, hid⟩ | ⟨hnil, hid, hstep⟩
  · obtain ⟨hnum, hout⟩ := parseGsv_spec t r
    have hiff := gsvFits_iff_count (n := intField t 3) (k := intField t 2) h
    rw [hgsv, hnum, hout]
    constructor
    · intro hfits
      have hle := hiff.mp (hfits hid)
      refine ⟨hle, ?_⟩
      intro o ho
      obtain ⟨j, hj, rfl⟩ := List.mem_map.mp ho
      exact Nat.lt_of_lt_of_le (List.mem_range'_1.mp hj).2 hle
    · rintro ⟨hle, -⟩ _
      exact hiff.mpr hle
  · have hsame : (parseSentence zone clk t r).1.svStatus.numSvs = r.svStatus.numSvs := by
      rcases hstep with hstep | hstep
      · exact congrArg _ hstep.svStatus
      · exact hstep.numSvs
    rw [hnil, hsame]
    exact iff_of_true (fun hgsv => absurd hgsv hid) ⟨h, fun o ho => nomatch ho⟩

theorem step_inArray_iff (zone : Int) (cbs : GpsCallbacks) (r : NmeaReader D) (i : Clock × UInt8)
    (h : r.svStatus.numSvs ≤ gpsMaxSvs) :
    GsvFits r i ↔ ((reader zone cbs).step r i).1.svStatus.numSvs ≤ gpsMaxSvs ∧
      ∀ o ∈ ((reader zone cbs).step r i).2, o.InArray := by
  show GsvFits r i ↔ (nmeaReaderAddc zone cbs i.1 r i.2).1.svStatus.numSvs ≤ gpsMaxSvs ∧
    ∀ o ∈ (nmeaReaderAddc zone cbs i.1 r i.2).2, o.InArray
  cases hsent : sentenceOf r i.2 with
  | none =>
    obtain ⟨pos, overflow, inBuf, out, hout, heq⟩ := addc_of_none zone cbs i.1 hsent
    rw [heq]
    refine iff_of_true ?_ ⟨h, fun o ho => .of_isLine (hout o ho).1⟩
    intro n k hg
    rw [gsvOf, hsent] at hg
    cases hg
  | some t =>
    obtain ⟨out, hout, -, heq⟩ := addc_of_some zone cbs i.1 hsent
    obtain ⟨hsvs, hwrites⟩ := handle_svs zone cbs i.1 t (r.store i.2)
    have hfits : GsvFits r i ↔ (sentenceId (nmeaTokenizerGet t 0) = ascii ['G', 'S', 'V'] →
        intField t 3 ≤ 32 ∨ intField t 2 = 1 ∨ r.svStatus.numSvs ≤ 28) := by
      simp only [GsvFits, gsvOf, hsent, Option.bind_some]
      split
      · simp [*]
      · simp [*]
    have hout : (∀ o ∈ (nmeaReaderAddc zone cbs i.1 r i.2).2, o.InArray) ↔
        ∀ o ∈ (parseSentence zone i.1 t (r.store i.2)).2, o.InArray := by
      rw [heq, ← hwrites]
      simp only [List.mem_append]
      exact ⟨fun ho o hm => ho o (.inr hm), fun ho o hm => hm.elim (.of_isLine <| hout o ·) (ho o)⟩
    have hnum : (nmeaReaderAddc zone cbs i.1 r i.2).1.svStatus =
        (parseSentence zone i.1 t (r.store i.2)).1.svStatus := by
      rw [heq]
      exact hsvs
    rw [hfits, hout, hnum]
    exact parseSentence_inArray_iff zone i.1 t (r.store i.2) h

/-- Every write to `sv_list` stays in the array and `num_svs` never exceeds its size. -/
def SatellitesInBounds (zone : Int) (cbs : GpsCallbacks) (r : NmeaReader D)
    (is : List (Clock × UInt8)) : Prop :=
  (∀ n, ((reader zone cbs).final r (is.take n)).svStatus.numSvs ≤ gpsMaxSvs) ∧
    ∀ o ∈ (reader zone cbs).out r is, o.InArray

/-- From an initialised reader the list stays in its array if and only if every GSV sentence that
announces more than 32 satellites is the first of its group or finds four places free. -/
theorem satellitesInBounds_iff (zone : Int) (cbs : GpsCallbacks) (clk : Clock)
    (is : List (Clock × UInt8)) :
    SatellitesInBounds zone cbs (nmeaReaderInit zone clk : NmeaReader D) is ↔
      (reader zone cbs).Along GsvFits (nmeaReaderInit zone clk : NmeaReader D) is := by
  rw [SatellitesInBounds]
  have hinit : (nmeaReaderInit zone clk : NmeaReader D).svStatus.numSvs ≤ gpsMaxSvs :=
    Nat.zero_le _
  exact ((reader zone cbs).along_iff (step_inArray_iff zone cbs) hinit).symm

/-- Sentence `k` of a group of nine that announces 33 satellites. -/
def gsvLine (k : Nat) : List (Clock × UInt8) :=
  (ascii (['$', 'G', 'P', 'G', 'S', 'V', ',', '9', ','] ++ Nat.toDigits 10 k ++
    [',', '3', '3', '\n'])).map fun c => (⟨0, 0, 0⟩, c)

/-- The ninth sentence writes behind the array. -/
theorem not_satellitesInBounds_33 :
    ¬SatellitesInBounds 0 ⟨false, false, false, false⟩ (nmeaReaderInit 0 ⟨0, 0, 0⟩ : NmeaReader ℚ)
      ((List.range' 1 9).flatMap gsvLine) := by
  rintro ⟨-, h⟩
  revert h
  decide +kernel

end HeadUnit.Gps
