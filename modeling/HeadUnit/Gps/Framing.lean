import HeadUnit.Gps.Sentences
import HeadUnit.Std.Lines

/-!
# Line framing

`nmea_reader_addc` refines the bounded line reader with the `sizeof(in) - 1 = 83` bytes it lets into
`in`, whatever `nmea_reader_parse` does in between. The byte that finds `in` full starts the
discarding without being compared with `'\n'`, so a line of 84 bytes takes the next one along.
-/

namespace HeadUnit.Gps

variable {D : Type} [CDouble D]

/-- The text and `r->pos` of a call of `nmea_reader_parse`. -/
def Output.sentence : Output D → Option (List UInt8 × Nat)
  | .parse mem pos => some (mem.take pos, pos)
  | _ => none

def Output.written : Output D → Option Nat
  | .inWrite pos => some pos
  | _ => none

/-- The terminated lines of what arrives. -/
def nmeaLines (is : List (Clock × UInt8)) : List (List UInt8) :=
  Lines.terminated 0x0A (is.map Prod.snd)

/-- The lines of at most 83 bytes, and nothing else, are handed to `nmea_reader_parse`, whole and
with their lengths, and no write to `in` is beyond its first 83 bytes. -/
def FramesLines (zone : Int) (cbs : GpsCallbacks) (r : NmeaReader D) (is : List (Clock × UInt8)) :
    Prop :=
  ((reader zone cbs).out r is).filterMap Output.sentence =
      ((nmeaLines is).filter (·.length ≤ 83)).map (fun l => (l, l.length)) ∧
    ∀ pos ∈ ((reader zone cbs).out r is).filterMap Output.written, pos < 83

/-! ## Refinement -/

/-- What the reader has collected of the current line. -/
inductive Buffered (r : NmeaReader D) : Lines.State UInt8 → Prop
  | collecting (overflow : r.overflow = false) (le : r.pos ≤ 83) :
    Buffered r (.collecting (r.inBuf.toList.take r.pos))
  | discarding (overflow : r.overflow = true) (pos : r.pos = 0) : Buffered r .discarding

omit [CDouble D] in
theorem Buffered.empty {r : NmeaReader D} (overflow : r.overflow = false) (pos : r.pos = 0) :
    Buffered r (.collecting []) := by
  have h := Buffered.collecting overflow (by omega)
  rwa [pos, List.take_zero] at h

omit [CDouble D] in
theorem Buffered.store {r : NmeaReader D} (overflow : r.overflow = false) (lt : r.pos < 83)
    (c : UInt8) : (r.store c).inBuf.toList.take (r.pos + 1) = r.inBuf.toList.take r.pos ++ [c] ∧
      Buffered (r.store c) (.collecting (r.inBuf.toList.take r.pos ++ [c])) := by
  have hholds : Holds r (r.inBuf.toList.take r.pos) := ⟨by simp; omega, rfl⟩
  have htake := (hholds.store c (by omega)).take
  have h : Buffered (r.store c) (.collecting ((r.store c).inBuf.toList.take (r.store c).pos)) :=
    .collecting overflow lt
  rw [htake] at h
  exact ⟨htake, h⟩

/-- Nothing `nmea_reader_parse` emits is about the line buffer. -/
theorem parse_quiet (zone : Int) (cbs : GpsCallbacks) (clk : Clock) (r : NmeaReader D) :
    ∀ o ∈ (nmeaReaderParse zone cbs clk r).2, o.sentence = none ∧ o.written = none := by
  have hnmea (c : Bool) (ms : Int) (text : List UInt8) : ∀ o ∈ (if c then [Output.nmea ms text] else
      [] : List (Output D)), o.sentence = none ∧ o.written = none := by
    cases c <;> simp [Output.sentence, Output.written]
  rw [nmeaReaderParse]
  split
  · intro o ho
    cases ho
  · dsimp only
    split
    · exact hnmea _ _ _
    · intro o ho
      rcases List.mem_append.mp ho with ho | ho
      · rcases List.mem_append.mp ho with ho | ho
        · rcases List.mem_append.mp ho with ho | ho
          · exact hnmea _ _ _ o ho
          · obtain ⟨j, rfl⟩ := parseSentence_writes zone clk _ _ o ho
            exact ⟨rfl, rfl⟩
        · rw [reportSvStatus] at ho
          split at ho
          · cases List.mem_singleton.mp ho
            exact ⟨rfl, rfl⟩
          · cases ho
      · rw [reportLocation] at ho
        split at ho
        · cases List.mem_singleton.mp ho
          exact ⟨rfl, rfl⟩
        · cases ho

/-- One byte moves reader and bounded line reader alike. -/
theorem addc_refines (zone : Int) (cbs : GpsCallbacks) (clk : Clock) {r : NmeaReader D}
    {s : Lines.State UInt8} (h : Buffered r s) (c : UInt8) :
    Buffered (nmeaReaderAddc zone cbs clk r c).1 (Lines.step 0x0A 83 s c).1 ∧
      (nmeaReaderAddc zone cbs clk r c).2.filterMap Output.sentence =
        (Lines.step 0x0A 83 s c).2.map (fun l => (l, l.length)) ∧
      ∀ pos ∈ (nmeaReaderAddc zone cbs clk r c).2.filterMap Output.written, pos < 83 := by
  cases h with
  | discarding hover hpos =>
    rw [nmeaReaderAddc, if_pos hover, Lines.step]
    refine ⟨?_, rfl, by simp⟩
    by_cases hc : c = 0x0A
    · simp only [if_pos hc]
      exact .empty (by simp [hc]) hpos
    · simp only [if_neg hc]
      exact .discarding (by simp [hc]) hpos
  | collecting hover hle =>
    have hlen : (r.inBuf.toList.take r.pos).length = r.pos := by simp; omega
    rw [nmeaReaderAddc, if_neg (by simp [hover]), Lines.step, hlen]
    by_cases hfull : 83 ≤ r.pos
    · rw [if_pos hfull, if_pos hfull]
      exact ⟨.discarding rfl rfl, rfl, by simp⟩
    · rw [if_neg hfull, if_neg hfull]
      obtain ⟨htake, hstore⟩ := Buffered.store hover (by omega) c
      have hpos : (r.store c).pos = r.pos + 1 := rfl
      dsimp only
      split
      · have hsame := parse_sameLine zone cbs clk (r.store c)
        have hquiet := parse_quiet zone cbs clk (r.store c)
        have hsentence := List.filterMap_eq_nil_iff.mpr fun o ho => (hquiet o ho).1
        have hwritten := List.filterMap_eq_nil_iff.mpr fun o ho => (hquiet o ho).2
        refine ⟨.empty (hsame.overflow.trans hover) rfl, ?_, ?_⟩
        · simp only [List.filterMap_cons, Output.sentence, hsentence, hpos, htake]
          simp [hlen]
        · simp only [List.filterMap_cons, Output.written, hwritten, List.mem_singleton]
          omega
      · refine ⟨hstore, rfl, ?_⟩
        simp only [List.filterMap_cons, Output.written, List.filterMap_nil, List.mem_singleton]
        omega

theorem reader_refines (zone : Int) (cbs : GpsCallbacks) {r : NmeaReader D}
    {s : Lines.State UInt8} (h : Buffered r s) (is : List (Clock × UInt8)) :
    ((reader zone cbs).out r is).filterMap Output.sentence =
        ((Lines.boundedReader 0x0A 83).out s (is.map Prod.snd)).map (fun l => (l, l.length)) ∧
      ∀ pos ∈ ((reader zone cbs).out r is).filterMap Output.written, pos < 83 := by
  induction is generalizing r s with
  | nil => exact ⟨rfl, by simp⟩
  | cons i is ih =>
    obtain ⟨hstate, hout, hwritten⟩ := addc_refines zone cbs i.1 h i.2
    obtain ⟨ihout, ihwritten⟩ := ih hstate
    rw [Transducer.out_cons, List.filterMap_append, List.filterMap_append, List.map_cons,
      Transducer.out_cons, List.map_append]
    refine ⟨congrArg₂ _ hout ihout, ?_⟩
    intro pos hpos
    rcases List.mem_append.mp hpos with hpos | hpos
    · exact hwritten pos hpos
    · exact ihwritten pos hpos

/-! ## Exactly the lines that fit -/

/-- A reader between two lines frames a stream as intended if and only if no line of at most 83
bytes is behind an 84-byte line that is itself read from its beginning. -/
theorem framesLines_iff (zone : Int) (cbs : GpsCallbacks) (r : NmeaReader D) (hpos : r.pos = 0)
    (hover : r.overflow = false) (is : List (Clock × UInt8)) :
    FramesLines zone cbs r is ↔ Lines.Spared 83 (nmeaLines is) := by
  obtain ⟨hout, hwritten⟩ := reader_refines zone cbs (.empty hover hpos) is
  have hlines : (Lines.boundedReader 0x0A 83).out (.collecting []) (is.map Prod.snd) =
      Lines.handedOver 83 false (nmeaLines is) := Lines.out_eq 0x0A 83 false _
  rw [← Lines.handedOver_eq_filter_iff, FramesLines, hout, hlines]
  constructor
  · rintro ⟨h, -⟩
    refine List.map_injective_iff.mpr ?_ h
    intro l m hlm
    exact (Prod.mk.inj hlm).1
  · intro h
    exact ⟨congrArg _ h, hwritten⟩

/-- A line of `n + 1` bytes at the start of the epoch. -/
def filler (n : Nat) : List (Clock × UInt8) :=
  (List.replicate n (0x41 : UInt8) ++ [0x0A]).map fun c => (⟨0, 0, 0⟩, c)

theorem nmeaLines_filler (n : Nat) (is : List (Clock × UInt8)) :
    nmeaLines (filler n ++ is) = (List.replicate n 0x41 ++ [0x0A]) :: nmeaLines is := by
  have h : (0x0A : UInt8) ∉ List.replicate n 0x41 := by
    intro h
    cases List.eq_of_mem_replicate h
  have hmap : (filler n ++ is).map Prod.snd = List.replicate n 0x41 ++ 0x0A :: is.map Prod.snd := by
    simp [filler]
  rw [nmeaLines, hmap, Lines.terminated_append h, nmeaLines]

theorem framesLines_filler : FramesLines 0 ⟨false, false, false, false⟩ (zeroReader : NmeaReader ℚ)
    (filler 82 ++ (filler 84 ++ (filler 20 ++ []))) := by
  apply (framesLines_iff 0 _ zeroReader rfl rfl _).mpr
  simp only [nmeaLines_filler]
  simp [Lines.Spared, nmeaLines, Lines.terminated]

/-- A line of 84 bytes costs the line behind it. -/
theorem not_framesLines_filler : ¬FramesLines 0 ⟨false, false, false, false⟩
    (zeroReader : NmeaReader ℚ) (filler 83 ++ (filler 20 ++ [])) := by
  obtain ⟨hout, -⟩ := reader_refines (D := ℚ) 0 ⟨false, false, false, false⟩
    (.empty (r := zeroReader) rfl rfl) (filler 83 ++ (filler 20 ++ []))
  have hlines := Lines.out_eq 0x0A 83 false ((filler 83 ++ (filler 20 ++ [])).map Prod.snd)
  rw [← nmeaLines, nmeaLines_filler, nmeaLines_filler] at hlines
  rintro ⟨h, -⟩
  rw [hout, nmeaLines_filler, nmeaLines_filler] at h
  replace h := (congrArg _ hlines).symm.trans h
  simp [Lines.handedOver, nmeaLines, Lines.terminated] at h

end HeadUnit.Gps
