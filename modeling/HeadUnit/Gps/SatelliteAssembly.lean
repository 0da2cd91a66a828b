import HeadUnit.Gps.SatelliteGroups

/-!
# Complete groups

A complete group of GSV sentences is assembled from any state of the reader: the first sentence
restarts the list whatever is in it, no sentence but the last one hands anything over, and what the
last one hands over are the satellites of the group (`group_assembled`).
-/

namespace HeadUnit.Gps

open Chunks

/-! ## Calls -/

section Calls

variable {D : Type} [CDouble D]

/-- Calls of `nmea_reader_parse` one after another, with the outputs of each. Between them only the
line buffer changes. -/
inductive ParseRun (zone : Int) (cbs : GpsCallbacks) :
    NmeaReader D → List (List UInt8) → NmeaReader D → List (List (Output D)) → Prop
  | nil {r r'} : BufferStep r r' → ParseRun zone cbs r [] r' []
  | cons {r r₁ r' text texts outs} (clk : Clock) : BufferStep r r₁ → Holds r₁ text →
      ParseRun zone cbs (nmeaReaderParse zone cbs clk r₁).1 texts r' outs →
      ParseRun zone cbs r (text :: texts) r' ((nmeaReaderParse zone cbs clk r₁).2 :: outs)

variable {zone : Int} {cbs : GpsCallbacks}

theorem ParseRun.length_eq {r r' : NmeaReader D} {texts : List (List UInt8)}
    {outs : List (List (Output D))} (h : ParseRun zone cbs r texts r' outs) :
    outs.length = texts.length := by
  induction h with
  | nil => rfl
  | cons _ _ _ _ ih => exact congrArg Nat.succ ih

theorem ParseRun.head {r r₁ r' : NmeaReader D} {texts : List (List UInt8)}
    {outs : List (List (Output D))} (h : BufferStep r r₁) (hrun : ParseRun zone cbs r₁ texts r' outs) :
    ParseRun zone cbs r texts r' outs := by
  cases hrun with
  | nil hlast => exact .nil (h.trans hlast)
  | cons clk hfirst hholds hrest => exact .cons clk (h.trans hfirst) hholds hrest

/-- A reader between two lines that is fed sentences is called for each of them. -/
theorem reader_parseRun (zone : Int) (cbs : GpsCallbacks) {r : NmeaReader D} (hpos : r.pos = 0)
    (hover : r.overflow = false) {is : List (Clock × UInt8)} {ss : List GsvSentence}
    (his : Transmits is ss) : ∃ outs,
      ParseRun zone cbs r (ss.map GsvSentence.text) ((reader zone cbs).final r is) outs ∧
        ((reader zone cbs).out r is).filterMap Output.status =
          outs.flatMap (List.filterMap Output.status) := by
  induction ss generalizing r is with
  | nil =>
    obtain rfl : is = [] := List.map_eq_nil_iff.mp his
    exact ⟨[], .nil ⟨_, _, rfl⟩, rfl⟩
  | cons s ss ih =>
    obtain ⟨js, ks, rfl, hjs, hks⟩ := List.map_eq_append_iff.mp his
    obtain ⟨i, -, r₁, out, hbuffer, hholds, hout, hfinal, hrun⟩ :=
      s.reader_line zone cbs hpos hover hjs
    have hover₁ : r₁.overflow = false := by
      obtain ⟨pos, inBuf, rfl⟩ := hbuffer
      exact hover
    have hover' := (parse_sameLine zone cbs i.1 r₁).overflow.trans hover₁
    rw [Transducer.final_append, Transducer.out_append, hfinal, hrun]
    obtain ⟨outs, hrest, hstatus⟩ :=
      ih (r := { (nmeaReaderParse zone cbs i.1 r₁).1 with pos := 0 }) rfl hover' hks
    refine ⟨_ :: outs, .cons i.1 hbuffer hholds (hrest.head ⟨0, _, rfl⟩), ?_⟩
    have hline : out.filterMap Output.status = [] :=
      List.filterMap_eq_nil_iff.mpr fun o ho => Output.status_of_isLine (hout o ho)
    rw [List.filterMap_append, List.filterMap_append, hline, hstatus]
    rfl

end Calls

/-! ## Complete groups -/

/-- The sentences of a group for the satellites `prns`, in order. -/
structure CompleteGroup (prns : List Nat) (ss : List GsvSentence) : Prop where
  length_eq : ss.length = (prns.length + 3) / 4
  sentence (i : Nat) (h : i < ss.length) :
    ss[i].total = ss.length ∧ ss[i].number = i + 1 ∧ ss[i].announced = prns.length ∧
      ss[i].prns = (prns.drop (4 * i)).take 4

namespace CompleteGroup

variable {prns : List Nat} {ss : List GsvSentence}

theorem splits (h : CompleteGroup prns ss) :
    Splits (ss.map GsvSentence.chunk) prns.length where
  covers := by
    rw [List.length_map, h.length_eq]
    omega
  tight := by
    rw [List.length_map, h.length_eq]
    omega
  chunk i hi := by
    rw [List.length_map] at hi
    obtain ⟨htotal, hnumber, hannounced, hprns⟩ := h.sentence i hi
    simp [GsvSentence.chunk, htotal, hnumber, hannounced, hprns]

/-- The first sentences carry the first satellites. -/
theorem flatMap_take (h : CompleteGroup prns ss) {k : Nat} (hk : k ≤ ss.length) :
    (ss.take k).flatMap GsvSentence.prns = prns.take (4 * k) := by
  induction k with
  | zero => rfl
  | succ k ih =>
    obtain ⟨-, -, -, hprns⟩ := h.sentence k hk
    rw [List.take_succ_eq_append_getElem hk, List.flatMap_append, ih (Nat.le_of_succ_le hk),
      List.flatMap_singleton, hprns, Nat.mul_succ, List.take_add]

theorem flatMap_prns (h : CompleteGroup prns ss) : ss.flatMap GsvSentence.prns = prns := by
  have hall := h.flatMap_take (Nat.le_refl _)
  rw [List.take_length, h.length_eq, List.take_of_length_le (by omega)] at hall
  exact hall

theorem ne_nil (h : CompleteGroup prns ss) (hprns : prns ≠ []) : ss ≠ [] := by
  have hpos := List.length_pos_iff.mpr hprns
  have hlen := h.length_eq
  exact List.ne_nil_of_length_pos (by omega)

theorem head (h : CompleteGroup prns ss) : ∀ s ∈ ss.head?, s.number = 1 := by
  intro s hs
  cases ss with
  | nil => cases hs
  | cons s' ss =>
    cases hs
    exact (h.sentence 0 (Nat.zero_lt_succ _)).2.1

theorem dropLast (h : CompleteGroup prns ss) : ∀ s ∈ ss.dropLast, s.number ≠ s.total := by
  intro s hs
  obtain ⟨i, hi, rfl⟩ := List.mem_iff_getElem.mp hs
  rw [List.length_dropLast] at hi
  obtain ⟨htotal, hnumber, -, -⟩ := h.sentence i (by omega)
  rw [List.getElem_dropLast, htotal, hnumber]
  omega

theorem getLast (h : CompleteGroup prns ss) : ∀ s ∈ ss.getLast?, s.number = s.total := by
  intro s hs
  rw [List.getLast?_eq_getElem?] at hs
  obtain ⟨hi, rfl⟩ := List.getElem?_eq_some_iff.mp hs
  obtain ⟨htotal, hnumber, -, -⟩ := h.sentence _ hi
  omega

end CompleteGroup

/-! ## Assembly -/

section Assembly

variable {D : Type} [CDouble D] {zone : Int} {cbs : GpsCallbacks}

/-- Sentences of which the last one alone has the last number: their chunks are collected, and handed
over by the last one. -/
theorem ParseRun.assembles (hcb : cbs.svStatusCb = true) {ss : List GsvSentence} (hne : ss ≠ [])
    {r r' : NmeaReader D} {outs : List (List (Output D))}
    (hrun : ParseRun zone cbs r (ss.map GsvSentence.text) r' outs) {list : List Int}
    (hready : (∀ s ∈ ss.head?, s.number = 1) ∨ Lists r list)
    (hdropLast : ∀ s ∈ ss.dropLast, s.number ≠ s.total)
    (hgetLast : ∀ s ∈ ss.getLast?, s.number = s.total) :
    Lists r' (collector.final list (ss.map GsvSentence.chunk)) ∧
      outs.map (List.filterMap Output.status) =
        List.replicate (ss.length - 1) [] ++ [[r'.svStatus]] := by
  induction ss generalizing r list outs with
  | nil => exact absurd rfl hne
  | cons s ss ih =>
    cases hrun with
    | @cons _ r₁ _ _ _ outs clk hbuffer hholds hrest =>
      have hready₁ : s.number = 1 ∨ Lists r₁ list := by
        refine hready.imp (fun h => h s rfl) fun h => ?_
        obtain ⟨pos, inBuf, rfl⟩ := hbuffer
        exact ⟨h.unchanged, h.numSvs, h.prns⟩
      obtain ⟨hlists, hstatus⟩ := s.parse_collects zone hcb clk hholds hready₁
      cases ss with
      | nil =>
        cases hrest with
        | nil hlast =>
          rw [if_pos (hgetLast s rfl)] at hstatus
          obtain ⟨pos, inBuf, rfl⟩ := hlast
          exact ⟨⟨hlists.unchanged, hlists.numSvs, hlists.prns⟩, congrArg (· :: []) hstatus⟩
      | cons s' ss =>
        rw [if_neg (hdropLast s List.mem_cons_self)] at hstatus
        obtain ⟨hlists', hstatus'⟩ := ih (List.cons_ne_nil s' ss) hrest (.inr hlists)
          (fun s hs => hdropLast s (List.mem_cons_of_mem _ hs)) hgetLast
        refine ⟨hlists', ?_⟩
        rw [List.map_cons, hstatus, hstatus']
        rfl

/-- The list holds the satellites `prns`, and nothing but the last call handed it over. -/
structure Assembled (prns : List Nat) (r : NmeaReader D) (outs : List (List (Output D))) :
    Prop where
  numSvs : r.svStatus.numSvs = prns.length
  prn (j : Nat) (hj : j < prns.length) :
    (r.svStatus.svList.toList.map GpsSvInfo.prn)[j]? = some (prns[j] : Int)
  handedOver : outs.map (List.filterMap Output.status) =
    List.replicate (outs.length - 1) [] ++ [[r.svStatus]]

/-- A complete group is assembled, whatever the reader holds before. -/
theorem group_assembled (hcb : cbs.svStatusCb = true) {prns : List Nat} (hprns : prns ≠ [])
    {ss : List GsvSentence} (hgroup : CompleteGroup prns ss) {r r' : NmeaReader D}
    {outs : List (List (Output D))}
    (hrun : ParseRun zone cbs r (ss.map GsvSentence.text) r' outs) : Assembled prns r' outs := by
  have hne := hgroup.ne_nil hprns
  have hready : (∀ s ∈ ss.head?, s.number = 1) ∨ Lists r [] := .inl hgroup.head
  obtain ⟨hlists, hstatus⟩ := hrun.assembles hcb hne hready hgroup.dropLast hgroup.getLast
  have hchunks := final_of_isPrefix hgroup.splits (List.Sublist.refl _) (.inl rfl) (.inl rfl)
    List.prefix_rfl (.inl rfl)
  rw [hchunks, flatMap_items, hgroup.flatMap_prns] at hlists
  have hlen := hlists.length_eq
  rw [List.length_map] at hlen
  refine ⟨hlen.symm, ?_, ?_⟩
  · intro j hj
    have hlist := hlists.prns
    rw [GpsSvStatus.prns, GpsSvStatus.svs, List.map_take] at hlist
    rw [← List.getElem?_take_of_lt (hlen ▸ hj), hlist, List.getElem?_map,
      List.getElem?_eq_getElem hj]
    rfl
  · rw [hrun.length_eq, List.length_map, hstatus]

theorem nine_complete :
    CompleteGroup [1, 2, 3, 4, 5, 6, 7, 8, 9] [nine₁, nine₂, nine₃] :=
  ⟨rfl, by decide⟩

/-- Behind a group of eight of which the last sentence is lost. -/
theorem group_assembled_nine : ∃ outs : List (List (Output ℚ)),
    Assembled [1, 2, 3, 4, 5, 6, 7, 8, 9]
      ((reader 0 statusOnly).final ((reader 0 statusOnly).final
        (nmeaReaderInit 0 ⟨0, 0, 0⟩) (transmission [high₁])) (transmission [nine₁, nine₂, nine₃]))
      outs := by
  have hcb : statusOnly.svStatusCb = true := rfl
  obtain ⟨hbetween, -⟩ := reader_collector 0 hcb (init_listing (D := ℚ) 0 ⟨0, 0, 0⟩)
    (transmission_transmits [high₁])
  obtain ⟨outs, hrun, -⟩ := reader_parseRun 0 statusOnly hbetween.pos hbetween.overflow
    (transmission_transmits [nine₁, nine₂, nine₃])
  exact ⟨outs, group_assembled hcb (List.cons_ne_nil _ _) nine_complete hrun⟩

end Assembly

end HeadUnit.Gps
