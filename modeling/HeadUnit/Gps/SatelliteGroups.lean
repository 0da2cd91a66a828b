import Mathlib.Tactic.MkIffOfInductiveProp
import HeadUnit.Gps.Satellites
import HeadUnit.Gps.Sentences
import HeadUnit.Std.Chunks

/-!
# Satellite lists and lost sentences

A group of GSV sentences is a list of satellites in chunks of four. The reader collects them as
`Chunks.collector` does (`sentence_simulates`): a first sentence restarts the list, a last one hands
it over, and nothing in between is checked. So a list can mix groups (`not_unmixed_lost`), but a
group that is begun anew and is clean is handed over unmixed (`lists_unmixed`).
-/

namespace HeadUnit.Gps

open Chunks

/-! ## Sentences and groups -/

/-- `f` is a decimal number of at most nine digits. -/
@[mk_iff]
structure Numeral (f : List UInt8) (n : Nat) : Prop where
  ne_nil : f ≠ []
  digits : ∀ d ∈ f, IsDigit d
  length_le : f.length ≤ 9
  value : decVal f = n

instance (f : List UInt8) (n : Nat) : Decidable (Numeral f n) :=
  decidable_of_iff _ (numeral_iff f n).symm

theorem Numeral.readInt {f : List UInt8} {n : Nat} (h : Numeral f n) : readInt f = n := by
  rw [readInt_digits h.ne_nil h.digits h.length_le, h.value]

/-- A GSV sentence that fits into the buffer: four fields for each satellite from the fifth on. -/
@[mk_iff]
structure SpellsGsv (text : List UInt8) (total number announced : Nat) (prns : List Nat) :
    Prop where
  getLast_eq : text.getLast? = some 0x0A
  not_mem : 0x0A ∉ text.dropLast
  length_le : text.length ≤ 83
  announced_pos : 0 < announced
  announced_le : announced ≤ 32
  length_prns : prns.length ≤ 4
  id : slice ((fields text).getD 0 []) 2 5 = ascii ['G', 'S', 'V']
  total : Numeral ((fields text).getD 1 []) total
  number : Numeral ((fields text).getD 2 []) number
  announced : Numeral ((fields text).getD 3 []) announced
  prn : ∀ i, (h : i < prns.length) → Numeral ((fields text).getD (i * 4 + 4) []) prns[i]

instance (text : List UInt8) (total number announced : Nat) (prns : List Nat) :
    Decidable (SpellsGsv text total number announced prns) :=
  decidable_of_iff _ (spellsGsv_iff text total number announced prns).symm

structure GsvSentence where
  text : List UInt8
  total : Nat
  number : Nat
  announced : Nat
  prns : List Nat
  spells : SpellsGsv text total number announced prns

/-- The numbered sentences that announce the same satellites. -/
structure GsvGroup where
  announced : Nat
  sentences : List GsvSentence
  length_sentences : sentences.length = (announced + 3) / 4
  sentence (i : Nat) (h : i < sentences.length) :
    sentences[i].total = sentences.length ∧ sentences[i].number = i + 1 ∧
      sentences[i].announced = announced ∧ sentences[i].prns.length = min 4 (announced - 4 * i)
  nodup : (sentences.flatMap GsvSentence.prns).Nodup

/-- The satellites of a group, as the reader stores them. -/
def GsvGroup.satellites (g : GsvGroup) : List Int :=
  (g.sentences.flatMap GsvSentence.prns).map (↑)

/-- A group of which some sentences are lost. -/
structure Reception where
  group : GsvGroup
  received : List GsvSentence
  sublist : received.Sublist group.sentences

/-- What the reader takes for the satellites of a sentence. -/
def slots (text : List UInt8) : List Int :=
  (List.range 4).map fun i => readInt ((fields text).getD (i * 4 + 4) [])

theorem GsvSentence.slots_take (s : GsvSentence) :
    (slots s.text).take s.prns.length = s.prns.map (↑) := by
  apply List.ext_getElem
  · have := s.spells.length_prns
    simp [slots]
    omega
  · intro i hi hi'
    rw [List.length_map] at hi'
    have hprn := (s.spells.prn i hi').readInt
    rw [List.getD_eq_getElem?_getD] at hprn
    simp [slots, hprn]

def GsvSentence.chunk (s : GsvSentence) : Chunk Int 4 where
  total := s.total
  number := s.number
  announced := s.announced
  items := s.prns.map (↑)
  filler := (slots s.text).drop s.prns.length
  length_slots := by
    rw [← s.slots_take, List.take_append_drop]
    rfl

theorem GsvSentence.chunk_slots (s : GsvSentence) :
    s.chunk.items ++ s.chunk.filler = slots s.text := by
  show s.prns.map (↑) ++ (slots s.text).drop s.prns.length = slots s.text
  rw [← s.slots_take, List.take_append_drop]

theorem GsvGroup.splits (g : GsvGroup) :
    Splits (g.sentences.map GsvSentence.chunk) g.announced where
  covers := by
    rw [List.length_map, g.length_sentences]
    omega
  tight := by
    rw [List.length_map, g.length_sentences]
    omega
  chunk i h := by
    rw [List.length_map] at h
    obtain ⟨htotal, hnumber, hannounced, hlength⟩ := g.sentence i h
    simp [GsvSentence.chunk, htotal, hnumber, hannounced, hlength]

/-! ## One sentence -/

variable {D : Type}

def GpsSvStatus.prns (sv : GpsSvStatus D) : List Int := sv.svs.map GpsSvInfo.prn

def Output.prns : Output D → Option (List Int)
  | .svStatus sv => some sv.prns
  | _ => none

variable [CDouble D]

theorem gsvLoop_prns (t : List Token) {n : Int} (hn : n ≤ 32) (left i : Nat)
    (sv : GpsSvStatus D) :
    (gsvLoop t n left i sv.numSvs sv).1.prns = sv.prns ++
      ((List.range' i left).map fun i => intField t (i * 4 + 4)).take (n - sv.numSvs).toNat := by
  induction left generalizing i sv with
  | zero => simp [gsvLoop]
  | succ left ih =>
    rw [gsvLoop]
    split
    case isTrue hlt =>
      have hcount : (n - sv.numSvs).toNat = (n - (sv.numSvs + 1 : Nat)).toNat + 1 := by omega
      have hstore : (GpsSvStatus.prns { sv with
          svList := sv.svList.setIfInBounds sv.numSvs (gsvEntry t i)
          numSvs := sv.numSvs + 1 }) = sv.prns ++ [intField t (i * 4 + 4)] := by
        simp only [GpsSvStatus.prns, GpsSvStatus.svs, Vector.toList_setIfInBounds]
        rw [Mem.take_succ_set _ (by simp; omega), List.map_append]
        rfl
      have hloop := ih (i + 1) { sv with
        svList := sv.svList.setIfInBounds sv.numSvs (gsvEntry t i)
        numSvs := sv.numSvs + 1 }
      rw [hstore] at hloop
      rw [hcount, List.range'_succ, List.map_cons, List.take_succ_cons]
      dsimp only at hloop ⊢
      rw [hloop, List.append_assoc]
      rfl
    case isFalse hlt =>
      have hcount : (n - sv.numSvs).toNat = 0 := by omega
      rw [hcount, List.take_zero, List.append_nil]

/-- What a GSV sentence makes of the list and of the flag that has it handed over. -/
theorem parseGsv_prns (t : List Token) (r : NmeaReader D) (hpos : 0 < intField t 3)
    (hle : intField t 3 ≤ 32) :
    let base := if intField t 2 = 1 then [] else r.svStatus.prns
    let numSvs := if intField t 2 = 1 then 0 else r.svStatus.numSvs
    (parseGsv t r).1.svStatus.prns = base ++
        ((List.range 4).map fun i => intField t (i * 4 + 4)).take (intField t 3 - numSvs).toNat ∧
      (parseGsv t r).1.svStatusChanged = if intField t 2 = intField t 1 then true else
        if intField t 2 = 1 then false else r.svStatusChanged := by
  have hloop (sv : GpsSvStatus D) := gsvLoop_prns t hle 4 0 sv
  rw [← List.range_eq_range'] at hloop
  have hnil : GpsSvStatus.prns { r.svStatus with numSvs := 0 } = [] := rfl
  simp only [parseGsv, if_pos hpos]
  by_cases hone : intField t 2 = 1
  · have hlist := hloop { r.svStatus with numSvs := 0 }
    rw [hnil] at hlist
    simp only [hone, if_true]
    split <;> exact ⟨hlist, rfl⟩
  · simp only [hone, if_false]
    split <;> exact ⟨hloop r.svStatus, rfl⟩

omit [CDouble D] in
theorem filterMap_prns (os : List (Output D)) :
    os.filterMap Output.prns = (os.filterMap Output.status).map GpsSvStatus.prns := by
  rw [List.map_filterMap]
  refine List.filterMap_congr fun o _ => ?_
  cases o <;> rfl

/-! ## The reader as collector -/

/-- The reader holds `list` and has nothing to hand over. -/
structure Lists (r : NmeaReader D) (list : List Int) : Prop where
  unchanged : r.svStatusChanged = false
  numSvs : r.svStatus.numSvs ≤ gpsMaxSvs
  prns : r.svStatus.prns = list

omit [CDouble D] in
theorem Lists.length_eq {r : NmeaReader D} {list : List Int} (h : Lists r list) :
    list.length = r.svStatus.numSvs := by
  have hle := h.numSvs
  rw [gpsMaxSvs] at hle
  rw [← h.prns, GpsSvStatus.prns, GpsSvStatus.svs, List.length_map, List.length_take]
  simpa using hle

/-- Between two sentences the reader holds `list` and has nothing to hand over. -/
structure Listing (r : NmeaReader D) (list : List Int) : Prop where
  pos : r.pos = 0
  overflow : r.overflow = false
  unchanged : r.svStatusChanged = false
  numSvs : r.svStatus.numSvs ≤ gpsMaxSvs
  prns : r.svStatus.prns = list

theorem GsvSentence.intField_eq (s : GsvSentence) {mem : List UInt8} {t : List Token}
    (h : ∀ i : Nat, i < maxNmeaTokens →
      Spells mem (nmeaTokenizerGet t i) ((fields s.text).getD i [])) :
    intField t 1 = s.total ∧ intField t 2 = s.number ∧ intField t 3 = s.announced ∧
      ((List.range 4).map fun i => intField t (i * 4 + 4)) = slots s.text := by
  have hfield (i : Nat) (hi : i < maxNmeaTokens) := (h i hi).intField
  refine ⟨(hfield 1 (by decide)).trans s.spells.total.readInt,
    (hfield 2 (by decide)).trans s.spells.number.readInt,
    (hfield 3 (by decide)).trans s.spells.announced.readInt, ?_⟩
  apply List.map_congr_left
  intro i hi
  have hi : i < 4 := List.mem_range.mp hi
  exact hfield (i * 4 + 4) (by rw [maxNmeaTokens]; omega)

theorem GsvSentence.length_text (s : GsvSentence) :
    5 ≤ ((fields s.text).getD 0 []).length ∧ 9 ≤ s.text.length := by
  have hid : 5 ≤ ((fields s.text).getD 0 []).length :=
    le_of_slice_length (congrArg List.length s.spells.id) (by decide)
  have h1 := List.length_pos_iff.mpr s.spells.total.ne_nil
  have h2 := List.length_pos_iff.mpr s.spells.number.ne_nil
  have h3 := List.length_pos_iff.mpr s.spells.announced.ne_nil
  have hle := length_fields_le s.text
  refine ⟨hid, ?_⟩
  generalize fields s.text = fs at *
  rcases fs with _ | ⟨f₀, _ | ⟨f₁, _ | ⟨f₂, _ | ⟨f₃, fs⟩⟩⟩⟩ <;> simp at hid h1 h2 h3 hle
  omega

/-- The reader collects a sentence and parses it. -/
theorem GsvSentence.reader_line (s : GsvSentence) (zone : Int) (cbs : GpsCallbacks)
    {r : NmeaReader D} (hpos : r.pos = 0) (hover : r.overflow = false)
    {is : List (Clock × UInt8)} (his : is.map Prod.snd = s.text) :
    ∃ i ∈ is, ∃ r' out, BufferStep r r' ∧ Holds r' s.text ∧ (∀ o ∈ out, o.isLine) ∧
      (reader zone cbs).final r is = { (nmeaReaderParse zone cbs i.1 r').1 with pos := 0 } ∧
      (reader zone cbs).out r is = out ++ (nmeaReaderParse zone cbs i.1 r').2 := by
  have hline : s.text.dropLast ++ [0x0A] = s.text :=
    List.dropLast_append_getLast? _ s.spells.getLast_eq
  have hfits : s.text.dropLast.length < 83 := by
    have hle := s.spells.length_le
    rw [List.length_dropLast]
    omega
  have hread := Gps.reader_line zone cbs hpos hover (his.trans hline.symm) s.spells.not_mem hfits
  rwa [hline] at hread

omit [CDouble D] in
theorem Output.prns_of_isLine {o : Output D} (h : o.isLine) : o.prns = none := by
  cases o with
  | inWrite | parse | nmea => rfl
  | svWrite | svStatus | location => cases h

/-- The GSV branch on the fields of a sentence. -/
theorem GsvSentence.parseGsv (s : GsvSentence) {mem : List UInt8} {t : List Token}
    (ht : ∀ i : Nat, i < maxNmeaTokens →
      Spells mem (nmeaTokenizerGet t i) ((fields s.text).getD i []))
    {r : NmeaReader D} {list : List Int} (h : Lists r list) :
    (Gps.parseGsv t r).1.svStatus.prns = collect list s.chunk ∧
      (Gps.parseGsv t r).1.svStatusChanged = decide (s.number = s.total) ∧
      (Gps.parseGsv t r).1.svStatus.numSvs ≤ gpsMaxSvs := by
  obtain ⟨htotal, hnumber, hannounced, hslots⟩ := s.intField_eq ht
  have hpos := s.spells.announced_pos
  have hle32 := s.spells.announced_le
  have hle := h.numSvs
  obtain ⟨hlist, hchanged⟩ := parseGsv_prns t r (by omega) (by omega)
  obtain ⟨hcount, -⟩ := parseGsv_spec t r
  rw [hannounced, hnumber, hslots] at hlist
  rw [hannounced, hnumber] at hcount
  rw [hnumber, htotal] at hchanged
  refine ⟨?_, ?_, ?_⟩
  · have hchunk : collect list s.chunk = (if s.number = 1 then [] else list) ++
        (slots s.text).take (s.announced - (if s.number = 1 then [] else list).length) := by
      rw [← s.chunk_slots]
      rfl
    rw [hlist, hchunk, h.prns, ← h.length_eq]
    have hcast : ((s.number : Int) = 1) ↔ s.number = 1 := by omega
    simp only [hcast]
    split
    · congr 2
    · congr 2
      omega
  · rw [hchanged, h.unchanged]
    have hcast : ((s.number : Int) = s.total) ↔ s.number = s.total := by omega
    simp [hcast]
  · rw [hcount]
    rw [gpsMaxSvs] at *
    rw [gsvBase, gsvCount]
    split <;> omega

/-- The reader as a first sentence leaves it to the loop. -/
def NmeaReader.restarted (r : NmeaReader D) : NmeaReader D :=
  { r with svStatusChanged := false, svStatus := { r.svStatus with numSvs := 0 } }

omit [CDouble D] in
theorem restarted_lists (r : NmeaReader D) : Lists r.restarted [] :=
  ⟨rfl, Nat.zero_le _, rfl⟩

/-- A first sentence makes the same of any list. -/
theorem parseGsv_restarted {t : List Token} (r : NmeaReader D) (hpos : 0 < intField t 3)
    (hone : intField t 2 = 1) : parseGsv t r = parseGsv t r.restarted := by
  simp only [parseGsv, if_pos hpos, if_pos hone]
  rfl

/-- A sentence adds its chunk to the list, or begins the list with it, and has the list handed over
if it is the last one. -/
theorem GsvSentence.parse_collects (s : GsvSentence) (zone : Int) {cbs : GpsCallbacks}
    (hcb : cbs.svStatusCb = true) (clk : Clock) {r : NmeaReader D} {list : List Int}
    (hholds : Holds r s.text) (h : s.number = 1 ∨ Lists r list) :
    Lists (nmeaReaderParse zone cbs clk r).1 (collect list s.chunk) ∧
      (nmeaReaderParse zone cbs clk r).2.filterMap Output.status =
        if s.number = s.total then [(nmeaReaderParse zone cbs clk r).1.svStatus] else [] := by
  obtain ⟨hid5, hlen⟩ := s.length_text
  obtain ⟨t, out, hout, hparse, hid, hspells⟩ := parse_fields zone cbs clk hholds hid5 hlen
  have ht (i : Nat) (hi : i < maxNmeaTokens) := (hspells i hi).1
  have hgsv : (Gps.parseGsv t r).1.svStatus.prns = collect list s.chunk ∧
      (Gps.parseGsv t r).1.svStatusChanged = decide (s.number = s.total) ∧
      (Gps.parseGsv t r).1.svStatus.numSvs ≤ gpsMaxSvs := by
    rcases h with hone | hlists
    · obtain ⟨-, hnumber, hannounced, -⟩ := s.intField_eq ht
      have hpos := s.spells.announced_pos
      have hbegin : collect list s.chunk = collect [] s.chunk := by
        have hchunk : s.chunk.number = 1 := hone
        rw [collect, collect, if_pos hchunk, if_pos hchunk]
      rw [parseGsv_restarted r (by omega) (by omega), hbegin]
      exact s.parseGsv ht (restarted_lists r)
    · exact s.parseGsv ht hlists
  obtain ⟨hlist, hchanged, hnumSvs⟩ := hgsv
  have hsentence : parseSentence zone clk t r = Gps.parseGsv t r := by
    rw [parseSentence, hid, s.spells.id]
    rfl
  obtain ⟨hdone, hstatus⟩ := handle_status zone hcb clk t r
  have hsvs := (handle_svs zone cbs clk t r).1
  have hline : out.filterMap Output.status = [] :=
    List.filterMap_eq_nil_iff.mpr fun o ho => Output.status_of_isLine (hout o ho)
  rw [hsentence] at hstatus hsvs
  rw [hchanged] at hstatus
  rw [hparse, List.filterMap_append, hline, hstatus]
  refine ⟨⟨hdone, hsvs ▸ hnumSvs, (congrArg GpsSvStatus.prns hsvs).trans hlist⟩, ?_⟩
  simp only [decide_eq_true_eq, List.nil_append, hsvs]

/-- To read a sentence is to collect its chunk. -/
theorem sentence_simulates (zone : Int) {cbs : GpsCallbacks} (hcb : cbs.svStatusCb = true) :
    (reader (D := D) zone cbs).Simulates collector
      (fun is c => ∃ s : GsvSentence, s.chunk = c ∧ is.map Prod.snd = s.text) Output.prns
      Listing := by
  rintro r list is c h ⟨s, rfl, his⟩
  obtain ⟨⟨clk, c⟩, -, r', out, hbuffer, hholds, hout, hfinal, hrun⟩ :=
    s.reader_line zone cbs h.pos h.overflow his
  obtain ⟨pos, inBuf, rfl⟩ := hbuffer
  have hoverflow := (parse_sameLine zone cbs clk { r with pos := pos, inBuf := inBuf }).overflow
  obtain ⟨hlists, hstatus⟩ := s.parse_collects zone hcb clk hholds
    (.inr ⟨h.unchanged, h.numSvs, h.prns⟩)
  have hnone : out.filterMap Output.prns = [] :=
    List.filterMap_eq_nil_iff.mpr fun o ho => Output.prns_of_isLine (hout o ho)
  have hprns := hlists.prns
  rw [hfinal, hrun, List.filterMap_append, hnone, filterMap_prns, hstatus]
  refine ⟨⟨rfl, hoverflow.trans h.overflow, hlists.unchanged, hlists.numSvs, hprns⟩, ?_⟩
  have hhanded : (collector.step list s.chunk).2 =
      if s.number = s.total then [collect list s.chunk] else [] := rfl
  rw [hhanded, ← hprns, List.nil_append]
  split <;> rfl

/-! ## Runs -/

/-- Sentences arrive, each byte at some time. -/
def Transmits (is : List (Clock × UInt8)) (ss : List GsvSentence) : Prop :=
  is.map Prod.snd = ss.flatMap GsvSentence.text

theorem Transmits.forall₂ {is : List (Clock × UInt8)} {ss : List GsvSentence}
    (h : Transmits is ss) :
    ∃ iss, is = iss.flatten ∧ List.Forall₂ (fun is c => ∃ s : GsvSentence,
      s.chunk = c ∧ is.map Prod.snd = s.text) iss (ss.map GsvSentence.chunk) := by
  induction ss generalizing is with
  | nil => exact ⟨[], List.map_eq_nil_iff.mp h, .nil⟩
  | cons s ss ih =>
    obtain ⟨js, ks, rfl, hjs, hks⟩ := List.map_eq_append_iff.mp h
    obtain ⟨iss, rfl, hiss⟩ := ih hks
    exact ⟨js :: iss, rfl, .cons ⟨s, rfl, hjs⟩ hiss⟩

/-- The reader collects the chunks of what it receives. -/
theorem reader_collector (zone : Int) {cbs : GpsCallbacks} (hcb : cbs.svStatusCb = true)
    {r : NmeaReader D} {list : List Int} (h : Listing r list) {is : List (Clock × UInt8)}
    {ss : List GsvSentence} (his : Transmits is ss) :
    Listing ((reader zone cbs).final r is) (collector.final list (ss.map GsvSentence.chunk)) ∧
      ((reader zone cbs).out r is).filterMap Output.prns =
        collector.out list (ss.map GsvSentence.chunk) := by
  obtain ⟨iss, rfl, hiss⟩ := his.forall₂
  exact (sentence_simulates zone hcb).run h hiss

theorem init_listing (zone : Int) (clk : Clock) :
    Listing (nmeaReaderInit zone clk : NmeaReader D) [] :=
  ⟨rfl, rfl, rfl, Nat.zero_le _, rfl⟩

/-- Every list handed over consists of satellites of one group and has none twice. -/
def Unmixed (zone : Int) (cbs : GpsCallbacks) (r : NmeaReader D) (Rs : List Reception) : Prop :=
  ∀ is, Transmits is (Rs.flatMap Reception.received) →
    ∀ list ∈ ((reader zone cbs).out r is).filterMap Output.prns,
      ∃ R ∈ Rs, list ⊆ R.group.satellites ∧ list.Nodup

/-! ## Two groups of eight and one of nine -/

/-- A sentence with empty fields for elevation, azimuth and signal. -/
def gsvText (total number announced : Nat) (prns : List Nat) : List UInt8 :=
  ascii (['$', 'G', 'P', 'G', 'S', 'V', ','] ++ Nat.toDigits 10 total ++ [','] ++
    Nat.toDigits 10 number ++ [','] ++ Nat.toDigits 10 announced ++
    prns.flatMap (fun prn => [','] ++ Nat.toDigits 10 prn ++ [',', ',', ',']) ++ ['\n'])

def low₁ : GsvSentence := ⟨gsvText 2 1 8 [1, 2, 3, 4], 2, 1, 8, [1, 2, 3, 4], by decide +kernel⟩
def low₂ : GsvSentence := ⟨gsvText 2 2 8 [5, 6, 7, 8], 2, 2, 8, [5, 6, 7, 8], by decide +kernel⟩

def low : GsvGroup := ⟨8, [low₁, low₂], rfl, by decide, by decide⟩

def high₁ : GsvSentence :=
  ⟨gsvText 2 1 8 [21, 22, 23, 24], 2, 1, 8, [21, 22, 23, 24], by decide +kernel⟩
def high₂ : GsvSentence :=
  ⟨gsvText 2 2 8 [25, 26, 27, 28], 2, 2, 8, [25, 26, 27, 28], by decide +kernel⟩

def high : GsvGroup := ⟨8, [high₁, high₂], rfl, by decide, by decide⟩

def nine₁ : GsvSentence := ⟨gsvText 3 1 9 [1, 2, 3, 4], 3, 1, 9, [1, 2, 3, 4], by decide +kernel⟩
def nine₂ : GsvSentence := ⟨gsvText 3 2 9 [5, 6, 7, 8], 3, 2, 9, [5, 6, 7, 8], by decide +kernel⟩
def nine₃ : GsvSentence := ⟨gsvText 3 3 9 [9], 3, 3, 9, [9], by decide +kernel⟩

def nine : GsvGroup := ⟨9, [nine₁, nine₂, nine₃], rfl, by decide, by decide⟩

def lowCut : Reception := ⟨low, [low₁], by simp [low]⟩
def highTail : Reception := ⟨high, [high₂], by simp [high]⟩
def nineGap : Reception := ⟨nine, [nine₁, nine₃], by simp [nine]⟩

/-- The bytes of sentences, at the start of the epoch. -/
def transmission (ss : List GsvSentence) : List (Clock × UInt8) :=
  (ss.flatMap GsvSentence.text).map fun c => (⟨0, 0, 0⟩, c)

theorem transmission_transmits (ss : List GsvSentence) : Transmits (transmission ss) ss := by
  rw [Transmits, transmission, List.map_map]
  exact List.map_id _

/-- Only the status callback is installed. -/
def statusOnly : GpsCallbacks := ⟨false, true, false, false⟩

/-- With the end of one group and the beginning of the next lost, the list has satellites of both;
with a sentence lost before a short last one, it has entries that are no satellites. -/
theorem not_unmixed_lost :
    ¬Unmixed 0 statusOnly (nmeaReaderInit 0 ⟨0, 0, 0⟩ : NmeaReader ℚ)
        [lowCut, highTail] ∧
      ¬Unmixed 0 statusOnly (nmeaReaderInit 0 ⟨0, 0, 0⟩ : NmeaReader ℚ)
        [nineGap] := by
  have hout (ss : List GsvSentence) := (reader_collector 0 (rfl : statusOnly.svStatusCb = true)
    (init_listing (D := ℚ) 0 ⟨0, 0, 0⟩) (transmission_transmits ss)).2
  constructor
  · intro h
    have hlists := h _ (transmission_transmits _)
    rw [hout] at hlists
    revert hlists
    decide +kernel
  · intro h
    have hlists := h _ (transmission_transmits _)
    rw [hout] at hlists
    revert hlists
    decide +kernel

/-! ## Clean groups -/

namespace Reception

/-- The first sentence arrives. -/
def Begun (R : Reception) : Prop := ∃ s ∈ R.received, s.number = 1

/-- Nothing is lost, or all sentences are full, or the last one is lost. -/
def Clean (R : Reception) : Prop :=
  R.received = R.group.sentences ∨ 4 ∣ R.group.announced ∨ ∀ s ∈ R.received, s.number < s.total

/-- The satellites in the sentences that arrive. -/
def prns (R : Reception) : List Nat := R.received.flatMap GsvSentence.prns

end Reception

theorem flatMap_items (ss : List GsvSentence) :
    (ss.map GsvSentence.chunk).flatMap Chunk.items = (ss.flatMap GsvSentence.prns).map (↑) := by
  rw [List.flatMap_map, List.map_flatMap]
  rfl

/-- What is handed over from a begun clean group on consists of its satellites and has none twice,
up to the next first sentence or the next sentence that announces more satellites. -/
theorem lists_unmixed (zone : Int) {cbs : GpsCallbacks} (hcb : cbs.svStatusCb = true) (clk : Clock)
    (before : List Reception) (R : Reception) (behind : List Reception)
    (hbegun : R.Begun ∨ ∀ B ∈ before, B.received = []) (hclean : R.Clean)
    (hbehind : ∀ B ∈ behind, ∀ s ∈ B.received, s.number ≠ 1 ∧ s.announced ≤ R.prns.length)
    (is js : List (Clock × UInt8)) (his : Transmits is (before.flatMap Reception.received))
    (hjs : Transmits js ((R :: behind).flatMap Reception.received)) :
    ∀ list ∈ ((reader zone cbs).out ((reader zone cbs).final
        (nmeaReaderInit zone clk : NmeaReader D) is) js).filterMap Output.prns,
      list ⊆ R.group.satellites ∧ list.Nodup := by
  intro list hlist
  obtain ⟨hstate, -⟩ := reader_collector (D := D) zone hcb (init_listing zone clk) his
  obtain ⟨-, hout⟩ := reader_collector zone hcb hstate hjs
  rw [hout, List.flatMap_cons, List.map_append] at hlist
  have hsub := handedOver_items R.group.splits (R.sublist.map _) ?_ ?_ ?_ hlist
  · rw [flatMap_items] at hsub
    exact ⟨hsub.subset, (R.group.nodup.map Nat.cast_injective).sublist hsub⟩
  · rcases hbegun with ⟨s, hs, hone⟩ | hnil
    · exact .inr ⟨s.chunk, List.mem_map_of_mem hs, hone⟩
    · apply Or.inl
      rw [List.flatMap_eq_nil_iff.mpr hnil]
      rfl
  · refine hclean.imp (congrArg _) (Or.imp id ?_)
    rintro hlost c hc
    obtain ⟨s, hs, rfl⟩ := List.mem_map.mp hc
    exact hlost s hs
  · intro c hc
    obtain ⟨s, hs, rfl⟩ := List.mem_map.mp hc
    obtain ⟨B, hB, hs⟩ := List.mem_flatMap.mp hs
    obtain ⟨hnumber, hle⟩ := hbehind B hB s hs
    refine ⟨hnumber, hle.trans_eq ?_⟩
    rw [flatMap_items, List.length_map]
    rfl

/-- Both the complete group and the end of the next one have the complete group handed over. -/
theorem lists_unmixed_low :
    ((reader 0 statusOnly).out ((reader 0 statusOnly).final
        (nmeaReaderInit 0 ⟨0, 0, 0⟩ : NmeaReader ℚ) (transmission nineGap.received))
      (transmission [low₁, low₂, high₂])).filterMap Output.prns =
        [[1, 2, 3, 4, 5, 6, 7, 8], [1, 2, 3, 4, 5, 6, 7, 8]] ∧
      [1, 2, 3, 4, 5, 6, 7, 8] ⊆ low.satellites ∧ ([1, 2, 3, 4, 5, 6, 7, 8] : List Int).Nodup := by
  have hcb : statusOnly.svStatusCb = true := rfl
  obtain ⟨hstate, -⟩ := reader_collector 0 hcb (init_listing (D := ℚ) 0 ⟨0, 0, 0⟩)
    (transmission_transmits nineGap.received)
  have hout := (reader_collector 0 hcb hstate (transmission_transmits [low₁, low₂, high₂])).2
  have hlists : collector.out (collector.final [] (nineGap.received.map GsvSentence.chunk))
      ([low₁, low₂, high₂].map GsvSentence.chunk) =
        [[1, 2, 3, 4, 5, 6, 7, 8], [1, 2, 3, 4, 5, 6, 7, 8]] := by decide +kernel
  rw [hlists] at hout
  refine ⟨hout, ?_⟩
  exact lists_unmixed 0 hcb ⟨0, 0, 0⟩ [nineGap] ⟨low, [low₁, low₂], .refl _⟩ [highTail]
    (.inl ⟨low₁, List.mem_cons_self, rfl⟩) (.inl rfl) (by decide +kernel) _ _
    (transmission_transmits _) (transmission_transmits _) _ (hout ▸ List.mem_cons_self)

end HeadUnit.Gps
