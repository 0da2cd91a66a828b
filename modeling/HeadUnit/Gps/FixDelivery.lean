import HeadUnit.Gps.Effects
import HeadUnit.Gps.Thread
import HeadUnit.Std.Slot

/-!
# Delivery of fixes

Every group of a fix is a slot: a sentence that carries the group puts its value, a call of the
location callback takes it. The invariant over whole runs of the thread (`Delivering`) says that the
flag and the value of a group in `reader.fix` are what the slot holds behind the outputs so far.
-/

namespace HeadUnit.Gps

inductive Group where
  | latLong
  | altitude
  | bearing
  | speed
  deriving DecidableEq, Repr

variable {D : Type}

namespace GpsLocation

/-- Whether the `HAS_` flag of a group is set. -/
def has (fix : GpsLocation D) : Group → Bool
  | .latLong => fix.flags.latLong
  | .altitude => fix.flags.altitude
  | .bearing => fix.flags.bearing
  | .speed => fix.flags.speed

def value (fix : GpsLocation D) : Group → List D
  | .latLong => [fix.latitude, fix.longitude]
  | .altitude => [fix.altitude]
  | .bearing => [fix.bearing]
  | .speed => [fix.speed]

end GpsLocation

variable [CDouble D]

/-! ## What a sentence updates -/

/-- The groups for which tokens carry a value. -/
abbrev Updates (D : Type) := Group → Option (List D)

def latLongUpdate (lat : Token) (latHemi : UInt8) (lon : Token) (lonHemi : UInt8) : Updates D
  | .latLong =>
    if lat.p + 6 ≤ lat.stop ∧ lon.p + 6 ≤ lon.stop then
      some [coordinate lat latHemi 0x53, coordinate lon lonHemi 0x57]
    else none
  | _ => none

def altitudeUpdate (tok : Token) : Updates D
  | .altitude => if tok.p < tok.stop then some [str2float tok.mem tok.p tok.stop] else none
  | _ => none

def bearingUpdate (tok : Token) : Updates D
  | .bearing =>
    if tok.p < tok.stop then some [CDouble.toFloat (str2float tok.mem tok.p tok.stop)] else none
  | _ => none

def speedUpdate (tok : Token) : Updates D
  | .speed =>
    if tok.p < tok.stop then
      some [CDouble.toFloat (CDouble.toFloat (str2float tok.mem tok.p tok.stop) * 0.514444)]
    else none
  | _ => none

def ggaUpdates (t : List Token) : Updates D := fun g =>
  (altitudeUpdate (nmeaTokenizerGet t 9) g).or
    (latLongUpdate (nmeaTokenizerGet t 2) (nmeaTokenizerGet t 3).char0 (nmeaTokenizerGet t 4)
      (nmeaTokenizerGet t 5).char0 g)

def gllUpdates (t : List Token) : Updates D := fun g =>
  if (nmeaTokenizerGet t 6).char0 = 0x41 then
    latLongUpdate (nmeaTokenizerGet t 1) (nmeaTokenizerGet t 2).char0 (nmeaTokenizerGet t 3)
      (nmeaTokenizerGet t 4).char0 g
  else none

def rmcUpdates (t : List Token) : Updates D := fun g =>
  if (nmeaTokenizerGet t 2).char0 = 0x41 then
    (speedUpdate (nmeaTokenizerGet t 7) g).or ((bearingUpdate (nmeaTokenizerGet t 8) g).or
      (latLongUpdate (nmeaTokenizerGet t 3) (nmeaTokenizerGet t 4).char0 (nmeaTokenizerGet t 5)
        (nmeaTokenizerGet t 6).char0 g))
  else none

def vtgUpdates (t : List Token) : Updates D := fun g =>
  if (nmeaTokenizerGet t 9).char0 ≠ 0 ∧ (nmeaTokenizerGet t 9).char0 ≠ 0x4E then
    (speedUpdate (nmeaTokenizerGet t 5) g).or (bearingUpdate (nmeaTokenizerGet t 1) g)
  else none

/-- The groups that a sentence updates. -/
def sentenceUpdates (t : List Token) : Updates D :=
  let id := sentenceId (nmeaTokenizerGet t 0)
  if id = ascii ['G', 'G', 'A'] then ggaUpdates t
  else if id = ascii ['G', 'L', 'L'] then gllUpdates t
  else if id = ascii ['R', 'M', 'C'] then rmcUpdates t
  else if id = ascii ['V', 'T', 'G'] then vtgUpdates t
  else fun _ => none

def Output.isLocation : Output D → Bool
  | .location _ => true
  | _ => false

/-- The slot of a group in a trace of outputs. -/
def slot (g : Group) : Slot (Output D) (List D) where
  takes := Output.isLocation
  puts o := o.tokens.bind fun t => sentenceUpdates t g

/-! ## The update functions -/

/-- `fix'` is `fix` with some groups updated. -/
def Updated (u : Updates D) (fix fix' : GpsLocation D) : Prop :=
  ∀ g, fix'.has g = (fix.has g || (u g).isSome) ∧ fix'.value g = (u g).getD (fix.value g)

omit [CDouble D] in
theorem Updated.of_eq {fix fix' : GpsLocation D} (hhas : fix'.has = fix.has)
    (hvalue : fix'.value = fix.value) : Updated (fun _ => none) fix fix' := by
  intro g
  rw [hhas, hvalue]
  simp

omit [CDouble D] in
theorem Updated.trans {u v : Updates D} {fix₁ fix₂ fix₃ : GpsLocation D} (h₁ : Updated u fix₁ fix₂)
    (h₂ : Updated v fix₂ fix₃) : Updated (fun g => (v g).or (u g)) fix₁ fix₃ := by
  intro g
  obtain ⟨hhas₁, hvalue₁⟩ := h₁ g
  obtain ⟨hhas₂, hvalue₂⟩ := h₂ g
  rw [hhas₂, hvalue₂, hhas₁, hvalue₁]
  dsimp only
  cases u g <;> cases v g <;> simp

theorem updateTime_updated (zone : Int) (clk : Clock) (r : NmeaReader D) (tok : Token) :
    Updated (fun _ => none) r.fix (nmeaReaderUpdateTime zone clk r tok).1.fix := by
  rw [nmeaReaderUpdateTime]
  split
  · exact .of_eq rfl rfl
  · split <;> exact .of_eq rfl rfl

theorem updateDate_updated (zone : Int) (clk : Clock) (r : NmeaReader D) (date time : Token) :
    Updated (fun _ => none) r.fix (nmeaReaderUpdateDate zone clk r date time).1.fix := by
  rw [nmeaReaderUpdateDate]
  split
  · exact .of_eq rfl rfl
  · dsimp only
    split
    · exact .of_eq rfl rfl
    · exact updateTime_updated zone clk { r with utcYear := _, utcMon := _, utcDay := _ } time

theorem updateLatlong_updated (r : NmeaReader D) (lat : Token) (latHemi : UInt8) (lon : Token)
    (lonHemi : UInt8) : Updated (latLongUpdate lat latHemi lon lonHemi) r.fix
      (nmeaReaderUpdateLatlong r lat latHemi lon lonHemi).1.fix := by
  rw [nmeaReaderUpdateLatlong]
  intro g
  split
  · cases g <;> simp [latLongUpdate, show ¬lat.p + 6 ≤ lat.stop by omega]
  · dsimp only
    split
    · cases g <;> simp [latLongUpdate, show ¬lon.p + 6 ≤ lon.stop by omega]
    · have hcond : lat.p + 6 ≤ lat.stop ∧ lon.p + 6 ≤ lon.stop := by omega
      cases g <;> simp [latLongUpdate, hcond, GpsLocation.has, GpsLocation.value]

theorem updateAltitude_updated (r : NmeaReader D) (altitude units : Token) :
    Updated (altitudeUpdate altitude) r.fix
      (nmeaReaderUpdateAltitude r altitude units).1.fix := by
  rw [nmeaReaderUpdateAltitude]
  intro g
  split
  · cases g <;> simp [altitudeUpdate, show ¬altitude.p < altitude.stop by omega]
  · have hcond : altitude.p < altitude.stop := by omega
    cases g <;> simp [altitudeUpdate, hcond, GpsLocation.has, GpsLocation.value]

theorem updateBearing_updated (r : NmeaReader D) (bearing : Token) :
    Updated (bearingUpdate bearing) r.fix (nmeaReaderUpdateBearing r bearing).1.fix := by
  rw [nmeaReaderUpdateBearing]
  intro g
  split
  · cases g <;> simp [bearingUpdate, show ¬bearing.p < bearing.stop by omega]
  · have hcond : bearing.p < bearing.stop := by omega
    cases g <;> simp [bearingUpdate, hcond, GpsLocation.has, GpsLocation.value]

theorem updateSpeed_updated (r : NmeaReader D) (speed : Token) :
    Updated (speedUpdate speed) r.fix (nmeaReaderUpdateSpeed r speed).1.fix := by
  rw [nmeaReaderUpdateSpeed]
  intro g
  split
  · cases g <;> simp [speedUpdate, show ¬speed.p < speed.stop by omega]
  · have hcond : speed.p < speed.stop := by omega
    cases g <;> simp [speedUpdate, hcond, GpsLocation.has, GpsLocation.value]

theorem parseGga_updated (zone : Int) (clk : Clock) (t : List Token) (r : NmeaReader D) :
    Updated (ggaUpdates t) r.fix (parseGga zone clk t r).fix := by
  have h := ((updateTime_updated zone clk r (nmeaTokenizerGet t 1)).trans
    (updateLatlong_updated _ (nmeaTokenizerGet t 2) (nmeaTokenizerGet t 3).char0
      (nmeaTokenizerGet t 4) (nmeaTokenizerGet t 5).char0)).trans
    (updateAltitude_updated _ (nmeaTokenizerGet t 9) (nmeaTokenizerGet t 10))
  simp only [Option.or_none] at h
  exact h

theorem parseGll_updated (zone : Int) (clk : Clock) (t : List Token) (r : NmeaReader D) :
    Updated (gllUpdates t) r.fix (parseGll zone clk t r).fix := by
  rw [parseGll]
  unfold gllUpdates
  split
  · have h := (updateTime_updated zone clk r (nmeaTokenizerGet t 5)).trans
      (updateLatlong_updated _ (nmeaTokenizerGet t 1) (nmeaTokenizerGet t 2).char0
        (nmeaTokenizerGet t 3) (nmeaTokenizerGet t 4).char0)
    simp only [Option.or_none] at h
    exact h
  · exact .of_eq rfl rfl

theorem parseRmc_updated (zone : Int) (clk : Clock) (t : List Token) (r : NmeaReader D) :
    Updated (rmcUpdates t) r.fix (parseRmc zone clk t r).fix := by
  rw [parseRmc]
  unfold rmcUpdates
  split
  · have h := (((updateDate_updated zone clk r (nmeaTokenizerGet t 9)
      (nmeaTokenizerGet t 1)).trans
      (updateLatlong_updated _ (nmeaTokenizerGet t 3) (nmeaTokenizerGet t 4).char0
        (nmeaTokenizerGet t 5) (nmeaTokenizerGet t 6).char0)).trans
      (updateBearing_updated _ (nmeaTokenizerGet t 8))).trans
      (updateSpeed_updated _ (nmeaTokenizerGet t 7))
    simp only [Option.or_none] at h
    exact h
  · exact .of_eq rfl rfl

theorem parseVtg_updated (t : List Token) (r : NmeaReader D) :
    Updated (vtgUpdates t) r.fix (parseVtg t r).fix := by
  rw [parseVtg]
  unfold vtgUpdates
  dsimp only
  split
  · exact (updateBearing_updated r (nmeaTokenizerGet t 1)).trans
      (updateSpeed_updated _ (nmeaTokenizerGet t 5))
  · exact .of_eq rfl rfl

theorem parseZda_updated (zone : Int) (clk : Clock) (t : List Token) (r : NmeaReader D) :
    Updated (fun _ => none) r.fix (parseZda zone clk t r).fix := by
  have hdate : Updated (fun _ => none) r.fix (if (nmeaTokenizerGet t 4).char0 ≠ 0 then
      (nmeaReaderUpdateCdate r (nmeaTokenizerGet t 2) (nmeaTokenizerGet t 3)
        (nmeaTokenizerGet t 4)).1 else r).fix := by
    split
    · rw [nmeaReaderUpdateCdate]
      split <;> exact .of_eq rfl rfl
    · exact .of_eq rfl rfl
  rw [parseZda]
  split
  · exact hdate.trans (updateTime_updated zone clk _ (nmeaTokenizerGet t 1))
  · exact hdate

/-- A sentence updates the groups it carries and leaves the others as they are. -/
theorem parseSentence_updated (zone : Int) (clk : Clock) (t : List Token) (r : NmeaReader D) :
    Updated (sentenceUpdates t) r.fix (parseSentence zone clk t r).1.fix := by
  rw [parseSentence, sentenceUpdates]
  generalize sentenceId (nmeaTokenizerGet t 0) = id
  by_cases hgga : id = ascii ['G', 'G', 'A']
  · simp only [if_pos hgga]
    exact parseGga_updated zone clk t r
  by_cases hgll : id = ascii ['G', 'L', 'L']
  · simp only [if_neg hgga, if_pos hgll]
    exact parseGll_updated zone clk t r
  by_cases hgsa : id = ascii ['G', 'S', 'A']
  · subst hgsa
    exact .of_eq (congrArg _ (parseGsa_maskStep t r).fix) (congrArg _ (parseGsa_maskStep t r).fix)
  by_cases hgsv : id = ascii ['G', 'S', 'V']
  · subst hgsv
    exact .of_eq (congrArg _ (parseGsv_fix t r)) (congrArg _ (parseGsv_fix t r))
  by_cases hrmc : id = ascii ['R', 'M', 'C']
  · simp only [if_neg hgga, if_neg hgll, if_neg hgsa, if_neg hgsv, if_pos hrmc]
    exact parseRmc_updated zone clk t r
  by_cases hvtg : id = ascii ['V', 'T', 'G']
  · simp only [if_neg hgga, if_neg hgll, if_neg hgsa, if_neg hgsv, if_neg hrmc, if_pos hvtg]
    exact parseVtg_updated t r
  simp only [if_neg hgga, if_neg hgll, if_neg hgsa, if_neg hgsv, if_neg hrmc, if_neg hvtg]
  split
  · exact parseZda_updated zone clk t r
  · exact .of_eq rfl rfl

/-! ## The invariant -/

/-- Flags and values of a fix are what the slots hold. -/
def Pending (ws : List (Output D)) (fix : GpsLocation D) : Prop :=
  ∀ g, fix.has g = ((slot g).held ws).isSome ∧ ∀ v, (slot g).held ws = some v → fix.value g = v

/-- Every fix delivered carries exactly what the slots held then. -/
def Reported (ws : List (Output D)) : Prop :=
  ∀ before fix, before ++ [.location fix] <+: ws → Pending before fix

/-- The invariant of a run of the thread with outputs `ws`. -/
structure Delivering (ws : List (Output D)) (s : GpsThread D) : Prop where
  callback : s.reader.callback = s.started
  flags : s.started = true → s.reader.fix.flags = .zero
  pending : Pending ws s.reader.fix
  reported : Reported ws

theorem Pending.idle {ws out : List (Output D)} {fix : GpsLocation D} (h : Pending ws fix)
    (hout : ∀ o ∈ out, ∀ g, (slot g).Idle o) : Pending (ws ++ out) fix := by
  intro g
  rw [Slot.held_append_idle fun o ho => hout o ho g]
  exact h g

theorem Pending.delivered {ws : List (Output D)} (fix : GpsLocation D) :
    Pending (ws ++ [.location fix]) { fix with flags := .zero } := by
  intro g
  rw [Slot.held_snoc_of_takes _ rfl]
  exact ⟨by cases g <;> rfl, fun v hv => nomatch hv⟩

theorem Reported.snoc {ws : List (Output D)} {o : Output D} (h : Reported ws)
    (ho : ∀ fix, o = .location fix → Pending ws fix) : Reported (ws ++ [o]) := by
  intro before fix hprefix
  rcases List.prefix_concat_iff.mp hprefix with heq | hprefix
  · obtain ⟨rfl, hlast⟩ := List.append_inj' heq rfl
    exact ho fix (List.singleton_inj.mp hlast).symm
  · exact h before fix hprefix

theorem Reported.append {ws out : List (Output D)} (h : Reported ws)
    (hout : ∀ o ∈ out, o.isLocation = false) : Reported (ws ++ out) := by
  induction out using List.reverseRecOn with
  | nil => rwa [List.append_nil]
  | append_singleton out o ih =>
    rw [← List.append_assoc]
    apply (ih fun o' ho' => hout o' (List.mem_append_left _ ho')).snoc
    rintro fix rfl
    cases hout _ (List.mem_append_right _ (List.mem_singleton_self _))

/-- Outputs that tell of no sentence and no delivery. -/
def Output.isOther (o : Output D) : Prop := o.isLocation = false ∧ o.tokens = none

theorem Output.isOther.idle {o : Output D} (h : o.isOther) (g : Group) : (slot g).Idle o :=
  ⟨h.1, by rw [slot]; simp only [h.2]; rfl⟩

omit [CDouble D] in
theorem Output.isLine.isLocation {o : Output D} (h : o.isLine = true) : o.isLocation = false := by
  cases o <;> first | rfl | cases h

/-- The sentence handled is delivered at once if and only if there is a callback. -/
theorem handle_fix (zone : Int) (cbs : GpsCallbacks) (clk : Clock) (t : List Token)
    (r : NmeaReader D) : ∃ fix out, Updated (sentenceUpdates t) r.fix fix ∧
      (∀ o ∈ out, o.isOther) ∧
      (handle zone cbs clk t r).1.callback = r.callback ∧
      if r.callback then
        (handle zone cbs clk t r).1.fix = { fix with flags := .zero } ∧
          (handle zone cbs clk t r).2 = out ++ [.location fix]
      else (handle zone cbs clk t r).1.fix = fix ∧ (handle zone cbs clk t r).2 = out := by
  have hupdated := parseSentence_updated zone clk t r
  have hcallback := (parseSentence_sameLine zone clk t r).callback
  have hwrites : ∀ o ∈ (parseSentence zone clk t r).2, o.isOther := by
    intro o ho
    obtain ⟨j, rfl⟩ := parseSentence_writes zone clk t r o ho
    exact ⟨rfl, rfl⟩
  rw [handle]
  generalize parseSentence zone clk t r = p at *
  obtain ⟨r', writes⟩ := p
  dsimp only at *
  have haccuracy : Updated (sentenceUpdates t) r.fix (nmeaReaderUpdateAccuracy r').1.fix :=
    hupdated.trans (.of_eq rfl rfl)
  have hstatus : (reportSvStatus cbs (nmeaReaderUpdateAccuracy r').1).1.fix =
        (nmeaReaderUpdateAccuracy r').1.fix ∧
      (reportSvStatus cbs (nmeaReaderUpdateAccuracy r').1).1.callback = r.callback ∧
      ∀ o ∈ (reportSvStatus cbs (nmeaReaderUpdateAccuracy r').1).2, o.isOther := by
    rw [reportSvStatus, ← hcallback]
    split
    · exact ⟨rfl, rfl, by simp [Output.isOther, Output.isLocation, Output.tokens]⟩
    · exact ⟨rfl, rfl, by simp⟩
  obtain ⟨hfix, hcb, hother⟩ := hstatus
  refine ⟨(nmeaReaderUpdateAccuracy r').1.fix, writes ++ _, haccuracy,
    List.forall_mem_append.mpr ⟨hwrites, hother⟩, ?_⟩
  have hflags : (nmeaReaderUpdateAccuracy r').1.fix.flags ≠ .zero := fun h =>
    Bool.noConfusion (congrArg LocationFlags.accuracy h)
  rw [reportLocation, hfix, hcb]
  cases hb : r.callback
  · simp [hfix, hcb, hb]
  · simp [hflags]

theorem Delivering.quiet {ws out : List (Output D)} {s s' : GpsThread D} (h : Delivering ws s)
    (hout : ∀ o ∈ out, o.isOther) (hcallback : s'.reader.callback = s'.started)
    (hfix : s'.reader.fix = s.reader.fix)
    (hflags : s'.started = true → s.reader.fix.flags = .zero) :
    Delivering (ws ++ out) s' where
  callback := hcallback
  flags hs := hfix ▸ hflags hs
  pending := hfix ▸ h.pending.idle fun o ho g => (hout o ho).idle g
  reported := h.reported.append fun o ho => (hout o ho).1

theorem Delivering.same {ws : List (Output D)} {s s' : GpsThread D} (h : Delivering ws s)
    (hcallback : s'.reader.callback = s'.started) (hfix : s'.reader.fix = s.reader.fix)
    (hflags : s'.started = true → s.reader.fix.flags = .zero) : Delivering (ws ++ []) s' :=
  h.quiet (fun _ ho => nomatch ho) hcallback hfix hflags

/-- A delivery empties the slots. -/
theorem Delivering.location {ws out : List (Output D)} {s : GpsThread D} {fix : GpsLocation D}
    (hpending : Pending (ws ++ out) fix) (hreported : Reported (ws ++ out))
    (hcallback : s.reader.callback = s.started)
    (hfix : s.reader.fix = { fix with flags := .zero }) :
    Delivering (ws ++ (out ++ [.location fix])) s where
  callback := hcallback
  flags _ := by rw [hfix]
  pending := by
    rw [hfix, ← List.append_assoc]
    exact .delivered fix
  reported := by
    rw [← List.append_assoc]
    apply hreported.snoc
    rintro fix' heq
    cases heq
    exact hpending

/-- The invariant is kept, and a step that ends stopped delivers nothing. -/
def StepOk (ws : List (Output D)) (next : GpsThread D × List (Output D)) : Prop :=
  Delivering (ws ++ next.2) next.1 ∧ (next.1.started = false → ∀ o ∈ next.2, o.isLocation = false)

theorem control_ok {cbs : GpsCallbacks} (hcb : cbs.locationCb = true) {ws : List (Output D)}
    {s : GpsThread D} (h : Delivering ws s) (cmd : UInt8) : StepOk ws (s.control cbs cmd) := by
  have hsame : StepOk ws (s, []) :=
    ⟨h.same h.callback rfl h.flags, fun _ o ho => nomatch ho⟩
  rw [GpsThread.control]
  split_ifs with hquit hstart hstarted hstop hstarted
  · exact ⟨h.same h.callback rfl h.flags, fun _ o ho => nomatch ho⟩
  · exact hsame
  · rw [nmeaReaderSetCallback, hcb]
    dsimp only
    split
    · refine ⟨@Delivering.location _ _ ws [] _ s.reader.fix ?_ ?_ rfl rfl, fun hs => nomatch hs⟩
      · rw [List.append_nil]
        exact h.pending
      · rw [List.append_nil]
        exact h.reported
    case isFalse hflags =>
      refine ⟨h.same rfl rfl fun _ => ?_, fun hs => nomatch hs⟩
      simpa using hflags
  · exact ⟨h.same rfl rfl (fun hs => nomatch hs), fun _ o ho => nomatch ho⟩
  · exact hsame
  · exact hsame

/-- A sentence puts its updates into the slots, which are those it makes to the fix. -/
theorem Pending.sentence {ws head : List (Output D)} {t : List Token} {fix fix' : GpsLocation D}
    (h : Pending ws fix) (hhead : ∀ o ∈ head, o.isLocation = false)
    (htokens : head.filterMap Output.tokens = [t])
    (hupdated : Updated (sentenceUpdates t) fix fix') : Pending (ws ++ head) fix' := by
  intro g
  have hputs : head.filterMap (slot g).puts = (sentenceUpdates t g).toList := by
    have hcomp : (slot g).puts = fun o : Output D => o.tokens.bind (sentenceUpdates · g) := rfl
    rw [hcomp, ← List.filterMap_filterMap, htokens]
    cases hu : (sentenceUpdates t g : Option (List D)) <;> simp [hu]
  obtain ⟨hhas, hvalue⟩ := h g
  obtain ⟨hhas', hvalue'⟩ := hupdated g
  rw [Slot.held_append_of_not_takes hhead, hputs, hhas', hvalue']
  cases hu : (sentenceUpdates t g : Option (List D)) with
  | none => simpa using ⟨hhas, hvalue⟩
  | some v => simp

theorem data_ok (zone : Int) (cbs : GpsCallbacks) (clk : Clock) {ws : List (Output D)}
    {s : GpsThread D} (h : Delivering ws s) (c : UInt8) :
    StepOk ws ({ s with reader := (nmeaReaderAddc zone cbs clk s.reader c).1 },
      (nmeaReaderAddc zone cbs clk s.reader c).2) := by
  cases hsent : sentenceOf s.reader c with
  | none =>
    obtain ⟨pos, overflow, inBuf, out, hout, heq⟩ := addc_of_none zone cbs clk hsent
    have hother : ∀ o ∈ out, o.isOther := fun o ho =>
      ⟨Output.isLine.isLocation (hout o ho).1, (hout o ho).2⟩
    rw [heq]
    exact ⟨h.quiet hother h.callback rfl h.flags, fun _ o ho => (hother o ho).1⟩
  | some t =>
    obtain ⟨head, hline, htokens, heq⟩ := addc_of_some zone cbs clk hsent
    obtain ⟨fix, out, hupdated, hout, hcallback, hdelivery⟩ :=
      handle_fix zone cbs clk t (s.reader.store c)
    have hhead : ∀ o ∈ head, o.isLocation = false := fun o ho =>
      Output.isLine.isLocation (hline o ho)
    have hpending : Pending (ws ++ (head ++ out)) fix := by
      rw [← List.append_assoc]
      exact (h.pending.sentence hhead htokens hupdated).idle fun o ho g => (hout o ho).idle g
    have hquiet : ∀ o ∈ head ++ out, o.isLocation = false :=
      List.forall_mem_append.mpr ⟨hhead, fun o ho => (hout o ho).1⟩
    have hreported : Reported (ws ++ (head ++ out)) := h.reported.append hquiet
    rw [heq]
    have hstarted : (s.reader.store c).callback = s.started := h.callback
    rw [hstarted] at hcallback hdelivery
    by_cases hs : s.started = true
    · rw [if_pos hs] at hdelivery
      obtain ⟨hfix, hnext⟩ := hdelivery
      rw [hnext, ← List.append_assoc]
      refine ⟨.location hpending hreported hcallback hfix, fun hstopped => ?_⟩
      exact absurd hs (Bool.eq_false_iff.mp hstopped)
    · rw [if_neg hs] at hdelivery
      obtain ⟨hfix, hnext⟩ := hdelivery
      rw [hnext]
      exact ⟨⟨hcallback, fun h => absurd h hs, hfix ▸ hpending, hreported⟩, fun _ => hquiet⟩

theorem step_ok (zone : Int) {cbs : GpsCallbacks} (hcb : cbs.locationCb = true)
    {ws : List (Output D)} {s : GpsThread D} (h : Delivering ws s) (e : ThreadEvent) :
    StepOk ws ((gpsThread zone cbs).step s e) := by
  show StepOk ws (s.step zone cbs e)
  unfold GpsThread.step
  split
  · exact ⟨h.same h.callback rfl h.flags, fun _ o ho => nomatch ho⟩
  · cases e with
    | data clk c => exact data_ok zone cbs clk h c
    | control cmd => exact control_ok hcb h cmd
    | hangup => exact ⟨h.same h.callback rfl h.flags, fun _ o ho => nomatch ho⟩

theorem run_delivering (zone : Int) {cbs : GpsCallbacks} (hcb : cbs.locationCb = true)
    (clk : Clock) (es : List ThreadEvent) :
    Delivering ((gpsThread zone cbs).out (gpsStateThread zone clk : GpsThread D) es)
      ((gpsThread zone cbs).final (gpsStateThread zone clk) es) := by
  apply (gpsThread zone cbs).history (P := fun _ ws s => Delivering ws s)
  · refine ⟨rfl, (fun hs => nomatch hs), fun g => ⟨by cases g <;> rfl, fun v hv => nomatch hv⟩, ?_⟩
    intro before fix hprefix
    simp at hprefix
  · intro _ ws s e h
    exact (step_ok zone hcb h e).1

theorem Delivering.held_eq_none {ws : List (Output D)} {s : GpsThread D} (h : Delivering ws s)
    (hs : s.started = true) (g : Group) : (slot g).held ws = none := by
  have hhas : s.reader.fix.has g = false := by
    cases g <;> simp [GpsLocation.has, h.flags hs, LocationFlags.zero]
  have hheld := (h.pending g).1
  rw [hhas] at hheld
  exact Option.isNone_iff_eq_none.mp (Option.isSome_eq_false_iff.mp hheld.symm)

/-! ## Every update is delivered once -/

/-- What the location callback is to see of a run of the thread from its start. -/
structure DeliversUpdates (zone : Int) (cbs : GpsCallbacks) (s : GpsThread D)
    (es : List ThreadEvent) : Prop where
  /-- A group of a fix delivered is flagged if and only if a sentence since the delivery before
  updated it, and then it has the value of the latest such update. -/
  exact : ∀ before fix, before ++ [.location fix] <+: (gpsThread zone cbs).out s es →
    ∀ g, fix.has g = ((slot g).held before).isSome ∧
      ∀ v, (slot g).held before = some v → fix.value g = v
  /-- Between two events, no update waits while the thread is started. -/
  prompt : ∀ es₁ es₂, es = es₁ ++ es₂ → ((gpsThread zone cbs).final s es₁).started = true →
    ∀ g, (slot g).held ((gpsThread zone cbs).out s es₁) = none
  /-- Once the thread is started, every update has been reported by the first delivery behind it,
  unless a newer update of its group came first. -/
  once : ∀ before o after g v, (gpsThread zone cbs).out s es = before ++ o :: after →
    (slot g).puts o = some v → ((gpsThread zone cbs).final s es).started = true →
    ∃ between fix rest, after = between ++ .location fix :: rest ∧
      (∀ o' ∈ between, o'.isLocation = false) ∧ fix.has g = true ∧
      ((∀ o' ∈ between, (slot g).puts o' = none) → fix.value g = v)
  /-- An event that leaves the thread stopped delivers nothing. -/
  silent : ∀ es₁ e es₂, es = es₁ ++ e :: es₂ →
    ((gpsThread zone cbs).final s (es₁ ++ [e])).started = false →
    ∀ o ∈ ((gpsThread zone cbs).step ((gpsThread zone cbs).final s es₁) e).2, o.isLocation = false

/-- With a location callback, every run of the thread delivers its updates. -/
theorem delivers_updates (zone : Int) (cbs : GpsCallbacks) (hcb : cbs.locationCb = true)
    (clk : Clock) (es : List ThreadEvent) :
    DeliversUpdates zone cbs (gpsStateThread zone clk : GpsThread D) es := by
  have hrun := run_delivering (D := D) zone hcb clk
  refine ⟨(hrun es).reported, fun es₁ es₂ _ hs => (hrun es₁).held_eq_none hs, ?_, ?_⟩
  · intro before o after g v hout hputs hs
    have hnone := (hrun es).held_eq_none hs g
    rw [hout] at hnone
    have hnot : o.isLocation = false := by
      cases o <;> first | rfl | cases hputs
    obtain ⟨between, t, rest, w, rfl, htakes, hquiet, hheld, hlast⟩ :=
      Slot.exists_take hputs hnot hnone
    obtain ⟨fix, rfl⟩ : ∃ fix, t = .location fix := by
      cases t <;> first | exact ⟨_, rfl⟩ | cases htakes
    refine ⟨between, fix, rest, rfl, hquiet, ?_⟩
    have hreported := (hrun es).reported (before ++ o :: between) fix (by
      rw [hout]
      exact ⟨rest, by simp⟩) g
    rw [hheld] at hreported
    exact ⟨hreported.1, fun hnew => (hreported.2 w rfl).trans (hlast hnew)⟩
  · intro es₁ e es₂ _ hs
    rw [Transducer.final_snoc] at hs
    exact (step_ok zone hcb (hrun es₁) e).2 hs

/-- An altitude received before the start is delivered by it. -/
theorem delivers_updates_start :
    let es := (ascii ['$', 'G', 'P', 'G', 'G', 'A', ',', ',', ',', ',', ',', ',', ',', ',', ',', '5',
      '\n']).map (.data ⟨0, 0, 0⟩) ++ [.control cmdStart]
    DeliversUpdates 0 ⟨true, false, false, false⟩ (gpsStateThread 0 ⟨0, 0, 0⟩ : GpsThread ℚ) es ∧
      ∃ fix, .location fix ∈
        (gpsThread 0 ⟨true, false, false, false⟩).out (gpsStateThread 0 ⟨0, 0, 0⟩ : GpsThread ℚ) es ∧
        fix.has .altitude = true := by
  intro es
  refine ⟨delivers_updates 0 ⟨true, false, false, false⟩ rfl ⟨0, 0, 0⟩ es, ?_⟩
  have hlast : ((gpsThread 0 ⟨true, false, false, false⟩).out
      (gpsStateThread 0 ⟨0, 0, 0⟩ : GpsThread ℚ) es).any (fun
        | .location fix => fix.has .altitude
        | _ => false) = true := by
    decide +kernel
  obtain ⟨o, ho, halt⟩ := List.any_eq_true.mp hlast
  cases o with
  | location fix => exact ⟨fix, ho, halt⟩
  | _ => cases halt

end HeadUnit.Gps
