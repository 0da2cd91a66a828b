import HeadUnit.Athr.FixUpdates

/-!
# Delivery of fixes across the threads

A fix is handed over by the timer thread, the first one also by the NMEA thread, and a start throws
away what waits. Every group of a fix is a slot: a line that carries the group puts its value, a
call of the location callback and an initialisation of the reader take it (`DeliversFixes`).
-/

namespace HeadUnit.Athr

open Gps hiding Group Updates Pending Reported Delivering slot

variable {D : Type}

/-! ## Slots -/

namespace Event

/-- The event empties the fix. -/
def isTake : Event D → Bool
  | .reader o => o.isLocation
  | .readerInit => true

/-- The tokens of a line that is looked at. -/
def tokens : Event D → Option (List Token)
  | .reader o => lineTokens o
  | .readerInit => none

/-- The fix handed over. -/
def location : Event D → Option (GpsLocation D)
  | .reader (.location fix) => some fix
  | _ => none

end Event

variable [CDouble D] [DecidableEq D]

/-- What the lines of a trace put for a group. -/
def latest (g : Group) : Slot (Event D) (Update D) where
  takes := Event.isTake
  puts e := e.tokens.bind (lineUpdates · g)

/-- What the lines of a trace put and flag for a group. -/
def flagged (g : Group) : Slot (Event D) (Update D) where
  takes := Event.isTake
  puts e := e.tokens.bind fun t => (lineUpdates t g).filter Update.flagged

/-- Flags and values of a fix are what the slots hold. -/
def Pending (ws : List (Event D)) (fix : GpsLocation D) : Prop :=
  ∀ g, g.flag fix = ((flagged g).held ws).isSome ∧
    ∀ u, (latest g).held ws = some u → g.value fix = u.value

/-- Every fix handed over has coordinates and carries exactly what the slots held then. -/
def Reported (ws : List (Event D)) : Prop :=
  ∀ before fix, before ++ [.reader (.location fix)] <+: ws →
    fix.flags.latLong = true ∧ Pending before fix

/-- `fix'` is `fix` with what at most one line in `ws` updates. -/
def Changes (ws : List (Event D)) (fix fix' : GpsLocation D) : Prop :=
  (ws.filterMap Event.tokens = [] ∧ fix' = fix) ∨
    ∃ t, ws.filterMap Event.tokens = [t] ∧ Updated (lineUpdates t) fix fix'

omit [CDouble D] [DecidableEq D] in
/-- What a slot holds behind events that do not take. -/
theorem held_append_tokens {S : Slot (Event D) (Update D)} {f : List Token → Option (Update D)}
    (htakes : S.takes = Event.isTake) (hputs : ∀ e, S.puts e = e.tokens.bind f)
    {ws out : List (Event D)} (hout : ∀ e ∈ out, e.isTake = false) :
    S.held (ws ++ out) = ((out.filterMap Event.tokens).filterMap f).getLast?.or (S.held ws) := by
  have hfun : S.puts = fun e => e.tokens.bind f := funext hputs
  rw [Slot.held_append_of_not_takes fun e he => htakes ▸ hout e he, hfun, List.filterMap_filterMap]

theorem Pending.changes {ws out : List (Event D)} {fix fix' : GpsLocation D} (h : Pending ws fix)
    (hout : ∀ e ∈ out, e.isTake = false) (hchanges : Changes out fix fix') :
    Pending (ws ++ out) fix' := by
  intro g
  obtain ⟨hflag, hvalue⟩ := h g
  rw [held_append_tokens (S := flagged g) rfl (fun _ => rfl) hout,
    held_append_tokens (S := latest g) rfl (fun _ => rfl) hout]
  rcases hchanges with ⟨htokens, rfl⟩ | ⟨t, htokens, hupdated⟩
  · rw [htokens]
    exact ⟨hflag, hvalue⟩
  · obtain ⟨hflag', hvalue'⟩ := hupdated g
    rw [htokens, hflag', hvalue', hflag]
    cases hu : (lineUpdates t g : Option (Update D)) with
    | none => simpa [hu] using hvalue
    | some u => cases hf : u.flagged <;> simp [hu, hf]

omit [CDouble D] [DecidableEq D] in
theorem isTake_iff {e : Event D} :
    e.isTake = true ↔ e = .readerInit ∨ ∃ fix, e = .reader (.location fix) := by
  constructor
  · intro h
    cases e with
    | readerInit => exact .inl rfl
    | reader o => cases o <;> first | exact .inr ⟨_, rfl⟩ | cases h
  · rintro (rfl | ⟨fix, rfl⟩) <;> rfl

theorem not_isTake_of_puts {e : Event D} {g : Group} {u : Update D}
    (h : (flagged g).puts e = some u) : e.isTake = false := by
  rw [Bool.eq_false_iff]
  intro htake
  rcases isTake_iff.mp htake with rfl | ⟨fix, rfl⟩ <;> cases h

/-- What is flagged is put. -/
theorem latest_puts {e : Event D} {g : Group} {u : Update D} (h : (flagged g).puts e = some u) :
    (latest g).puts e = some u := by
  obtain ⟨t, ht, hu⟩ := Option.bind_eq_some_iff.mp h
  exact Option.bind_eq_some_iff.mpr ⟨t, ht, (Option.filter_eq_some_iff.mp hu).1⟩

/-! ## What an access does -/

/-- What an access does to the fix. -/
inductive Does (s s' : FixState D) : List (Event D) → Prop
  /-- It keeps the fix back. -/
  | keeps (out : List (Event D)) : (∀ e ∈ out, e.isTake = false) →
    Changes out s.reader.fix s'.reader.fix → s'.firstFix = s.firstFix → Does s s' out
  /-- It hands the fix over. -/
  | delivers (out : List (Event D)) (fix : GpsLocation D) (after : List (Event D)) :
    (∀ e ∈ out, e.isTake = false) → Changes out s.reader.fix fix → fix.flags.latLong = true →
    s'.reader.fix = { fix with flags := .zero } → s'.firstFix = true →
    (∀ e ∈ after, e.isTake = false ∧ e.tokens = none) →
    Does s s' (out ++ .reader (.location fix) :: after)
  /-- It initialises the reader. -/
  | discards : s'.reader.fix.flags = .zero → s'.firstFix = s.firstFix → Does s s' [.readerInit]

omit [CDouble D] [DecidableEq D] in
/-- The end of the line buffer is no part of the report. -/
theorem Reports.pos {firstFix : Bool} {state : Init} {fix : GpsLocation D} {s : FixState D}
    {out : List (Gps.Output D)} {pos : Nat} (h : Reports firstFix state fix s out) :
    Reports firstFix state fix { s with reader := { s.reader with pos := pos } } out := by
  cases h with
  | kept hfix hfirst => exact .kept hfix hfirst
  | first hfirst hinit hlat hfix hfirst' => exact .first hfirst hinit hlat hfix hfirst'

/-- A byte updates the fix if it ends a line, and reports it if it is the first one. -/
theorem addc_reports (zone : Int) {cbs : GpsCallbacks} (hcb : cbs.locationCb = true) (clk : Clock)
    (s : FixState D) (c : UInt8) : ∃ fix pre out, (nmeaReaderAddc zone cbs clk s c).2 = pre ++ out ∧
      (∀ o ∈ pre, o.isLocation = false) ∧
      Reports s.firstFix s.init fix (nmeaReaderAddc zone cbs clk s c).1 out ∧
      Changes (pre.map .reader) s.reader.fix fix := by
  have hkept {pre : List (Gps.Output D)} (hpre : ∀ o ∈ pre, IsOther o) :
      (∀ o ∈ pre, o.isLocation = false) ∧
        Changes (pre.map .reader) s.reader.fix s.reader.fix := by
    refine ⟨fun o ho => (hpre o ho).1, .inl ⟨?_, rfl⟩⟩
    rw [List.filterMap_map]
    exact List.filterMap_eq_nil_iff.mpr fun o ho => (hpre o ho).2
  rw [nmeaReaderAddc]
  dsimp only
  split_ifs with hover hfull hc
  · obtain ⟨hquiet, hchanges⟩ := @hkept [] (List.forall_mem_nil _)
    exact ⟨_, [], [], rfl, hquiet, .kept rfl rfl, hchanges⟩
  · obtain ⟨hquiet, hchanges⟩ := @hkept [] (List.forall_mem_nil _)
    exact ⟨_, [], [], rfl, hquiet, .kept rfl rfl, hchanges⟩
  · obtain ⟨fix, pre, out, hout, hpre, hreports, hline⟩ := parse_reports zone hcb clk
      { s with reader := s.reader.onGps (s.reader.store c) }
    have hpretokens : pre.filterMap lineTokens = [] :=
      List.filterMap_eq_nil_iff.mpr fun o ho => (hpre o ho).2
    refine ⟨fix, .inWrite s.reader.pos :: .parse (s.reader.store c).inBuf.toList
      (s.reader.store c).pos :: pre, out, congrArg (_ :: _ :: ·) hout, ?_, hreports.pos, ?_⟩
    · simp only [List.forall_mem_cons]
      exact ⟨rfl, rfl, fun o ho => (hpre o ho).1⟩
    · rw [Changes, List.filterMap_map]
      show (List.filterMap lineTokens _ = [] ∧ _) ∨ ∃ t, List.filterMap lineTokens _ = [t] ∧ _
      rw [List.filterMap_cons_none rfl]
      cases hl : lineTokens (.parse (s.reader.store c).inBuf.toList (s.reader.store c).pos :
          Gps.Output D) with
      | none =>
        simp only [NmeaReader.onGps, hl] at hline
        exact .inl ⟨by rw [List.filterMap_cons_none hl, hpretokens], hline⟩
      | some t =>
        simp only [NmeaReader.onGps, hl] at hline
        exact .inr ⟨t, by rw [List.filterMap_cons_some hl, hpretokens], hline⟩
  · obtain ⟨hquiet, hchanges⟩ := @hkept [.inWrite s.reader.pos]
      (by simp [IsOther, Gps.Output.isLocation, lineTokens])
    exact ⟨_, [.inWrite s.reader.pos], [], rfl, hquiet, .kept rfl rfl, hchanges⟩

omit [CDouble D] [DecidableEq D] in
/-- The timer thread hands the fix over if it has coordinates. -/
theorem timerSection_eq {cbs : GpsCallbacks} (hcb : cbs.locationCb = true) (s : FixState D) :
    ∃ after, (∀ o ∈ after, IsOther o) ∧
      if s.reader.fix.flags.latLong then
        (timerSection cbs s).1.reader.fix = { s.reader.fix with flags := .zero } ∧
          (timerSection cbs s).1.firstFix = true ∧
          (timerSection cbs s).2 = .location s.reader.fix :: after
      else (timerSection cbs s).1.reader.fix = s.reader.fix ∧
        (timerSection cbs s).1.firstFix = s.firstFix ∧ (timerSection cbs s).2 = after := by
  have hstatus : ∀ o ∈ [Gps.Output.svStatus s.reader.svStatus], IsOther o := by
    simp [IsOther, Gps.Output.isLocation, lineTokens]
  rw [timerSection]
  by_cases hlat : s.reader.fix.flags.latLong = true
  · simp only [if_pos hlat, if_pos hcb, FixState.locationCb]
    split
    · exact ⟨[.svStatus s.reader.svStatus], hstatus, rfl, rfl, rfl⟩
    · exact ⟨[], List.forall_mem_nil _, rfl, rfl, rfl⟩
  · simp only [if_neg hlat]
    split
    · exact ⟨[.svStatus s.reader.svStatus], hstatus, rfl, rfl, rfl⟩
    · exact ⟨[], List.forall_mem_nil _, rfl, rfl, rfl⟩

theorem step_does (zone : Int) {cbs : GpsCallbacks} (hcb : cbs.locationCb = true) (s : FixState D)
    (a : Access) : Does s (s.step zone cbs a).1 (s.step zone cbs a).2 := by
  have hsame {s' : FixState D} (hfix : s'.reader.fix = s.reader.fix)
      (hfirst : s'.firstFix = s.firstFix) : Does s s' [] :=
    .keeps [] (List.forall_mem_nil _) (.inl ⟨rfl, hfix⟩) hfirst
  cases a with
  | data clk c =>
    obtain ⟨fix, pre, out, hout, hpre, hreports, hchanges⟩ := addc_reports zone hcb clk s c
    have hpre : ∀ e ∈ pre.map Event.reader, e.isTake = false :=
      List.forall_mem_map.mpr hpre
    show Does s (nmeaReaderAddc zone cbs clk s c).1 ((nmeaReaderAddc zone cbs clk s c).2.map _)
    rw [hout, List.map_append]
    cases hreports with
    | kept hfix hfirst =>
      rw [List.map_nil, List.append_nil]
      exact .keeps _ hpre (hfix ▸ hchanges) hfirst
    | first _ _ hlat hfix hfirst =>
      exact .delivers _ fix [] hpre hchanges hlat hfix hfirst (List.forall_mem_nil _)
  | timer =>
    obtain ⟨after, hafter, htimer⟩ := timerSection_eq hcb s
    have hafter : ∀ e ∈ after.map Event.reader, e.isTake = false ∧ e.tokens = none :=
      List.forall_mem_map.mpr hafter
    show Does s (timerSection cbs s).1 ((timerSection cbs s).2.map _)
    split at htimer
    case isTrue hlat =>
      obtain ⟨hfix, hfirst, hout⟩ := htimer
      rw [hout, List.map_cons]
      exact .delivers [] s.reader.fix _ (List.forall_mem_nil _) (.inl ⟨rfl, rfl⟩) hlat hfix hfirst
        hafter
    case isFalse =>
      obtain ⟨hfix, hfirst, hout⟩ := htimer
      rw [hout]
      refine .keeps _ (fun e he => (hafter e he).1) (.inl ⟨?_, hfix⟩) hfirst
      exact List.filterMap_eq_nil_iff.mpr fun e he => (hafter e he).2
  | readerInit => exact .discards rfl rfl
  | setInit | setFixFrequency | wakeup | gapOver => exact hsame rfl rfl

/-! ## The invariant -/

/-- The invariant of a run with events `ws`. -/
structure Delivering (ws : List (Event D)) (s : FixState D) : Prop where
  pending : Pending ws s.reader.fix
  reported : Reported ws
  first : ∀ fix, .reader (.location fix) ∈ ws → s.firstFix = true

theorem Pending.of_takes {ws : List (Event D)} {e : Event D} {fix : GpsLocation D}
    (he : e.isTake = true) (hflags : fix.flags = .zero) : Pending (ws ++ [e]) fix := by
  intro g
  rw [Slot.held_snoc_of_takes (flagged g) he, Slot.held_snoc_of_takes (latest g) he]
  refine ⟨?_, fun u hu => by cases hu⟩
  cases g with
  | position g => cases g <;> simp [Group.flag, GpsLocation.has, hflags, LocationFlags.zero]
  | accuracy => simp [Group.flag, hflags, LocationFlags.zero]

theorem Reported.snoc {ws : List (Event D)} {e : Event D} (h : Reported ws)
    (he : ∀ fix, e = .reader (.location fix) → fix.flags.latLong = true ∧ Pending ws fix) :
    Reported (ws ++ [e]) := by
  intro before fix hprefix
  rcases List.prefix_concat_iff.mp hprefix with heq | hprefix
  · obtain ⟨rfl, hlast⟩ := List.append_inj' heq rfl
    exact he fix (List.singleton_inj.mp hlast).symm
  · exact h before fix hprefix

theorem Reported.append {ws out : List (Event D)} (h : Reported ws)
    (hout : ∀ e ∈ out, e.isTake = false) : Reported (ws ++ out) := by
  induction out using List.reverseRecOn with
  | nil => rwa [List.append_nil]
  | append_singleton out e ih =>
    rw [← List.append_assoc]
    apply (ih fun e' he' => hout e' (List.mem_append_left _ he')).snoc
    rintro fix rfl
    cases hout _ (List.mem_append_right _ (List.mem_singleton_self _))

theorem Delivering.step {ws out : List (Event D)} {s s' : FixState D} (h : Delivering ws s)
    (hdoes : Does s s' out) : Delivering (ws ++ out) s' := by
  cases hdoes with
  | keeps _ hout hchanges hfirst =>
    refine ⟨h.pending.changes hout hchanges, h.reported.append hout, fun fix hfix => ?_⟩
    rw [hfirst]
    rcases List.mem_append.mp hfix with hfix | hfix
    · exact h.first fix hfix
    · cases hout _ hfix
  | delivers out fix after hout hchanges hlat hfix hfirst hafter =>
    have hpending := h.pending.changes hout hchanges
    have hquiet : ∀ e ∈ after, e.isTake = false := fun e he => (hafter e he).1
    have hidle : Changes after s'.reader.fix s'.reader.fix :=
      .inl ⟨List.filterMap_eq_nil_iff.mpr fun e he => (hafter e he).2, rfl⟩
    have hsplit : ws ++ (out ++ .reader (.location fix) :: after) =
        ws ++ out ++ [.reader (.location fix)] ++ after := by simp
    rw [hsplit]
    refine ⟨Pending.changes (.of_takes rfl (by rw [hfix])) hquiet hidle, ?_, fun _ _ => hfirst⟩
    apply Reported.append _ hquiet
    apply (h.reported.append hout).snoc
    rintro fix' heq
    cases heq
    exact ⟨hlat, hpending⟩
  | discards hflags hfirst =>
    refine ⟨.of_takes rfl hflags, h.reported.snoc (fun _ hfix => by cases hfix), fun fix hfix => ?_⟩
    rw [hfirst]
    rcases List.mem_append.mp hfix with hfix | hfix
    · exact h.first fix hfix
    · cases List.mem_singleton.mp hfix

theorem run_delivering (zone : Int) {cbs : GpsCallbacks} (hcb : cbs.locationCb = true)
    (as : List Access) : Delivering ((fixes zone cbs).out (fixStateInit : FixState D) as)
      ((fixes zone cbs).final fixStateInit as) := by
  apply (fixes zone cbs).history (P := fun _ ws s => Delivering ws s)
  · refine ⟨?_, fun before fix hprefix => ?_, fun fix hfix => ?_⟩
    · intro g
      refine ⟨?_, fun u hu => by cases hu⟩
      cases g with
      | position g => cases g <;> rfl
      | accuracy => rfl
    · simp at hprefix
    · cases hfix
  · intro _ ws s a h
    exact h.step (step_does zone hcb s a)

/-- A byte hands over no fix but the first one. -/
theorem data_location (zone : Int) {cbs : GpsCallbacks} (hcb : cbs.locationCb = true) {clk : Clock}
    {c : UInt8} {s : FixState D} {fix : GpsLocation D}
    (hfix : .reader (.location fix) ∈ (s.step zone cbs (.data clk c)).2) :
    s.firstFix = false ∧ s.init = .init := by
  obtain ⟨fix', pre, out, hout, hpre, hreports, -⟩ := addc_reports zone hcb clk s c
  have hfix : Event.reader (.location fix) ∈
    (nmeaReaderAddc zone cbs clk s c).2.map Event.reader := hfix
  rw [hout, List.map_append, List.mem_append] at hfix
  cases hreports with
  | kept =>
    rcases hfix with hfix | hfix
    · obtain ⟨o, ho, heq⟩ := List.mem_map.mp hfix
      cases heq
      cases hpre _ ho
    · cases hfix
  | first hfirst hinit => exact ⟨hfirst, hinit⟩

/-! ## Every update is delivered once, or discarded -/

/-- What the location callback is to see of a run of the threads. -/
structure DeliversFixes (zone : Int) (cbs : GpsCallbacks) (s : FixState D) (as : List Access) :
    Prop where
  /-- A fix handed over has coordinates. A group of it is flagged if and only if a line flagged it
  since the fix was last emptied, and has the value of the latest line that carries it. -/
  exact : ∀ before fix, before ++ [.reader (.location fix)] <+: (fixes zone cbs).out s as →
    fix.flags.latLong = true ∧
      ∀ g : Group, g.flag fix = ((flagged g).held before).isSome ∧
        ∀ u, (latest g).held before = some u → g.value fix = u.value
  /-- Behind the section of the timer thread no coordinates wait. -/
  prompt : ∀ as₁ as₂, as = as₁ ++ .timer :: as₂ →
    (flagged (.position .latLong)).held ((fixes zone cbs).out s (as₁ ++ [.timer])) = none
  /-- An update that no longer waits was thrown away by a start, or handed over with its group
  flagged, and with its value unless a newer one came before. -/
  once : ∀ before e after g u, (fixes zone cbs).out s as = before ++ e :: after →
    (flagged g).puts e = some u → (flagged g).held ((fixes zone cbs).out s as) = none →
    ∃ between t rest, after = between ++ t :: rest ∧ (∀ e' ∈ between, e'.isTake = false) ∧
      (t = .readerInit ∨ ∃ fix, t = .reader (.location fix) ∧ g.flag fix = true ∧
        ((∀ e' ∈ between, (latest g).puts e' = none) → g.value fix = u.value))
  /-- The NMEA thread hands over no fix but the first one, and only in `STATE_INIT`. -/
  first : ∀ as₁ clk c as₂ fix, as = as₁ ++ .data clk c :: as₂ →
    .reader (.location fix) ∈ ((fixes zone cbs).step ((fixes zone cbs).final s as₁) (.data clk c)).2 →
    ((fixes zone cbs).final s as₁).init = .init ∧
      ∀ fix', .reader (.location fix') ∉ (fixes zone cbs).out s as₁

/-- With a location callback, every interleaving of the threads delivers its fixes. -/
theorem delivers_fixes (zone : Int) (cbs : GpsCallbacks) (hcb : cbs.locationCb = true)
    (as : List Access) : DeliversFixes zone cbs (fixStateInit : FixState D) as := by
  have hrun := run_delivering (D := D) zone hcb
  refine ⟨(hrun as).reported, ?_, ?_, ?_⟩
  · intro as₁ as₂ _
    have htimer := timerSection_eq hcb ((fixes zone cbs).final (fixStateInit : FixState D) as₁)
    have hpending := ((hrun (as₁ ++ [.timer])).pending (.position .latLong)).1
    have hlat : ((fixes zone cbs).final (fixStateInit : FixState D)
        (as₁ ++ [.timer])).reader.fix.flags.latLong = false := by
      rw [Transducer.final_snoc]
      show (timerSection cbs _).1.reader.fix.flags.latLong = false
      obtain ⟨after, -, htimer⟩ := htimer
      split at htimer
      case isTrue => rw [htimer.1]; rfl
      case isFalse hlat => rw [htimer.1]; exact Bool.eq_false_iff.mpr hlat
    exact Option.isNone_iff_eq_none.mp (Option.isSome_eq_false_iff.mp (hpending.symm.trans hlat))
  · intro before e after g u hout hputs hnone
    have hnot := not_isTake_of_puts hputs
    rw [hout] at hnone
    obtain ⟨between, t, rest, w, rfl, htakes, hquiet, hheld, -⟩ := Slot.exists_take hputs hnot hnone
    refine ⟨between, t, rest, rfl, hquiet, ?_⟩
    rcases isTake_iff.mp htakes with rfl | ⟨fix, rfl⟩
    · exact .inl rfl
    have hprefix : before ++ e :: between ++ [.reader (.location fix)] <+:
        (fixes zone cbs).out (fixStateInit : FixState D) as := by
      rw [hout]
      exact ⟨rest, by simp⟩
    obtain ⟨hflag, hvalue⟩ := ((hrun as).reported _ fix hprefix).2 g
    obtain ⟨w', hw', hlast⟩ : ∃ w, (latest g).held (before ++ e :: between) = some w ∧
        ((∀ e' ∈ between, (latest g).puts e' = none) → w = u) :=
      Slot.held_append_put (latest_puts hputs) hnot hquiet
    refine .inr ⟨fix, rfl, by rw [hflag, hheld]; rfl, fun hnew => ?_⟩
    rw [hvalue w' hw', hlast hnew]
  · intro as₁ clk c as₂ fix _ hfix
    obtain ⟨hfirst, hinit⟩ := data_location zone hcb hfix
    refine ⟨hinit, fun fix' hfix' => ?_⟩
    cases hfirst.symm.trans ((hrun as₁).first fix' hfix')

/-- Coordinates that come while the receiver is started are handed over by the timer thread. -/
theorem delivers_fixes_timer :
    let as := .setInit .start :: (ascii ['$', 'G', 'P', 'G', 'L', 'L', ',', '4', '8', '0', '7', '.',
      '0', ',', 'N', ',', '0', '1', '1', '3', '1', '.', '0', ',', 'E', ',', ',', 'A', '\n']).map
        (.data ⟨0, 0, 0⟩) ++ [.timer]
    DeliversFixes 0 ⟨true, false, false, false⟩ (fixStateInit : FixState ℚ) as ∧
      ∃ fix, .reader (.location fix) ∈
        (fixes 0 ⟨true, false, false, false⟩).out (fixStateInit : FixState ℚ) as ∧
        fix.has .latLong = true := by
  intro as
  refine ⟨delivers_fixes 0 ⟨true, false, false, false⟩ rfl as, ?_⟩
  have hlast : (((fixes 0 ⟨true, false, false, false⟩).out (fixStateInit : FixState ℚ) as).filterMap
      Event.location).any (·.has .latLong) = true := by
    decide +kernel
  obtain ⟨fix, hfix, hlat⟩ := List.any_eq_true.mp hlast
  obtain ⟨e, he, hloc⟩ := List.mem_filterMap.mp hfix
  cases e with
  | readerInit => cases hloc
  | reader o =>
    cases o with
    | location fix' =>
      cases hloc
      exact ⟨fix, he, hlat⟩
    | _ => cases hloc

end HeadUnit.Athr
