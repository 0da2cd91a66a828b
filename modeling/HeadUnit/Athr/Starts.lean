import HeadUnit.Athr.Steps

/-!
# Starts that are lost

The timer thread looks at `lastcmd` twice before it puts the receiver to sleep, but outside of the
section that clears `started`. A start whose byte is read in between finds `started` set and is
ignored, and then `started` is cleared (`lost_of_overtaken`). This is the only way to lose a start
that has been written to the control socket (`start_kept`).
-/

namespace HeadUnit.Athr

/-- In the body of the first check. -/
def TimerPc.isStopping : TimerPc → Bool
  | .gapInit _ | .gapNmea _ | .gapRunning _ | .gapOrion _ | .gapOver _ => true
  | .recheckInit | .recheckLastcmd | .recheckStarted | .sleep => true
  | _ => false

/-- Between the second time that `lastcmd` was found to be `CMD_STOP` and `started = 0`. -/
def TimerPc.hasSeenStop : TimerPc → Bool
  | .recheckStarted | .sleep => true
  | _ => false

/-- At the `sleep(1)` or in the loop behind it. -/
def TimerPc.atTop : TimerPc → Bool
  | .top | .notStarted | .notStartedRunning => true
  | _ => false

/-- Behind `if (!started)`, with `started` to be set. -/
def ControlPc.isStarting : ControlPc → Bool
  | .readerInit | .setStarted => true
  | _ => false

def Action.isCall : Action → Bool
  | .start _ | .stop _ => true
  | _ => false

theorem TimerPc.isStopping_of_hasSeenStop {pc : TimerPc} (h : pc.hasSeenStop = true) :
    pc.isStopping = true := by
  cases pc with
  | recheckStarted | sleep => rfl
  | _ => cases h

theorem TimerPc.hasSeenStop_of_atTop {pc : TimerPc} (h : pc.atTop = true) :
    pc.hasSeenStop = false := by
  cases pc with
  | top | notStarted | notStartedRunning => rfl
  | _ => cases h

namespace GpsState

variable {cbs : Callbacks} {s s' : GpsState} {a : Action} {acts : List Action} {out : List Output}

/-- If the last command was a start, then with both threads at rest the receiver is started. -/
def StartKept (s : GpsState) : Prop :=
  s.control = [] → s.stateThread = .epollWait → s.timer.atTop = true → s.lastcmd = .start →
    s.started = true

/-- The control loop is about to test `started` for a start, which is the last command, and the
timer thread has seen a stop. -/
def Overtaken (s : GpsState) : Prop :=
  s.stateThread = .command .start ∧ s.lastcmd = .start ∧ s.timer.hasSeenStop = true

/-- The control loop does not test `started` for a start that is overtaken. -/
def InTime (s : GpsState) : Action → Prop
  | .stateThread _ => ¬Overtaken s
  | _ => True

instance (s : GpsState) : Decidable (Overtaken s) := inferInstanceAs (Decidable (_ ∧ _ ∧ _))

instance (s : GpsState) : (a : Action) → Decidable (InTime s a)
  | .stateThread _ => inferInstanceAs (Decidable (¬_))
  | .start _ | .stop _ | .write _ | .timer _ | .others _ => .isTrue trivial

/-! ## Who changes `started` -/

/-- Only the control loop sets `started`, and only the timer thread clears it. -/
structure StartedInv (s : GpsState) : Prop where
  timer : s.timer.isStopping = true → s.started = true
  control : s.stateThread.isStarting = true → s.started = false

theorem TimerMove.isStopping {pc : TimerPc} (h : TimerMove s pc) (hbody : pc.isStopping = true) :
    s.started = true ∨ s.timer.isStopping = true := by
  cases h with
  | checkStarted _ hstarted | recheckStarted _ hstarted => exact .inl hstarted
  | gapInit hpc | gapNmea hpc | gapRunning hpc | gapOrion hpc | gapBreak hpc | recheckInit hpc
    | recheckLastcmd hpc =>
    rw [hpc]
    exact .inr rfl
  | gapOver hgap => rcases hgap with hpc | hpc | hpc | hpc <;> exact .inr (hpc ▸ rfl)
  | _ => cases hbody

theorem ControlMove.isStarting {pc : ControlPc} (h : ControlMove s pc)
    (hbody : pc.isStarting = true) : s.started = false := by
  cases h with
  | start _ hstarted => exact hstarted
  | _ => cases hbody

theorem StartedInv.step (h : StartedInv s) (hs : Step cbs s a s' out) : StartedInv s' := by
  cases hs with
  | start | stop | write | others => exact ⟨h.timer, h.control⟩
  | controlMove hmove => exact ⟨h.timer, hmove.isStarting⟩
  | read | quit | setStart | setInit | wakeupSection => exact ⟨h.timer, nofun⟩
  | readerInit hpc => exact ⟨h.timer, fun _ => h.control (hpc ▸ rfl)⟩
  | setStarted => exact ⟨fun _ => rfl, nofun⟩
  | timerMove hmove => exact ⟨fun hpc => (hmove.isStopping hpc).elim id h.timer, h.control⟩
  | report | closetty => exact ⟨nofun, h.control⟩
  | gapOver hpc => exact ⟨fun _ => h.timer (hpc ▸ rfl), h.control⟩
  | sleep => exact ⟨nofun, fun _ => rfl⟩

theorem StartedInv.init : StartedInv gpsStateInit := by
  refine ⟨fun hpc => ?_, fun _ => rfl⟩
  cases hpc

theorem StartedInv.of_after (hrun : (athr cbs).after gpsStateInit acts = .ok s) : StartedInv s :=
  (athr cbs).after_invariant .init (fun _ _ _ _ ht hstep => ht.step (step_of_ok hstep)) hrun

/-! ## Starts on their way -/

/-- A start on its way from its call to `started = 1`. -/
inductive Underway (calls : Nat → CallPc) (control : List Cmd) : ControlPc → Prop
  | call {pc k} (h : calls k = .write .start) : Underway calls control pc
  | byte {pc} (h : .start ∈ control) : Underway calls control pc
  | command : Underway calls control (.command .start)
  | starting {pc} (h : pc.isStarting = true) : Underway calls control pc

/-- The control loop at another place has no start in hand. -/
theorem Underway.move {calls : Nat → CallPc} {control : List Cmd} {pc : ControlPc}
    (h : Underway calls control pc) (hcommand : pc ≠ .command .start)
    (hstarting : pc.isStarting = false) (pc' : ControlPc) : Underway calls control pc' := by
  cases h with
  | call h => exact .call h
  | byte h => exact .byte h
  | command => exact absurd rfl hcommand
  | starting h => exact absurd (hstarting.symm.trans h) Bool.false_ne_true

theorem Underway.write {calls : Nat → CallPc} {control : List Cmd} {pc : ControlPc} {k : Nat}
    {cmd : Cmd} (h : Underway calls control pc) (hcall : calls k = .write cmd) :
    Underway (Function.update calls k .idle) (control ++ [cmd]) pc := by
  cases h with
  | @call _ l h =>
    by_cases hl : l = k
    · cases hl
      cases hcall.symm.trans h
      exact .byte (List.mem_append_right _ List.mem_cons_self)
    · exact .call ((Function.update_of_ne hl ..).trans h)
  | byte h => exact .byte (List.mem_append_left _ h)
  | command => exact .command
  | starting h => exact .starting h

theorem Underway.read {calls : Nat → CallPc} {cmd : Cmd} {rest : List Cmd}
    (h : Underway calls (cmd :: rest) .read) : Underway calls rest (.command cmd) := by
  cases h with
  | call h => exact .call h
  | byte h =>
    rcases List.mem_cons.mp h with rfl | h
    · exact .command
    · exact .byte h
  | starting h => cases h

/-- After a start the receiver is started, and the timer thread will find that out, or a start is
on its way. -/
def Kept (s : GpsState) : Prop :=
  s.lastcmd = .start →
    Underway s.calls s.control s.stateThread ∨ s.started = true ∧ s.timer.hasSeenStop = false

/-- The timer thread does not see a stop after the last start. -/
theorem TimerMove.hasSeenStop {pc : TimerPc} (h : TimerMove s pc) (hcmd : s.lastcmd = .start)
    (hstop : s.timer.hasSeenStop = false) : pc.hasSeenStop = false := by
  cases h with
  | recheckLastcmd _ hlast => cases hcmd.symm.trans hlast
  | recheckStarted hpc =>
    rw [hpc] at hstop
    cases hstop
  | _ => rfl

/-- The control loop goes on with no start in hand. -/
theorem Kept.move (h : Kept s) {pc : ControlPc} (hpc : s.stateThread = pc)
    (hcommand : pc ≠ .command .start) (hstarting : pc.isStarting = false) (pc' : ControlPc) :
    Kept { s with stateThread := pc' } := by
  intro hcmd
  have hway := h hcmd
  rw [hpc] at hway
  exact hway.imp (·.move hcommand hstarting pc') id

theorem Kept.controlMove {pc : ControlPc} (h : Kept s)
    (hq : s.stateThread = .command .start → s.lastcmd = .start → s.timer.hasSeenStop = false)
    (hmove : ControlMove s pc) : Kept { s with stateThread := pc } := by
  cases hmove with
  | alreadyStarted hpc hstarted => exact fun hcmd => .inr ⟨hstarted, hq hpc hcmd⟩
  | start => exact fun _ => .inl (.starting rfl)
  | epoll hpc | stop hpc | notStarted hpc | wakeup hpc | awake hpc => exact h.move hpc nofun rfl _

theorem Kept.step (h : Kept s) (hinv : StartedInv s) (hq : InTime s a)
    (hs : Step cbs s a s' out) : Kept s' := by
  cases hs with
  | start => exact fun _ => .inl (.call (Function.update_self ..))
  | stop => exact nofun
  | write hcall => exact fun hcmd => (h hcmd).imp (·.write hcall) id
  | controlMove hmove =>
    refine h.controlMove (fun hpc hcmd => ?_) hmove
    exact Bool.eq_false_iff.mpr fun hstop => hq ⟨hpc, hcmd, hstop⟩
  | read hpc hcontrol =>
    intro hcmd
    have hway := h hcmd
    rw [hpc, hcontrol] at hway
    exact hway.imp (·.read) id
  | quit hpc | setStart hpc | setInit hpc | wakeupSection hpc => exact h.move hpc nofun rfl _
  | readerInit => exact fun _ => .inl (.starting rfl)
  | setStarted hpc =>
    refine fun _ => .inr ⟨rfl, Bool.eq_false_iff.mpr fun hstop => ?_⟩
    -- A timer thread that has seen a stop has found `started` set.
    have hstarted := hinv.timer (TimerPc.isStopping_of_hasSeenStop hstop)
    exact Bool.false_ne_true ((hinv.control (hpc ▸ rfl)).symm.trans hstarted)
  | timerMove hmove =>
    exact fun hcmd => (h hcmd).imp id fun ⟨hon, hstop⟩ => ⟨hon, hmove.hasSeenStop hcmd hstop⟩
  | report | gapOver | closetty => exact fun hcmd => (h hcmd).imp id fun ⟨hon, _⟩ => ⟨hon, rfl⟩
  | sleep hpc =>
    refine fun hcmd => .inl ((h hcmd).resolve_right fun ⟨_, hstop⟩ => ?_)
    rw [hpc] at hstop
    cases hstop
  | others => exact h

theorem Kept.of_along (hq : (athr cbs).Along InTime gpsStateInit acts)
    (hrun : (athr cbs).after gpsStateInit acts = .ok s) : Kept s := by
  have h : StartedInv s ∧ Kept s := by
    refine Machine.Along.invariant (athr cbs) (P := fun s => StartedInv s ∧ Kept s)
      (fun t a t' ws ht hq hstep => ?_) hq ⟨.init, fun hcmd => nomatch hcmd⟩ hrun
    have hs := step_of_ok hstep
    exact ⟨ht.1.step hs, ht.2.step ht.1 hq hs⟩
  exact h.2

/-! ## Starts that are ignored -/

/-- The last start has been ignored, and the receiver is asleep or will be put to sleep. -/
structure Lost (s : GpsState) : Prop where
  calls : ∀ k, s.calls k = .idle
  control : s.control = []
  stateThread : s.stateThread = .epollWait
  lastcmd : s.lastcmd = .start
  asleep : s.timer.hasSeenStop = true ∨ s.started = false

/-- Once it has seen a stop, the timer thread goes on to the end. -/
theorem TimerMove.asleep {pc : TimerPc} (h : TimerMove s pc)
    (hasleep : s.timer.hasSeenStop = true ∨ s.started = false) :
    pc.hasSeenStop = true ∨ s.started = false := by
  rcases hasleep with hstop | hoff
  · cases h with
    | recheckLastcmd | recheckStarted => exact .inl rfl
    | checkFails hfrom => rcases hfrom with hpc | hpc | hpc <;> exact nomatch hpc ▸ hstop
    | gapOver hfrom => rcases hfrom with hpc | hpc | hpc | hpc <;> exact nomatch hpc ▸ hstop
    | recheckFails hfrom =>
      rcases hfrom with hpc | hpc | ⟨_, hoff⟩
      · exact nomatch hpc ▸ hstop
      · exact nomatch hpc ▸ hstop
      · exact .inr hoff
    | top hpc | started hpc | notStarted hpc | running hpc | stopped hpc | checkInit hpc
      | checkLastcmd hpc | checkStarted hpc | gapInit hpc | gapNmea hpc | gapRunning hpc
      | gapOrion hpc | gapBreak hpc | recheckInit hpc | loop hpc | exit hpc =>
      exact nomatch hpc ▸ hstop
  · exact .inr hoff

theorem Lost.step (h : Lost s) (hcall : a.isCall = false) (hs : Step cbs s a s' out) : Lost s' := by
  have hnot {pc : ControlPc} (hpc : s.stateThread = pc) (hne : pc ≠ .epollWait) : Lost s' :=
    absurd (hpc.symm.trans h.stateThread) hne
  have hawake {pc : TimerPc} (hpc : s.timer = pc) (hstop : pc.hasSeenStop = false) :
      s.started = false :=
    h.asleep.resolve_left fun hseen => Bool.false_ne_true (hstop.symm.trans (hpc ▸ hseen))
  cases hs with
  | start | stop => cases hcall
  | @write k cmd hwrite => cases (h.calls k).symm.trans hwrite
  | controlMove hmove =>
    cases hmove with
    | epoll _ hcontrol => exact absurd h.control hcontrol
    | alreadyStarted hpc | start hpc | stop hpc | notStarted hpc | wakeup hpc | awake hpc =>
      exact hnot hpc nofun
  | read hpc | quit hpc | readerInit hpc | setStarted hpc | setStart hpc | setInit hpc
    | wakeupSection hpc => exact hnot hpc nofun
  | timerMove hmove => exact { h with asleep := hmove.asleep h.asleep }
  | report hpc | gapOver hpc | closetty hpc =>
    exact { h with asleep := .inr (hawake hpc rfl) }
  | sleep => exact { h with asleep := .inr rfl }
  | others => exact { h with }

/-- The control loop ignores a start that is overtaken. -/
theorem Overtaken.step (h : Overtaken s) (hinv : StartedInv s) (tty : Tty) :
    (athr cbs).step s (.stateThread tty) = .ok ({ s with stateThread := .epollWait }, []) := by
  obtain ⟨hpc, _, hstop⟩ := h
  have hstarted := hinv.timer (TimerPc.isStopping_of_hasSeenStop hstop)
  show s.gpsStateThread tty = _
  simp only [gpsStateThread, hpc, hstarted, if_true]

theorem lost_of_overtaken {tty : Tty} (h : Overtaken s) (hinv : StartedInv s)
    (hcalls : ∀ k, s.calls k = .idle) (hcontrol : s.control = [])
    (hacts : ∀ a ∈ acts, a.isCall = false)
    (hrun : (athr cbs).after s (.stateThread tty :: acts) = .ok s') : Lost s' := by
  rw [(athr cbs).after_cons_of_ok (h.step hinv tty)] at hrun
  have hlost : Lost { s with stateThread := .epollWait } :=
    ⟨hcalls, hcontrol, rfl, h.2.1, .inl h.2.2⟩
  refine Machine.Along.invariant (athr cbs) (P := Lost) (fun t a t' ws ht hcall hstep => ?_)
    ((athr cbs).along_of_forall fun _ => hacts) hlost hrun
  exact ht.step hcall (step_of_ok hstep)

theorem Lost.not_startKept (h : Lost s) (htop : s.timer.atTop = true) : ¬StartKept s := by
  intro hkept
  have hstarted := hkept h.control h.stateThread htop h.lastcmd
  rcases h.asleep with hstop | hoff
  · exact Bool.false_ne_true ((TimerPc.hasSeenStop_of_atTop htop).symm.trans hstop)
  · exact Bool.false_ne_true (hoff.symm.trans hstarted)

/-- A start is kept unless it is overtaken; and one that is overtaken is lost, if no other command
follows. -/
theorem start_kept (cbs : Callbacks) :
    (∀ acts s, (athr cbs).Along InTime gpsStateInit acts →
      (athr cbs).after gpsStateInit acts = .ok s → (∀ k, s.calls k ≠ .write .start) →
      StartKept s) ∧
    (∀ acts acts' tty s s', (athr cbs).after gpsStateInit acts = .ok s → Overtaken s →
      (∀ k, s.calls k = .idle) → s.control = [] → (∀ a ∈ acts', a.isCall = false) →
      (athr cbs).after s (.stateThread tty :: acts') = .ok s' → s'.timer.atTop = true →
      ¬StartKept s') := by
  refine ⟨fun acts s hq hrun hcalls => ?_, fun acts acts' tty s s' hrun h hcalls hcontrol => ?_⟩
  · intro hcontrol hpc _ hcmd
    rcases Kept.of_along hq hrun hcmd with hway | ⟨hstarted, _⟩
    · rw [hcontrol, hpc] at hway
      cases hway with
      | call hcall => exact absurd hcall (hcalls _)
      | byte hbyte => cases hbyte
      | starting hstarting => cases hstarting
    · exact hstarted
  · intro hacts hrest htop
    exact (lost_of_overtaken h (.of_after hrun) hcalls hcontrol hacts hrest).not_startKept htop

/-- A device that can be opened and takes every write. -/
def readyTty : Tty := ⟨true, true, 1⟩

/-- The receiver is started and stopped. The timer thread waits for NMEA data, which come, and finds
the stop a second time; the receiver is started again, and the timer thread puts it to sleep. -/
def overtakenRun : List Action :=
  List.flatten [
    [.start 0, .write 0], List.replicate 8 (.stateThread readyTty),
    [.stop 0, .write 0], List.replicate 4 (.stateThread readyTty),
    List.replicate 6 (.timer readyTty),
    [.others ⟨1, true, false, true, false, false, false, -1⟩],
    List.replicate 6 (.timer readyTty),
    [.start 0, .write 0], List.replicate 3 (.stateThread readyTty),
    List.replicate 3 (.timer readyTty)]

/-- The timer thread puts the receiver to sleep before it is started again. -/
def restartedRun : List Action :=
  List.flatten [
    [.start 0, .write 0], List.replicate 8 (.stateThread readyTty),
    [.stop 0, .write 0], List.replicate 4 (.stateThread readyTty),
    List.replicate 6 (.timer readyTty),
    [.others ⟨1, true, false, true, false, false, false, -1⟩],
    List.replicate 9 (.timer readyTty),
    [.start 0, .write 0], List.replicate 8 (.stateThread readyTty)]

theorem start_kept_restarted : ∃ s, (athr ⟨true, true⟩).after gpsStateInit restartedRun = .ok s ∧
    s.lastcmd = .start ∧ s.control = [] ∧ s.started = true := by
  have hq : (athr ⟨true, true⟩).Along InTime gpsStateInit restartedRun := by decide +kernel
  refine ⟨_, rfl, rfl, rfl, (start_kept ⟨true, true⟩).1 restartedRun _ hq rfl (fun k => ?_)
    rfl rfl rfl rfl⟩
  cases k <;> exact nofun

/-- The second start of `overtakenRun` is lost. -/
theorem start_lost : ∃ s, (athr ⟨true, true⟩).after gpsStateInit overtakenRun = .ok s ∧
    (∀ k, s.calls k = .idle) ∧ ¬StartKept s := by
  refine ⟨_, rfl, fun k => ?_, fun h => ?_⟩
  · cases k <;> rfl
  · cases h rfl rfl rfl rfl

end GpsState

end HeadUnit.Athr
