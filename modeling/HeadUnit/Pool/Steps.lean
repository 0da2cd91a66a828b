import HeadUnit.Pool.ThreadPool

/-!
# The steps of the pool

`Step` lists what the actions do, each with its guard (`step_of_ok`). The invariants are read off
this list: who is inside the mutex holds it (`LockInv`), and the counter is the length of the queue
(`QueueInv`).
-/

namespace HeadUnit.Pool

variable {n : Nat} {τ : Type}

/-! ## Inversion -/

namespace CThreadPool

inductive Step : CThreadPool n τ → Action n τ → CThreadPool n τ → List (Event τ) → Prop
  | lock {s i} (hpc : s.threads i = .lock ∨ s.threads i = .woken) (hfree : s.queueLock = none) :
    Step s (.thread i) { s.goto i .test with queueLock := some (.thread i) } []
  | idle {s i} (hpc : s.threads i = .test) (hsize : s.curQueueSize = 0)
    (hrun : s.shutdown = false) : Step s (.thread i) (s.goto i .wait) []
  | busy {s i} (hpc : s.threads i = .test) (h : ¬(s.curQueueSize = 0 ∧ s.shutdown = false)) :
    Step s (.thread i) (s.goto i .leave) []
  | wait {s i} (hpc : s.threads i = .wait) :
    Step s (.thread i) { s.goto i .blocked with queueLock := none } []
  | exit {s i} (hpc : s.threads i = .leave) (hdown : s.shutdown = true) :
    Step s (.thread i) { s.goto i .exited with queueLock := none } []
  | stay {s i} (hpc : s.threads i = .leave) (hrun : s.shutdown = false) :
    Step s (.thread i) (s.goto i .take) []
  | dequeue {s i worker rest} (hpc : s.threads i = .take) (hsize : s.curQueueSize ≠ 0)
    (hqueue : s.queueHead = worker :: rest) :
    Step s (.thread i) { s.goto i (.process worker) with
      curQueueSize := s.curQueueSize - 1
      queueHead := rest
      queueLock := none } [⟨.dequeued, worker⟩]
  | process {s i worker} (hpc : s.threads i = .process worker) :
    Step s (.thread i) (s.goto i (.free worker)) [⟨.executed, worker⟩]
  | free {s i worker} (hpc : s.threads i = .free worker) :
    Step s (.thread i) (s.goto i .lock) [⟨.freed, worker⟩]
  | wake {s i} (hpc : s.threads i = .blocked) : Step s (.spurious i) (s.goto i .woken) []
  | addWorker {s k task} (hpc : s.adders k = .idle) (hfree : s.queueLock = none)
    (hup : s.destroyer.tearsDown = false) :
    Step s (.addWorker k task)
      { s.adderGoto k (.locked task) with queueLock := some (.adder k) } []
  | append {s k task} (hpc : s.adders k = .locked task) (hup : s.destroyer.tearsDown = false) :
    Step s (.append k) { s.adderGoto k .signal with
      queueHead := s.queueHead ++ [⟨s.allocated, task⟩]
      curQueueSize := s.curQueueSize + 1
      allocated := s.allocated + 1
      queueLock := none } [⟨.added, s.allocated, task⟩]
  | signal {s k i} (hpc : s.adders k = .signal) (hup : s.destroyer.tearsDown = false)
    (hblocked : s.threads i = .blocked) :
    Step s (.signal k (some i)) ((s.goto i .woken).adderGoto k .done) []
  | signalNone {s k} (hpc : s.adders k = .signal) (hup : s.destroyer.tearsDown = false)
    (hawake : ∀ i, s.threads i ≠ .blocked) : Step s (.signal k none) (s.adderGoto k .done) []
  | refuse {s} (hpc : s.destroyer = .idle) (hdown : s.shutdown = true) :
    Step s .destroy { s with destroyer := .returned (-1) } []
  | destroy {s} (hpc : s.destroyer = .idle) (hrun : s.shutdown = false) :
    Step s .destroy { s with destroyer := .set } []
  | set {s} (hpc : s.destroyer = .set) :
    Step s .destroy { s with shutdown := true, destroyer := .broadcast } []
  | broadcast {s} (hpc : s.destroyer = .broadcast) :
    Step s .destroy { s.broadcast with destroyer := .join 0 } []
  | join {s i} (hpc : s.destroyer = .join i) (hi : i < n) (hexited : s.threads ⟨i, hi⟩ = .exited) :
    Step s .destroy { s with destroyer := .join (i + 1) } []
  | joined {s i} (hpc : s.destroyer = .join i) (hi : n ≤ i) :
    Step s .destroy { s with destroyer := .free } []
  | discard {s head rest} (hpc : s.destroyer = .free) (hqueue : s.queueHead = head :: rest) :
    Step s .destroy { s with queueHead := rest } [⟨.discarded, head⟩, ⟨.freed, head⟩]
  | done {s} (hpc : s.destroyer = .free) (hqueue : s.queueHead = []) :
    Step s .destroy { s with destroyer := .returned 0 } []

theorem isBlocked_iff {pc : ThreadPc τ} : pc.isBlocked = true ↔ pc = .blocked := by
  cases pc <;> simp [ThreadPc.isBlocked]

theorem isExited_iff {pc : ThreadPc τ} : pc.isExited = true ↔ pc = .exited := by
  cases pc <;> simp [ThreadPc.isExited]

theorem threadRoutine_of_ok {s s' : CThreadPool n τ} {i : Fin n} {es : List (Event τ)}
    (h : s.threadRoutine i = .ok (s', es)) : Step s (.thread i) s' es := by
  rw [threadRoutine] at h
  cases hpc : s.threads i with
  | lock =>
    simp only [hpc] at h
    split at h
    case h_1 hfree =>
      cases h
      exact .lock (.inl hpc) hfree
    case h_2 => cases h
  | woken =>
    simp only [hpc] at h
    split at h
    case h_1 hfree =>
      cases h
      exact .lock (.inr hpc) hfree
    case h_2 => cases h
  | test =>
    simp only [hpc] at h
    split at h
    case isTrue hidle =>
      cases h
      exact .idle hpc hidle.1 hidle.2
    case isFalse hbusy =>
      cases h
      exact .busy hpc hbusy
  | wait =>
    simp only [hpc] at h
    cases h
    exact .wait hpc
  | blocked =>
    simp only [hpc] at h
    cases h
  | leave =>
    simp only [hpc] at h
    split at h
    case isTrue hdown =>
      cases h
      exact .exit hpc hdown
    case isFalse hrun =>
      cases h
      exact .stay hpc (Bool.eq_false_iff.mpr hrun)
  | take =>
    simp only [hpc] at h
    split at h
    case isTrue => cases h
    case isFalse hsize =>
      split at h
      case h_1 => cases h
      case h_2 hqueue =>
        cases h
        exact .dequeue hpc hsize hqueue
  | process worker =>
    simp only [hpc] at h
    cases h
    exact .process hpc
  | free worker =>
    simp only [hpc] at h
    cases h
    exact .free hpc
  | exited =>
    simp only [hpc] at h
    cases h

theorem signal_of_ok {s s' : CThreadPool n τ} {k : Nat} {woken : Option (Fin n)}
    {es : List (Event τ)} (h : s.signal k woken = .ok (s', es)) :
    Step s (.signal k woken) s' es := by
  unfold signal at h
  split at h
  case h_2 => cases h
  case h_1 hpc =>
  split at h
  case isTrue => cases h
  case isFalse hup =>
  have hup := Bool.eq_false_iff.mpr hup
  split at h
  case h_1 i =>
    split at h
    case isTrue hblocked =>
      cases h
      exact .signal hpc hup (isBlocked_iff.mp hblocked)
    case isFalse => cases h
  case h_2 =>
    split at h
    case isTrue hawake =>
      cases h
      refine .signalNone hpc hup fun i hi => ?_
      exact Bool.false_ne_true ((hawake i).symm.trans (isBlocked_iff.mpr hi))
    case isFalse => cases h

theorem poolDestroy_of_ok {s s' : CThreadPool n τ} {es : List (Event τ)}
    (h : s.poolDestroy = .ok (s', es)) : Step s .destroy s' es := by
  rw [poolDestroy] at h
  split at h
  case h_1 hpc =>
    split at h
    case isTrue hdown =>
      cases h
      exact .refuse hpc hdown
    case isFalse hrun =>
      cases h
      exact .destroy hpc (Bool.eq_false_iff.mpr hrun)
  case h_2 hpc =>
    cases h
    exact .set hpc
  case h_3 hpc =>
    cases h
    exact .broadcast hpc
  case h_4 i hpc =>
    split at h
    case isTrue hi =>
      split at h
      case isTrue hexited =>
        cases h
        exact .join hpc hi (isExited_iff.mp hexited)
      case isFalse => cases h
    case isFalse hi =>
      cases h
      exact .joined hpc (Nat.le_of_not_lt hi)
  case h_5 hpc =>
    split at h
    case h_1 hqueue =>
      cases h
      exact .done hpc hqueue
    case h_2 hqueue =>
      cases h
      exact .discard hpc hqueue
  case h_6 => cases h

/-- What an action can do. -/
theorem step_of_ok {s s' : CThreadPool n τ} {a : Action n τ} {es : List (Event τ)}
    (h : s.step a = .ok (s', es)) : Step s a s' es := by
  cases a with
  | thread i => exact threadRoutine_of_ok h
  | spurious i =>
    rw [step] at h
    split at h
    case isTrue hblocked =>
      cases h
      exact .wake (isBlocked_iff.mp hblocked)
    case isFalse => cases h
  | addWorker k task =>
    rw [step, addWorker] at h
    split at h
    case h_2 => cases h
    case h_1 hpc hfree =>
    split at h
    case isTrue => cases h
    case isFalse hup =>
      cases h
      exact .addWorker hpc hfree (Bool.eq_false_iff.mpr hup)
  | append k =>
    rw [step, append] at h
    split at h
    case h_2 => cases h
    case h_1 hpc =>
    split at h
    case isTrue => cases h
    case isFalse hup =>
      cases h
      exact .append hpc (Bool.eq_false_iff.mpr hup)
  | signal k woken => exact signal_of_ok h
  | destroy => exact poolDestroy_of_ok h

end CThreadPool

/-! ## The mutex -/

/-- The thread is between a lock and an unlock. -/
def ThreadPc.Inside : ThreadPc τ → Prop
  | .test | .wait | .leave | .take => True
  | _ => False

namespace CThreadPool

variable {s s' : CThreadPool n τ} {a : Action n τ} {es : List (Event τ)}

theorem goto_threads (s : CThreadPool n τ) (i j : Fin n) (pc : ThreadPc τ) :
    (s.goto i pc).threads j = if j = i then pc else s.threads j := Function.update_apply ..

theorem adderGoto_adders (s : CThreadPool n τ) (k l : Nat) (pc : AdderPc τ) :
    (s.adderGoto k pc).adders l = if l = k then pc else s.adders l := Function.update_apply ..

/-- Whoever is inside holds the mutex. -/
structure LockInv (s : CThreadPool n τ) : Prop where
  thread : ∀ i, (s.threads i).Inside → s.queueLock = some (.thread i)
  adder : ∀ k task, s.adders k = .locked task → s.queueLock = some (.adder k)

namespace LockInv

variable (h : LockInv s) {i : Fin n} {pc : ThreadPc τ} {k : Nat}
include h

theorem goto (hpc : pc.Inside → (s.threads i).Inside) : LockInv (s.goto i pc) := by
  refine ⟨fun j hj => ?_, h.adder⟩
  rw [goto_threads] at hj
  split at hj
  case isTrue hij => exact hij ▸ h.thread i (hpc hj)
  case isFalse => exact h.thread j hj

theorem acquire (hfree : s.queueLock = none) :
    LockInv { s.goto i pc with queueLock := some (.thread i) } := by
  refine ⟨fun j hj => ?_, fun k task hk => nomatch hfree.symm.trans (h.adder k task hk)⟩
  have hj : ((s.goto i pc).threads j).Inside := hj
  rw [goto_threads] at hj
  split at hj
  case isTrue hij => exact hij ▸ rfl
  case isFalse => exact nomatch hfree.symm.trans (h.thread j hj)

/-- The thread inside leaves. -/
theorem release (hi : (s.threads i).Inside) (hpc : ¬pc.Inside) :
    LockInv { s.goto i pc with queueLock := none } := by
  have hlock := h.thread i hi
  refine ⟨fun j hj => ?_, fun k task hk => nomatch hlock.symm.trans (h.adder k task hk)⟩
  have hj : ((s.goto i pc).threads j).Inside := hj
  rw [goto_threads] at hj
  split at hj
  case isTrue => exact absurd hj hpc
  case isFalse hne =>
    have hij := hlock.symm.trans (h.thread j hj)
    rw [Option.some.injEq, Holder.thread.injEq] at hij
    exact absurd hij.symm hne

theorem adderGoto {pc : AdderPc τ} (hpc : ∀ task, pc ≠ .locked task) :
    LockInv (s.adderGoto k pc) := by
  refine ⟨h.thread, fun l task hl => ?_⟩
  rw [adderGoto_adders] at hl
  split at hl
  case isTrue => exact absurd hl (hpc task)
  case isFalse => exact h.adder l task hl

theorem adderAcquire {task : τ} (hfree : s.queueLock = none) :
    LockInv { s.adderGoto k (.locked task) with queueLock := some (.adder k) } := by
  refine ⟨(fun j hj => nomatch hfree.symm.trans (h.thread j hj)), fun l task' hl => ?_⟩
  have hl : (s.adderGoto k (.locked task)).adders l = .locked task' := hl
  rw [adderGoto_adders] at hl
  split at hl
  case isTrue hlk => exact hlk ▸ rfl
  case isFalse => exact nomatch hfree.symm.trans (h.adder l task' hl)

theorem adderRelease {task : τ} (hk : s.adders k = .locked task) :
    LockInv { s.adderGoto k .signal with queueLock := none } := by
  have hlock := h.adder k task hk
  refine ⟨(fun j hj => nomatch hlock.symm.trans (h.thread j hj)), fun l task' hl => ?_⟩
  have hl : (s.adderGoto k .signal).adders l = .locked task' := hl
  rw [adderGoto_adders] at hl
  split at hl
  case isTrue => cases hl
  case isFalse hne =>
    have hlk := hlock.symm.trans (h.adder l task' hl)
    rw [Option.some.injEq, Holder.adder.injEq] at hlk
    exact absurd hlk.symm hne

theorem broadcast : LockInv s.broadcast := by
  refine ⟨fun j hj => h.thread j ?_, h.adder⟩
  have hj : (if (s.threads j).isBlocked then ThreadPc.woken else s.threads j).Inside := hj
  split at hj
  case isTrue => exact hj.elim
  case isFalse => exact hj

theorem step (hs : Step s a s' es) : LockInv s' := by
  cases hs with
  | lock hpc hfree => exact h.acquire hfree
  | idle hpc => exact h.goto fun _ => hpc ▸ trivial
  | busy hpc => exact h.goto fun _ => hpc ▸ trivial
  | wait hpc => exact h.release (hpc ▸ trivial) id
  | exit hpc => exact h.release (hpc ▸ trivial) id
  | stay hpc => exact h.goto fun _ => hpc ▸ trivial
  | @dequeue i worker rest hpc =>
    have hinside : (s.threads i).Inside := hpc ▸ trivial
    have hrelease : LockInv { s.goto i (.process worker) with queueLock := none } :=
      h.release hinside id
    exact ⟨hrelease.thread, hrelease.adder⟩
  | process => exact h.goto False.elim
  | free => exact h.goto False.elim
  | wake => exact h.goto False.elim
  | addWorker hpc hfree => exact h.adderAcquire hfree
  | append hpc =>
    have hrelease := h.adderRelease hpc
    exact ⟨hrelease.thread, hrelease.adder⟩
  | signal => exact (h.goto False.elim).adderGoto fun _ => nofun
  | signalNone => exact h.adderGoto fun _ => nofun
  | broadcast =>
    have hbroadcast := h.broadcast
    exact ⟨hbroadcast.thread, hbroadcast.adder⟩
  | refuse | destroy | set | join | joined | discard | done => exact ⟨h.thread, h.adder⟩

end LockInv

/-! ## Joining -/

theorem goto_threads_of_ne {i j : Fin n} {pc qc : ThreadPc τ} (hi : s.threads i ≠ qc)
    (hj : s.threads j = qc) : (s.goto i pc).threads j = qc := by
  rw [goto_threads, if_neg]
  · exact hj
  · rintro rfl
    exact hi hj

/-- A thread that has exited does nothing more. -/
theorem Step.exited (hs : Step s a s' es) {j : Fin n} (hj : s.threads j = .exited) :
    s'.threads j = .exited := by
  cases hs with
  | lock hpc =>
    refine goto_threads_of_ne (fun hi => ?_) hj
    rcases hpc with hpc | hpc <;> exact nomatch hpc.symm.trans hi
  | idle hpc => exact goto_threads_of_ne (fun hi => nomatch hpc.symm.trans hi) hj
  | busy hpc => exact goto_threads_of_ne (fun hi => nomatch hpc.symm.trans hi) hj
  | wait hpc => exact goto_threads_of_ne (fun hi => nomatch hpc.symm.trans hi) hj
  | exit hpc => exact goto_threads_of_ne (fun hi => nomatch hpc.symm.trans hi) hj
  | stay hpc => exact goto_threads_of_ne (fun hi => nomatch hpc.symm.trans hi) hj
  | dequeue hpc => exact goto_threads_of_ne (fun hi => nomatch hpc.symm.trans hi) hj
  | process hpc => exact goto_threads_of_ne (fun hi => nomatch hpc.symm.trans hi) hj
  | free hpc => exact goto_threads_of_ne (fun hi => nomatch hpc.symm.trans hi) hj
  | wake hpc => exact goto_threads_of_ne (fun hi => nomatch hpc.symm.trans hi) hj
  | signal _ _ hpc => exact goto_threads_of_ne (fun hi => nomatch hpc.symm.trans hi) hj
  | broadcast =>
    show (if (s.threads j).isBlocked then ThreadPc.woken else s.threads j) = .exited
    rw [hj]
    rfl
  | addWorker | append | signalNone | refuse | destroy | set | join | joined | discard | done =>
    exact hj

/-- What `pool_destroy` has joined has exited. -/
structure JoinInv (s : CThreadPool n τ) : Prop where
  joined : ∀ j, s.destroyer = .join j → ∀ i : Fin n, i.val < j → s.threads i = .exited
  down : s.destroyer.tearsDown = true → ∀ i, s.threads i = .exited

theorem JoinInv.step (h : JoinInv s) (hs : Step s a s' es) : JoinInv s' := by
  have hkeep (hd : s'.destroyer = s.destroyer) : JoinInv s' := by
    refine ⟨fun j hj i hi => hs.exited (h.joined j ?_ i hi),
      fun hdown i => hs.exited (h.down ?_ i)⟩
    · rw [← hd, hj]
    · rw [← hd, hdown]
  cases hs with
  | refuse | destroy | set => exact ⟨nofun, nofun⟩
  | broadcast =>
    refine ⟨fun j hj i hi => ?_, nofun⟩
    cases hj
    cases hi
  | @join i hpc hi hexited =>
    refine ⟨fun j hj k hk => ?_, nofun⟩
    cases hj
    rcases Nat.lt_or_eq_of_le (Nat.le_of_lt_succ hk) with hlt | heq
    · exact h.joined i hpc k hlt
    · obtain rfl : k = ⟨i, hi⟩ := Fin.ext heq
      exact hexited
  | joined hpc hi => exact ⟨nofun, fun _ k => h.joined _ hpc k (Nat.lt_of_lt_of_le k.isLt hi)⟩
  | done hpc => exact ⟨nofun, fun _ => h.down (hpc ▸ rfl)⟩
  | lock | idle | busy | wait | exit | stay | dequeue | process | free | wake | addWorker | append
  | signal | signalNone | discard => exact hkeep rfl

/-- While a thread has not exited, nothing is being freed. -/
theorem JoinInv.up (h : JoinInv s) {i : Fin n} (hi : s.threads i ≠ .exited) :
    s.destroyer.tearsDown = false :=
  Bool.eq_false_iff.mpr fun hdown => hi (h.down hdown i)

/-! ## The queue -/

/-- The counter is the length of the list until `pool_destroy` frees the list, and what a thread has
found out about it inside the mutex stays true while it is inside. -/
structure QueueInv (s : CThreadPool n τ) : Prop where
  size : s.destroyer.tearsDown = false → s.curQueueSize = s.queueHead.length
  wait : ∀ i, s.threads i = .wait → s.queueHead = []
  leave : ∀ i, s.threads i = .leave → s.curQueueSize ≠ 0 ∨ s.shutdown = true
  take : ∀ i, s.threads i = .take → s.curQueueSize ≠ 0
  emptied : s.destroyer = .returned 0 → s.queueHead = []

namespace QueueInv

variable (h : QueueInv s) {i : Fin n} {pc : ThreadPc τ}
include h

/-- A thread that goes elsewhere than to the three places. -/
theorem goto (hwait : pc = .wait → s.queueHead = [])
    (hleave : pc = .leave → s.curQueueSize ≠ 0 ∨ s.shutdown = true)
    (htake : pc = .take → s.curQueueSize ≠ 0) : QueueInv (s.goto i pc) := by
  have hthread {qc : ThreadPc τ} {j : Fin n} (hj : (s.goto i pc).threads j = qc) :
      pc = qc ∨ s.threads j = qc := by
    rw [goto_threads] at hj
    split at hj
    case isTrue => exact .inl hj
    case isFalse => exact .inr hj
  refine ⟨h.size, fun j hj => ?_, fun j hj => ?_, fun j hj => ?_, h.emptied⟩
  · exact (hthread hj).elim hwait (h.wait j)
  · exact (hthread hj).elim hleave (h.leave j)
  · exact (hthread hj).elim htake (h.take j)

theorem withLock (lock : Option (Holder n)) : QueueInv { s with queueLock := lock } :=
  ⟨h.size, h.wait, h.leave, h.take, h.emptied⟩

end QueueInv

/-- With no thread at the three places, the counter is all there is to show. -/
theorem QueueInv.of_size
    (hsize : s.destroyer.tearsDown = false → s.curQueueSize = s.queueHead.length)
    (hreturned : s.destroyer ≠ .returned 0) (hplace : ∀ j, ¬(s.threads j).Inside) : QueueInv s :=
  ⟨hsize, fun j hj => (hplace j (hj ▸ trivial)).elim, fun j hj => (hplace j (hj ▸ trivial)).elim,
    fun j hj => (hplace j (hj ▸ trivial)).elim, fun hr => absurd hr hreturned⟩

/-- When the thread inside leaves, no thread is inside. -/
theorem LockInv.empty (h : LockInv s) {i : Fin n} {pc : ThreadPc τ} (hi : (s.threads i).Inside)
    (hpc : ¬pc.Inside) (j : Fin n) : ¬((s.goto i pc).threads j).Inside := fun hj =>
  nomatch (h.release hi hpc).thread j hj

/-- While a caller of `pool_add_worker` is inside, no thread is. -/
theorem LockInv.outside (h : LockInv s) {k : Nat} {task : τ} (hk : s.adders k = .locked task)
    (j : Fin n) : ¬(s.threads j).Inside := fun hj =>
  nomatch (h.adder k task hk).symm.trans (h.thread j hj)

theorem QueueInv.step (h : QueueInv s) (hlock : LockInv s) (hjoin : JoinInv s)
    (hs : Step s a s' es) : QueueInv s' := by
  have ne_returned (hup : s.destroyer.tearsDown = false) : s.destroyer ≠ .returned 0 :=
    fun hr => nomatch (hr ▸ hup : (DestroyPc.returned 0).tearsDown = false)
  have helse {i : Fin n} {pc : ThreadPc τ} (hwait : pc ≠ .wait) (hleave : pc ≠ .leave)
      (htake : pc ≠ .take) : QueueInv (s.goto i pc) :=
    h.goto (fun hpc => absurd hpc hwait) (fun hpc => absurd hpc hleave) fun hpc => absurd hpc htake
  cases hs with
  | lock =>
    refine QueueInv.withLock (helse ?_ ?_ ?_) _ <;> exact nofun
  | @idle i hpc hsize =>
    refine h.goto (fun _ => List.length_eq_zero_iff.mp ?_) (fun h => nomatch h) fun h => nomatch h
    have hlen := h.size (hjoin.up fun hi => nomatch hpc.symm.trans hi)
    omega
  | busy hpc hbusy =>
    refine h.goto (fun h => nomatch h) (fun _ => ?_) fun h => nomatch h
    by_contra hnot
    rw [not_or, not_not, Bool.not_eq_true] at hnot
    exact hbusy hnot
  | wait => refine QueueInv.withLock (helse ?_ ?_ ?_) _ <;> exact nofun
  | exit => refine QueueInv.withLock (helse ?_ ?_ ?_) _ <;> exact nofun
  | @stay i hpc hrun =>
    refine h.goto (fun h => nomatch h) (fun h => nomatch h) fun _ => (h.leave i hpc).resolve_right ?_
    rw [hrun]
    exact Bool.false_ne_true
  | @dequeue i worker rest hpc hsize hqueue =>
    have hup := hjoin.up fun hi => nomatch hpc.symm.trans hi
    refine .of_size (fun _ => ?_) (ne_returned hup) (hlock.empty (hpc ▸ trivial) id)
    have hlen := h.size hup
    rw [hqueue, List.length_cons] at hlen
    show s.curQueueSize - 1 = rest.length
    omega
  | process | free | wake => refine helse ?_ ?_ ?_ <;> exact nofun
  | addWorker => exact ⟨h.size, h.wait, h.leave, h.take, h.emptied⟩
  | @append k task hpc hup =>
    refine .of_size (fun _ => ?_) (ne_returned hup) (hlock.outside hpc)
    show s.curQueueSize + 1 = ((s.queueHead ++ [_]).length : Int)
    rw [h.size hup, List.length_append, List.length_singleton]
    rfl
  | @signal k i =>
    have hgoto : QueueInv (s.goto i .woken) := by refine helse ?_ ?_ ?_ <;> exact nofun
    exact ⟨hgoto.size, hgoto.wait, hgoto.leave, hgoto.take, hgoto.emptied⟩
  | signalNone => exact ⟨h.size, h.wait, h.leave, h.take, h.emptied⟩
  | refuse hpc => exact ⟨fun _ => h.size (hpc ▸ rfl), h.wait, h.leave, h.take,
      fun hr => absurd hr (by decide : DestroyPc.returned (-1) ≠ .returned 0)⟩
  | destroy hpc => exact ⟨fun _ => h.size (hpc ▸ rfl), h.wait, h.leave, h.take, nofun⟩
  | set hpc => exact ⟨fun _ => h.size (hpc ▸ rfl), h.wait, fun _ _ => .inr rfl, h.take, nofun⟩
  | broadcast hpc =>
    have hthread {qc : ThreadPc τ} {j : Fin n} (hne : qc ≠ .woken)
        (hj : s.broadcast.threads j = qc) : s.threads j = qc := by
      have hj : (if (s.threads j).isBlocked then ThreadPc.woken else s.threads j) = qc := hj
      split at hj
      case isTrue => exact absurd hj.symm hne
      case isFalse => exact hj
    exact ⟨fun _ => h.size (hpc ▸ rfl), fun j hj => h.wait j (hthread nofun hj),
      fun j hj => h.leave j (hthread nofun hj), fun j hj => h.take j (hthread nofun hj), nofun⟩
  | join hpc => exact ⟨fun _ => h.size (hpc ▸ rfl), h.wait, h.leave, h.take, nofun⟩
  | joined => exact ⟨nofun, h.wait, h.leave, h.take, nofun⟩
  | discard hpc =>
    refine .of_size (fun hup => nomatch (hpc ▸ hup : DestroyPc.free.tearsDown = false))
      (fun hr => nomatch hpc.symm.trans hr) fun j hj => ?_
    have hj : (s.threads j).Inside := hj
    rw [hjoin.down (hpc ▸ rfl) j] at hj
    exact hj
  | done _ hqueue => exact ⟨nofun, h.wait, h.leave, h.take, fun _ => hqueue⟩

/-! ## Runs -/

/-- What holds of every state that the pool reaches. -/
structure Inv (s : CThreadPool n τ) : Prop where
  lock : LockInv s
  join : JoinInv s
  queue : QueueInv s

theorem Inv.init : Inv (poolInit n τ) :=
  ⟨⟨fun _ h => h.elim, nofun⟩, ⟨nofun, nofun⟩, ⟨fun _ => rfl, nofun, nofun, nofun, nofun⟩⟩

theorem Inv.step (h : Inv s) (hs : Step s a s' es) : Inv s' :=
  ⟨h.lock.step hs, h.join.step hs, h.queue.step h.lock h.join hs⟩

theorem Inv.of_after {acts : List (Action n τ)}
    (hrun : (pool n τ).after (poolInit n τ) acts = .ok s) : Inv s :=
  (pool n τ).after_invariant Inv.init (fun _ _ _ _ h hstep => h.step (step_of_ok hstep)) hrun

end CThreadPool

end HeadUnit.Pool
