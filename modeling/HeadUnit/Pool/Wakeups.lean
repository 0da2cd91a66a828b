import HeadUnit.Pool.Steps

/-!
# Who is woken

`pool_add_worker` changes the condition of the inner loop under the mutex and signals afterwards, so
that a task is never stranded (`no_stranded_task`). `pool_destroy` changes it without the mutex: its
broadcast can fall between a thread's test and its `pthread_cond_wait`, and that thread is not woken
any more. This is the only way to miss the shutdown (`shutdown_reaches`).
-/

namespace HeadUnit.Pool

variable {n : Nat} {τ : Type}

/-- `pool_destroy` is past its broadcast. -/
def DestroyPc.hasBroadcast : DestroyPc → Bool
  | .join _ | .free | .returned 0 => true
  | _ => false

namespace CThreadPool

variable {s s' : CThreadPool n τ} {a : Action n τ} {acts : List (Action n τ)} {es : List (Event τ)}

theorem goto_self (s : CThreadPool n τ) (i : Fin n) (pc : ThreadPc τ) :
    (s.goto i pc).threads i = pc := Function.update_self ..

theorem broadcast_threads (s : CThreadPool n τ) (i : Fin n) :
    s.broadcast.threads i = if (s.threads i).isBlocked then .woken else s.threads i := rfl

/-! ## Tasks -/

/-- While tasks are queued, a thread is awake or a signal is under way. -/
def Awake (s : CThreadPool n τ) : Prop :=
  s.shutdown = false → s.queueHead ≠ [] →
    (∃ i, s.threads i ≠ .blocked) ∨ ∃ k, s.adders k = .signal

theorem Awake.of_thread {i : Fin n} (hi : s.threads i ≠ .blocked) : Awake s :=
  fun _ _ => .inl ⟨i, hi⟩

theorem Awake.of_goto {i : Fin n} {pc : ThreadPc τ} (hthreads : s'.threads = (s.goto i pc).threads)
    (hpc : pc ≠ .blocked) : Awake s' := by
  refine .of_thread (i := i) ?_
  rwa [hthreads, goto_self]

theorem Awake.step (hn : 0 < n) (h : Awake s) (hqueue : QueueInv s) (hs : Step s a s' es) :
    Awake s' := by
  cases hs with
  | lock => exact .of_goto rfl nofun
  | idle => exact .of_goto rfl nofun
  | busy => exact .of_goto rfl nofun
  | @wait i hpc =>
    -- The thread has found the counter 0 inside the mutex, which it has held since.
    exact fun _ hne => absurd (hqueue.wait i hpc) hne
  | exit => exact .of_goto rfl nofun
  | stay => exact .of_goto rfl nofun
  | dequeue => exact .of_goto rfl nofun
  | process => exact .of_goto rfl nofun
  | free => exact .of_goto rfl nofun
  | wake => exact .of_goto rfl nofun
  | @addWorker k task hpc =>
    intro hrun hne
    refine (h hrun hne).imp id fun ⟨l, hl⟩ => ⟨l, ?_⟩
    show (s.adderGoto k (.locked task)).adders l = .signal
    rw [adderGoto_adders, if_neg]
    · exact hl
    · rintro rfl
      exact nomatch hpc.symm.trans hl
  | @append k => exact fun _ _ => .inr ⟨k, Function.update_self ..⟩
  | signal => exact .of_goto rfl nofun
  | signalNone _ _ hawake => exact .of_thread (i := ⟨0, hn⟩) (hawake _)
  | set => exact nofun
  | broadcast =>
    intro hrun hne
    refine (h hrun hne).imp (fun ⟨i, hi⟩ => ⟨i, ?_⟩) id
    show s.broadcast.threads i ≠ .blocked
    rw [broadcast_threads, if_neg fun hblocked => hi (isBlocked_iff.mp hblocked)]
    exact hi
  | discard _ hhead =>
    intro hrun _
    refine h hrun ?_
    rw [hhead]
    exact nofun
  | refuse | destroy | join | joined | done => exact h

/-- With a thread in the pool and no shutdown, the queue is never left to threads that are all
blocked. -/
theorem no_stranded_task (hn : 0 < n) (hrun : (pool n τ).after (poolInit n τ) acts = .ok s)
    (hshutdown : s.shutdown = false) :
    ¬(s.queueHead ≠ [] ∧ (∀ i, s.threads i = .blocked) ∧ ∀ k, s.adders k ≠ .signal) := by
  have h : Inv s ∧ Awake s := by
    refine (pool n τ).after_invariant (P := fun s => Inv s ∧ Awake s) ⟨.init, ?_⟩ ?_ hrun
    · exact fun _ hne => absurd rfl hne
    · rintro t a t' ws ⟨hinv, hawake⟩ hstep
      have hs := step_of_ok hstep
      exact ⟨hinv.step hs, hawake.step hn hinv.queue hs⟩
  rintro ⟨hne, hblocked, hsignal⟩
  rcases h.2 hshutdown hne with ⟨i, hi⟩ | ⟨k, hk⟩
  · exact hi (hblocked i)
  · exact hsignal k hk

/-- The only thread has blocked, and the caller that has queued a task has yet to signal. -/
def unsignalledRun : List (Action 1 Char) :=
  List.replicate 3 (.thread ⟨0, Nat.zero_lt_one⟩) ++ [.addWorker 0 'a', .append 0]

theorem no_stranded_task_unsignalled :
    ∃ s, (pool 1 Char).after (poolInit 1 Char) unsignalledRun = .ok s ∧
      ¬(s.queueHead ≠ [] ∧ (∀ i, s.threads i = .blocked) ∧ ∀ k, s.adders k ≠ .signal) := by
  have hrun := show (pool 1 Char).after (poolInit 1 Char) unsignalledRun = .ok _ from rfl
  exact ⟨_, hrun, no_stranded_task Nat.zero_lt_one hrun rfl⟩

/-! ## The shutdown -/

/-- The broadcast is over and a thread is blocked. -/
def Stranded (s : CThreadPool n τ) : Prop :=
  s.destroyer.hasBroadcast = true ∧ ∃ i, s.threads i = .blocked

/-- `pool_destroy` does not broadcast while a thread is between its test and its wait. -/
def InTime (s : CThreadPool n τ) (a : Action n τ) : Prop :=
  a = .destroy → s.destroyer = .broadcast → ∀ i, s.threads i ≠ .wait

instance : (pc : ThreadPc τ) → Decidable (pc = .wait)
  | .wait => .isTrue rfl
  | .lock | .test | .blocked | .woken | .leave | .take | .process _ | .free _ | .exited =>
    .isFalse nofun

instance (s : CThreadPool n τ) : (a : Action n τ) → Decidable (InTime s a)
  | .destroy => decidable_of_iff (s.destroyer = .broadcast → ∀ i, s.threads i ≠ .wait)
      ⟨fun h _ => h, fun h => h rfl⟩
  | .thread _ | .spurious _ | .addWorker _ _ | .append _ | .signal _ _ => .isTrue nofun

structure DownInv (s : CThreadPool n τ) : Prop where
  broadcast : s.destroyer = .broadcast → s.shutdown = true
  down : s.destroyer.hasBroadcast = true → s.shutdown = true
  awake : s.destroyer.hasBroadcast = true → ∀ i, s.threads i ≠ .wait ∧ s.threads i ≠ .blocked

namespace DownInv

variable (h : DownInv s)
include h

theorem keep (hdestroyer : s'.destroyer = s.destroyer) (hshutdown : s'.shutdown = s.shutdown)
    (hthreads : s'.threads = s.threads) : DownInv s' := by
  refine ⟨?_, ?_, ?_⟩
  · rw [hdestroyer, hshutdown]
    exact h.broadcast
  · rw [hdestroyer, hshutdown]
    exact h.down
  · rw [hdestroyer, hthreads]
    exact h.awake

theorem turn (i : Fin n) (pc : ThreadPc τ) (hdestroyer : s'.destroyer = s.destroyer)
    (hshutdown : s'.shutdown = s.shutdown) (hthreads : s'.threads = (s.goto i pc).threads)
    (hpc : s.destroyer.hasBroadcast = true → pc ≠ .wait ∧ pc ≠ .blocked) : DownInv s' := by
  refine ⟨?_, ?_, ?_⟩
  · rw [hdestroyer, hshutdown]
    exact h.broadcast
  · rw [hdestroyer, hshutdown]
    exact h.down
  · rw [hdestroyer]
    intro hdown j
    rw [hthreads, goto_threads]
    split
    case isTrue => exact hpc hdown
    case isFalse => exact h.awake hdown j

theorem step (hq : InTime s a) (hs : Step s a s' es) : DownInv s' := by
  have hgo (i : Fin n) (pc : ThreadPc τ) (hdestroyer : s'.destroyer = s.destroyer)
      (hshutdown : s'.shutdown = s.shutdown) (hthreads : s'.threads = (s.goto i pc).threads)
      (hwait : pc ≠ .wait) (hblocked : pc ≠ .blocked) : DownInv s' :=
    h.turn i pc hdestroyer hshutdown hthreads fun _ => ⟨hwait, hblocked⟩
  cases hs with
  | @lock i => exact hgo i .test rfl rfl rfl (fun h => nomatch h) fun h => nomatch h
  | @idle i _ _ hrun =>
    -- Behind the broadcast the test fails.
    exact h.turn i .wait rfl rfl rfl fun hdown => nomatch hrun.symm.trans (h.down hdown)
  | @busy i => exact hgo i .leave rfl rfl rfl (fun h => nomatch h) fun h => nomatch h
  | @wait i hpc => exact h.turn i .blocked rfl rfl rfl fun hdown => absurd hpc (h.awake hdown i).1
  | @exit i => exact hgo i .exited rfl rfl rfl (fun h => nomatch h) fun h => nomatch h
  | @stay i => exact hgo i .take rfl rfl rfl (fun h => nomatch h) fun h => nomatch h
  | @dequeue i w => exact hgo i (.process w) rfl rfl rfl (fun h => nomatch h) fun h => nomatch h
  | @process i w => exact hgo i (.free w) rfl rfl rfl (fun h => nomatch h) fun h => nomatch h
  | @free i => exact hgo i .lock rfl rfl rfl (fun h => nomatch h) fun h => nomatch h
  | @wake i => exact hgo i .woken rfl rfl rfl (fun h => nomatch h) fun h => nomatch h
  | @signal k i => exact hgo i .woken rfl rfl rfl (fun h => nomatch h) fun h => nomatch h
  | addWorker | append | signalNone => exact h.keep rfl rfl rfl
  | refuse | destroy => exact ⟨nofun, nofun, nofun⟩
  | set => exact ⟨fun _ => rfl, nofun, nofun⟩
  | broadcast hpc =>
    refine ⟨nofun, fun _ => h.broadcast hpc, fun _ i => ?_⟩
    show s.broadcast.threads i ≠ .wait ∧ s.broadcast.threads i ≠ .blocked
    rw [broadcast_threads]
    split
    case isTrue => exact ⟨nofun, nofun⟩
    case isFalse hawake => exact ⟨hq rfl hpc i, fun hi => hawake (isBlocked_iff.mpr hi)⟩
  | join hpc | joined hpc | done hpc =>
    have hdown : s.destroyer.hasBroadcast = true := hpc ▸ rfl
    exact ⟨nofun, fun _ => h.down hdown, fun _ => h.awake hdown⟩
  | discard => exact h.keep rfl rfl rfl

end DownInv

/-- A thread that waits behind the broadcast is stranded by its next action. -/
theorem stranded_of_wait {i : Fin n} (hbroadcast : s.destroyer = .broadcast)
    (hwait : s.threads i = .wait) :
    ∃ s', (pool n τ).after s [.destroy, .thread i] = .ok s' ∧ Stranded s' := by
  have hthread : ({ s.broadcast with destroyer := .join 0 } : CThreadPool n τ).threads i = .wait := by
    show s.broadcast.threads i = .wait
    rw [broadcast_threads, hwait]
    rfl
  have hfirst : (pool n τ).step s .destroy = .ok ({ s.broadcast with destroyer := .join 0 }, []) := by
    show s.poolDestroy = _
    rw [poolDestroy, hbroadcast]
  have hsecond : (pool n τ).step { s.broadcast with destroyer := .join 0 } (.thread i) =
      .ok ({ goto { s.broadcast with destroyer := .join 0 } i .blocked with queueLock := none },
        []) := by
    show threadRoutine _ i = _
    rw [threadRoutine, hthread]
  refine ⟨_, ((pool n τ).after_cons_of_ok hfirst).trans ((pool n τ).after_cons_of_ok hsecond), ?_⟩
  exact ⟨rfl, i, goto_self _ i .blocked⟩

/-- The shutdown misses a thread if and only if the broadcast falls between the thread's test and
its wait. -/
theorem shutdown_reaches :
    (∀ (acts : List (Action n τ)) s, (pool n τ).Along InTime (poolInit n τ) acts →
      (pool n τ).after (poolInit n τ) acts = .ok s → ¬Stranded s) ∧
    (∀ (acts : List (Action n τ)) s i, (pool n τ).after (poolInit n τ) acts = .ok s →
      s.destroyer = .broadcast → s.threads i = .wait →
      ∃ s', (pool n τ).after (poolInit n τ) (acts ++ [.destroy, .thread i]) = .ok s' ∧
        Stranded s') := by
  refine ⟨fun acts s hq hrun => ?_, fun acts s i hrun hbroadcast hwait => ?_⟩
  · rintro ⟨hdown, i, hi⟩
    have h : DownInv s := by
      refine Machine.Along.invariant _ (fun t a t' ws ht hq hstep => ?_) hq ?_ hrun
      · exact DownInv.step ht hq (step_of_ok hstep)
      · exact ⟨nofun, nofun, nofun⟩
    exact (h.awake hdown i).2 hi
  · rw [(pool n τ).after_append hrun]
    exact stranded_of_wait hbroadcast hwait

/-- Thread `i` waits before `pool_destroy` sets `shutdown` and broadcasts, and leaves. -/
def waitingRun (i : Fin n) : List (Action n τ) :=
  List.replicate 3 (.thread i) ++ List.replicate 3 .destroy ++ List.replicate 3 (.thread i)

theorem shutdown_reaches_waiting : ∃ s,
    (pool 1 Char).after (poolInit 1 Char) (waitingRun 0) = .ok s ∧
      s.destroyer = .join 0 ∧ s.shutdown = true ∧ ¬Stranded s := by
  have hq : (pool 1 Char).Along InTime (poolInit 1 Char) (waitingRun 0) := by decide
  exact ⟨_, rfl, rfl, rfl, shutdown_reaches.1 (waitingRun 0) _ hq rfl⟩

/-- The thread has tested, `pool_destroy` sets `shutdown` and broadcasts, the thread waits. -/
theorem shutdown_misses : ∃ s, (pool 1 Char).after (poolInit 1 Char) [.thread 0, .thread 0,
    .destroy, .destroy, .destroy, .thread 0] = .ok s ∧ Stranded s :=
  ⟨_, rfl, rfl, 0, rfl⟩

end CThreadPool

end HeadUnit.Pool
