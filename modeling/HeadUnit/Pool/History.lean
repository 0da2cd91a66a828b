import Mathlib.Algebra.BigOperators.Group.Finset.Basic
import Mathlib.Algebra.Order.Group.Multiset
import Mathlib.Data.Fintype.Basic
import Mathlib.Tactic.Abel
import HeadUnit.Pool.Steps

/-!
# The nodes of the pool

A node is queued, then in the hands of one thread or of `pool_destroy`, then freed. What is freed
and what the threads hold is what has left the queue (`History.freed`), and this equation of
multisets is kept by every step; that nothing is lost and nothing happens twice is read off it when
the threads hold nothing any more (`pool_conserves`).
-/

namespace HeadUnit.Pool

variable {n : Nat} {τ : Type}

/-! ## What the threads hold -/

/-- The node whose task the thread has yet to run. -/
def ThreadPc.pending : ThreadPc τ → Multiset (CThreadWorker τ)
  | .process worker => {worker}
  | _ => 0

/-- The node the thread has taken and not freed. -/
def ThreadPc.held : ThreadPc τ → Multiset (CThreadWorker τ)
  | .process worker | .free worker => {worker}
  | _ => 0

namespace CThreadPool

variable {s s' : CThreadPool n τ} {a : Action n τ} {es ws : List (Event τ)}

/-- What the threads have together. -/
def total (s : CThreadPool n τ) (f : ThreadPc τ → Multiset (CThreadWorker τ)) :
    Multiset (CThreadWorker τ) :=
  ∑ i, f (s.threads i)

/-- A step of one thread changes its own share. -/
theorem total_goto (s : CThreadPool n τ) (f : ThreadPc τ → Multiset (CThreadWorker τ)) (i : Fin n)
    (pc : ThreadPc τ) : (s.goto i pc).total f + f (s.threads i) = s.total f + f pc := by
  have hrest : ∑ j ∈ Finset.univ.erase i, f ((s.goto i pc).threads j) =
      ∑ j ∈ Finset.univ.erase i, f (s.threads j) := by
    refine Finset.sum_congr rfl fun j hj => ?_
    rw [goto_threads, if_neg (Finset.ne_of_mem_erase hj)]
  have hi : (s.goto i pc).threads i = pc := Function.update_self ..
  rw [total, total, ← Finset.add_sum_erase _ _ (Finset.mem_univ i), hrest, hi,
    ← Finset.add_sum_erase _ (fun j => f (s.threads j)) (Finset.mem_univ i)]
  abel

theorem total_goto_of_eq (f : ThreadPc τ → Multiset (CThreadWorker τ)) {i : Fin n}
    {pc : ThreadPc τ} (hpc : f pc = f (s.threads i)) : (s.goto i pc).total f = s.total f :=
  add_right_cancel ((s.total_goto f i pc).trans (congrArg (s.total f + ·) hpc))

theorem total_congr (f : ThreadPc τ → Multiset (CThreadWorker τ))
    (hthreads : s'.threads = s.threads) : s'.total f = s.total f := by
  rw [total, hthreads]
  rfl

/-! ## The invariant -/

/-- The nodes something happened to, in order. -/
def nodes (kind : EventKind) (es : List (Event τ)) : List (CThreadWorker τ) :=
  (es.filter (·.kind = kind)).map (·.worker)

@[simp] theorem nodes_nil (kind : EventKind) : nodes kind ([] : List (Event τ)) = [] := rfl

@[simp] theorem nodes_append (kind : EventKind) (es ws : List (Event τ)) :
    nodes kind (es ++ ws) = nodes kind es ++ nodes kind ws := by
  rw [nodes, List.filter_append, List.map_append]
  rfl

@[simp] theorem nodes_cons (kind other : EventKind) (worker : CThreadWorker τ)
    (es : List (Event τ)) : nodes kind (⟨other, worker⟩ :: es) =
      if other = kind then worker :: nodes kind es else nodes kind es := by
  rw [nodes, List.filter_cons]
  split
  case isTrue hk => exact (if_pos (of_decide_eq_true hk)).symm
  case isFalse hk => exact (if_neg fun h => hk (decide_eq_true h)).symm

structure History (es : List (Event τ)) (s : CThreadPool n τ) : Prop where
  inv : Inv s
  fifo : nodes .dequeued es ++ (nodes .discarded es ++ s.queueHead) = nodes .added es
  ids : (nodes .added es).map (·.id) = List.range s.allocated
  executed : (nodes .executed es : Multiset (CThreadWorker τ)) + s.total ThreadPc.pending =
    nodes .dequeued es
  freed : (nodes .freed es : Multiset (CThreadWorker τ)) + s.total ThreadPc.held =
    nodes .dequeued es + nodes .discarded es
  kept : s.destroyer.tearsDown = false → nodes .discarded es = []

theorem History.init : History [] (poolInit n τ) := by
  have htotal {f : ThreadPc τ → Multiset (CThreadWorker τ)} (hf : f .lock = 0) :
      (poolInit n τ).total f = 0 := Finset.sum_eq_zero fun _ _ => hf
  refine ⟨.init, rfl, rfl, ?_, ?_, fun _ => rfl⟩
  · rw [htotal rfl]
    rfl
  · rw [htotal rfl]
    rfl

namespace History

variable (h : History es s)
include h

/-- A step that happens to no node. -/
theorem keep (hinv : Inv s') (hqueue : s'.queueHead = s.queueHead)
    (hallocated : s'.allocated = s.allocated) (hpending : s'.total ThreadPc.pending = s.total ThreadPc.pending)
    (hheld : s'.total ThreadPc.held = s.total ThreadPc.held)
    (hup : s'.destroyer.tearsDown = false → s.destroyer.tearsDown = false) :
    History (es ++ []) s' := by
  rw [List.append_nil]
  refine ⟨hinv, ?_, ?_, ?_, ?_, fun hdown => h.kept (hup hdown)⟩
  · rw [hqueue, h.fifo]
  · rw [hallocated, h.ids]
  · rw [hpending, h.executed]
  · rw [hheld, h.freed]

/-- A step of thread `i`, to which no more happens than that it goes on. -/
theorem turn (i : Fin n) (pc : ThreadPc τ) (hinv : Inv s')
    (hthreads : s'.threads = (s.goto i pc).threads) (hqueue : s'.queueHead = s.queueHead)
    (hallocated : s'.allocated = s.allocated) (hdestroyer : s'.destroyer = s.destroyer)
    (hpending : pc.pending = (s.threads i).pending) (hheld : pc.held = (s.threads i).held) :
    History (es ++ []) s' := by
  refine h.keep hinv hqueue hallocated ?_ ?_ fun hup => hdestroyer ▸ hup
  · rw [total_congr _ hthreads, total_goto_of_eq _ hpending]
  · rw [total_congr _ hthreads, total_goto_of_eq _ hheld]

theorem dequeue {i : Fin n} {worker : CThreadWorker τ} {rest : List (CThreadWorker τ)}
    (hinv : Inv s') (hpc : s.threads i = .take) (hqueue : s.queueHead = worker :: rest)
    (hthreads : s'.threads = (s.goto i (.process worker)).threads) (hrest : s'.queueHead = rest)
    (hallocated : s'.allocated = s.allocated) :
    History (es ++ [⟨.dequeued, worker⟩]) s' := by
  have hkept := h.kept (h.inv.join.up fun hexited => nomatch hpc.symm.trans hexited)
  have htake (f : ThreadPc τ → Multiset (CThreadWorker τ)) (hf : f .take = 0)
      (hworker : f (.process worker) = {worker}) : s'.total f = s.total f + {worker} := by
    have hgoto := s.total_goto f i (.process worker)
    rwa [hpc, hf, add_zero, hworker, ← total_congr f hthreads] at hgoto
  refine ⟨hinv, ?_, ?_, ?_, ?_, fun _ => ?_⟩
    <;> simp only [nodes_append, nodes_cons, nodes_nil, reduceCtorEq, if_true, if_false,
      List.append_nil]
  · rw [← h.fifo, hkept, hqueue, hrest]
    exact List.append_assoc ..
  · rw [hallocated, h.ids]
  · rw [htake _ rfl rfl, ← add_assoc, h.executed]
    exact Multiset.coe_add ..
  · rw [htake _ rfl rfl, ← add_assoc, h.freed, hkept, ← Multiset.coe_add]
    exact add_right_comm ..
  · exact hkept

theorem process {i : Fin n} {worker : CThreadWorker τ} (hinv : Inv (s.goto i (.free worker)))
    (hpc : s.threads i = .process worker) :
    History (es ++ [⟨.executed, worker⟩]) (s.goto i (.free worker)) := by
  have hpending := s.total_goto ThreadPc.pending i (.free worker)
  have hheld : (s.goto i (.free worker)).total ThreadPc.held = s.total ThreadPc.held :=
    total_goto_of_eq _ (hpc ▸ rfl)
  rw [hpc] at hpending
  refine ⟨hinv, ?_, ?_, ?_, ?_, fun hup => ?_⟩
    <;> simp only [nodes_append, nodes_cons, nodes_nil, reduceCtorEq, if_true, if_false,
      List.append_nil]
  · exact h.fifo
  · exact h.ids
  · rw [← h.executed, ← Multiset.coe_add, add_assoc]
    exact congrArg _ ((add_comm ..).trans (hpending.trans (add_zero _)))
  · rw [hheld, h.freed]
  · exact h.kept hup

theorem free {i : Fin n} {worker : CThreadWorker τ} (hinv : Inv (s.goto i .lock))
    (hpc : s.threads i = .free worker) :
    History (es ++ [⟨.freed, worker⟩]) (s.goto i .lock) := by
  have hpending : (s.goto i .lock).total ThreadPc.pending = s.total ThreadPc.pending :=
    total_goto_of_eq _ (hpc ▸ rfl)
  have hheld := s.total_goto ThreadPc.held i .lock
  rw [hpc] at hheld
  refine ⟨hinv, ?_, ?_, ?_, ?_, fun hup => ?_⟩
    <;> simp only [nodes_append, nodes_cons, nodes_nil, reduceCtorEq, if_true, if_false,
      List.append_nil]
  · exact h.fifo
  · exact h.ids
  · rw [hpending, h.executed]
  · rw [← h.freed, ← Multiset.coe_add, add_assoc]
    exact congrArg _ ((add_comm ..).trans (hheld.trans (add_zero _)))
  · exact h.kept hup

theorem append {task : τ} (hinv : Inv s') (hup : s.destroyer.tearsDown = false)
    (hthreads : s'.threads = s.threads)
    (hqueue : s'.queueHead = s.queueHead ++ [⟨s.allocated, task⟩])
    (hallocated : s'.allocated = s.allocated + 1) :
    History (es ++ [⟨.added, s.allocated, task⟩]) s' := by
  refine ⟨hinv, ?_, ?_, ?_, ?_, fun _ => ?_⟩
    <;> simp only [nodes_append, nodes_cons, nodes_nil, reduceCtorEq, if_true, if_false,
      List.append_nil]
  · rw [← h.fifo, hqueue, List.append_assoc, List.append_assoc]
  · rw [List.map_append, h.ids, hallocated, List.range_succ]
    rfl
  · rw [total_congr _ hthreads, h.executed]
  · rw [total_congr _ hthreads, h.freed]
  · exact h.kept hup

theorem discard {head : CThreadWorker τ} {rest : List (CThreadWorker τ)}
    (hinv : Inv { s with queueHead := rest }) (hpc : s.destroyer = .free)
    (hqueue : s.queueHead = head :: rest) :
    History (es ++ [⟨.discarded, head⟩, ⟨.freed, head⟩]) { s with queueHead := rest } := by
  refine ⟨hinv, ?_, ?_, ?_, ?_, fun hup => ?_⟩
    <;> simp only [nodes_append, nodes_cons, nodes_nil, reduceCtorEq, if_true, if_false,
      List.append_nil]
  · rw [← h.fifo, hqueue, List.append_assoc]
    rfl
  · exact h.ids
  · exact h.executed
  · rw [← Multiset.coe_add, ← Multiset.coe_add, add_right_comm, ← add_assoc, ← h.freed]
    rfl
  · exact nomatch (hpc ▸ hup : DestroyPc.free.tearsDown = false)

theorem step (hs : Step s a s' ws) : History (es ++ ws) s' := by
  have hinv := h.inv.step hs
  cases hs with
  | @lock i hpc =>
    refine h.turn i .test hinv rfl rfl rfl rfl ?_ ?_ <;> rcases hpc with hpc | hpc <;> rw [hpc] <;> rfl
  | @idle i hpc => exact h.turn i .wait hinv rfl rfl rfl rfl (hpc ▸ rfl) (hpc ▸ rfl)
  | @busy i hpc => exact h.turn i .leave hinv rfl rfl rfl rfl (hpc ▸ rfl) (hpc ▸ rfl)
  | @wait i hpc => exact h.turn i .blocked hinv rfl rfl rfl rfl (hpc ▸ rfl) (hpc ▸ rfl)
  | @exit i hpc => exact h.turn i .exited hinv rfl rfl rfl rfl (hpc ▸ rfl) (hpc ▸ rfl)
  | @stay i hpc => exact h.turn i .take hinv rfl rfl rfl rfl (hpc ▸ rfl) (hpc ▸ rfl)
  | dequeue hpc _ hqueue => exact h.dequeue hinv hpc hqueue rfl rfl rfl
  | process hpc => exact h.process hinv hpc
  | free hpc => exact h.free hinv hpc
  | @wake i hpc => exact h.turn i .woken hinv rfl rfl rfl rfl (hpc ▸ rfl) (hpc ▸ rfl)
  | addWorker => exact h.keep hinv rfl rfl rfl rfl id
  | append _ hup => exact h.append hinv hup rfl rfl rfl
  | @signal k i _ _ hpc => exact h.turn i .woken hinv rfl rfl rfl rfl (hpc ▸ rfl) (hpc ▸ rfl)
  | signalNone => exact h.keep hinv rfl rfl rfl rfl id
  | refuse hpc | destroy hpc | set hpc | join hpc =>
    exact h.keep hinv rfl rfl rfl rfl fun _ => hpc ▸ rfl
  | broadcast hpc =>
    have hshare (f : ThreadPc τ → Multiset (CThreadWorker τ)) (hf : f .woken = f .blocked) :
        s.broadcast.total f = s.total f := by
      refine Finset.sum_congr rfl fun i _ => ?_
      show f (if (s.threads i).isBlocked then .woken else s.threads i) = f (s.threads i)
      split
      case isTrue hblocked => rw [hf, isBlocked_iff.mp hblocked]
      case isFalse => rfl
    exact h.keep hinv rfl rfl (hshare _ rfl) (hshare _ rfl) fun _ => hpc ▸ rfl
  | joined | done => exact h.keep hinv rfl rfl rfl rfl nofun
  | discard hpc hqueue => exact h.discard hinv hpc hqueue

end History

theorem History.of_trace {acts : List (Action n τ)}
    (hrun : (pool n τ).after (poolInit n τ) acts = .ok s) :
    History ((pool n τ).trace (poolInit n τ) acts) s :=
  (pool n τ).after_history History.init
    (fun _ _ _ _ _ h hstep => h.step (step_of_ok hstep)) hrun

/-! ## Conservation -/

/-- What has become of the nodes after a run. -/
structure Conserves (es : List (Event τ)) (s : CThreadPool n τ) : Prop where
  size : s.destroyer.tearsDown = false → s.curQueueSize = s.queueHead.length
  fifo : s.destroyer.tearsDown = false → nodes .dequeued es ++ s.queueHead = nodes .added es
  asserts : ∀ a, s.step a ≠ .error .assertFailed
  distinct : (nodes .added es).Nodup
  once : (nodes .executed es).Nodup ∧ nodes .executed es ⊆ nodes .added es
  freed : s.destroyer = .returned 0 → (nodes .freed es).Perm (nodes .added es)

/-- The asserts stand behind the tests that a thread inside the mutex has made. -/
theorem Inv.asserts (h : Inv s) (a : Action n τ) : s.step a ≠ .error .assertFailed := by
  intro ha
  cases a with
  | thread i =>
    rw [CThreadPool.step, threadRoutine] at ha
    cases hpc : s.threads i with
    | take =>
      have hsize := h.queue.take i hpc
      have hlive : s.threads i ≠ .exited := by
        rw [hpc]
        intro hexited
        cases hexited
      have hlen := h.queue.size (h.join.up hlive)
      simp only [hpc, if_neg hsize] at ha
      split at ha
      case h_1 hqueue =>
        rw [hqueue] at hlen
        exact hsize hlen
      case h_2 => cases ha
    | lock | woken =>
      simp only [hpc] at ha
      split at ha <;> cases ha
    | test | leave =>
      simp only [hpc] at ha
      split at ha <;> cases ha
    | wait | blocked | process | free | exited =>
      simp only [hpc] at ha
      cases ha
  | spurious i =>
    rw [CThreadPool.step] at ha
    split at ha <;> cases ha
  | addWorker k task =>
    rw [CThreadPool.step, addWorker] at ha
    split at ha
    case h_1 => split at ha <;> cases ha
    case h_2 => cases ha
  | append k =>
    rw [CThreadPool.step, append] at ha
    split at ha
    case h_1 => split at ha <;> cases ha
    case h_2 => cases ha
  | signal k woken =>
    rw [CThreadPool.step] at ha
    unfold CThreadPool.signal at ha
    repeat' split at ha
    all_goals cases ha
  | destroy =>
    rw [CThreadPool.step, poolDestroy] at ha
    repeat' split at ha
    all_goals cases ha

theorem History.distinct (h : History es s) : (nodes .added es).Nodup :=
  .of_map _ (h.ids ▸ List.nodup_range)

/-- What has been taken or discarded was added, each node once. -/
theorem History.taken (h : History es s) :
    (nodes .dequeued es).Sublist (nodes .added es) := by
  rw [← h.fifo]
  exact List.sublist_append_left ..

theorem History.once (h : History es s) :
    (nodes .executed es).Nodup ∧ nodes .executed es ⊆ nodes .added es := by
  have hle : (nodes .executed es : Multiset (CThreadWorker τ)) ≤ nodes .dequeued es :=
    h.executed ▸ Multiset.le_add_right _ _
  have hnodup := h.taken.nodup h.distinct
  refine ⟨Multiset.coe_nodup.mp (Multiset.nodup_of_le hle (Multiset.coe_nodup.mpr hnodup)), ?_⟩
  exact fun worker hw => h.taken.subset (Multiset.coe_subset.mp (Multiset.subset_of_le hle) hw)

/-- Once `pool_destroy` has returned, the threads hold nothing and nothing is queued. -/
theorem History.all_freed (h : History es s) (hreturned : s.destroyer = .returned 0) :
    (nodes .freed es).Perm (nodes .added es) := by
  have hheld : s.total ThreadPc.held = 0 := by
    refine Finset.sum_eq_zero fun i _ => ?_
    rw [h.inv.join.down (hreturned ▸ rfl) i]
    rfl
  have hfreed := h.freed
  have hfifo := h.fifo
  rw [hheld, add_zero, Multiset.coe_add] at hfreed
  rw [h.inv.queue.emptied hreturned, List.append_nil] at hfifo
  exact hfifo ▸ Multiset.coe_eq_coe.mp hfreed

/-- No interleaving loses a task, runs one twice or takes them out of order, and what `pool_destroy`
leaves behind when it returns has been freed once. -/
theorem pool_conserves {acts : List (Action n τ)}
    (hrun : (pool n τ).after (poolInit n τ) acts = .ok s) :
    Conserves ((pool n τ).trace (poolInit n τ) acts) s := by
  have h := History.of_trace hrun
  refine ⟨h.inv.queue.size, fun hup => ?_, h.inv.asserts, h.distinct, h.once, h.all_freed⟩
  rw [← h.fifo, h.kept hup, List.nil_append]

/-- One of two tasks is run, the other one is still queued when the pool is destroyed. -/
def destroyedRun : List (Action 1 Char) :=
  [.addWorker 0 'a', .append 0, .addWorker 1 'b', .append 1, .thread 0, .signal 0 none, .thread 0,
    .thread 0, .thread 0, .destroy, .destroy, .signal 1 none, .thread 0, .destroy, .thread 0,
    .thread 0, .thread 0, .thread 0, .destroy, .destroy, .destroy, .destroy]

theorem pool_conserves_destroyed :
    ∃ s, (pool 1 Char).after (poolInit 1 Char) destroyedRun = .ok s ∧
      s.destroyer = .returned 0 ∧ Conserves ((pool 1 Char).trace (poolInit 1 Char) destroyedRun) s :=
  ⟨_, rfl, rfl, pool_conserves rfl⟩

end CThreadPool

end HeadUnit.Pool
