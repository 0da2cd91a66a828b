import Mathlib.Logic.Function.Basic
import HeadUnit.Std.Machine

/-!
# The thread pool

`pool_add_worker`, `pool_destroy` and `thread_routine` of `pthread_pool.c` as one machine. The
threads of the pool, any number of callers of `pool_add_worker` and one caller of `pool_destroy`
take turns; an action is a call on the mutex or the condition variable, a test or an assignment
outside the mutex, or what a caller that holds the mutex does up to its unlock. `pthread_cond_wait`
blocks and releases in one step, `pthread_cond_signal` wakes one blocked thread if there is one, and
a blocked thread may wake up without cause.
-/

namespace HeadUnit.Pool

/-! ## State -/

/-- `CThread_worker`. `process` and `arg` are the task; `id` tells the nodes apart. -/
structure CThreadWorker (τ : Type) where
  id : Nat
  task : τ
  deriving DecidableEq, Repr

/-- Where a thread stands in `thread_routine`. -/
inductive ThreadPc (τ : Type) where
  /-- Before `pthread_mutex_lock`. -/
  | lock
  /-- Before the condition of the inner loop. -/
  | test
  /-- Before `pthread_cond_wait`. -/
  | wait
  /-- Blocked in `pthread_cond_wait`. -/
  | blocked
  /-- Woken, without the mutex yet. -/
  | woken
  /-- Behind the loop, before `if (pool->shutdown)`. -/
  | leave
  /-- Before the asserts. -/
  | take
  | process (worker : CThreadWorker τ)
  | free (worker : CThreadWorker τ)
  | exited

/-- Where a caller stands in `pool_add_worker`. -/
inductive AdderPc (τ : Type) where
  | idle
  | locked (task : τ)
  /-- Between the unlock and `pthread_cond_signal`. -/
  | signal
  | done

/-- Where the caller stands in `pool_destroy`. -/
inductive DestroyPc where
  | idle
  | set
  | broadcast
  /-- Before the `pthread_join` of thread `i`. -/
  | join (i : Nat)
  /-- At the loop that frees the queue. -/
  | free
  | returned (result : Int)
  deriving DecidableEq, Repr

/-- Who holds `queue_lock`. -/
inductive Holder (n : Nat) where
  | thread (i : Fin n)
  | adder (k : Nat)
  deriving DecidableEq, Repr

/-- `CThread_pool` with `n` threads, and where everybody stands. `allocated` counts the nodes. -/
structure CThreadPool (n : Nat) (τ : Type) where
  queueLock : Option (Holder n)
  queueHead : List (CThreadWorker τ)
  shutdown : Bool
  curQueueSize : Int
  allocated : Nat
  threads : Fin n → ThreadPc τ
  adders : Nat → AdderPc τ
  destroyer : DestroyPc

/-- The pool is being freed, or was. -/
def DestroyPc.tearsDown : DestroyPc → Bool
  | .free | .returned 0 => true
  | _ => false

def ThreadPc.isBlocked {τ : Type} : ThreadPc τ → Bool
  | .blocked => true
  | _ => false

def ThreadPc.isExited {τ : Type} : ThreadPc τ → Bool
  | .exited => true
  | _ => false

/-- What happens to a node. `pool_destroy` discards those that no thread has taken. -/
inductive EventKind where
  | added
  | dequeued
  | executed
  | discarded
  | freed
  deriving DecidableEq, Repr

structure Event (τ : Type) where
  kind : EventKind
  worker : CThreadWorker τ

/-- Why an action does not take place. -/
inductive Refusal where
  | disabled
  | assertFailed
  deriving DecidableEq, Repr

inductive Action (n : Nat) (τ : Type) where
  | thread (i : Fin n)
  | spurious (i : Fin n)
  /-- A call of `pool_add_worker` gets the mutex. -/
  | addWorker (k : Nat) (task : τ)
  | append (k : Nat)
  | signal (k : Nat) (woken : Option (Fin n))
  | destroy

variable {n : Nat} {τ : Type}

/-- `pool_init`. -/
def poolInit (n : Nat) (τ : Type) : CThreadPool n τ where
  queueLock := none
  queueHead := []
  shutdown := false
  curQueueSize := 0
  allocated := 0
  threads := fun _ => .lock
  adders := fun _ => .idle
  destroyer := .idle

namespace CThreadPool

/-- Thread `i` goes on at `pc`. -/
def goto (s : CThreadPool n τ) (i : Fin n) (pc : ThreadPc τ) : CThreadPool n τ :=
  { s with threads := Function.update s.threads i pc }

/-- Caller `k` goes on at `pc`. -/
def adderGoto (s : CThreadPool n τ) (k : Nat) (pc : AdderPc τ) : CThreadPool n τ :=
  { s with adders := Function.update s.adders k pc }

/-! ## Actions -/

/-- The next action of thread `i`. -/
def threadRoutine (s : CThreadPool n τ) (i : Fin n) :
    Except Refusal (CThreadPool n τ × List (Event τ)) :=
  match s.threads i with
  | .lock | .woken =>
    match s.queueLock with
    | none => .ok ({ s.goto i .test with queueLock := some (.thread i) }, [])
    | some _ => .error .disabled
  | .test =>
    if s.curQueueSize = 0 ∧ s.shutdown = false then .ok (s.goto i .wait, [])
    else .ok (s.goto i .leave, [])
  | .wait => .ok ({ s.goto i .blocked with queueLock := none }, [])
  | .blocked => .error .disabled
  | .leave =>
    if s.shutdown then .ok ({ s.goto i .exited with queueLock := none }, [])
    else .ok (s.goto i .take, [])
  | .take =>
    if s.curQueueSize = 0 then .error .assertFailed
    else
      match s.queueHead with
      | [] => .error .assertFailed
      | worker :: rest =>
        .ok ({ s.goto i (.process worker) with
          curQueueSize := s.curQueueSize - 1
          queueHead := rest
          queueLock := none }, [⟨.dequeued, worker⟩])
  | .process worker => .ok (s.goto i (.free worker), [⟨.executed, worker⟩])
  | .free worker => .ok (s.goto i .lock, [⟨.freed, worker⟩])
  | .exited => .error .disabled

/-- Without the mutex, `pool_add_worker` waits. A call that overlaps the end of `pool_destroy` uses
freed memory and is not modelled. -/
def addWorker (s : CThreadPool n τ) (k : Nat) (task : τ) :
    Except Refusal (CThreadPool n τ × List (Event τ)) :=
  match s.adders k, s.queueLock with
  | .idle, none =>
    if s.destroyer.tearsDown then .error .disabled
    else .ok ({ s.adderGoto k (.locked task) with queueLock := some (.adder k) }, [])
  | _, _ => .error .disabled

/-- `pool_add_worker` from its lock to its unlock. The walk to the last node and the assignment of
`next` or of an empty `queue_head` append the node, so the assert between them holds. -/
def append (s : CThreadPool n τ) (k : Nat) : Except Refusal (CThreadPool n τ × List (Event τ)) :=
  match s.adders k with
  | .locked task =>
    if s.destroyer.tearsDown then .error .disabled
    else
      let newworker := ⟨s.allocated, task⟩
      .ok ({ s.adderGoto k .signal with
        queueHead := s.queueHead ++ [newworker]
        curQueueSize := s.curQueueSize + 1
        allocated := s.allocated + 1
        queueLock := none }, [⟨.added, newworker⟩])
  | _ => .error .disabled

/-- `pthread_cond_signal`, which wakes the given thread. -/
def signal (s : CThreadPool n τ) (k : Nat) (woken : Option (Fin n)) :
    Except Refusal (CThreadPool n τ × List (Event τ)) :=
  match s.adders k with
  | .signal =>
    if s.destroyer.tearsDown then .error .disabled
    else
      match woken with
      | some i =>
        if (s.threads i).isBlocked then .ok ((s.goto i .woken).adderGoto k .done, [])
        else .error .disabled
      | none =>
        if ∀ i, (s.threads i).isBlocked = false then .ok (s.adderGoto k .done, [])
        else .error .disabled
  | _ => .error .disabled

/-- `pthread_cond_broadcast`. -/
def broadcast (s : CThreadPool n τ) : CThreadPool n τ :=
  { s with threads := fun i => if (s.threads i).isBlocked then .woken else s.threads i }

/-- The next action of `pool_destroy`. -/
def poolDestroy (s : CThreadPool n τ) : Except Refusal (CThreadPool n τ × List (Event τ)) :=
  match s.destroyer with
  | .idle =>
    if s.shutdown then .ok ({ s with destroyer := .returned (-1) }, [])
    else .ok ({ s with destroyer := .set }, [])
  | .set => .ok ({ s with shutdown := true, destroyer := .broadcast }, [])
  | .broadcast => .ok ({ s.broadcast with destroyer := .join 0 }, [])
  | .join i =>
    if h : i < n then
      if (s.threads ⟨i, h⟩).isExited then .ok ({ s with destroyer := .join (i + 1) }, [])
      else .error .disabled
    else .ok ({ s with destroyer := .free }, [])
  | .free =>
    match s.queueHead with
    | [] => .ok ({ s with destroyer := .returned 0 }, [])
    | head :: rest => .ok ({ s with queueHead := rest }, [⟨.discarded, head⟩, ⟨.freed, head⟩])
  | .returned _ => .error .disabled

def step (s : CThreadPool n τ) : Action n τ → Except Refusal (CThreadPool n τ × List (Event τ))
  | .thread i => s.threadRoutine i
  | .spurious i =>
    if (s.threads i).isBlocked then .ok (s.goto i .woken, []) else .error .disabled
  | .addWorker k task => s.addWorker k task
  | .append k => s.append k
  | .signal k woken => s.signal k woken
  | .destroy => s.poolDestroy

end CThreadPool

/-- The pool in use. -/
def pool (n : Nat) (τ : Type) : Machine Refusal (CThreadPool n τ) (Action n τ) (Event τ) :=
  ⟨CThreadPool.step⟩

end HeadUnit.Pool
