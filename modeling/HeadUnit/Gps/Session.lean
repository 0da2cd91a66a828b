import HeadUnit.Gps.Thread

/-!
# The GPS session

`gps_state_init`, `gps_state_done` and the interface functions of `gps_neu.c` with the descriptors
and the thread they open. What the system calls of one `gps_state_init` return is given with the
call; the descriptors open and the threads running are part of the state.

`gps_state_init` sets `init` before anything can fail. Where the device cannot be opened or set up
it returns with `init` set, and where the socket pair or the thread fails it lets `gps_state_done`
join a thread that was not created. So set-up is all or nothing in a run exactly if no system call
of it fails (`allOrNothing_iff`).
-/

namespace HeadUnit.Gps

/-! ## Serial set-up -/

/-- What the calls made to set up the serial line return, in their order. -/
structure SerialCalls where
  baudSetattr : Int
  parityGetattr : Int
  parityFlush : Int
  paritySetattr : Int
  deriving DecidableEq, Repr

/-- The calls whose failure is only logged are left out. -/
def gpsSetBaudrate (calls : SerialCalls) : Int := if calls.baudSetattr ≠ 0 then -1 else 0

def gpsSetParity (calls : SerialCalls) (databits stopbits : Int) (parity : Char) : Int :=
  if calls.parityGetattr ≠ 0 then -1
  else if databits ≠ 7 ∧ databits ≠ 8 then -1
  else if parity ∉ ['n', 'N', 'o', 'O', 'e', 'E', 'S', 's'] then -1
  else if stopbits ≠ 1 ∧ stopbits ≠ 2 then -1
  else if calls.parityFlush ≠ 0 then -1
  else if calls.paritySetattr ≠ 0 then -1
  else 0

def gpsSetTtymxc (calls : SerialCalls) (fd : Int) : Int :=
  if fd ≤ 0 then -1
  else if gpsSetBaudrate calls = -1 then -1
  else if gpsSetParity calls 8 1 'S' = -1 then -1
  else 0

/-! ## The session -/

/-- `GpsState` without its reader, which belongs to the thread. -/
structure GpsState where
  init : Bool
  fd : Int
  callbacks : GpsCallbacks
  thread : Nat
  control : Int × Int
  deriving DecidableEq, Repr

/-- `_gps_state` with the descriptors open and the threads created and not joined. -/
structure Session extends GpsState where
  openFds : List Int
  threads : List Nat
  deriving DecidableEq, Repr

/-- What the system calls of one `gps_state_init` return; a thread of 0 was not created. -/
structure InitCalls where
  device : Option Nat
  serial : SerialCalls
  socketpair : Option (Nat × Nat)
  thread : Nat
  deriving DecidableEq, Repr

inductive SessionCall where
  | init (callbacks : GpsCallbacks) (calls : InitCalls)
  | cleanup
  | start
  | stop
  deriving DecidableEq, Repr

/-- `join` tells whether the thread was created and not joined before. -/
inductive SessionEvent where
  | write (fd : Int) (cmd : UInt8)
  | join (thread : Nat) (created : Bool)
  | setCapabilities
  | returned (ret : Int)
  deriving DecidableEq, Repr

namespace Session

/-- The state of the library when it is loaded. -/
def loaded : Session where
  init := false
  fd := 0
  callbacks := ⟨false, false, false, false⟩
  thread := 0
  control := (0, 0)
  openFds := []
  threads := []

def close (s : Session) (fd : Int) : Session := { s with openFds := s.openFds.filter (· ≠ fd) }

def gpsStateDone (s : Session) : Session × List SessionEvent :=
  let events := [.write s.control.1 cmdQuit, .join s.thread (s.thread ∈ s.threads)]
  let s := { s with threads := s.threads.erase s.thread }
  let s := { s.close s.control.1 with control := (-1, s.control.2) }
  let s := { s.close s.control.2 with control := (s.control.1, -1) }
  let s := { s.close s.fd with fd := -1 }
  ({ s with init := false }, events)

def gpsStateInit (callbacks : GpsCallbacks) (calls : InitCalls) (s : Session) :
    Session × List SessionEvent :=
  let s := { s with init := true, control := (-1, -1), fd := -1 }
  match calls.device with
  | none => (s, [])
  | some fd =>
    let s := { s with fd := fd, openFds := (fd : Int) :: s.openFds }
    if gpsSetTtymxc calls.serial s.fd = -1 then (s, [])
    else
      match calls.socketpair with
      | none => s.gpsStateDone
      | some (a, b) =>
        let s := { s with control := (a, b), openFds := (a : Int) :: (b : Int) :: s.openFds }
        let s := { s with thread := calls.thread }
        if s.thread = 0 then s.gpsStateDone
        else
          let s := { s with threads := s.thread :: s.threads }
          let s := { s with callbacks := callbacks }
          (s, if s.callbacks.setCapabilitiesCb then [.setCapabilities] else [])

def qemuGpsInit (callbacks : GpsCallbacks) (calls : InitCalls) (s : Session) :
    Session × List SessionEvent :=
  let (s, events) := if s.init then (s, []) else s.gpsStateInit callbacks calls
  (s, events ++ [.returned (if s.fd < 0 then -1 else 0)])

def qemuGpsCleanup (s : Session) : Session × List SessionEvent :=
  if s.init then s.gpsStateDone else (s, [])

def qemuGpsStart (s : Session) : Session × List SessionEvent :=
  if ¬s.init then (s, [.returned (-1)])
  else (s, [.write s.control.1 cmdStart, .returned 0])

def qemuGpsStop (s : Session) : Session × List SessionEvent :=
  if ¬s.init then (s, [.returned (-1)])
  else (s, [.write s.control.1 cmdStop, .returned 0])

def step (s : Session) : SessionCall → Session × List SessionEvent
  | .init callbacks calls => s.qemuGpsInit callbacks calls
  | .cleanup => s.qemuGpsCleanup
  | .start => s.qemuGpsStart
  | .stop => s.qemuGpsStop

end Session

def session : Transducer Session SessionCall SessionEvent := ⟨Session.step⟩

/-! ## All or nothing -/

namespace Session

/-- Device and control sockets are open and the thread was created. -/
structure Up (s : Session) : Prop where
  device : s.fd ∈ s.openFds
  control : s.control.1 ∈ s.openFds ∧ s.control.2 ∈ s.openFds
  thread : s.thread ∈ s.threads

/-- What is demanded of one call in a run. -/
structure AllOrNothing (s : Session) (c : SessionCall) : Prop where
  up : (s.step c).1.init = true → (s.step c).1.Up
  joins : ∀ thread created, .join thread created ∈ (s.step c).2 → created = true
  returns : ∀ callbacks calls ret, c = .init callbacks calls → .returned ret ∈ (s.step c).2 →
    (ret = 0 ↔ (s.step c).1.init = true ∧ (s.step c).1.Up)
  failure : ∀ callbacks calls ret, c = .init callbacks calls → .returned ret ∈ (s.step c).2 →
    ret ≠ 0 → (s.step c).1.init = false ∧ (s.step c).1.openFds = []

/-- If the call sets the session up, its system calls succeed. -/
def SetupSucceeds (s : Session) : SessionCall → Prop
  | .init _ calls => s.init = false →
      (∃ fd, calls.device = some fd ∧ gpsSetTtymxc calls.serial fd ≠ -1) ∧
        calls.socketpair ≠ none ∧ calls.thread ≠ 0
  | _ => True

/-- A session is down, with nothing open, or up, with nothing else open. -/
inductive Consistent (s : Session) : Prop
  | down (init : s.init = false) (openFds : s.openFds = []) (threads : s.threads = [])
  | up (init : s.init = true) (fd : 0 ≤ s.fd)
      (openFds : s.openFds = [s.control.1, s.control.2, s.fd]) (threads : s.threads = [s.thread])

theorem consistent_loaded : loaded.Consistent := .down rfl rfl rfl

theorem Consistent.up' {s : Session} (h : s.Consistent) (hi : s.init = true) : s.Up := by
  cases h with
  | down init => exact absurd hi (by simp [init])
  | up _ _ hfds hthreads =>
    refine ⟨?_, ⟨?_, ?_⟩, ?_⟩
    · simp [hfds]
    · simp [hfds]
    · simp [hfds]
    · simp [hthreads]

theorem gpsStateDone_spec {s : Session} (hfds : ∀ fd ∈ s.openFds, fd = s.control.1 ∨
    fd = s.control.2 ∨ fd = s.fd) :
    s.gpsStateDone.1.init = false ∧ s.gpsStateDone.1.openFds = [] ∧
      s.gpsStateDone.1.threads = s.threads.erase s.thread ∧ s.gpsStateDone.1.fd = -1 ∧
      s.gpsStateDone.2 = [.write s.control.1 cmdQuit, .join s.thread (s.thread ∈ s.threads)] := by
  refine ⟨rfl, ?_, rfl, rfl, rfl⟩
  simp only [gpsStateDone, close, List.filter_filter, List.filter_eq_nil_iff]
  intro fd hfd
  rcases hfds fd hfd with h | h | h <;> simp [h]

/-- With nothing open, `gps_state_init` brings the session up if its system calls succeed. -/
theorem gpsStateInit_up {s : Session} (hfds : s.openFds = []) (hthreads : s.threads = [])
    {calls : InitCalls} {fd : Nat} (hdevice : calls.device = some fd)
    (hserial : gpsSetTtymxc calls.serial fd ≠ -1) {pair : Nat × Nat}
    (hpair : calls.socketpair = some pair) (hthread : calls.thread ≠ 0) (callbacks : GpsCallbacks) :
    (s.gpsStateInit callbacks calls).1.init = true ∧
      (s.gpsStateInit callbacks calls).1.Consistent ∧ (s.gpsStateInit callbacks calls).1.fd = fd ∧
      ∀ e ∈ (s.gpsStateInit callbacks calls).2, e = .setCapabilities := by
  obtain ⟨a, b⟩ := pair
  simp only [gpsStateInit, hdevice, if_neg hserial, hpair, if_neg hthread]
  refine ⟨trivial, .up rfl (Int.natCast_nonneg fd) ?_ ?_, trivial, ?_⟩
  · simp [hfds]
  · simp [hthreads]
  · split <;> simp

/-- With nothing open, `gps_state_init` leaves `init` set without a session, or joins a thread that
was not created, as soon as one of its system calls fails. -/
theorem gpsStateInit_failed {s : Session} (hfds : s.openFds = []) (hthreads : s.threads = [])
    {calls : InitCalls} (h : ¬((∃ fd, calls.device = some fd ∧
      gpsSetTtymxc calls.serial fd ≠ -1) ∧ calls.socketpair ≠ none ∧ calls.thread ≠ 0))
    (callbacks : GpsCallbacks) :
    ((s.gpsStateInit callbacks calls).1.init = true ∧ ¬(s.gpsStateInit callbacks calls).1.Up) ∨
      ∃ thread, .join thread false ∈ (s.gpsStateInit callbacks calls).2 := by
  cases hdevice : calls.device with
  | none =>
    apply Or.inl
    simp only [gpsStateInit, hdevice]
    refine ⟨trivial, fun hup => ?_⟩
    have hmem := hup.device
    simp [hfds] at hmem
  | some fd =>
    by_cases hserial : gpsSetTtymxc calls.serial fd = -1
    · apply Or.inl
      simp only [gpsStateInit, hdevice, if_pos hserial]
      refine ⟨trivial, fun hup => ?_⟩
      have hmem := hup.control.1
      simp [hfds] at hmem
    · apply Or.inr
      cases hpair : calls.socketpair with
      | none =>
        refine ⟨s.thread, ?_⟩
        simp [gpsStateInit, hdevice, hserial, hpair, gpsStateDone, hthreads]
      | some pair =>
        have hthread : calls.thread = 0 := by
          by_contra hne
          exact h ⟨⟨fd, hdevice, hserial⟩, by simp [hpair], hne⟩
        refine ⟨0, ?_⟩
        simp [gpsStateInit, hdevice, hserial, hpair, gpsStateDone, hthreads, hthread]

theorem allOrNothing_of_same {s : Session} (h : s.Consistent) {c : SessionCall}
    (hc : ∀ callbacks calls, c ≠ .init callbacks calls) (hstate : (s.step c).1 = s)
    (hevents : ∀ thread created, .join thread created ∉ (s.step c).2) : s.AllOrNothing c where
  up := by
    rw [hstate]
    exact h.up'
  joins thread created hjoin := absurd hjoin (hevents thread created)
  returns callbacks calls _ heq := absurd heq (hc callbacks calls)
  failure callbacks calls _ heq := absurd heq (hc callbacks calls)

/-- A `qemu_gps_init` that finds the session up changes nothing. -/
theorem init_again {s : Session} (h : s.Consistent) (hinit : s.init = true)
    (callbacks : GpsCallbacks) (calls : InitCalls) :
    s.AllOrNothing (.init callbacks calls) ∧
      (s.step (.init callbacks calls)).1.Consistent := by
  have hup := h.up' hinit
  have hfd : ¬s.fd < 0 := by
    cases h with
    | down hdown => exact absurd hinit (by simp [hdown])
    | up _ hfd => exact Int.not_lt.mpr hfd
  have hstep : s.step (.init callbacks calls) = (s, [.returned 0]) := by
    simp [step, qemuGpsInit, hinit, hfd]
  rw [hstep]
  refine ⟨⟨?_, ?_, ?_, ?_⟩, h⟩
  · intro _
    rwa [hstep]
  · simp [hstep]
  · intro _ _ ret _ hret
    rw [hstep] at hret ⊢
    cases List.mem_singleton.mp hret
    exact iff_of_true rfl ⟨hinit, hup⟩
  · intro _ _ ret _ hret hne
    rw [hstep] at hret
    cases List.mem_singleton.mp hret
    exact absurd rfl hne

theorem step_init {s : Session} (hinit : s.init = false) (callbacks : GpsCallbacks)
    (calls : InitCalls) : s.step (.init callbacks calls) = ((s.gpsStateInit callbacks calls).1,
      (s.gpsStateInit callbacks calls).2 ++
        [.returned (if (s.gpsStateInit callbacks calls).1.fd < 0 then -1 else 0)]) := by
  simp [step, qemuGpsInit, hinit]

/-- A `qemu_gps_init` whose system calls succeed brings the session up. -/
theorem init_succeeds {s : Session} (hinit : s.init = false) (hfds : s.openFds = [])
    (hthreads : s.threads = []) {calls : InitCalls} (hok : (∃ fd, calls.device = some fd ∧
      gpsSetTtymxc calls.serial fd ≠ -1) ∧ calls.socketpair ≠ none ∧ calls.thread ≠ 0)
    (callbacks : GpsCallbacks) :
    s.AllOrNothing (.init callbacks calls) ∧
      (s.step (.init callbacks calls)).1.Consistent := by
  obtain ⟨⟨fd, hdevice, hserial⟩, hpair, hthread⟩ := hok
  obtain ⟨pair, hpair⟩ := Option.ne_none_iff_exists'.mp hpair
  obtain ⟨hinit', hcons, hfd, hevents⟩ :=
    gpsStateInit_up hfds hthreads hdevice hserial hpair hthread callbacks
  have hret : (if (s.gpsStateInit callbacks calls).1.fd < 0 then -1 else 0 : Int) = 0 := by
    rw [hfd]
    exact if_neg (by omega)
  have hstep := step_init hinit callbacks calls
  rw [hret] at hstep
  have hreturned (ret : Int) (hmem : .returned ret ∈ (s.step (.init callbacks calls)).2) :
      ret = 0 := by
    rw [hstep] at hmem
    rcases List.mem_append.mp hmem with hmem | hmem
    · cases hevents _ hmem
    · cases List.mem_singleton.mp hmem
      rfl
  rw [hstep]
  refine ⟨⟨?_, ?_, ?_, ?_⟩, hcons⟩
  · rw [hstep]
    exact hcons.up'
  · intro thread created hmem
    rw [hstep] at hmem
    rcases List.mem_append.mp hmem with hmem | hmem
    · cases hevents _ hmem
    · cases List.mem_singleton.mp hmem
  · intro _ _ ret _ hmem
    rw [hreturned ret hmem, hstep]
    exact iff_of_true rfl ⟨hinit', hcons.up' hinit'⟩
  · intro _ _ ret _ hmem hne
    exact absurd (hreturned ret hmem) hne

/-- A `qemu_gps_init` one of whose system calls fails is not all or nothing. -/
theorem init_fails {s : Session} (hinit : s.init = false) (hfds : s.openFds = [])
    (hthreads : s.threads = []) {calls : InitCalls} (hfails : ¬((∃ fd, calls.device = some fd ∧
      gpsSetTtymxc calls.serial fd ≠ -1) ∧ calls.socketpair ≠ none ∧ calls.thread ≠ 0))
    (callbacks : GpsCallbacks) : ¬s.AllOrNothing (.init callbacks calls) := by
  intro hall
  have hstep := step_init hinit callbacks calls
  rcases gpsStateInit_failed hfds hthreads hfails callbacks with ⟨hinit', hdown⟩ | ⟨t, hjoin⟩
  · have hup := hall.up
    rw [hstep] at hup
    exact hdown (hup hinit')
  · have hjoins := hall.joins t false
    rw [hstep] at hjoins
    cases hjoins (List.mem_append_left _ hjoin)

theorem init_iff {s : Session} (h : s.Consistent) (callbacks : GpsCallbacks) (calls : InitCalls) :
    (s.AllOrNothing (.init callbacks calls) ↔ s.SetupSucceeds (.init callbacks calls)) ∧
      (s.AllOrNothing (.init callbacks calls) →
        (s.step (.init callbacks calls)).1.Consistent) := by
  cases hinit : s.init with
  | true =>
    obtain ⟨hall, hcons⟩ := init_again h hinit callbacks calls
    refine ⟨iff_of_true hall ?_, fun _ => hcons⟩
    intro hdown
    rw [hinit] at hdown
    cases hdown
  | false =>
    cases h with
    | up hup => exact absurd hup (by simp [hinit])
    | down _ hfds hthreads =>
      refine ⟨⟨?_, ?_⟩, ?_⟩
      · intro hall _
        by_contra hfails
        exact init_fails hinit hfds hthreads hfails callbacks hall
      · intro hset
        exact (init_succeeds hinit hfds hthreads (hset hinit) callbacks).1
      · intro hall
        by_contra hcons
        apply init_fails hinit hfds hthreads ?_ callbacks hall
        intro hok
        exact hcons (init_succeeds hinit hfds hthreads hok callbacks).2

theorem cleanup_ok {s : Session} (h : s.Consistent) :
    s.AllOrNothing .cleanup ∧ (s.step .cleanup).1.Consistent := by
  cases h with
  | down hinit hfds hthreads =>
    have hstep : s.step .cleanup = (s, []) := by simp [step, qemuGpsCleanup, hinit]
    have hcons : s.Consistent := .down hinit hfds hthreads
    refine ⟨allOrNothing_of_same hcons (fun _ _ h => nomatch h) (by rw [hstep]) ?_, ?_⟩
    · simp [hstep]
    · rwa [hstep]
  | up hinit hfd hfds hthreads =>
    have hstep : s.step .cleanup = s.gpsStateDone := by simp [step, qemuGpsCleanup, hinit]
    obtain ⟨hinit', hfds', hthreads', -, hevents⟩ := gpsStateDone_spec (s := s) (by simp [hfds])
    rw [hthreads, List.erase_cons_head] at hthreads'
    refine ⟨⟨?_, ?_, (fun _ _ _ h => nomatch h), (fun _ _ _ h => nomatch h)⟩, ?_⟩
    · intro hup
      rw [hstep, hinit'] at hup
      cases hup
    · intro thread created hjoin
      rw [hstep, hevents] at hjoin
      simp only [List.mem_cons, List.not_mem_nil, or_false, reduceCtorEq, false_or,
        SessionEvent.join.injEq] at hjoin
      rw [hjoin.2, hthreads]
      simp
    · rw [hstep]
      exact .down hinit' hfds' hthreads'

theorem step_iff {s : Session} (h : s.Consistent) (c : SessionCall) :
    (s.AllOrNothing c ↔ s.SetupSucceeds c) ∧ (s.AllOrNothing c → (s.step c).1.Consistent) := by
  cases c with
  | init callbacks calls => exact init_iff h callbacks calls
  | cleanup => exact ⟨iff_of_true (cleanup_ok h).1 trivial, fun _ => (cleanup_ok h).2⟩
  | start =>
    have hstate : (s.step .start).1 = s := by
      rw [step, qemuGpsStart]
      split <;> rfl
    refine ⟨iff_of_true (allOrNothing_of_same h (fun _ _ h => nomatch h) hstate ?_) trivial, ?_⟩
    · rw [step, qemuGpsStart]
      split <;> simp
    · rw [hstate]
      exact fun _ => h
  | stop =>
    have hstate : (s.step .stop).1 = s := by
      rw [step, qemuGpsStop]
      split <;> rfl
    refine ⟨iff_of_true (allOrNothing_of_same h (fun _ _ h => nomatch h) hstate ?_) trivial, ?_⟩
    · rw [step, qemuGpsStop]
      split <;> simp
    · rw [hstate]
      exact fun _ => h

end Session

/-- A run from the loaded library is all or nothing at each of its calls if and only if no system
call of a `gps_state_init` in it fails. -/
theorem allOrNothing_iff (cs : List SessionCall) :
    session.Along Session.AllOrNothing .loaded cs ↔
      session.Along Session.SetupSucceeds .loaded cs :=
  session.along_congr (fun _ c h => (Session.step_iff h c).1)
    (fun _ c h => (Session.step_iff h c).2) Session.consistent_loaded

/-- A first `qemu_gps_init` that cannot open the device leaves `init` set with nothing open. -/
theorem not_allOrNothing_open : ¬session.Along Session.AllOrNothing .loaded
    [.init ⟨true, false, false, false⟩ ⟨none, ⟨0, 0, 0, 0⟩, some (4, 5), 1⟩] := by
  rintro ⟨h, -⟩
  have hup := h.up rfl
  cases hup.device

end HeadUnit.Gps
