import Mathlib.Data.List.Nodup
import Mathlib.Data.List.Perm.Subperm
import HeadUnit.SocketServer.SelectLoop

/-!
# The client table

A descriptor never leaves its slot, so the table is sound only as long as no peer closes its
connection, and as long as there is a slot for every new one. Descriptors that fit into an `fd_set`
always find one (`Roomy.exists_free`).
-/

namespace HeadUnit.SocketServer

variable {listenFd : Int} {s : Server} {r : Round} {ws : List Event}

/-! ## Rules -/

/-- The connections that are open behind these events. -/
def openFds (ws : List Event) : List Int :=
  ws.foldl (fun fds w =>
    match w with
    | .accepted fd => fd :: fds
    | .read fd n => if n = 0 then fds.filter (· ≠ fd) else fds) []

/-- A sound table: `maxi` is an index, each descriptor in `allset` has one slot, and only open
connections are in the table and in `allset`. -/
structure SoundTable (listenFd : Int) (ws : List Event) (s : Server) : Prop where
  maxi_lt : s.maxi < fdSetSize
  one_slot : ∀ fd ∈ s.allset, fd ≠ listenFd → s.client.count fd = 1
  open_slots : ∀ fd ∈ s.client, 0 ≤ fd → fd ∈ openFds ws
  open_set : ∀ fd ∈ s.allset, fd ≠ listenFd → fd ∈ openFds ws
  occupied_le : s.client.countP (0 ≤ ·) ≤ (openFds ws).length

/-- An access outside of the table is not sound; the end of the program is. -/
def Sound (listenFd : Int) (ws : List Event) : Except Stop Server → Prop
  | .ok s => SoundTable listenFd ws s
  | .error .exit => True
  | .error (.fault _) => False

/-- `accept` returns a descriptor that is not open, and the server closes none. -/
def Fresh : Except Stop Server → Round → Prop
  | .ok s, r => ∀ fd, r.accept = .connection fd → 0 ≤ fd ∧ fd ∉ s.allset
  | .error _, _ => True

/-- A connection is accepted in the round. -/
def Server.Accepts (s : Server) (listenFd : Int) (r : Round) : Prop :=
  s.rset r listenFd = true ∧ ∃ fd, r.accept = .connection fd

/-- The slots are looked at in the round. -/
def Server.Scans (s : Server) (listenFd : Int) (r : Round) : Prop :=
  s.rset r listenFd = true → ∃ fd, r.accept = .connection fd

/-- A connection is accepted only with a slot free, and no read returns 0. -/
def Spared (listenFd : Int) : Except Stop Server → Round → Prop
  | .ok s, r =>
    (s.Accepts listenFd r → ∃ c ∈ s.client, c < 0) ∧
      (s.Scans listenFd r → ∀ i fd, s.client[i]? = some fd → 0 ≤ fd → s.rset r fd = true →
        r.reads i ≠ 0)
  | .error _, _ => True

/-- No peer closes its connection: no read returns 0. -/
def PeersStay (listenFd : Int) : Except Stop Server → Round → Prop
  | .ok s, r => s.Scans listenFd r → ∀ i fd, s.client[i]? = some fd → 0 ≤ fd →
    s.rset r fd = true → r.reads i ≠ 0
  | .error _, _ => True

/-- `accept` returns a descriptor that fits into an `fd_set`. -/
def FitsFdSet : Except Stop Server → Round → Prop
  | .ok _, r => ∀ fd, r.accept = .connection fd → fd < fdSetSize
  | .error _, _ => True

/-- There is a slot free, or the program has ended, but not by an access outside of the table. -/
def Free : Except Stop Server → Prop
  | .ok s => ∃ c ∈ s.client, c < 0
  | .error .exit => True
  | .error (.fault _) => False

/-- What every round keeps. -/
structure Inv (listenFd : Int) (s : Server) : Prop where
  size : s.client.length = fdSetSize
  listening : listenFd ∈ s.allset
  nonneg : ∀ fd ∈ s.allset, 0 ≤ fd
  slots : ∀ (i : Nat) fd, s.client[i]? = some fd → 0 ≤ fd →
    (fd ∈ s.allset ∧ fd ≠ listenFd) ∧ (i : Int) ≤ s.maxi

/-! ## The free slot -/

section Slot

variable {connFd : Int} {client : List Int}

/-- With a slot free, the connection gets the first one. -/
theorem slotLoop_free (h : ∃ c ∈ client, c < 0) :
    ∃ us c vs, client = us ++ c :: vs ∧ c < 0 ∧
      slotLoop connFd client = (us ++ connFd :: vs, us.length) := by
  induction client with
  | nil =>
    obtain ⟨c, hc, -⟩ := h
    cases hc
  | cons c cs ih =>
    rw [slotLoop]
    by_cases hc : c < 0
    · rw [if_pos hc]
      exact ⟨[], c, cs, rfl, hc, rfl⟩
    · have htail : ∃ d ∈ cs, d < 0 := by
        obtain ⟨d, hd, hneg⟩ := h
        rcases List.mem_cons.mp hd with rfl | hd
        · exact absurd hneg hc
        · exact ⟨d, hd, hneg⟩
      obtain ⟨us, d, vs, rfl, hd, hloop⟩ := ih htail
      rw [if_neg hc, hloop]
      exact ⟨c :: us, d, vs, rfl, hd, rfl⟩

/-- Without, the loop goes through the whole table. -/
theorem slotLoop_full (h : ¬∃ c ∈ client, c < 0) :
    slotLoop connFd client = (client, client.length) := by
  induction client with
  | nil => rfl
  | cons c cs ih =>
    have hc : ¬c < 0 := fun hc => h ⟨c, List.mem_cons_self, hc⟩
    rw [slotLoop, if_neg hc, ih fun ⟨d, hd, hneg⟩ => h ⟨d, .tail _ hd, hneg⟩]
    rfl

end Slot

/-! ## The scan -/

section Scan

variable {client : List Int} {rset : Int → Bool} {reads : Nat → Int} {left i : Nat}

/-- A scan within the table reads what is ready there. -/
theorem scanLoop_ok (h : i + left ≤ client.length) :
    ∃ events, scanLoop client rset reads left i = .ok events ∧
      ∀ w, w ∈ events ↔ ∃ j fd, (i ≤ j ∧ j < i + left) ∧ client[j]? = some fd ∧ 0 ≤ fd ∧
        rset fd = true ∧ w = .read fd (reads j) := by
  induction left generalizing i with
  | zero =>
    refine ⟨[], rfl, fun w => iff_of_false nofun ?_⟩
    rintro ⟨j, fd, hj, -⟩
    omega
  | succ left ih =>
    obtain ⟨events, hrun, hmem⟩ := @ih (i + 1) (by omega)
    have hi : i < client.length := by omega
    have hget : client[i]? = some (client.get ⟨i, hi⟩) := List.getElem?_eq_getElem hi
    have hsplit (w : Event) :
        (∃ j fd, (i ≤ j ∧ j < i + (left + 1)) ∧ client[j]? = some fd ∧ 0 ≤ fd ∧
          rset fd = true ∧ w = .read fd (reads j)) ↔
          (0 ≤ client.get ⟨i, hi⟩ ∧ rset (client.get ⟨i, hi⟩) = true ∧
            w = .read (client.get ⟨i, hi⟩) (reads i)) ∨ w ∈ events := by
      rw [hmem]
      constructor
      · rintro ⟨j, fd, hj, hfd, hrest⟩
        rcases Nat.eq_or_lt_of_le hj.1 with rfl | hlt
        · rw [hget] at hfd
          cases hfd
          exact .inl hrest
        · exact .inr ⟨j, fd, ⟨hlt, by omega⟩, hfd, hrest⟩
      · rintro (hfirst | ⟨j, fd, hj, hrest⟩)
        · exact ⟨i, _, ⟨Nat.le_refl i, by omega⟩, hget, hfirst⟩
        · exact ⟨j, fd, ⟨by omega, by omega⟩, hrest⟩
    rw [scanLoop, Mem.load_eq_ok hi, hrun]
    dsimp only
    by_cases hneg : client.get ⟨i, hi⟩ < 0
    · rw [if_pos hneg]
      refine ⟨events, rfl, fun w => ?_⟩
      rw [hsplit, or_iff_right fun hfirst => Int.not_lt.mpr hfirst.1 hneg]
    · rw [if_neg hneg]
      split
      case isTrue hset =>
        refine ⟨_, rfl, fun w => ?_⟩
        rw [hsplit, List.mem_cons]
        exact or_congr_left (by rw [and_iff_right (Int.not_lt.mp hneg), and_iff_right hset])
      case isFalse hset =>
        refine ⟨events, rfl, fun w => ?_⟩
        rw [hsplit, or_iff_right fun hfirst => hset hfirst.2.1]

/-- A scan beyond the table faults. -/
theorem scanLoop_error (h : client.length < i + left) (hi : i ≤ client.length) :
    ∃ f, scanLoop client rset reads left i = .error f := by
  induction left generalizing i with
  | zero => omega
  | succ left ih =>
    rw [scanLoop]
    rcases Nat.eq_or_lt_of_le hi with rfl | hlt
    · have hload : Mem.load client client.length = .error
          ⟨client.length, client.length, Nat.le_refl _⟩ := dif_neg (Nat.lt_irrefl _)
      rw [hload]
      exact ⟨_, rfl⟩
    · obtain ⟨f, hrun⟩ := @ih (i + 1) (by omega) hlt
      rw [Mem.load_eq_ok hlt, hrun]
      exact ⟨f, rfl⟩

end Scan

/-! ## Open connections -/

theorem openFds_append (ws vs : List Event) :
    openFds (ws ++ vs) = vs.foldl (fun fds w =>
      match w with
      | .accepted fd => fd :: fds
      | .read fd n => if n = 0 then fds.filter (· ≠ fd) else fds) (openFds ws) :=
  List.foldl_append ..

theorem openFds_accepted (ws : List Event) (fd : Int) :
    openFds (ws ++ [.accepted fd]) = fd :: openFds ws := openFds_append ws _

/-- Reads that return something close nothing. -/
theorem openFds_reads {vs : List Event} (h : ∀ w ∈ vs, ∃ fd n, w = .read fd n ∧ n ≠ 0)
    (ws : List Event) : openFds (ws ++ vs) = openFds ws := by
  induction vs generalizing ws with
  | nil => rw [List.append_nil]
  | cons w vs ih =>
    obtain ⟨fd, n, rfl, hn⟩ := h w List.mem_cons_self
    have hone : openFds (ws ++ [.read fd n]) = openFds ws := (openFds_append ws _).trans (if_neg hn)
    rw [List.append_cons, ih fun w hw => h w (.tail _ hw), hone]

/-- A read that returns 0 closes its connection. -/
theorem not_mem_openFds {vs : List Event} (h : ∀ w ∈ vs, ∃ fd n, w = .read fd n) {fd : Int}
    (hfd : .read fd 0 ∈ vs) (ws : List Event) : fd ∉ openFds (ws ++ vs) := by
  have hkeep (vs ws : List Event) (h : ∀ w ∈ vs, ∃ fd n, w = .read fd n)
      (hnot : fd ∉ openFds ws) : fd ∉ openFds (ws ++ vs) := by
    induction vs generalizing ws with
    | nil => rwa [List.append_nil]
    | cons w vs ih =>
      obtain ⟨fd', n, rfl⟩ := h w List.mem_cons_self
      rw [List.append_cons]
      refine ih _ (fun w hw => h w (.tail _ hw)) fun hmem => hnot ?_
      rw [openFds_append] at hmem
      dsimp only [List.foldl] at hmem
      split at hmem
      · exact List.mem_of_mem_filter hmem
      · exact hmem
  obtain ⟨us, vs', rfl⟩ := List.append_of_mem hfd
  rw [← List.append_assoc, List.append_cons]
  refine hkeep vs' _ (fun w hw => h w (List.mem_append_right _ (.tail _ hw))) fun hmem => ?_
  rw [openFds_append] at hmem
  simp at hmem

/-! ## One round -/

theorem Inv.rset_of_slot (h : Inv listenFd s) {i : Nat} {fd : Int} (hi : s.client[i]? = some fd)
    (hfd : 0 ≤ fd) : i < (s.maxi + 1).toNat := by
  have := (h.slots i fd hi hfd).2
  omega

/-- With `maxi` an index the scan stays within the table. -/
theorem scan_ok (h : Inv listenFd s) (hmaxi : s.maxi < fdSetSize) (rset : Int → Bool)
    (reads : Nat → Int) (pre : List Event) :
    ∃ events, s.scan rset reads pre = (.ok { s with i := (s.maxi + 1).toNat }, pre ++ events) ∧
      ∀ w, w ∈ events ↔ ∃ j fd, (0 ≤ j ∧ j < 0 + (s.maxi + 1).toNat) ∧ s.client[j]? = some fd ∧
        0 ≤ fd ∧ rset fd = true ∧ w = .read fd (reads j) := by
  have hsize := h.size
  obtain ⟨events, hrun, hmem⟩ := @scanLoop_ok s.client rset reads (s.maxi + 1).toNat 0 (by omega)
  refine ⟨events, ?_, hmem⟩
  rw [Server.scan, hrun]

/-- The scan of a sound table keeps it sound if and only if no read returns 0. -/
theorem scan_sound_iff (h : Inv listenFd s) (hs : SoundTable listenFd ws s) (rset : Int → Bool)
    (reads : Nat → Int) (pre : List Event) :
    ∃ events, s.scan rset reads pre = (.ok { s with i := (s.maxi + 1).toNat }, pre ++ events) ∧
      ((∀ i fd, s.client[i]? = some fd → 0 ≤ fd → rset fd = true → reads i ≠ 0) ↔
        SoundTable listenFd (ws ++ events) { s with i := (s.maxi + 1).toNat }) := by
  obtain ⟨events, hrun, hmem⟩ := scan_ok h hs.maxi_lt rset reads pre
  refine ⟨events, hrun, fun hreads => ?_, fun hsound i fd hi hfd hset hzero => ?_⟩
  · have hopen : openFds (ws ++ events) = openFds ws := by
      refine openFds_reads (fun w hw => ?_) ws
      obtain ⟨j, fd, -, hj, hfd, hset, rfl⟩ := (hmem w).mp hw
      exact ⟨fd, reads j, rfl, hreads j fd hj hfd hset⟩
    refine ⟨hs.maxi_lt, hs.one_slot, ?_, ?_, ?_⟩
    · rw [hopen]
      exact hs.open_slots
    · rw [hopen]
      exact hs.open_set
    · rw [hopen]
      exact hs.occupied_le
  · have hread : .read fd 0 ∈ events :=
      (hmem _).mpr ⟨i, fd, ⟨Nat.zero_le i, by have := h.rset_of_slot hi hfd; omega⟩, hi, hfd, hset,
        by rw [hzero]⟩
    refine not_mem_openFds (fun w hw => ?_) hread ws (hsound.open_slots fd ?_ hfd)
    · obtain ⟨j, fd, -, -, -, -, rfl⟩ := (hmem w).mp hw
      exact ⟨fd, reads j, rfl⟩
    · exact List.mem_of_getElem? hi

/-- Where a new connection goes. -/
theorem addClient_free (hmaxi : s.maxi < fdSetSize) (connFd : Int) (h : ∃ c ∈ s.client, c < 0) :
    ∃ us c vs, s.client = us ++ c :: vs ∧ c < 0 ∧
      (s.addClient connFd).client = us ++ connFd :: vs ∧
      (s.addClient connFd).maxi =
        if (us.length : Int) > s.maxi then (us.length : Int) else s.maxi := by
  obtain ⟨us, c, vs, hclient, hc, hloop⟩ := @slotLoop_free connFd s.client h
  refine ⟨us, c, vs, hclient, hc, ?_⟩
  rw [Server.addClient, if_pos hmaxi, hloop]
  exact ⟨rfl, rfl⟩

/-- A new connection without a slot takes the table's size for its index. -/
theorem addClient_full (hmaxi : s.maxi < fdSetSize) (hsize : s.client.length = fdSetSize)
    (connFd : Int) (h : ¬∃ c ∈ s.client, c < 0) :
    (s.addClient connFd).client = s.client ∧ (s.addClient connFd).maxi = fdSetSize := by
  rw [Server.addClient, if_pos hmaxi, slotLoop_full h, hsize]
  exact ⟨rfl, if_pos hmaxi⟩

theorem addClient_allset (s : Server) (connFd : Int) :
    (s.addClient connFd).allset = connFd :: s.allset := by
  rw [Server.addClient]

/-- The high-water mark only rises. -/
theorem addClient_maxi_le (s : Server) (connFd : Int) : s.maxi ≤ (s.addClient connFd).maxi := by
  rw [Server.addClient]
  dsimp only
  split <;> split <;> omega

theorem middle_eq_set (us : List Int) (a b : Int) (vs : List Int) :
    us ++ b :: vs = (us ++ a :: vs).set us.length b := by simp

theorem addClient_inv (h : Inv listenFd s) {connFd : Int} (hfd : 0 ≤ connFd)
    (hfresh : connFd ∉ s.allset) : Inv listenFd (s.addClient connFd) := by
  have hne : connFd ≠ listenFd := fun heq => hfresh (heq ▸ h.listening)
  have hset := addClient_allset s connFd
  have hold (i : Nat) (fd : Int) (hi : s.client[i]? = some fd) (hpos : 0 ≤ fd) :
      (fd ∈ connFd :: s.allset ∧ fd ≠ listenFd) ∧ (i : Int) ≤ (s.addClient connFd).maxi := by
    obtain ⟨⟨hmem, hlisten⟩, hle⟩ := h.slots i fd hi hpos
    exact ⟨⟨.tail _ hmem, hlisten⟩, Int.le_trans hle (addClient_maxi_le s connFd)⟩
  have hkeep (hclient : (s.addClient connFd).client = s.client) :
      Inv listenFd (s.addClient connFd) := by
    refine ⟨hclient ▸ h.size, hset ▸ .tail _ h.listening, ?_, ?_⟩
    · rw [hset]
      exact List.forall_mem_cons.mpr ⟨hfd, h.nonneg⟩
    · rw [hset, hclient]
      exact fun i fd hi hpos => hold i fd hi hpos
  by_cases hmaxi : s.maxi < fdSetSize
  · by_cases hfree : ∃ c ∈ s.client, c < 0
    · obtain ⟨us, c, vs, hclient, hc, hclient', hmaxi'⟩ := addClient_free hmaxi connFd hfree
      refine ⟨?_, hset ▸ .tail _ h.listening, ?_, ?_⟩
      · rw [hclient', ← h.size, hclient, List.length_append, List.length_append, List.length_cons,
          List.length_cons]
      · rw [hset]
        exact List.forall_mem_cons.mpr ⟨hfd, h.nonneg⟩
      · intro i fd hi hpos
        rw [hset]
        rw [hclient', middle_eq_set us c, ← hclient, List.getElem?_set] at hi
        split at hi
        case isTrue heq =>
          split at hi
          · cases hi
            refine ⟨⟨List.mem_cons_self, hne⟩, ?_⟩
            rw [hmaxi', ← heq]
            split <;> omega
          · cases hi
        case isFalse => exact hold i fd hi hpos
    · exact hkeep (addClient_full hmaxi h.size connFd hfree).1
  · refine hkeep ?_
    rw [Server.addClient, if_neg hmaxi]

section Added

variable {connFd : Int} (h : Inv listenFd s) (hmaxi : s.maxi < fdSetSize)
  (hfree : ∃ c ∈ s.client, c < 0)

include h hmaxi hfree in
theorem addClient_maxi_lt : (s.addClient connFd).maxi < fdSetSize := by
  obtain ⟨us, c, vs, hclient, -, -, hmaxi'⟩ := addClient_free hmaxi connFd hfree
  have hsize : us.length < fdSetSize := by
    rw [← h.size, hclient, List.length_append, List.length_cons]
    omega
  rw [hmaxi']
  split <;> omega

include hmaxi hfree in
theorem addClient_count {fd : Int} (hne : fd ≠ connFd) (hpos : 0 ≤ fd) :
    (s.addClient connFd).client.count fd = s.client.count fd := by
  obtain ⟨us, c, vs, hclient, hc, hclient', -⟩ := addClient_free hmaxi connFd hfree
  rw [hclient', hclient, List.count_append, List.count_append, List.count_cons_of_ne hne.symm,
    List.count_cons_of_ne (by omega)]

include h hmaxi hfree in
/-- With a slot free, each descriptor still has one slot. -/
theorem addClient_one_slot (hfd : 0 ≤ connFd) (hfresh : connFd ∉ s.allset)
    (hone : ∀ fd ∈ s.allset, fd ≠ listenFd → s.client.count fd = 1) :
    ∀ fd ∈ (s.addClient connFd).allset, fd ≠ listenFd →
      (s.addClient connFd).client.count fd = 1 := by
  rw [addClient_allset]
  refine List.forall_mem_cons.mpr ⟨fun _ => ?_, fun fd hmem hlisten => ?_⟩
  · obtain ⟨us, c, vs, hclient, hc, hclient', -⟩ := addClient_free hmaxi connFd hfree
    have hnew : connFd ∉ s.client := fun hmem => by
      obtain ⟨i, hi⟩ := List.mem_iff_getElem?.mp hmem
      exact hfresh (h.slots i connFd hi hfd).1.1
    have hzero : (us ++ c :: vs).count connFd = 0 := List.count_eq_zero.mpr (hclient ▸ hnew)
    rw [List.count_append, List.count_cons_of_ne (by omega)] at hzero
    rw [hclient', List.count_append, List.count_cons_self]
    omega
  · have hne : fd ≠ connFd := fun heq => hfresh (heq ▸ hmem)
    rw [addClient_count hmaxi hfree hne (h.nonneg fd hmem)]
    exact hone fd hmem hlisten

end Added

/-- A connection that gets a slot keeps the table sound. -/
theorem addClient_sound (h : Inv listenFd s) (hs : SoundTable listenFd ws s) {connFd : Int}
    (hfd : 0 ≤ connFd) (hfresh : connFd ∉ s.allset) (hfree : ∃ c ∈ s.client, c < 0) :
    SoundTable listenFd (ws ++ [.accepted connFd]) (s.addClient connFd) := by
  refine ⟨addClient_maxi_lt h hs.maxi_lt hfree,
    addClient_one_slot h hs.maxi_lt hfree hfd hfresh hs.one_slot, ?_, ?_, ?_⟩
  · intro fd hmem hpos
    rw [openFds_accepted]
    by_cases heq : fd = connFd
    · rw [heq]
      exact List.mem_cons_self
    · refine .tail _ (hs.open_slots fd ?_ hpos)
      rw [← List.count_pos_iff, ← addClient_count hs.maxi_lt hfree heq hpos]
      exact List.count_pos_iff.mpr hmem
  · rw [addClient_allset, openFds_accepted]
    exact List.forall_mem_cons.mpr
      ⟨fun _ => List.mem_cons_self, fun fd hmem hlisten => .tail _ (hs.open_set fd hmem hlisten)⟩
  · obtain ⟨us, c, vs, hclient, hc, hclient', -⟩ := addClient_free hs.maxi_lt connFd hfree
    have hle := hs.occupied_le
    rw [openFds_accepted, List.length_cons, hclient', List.countP_append,
      List.countP_cons_of_pos (by simpa using hfd)]
    rw [hclient, List.countP_append, List.countP_cons_of_neg (by simpa using hc)] at hle
    omega

theorem rset_mem {fd : Int} (h : s.rset r fd = true) : fd ∈ s.allset :=
  of_decide_eq_true ((Bool.and_eq_true _ _).mp h).1

/-- The slots of the old connections stay. -/
theorem addClient_slot (hmaxi : s.maxi < fdSetSize) {connFd : Int} (hfresh : connFd ∉ s.allset)
    (hfree : ∃ c ∈ s.client, c < 0) {i : Nat} {fd : Int} (hpos : 0 ≤ fd) (hmem : fd ∈ s.allset) :
    (s.addClient connFd).client[i]? = some fd ↔ s.client[i]? = some fd := by
  obtain ⟨us, c, vs, hclient, hc, hclient', -⟩ := addClient_free hmaxi connFd hfree
  have hne : connFd ≠ fd := fun heq => hfresh (heq ▸ hmem)
  rw [hclient', hclient]
  rcases Nat.lt_trichotomy i us.length with hlt | rfl | hlt
  · rw [List.getElem?_append_left hlt, List.getElem?_append_left hlt]
  · rw [List.getElem?_append_right (Nat.le_refl _), List.getElem?_append_right (Nat.le_refl _),
      Nat.sub_self, List.getElem?_cons_zero, List.getElem?_cons_zero]
    refine iff_of_false (fun heq => hne (Option.some.inj heq)) fun heq => ?_
    have := Option.some.inj heq
    omega
  · obtain ⟨k, rfl⟩ := Nat.exists_eq_add_of_lt hlt
    rw [List.getElem?_append_right (by omega), List.getElem?_append_right (by omega),
      show us.length + k + 1 - us.length = k + 1 by omega, List.getElem?_cons_succ,
      List.getElem?_cons_succ]

theorem scan_inv (h : Inv listenFd s) {rset : Int → Bool} {reads : Nat → Int} {pre : List Event}
    {s' : Server} (hrun : (s.scan rset reads pre).1 = .ok s') : Inv listenFd s' := by
  rw [Server.scan] at hrun
  split at hrun
  · cases hrun
  · cases hrun
    exact ⟨h.size, h.listening, h.nonneg, h.slots⟩

/-- A round keeps the invariant, sound or not. -/
theorem round_inv (h : Inv listenFd s) (hfresh : Fresh (.ok s) r) {s' : Server}
    (hrun : (s.round listenFd r).1 = .ok s') : Inv listenFd s' := by
  rw [Server.round] at hrun
  split at hrun
  case isTrue =>
    cases haccept : r.accept with
    | again =>
      rw [haccept] at hrun
      cases hrun
      exact h
    | failed =>
      rw [haccept] at hrun
      cases hrun
    | connection connFd =>
      rw [haccept] at hrun
      obtain ⟨hpos, hnot⟩ := hfresh connFd haccept
      exact scan_inv (addClient_inv h hpos hnot) hrun
  case isFalse => exact scan_inv h hrun

/-- A round in which the listening descriptor is ready without a connection is spared. -/
theorem spared_of_accept (hlisten : s.rset r listenFd = true)
    (haccept : ∀ fd, r.accept ≠ .connection fd) : Spared listenFd (.ok s) r := by
  refine ⟨?_, ?_⟩
  · rintro ⟨-, fd, hfd⟩
    exact absurd hfd (haccept fd)
  · intro hscans
    obtain ⟨fd, hfd⟩ := hscans hlisten
    exact absurd hfd (haccept fd)

/-- A round keeps a sound table sound if and only if it is spared. -/
theorem round_sound_iff (h : Inv listenFd s) (hfresh : Fresh (.ok s) r)
    (hs : SoundTable listenFd ws s) :
    Spared listenFd (.ok s) r ↔
      Sound listenFd (ws ++ (s.round listenFd r).2) (s.round listenFd r).1 := by
  rw [Server.round]
  by_cases hlisten : s.rset r listenFd = true
  · rw [if_pos hlisten]
    cases haccept : r.accept with
    | again =>
      refine iff_of_true (spared_of_accept hlisten fun fd => haccept ▸ nofun) ?_
      rw [List.append_nil]
      exact hs
    | failed => exact iff_of_true (spared_of_accept hlisten fun fd => haccept ▸ nofun) trivial
    | connection connFd =>
      obtain ⟨hpos, hnot⟩ := hfresh connFd haccept
      have haccepts : s.Accepts listenFd r := ⟨hlisten, connFd, haccept⟩
      have hinv := addClient_inv h hpos hnot
      by_cases hfree : ∃ c ∈ s.client, c < 0
      · obtain ⟨events, hrun, hiff⟩ :=
          scan_sound_iff hinv (addClient_sound h hs hpos hnot hfree) (s.rset r) r.reads
            [.accepted connFd]
        dsimp only
        rw [hrun, ← List.append_assoc]
        refine Iff.trans ?_ hiff
        have hslot {i : Nat} {fd : Int} (hfd : 0 ≤ fd) (hset : s.rset r fd = true) :
            (s.addClient connFd).client[i]? = some fd ↔ s.client[i]? = some fd :=
          addClient_slot hs.maxi_lt hnot hfree hfd (rset_mem hset)
        constructor
        · rintro ⟨-, hreads⟩ i fd hi hfd hset
          exact hreads (fun _ => ⟨connFd, haccept⟩) i fd ((hslot hfd hset).mp hi) hfd hset
        · intro hreads
          exact ⟨fun _ => hfree, fun _ i fd hi hfd hset =>
            hreads i fd ((hslot hfd hset).mpr hi) hfd hset⟩
      · obtain ⟨hclient, hmaxi⟩ := addClient_full hs.maxi_lt h.size connFd hfree
        -- the scan goes on to `client[FD_SETSIZE]`
        obtain ⟨f, hrun⟩ := @scanLoop_error (s.addClient connFd).client (s.rset r) r.reads
          ((s.addClient connFd).maxi + 1).toNat 0 (by rw [hclient, hmaxi, h.size]; omega)
          (Nat.zero_le _)
        dsimp only
        rw [Server.scan, hrun]
        exact iff_of_false (fun hspared => hfree (hspared.1 haccepts)) id
  · rw [if_neg hlisten]
    obtain ⟨events, hrun, hiff⟩ := scan_sound_iff h hs (s.rset r) r.reads []
    rw [hrun]
    refine Iff.trans ?_ hiff
    constructor
    · rintro ⟨-, hreads⟩
      exact hreads fun hset => absurd hset hlisten
    · exact fun hreads => ⟨fun haccepts => absurd haccepts.1 hlisten, fun _ => hreads⟩

/-! ## Runs -/

theorem init_inv (hl : 0 ≤ listenFd) : Inv listenFd (.init listenFd) where
  size := List.length_replicate
  listening := List.mem_cons_self
  nonneg := List.forall_mem_singleton.mpr hl
  slots i fd hi hfd := by
    have := List.eq_of_mem_replicate (List.mem_of_getElem? hi)
    omega

theorem init_sound : SoundTable listenFd [] (.init listenFd) where
  maxi_lt := (show (-1 : Int) < 1024 by decide)
  one_slot fd hmem hne := absurd (List.mem_singleton.mp hmem) hne
  open_slots fd hmem hfd := by
    have := List.eq_of_mem_replicate hmem
    omega
  open_set fd hmem hne := absurd (List.mem_singleton.mp hmem) hne
  occupied_le := by
    rw [Server.init, List.countP_replicate]
    exact Nat.zero_le _

/-- The invariant of a server that runs; nothing is said behind the end. -/
def Kept (listenFd : Int) : Except Stop Server → Prop
  | .ok s => Inv listenFd s
  | .error _ => True

theorem step_kept {t : Except Stop Server} (h : Kept listenFd t) (hfresh : Fresh t r) :
    Kept listenFd ((server listenFd).step t r).1 := by
  cases t with
  | error e => trivial
  | ok s =>
    cases hrun : (s.round listenFd r).1 with
    | error e =>
      show Kept listenFd (s.round listenFd r).1
      rw [hrun]
      trivial
    | ok s' =>
      show Kept listenFd (s.round listenFd r).1
      rw [hrun]
      exact round_inv h hfresh hrun

theorem step_sound_iff {t : Except Stop Server} (h : Kept listenFd t) (hfresh : Fresh t r)
    (hs : Sound listenFd ws t) :
    Spared listenFd t r ↔ Sound listenFd (ws ++ ((server listenFd).step t r).2)
      ((server listenFd).step t r).1 := by
  cases t with
  | ok s => exact round_sound_iff h hfresh hs
  | error e =>
    cases e with
    | exit => exact iff_of_true trivial trivial
    | fault f => exact hs.elim

/-- The table is sound behind every round if and only if every round is spared: a connection is
accepted only with a slot free, and no peer closes its connection. -/
theorem table_sound_iff (hl : 0 ≤ listenFd) {rounds : List Round}
    (hfresh : (server listenFd).Along Fresh (.ok (.init listenFd)) rounds) :
    (server listenFd).Along (Spared listenFd) (.ok (.init listenFd)) rounds ↔
      ∀ rs, rs <+: rounds → Sound listenFd ((server listenFd).out (.ok (.init listenFd)) rs)
        ((server listenFd).final (.ok (.init listenFd)) rs) := by
  have hinv (t : Except Stop Server) (r : Round) (hkept : Kept listenFd t) (hf : Fresh t r) :
      Kept listenFd ((server listenFd).step t r).1 := step_kept hkept hf
  have hstep (ws : List Event) (t : Except Stop Server) (r : Round) (hkept : Kept listenFd t)
      (hf : Fresh t r) (hs : Sound listenFd ws t) :
      Spared listenFd t r ↔ Sound listenFd (ws ++ ((server listenFd).step t r).2)
        ((server listenFd).step t r).1 ∧ True :=
    (step_sound_iff hkept hf hs).trans (and_iff_left trivial).symm
  refine ((server listenFd).along_history_iff hinv hstep hfresh (init_inv hl) init_sound).trans ?_
  exact forall₂_congr fun rs _ => and_iff_left fun _ _ => trivial

/-! ## Descriptors that fit into an `fd_set` -/

/-- What a round keeps, whatever the peers do, as long as the descriptors fit into an `fd_set`. -/
structure Roomy (listenFd : Int) (s : Server) : Prop extends Inv listenFd s where
  maxi_lt : s.maxi < fdSetSize
  one_slot : ∀ fd ∈ s.allset, fd ≠ listenFd → s.client.count fd = 1
  fits : ∀ fd ∈ s.allset, fd < fdSetSize

/-- There are more slots than descriptors besides the listening one. -/
theorem Roomy.exists_free (h : Roomy listenFd s) : ∃ c ∈ s.client, c < 0 := by
  by_contra hfull
  have hslot {fd : Int} (hfd : fd ∈ s.client) : fd ∈ s.allset ∧ fd ≠ listenFd := by
    have hpos : 0 ≤ fd := Int.not_lt.mp fun hneg => hfull ⟨fd, hfd, hneg⟩
    obtain ⟨i, hi⟩ := List.mem_iff_getElem?.mp hfd
    exact (h.slots i fd hi hpos).1
  have hnodup : (listenFd :: s.client).Nodup := by
    refine List.nodup_cons.mpr ⟨fun hmem => (hslot hmem).2 rfl, ?_⟩
    exact List.nodup_iff_count_eq_one.mpr fun fd hfd => h.one_slot fd (hslot hfd).1 (hslot hfd).2
  have hsubset : listenFd :: s.client ⊆ (List.range fdSetSize).map Int.ofNat := by
    intro fd hfd
    have hmem : fd ∈ s.allset := by
      rcases List.mem_cons.mp hfd with rfl | hfd
      · exact h.listening
      · exact (hslot hfd).1
    have hlt := h.fits fd hmem
    have hpos := h.nonneg fd hmem
    exact List.mem_map.mpr ⟨fd.toNat, List.mem_range.mpr (by omega), Int.toNat_of_nonneg hpos⟩
  have hle := (hnodup.subperm hsubset).length_le
  rw [List.length_map, List.length_range, List.length_cons, h.size] at hle
  exact Nat.lt_irrefl _ hle

theorem Roomy.addClient (h : Roomy listenFd s) {connFd : Int} (hfd : 0 ≤ connFd)
    (hfresh : connFd ∉ s.allset) (hlt : connFd < fdSetSize) :
    Roomy listenFd (s.addClient connFd) where
  toInv := addClient_inv h.toInv hfd hfresh
  maxi_lt := addClient_maxi_lt h.toInv h.maxi_lt h.exists_free
  one_slot := addClient_one_slot h.toInv h.maxi_lt h.exists_free hfd hfresh h.one_slot
  fits := by
    rw [addClient_allset]
    exact List.forall_mem_cons.mpr ⟨hlt, h.fits⟩

/-- The table of a server that runs is roomy; it never ends by an access outside of it. -/
def Room (listenFd : Int) : Except Stop Server → Prop
  | .ok s => Roomy listenFd s
  | .error .exit => True
  | .error (.fault _) => False

theorem Roomy.scan (h : Roomy listenFd s) (rset : Int → Bool) (reads : Nat → Int)
    (pre : List Event) : Room listenFd (s.scan rset reads pre).1 := by
  obtain ⟨events, hrun, -⟩ := scan_ok h.toInv h.maxi_lt rset reads pre
  rw [hrun]
  exact ⟨⟨h.size, h.listening, h.nonneg, h.slots⟩, h.maxi_lt, h.one_slot, h.fits⟩

theorem Roomy.round (h : Roomy listenFd s) (hfresh : Fresh (.ok s) r)
    (hfits : FitsFdSet (.ok s) r) : Room listenFd (s.round listenFd r).1 := by
  rw [Server.round]
  by_cases hlisten : s.rset r listenFd = true
  · rw [if_pos hlisten]
    cases haccept : r.accept with
    | again => exact h
    | failed => trivial
    | connection connFd =>
      obtain ⟨hpos, hnot⟩ := hfresh connFd haccept
      exact (h.addClient hpos hnot (hfits connFd haccept)).scan ..
  · rw [if_neg hlisten]
    exact h.scan ..

theorem Room.step {t : Except Stop Server} (h : Room listenFd t)
    (hguard : Fresh t r ∧ FitsFdSet t r) : Room listenFd ((server listenFd).step t r).1 := by
  cases t with
  | ok s => exact Roomy.round h hguard.1 hguard.2
  | error e => exact h

theorem Room.free {t : Except Stop Server} (h : Room listenFd t) : Free t := by
  cases t with
  | ok s => exact Roomy.exists_free h
  | error e => cases e <;> exact h

theorem Room.kept {t : Except Stop Server} (h : Room listenFd t) : Kept listenFd t := by
  cases t with
  | ok s => exact Roomy.toInv h
  | error e => trivial

theorem Room.spared_iff {t : Except Stop Server} (h : Room listenFd t) :
    Spared listenFd t r ↔ PeersStay listenFd t r := by
  cases t with
  | ok s => exact and_iff_right fun _ => Roomy.exists_free h
  | error e => exact Iff.rfl

theorem init_room (hl : 0 ≤ listenFd) (hlt : listenFd < fdSetSize) :
    Room listenFd (.ok (.init listenFd)) :=
  ⟨init_inv hl, init_sound.maxi_lt, init_sound.one_slot, List.forall_mem_singleton.mpr hlt⟩

/-- With descriptors that fit into an `fd_set` there is always a slot free, whatever the peers do,
and the table is sound behind every round if and only if no peer closes its connection. -/
theorem table_sound_fits_iff (hl : 0 ≤ listenFd) (hlt : listenFd < fdSetSize) {rounds : List Round}
    (hguard : (server listenFd).Along (fun t r => Fresh t r ∧ FitsFdSet t r)
      (.ok (.init listenFd)) rounds) :
    (∀ rs, rs <+: rounds → Free ((server listenFd).final (.ok (.init listenFd)) rs)) ∧
      ((server listenFd).Along (PeersStay listenFd) (.ok (.init listenFd)) rounds ↔
        ∀ rs, rs <+: rounds → Sound listenFd ((server listenFd).out (.ok (.init listenFd)) rs)
          ((server listenFd).final (.ok (.init listenFd)) rs)) := by
  have hinv (t : Except Stop Server) (r : Round) (h : Room listenFd t)
      (hg : Fresh t r ∧ FitsFdSet t r) : Room listenFd ((server listenFd).step t r).1 := h.step hg
  have hstep (ws : List Event) (t : Except Stop Server) (r : Round) (h : Room listenFd t)
      (hg : Fresh t r ∧ FitsFdSet t r) (hs : Sound listenFd ws t) :
      PeersStay listenFd t r ↔ Sound listenFd (ws ++ ((server listenFd).step t r).2)
        ((server listenFd).step t r).1 ∧ True :=
    h.spared_iff.symm.trans <| (step_sound_iff h.kept hg.1 hs).trans (and_iff_left trivial).symm
  refine ⟨fun rs hrs => ?_, ?_⟩
  · have hroom := (server listenFd).along_invariant hinv (init_room hl hlt) hguard hrs
    exact hroom.free
  · refine ((server listenFd).along_history_iff hinv hstep hguard (init_room hl hlt)
      init_sound).trans ?_
    exact forall₂_congr fun rs _ => and_iff_left fun _ _ => trivial

/-- A connection comes. -/
def arrival : Round := ⟨(· == 3), .connection 4, fun _ => 0⟩

/-- Its peer sends `n` bytes, or closes it with `n = 0`. -/
def sending (n : Int) : Round := ⟨(· == 4), .again, fun _ => n⟩

theorem arrival_fresh : Fresh (.ok (.init 3)) arrival := by
  intro fd hfd
  cases hfd
  exact ⟨by decide, List.not_mem_cons_of_ne_of_not_mem (by decide) List.not_mem_nil⟩

theorem sending_fresh (t : Except Stop Server) (n : Int) : Fresh t (sending n) := by
  cases t with
  | ok s => exact fun fd hfd => nomatch hfd
  | error e => trivial

theorem arrival_sending_fresh (n : Int) :
    (server 3).Along Fresh (.ok (.init 3)) [arrival, sending n] := by
  have hsending (t : Except Stop Server) : (server 3).Along Fresh t [sending n] :=
    ⟨sending_fresh t n, trivial⟩
  exact And.intro arrival_fresh (hsending _)

theorem table_sound_iff_sending :
    (server 3).Along (Spared 3) (.ok (.init 3)) [arrival, sending 5] ↔
      ∀ rs, rs <+: [arrival, sending 5] → Sound 3 ((server 3).out (.ok (.init 3)) rs)
        ((server 3).final (.ok (.init 3)) rs) :=
  table_sound_iff (by decide) (arrival_sending_fresh 5)

theorem table_sound_fits_iff_sending :
    (∀ rs, rs <+: [arrival, sending 5] → Free ((server 3).final (.ok (.init 3)) rs)) ∧
      ((server 3).Along (PeersStay 3) (.ok (.init 3)) [arrival, sending 5] ↔
        ∀ rs, rs <+: [arrival, sending 5] → Sound 3 ((server 3).out (.ok (.init 3)) rs)
          ((server 3).final (.ok (.init 3)) rs)) := by
  refine table_sound_fits_iff (by decide) (by decide) ?_
  have harrival : FitsFdSet (.ok (.init 3)) arrival := by
    intro fd hfd
    cases hfd
    decide
  have hsending (t : Except Stop Server) : Fresh t (sending 5) ∧ FitsFdSet t (sending 5) := by
    refine ⟨sending_fresh t 5, ?_⟩
    cases t with
    | ok s => exact fun fd hfd => nomatch hfd
    | error e => trivial
  exact And.intro ⟨arrival_fresh, harrival⟩ ⟨hsending _, trivial⟩

theorem scan_one (c : Int) (cs allset : List Int) (maxfd : Int) (i : Nat) (rset : Int → Bool)
    (reads : Nat → Int) (pre : List Event) :
    Server.scan ⟨c :: cs, 0, allset, maxfd, i⟩ rset reads pre =
      (.ok ⟨c :: cs, 0, allset, maxfd, 1⟩,
        pre ++ if c < 0 then [] else if rset c then [.read c (reads 0)] else []) := by
  have hrun : scanLoop (c :: cs) rset reads 1 0 =
      .ok (if c < 0 then [] else if rset c then [.read c (reads 0)] else []) := by
    rw [scanLoop, Mem.load_eq_ok (Nat.succ_pos cs.length), scanLoop, apply_ite Except.ok,
      apply_ite Except.ok]
    rfl
  rw [Server.scan, show ((0 : Int) + 1).toNat = 1 from rfl, hrun]

theorem step_arrival (cs : List Int) (i : Nat) :
    (server 3).step (.ok ⟨-1 :: cs, -1, [3], 3, i⟩) arrival =
      (.ok ⟨4 :: cs, 0, [4, 3], 4, 1⟩, [.accepted 4]) :=
  scan_one 4 cs [4, 3] 4 0 (Server.rset ⟨-1 :: cs, -1, [3], 3, i⟩ arrival) arrival.reads
    [.accepted 4]

theorem step_sending (cs : List Int) (i : Nat) (n : Int) :
    (server 3).step (.ok ⟨4 :: cs, 0, [4, 3], 4, i⟩) (sending n) =
      (.ok ⟨4 :: cs, 0, [4, 3], 4, 1⟩, [.read 4 n]) :=
  scan_one 4 cs [4, 3] 4 i (Server.rset ⟨4 :: cs, 0, [4, 3], 4, i⟩ (sending n)) (sending n).reads []

/-- The descriptor of a closed connection keeps its slot. -/
theorem not_sound_closed :
    (server 3).Along Fresh (.ok (.init 3)) [arrival, sending 0] ∧
      ¬Sound 3 ((server 3).out (.ok (.init 3)) [arrival, sending 0])
        ((server 3).final (.ok (.init 3)) [arrival, sending 0]) := by
  refine ⟨arrival_sending_fresh 0, ?_⟩
  have hinit : Server.init 3 = ⟨-1 :: List.replicate 1023 (-1), -1, [3], 3, 1024⟩ := rfl
  simp only [Transducer.out_cons, Transducer.final_cons, hinit, step_arrival, step_sending]
  intro hsound
  have hopen : (4 : Int) ∈ openFds [.accepted 4, .read 4 0] :=
    SoundTable.open_slots hsound 4 List.mem_cons_self (by decide)
  exact absurd hopen (by decide)

end HeadUnit.SocketServer
