import HeadUnit.Mcu.Sender

/-!
# From the sender to the receiver

The bytes written by a sequence of `autolink_mcu_send_msg1` calls, fed to `autolink_mcu_parse`.
With full writes every message is reported if and only if the frames fit the receiver's position
counter (`roundTrips_iff`). With short writes every call that returns 0 is reported as long as no
fragment of a frame stands in front of further bytes (`delivers_of_aligned`); the retry writes the
whole frame again behind the fragment, and the receiver drops its first byte (`shortFirst_lost`).
-/

namespace HeadUnit.Mcu

/-! ## Full writes -/

/-- Every message sent is reported once, in order and with its own fields, nothing else is
reported, and the receiver is left at position 0. -/
def RoundTrips (fd : Int) (calls : List SendCall) : Prop :=
  ∃ rs wire s, sendAll fd calls = .ok (rs, wire) ∧
    receiver.after { mcuinfo with mcufd := fd } wire = .ok s ∧
    receiver.trace { mcuinfo with mcufd := fd } wire = calls.map (fun c => .success c.frame) ∧
    s.pos = 0

theorem sendAll_full {fd : Int} (hfd : 0 < fd) {calls : List SendCall}
    (h : ∀ c ∈ calls, c.FullWrite) :
    sendAll fd calls = .ok (calls.map fun _ => 0, calls.flatMap (·.frame.bytes)) := by
  induction calls with
  | nil => rfl
  | cons c cs ih =>
    rw [sendAll_cons fd c cs (ih fun d hd => h d (List.mem_cons_of_mem _ hd)),
      (h c List.mem_cons_self).sendLoop hfd]
    rfl

/-- A frame too long for the position counter runs into the overflow branch. -/
theorem overflow_mem_out {f : Frame} (hdata : f.data.length = f.len.toNat)
    (hlen : 120 ≤ f.len.toNat) : Report.overflow ∈ framer.out [] f.bytes := by
  have hlt : 127 < f.bytes.length := by rw [f.bytes_length]; omega
  have hin : InProgress (f.bytes.take 127) := by
    have htake : (f.bytes.take 127).length = 127 := by rw [List.length_take]; omega
    refine ⟨f.header_bytes.of_isPrefix (List.take_prefix _ _), htake.le, fun _ => ?_⟩
    rw [htake, getD_of_isPrefix (List.take_prefix 127 f.bytes) (by omega)]
    show 127 < f.len.toNat + 8
    omega
  have hsplit : f.bytes = f.bytes.take 127 ++ f.bytes[127] :: f.bytes.drop 128 := by
    rw [← List.drop_eq_getElem_cons hlt, List.take_append_drop]
  have hstep : framer.step (f.bytes.take 127) f.bytes[127] = ([], [.overflow]) := by
    show collect _ _ = _
    rw [collect, if_pos (by rw [List.length_take]; omega)]
  rw [hsplit, Transducer.out_append, hin.read.1, hin.read.2, List.nil_append, Transducer.out_cons,
    hstep]
  exact List.mem_cons_self

/-- The collector reports exactly the messages sent if and only if all of them fit. -/
theorem framer_frames_iff (calls : List SendCall) :
    (framer.final [] (calls.flatMap (·.frame.bytes)) = [] ∧
      framer.out [] (calls.flatMap (·.frame.bytes)) = calls.map fun c => .success c.frame) ↔
      ∀ c ∈ calls, c.len.toInt ≤ 119 := by
  induction calls with
  | nil => simp
  | cons c cs ih =>
    rw [List.forall_mem_cons, List.flatMap_cons, Transducer.final_append, Transducer.out_append]
    by_cases hc : c.len.toInt ≤ 119
    · have hread := (c.wireFrame hc).final_out
      have hfin : framer.final [] c.frame.bytes = [] := hread.1
      have hout : framer.out [] c.frame.bytes = [.success c.frame] := hread.2
      rw [hfin, hout, List.map_cons, List.singleton_append, List.cons_inj_right, ih]
      exact ⟨fun h => ⟨hc, h⟩, And.right⟩
    · refine ⟨fun h => ?_, fun h => absurd h.1 hc⟩
      have hlen : 120 ≤ c.frame.len.toNat := by rw [← c.len_toNat]; omega
      have hmem := List.mem_append_left
        (framer.out (framer.final [] c.frame.bytes) (cs.flatMap (·.frame.bytes)))
        (overflow_mem_out c.frame_data_length hlen)
      rw [h.2] at hmem
      obtain ⟨d, -, hd⟩ := List.mem_map.mp hmem
      cases hd

/-- The messages of a sequence of full writes are received as they were sent if and only if none
is longer than 119 bytes. -/
theorem roundTrips_iff (fd : Int) (hfd : 0 < fd) (calls : List SendCall)
    (hfull : ∀ c ∈ calls, c.FullWrite) :
    RoundTrips fd calls ↔ ∀ c ∈ calls, c.len.toInt ≤ 119 := by
  have h₀ : Collected { mcuinfo with mcufd := fd } [] := .nil rfl rfl
  rw [← framer_frames_iff]
  constructor
  · rintro ⟨rs, wire, s, hsend, hs, htrace, hpos⟩
    rw [sendAll_full hfd hfull] at hsend
    cases hsend
    rw [receiver_refines.trace h₀] at htrace
    have hcol := receiver_refines.rel_of_after h₀ hs
    exact ⟨List.length_eq_zero_iff.mp (hcol.pos ▸ hpos), htrace⟩
  · rintro ⟨hfin, hout⟩
    obtain ⟨s, hs, hcol⟩ := receiver_refines.after h₀ (calls.flatMap (·.frame.bytes))
    refine ⟨_, _, s, sendAll_full hfd hfull, hs, ?_, ?_⟩
    · rw [receiver_refines.trace h₀, hout]
    · rw [hcol.pos, hfin]; rfl

/-- A call with one attempt, which writes everything. -/
def fullCall (cmd1 : UInt8) (data : List UInt8) (len : Int8) (h0 : 0 ≤ len.toInt)
    (hlen : len.toInt.toNat ≤ data.length) : SendCall where
  cmd1 := cmd1
  data := data
  len := len
  len_nonneg := h0
  len_le := hlen
  times := 1
  times_pos := Int.le_refl 1
  writes := fun _ => some 255

theorem roundTrips_two_frames :
    RoundTrips 1 [fullCall 0x10 [0xAA, 0x77] 2 (by decide) (by decide),
      fullCall 0x11 [] 0 (by decide) (by decide)] :=
  (roundTrips_iff 1 (by decide) _ (by
    rw [List.forall_mem_cons, List.forall_mem_singleton]
    exact ⟨⟨255, rfl, by decide⟩, ⟨255, rfl, by decide⟩⟩)).mpr (by decide)

/-- A payload of 120 bytes is sent but runs into the receiver's overflow branch. -/
theorem not_roundTrips_120 :
    ¬RoundTrips 1 [fullCall 0x10 (List.replicate 120 0) 120 (by decide) (by decide)] := by
  rintro ⟨rs, wire, s, hsend, -, htrace, -⟩
  rw [sendAll_full (by decide) (List.forall_mem_singleton.mpr
    ⟨255, rfl, by rw [Message.frame_bytes_length]; decide⟩)] at hsend
  cases hsend
  rw [receiver_refines.trace (.nil rfl rfl), List.flatMap_singleton] at htrace
  have hmem := overflow_mem_out (f := (fullCall 0x10 (List.replicate 120 0) 120 (by decide)
    (by decide)).frame) (Message.frame_data_length _) (by decide)
  rw [htrace, List.map_singleton, List.mem_singleton] at hmem
  cases hmem

/-! ## Short writes -/

/-- One attempt of a call: the frame it tries to write and what `write` does. -/
structure Attempt where
  frame : Frame
  outcome : WriteOutcome

namespace Attempt

/-- What the attempt puts on the wire. -/
def chunk (a : Attempt) : List UInt8 := a.frame.bytes.take (a.outcome.getD 0)

/-- The whole frame is written. -/
def Full (a : Attempt) : Prop := a.frame.bytes.length ≤ a.outcome.getD 0

/-- Nothing is written. -/
def Silent (a : Attempt) : Prop := a.outcome.getD 0 = 0

instance (a : Attempt) : Decidable a.Full := inferInstanceAs (Decidable (_ ≤ _))
instance (a : Attempt) : Decidable a.Silent := inferInstanceAs (Decidable (_ = _))

/-- A fragment of the frame is written: part of it, but not all. -/
def Short (a : Attempt) : Prop := ¬a.Silent ∧ ¬a.Full

instance (a : Attempt) : Decidable a.Short := inferInstanceAs (Decidable (_ ∧ _))

theorem chunk_of_full {a : Attempt} (h : a.Full) : a.chunk = a.frame.bytes :=
  List.take_of_length_le h

theorem chunk_of_silent {a : Attempt} (h : a.Silent) : a.chunk = [] := by
  rw [chunk, h, List.take_zero]

theorem not_full_of_silent {a : Attempt} (h : a.Silent) : ¬a.Full := by
  intro hfull
  rw [Full, h, Frame.bytes_length] at hfull
  cases hfull

end Attempt

/-- The attempts a call makes: up to the first full write, at most `left`. -/
def attemptsFrom (f : Frame) (writes : Nat → WriteOutcome) : (left iter : Nat) → List Attempt
  | 0, _ => []
  | left + 1, iter =>
    if (⟨f, writes iter⟩ : Attempt).Full then [⟨f, writes iter⟩]
    else ⟨f, writes iter⟩ :: attemptsFrom f writes left (iter + 1)

def SendCall.attempts (c : SendCall) : List Attempt :=
  attemptsFrom c.frame c.writes c.times.toNat 0

/-- No fragment of a frame stands in front of further bytes: after a short write nothing more is
written, by this call or a later one. -/
def Aligned (calls : List SendCall) : Prop :=
  (calls.flatMap SendCall.attempts).Pairwise fun a b => a.Short → b.Silent

theorem sendLoop_eq {fd : Int} (hfd : 0 < fd) (f : Frame) (writes : Nat → WriteOutcome)
    (left iter : Nat) :
    sendLoop fd f.bytes writes left iter =
      (if (attemptsFrom f writes left iter).any (·.Full) then 0 else -1,
        (attemptsFrom f writes left iter).flatMap Attempt.chunk) := by
  induction left generalizing iter with
  | zero => rfl
  | succ left ih =>
    have hinfo : autolinkMcuSendinfo1 fd f.bytes (writes iter) =
        (if writes iter = none then -1 else ((⟨f, writes iter⟩ : Attempt).chunk.length : Int),
          (⟨f, writes iter⟩ : Attempt).chunk) := by
      cases h : writes iter with
      | none => rw [autolinkMcuSendinfo1, if_neg (Int.not_le.mpr hfd)]; rfl
      | some n => rw [sendinfo1_of_pos hfd]; rfl
    by_cases hfull : (⟨f, writes iter⟩ : Attempt).Full
    · have hsome : writes iter ≠ none := by
        intro h
        exact Attempt.not_full_of_silent (a := ⟨f, writes iter⟩) (by simp [Attempt.Silent, h]) hfull
      simp only [sendLoop, hinfo, if_neg hsome, attemptsFrom, if_pos hfull,
        Attempt.chunk_of_full hfull]
      simp [hfull, Attempt.chunk_of_full hfull]
    · have hret : ¬(if writes iter = none then -1
          else ((⟨f, writes iter⟩ : Attempt).chunk.length : Int)) = f.bytes.length := by
        split
        · omega
        · simp only [Attempt.Full, Attempt.chunk, List.length_take] at hfull ⊢
          omega
      simp only [sendLoop, hinfo, if_neg hret, ih, attemptsFrom, if_neg hfull]
      simp [hfull]

theorem sendLoop_closed {fd : Int} (hfd : fd ≤ 0) (reply : List UInt8)
    (writes : Nat → WriteOutcome) (left iter : Nat) :
    sendLoop fd reply writes left iter = (-1, []) := by
  induction left generalizing iter with
  | zero => rfl
  | succ left ih =>
    have hne : ¬(-1 : Int) = reply.length := by omega
    simp only [sendLoop, autolinkMcuSendinfo1, if_pos hfd, if_neg hne, ih]
    rfl

/-- The result of a call on an open descriptor. -/
def SendCall.result (c : SendCall) : Int := if c.attempts.any (·.Full) then 0 else -1

theorem sendAll_eq {fd : Int} (hfd : 0 < fd) (calls : List SendCall) :
    sendAll fd calls = .ok (calls.map SendCall.result,
      (calls.flatMap SendCall.attempts).flatMap Attempt.chunk) := by
  induction calls with
  | nil => rfl
  | cons c cs ih =>
    rw [sendAll_cons fd c cs ih, sendLoop_eq hfd, List.flatMap_cons, List.flatMap_append]
    rfl

theorem sendAll_closed {fd : Int} (hfd : fd ≤ 0) (calls : List SendCall) :
    sendAll fd calls = .ok (calls.map fun _ => -1, []) := by
  induction calls with
  | nil => rfl
  | cons c cs ih =>
    rw [sendAll_cons fd c cs ih, sendLoop_closed hfd]
    rfl

/-- A call makes at most one full write, and then returns 0. -/
theorem SendCall.full_attempts (c : SendCall) :
    (c.attempts.filter (·.Full)).map Attempt.frame = if c.result = 0 then [c.frame] else [] := by
  have aux : ∀ left iter,
      ((attemptsFrom c.frame c.writes left iter).filter (·.Full)).map Attempt.frame =
        if (attemptsFrom c.frame c.writes left iter).any (·.Full) then [c.frame] else [] := by
    intro left
    induction left with
    | zero => intro iter; rfl
    | succ left ih =>
      intro iter
      by_cases hfull : (⟨c.frame, c.writes iter⟩ : Attempt).Full
      · simp [attemptsFrom, hfull]
      · simpa [attemptsFrom, hfull] using ih (iter + 1)
  have hresult : c.result = 0 ↔ c.attempts.any (·.Full) = true := by
    rw [result]
    split <;> simp_all
  rw [attempts, aux]
  exact if_congr hresult.symm rfl rfl

theorem attemptsFrom_frame {f : Frame} {writes : Nat → WriteOutcome} {left iter : Nat}
    {a : Attempt} (h : a ∈ attemptsFrom f writes left iter) : a.frame = f := by
  induction left generalizing iter with
  | zero => cases h
  | succ left ih =>
    rw [attemptsFrom] at h
    split at h
    · rw [List.mem_singleton.mp h]
    · rcases List.mem_cons.mp h with rfl | h
      · rfl
      · exact ih h

/-- A fragment of a frame that fits is collected and reports nothing. -/
theorem read_fragment (f : WireFrame) {k : Nat} (hk : k < f.bytes.length) :
    framer.out [] (f.bytes.take k) = [] := by
  have hlast : InProgress f.bytes.dropLast := f.read.1 ▸ inProgress_final _
  have hpre : f.bytes.take k <+: f.bytes.dropLast := by
    rw [List.dropLast_eq_take]
    exact List.take_prefix_take_left (by omega)
  exact (hlast.of_isPrefix hpre).read.2

/-- Over attempts of which no fragment stands in front of further bytes, the collector reports
the frames that were written in full. -/
theorem framer_attempts {as : List Attempt} (hfit : ∀ a ∈ as, ∃ f : WireFrame, a.frame = f.toFrame)
    (h : as.Pairwise fun a b => a.Short → b.Silent) :
    successes (framer.out [] (as.flatMap Attempt.chunk)) =
      (as.filter (·.Full)).map Attempt.frame := by
  induction as with
  | nil => rfl
  | cons a as ih =>
    obtain ⟨hhead, htail⟩ := List.pairwise_cons.mp h
    obtain ⟨f, hf⟩ := hfit a List.mem_cons_self
    have ih := ih (fun b hb => hfit b (List.mem_cons_of_mem _ hb)) htail
    rw [List.flatMap_cons, Transducer.out_append]
    by_cases hfull : a.Full
    · have hread := f.final_out
      rw [← hf] at hread
      rw [Attempt.chunk_of_full hfull, hread.1, hread.2, List.filter_cons_of_pos (by simpa),
        List.map_cons, ← ih]
      rfl
    · rw [List.filter_cons_of_neg (by simpa)]
      by_cases hsilent : a.Silent
      · rw [Attempt.chunk_of_silent hsilent]
        exact ih
      · -- behind the fragment there is nothing, neither on the wire nor among the full writes
        have hrest : ∀ b ∈ as, b.Silent := fun b hb => hhead b hb ⟨hsilent, hfull⟩
        have hwire : as.flatMap Attempt.chunk = [] :=
          List.flatMap_eq_nil_iff.mpr fun b hb => Attempt.chunk_of_silent (hrest b hb)
        have hnone : as.filter (·.Full) = [] :=
          List.filter_eq_nil_iff.mpr fun b hb => by
            simpa using Attempt.not_full_of_silent (hrest b hb)
        have hfrag : framer.out [] a.chunk = [] := by
          rw [Attempt.chunk, hf]
          apply read_fragment
          rw [← hf]
          exact Nat.lt_of_not_le hfull
        rw [hwire, hnone, hfrag]
        rfl

/-- The successes reported for what a sequence of calls wrote are the messages of the calls that
returned 0, in call order. -/
def Delivers (fd : Int) (s : McuInfo) (calls : List SendCall) : Prop :=
  ∃ rs wire, sendAll fd calls = .ok (rs, wire) ∧
    successes (receiver.trace s wire) =
      ((calls.zip rs).filter fun p => p.2 = 0).map fun p => p.1.frame

/-- Delivery under short writes that leave no fragment in front of further bytes. -/
theorem delivers_of_aligned (fd : Int) (s : McuInfo) (hpos : s.pos = 0) (hflag : s.flag = 0)
    (calls : List SendCall) (hlen : ∀ c ∈ calls, c.len.toInt ≤ 119) (hal : Aligned calls) :
    Delivers fd s calls := by
  have hs : Collected s [] := .nil hflag hpos
  rcases Int.lt_or_le 0 fd with hfd | hfd
  · refine ⟨_, _, sendAll_eq hfd calls, ?_⟩
    have hfit : ∀ a ∈ calls.flatMap SendCall.attempts, ∃ f : WireFrame, a.frame = f.toFrame := by
      intro a ha
      obtain ⟨c, hc, ha⟩ := List.mem_flatMap.mp ha
      exact ⟨c.wireFrame (hlen c hc), attemptsFrom_frame ha⟩
    rw [receiver_refines.trace hs, framer_attempts hfit hal]
    clear hfit hal hlen
    induction calls with
    | nil => rfl
    | cons c cs ih =>
      rw [List.flatMap_cons, List.filter_append, List.map_append, ih, c.full_attempts,
        List.map_cons, List.zip_cons_cons, List.filter_cons]
      by_cases hr : c.result = 0 <;> simp [hr]
  · refine ⟨_, _, sendAll_closed hfd calls, ?_⟩
    have hnone : ((calls.zip (calls.map fun _ => (-1 : Int))).filter fun p => p.2 = 0) = [] := by
      rw [List.filter_eq_nil_iff]
      intro p hp
      obtain ⟨_, hp2⟩ := List.of_mem_zip hp
      obtain ⟨_, _, hp2⟩ := List.mem_map.mp hp2
      simp [← hp2]
    rw [hnone]
    rfl

/-- Two attempts, of which the first writes one byte and the second everything. -/
def shortFirst : SendCall where
  cmd1 := 0
  data := []
  len := 0
  len_nonneg := by decide
  len_le := by decide
  times := 2
  times_pos := by decide
  writes := fun i => if i = 0 then some 1 else some 255

/-- A full write, a failed one, and a fragment that nothing follows. -/
theorem delivers_three_calls :
    Delivers 1 mcuinfo [fullCall 1 [0xAA] 1 (by decide) (by decide),
      { shortFirst with writes := fun _ => none },
      { shortFirst with times := 1, times_pos := by decide, writes := fun _ => some 5 }] :=
  delivers_of_aligned 1 mcuinfo rfl rfl _ (by decide) (by unfold Aligned; decide)

/-- What follows a fragment may complete it by coincidence: here the first byte of the retry is the
missing data byte. -/
example : let c : SendCall := { shortFirst with
      data := [0xAA], len := 1, len_nonneg := by decide, len_le := by decide
      writes := fun i => if i = 0 then some 8 else some 255 }
    Delivers 1 mcuinfo [c] ∧ ¬Aligned [c] := by
  intro c
  refine ⟨⟨_, _, sendAll_eq (by decide) [c], ?_⟩, by unfold Aligned; decide⟩
  rw [receiver_refines.trace (.nil rfl rfl)]
  decide

/-- The retry behind a fragment of one byte returns 0, and its frame is lost: the receiver drops
the first byte of the retry as a bad second sync byte. -/
theorem shortFirst_lost :
    shortFirst.len.toInt ≤ 119 ∧ ¬Delivers 1 mcuinfo [shortFirst] := by
  refine ⟨by decide, ?_⟩
  rintro ⟨rs, wire, hsend, hsuccess⟩
  rw [sendAll_eq (by decide)] at hsend
  cases hsend
  rw [receiver_refines.trace (.nil rfl rfl)] at hsuccess
  revert hsuccess
  decide

end HeadUnit.Mcu
