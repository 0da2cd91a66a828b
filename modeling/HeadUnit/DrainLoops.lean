import HeadUnit.Gps.Thread
import HeadUnit.Mcu.Acceptance
import HeadUnit.Std.Drain

/-!
# The drain loops of the two threads

`gps_state_thread` and `autolink_mcu_service_thread` read what their device has until a call of
`read` fails. The loop for the MCU is left where a call returns 0 as well, the one for the GPS is
not: at the end of the file it reads on forever.
-/

namespace HeadUnit

/-! ## The GPS device -/

namespace Gps

variable {D : Type} [CDouble D]

/-- `nmea_reader_addc` for a byte and the time at which it is passed. -/
def addcPass (zone : Int) (cbs : GpsCallbacks) (p : NmeaReader D × List (Output D))
    (i : Clock × UInt8) : NmeaReader D × List (Output D) :=
  let next := nmeaReaderAddc zone cbs i.1 p.1 i.2
  (next.1, p.2 ++ next.2)

/-- One round of the loop for `gps_fd`. -/
def gpsDrainRound (zone : Int) (cbs : GpsCallbacks) (read : Nat → ReadResult (Clock × UInt8)) :
    DrainState (NmeaReader D × List (Output D)) → DrainState (NmeaReader D × List (Output D)) :=
  drainRound false (addcPass zone cbs) read

/-- The loop returns to `epoll_wait`, with the reader as it is behind all bytes received, each of
them read once and in order. -/
def GpsDrains (zone : Int) (cbs : GpsCallbacks) (read : Nat → ReadResult (Clock × UInt8))
    (r : NmeaReader D) : Prop :=
  ∃ n, While (·.left = false) (gpsDrainRound zone cbs read) ⟨0, false, (r, [])⟩
    ⟨n, true, ((reader zone cbs).final r (receivedUpTo read n),
      (reader zone cbs).out r (receivedUpTo read n))⟩

theorem foldl_addcPass (zone : Int) (cbs : GpsCallbacks) (r : NmeaReader D) (out : List (Output D))
    (is : List (Clock × UInt8)) :
    is.foldl (addcPass zone cbs) (r, out) =
      ((reader zone cbs).final r is, out ++ (reader zone cbs).out r is) := by
  induction is generalizing r out with
  | nil => rw [List.foldl_nil, Transducer.final_nil, Transducer.out_nil, List.append_nil]
  | cons i is ih =>
    have hpass : addcPass zone cbs (r, out) i =
        (((reader zone cbs).step r i).1, out ++ ((reader zone cbs).step r i).2) := rfl
    rw [List.foldl_cons, hpass, ih, Transducer.final_cons, Transducer.out_cons, List.append_assoc]

theorem gpsDrains_iff_drains (zone : Int) (cbs : GpsCallbacks)
    (read : Nat → ReadResult (Clock × UInt8)) (r : NmeaReader D) :
    GpsDrains zone cbs read r ↔ Drains false (addcPass zone cbs) read (r, []) := by
  refine exists_congr fun n => ?_
  rw [foldl_addcPass, List.nil_append]
  exact Iff.rfl

/-- Where the loop ends: where some call fails for another reason than an interruption. -/
theorem gpsDrains_iff (zone : Int) (cbs : GpsCallbacks)
    (read : Nat → ReadResult (Clock × UInt8)) (r : NmeaReader D) :
    GpsDrains zone cbs read r ↔ ∃ k err, err ≠ .eintr ∧ read k = .failed err := by
  rw [gpsDrains_iff_drains, drain_iff]
  refine exists_congr fun k => ?_
  cases read k with
  | data is => simp [ReadResult.Leaves]
  | failed err => simp [ReadResult.Leaves]

/-- The device is at the end of the file. -/
theorem not_gpsDrains_hangUp : QuietsDown (fun _ => .data [] : Nat → ReadResult (Clock × UInt8)) ∧
    ¬GpsDrains 0 ⟨false, false, false, false⟩ (fun _ => .data [])
      (nmeaReaderInit 0 ⟨0, 0, 0⟩ : NmeaReader ℚ) := by
  refine ⟨⟨0, fun _ _ => .inl rfl⟩, fun h => ?_⟩
  rw [gpsDrains_iff_drains, drain_iff] at h
  obtain ⟨k, hleaves⟩ := h
  simp [ReadResult.Leaves] at hleaves

end Gps

/-! ## The device of the MCU -/

namespace Mcu

/-- `autolink_mcu_parse` for a byte, up to a fault. -/
def parsePass (p : Except Fault McuInfo × List Report) (c : UInt8) :
    Except Fault McuInfo × List Report :=
  match p.1 with
  | .error _ => p
  | .ok s =>
    match autolinkMcuParse s c with
    | .error e => (.error e, p.2)
    | .ok (s, reports) => (.ok s, p.2 ++ reports)

/-- One round of the loop of `autolink_mcu_service_thread`. -/
def mcuDrainRound (read : Nat → ReadResult UInt8) :
    DrainState (Except Fault McuInfo × List Report) →
      DrainState (Except Fault McuInfo × List Report) :=
  drainRound true parsePass read

theorem foldl_parsePass_error (e : Fault) (reports : List Report) (cs : List UInt8) :
    cs.foldl parsePass (.error e, reports) = (.error e, reports) := by
  induction cs with
  | nil => rfl
  | cons c cs ih => exact ih

theorem foldl_parsePass (s : McuInfo) (reports : List Report) (cs : List UInt8) :
    cs.foldl parsePass (.ok s, reports) = (receiver.after s cs, reports ++ receiver.trace s cs) := by
  induction cs generalizing s reports with
  | nil => rw [List.foldl_nil, Machine.after, Machine.trace, List.append_nil]
  | cons c cs ih =>
    cases hstep : receiver.step s c with
    | error e =>
      have hpass : parsePass (.ok s, reports) c = (.error e, reports) := by
        have hparse : autolinkMcuParse s c = .error e := hstep
        simp only [parsePass, hparse]
      rw [List.foldl_cons, hpass, foldl_parsePass_error]
      simp only [Machine.after, Machine.trace, hstep, List.append_nil]
    | ok t =>
      have hpass : parsePass (.ok s, reports) c = (.ok t.1, reports ++ t.2) := by
        have hparse : autolinkMcuParse s c = .ok t := hstep
        simp only [parsePass, hparse]
      rw [List.foldl_cons, hpass, ih, receiver.after_cons_of_ok hstep,
        receiver.trace_cons_of_ok hstep, List.append_assoc]

/-- The loop ends, with the receiver as it is behind all bytes received, each of them read once and
in order and none with a fault. -/
def McuDrains (read : Nat → ReadResult UInt8) (s : McuInfo) : Prop :=
  ∃ n s', While (·.left = false) (mcuDrainRound read) ⟨0, false, (.ok s, [])⟩
      ⟨n, true, (.ok s', receiver.trace s (receivedUpTo read n))⟩ ∧
    receiver.after s (receivedUpTo read n) = .ok s'

theorem mcuDrains_iff_drains (fd : Int) (bs : List UInt8) (read : Nat → ReadResult UInt8)
    {s : McuInfo} (hs : receiver.after { mcuinfo with mcufd := fd } bs = .ok s) :
    McuDrains read s ↔ Drains true parsePass read (.ok s, []) := by
  refine exists_congr fun n => ?_
  -- What has been read before and now is a stream, which never faults.
  obtain ⟨s', hs', -⟩ := reachable_spec fd (bs ++ receivedUpTo read n)
  rw [receiver.after_append hs] at hs'
  rw [foldl_parsePass, List.nil_append, hs']
  constructor
  · rintro ⟨t, hloop, ht⟩
    obtain rfl := Except.ok.inj ht
    exact hloop
  · exact fun hloop => ⟨s', hloop, rfl⟩

/-- Whatever has been read before, the loop ends if and only if some call returns 0 or fails for
another reason than an interruption. -/
theorem mcuDrains_iff (fd : Int) (bs : List UInt8) (read : Nat → ReadResult UInt8) :
    ∃ s, receiver.after { mcuinfo with mcufd := fd } bs = .ok s ∧
      (McuDrains read s ↔
        ∃ k, read k = .data [] ∨ ∃ err, err ≠ .eintr ∧ read k = .failed err) := by
  obtain ⟨s, hs, -⟩ := reachable_spec fd bs
  refine ⟨s, hs, (mcuDrains_iff_drains fd bs read hs).trans ((drain_iff ..).trans ?_)⟩
  refine exists_congr fun k => ?_
  cases read k with
  | data is => simp [ReadResult.Leaves]
  | failed err => simp [ReadResult.Leaves]

end Mcu

end HeadUnit
