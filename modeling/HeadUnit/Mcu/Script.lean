import HeadUnit.Mcu.Link
import HeadUnit.Std.CString

/-!
# The script reader of the test host

`autolink_mcu_read_conf` sends one message for every `MCU-ARM:` line of a file. The loop is a run of
the machine `script` over what successive calls of `fgets` deliver; every access to the three
255-byte arrays is checked.
-/

namespace HeadUnit.Mcu

/-- `MCU_TO_ARM_FALG`, the text `MCU-ARM:`. -/
def mcuToArmFlag : List UInt8 := [0x4D, 0x43, 0x55, 0x2D, 0x41, 0x52, 0x4D, 0x3A]

/-- What ends the program before the end of the file. -/
inductive Stop where
  | fault (f : Fault)
  | exit

/-- Faults of an access stop the program. -/
def checked {α : Type} : Except Fault α → Except Stop α
  | .error f => .error (.fault f)
  | .ok a => .ok a

/-! ## Fields -/

/-- The digit cases of `HexStrToChar`; `none` for its call of `exit`. -/
def hexDigit (c : UInt8) : Option UInt8 :=
  if 0x30 ≤ c ∧ c ≤ 0x39 then some (c - 48)
  else if 0x41 ≤ c ∧ c ≤ 0x46 then some (c - 65 + 10)
  else if 0x61 ≤ c ∧ c ≤ 0x66 then some (c - 97 + 10)
  else none

def hexLoop : List UInt8 → (i : Nat) → (result : UInt8) → Option UInt8
  | [], _, result => some result
  | c :: str, i, result =>
    match hexDigit c with
    | none => none
    | some var => hexLoop str (i + 1) (result ||| if i = 0 then var <<< 4 else var)

/-- The value of a field; `none` if the function exits. -/
def hexStrToChar (str : List UInt8) : Option UInt8 :=
  if str.length > 2 then none else hexLoop str 0 0

/-- What successive calls of `strsep(&temp, ",")` return for the string in `data`, and `data`
with the commas overwritten. -/
def strsepAll (data : Vector UInt8 255) : Except Fault (List (List UInt8) × Vector UInt8 255) := do
  let n ← Mem.strlen data.toList
  return ((data.toList.take n).splitOn 0x2C,
    data.mapFinIdx fun i c _ => if i < n ∧ c = 0x2C then 0 else c)

/-- The loop over the fields of a line. `i` counts them: field 0 is the command, field `i` goes to
`msg_data[i - 1]`. -/
def fieldLoop : List (List UInt8) → (i : Nat) → (cmd : UInt8) → (msgData : Vector UInt8 255) →
    Except Stop (Nat × UInt8 × Vector UInt8 255)
  | [], i, cmd, msgData => .ok (i, cmd, msgData)
  | p :: ps, i, cmd, msgData =>
    match hexStrToChar p with
    | none => .error .exit
    | some num =>
      if i = 0 then fieldLoop ps (i + 1) num msgData
      else
        match Mem.store msgData (i - 1) num with
        | .error f => .error (.fault f)
        | .ok msgData => fieldLoop ps (i + 1) cmd msgData

/-! ## Lines -/

/-- `fgets` with room for `room` more characters: what it stores, what is left of the stream and
whether it met the end of the file. -/
def fgets : (room : Nat) → List UInt8 → List UInt8 × List UInt8 × Bool
  | 0, stream => ([], stream, false)
  | _ + 1, [] => ([], [], true)
  | room + 1, c :: stream =>
    if c = 0x0A then ([c], stream, false)
    else
      let (line, rest, eof) := fgets room stream
      (c :: line, rest, eof)

theorem fgets_rest (room : Nat) (stream : List UInt8) :
    (fgets room stream).1 ++ (fgets room stream).2.1 = stream ∧
      (fgets room stream).1.length ≤ room := by
  induction room generalizing stream with
  | zero => exact ⟨rfl, Nat.le_refl 0⟩
  | succ room ih =>
    cases stream with
    | nil => exact ⟨rfl, Nat.zero_le _⟩
    | cons c stream =>
      rw [fgets]
      split
      case isTrue => exact ⟨rfl, Nat.le_add_left 1 room⟩
      case isFalse =>
        exact ⟨congrArg (c :: ·) (ih stream).1, Nat.succ_le_succ (ih stream).2⟩

/-- A call that does not meet the end of the file takes something from the stream. -/
theorem fgets_rest_lt {room : Nat} {stream : List UInt8}
    (h : (fgets (room + 1) stream).2.2 = false) :
    (fgets (room + 1) stream).2.1.length < stream.length := by
  cases stream with
  | nil => cases h
  | cons c stream =>
    have hlen := congrArg List.length (fgets_rest (room + 1) (c :: stream)).1
    rw [List.length_append] at hlen
    have hpos : 0 < (fgets (room + 1) (c :: stream)).1.length := by
      rw [fgets]
      split <;> exact Nat.succ_pos _
    omega

/-- A line that fits is read as a whole. -/
theorem fgets_line {w : List UInt8} (h : 0x0A ∉ w) {room : Nat} (hlen : w.length < room) :
    (∀ xs, fgets room (w ++ 0x0A :: xs) = (w ++ [0x0A], xs, false)) ∧
      fgets room w = (w, [], true) := by
  induction w generalizing room with
  | nil =>
    obtain ⟨room, rfl⟩ : ∃ k, room = k + 1 := ⟨room - 1, by simp at hlen; omega⟩
    exact ⟨fun xs => rfl, rfl⟩
  | cons c w ih =>
    obtain ⟨room, rfl⟩ : ∃ k, room = k + 1 := ⟨room - 1, by omega⟩
    have hc : c ≠ 0x0A := fun hc => h (hc ▸ List.mem_cons_self)
    obtain ⟨hline, hlast⟩ := ih (fun hw => h (List.mem_cons_of_mem c hw)) (Nat.lt_of_succ_lt_succ hlen)
    constructor
    · intro xs
      rw [List.cons_append, fgets, if_neg hc, hline]
      rfl
    · rw [fgets, if_neg hc, hlast]

/-- A line that is too long is read in part. -/
theorem fgets_full {w : List UInt8} (h : 0x0A ∉ w) (xs : List UInt8) :
    fgets w.length (w ++ xs) = (w, xs, false) := by
  induction w with
  | nil => rfl
  | cons c w ih =>
    have hc : c ≠ 0x0A := fun hc => h (hc ▸ List.mem_cons_self)
    rw [List.length_cons, List.cons_append, fgets, if_neg hc,
      ih fun hw => h (List.mem_cons_of_mem c hw)]

/-- The lines the loop `while(!feof(fp))` gets to see. -/
def fgetsAll (stream : List UInt8) : List (List UInt8) :=
  if _h : (fgets 254 stream).2.2 = false then
    (fgets 254 stream).1 :: fgetsAll (fgets 254 stream).2.1
  else [(fgets 254 stream).1]
termination_by stream.length
decreasing_by exact fgets_rest_lt _h

/-- The cleared `buf` after a call of `fgets`, which leaves it alone if it gets nothing. -/
def readLine (line : List UInt8) : Except Fault (Vector UInt8 255) :=
  let buf := Vector.replicate 255 0
  if line = [] then .ok buf else Mem.copyInto buf (line ++ [0]) (line.length + 1)

def IsEol (c : UInt8) : Prop := c = 0x0D ∨ c = 0x0A

instance (c : UInt8) : Decidable (IsEol c) := inferInstanceAs (Decidable (_ ∨ _))

/-- The loop that overwrites the end of the line. -/
def trimLine : (i : Nat) → Vector UInt8 255 → Except Fault (Vector UInt8 255)
  | 0, buf => .ok buf
  | i + 1, buf => do
    let c ← Mem.load buf.toList i
    if IsEol c ∨ c = 0 then
      let buf ← Mem.store buf i 0
      trimLine i buf
    else return buf

/-- The locals that keep their contents from line to line. `sent` counts the messages. -/
structure Locals where
  data : Vector UInt8 255
  msgData : Vector UInt8 255
  cmd : UInt8
  sent : Nat

/-- What is done for a line: the size given to `memcpy`, the number of payload fields, the length
passed to `autolink_mcu_send_msg1` and what that puts on the wire. -/
structure LineSent where
  copied : Int8
  payload : Nat
  len : Int8
  wire : List UInt8
  deriving DecidableEq, Repr

/-- The end of the loop body, for a line `buf` that holds a message. -/
def sendLine (fd : Int) (writes : Nat → WriteOutcome) (v : Locals) (buf : Vector UInt8 255)
    (len : Int8) : Except Stop (Locals × List LineSent) := do
  let data ← checked (Mem.copyInto v.data (buf.toList.drop mcuToArmFlag.length)
    (len.toInt % 2 ^ 64).toNat)
  let (fields, data) ← checked (strsepAll data)
  let (i, cmd, msgData) ← fieldLoop fields 0 v.cmd v.msgData
  let msgLen := Int8.ofInt (i - 1)
  let (_, wire) ← checked
    (autolinkMcuSendMsg1 fd 1 cmd msgData.toList msgLen fun _ => writes v.sent)
  return ({ data, msgData, cmd, sent := v.sent + 1 }, [⟨len, fields.length - 1, msgLen, wire⟩])

/-- The body of the loop, for the line delivered by `fgets`. -/
def confLine (fd : Int) (writes : Nat → WriteOutcome) (v : Locals) (line : List UInt8) :
    Except Stop (Locals × List LineSent) := do
  let buf ← checked (readLine line)
  if buf[0] = 0x23 ∨ IsEol buf[0] then return (v, [])
  else
    let n ← checked (Mem.strlen buf.toList)
    let buf ← checked (trimLine n buf)
    let n ← checked (Mem.strlen buf.toList)
    let len := Int8.ofInt (n + 1)
    -- `strncmp` stops at a NUL, which the flag does not have
    if buf.toList.take mcuToArmFlag.length ≠ mcuToArmFlag then return (v, [])
    else sendLine fd writes v buf len

/-- `autolink_mcu_read_conf` on the lines of a file; `writes` gives what `write` does with each
message. -/
def script (fd : Int) (writes : Nat → WriteOutcome) : Machine Stop Locals (List UInt8) LineSent :=
  ⟨confLine fd writes⟩

end HeadUnit.Mcu
