import HeadUnit.Std.Decimal

/-!
# The NMEA tokenizer

`nmea_tokenizer_init`, `nmea_tokenizer_get`, `str2int` and `str2float` of `gps_neu.c`. A C pointer
is an offset into the object it points into, so that a token keeps the bytes around it: `p[0]` of
an empty field is the separator behind it, and `str2float` reads one byte past its token.
-/

namespace HeadUnit.Gps

/-- `Token`: `p` and `end`, here `stop`, point into `mem`. -/
structure Token where
  mem : List UInt8
  p : Nat
  stop : Nat
  deriving DecidableEq, Repr

namespace Token

/-- `p[0]`. -/
def char0 (tok : Token) : UInt8 := tok.mem.getD tok.p 0

end Token

/-- The token returned for an index without a token: both pointers at the string `""`. -/
def dummy : Token := ⟨[0], 0, 0⟩

def maxNmeaTokens : Nat := 32

/-- `memchr(mem + p, c, stop - p)`. -/
def memchr (mem : List UInt8) (p stop : Nat) (c : UInt8) : Option Nat :=
  (((mem.drop p).take (stop - p)).findIdx? (· = c)).map (p + ·)

/-- The loop `while (p < end)`. `left` bounds its iterations: `p` grows in each of them. -/
def tokenLoop (mem : List UInt8) (stop : Nat) : (left p count : Nat) → List Token
  | 0, _, _ => []
  | left + 1, p, count =>
    if p < stop then
      let q := (memchr mem p stop 0x2C).getD stop
      let next := if q < stop then q + 1 else q
      if count < maxNmeaTokens then ⟨mem, p, q⟩ :: tokenLoop mem stop left next (count + 1)
      else tokenLoop mem stop left next count
    else []

/-- `p` behind an optional `$`. -/
def skipDollar (mem : List UInt8) (p stop : Nat) : Nat :=
  if p < stop ∧ mem.getD p 0 = 0x24 then p + 1 else p

/-- `end` before LF or CRLF. -/
def trimNewline (mem : List UInt8) (p stop : Nat) : Nat :=
  if stop > p ∧ mem.getD (stop - 1) 0 = 0x0A then
    if stop - 1 > p ∧ mem.getD (stop - 1 - 1) 0 = 0x0D then stop - 1 - 1 else stop - 1
  else stop

/-- `end` before `*` with two characters. -/
def trimChecksum (mem : List UInt8) (p stop : Nat) : Nat :=
  if stop ≥ p + 3 ∧ mem.getD (stop - 3) 0 = 0x2A then stop - 3 else stop

/-- The tokens recorded; the C function also stores and returns their number. -/
def nmeaTokenizerInit (mem : List UInt8) (p stop : Nat) : List Token :=
  let p := skipDollar mem p stop
  let stop := trimNewline mem p stop
  let stop := trimChecksum mem p stop
  tokenLoop mem stop (stop - p) p 0

def nmeaTokenizerGet (t : List Token) (index : Int) : Token :=
  if index < 0 ∨ index ≥ t.length then dummy else t.getD index.toNat dummy

/-! ## Numbers -/

/-- The loop of `str2int` over the remaining `len` bytes, with `int` arithmetic. -/
def str2intLoop (mem : List UInt8) (stop : Nat) : (len p : Nat) → Int → Int
  | 0, _, result => result
  | len + 1, p, result =>
    if p ≥ stop then -1
    else
      -- `(unsigned) c >= 10` also holds of the negative values
      let c : Int := (mem.getD p 0).toNat - 48
      if c < 0 ∨ c ≥ 10 then -1
      else str2intLoop mem stop len (p + 1) (wrap32 (result * 10 + c))

def str2int (mem : List UInt8) (p stop : Nat) : Int :=
  let len : Int := stop - p
  if len = 0 then -1 else str2intLoop mem stop len.toNat p 0

variable {D : Type} [CDouble D]

/-- `len` is one more than the distance of the pointers; `strtod` reads up to a NUL. -/
def str2float (mem : List UInt8) (p stop : Nat) : D :=
  let len : Int := stop - p + 1
  if len = 0 then CDouble.ofInt (-1)
  else if len ≥ 32 then CDouble.ofInt 0
  else CDouble.strtod (((mem.drop p).take len.toNat).takeWhile (· ≠ 0))

end HeadUnit.Gps
