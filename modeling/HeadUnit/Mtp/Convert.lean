import HeadUnit.Mcu.Script
import HeadUnit.Std.Search

/-!
# From udev rules to the MTP table

The conversion loop of `mtp.c`. A line is read in pieces of 255 characters, and each piece is taken
for a line of its own.
-/

namespace HeadUnit.Mtp

open Mcu (fgets fgets_rest_lt IsEol)
open Mem (strstr strcat strncat)

/-- `idVendor` -/
def idVendor : List UInt8 := [0x69, 0x64, 0x56, 0x65, 0x6E, 0x64, 0x6F, 0x72]

/-- `idProduct` -/
def idProduct : List UInt8 := [0x69, 0x64, 0x50, 0x72, 0x6F, 0x64, 0x75, 0x63, 0x74]

/-- `==` -/
def flag : List UInt8 := [0x3D, 0x3D]

/-- The pieces that the loop `while(!feof(fp_read))` gets to see. -/
def pieces (stream : List UInt8) : List (List UInt8) :=
  if _h : (fgets 255 stream).2.2 = false then
    (fgets 255 stream).1 :: pieces (fgets 255 stream).2.1
  else [(fgets 255 stream).1]
termination_by stream.length
decreasing_by exact fgets_rest_lt _h

/-- `read_buf` with a piece: cleared first, and left alone at the end of the file. -/
def readBuf (piece : List UInt8) : List UInt8 := piece ++ List.replicate (256 - piece.length) 0

/-- Append to `write_buf` what is four characters long from the third one behind the flag on. -/
def appendField (readBuf name writeBuf : List UInt8) : Except Fault (List UInt8) := do
  let data ← strstr name readBuf
  let data ← strstr flag (data.getD [])
  strncat 256 writeBuf ((data.getD []).drop 3) 4

/-- The line that is written for a piece with both names. -/
def writeEntry (readBuf : List UInt8) : Except Fault (List UInt8) := do
  let writeBuf ← strcat 256 [] (idVendor ++ [0x3A])
  let writeBuf ← appendField readBuf idVendor writeBuf
  let writeBuf ← strcat 256 writeBuf [0x2C]
  let writeBuf ← strcat 256 writeBuf (idProduct ++ [0x3A])
  let writeBuf ← appendField readBuf idProduct writeBuf
  strcat 256 writeBuf [0x0A]

/-- The body of the loop: what is written. -/
def convertPiece (piece : List UInt8) : Except Fault (List UInt8) := do
  let c ← Mem.load (readBuf piece) 0
  if c = 0x23 ∨ IsEol c then return []
  else
    match ← strstr idVendor (readBuf piece) with
    | none => return []
    | some _ =>
      match ← strstr idProduct (readBuf piece) with
      | none => return []
      | some _ => writeEntry (readBuf piece)

def convertPieces : List (List UInt8) → Except Fault (List UInt8)
  | [] => .ok []
  | piece :: rest =>
    match convertPiece piece with
    | .error f => .error f
    | .ok out =>
      match convertPieces rest with
      | .error f => .error f
      | .ok outs => .ok (out ++ outs)

/-- The file that `main` writes. -/
def convert (file : List UInt8) : Except Fault (List UInt8) := convertPieces (pieces file)

end HeadUnit.Mtp
