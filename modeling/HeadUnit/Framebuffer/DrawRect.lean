import HeadUnit.Std.Block

/-!
# Drawing rectangles

`drawRect` of the framebuffer test program and its three loops, for 32, 16 and 15 bits a pixel. A
typed pointer into the frame buffer is an index of pixels, and every write to the buffer is checked.
-/

namespace HeadUnit.Framebuffer

/-- What is used of `finfo` and `vinfo`. -/
structure ScreenInfo where
  lineLength : UInt32
  smemLen : UInt32
  xres : UInt32
  yres : UInt32
  xoffset : UInt32
  yoffset : UInt32
  bitsPerPixel : UInt32
  deriving DecidableEq, Repr

/-- An `int` as an `unsigned`. -/
def toU32 (z : Int) : Nat := (z % 2 ^ 32).toNat

/-- The `n` bytes of a number, the lowest one first. -/
def littleEndian (n : Nat) {w : Nat} (v : BitVec w) : List UInt8 :=
  (List.range n).map fun k => .ofBitVec (v.extractLsb' (8 * k) 8)

/-- The loop over `x`, of which `left` rounds are left. -/
def columnLoop (value : List UInt8) (dest : Nat) : (left x : Nat) → Block → Except Fault Block
  | 0, _, fb => .ok fb
  | left + 1, x, fb => do
    let fb ← fb.write ((dest + x) * value.length) value
    columnLoop value dest left (x + 1) fb

/-- The loop over `y`, of which `left` rounds are left. -/
def rowLoop (value : List UInt8) (stride width : Nat) :
    (left dest : Nat) → Block → Except Fault Block
  | 0, _, fb => .ok fb
  | left + 1, dest, fb => do
    let fb ← columnLoop value dest width 0 fb
    rowLoop value stride width left (dest + stride) fb

/-- What the three functions share, with the bytes of a pixel. -/
def drawPixels (g : ScreenInfo) (bytesPerPixel : Nat) (value : List UInt8)
    (x0 y0 width height : Int) (fb : Block) : Except Fault Block :=
  let stride := g.lineLength.toNat / bytesPerPixel
  let dest := toU32 (y0 + g.yoffset.toNat) * stride % 2 ^ 32 + toU32 (x0 + g.xoffset.toNat)
  rowLoop value stride width.toNat height.toNat dest fb

def drawRectRgb32 (g : ScreenInfo) (x0 y0 width height : Int) (color : BitVec 32) (fb : Block) :
    Except Fault Block :=
  drawPixels g 4 (littleEndian 4 color) x0 y0 width height fb

def color16 (color : BitVec 32) : BitVec 16 :=
  let red := (color &&& 0xff0000) >>> (16 + 3)
  let green := (color &&& 0xff00) >>> (8 + 2)
  let blue := (color &&& 0xff) >>> 3
  (blue ||| (green <<< 5) ||| (red <<< (5 + 6))).setWidth 16

def drawRectRgb16 (g : ScreenInfo) (x0 y0 width height : Int) (color : BitVec 32) (fb : Block) :
    Except Fault Block :=
  drawPixels g 2 (littleEndian 2 (color16 color)) x0 y0 width height fb

def color15 (color : BitVec 32) : BitVec 16 :=
  let red := (color &&& 0xff0000) >>> (16 + 3)
  let green := (color &&& 0xff00) >>> (8 + 3)
  let blue := (color &&& 0xff) >>> 3
  (blue ||| (green <<< 5) ||| (red <<< (5 + 5)) ||| 0x8000).setWidth 16

def drawRectRgb15 (g : ScreenInfo) (x0 y0 width height : Int) (color : BitVec 32) (fb : Block) :
    Except Fault Block :=
  drawPixels g 2 (littleEndian 2 (color15 color)) x0 y0 width height fb

/-- Any other depth is warned about. -/
def drawRect (g : ScreenInfo) (x0 y0 width height : Int) (color : BitVec 32) (fb : Block) :
    Except Fault Block :=
  if g.bitsPerPixel = 32 then drawRectRgb32 g x0 y0 width height color fb
  else if g.bitsPerPixel = 16 then drawRectRgb16 g x0 y0 width height color fb
  else if g.bitsPerPixel = 15 then drawRectRgb15 g x0 y0 width height color fb
  else .ok fb

/-- The three rectangles that `main` draws. The coordinates are computed as `unsigned`; what is
passed is less than 2^31. -/
def drawRectangles (g : ScreenInfo) (fb : Block) : Except Fault Block := do
  let width : Int := (g.xres / 4).toNat
  let height : Int := (g.yres / 4).toNat
  let fb ← drawRect g (g.xres / 8).toNat (g.yres / 8).toNat width height 0xffff0000 fb
  let fb ← drawRect g (g.xres * 3 / 8).toNat (g.yres * 3 / 8).toNat width height 0xff00ff00 fb
  drawRect g (g.xres * 5 / 8).toNat (g.yres * 5 / 8).toNat width height 0xff0000ff fb

end HeadUnit.Framebuffer
