import HeadUnit.Framebuffer.DrawRect
import Mathlib.Tactic.IntervalCases
import Mathlib.Tactic.Ring

/-!
# What a rectangle touches

Drawing a rectangle writes the packed colour to its pixels and to nothing else, and the three
rectangles of `main` neither leave the screen nor overlap.
-/

namespace HeadUnit.Framebuffer

variable {g : ScreenInfo} {fb fb' : Block} {color : BitVec 32}

/-! ## Pixels -/

/-- A rectangle in screen coordinates, none of them negative. -/
structure Rectangle where
  x0 : Nat
  y0 : Nat
  width : Nat
  height : Nat

def bytesPerPixel (g : ScreenInfo) : Nat := if g.bitsPerPixel = 32 then 4 else 2

/-- The address of the pixel `(x, y)`. -/
def pixelAt (g : ScreenInfo) (x y : Nat) : Nat :=
  (y + g.yoffset.toNat) * g.lineLength.toNat + (x + g.xoffset.toNat) * bytesPerPixel g

/-- A colour 8-8-8-8 packed as 8-8-8-8, as 5-6-5 or as 1-5-5-5. -/
def packedColor (g : ScreenInfo) (color : BitVec 32) : List UInt8 :=
  let red := color.extractLsb' 19 5
  let blue := color.extractLsb' 3 5
  if g.bitsPerPixel = 32 then littleEndian 4 color
  else if g.bitsPerPixel = 16 then littleEndian 2 (red ++ color.extractLsb' 10 6 ++ blue)
  else littleEndian 2 (1#1 ++ red ++ color.extractLsb' 11 5 ++ blue)

namespace Rectangle

def HasPixel (r : Rectangle) (x y : Nat) : Prop :=
  (r.x0 ≤ x ∧ x < r.x0 + r.width) ∧ r.y0 ≤ y ∧ y < r.y0 + r.height

/-- The address `a` belongs to a pixel of `r`. -/
def Covers (g : ScreenInfo) (r : Rectangle) (a : Nat) : Prop :=
  ∃ x y k, r.HasPixel x y ∧ k < bytesPerPixel g ∧ a = pixelAt g x y + k

/-- `r` lies inside of a line and inside of the buffer. -/
structure Fits (g : ScreenInfo) (r : Rectangle) : Prop where
  line : r.x0 + g.xoffset.toNat + r.width ≤ g.lineLength.toNat / bytesPerPixel g
  buffer : (r.y0 + g.yoffset.toNat + r.height) * g.lineLength.toNat ≤ g.smemLen.toNat

end Rectangle

/-- `fb'` is `fb` with the pixels of `r` in the given colour. -/
structure Draws (g : ScreenInfo) (r : Rectangle) (color : BitVec 32) (fb fb' : Block) : Prop where
  size_eq : fb'.size = fb.size
  pixel : ∀ x y k, r.HasPixel x y → k < bytesPerPixel g →
    fb'.byte (pixelAt g x y + k) = (packedColor g color).getD k 0
  frame : ∀ a, ¬r.Covers g a → fb'.byte a = fb.byte a

/-! ## The colours -/

@[simp] theorem littleEndian_length (n : Nat) {w : Nat} (v : BitVec w) :
    (littleEndian n v).length = n := by simp [littleEndian]

theorem color16_eq (color : BitVec 32) :
    color16 color =
      color.extractLsb' 19 5 ++ color.extractLsb' 10 6 ++ color.extractLsb' 3 5 := by
  apply BitVec.eq_of_getLsbD_eq
  intro i hi
  rw [color16]
  simp only [BitVec.getLsbD_append, BitVec.getLsbD_extractLsb', BitVec.getLsbD_setWidth,
    BitVec.getLsbD_or, BitVec.getLsbD_and, BitVec.getLsbD_shiftLeft, BitVec.getLsbD_ushiftRight]
  interval_cases i <;> simp

theorem color15_eq (color : BitVec 32) :
    color15 color =
      1#1 ++ color.extractLsb' 19 5 ++ color.extractLsb' 11 5 ++ color.extractLsb' 3 5 := by
  apply BitVec.eq_of_getLsbD_eq
  intro i hi
  rw [color15]
  simp only [BitVec.getLsbD_append, BitVec.getLsbD_extractLsb', BitVec.getLsbD_setWidth,
    BitVec.getLsbD_or, BitVec.getLsbD_and, BitVec.getLsbD_shiftLeft, BitVec.getLsbD_ushiftRight]
  interval_cases i <;> simp

theorem bytesPerPixel_pos (g : ScreenInfo) : 0 < bytesPerPixel g := by
  rw [bytesPerPixel]
  split <;> decide

theorem packedColor_length (g : ScreenInfo) (color : BitVec 32) :
    (packedColor g color).length = bytesPerPixel g := by
  rw [packedColor, bytesPerPixel]
  split
  · simp
  · split <;> simp

/-- The three functions are one, at the packed colour. -/
theorem drawRect_eq
    (hdepth : g.bitsPerPixel = 32 ∨ g.bitsPerPixel = 16 ∨ g.bitsPerPixel = 15)
    (x0 y0 width height : Int) (color : BitVec 32) (fb : Block) :
    drawRect g x0 y0 width height color fb =
      drawPixels g (bytesPerPixel g) (packedColor g color) x0 y0 width height fb := by
  rcases hdepth with h | h | h
  · simp [drawRect, drawRectRgb32, packedColor, bytesPerPixel, h]
  · simp [drawRect, drawRectRgb16, packedColor, bytesPerPixel, h, color16_eq]
  · simp [drawRect, drawRectRgb15, packedColor, bytesPerPixel, h, color15_eq]

/-! ## The loops -/

section Loops

variable {value : List UInt8}

/-- The byte at `a` where every pixel is `value`. -/
def cell (value : List UInt8) (a : Nat) : UInt8 := value.getD (a % value.length) 0

theorem cell_pixel {i k : Nat} (hk : k < value.length) :
    cell value (i * value.length + k) = value.getD k 0 := by
  rw [cell, Nat.mul_comm, Nat.mul_add_mod, Nat.mod_eq_of_lt hk]

theorem columnLoop_paints {dest left x : Nat}
    (h : (dest + x + left) * value.length ≤ fb.size) :
    ∃ fb', columnLoop value dest left x fb = .ok fb' ∧
      fb.Paints (fun a => (dest + x) * value.length ≤ a ∧ a < (dest + x + left) * value.length)
        (cell value) fb' := by
  induction left generalizing x fb with
  | zero =>
    exact ⟨fb, rfl, .refl fun a ha => absurd (Nat.lt_of_le_of_lt ha.1 ha.2) (Nat.lt_irrefl _)⟩
  | succ left ih =>
    have hstep : (dest + (x + 1)) * value.length = (dest + x) * value.length + value.length := by
      ring
    have hrest : (dest + x + (left + 1)) * value.length =
        (dest + x) * value.length + value.length + left * value.length := by ring
    have hsame : dest + (x + 1) + left = dest + x + (left + 1) := by omega
    obtain ⟨fb', hrun, hpaint⟩ := @ih (fb.put ((dest + x) * value.length) value) (x + 1)
      (by rw [hsame]; exact h)
    refine ⟨fb', ?_, ?_⟩
    · rw [columnLoop, Block.write_eq_ok (by omega)]
      exact hrun
    · have hput : fb.Paints _ (cell value) (fb.put ((dest + x) * value.length) value) :=
        .put fun i hi => (cell_pixel hi).symm
      refine (hput.trans hpaint).congr fun a => ?_
      rw [hsame, hstep, hrest]
      omega

theorem rowLoop_paints {stride width left dest : Nat}
    (h : ∀ j < left, (dest + j * stride + width) * value.length ≤ fb.size) :
    ∃ fb', rowLoop value stride width left dest fb = .ok fb' ∧
      fb.Paints (fun a => ∃ j < left, (dest + j * stride) * value.length ≤ a ∧
        a < (dest + j * stride + width) * value.length) (cell value) fb' := by
  induction left generalizing dest fb with
  | zero => exact ⟨fb, rfl, .refl fun a ⟨j, hj, _⟩ => absurd hj (Nat.not_lt_zero j)⟩
  | succ left ih =>
    obtain ⟨fb₁, hrow, hpaint⟩ := @columnLoop_paints fb value dest width 0
      (by simpa using h 0 (Nat.succ_pos left))
    have hnext : ∀ j, dest + stride + j * stride = dest + (j + 1) * stride := fun j => by ring
    obtain ⟨fb', hrun, hrest⟩ := @ih fb₁ (dest + stride) fun j hj => by
      rw [hnext, hpaint.size_eq]
      exact h (j + 1) (Nat.succ_lt_succ hj)
    refine ⟨fb', ?_, (hpaint.trans hrest).congr fun a => ?_⟩
    · rw [rowLoop, hrow]
      exact hrun
    · simp only [hnext, Nat.add_zero]
      constructor
      · rintro (hfirst | ⟨j, hj, hlater⟩)
        · exact ⟨0, Nat.succ_pos left, by simpa using hfirst⟩
        · exact ⟨j + 1, Nat.succ_lt_succ hj, hlater⟩
      · rintro ⟨j, hj, ha⟩
        cases j with
        | zero => exact .inl (by simpa using ha)
        | succ j => exact .inr ⟨j, Nat.lt_of_succ_lt_succ hj, ha⟩

end Loops

/-! ## One rectangle -/

section Rectangle

variable {r : Rectangle}

theorem toU32_natCast {n : Nat} (h : n < 2 ^ 32) : toU32 n = n := by
  rw [toU32]
  omega

/-- Pixels in a line. -/
def stride (g : ScreenInfo) : Nat := g.lineLength.toNat / bytesPerPixel g

theorem stride_mul (hline : bytesPerPixel g ∣ g.lineLength.toNat) :
    stride g * bytesPerPixel g = g.lineLength.toNat := Nat.div_mul_cancel hline

/-- The first pixel, counted from the beginning of the buffer. -/
def Rectangle.dest (g : ScreenInfo) (r : Rectangle) : Nat :=
  (r.y0 + g.yoffset.toNat) * stride g + (r.x0 + g.xoffset.toNat)

/-- A pixel of a rectangle by its column and its row in there. -/
theorem Rectangle.pixelAt_eq (hline : bytesPerPixel g ∣ g.lineLength.toNat) (r : Rectangle)
    (i j : Nat) :
    pixelAt g (r.x0 + i) (r.y0 + j) = (r.dest g + j * stride g + i) * bytesPerPixel g := by
  rw [pixelAt, ← stride_mul hline, Rectangle.dest]
  ring

/-- For a rectangle that fits, nothing overflows. -/
theorem Rectangle.Fits.dest_eq (hr : r.Fits g) :
    toU32 (r.y0 + g.yoffset.toNat) * stride g % 2 ^ 32 + toU32 (r.x0 + g.xoffset.toNat) =
      r.dest g := by
  have hstride : stride g ≤ g.lineLength.toNat := Nat.div_le_self ..
  have hlen : g.lineLength.toNat < 2 ^ 32 := g.lineLength.toNat_lt
  have hend : r.x0 + g.xoffset.toNat + r.width ≤ stride g := hr.line
  have hx : toU32 (r.x0 + g.xoffset.toNat) = r.x0 + g.xoffset.toNat := toU32_natCast (by omega)
  rw [hx, Rectangle.dest]
  congr 1
  rcases Nat.eq_zero_or_pos (stride g) with hzero | hpos
  · rw [hzero, Nat.mul_zero, Nat.mul_zero, Nat.zero_mod]
  · have hrows : (r.y0 + g.yoffset.toNat) * stride g < 2 ^ 32 :=
      calc (r.y0 + g.yoffset.toNat) * stride g
          ≤ (r.y0 + g.yoffset.toNat + r.height) * g.lineLength.toNat :=
            Nat.mul_le_mul (Nat.le_add_right ..) hstride
        _ ≤ g.smemLen.toNat := hr.buffer
        _ < 2 ^ 32 := g.smemLen.toNat_lt
    have hy : toU32 (r.y0 + g.yoffset.toNat) = r.y0 + g.yoffset.toNat :=
      toU32_natCast (Nat.lt_of_le_of_lt (Nat.le_mul_of_pos_right _ hpos) hrows)
    rw [hy, Nat.mod_eq_of_lt hrows]

/-- A row of a rectangle that fits ends inside of the buffer. -/
theorem Rectangle.Fits.row_le (hline : bytesPerPixel g ∣ g.lineLength.toNat) (hr : r.Fits g)
    {j : Nat} (hj : j < r.height) :
    (r.dest g + j * stride g + r.width) * bytesPerPixel g ≤ g.smemLen.toNat := by
  have hrow : (j + 1) * stride g ≤ r.height * stride g := Nat.mul_le_mul_right _ hj
  have hend : r.x0 + g.xoffset.toNat + r.width ≤ stride g := hr.line
  calc (r.dest g + j * stride g + r.width) * bytesPerPixel g
      ≤ (r.y0 + g.yoffset.toNat + r.height) * stride g * bytesPerPixel g := by
        refine Nat.mul_le_mul_right _ ?_
        rw [Rectangle.dest, Nat.add_mul _ r.height]
        rw [Nat.add_one_mul] at hrow
        omega
    _ = (r.y0 + g.yoffset.toNat + r.height) * g.lineLength.toNat := by
        rw [Nat.mul_assoc, stride_mul hline]
    _ ≤ g.smemLen.toNat := hr.buffer

/-- The addresses of a rectangle, row by row. -/
theorem Rectangle.covers_iff (hline : bytesPerPixel g ∣ g.lineLength.toNat) (r : Rectangle)
    (a : Nat) :
    (∃ j < r.height, (r.dest g + j * stride g) * bytesPerPixel g ≤ a ∧
      a < (r.dest g + j * stride g + r.width) * bytesPerPixel g) ↔ r.Covers g a := by
  have hps := bytesPerPixel_pos g
  constructor
  · rintro ⟨j, hj, hle, hlt⟩
    obtain ⟨d, rfl⟩ := Nat.exists_eq_add_of_le hle
    rw [Nat.add_mul _ r.width, Nat.add_lt_add_iff_left, Nat.mul_comm] at hlt
    have hcol : d / bytesPerPixel g < r.width := Nat.div_lt_of_lt_mul hlt
    refine ⟨r.x0 + d / bytesPerPixel g, r.y0 + j, d % bytesPerPixel g,
      ⟨⟨Nat.le_add_right .., Nat.add_lt_add_left hcol _⟩, Nat.le_add_right ..,
        Nat.add_lt_add_left hj _⟩, Nat.mod_lt d hps, ?_⟩
    rw [r.pixelAt_eq hline, Nat.add_mul _ (d / bytesPerPixel g), Nat.add_assoc _ _ (d % _),
      Nat.div_add_mod']
  · rintro ⟨x, y, k, ⟨⟨hx, hx'⟩, hy, hy'⟩, hk, rfl⟩
    obtain ⟨i, rfl⟩ := Nat.exists_eq_add_of_le hx
    obtain ⟨j, rfl⟩ := Nat.exists_eq_add_of_le hy
    refine ⟨j, by omega, ?_, ?_⟩
    · rw [r.pixelAt_eq hline, Nat.add_mul _ i]
      omega
    · calc pixelAt g (r.x0 + i) (r.y0 + j) + k
          < (r.dest g + j * stride g + i) * bytesPerPixel g + bytesPerPixel g := by
            rw [r.pixelAt_eq hline]
            exact Nat.add_lt_add_left hk _
        _ = (r.dest g + j * stride g + i + 1) * bytesPerPixel g := (Nat.add_one_mul ..).symm
        _ ≤ (r.dest g + j * stride g + r.width) * bytesPerPixel g :=
            Nat.mul_le_mul_right _ (by omega)

/-- The line of the buffer in which an address of a rectangle is. -/
theorem Rectangle.Fits.line_of_covers (hline : bytesPerPixel g ∣ g.lineLength.toNat)
    (hr : r.Fits g) {a : Nat} (ha : r.Covers g a) :
    ∃ y, (r.y0 ≤ y ∧ y < r.y0 + r.height) ∧ a / g.lineLength.toNat = y + g.yoffset.toNat := by
  obtain ⟨x, y, k, ⟨⟨_, hx⟩, hy⟩, hk, rfl⟩ := ha
  have hend : r.x0 + g.xoffset.toNat + r.width ≤ stride g := hr.line
  have hcol : (x + g.xoffset.toNat) * bytesPerPixel g + k < g.lineLength.toNat :=
    calc (x + g.xoffset.toNat) * bytesPerPixel g + k
        < (x + g.xoffset.toNat + 1) * bytesPerPixel g := by
          rw [Nat.add_one_mul]
          exact Nat.add_lt_add_left hk _
      _ ≤ stride g * bytesPerPixel g := Nat.mul_le_mul_right _ (by omega)
      _ = g.lineLength.toNat := stride_mul hline
  refine ⟨y, hy, ?_⟩
  rw [pixelAt, Nat.add_assoc, Nat.mul_comm, Nat.mul_add_div (Nat.zero_lt_of_lt hcol),
    Nat.div_eq_of_lt hcol, Nat.add_zero]

theorem drawRect_draws
    (hdepth : g.bitsPerPixel = 32 ∨ g.bitsPerPixel = 16 ∨ g.bitsPerPixel = 15)
    (hline : bytesPerPixel g ∣ g.lineLength.toNat) (hmap : fb.size = g.smemLen.toNat)
    (hr : r.Fits g) (color : BitVec 32) :
    ∃ fb', drawRect g r.x0 r.y0 r.width r.height color fb = .ok fb' ∧
      Draws g r color fb fb' := by
  have hlen := packedColor_length g color
  obtain ⟨fb', hrun, hpaint⟩ := @rowLoop_paints fb (packedColor g color) (stride g) r.width r.height
    (r.dest g) fun j hj => by
      rw [hlen, hmap]
      exact hr.row_le hline hj
  have hcovers : fb.Paints (r.Covers g) (cell (packedColor g color)) fb' :=
    hpaint.congr fun a => by
      rw [hlen]
      exact r.covers_iff hline a
  refine ⟨fb', ?_, hcovers.size_eq, fun x y k hxy hk => ?_, hcovers.outside⟩
  · rw [drawRect_eq hdepth, drawPixels]
    show rowLoop _ (stride g) _ _ (_ * stride g % _ + _) _ = _
    rw [hr.dest_eq, Int.toNat_natCast, Int.toNat_natCast]
    exact hrun
  · rw [hcovers.inside _ ⟨x, y, k, hxy, hk, rfl⟩]
    obtain ⟨i, rfl⟩ := Nat.exists_eq_add_of_le hxy.1.1
    obtain ⟨j, rfl⟩ := Nat.exists_eq_add_of_le hxy.2.1
    rw [r.pixelAt_eq hline, ← hlen]
    exact cell_pixel (hlen.symm ▸ hk)

end Rectangle

/-! ## The rectangles of `main` -/

/-- The rectangle that begins at `k` eighths of the screen. -/
def mainRectangle (g : ScreenInfo) (k : UInt32) : Rectangle where
  x0 := (g.xres * k / 8).toNat
  y0 := (g.yres * k / 8).toNat
  width := (g.xres / 4).toNat
  height := (g.yres / 4).toNat

def mainRectangles (g : ScreenInfo) : List (Rectangle × BitVec 32) :=
  [(mainRectangle g 1, 0xffff0000), (mainRectangle g 3, 0xff00ff00), (mainRectangle g 5, 0xff0000ff)]

/-- The screen lies inside of the lines and of the buffer. -/
structure ScreenFits (g : ScreenInfo) : Prop where
  line : g.xoffset.toNat + g.xres.toNat ≤ g.lineLength.toNat / bytesPerPixel g
  buffer : (g.yoffset.toNat + g.yres.toNat) * g.lineLength.toNat ≤ g.smemLen.toNat

/-- A product that overflows comes out smaller. -/
theorem eighths_add_quarter_le (z : UInt32) {k : UInt32} (hk : k.toNat ≤ 5) :
    (z * k / 8).toNat + (z / 4).toNat ≤ z.toNat := by
  have hmul : (z * k).toNat ≤ z.toNat * 5 := by
    rw [UInt32.toNat_mul]
    exact (Nat.mod_le ..).trans (Nat.mul_le_mul_left _ hk)
  rw [UInt32.toNat_div, UInt32.toNat_div]
  show (z * k).toNat / 8 + z.toNat / 4 ≤ z.toNat
  omega

theorem mainRectangle_fits (hs : ScreenFits g) {k : UInt32} (hk : k.toNat ≤ 5) :
    (mainRectangle g k).Fits g where
  line := by
    have := eighths_add_quarter_le g.xres hk
    have := hs.line
    dsimp only [mainRectangle]
    omega
  buffer := by
    have := eighths_add_quarter_le g.yres hk
    refine Nat.le_trans (Nat.mul_le_mul_right _ ?_) hs.buffer
    dsimp only [mainRectangle]
    omega

/-- With a pixel on the screen, the products do not overflow. -/
theorem eighths_eq (hline : bytesPerPixel g ∣ g.lineLength.toNat) (hs : ScreenFits g)
    {k : UInt32} (hk : k.toNat ≤ 5) (hx : 4 ≤ g.xres.toNat) :
    (g.yres * k / 8).toNat = g.yres.toNat * k.toNat / 8 := by
  have hps : 2 ≤ bytesPerPixel g := by
    rw [bytesPerPixel]
    split <;> decide
  have hlong : 8 ≤ g.lineLength.toNat :=
    calc 8 ≤ g.xres.toNat * bytesPerPixel g := Nat.mul_le_mul hx hps
      _ ≤ stride g * bytesPerPixel g :=
          Nat.mul_le_mul_right _ ((Nat.le_add_left ..).trans hs.line)
      _ = g.lineLength.toNat := stride_mul hline
  have hrows : g.yres.toNat * 8 < 2 ^ 32 :=
    calc g.yres.toNat * 8 ≤ (g.yoffset.toNat + g.yres.toNat) * g.lineLength.toNat :=
          Nat.mul_le_mul (Nat.le_add_left ..) hlong
      _ ≤ g.smemLen.toNat := hs.buffer
      _ < 2 ^ 32 := g.smemLen.toNat_lt
  have hmul : g.yres.toNat * k.toNat ≤ g.yres.toNat * 5 := Nat.mul_le_mul_left _ hk
  rw [UInt32.toNat_div, UInt32.toNat_mul, Nat.mod_eq_of_lt (by omega)]
  rfl

/-- Two eighths apart, the rectangles have no line in common. -/
theorem mainRectangle_disjoint (hline : bytesPerPixel g ∣ g.lineLength.toNat)
    (hs : ScreenFits g) {k l : UInt32} (hkl : k.toNat + 2 ≤ l.toNat) (hl : l.toNat ≤ 5) (a : Nat)
    (hk : (mainRectangle g k).Covers g a) : ¬(mainRectangle g l).Covers g a := by
  intro ha
  obtain ⟨x, _, _, ⟨⟨hx, hx'⟩, _⟩, _⟩ := id hk
  have hwide : 4 ≤ g.xres.toNat := by
    have hdiv : (g.xres / 4).toNat = g.xres.toNat / 4 := UInt32.toNat_div ..
    dsimp only [mainRectangle] at hx hx'
    omega
  obtain ⟨y, hy, hrow⟩ :=
    (mainRectangle_fits hs (by omega : k.toNat ≤ 5)).line_of_covers hline hk
  obtain ⟨y', hy', hrow'⟩ := (mainRectangle_fits hs hl).line_of_covers hline ha
  have hfirst := eighths_eq hline hs (by omega : k.toNat ≤ 5) hwide
  have hsecond := eighths_eq hline hs hl hwide
  have hdiv : (g.yres / 4).toNat = g.yres.toNat / 4 := UInt32.toNat_div ..
  have hmul : g.yres.toNat * (k.toNat + 2) ≤ g.yres.toNat * l.toNat := Nat.mul_le_mul_left _ hkl
  rw [Nat.mul_add] at hmul
  dsimp only [mainRectangle] at hy hy'
  omega

theorem mainRectangle_one :
    mainRectangle g 1 =
      ⟨(g.xres / 8).toNat, (g.yres / 8).toNat, (g.xres / 4).toNat, (g.yres / 4).toNat⟩ := by
  simp only [mainRectangle, UInt32.mul_one]

/-- `fb'` is `fb` with all of these rectangles, of which no two overlap. -/
structure DrawsAll (g : ScreenInfo) (rs : List (Rectangle × BitVec 32)) (fb fb' : Block) :
    Prop where
  size_eq : fb'.size = fb.size
  pixel : ∀ r ∈ rs, ∀ x y k, r.1.HasPixel x y → k < bytesPerPixel g →
    fb'.byte (pixelAt g x y + k) = (packedColor g r.2).getD k 0
  frame : ∀ a, (∀ r ∈ rs, ¬r.1.Covers g a) → fb'.byte a = fb.byte a
  disjoint : rs.Pairwise fun r s => ∀ a, r.1.Covers g a → ¬s.1.Covers g a

theorem DrawsAll.nil : DrawsAll g [] fb fb := ⟨rfl, nofun, fun _ _ => rfl, .nil⟩

/-- A rectangle that overlaps none of the later ones keeps its pixels. -/
theorem DrawsAll.cons {r : Rectangle} {rs : List (Rectangle × BitVec 32)} {fb'' : Block}
    (h : Draws g r color fb fb') (hrs : DrawsAll g rs fb' fb'')
    (hdisj : ∀ s ∈ rs, ∀ a, r.Covers g a → ¬s.1.Covers g a) :
    DrawsAll g ((r, color) :: rs) fb fb'' where
  size_eq := hrs.size_eq.trans h.size_eq
  pixel := by
    rintro s hs x y k hxy hk
    rcases List.mem_cons.mp hs with rfl | hs
    · rw [hrs.frame _ fun s hs => hdisj s hs _ ⟨x, y, k, hxy, hk, rfl⟩]
      exact h.pixel x y k hxy hk
    · exact hrs.pixel s hs x y k hxy hk
  frame a ha := by
    rw [hrs.frame a fun s hs => ha s (.tail _ hs)]
    exact h.frame a (ha (r, color) (.head _))
  disjoint := .cons hdisj hrs.disjoint

/-- For every depth and geometry: a rectangle that fits is drawn pixel by pixel and nothing else
is; and where the screen fits, so do the three rectangles of `main`, each of them with its own
pixels. -/
theorem rectangles_exact (g : ScreenInfo) (fb : Block)
    (hdepth : g.bitsPerPixel = 32 ∨ g.bitsPerPixel = 16 ∨ g.bitsPerPixel = 15)
    (hline : bytesPerPixel g ∣ g.lineLength.toNat) (hmap : fb.size = g.smemLen.toNat) :
    (∀ r color, r.Fits g → ∃ fb', drawRect g r.x0 r.y0 r.width r.height color fb = .ok fb' ∧
      Draws g r color fb fb') ∧
    (ScreenFits g → ∃ fb', drawRectangles g fb = .ok fb' ∧
      DrawsAll g (mainRectangles g) fb fb' ∧ ∀ r ∈ mainRectangles g, r.1.Fits g ∧
        ∀ x y, r.1.HasPixel x y → x < g.xres.toNat ∧ y < g.yres.toNat) := by
  refine ⟨fun r color hr => drawRect_draws hdepth hline hmap hr color, fun hs => ?_⟩
  have hfits : ∀ r ∈ mainRectangles g, ∃ k : UInt32, k.toNat ≤ 5 ∧ r.1 = mainRectangle g k := by
    intro r hr
    simp only [mainRectangles, List.mem_cons, List.not_mem_nil, or_false] at hr
    rcases hr with rfl | rfl | rfl
    · exact ⟨1, by decide, rfl⟩
    · exact ⟨3, by decide, rfl⟩
    · exact ⟨5, by decide, rfl⟩
  obtain ⟨fb₁, hrun₁, hdraw₁⟩ := drawRect_draws hdepth hline hmap
    (mainRectangle_fits hs (k := 1) (by decide)) 0xffff0000
  obtain ⟨fb₂, hrun₂, hdraw₂⟩ := drawRect_draws hdepth hline (hdraw₁.size_eq.trans hmap)
    (mainRectangle_fits hs (k := 3) (by decide)) 0xff00ff00
  obtain ⟨fb₃, hrun₃, hdraw₃⟩ := drawRect_draws hdepth hline
    (hdraw₂.size_eq.trans (hdraw₁.size_eq.trans hmap))
    (mainRectangle_fits hs (k := 5) (by decide)) 0xff0000ff
  refine ⟨fb₃, ?_, ?_, fun r hr => ?_⟩
  · rw [mainRectangle_one] at hrun₁
    dsimp only [mainRectangle] at hrun₁ hrun₂ hrun₃
    rw [drawRectangles, hrun₁, Except.ok_bind, hrun₂, Except.ok_bind]
    exact hrun₃
  · refine .cons hdraw₁ (.cons hdraw₂ (.cons hdraw₃ .nil nofun) ?_) ?_
    · simpa using mainRectangle_disjoint hline hs (k := 3) (l := 5) (by decide) (by decide)
    · simpa using ⟨mainRectangle_disjoint hline hs (k := 1) (l := 3) (by decide) (by decide),
        mainRectangle_disjoint hline hs (k := 1) (l := 5) (by decide) (by decide)⟩
  · obtain ⟨k, hk, hrk⟩ := hfits r hr
    rw [hrk]
    refine ⟨mainRectangle_fits hs hk, fun x y ⟨⟨_, hx⟩, _, hy⟩ => ?_⟩
    exact ⟨Nat.lt_of_lt_of_le hx (eighths_add_quarter_le g.xres hk),
      Nat.lt_of_lt_of_le hy (eighths_add_quarter_le g.yres hk)⟩

theorem rectangles_exact_panel :
    (∃ fb', drawRectangles ⟨32, 256, 8, 8, 0, 0, 32⟩ ⟨256, fun _ => 0⟩ = .ok fb' ∧
      DrawsAll ⟨32, 256, 8, 8, 0, 0, 32⟩ (mainRectangles ⟨32, 256, 8, 8, 0, 0, 32⟩)
        ⟨256, fun _ => 0⟩ fb') ∧
    ∃ fb', drawRect ⟨32, 256, 8, 8, 0, 0, 32⟩ 1 1 2 2 0xff336699 ⟨256, fun _ => 0⟩ = .ok fb' ∧
      Draws ⟨32, 256, 8, 8, 0, 0, 32⟩ ⟨1, 1, 2, 2⟩ 0xff336699 ⟨256, fun _ => 0⟩ fb' := by
  obtain ⟨hone, hthree⟩ := rectangles_exact ⟨32, 256, 8, 8, 0, 0, 32⟩ ⟨256, fun _ => 0⟩ (.inl rfl)
    (by decide) rfl
  obtain ⟨fb', hrun, hdraws, _⟩ := hthree ⟨by decide, by decide⟩
  exact ⟨⟨fb', hrun, hdraws⟩, hone ⟨1, 1, 2, 2⟩ _ ⟨by decide, by decide⟩⟩

end HeadUnit.Framebuffer
