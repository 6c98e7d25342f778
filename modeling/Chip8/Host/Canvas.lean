import Chip8.Display.Packed

/-!
# Painting

A host shows the screen as a picture of the same size with one colour to a pixel.  A
lit pixel is a light grey and an unlit one a dark grey, both opaque.  Before the
first frame the picture is empty: transparent black.

Painting replaces the whole picture, so nothing of an earlier frame remains.
-/

namespace Chip8

/-- A colour. -/
structure Colour where
  red : UInt8
  green : UInt8
  blue : UInt8
  /-- How opaque the colour is. -/
  alpha : UInt8
  deriving DecidableEq

namespace Colour

/-- The colour of a lit pixel. -/
def lit : Colour := ⟨0xE8, 0xE8, 0xE8, 0xFF⟩

/-- The colour of an unlit pixel. -/
def unlit : Colour := ⟨0x10, 0x10, 0x10, 0xFF⟩

/-- No colour at all. -/
def transparent : Colour := ⟨0, 0, 0, 0⟩

/-- The four parts of a colour. -/
def bytes (c : Colour) : List UInt8 := [c.red, c.green, c.blue, c.alpha]

end Colour

/-- A picture of the screen, a colour to a pixel. -/
abbrev Canvas := Vector Colour 2048

namespace Canvas

/-- A picture on which nothing has been painted. -/
def empty : Canvas := Vector.replicate 2048 .transparent

/-- The picture of a packed screen. -/
def paint (b : Packed) : Canvas := Vector.ofFn fun p => if b.lit p then .lit else .unlit

/-- A pixel is painted in the colour of lit pixels exactly when it is lit. -/
theorem get_paint_pack (d : Display) (p : Pixel) :
    (paint d.pack).get p = if d.pixels.get p then Colour.lit else Colour.unlit := by
  have h : (paint d.pack)[p] = if d.pixels[p] then Colour.lit else Colour.unlit := by
    simp only [paint, Fin.getElem_fin, Vector.getElem_ofFn, Display.lit_pack]
  exact h

end Canvas
end Chip8
