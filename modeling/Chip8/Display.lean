import Chip8.Text

/-!
# The screen

A grid of 64 by 32 pixels, each lit or unlit, and a flag that says whether it has
to be painted again.  The pixels are kept in one row-major sequence, so a pixel is
a number below 2048: `Pixel.at` is the only place where a column and a row become
such a number.

The flag is raised by everything that can change a pixel, whether or not it did,
and lowered only by `takeRedraw`.  It is part of the screen rather than of whoever
paints it because a program can raise it without changing anything, and that is
observable.
-/

namespace Chip8

/-- A column of the screen, counted from the left. -/
abbrev Column := Fin 64

/-- A row of the screen, counted from the top. -/
abbrev Row := Fin 32

/-- A pixel, numbered along the rows from the upper left corner. -/
abbrev Pixel := Fin 2048

/-- The pixel in a column and a row. -/
def Pixel.at (x : Column) (y : Row) : Pixel :=
  ⟨y.val * 64 + x.val, by
    have := x.isLt
    have := y.isLt
    omega⟩

/-- Distinct positions are distinct pixels. -/
theorem Pixel.at_inj {x x' : Column} {y y' : Row} :
    Pixel.at x y = Pixel.at x' y' ↔ x = x' ∧ y = y' := by
  have := x.isLt
  have := x'.isLt
  simp only [Pixel.at, Fin.ext_iff]
  omega

/-- The screen. -/
structure Display where
  /-- Which pixels are lit, row by row. -/
  pixels : Vector Bool 2048
  /-- Whether the screen has to be painted again. -/
  redraw : Bool
  deriving DecidableEq

namespace Display

/-- A dark screen that need not be painted. -/
def blank : Display := ⟨Vector.replicate 2048 false, false⟩

/-- Whether the pixel in a column and a row is lit. -/
def pixel (d : Display) (x : Column) (y : Row) : Bool :=
  d.pixels[Pixel.at x y]

/-- Whether the pixel in a column and a row is lit, if there is such a pixel. -/
def pixel? (d : Display) (x y : Nat) : Option Bool :=
  if h : x < 64 ∧ y < 32 then some (d.pixel ⟨x, h.1⟩ ⟨y, h.2⟩) else none

/-- The pixels of a row, from the left. -/
def row (d : Display) (y : Row) : List Bool :=
  (List.finRange 64).map fun x => d.pixel x y

/-- All rows, from the top. -/
def rows (d : Display) : List (List Bool) := (List.finRange 32).map d.row

/-- Turn every pixel off. -/
def clear (_ : Display) : Display := { blank with redraw := true }

/-- Ask for the screen to be painted again. -/
def requestRedraw (d : Display) : Display := { d with redraw := true }

/-- Take note that the screen has been painted. -/
def takeRedraw (d : Display) : Display := { d with redraw := false }

/-- The number of lit pixels. -/
def litCount (d : Display) : Nat := d.pixels.toList.countP id

/-- The screen written out briefly. -/
def describe (d : Display) : String :=
  s!"Display \x7b lit: {d.litCount}, redraw: " ++ Text.truth d.redraw ++ " \x7d"

end Display
end Chip8
