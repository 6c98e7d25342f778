import Chip8.Byte
import Chip8.Display

/-!
# Drawing sprites

A sprite is a list of bytes, one per row, eight pixels wide.  Drawing flips the
pixels under its set bits and reports whether a lit pixel was turned off.

Drawing is split into two steps, each of which is easy to describe.

* `Sprite.hits` lists the pixels that the set bits fall on.  This is where the
  edges of the screen matter: with wrapping, columns and rows are taken modulo the
  size of the screen; without, a bit that falls off the grid hits nothing.
* `Display.flip` flips the listed pixels one after the other.

A sprite of more than 32 rows that wraps can hit a pixel twice.  The second hit
undoes the first and, having found the pixel lit, reports a collision.
-/

namespace Chip8
namespace Sprite

/-- The pixel at a position counted from the upper left corner of the screen, which
may lie beyond its edges. -/
def pixelAt? (wrap : Bool) (x y : Nat) : Option Pixel :=
  if wrap then
    some (Pixel.at ⟨x % 64, Nat.mod_lt _ (by decide)⟩
      ⟨y % 32, Nat.mod_lt _ (by decide)⟩)
  else if h : y < 32 ∧ x < 64 then
    some (Pixel.at ⟨x, h.2⟩ ⟨y, h.1⟩)
  else none

/-- The pixels hit by one row of a sprite, whose left end is at `x`. -/
def rowHits (wrap : Bool) (x y : Nat) (row : UInt8) : List Pixel :=
  (List.finRange 8).filterMap fun column =>
    if Byte.bit row column then pixelAt? wrap (x + column.val) y else none

/-- The pixels hit by a sprite whose upper left corner is at `(x, y)`, row by row
from the top and within a row from the left. -/
def hits (wrap : Bool) (x y : Nat) : List UInt8 → List Pixel
  | [] => []
  | row :: rows => rowHits wrap x y row ++ hits wrap x (y + 1) rows

end Sprite

namespace Display

/-- Flip pixels one after the other, and tell whether one of them was lit. -/
def flip (pixels : Vector Bool 2048) :
    List Pixel → Bool → Vector Bool 2048 × Bool
  | [], collision => (pixels, collision)
  | p :: ps, collision =>
      let lit := pixels[p]
      flip (pixels.set p (!lit)) ps (collision || lit)

/-- Draw a sprite with its upper left corner at `(x, y)`, and tell whether a lit
pixel was turned off. -/
def draw (d : Display) (wrap : Bool) (x y : UInt8) (rows : List UInt8) : Display × Bool :=
  let (pixels, collision) := flip d.pixels (Sprite.hits wrap x.toNat y.toNat rows) false
  (⟨pixels, true⟩, collision)

/-- Drawing always asks for the screen to be painted. -/
@[simp] theorem redraw_draw (d : Display) (wrap : Bool) (x y : UInt8) (rows : List UInt8) :
    (d.draw wrap x y rows).1.redraw = true := rfl

/-- A sprite without rows changes no pixel and collides with nothing. -/
@[simp] theorem draw_nil (d : Display) (wrap : Bool) (x y : UInt8) :
    d.draw wrap x y [] = (d.requestRedraw, false) := rfl

end Display
end Chip8
