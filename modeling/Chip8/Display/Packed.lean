import Chip8.Byte
import Chip8.Display

/-!
# Packed screens

A screen is handed over, and saved, as 256 bytes: eight pixels to a byte, the
leftmost pixel in the most significant bit, and the rows one after the other.
Since the pixels are numbered along the rows as well, pixel `p` is bit `p % 8` of
byte `p / 8`, and no column or row needs to be named here.

Packing forgets the redraw flag and nothing else (`unpack_pack`, `pack_unpack`).
-/

namespace Chip8

/-- A screen, eight pixels to a byte. -/
abbrev Packed := Vector UInt8 256

namespace Pixel

/-- The byte of a packed screen in which a pixel is found. -/
def byteOf (p : Pixel) : Fin 256 :=
  ⟨p.val / 8, by
    have := p.isLt
    omega⟩

/-- The bit of that byte. -/
def bitOf (p : Pixel) : Fin 8 := ⟨p.val % 8, Nat.mod_lt _ (by decide)⟩

/-- The pixel found in a bit of a byte. -/
def ofBit (i : Fin 256) (k : Fin 8) : Pixel :=
  ⟨i.val * 8 + k.val, by
    have := i.isLt
    have := k.isLt
    omega⟩

@[simp] theorem ofBit_byteOf_bitOf (p : Pixel) : ofBit p.byteOf p.bitOf = p := by
  apply Fin.ext
  simp only [ofBit, byteOf, bitOf]
  omega

@[simp] theorem byteOf_ofBit (i : Fin 256) (k : Fin 8) : (ofBit i k).byteOf = i := by
  have := k.isLt
  apply Fin.ext
  simp only [ofBit, byteOf]
  omega

@[simp] theorem bitOf_ofBit (i : Fin 256) (k : Fin 8) : (ofBit i k).bitOf = k := by
  have := k.isLt
  apply Fin.ext
  simp only [ofBit, bitOf]
  omega

end Pixel

/-- Whether a pixel of a packed screen is lit. -/
def Packed.lit (b : Packed) (p : Pixel) : Bool := Byte.bit b[p.byteOf] p.bitOf

namespace Display

/-- The pixels of a screen, eight to a byte. -/
def pack (d : Display) : Packed :=
  Vector.ofFn fun i => Byte.ofBits fun k => d.pixels[Pixel.ofBit i k]

/-- The screen of a packed one.  Nothing asks for it to be painted. -/
def unpack (b : Packed) : Display := ⟨Vector.ofFn b.lit, false⟩

/-- A packed screen shows a pixel exactly when the screen does. -/
@[simp] theorem lit_pack (d : Display) (p : Pixel) : d.pack.lit p = d.pixels[p] := by
  simp only [Packed.lit, pack, Fin.getElem_fin, Vector.getElem_ofFn, Fin.eta, Byte.bit_ofBits,
    Pixel.ofBit_byteOf_bitOf]

/-- Unpacking a packed screen gives its pixels back. -/
@[simp] theorem pixels_unpack_pack (d : Display) : (unpack d.pack).pixels = d.pixels := by
  apply Vector.ext
  intro i hi
  simp [unpack, lit_pack]

theorem unpack_pack (d : Display) : unpack d.pack = d.takeRedraw := by
  rw [takeRedraw, ← pixels_unpack_pack d]
  rfl

/-- Packing an unpacked screen gives its bytes back. -/
@[simp] theorem pack_unpack (b : Packed) : (unpack b).pack = b := by
  apply Vector.ext
  intro i hi
  simp only [pack, unpack, Vector.getElem_ofFn, Fin.getElem_fin, Fin.eta, Packed.lit,
    Pixel.byteOf_ofBit, Pixel.bitOf_ofBit]
  exact Byte.ofBits_bit b[i]

end Display
end Chip8
