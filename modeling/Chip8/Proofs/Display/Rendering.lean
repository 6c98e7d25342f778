import Chip8.Host.Canvas
import Chip8.Proofs.Guarded.Display

/-!
# Three renderings of a screen

A screen is written out three times: as a packed screen, eight pixels to a byte; as a screen again,
when a packed one is read back; and as the picture that a host shows, four bytes to a pixel.  Each
of the three finds the byte and the bit of a pixel in its own way.  Packing and unpacking go by
column and row, and painting counts the cells of the picture from the first to the last.

The packed screen, its bits and the colours of a picture are defined by the number of a pixel here,
so the three could not disagree.  What is compared below are the loops (`Guarded.pack`,
`Guarded.unpack`, `Guarded.paint`), each of which works its places out for itself and fails where
there is no such place.

The picture that a host has at hand is that of the frame before.  The loop goes over it cell by cell
and overwrites each, so nothing is left of it (`paintCells_eq`): what is on the picture afterwards
is known from the packed screen alone.
-/

namespace Chip8

namespace Colour

theorem length_bytes (c : Colour) : c.bytes.length = 4 := rfl

/-- Behind the bytes of some colours are those of the colours behind them. -/
theorem drop_flatMap_bytes (cs : List Colour) (i : Nat) :
    (cs.flatMap bytes).drop (4 * i) = (cs.drop i).flatMap bytes := by
  induction i generalizing cs with
  | zero => rfl
  | succ i ih =>
      cases cs with
      | nil => exact List.drop_nil
      | cons c cs =>
          rw [List.flatMap_cons, List.drop_succ_cons, ← ih, Nat.mul_succ, Nat.add_comm,
            ← List.drop_drop, List.drop_left' c.length_bytes]

theorem length_flatMap_bytes (cs : List Colour) : (cs.flatMap bytes).length = 4 * cs.length := by
  induction cs with
  | nil => rfl
  | cons c cs ih =>
      rw [List.flatMap_cons, List.length_append, ih, length_bytes, List.length_cons, Nat.mul_succ,
        Nat.add_comm]

end Colour

namespace Canvas

/-- The bytes of a picture, cell by cell. -/
def bytes (c : Canvas) : List UInt8 := c.toList.flatMap Colour.bytes

theorem length_bytes (c : Canvas) : c.bytes.length = 8192 := by
  rw [bytes, Colour.length_flatMap_bytes, Vector.length_toList]

/-- The colours of a picture from a pixel on. -/
theorem drop_toList (c : Canvas) {i : Nat} (hi : i < 2048) :
    c.toList.drop i = c.get ⟨i, hi⟩ :: c.toList.drop (i + 1) := by
  rw [List.drop_eq_getElem_cons (by rwa [Vector.length_toList]), Vector.getElem_toList]
  rfl

/-- In the cell of a pixel are the four bytes of its colour. -/
theorem take_drop_bytes (c : Canvas) (p : Pixel) :
    (c.bytes.drop (4 * p.val)).take 4 = (c.get p).bytes := by
  rw [bytes, Colour.drop_flatMap_bytes, c.drop_toList p.isLt, List.flatMap_cons]
  exact List.take_left' (Colour.length_bytes _)

end Canvas

namespace Guarded

/-- Overwrite the cells of a picture with the colours of a packed screen, from a cell on.  Fewer
than four bytes at the end are no cell, and are left alone. -/
def paintCells {n : Nat} (buffer : Vector UInt8 n) (index : Nat) :
    List UInt8 → Attempt (List UInt8)
  | _ :: _ :: _ :: _ :: rest => do
      let byte ← entry buffer (index / 8)
      let m ← mask (index % 8)
      let cell ← exactly 4 (if byte &&& m != 0 then Colour.lit else Colour.unlit).bytes
      let painted ← paintCells buffer (index + 1) rest
      .ok (cell.toList ++ painted)
  | leftover => .ok leftover

theorem exactly_bytes (c : Colour) : exactly 4 c.bytes = .ok ⟨c.bytes.toArray, rfl⟩ :=
  dif_pos c.length_bytes

/-- Paint over a picture. -/
def paint {n : Nat} (buffer : Vector UInt8 n) (picture : List UInt8) : Attempt (List UInt8) :=
  paintCells buffer 0 picture

/-- A picture that is not at its end begins with a cell. -/
theorem exists_cell {picture : List UInt8} {count : Nat}
    (h : picture.length = 4 * (count + 1)) :
    ∃ red green blue alpha rest, picture = red :: green :: blue :: alpha :: rest ∧
      rest.length = 4 * count := by
  rcases picture with _ | ⟨red, _ | ⟨green, _ | ⟨blue, _ | ⟨alpha, rest⟩⟩⟩⟩
  case cons.cons.cons.cons =>
    refine ⟨red, green, blue, alpha, rest, rfl, ?_⟩
    simp only [List.length_cons] at h
    omega
  all_goals
    simp only [List.length_cons, List.length_nil] at h
    omega

/-- **From any cell on, the picture is painted over**, whatever is on it. -/
theorem paintCells_eq (b : Packed) (count : Nat) {index : Nat} (hindex : index + count = 2048)
    {picture : List UInt8} (hlength : picture.length = 4 * count) :
    paintCells b index picture =
      .ok (((Canvas.paint b).toList.drop index).flatMap Colour.bytes) := by
  induction count generalizing index picture with
  | zero =>
      obtain rfl : index = 2048 := hindex
      obtain rfl : picture = [] := List.length_eq_zero_iff.mp hlength
      rw [List.drop_of_length_le (by rw [Vector.length_toList])]
      rfl
  | succ count ih =>
      have hlt : index < 2048 := by omega
      -- the byte and the bit of the cell are those of the pixel with its number
      let p : Pixel := ⟨index, hlt⟩
      have hbyte : index / 8 = p.byteOf.val := rfl
      have hbit : index % 8 = p.bitOf.val := rfl
      have hcolour : (if Byte.bit b[p.byteOf] p.bitOf then Colour.lit else Colour.unlit) =
          (Canvas.paint b).get p := by
        rw [Vector.get_eq_getElem, Canvas.paint, Vector.getElem_ofFn]
        rfl
      obtain ⟨red, green, blue, alpha, rest, rfl, hrest⟩ := exists_cell hlength
      rw [paintCells, hbyte, hbit, entry_val, Attempt.ok_bind, mask_val, Attempt.ok_bind,
        Byte.masked_bne_zero, hcolour, exactly_bytes, Attempt.ok_bind, ih (by omega) hrest,
        Attempt.ok_bind, (Canvas.paint b).drop_toList hlt, List.flatMap_cons]
      rfl

/-- Painting over a picture of the size of the screen. -/
theorem paint_eq (b : Packed) {picture : List UInt8} (h : picture.length = 8192) :
    paint b picture = .ok (Canvas.paint b).bytes :=
  paintCells_eq b 2048 (Nat.zero_add 2048) h

end Guarded

namespace Display

/-- **The three renderings agree.**

* Packing a screen and unpacking the result gives its pixels back, with the redraw flag down.
* Unpacking a packed screen and packing the result gives its bytes back.
* Painting over a picture of 64 by 32 cells of four bytes, whatever is on it, gives the picture of
  the packed screen.  Its size is the same, and the cell with the number `y * 64 + x` has the colour
  of lit pixels if the pixel in column `x` and row `y` of the screen is lit, and the colour of unlit
  ones if it is not.

All of them are said of the loops, which find the bytes and bits by themselves, and none of these
runs out of a packed screen or a picture. -/
theorem renderings_agree :
    (∀ d : Display, Guarded.pack d = .ok d.pack ∧
      ∃ d' : Display, Guarded.unpack d.pack = .ok d' ∧ d'.pixels = d.pixels ∧ d'.redraw = false) ∧
    (∀ b : Packed, Guarded.unpack b = .ok (unpack b) ∧ Guarded.pack (unpack b) = .ok b) ∧
    ∀ d : Display, ∃ picture : List UInt8,
      (∀ before : Vector UInt8 (64 * 32 * 4),
        Guarded.paint d.pack before.toList = .ok picture) ∧
      picture = (Canvas.paint d.pack).bytes ∧ picture.length = 64 * 32 * 4 ∧
      ∀ (x : Column) (y : Row), let cell := (picture.drop (4 * (y.val * 64 + x.val))).take 4
        cell = (if d.pixel x y then Colour.lit.bytes else Colour.unlit.bytes) ∧
          (cell = Colour.lit.bytes ↔ d.pixel x y = true) := by
  refine ⟨fun d => ⟨Guarded.pack_eq d, d.takeRedraw, ?_, rfl, rfl⟩,
    fun b => ⟨Guarded.unpack_eq b, ?_⟩,
    fun d => ⟨(Canvas.paint d.pack).bytes, fun before => ?_, rfl,
      (Canvas.paint d.pack).length_bytes, fun x y => ?_⟩⟩
  · rw [Guarded.unpack_eq, unpack_pack]
  · rw [Guarded.pack_eq, pack_unpack]
  · exact Guarded.paint_eq d.pack before.length_toList
  · intro cell
    have hlit : d.pixels.get (Pixel.at x y) = d.pixel x y := rfl
    have hcell : cell = if d.pixel x y then Colour.lit.bytes else Colour.unlit.bytes := by
      rw [← apply_ite Colour.bytes, ← hlit, ← Canvas.get_paint_pack]
      exact (Canvas.paint d.pack).take_drop_bytes (Pixel.at x y)
    refine ⟨hcell, ?_⟩
    rw [hcell]
    cases d.pixel x y with
    | true => exact iff_of_true rfl rfl
    | false => exact iff_of_false (by decide) Bool.false_ne_true

end Display
end Chip8
