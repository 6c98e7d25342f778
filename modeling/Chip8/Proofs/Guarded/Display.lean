import Chip8.Display.Packed
import Chip8.Display.Sprite
import Chip8.Proofs.Guarded.Access

/-!
# The screen, guarded

Here a position is a column and a row that are mere numbers, and a sprite is drawn by two
loops: over its rows, and over the eight columns of a row.  A loop that clips *breaks off*
at the first position beyond the edge, and one that wraps reduces the position and goes on.
The packed screen is filled one lit pixel after the other, in a byte whose place is worked
out from the column and the row.

None of it goes wrong, and the results are those of the screen itself
(`drawSprite_eq`, `pack_eq`, `unpack_eq`).  Breaking off is the one point where the two
readings differ in what they do: the screen asks of every position whether it is on the
grid.  They agree because the positions of a loop increase, so that behind the first one
that is off the grid there are only others that are.
-/

namespace Chip8

/-! ## Bits by masks -/

namespace Byte

/-- A bit of a byte is set if masking everything else leaves something. -/
theorem and_shifted_eq_zero_iff (b : UInt8) (k : Fin 8) :
    b &&& (0x80 >>> UInt8.ofNat k.val) = 0 ↔ bit b k = false := by
  have h : ∀ n, n < 256 → ∀ k : Fin 8,
      (UInt8.ofNat n &&& (0x80 >>> UInt8.ofNat k.val) = 0 ↔ bit (UInt8.ofNat n) k = false) := by
    decide +kernel
  simpa using h b.toNat b.toNat_lt k

/-- What a mask leaves of a byte tells the bit. -/
theorem masked_bne_zero (b : UInt8) (k : Fin 8) :
    (b &&& 0x80 >>> UInt8.ofNat k.val != 0) = bit b k := by
  rw [Bool.eq_iff_iff, bne_iff_ne, Ne, and_shifted_eq_zero_iff, Bool.not_eq_false]

/-- The bits of a union. -/
theorem bit_or (a b : UInt8) (k : Fin 8) : bit (a ||| b) k = (bit a k || bit b k) := by
  simp only [bit, UInt8.toNat_or, Nat.testBit_or]

/-- A mask has one bit. -/
theorem bit_shifted : ∀ k j : Fin 8, bit (0x80 >>> UInt8.ofNat k.val) j = decide (k = j) := by
  decide

end Byte

namespace Guarded

/-! ## Sprites -/

/-- The pixel in a column and a row. -/
def pixelAt (x y : Nat) : Attempt Pixel :=
  if hy : y < 32 then
    if hx : x < 64 then .ok (Pixel.at ⟨x, hx⟩ ⟨y, hy⟩) else .error (.index x 64)
  else .error (.index y 32)

/-- Flip a pixel, and note whether it was lit. -/
def toggle (drawn : Vector Bool 2048 × Bool) (p : Pixel) : Vector Bool 2048 × Bool :=
  Display.flip drawn.1 [p] drawn.2

/-- Draw a row of a sprite, column by column. -/
def drawColumns (wrap : Bool) (x y : Nat) (bits : UInt8) :
    List Nat → Vector Bool 2048 × Bool → Attempt (Vector Bool 2048 × Bool)
  | [], drawn => .ok drawn
  | column :: columns, drawn => do
      let m ← mask column
      if bits &&& m = 0 then drawColumns wrap x y bits columns drawn
      else
        let px ← fit 64 (x + column)
        if 64 ≤ px ∧ !wrap then .ok drawn
        else
          let p ← pixelAt (if 64 ≤ px then px % 64 else px) y
          drawColumns wrap x y bits columns (toggle drawn p)

/-- Draw a sprite, row by row.  `row` counts the rows drawn so far. -/
def drawRows (wrap : Bool) (x y : Nat) :
    Nat → List UInt8 → Vector Bool 2048 × Bool → Attempt (Vector Bool 2048 × Bool)
  | _, [], drawn => .ok drawn
  | row, bits :: rows, drawn => do
      let py ← fit 64 (y + row)
      if 32 ≤ py ∧ !wrap then .ok drawn
      else
        let drawn ← drawColumns wrap x (if 32 ≤ py then py % 32 else py) bits (List.range 8) drawn
        drawRows wrap x y (row + 1) rows drawn

/-- Where a sprite starts on an axis of the screen. -/
def origin (wrap : Bool) (size : Nat) (start : UInt8) : Nat :=
  if wrap then start.toNat % size else start.toNat

/-- Draw a sprite, and tell whether a lit pixel was turned off. -/
def drawSprite (d : Display) (wrap : Bool) (x y : UInt8) (rows : List UInt8) :
    Attempt (Display × Bool) := do
  let (pixels, collision) ← drawRows wrap (origin wrap 64 x) (origin wrap 32 y) 0 rows
    (d.pixels, false)
  .ok (⟨pixels, true⟩, collision)

theorem pixelAt_of_lt {x y : Nat} (hx : x < 64) (hy : y < 32) :
    pixelAt x y = .ok (Pixel.at ⟨x, hx⟩ ⟨y, hy⟩) := by
  rw [pixelAt, dif_pos hy, dif_pos hx]

/-- The pixel under a bit of a sprite's row, if the bit is set and falls on the grid. -/
def hit? (wrap : Bool) (x y : Nat) (bits : UInt8) (column : Fin 8) : Option Pixel :=
  if Byte.bit bits column then Sprite.pixelAt? wrap (x + column.val) y else none

theorem rowHits_eq (wrap : Bool) (x y : Nat) (bits : UInt8) :
    Sprite.rowHits wrap x y bits = (List.finRange 8).filterMap (hit? wrap x y bits) := rfl

theorem hit?_eq_none {wrap : Bool} {x y : Nat} {bits : UInt8} {column : Fin 8}
    (h : bits &&& (0x80 >>> UInt8.ofNat column.val) = 0) : hit? wrap x y bits column = none := by
  rw [hit?, (Byte.and_shifted_eq_zero_iff bits column).1 h]
  rfl

theorem hit?_of_set {wrap : Bool} {x y : Nat} {bits : UInt8} {column : Fin 8}
    (h : ¬ bits &&& (0x80 >>> UInt8.ofNat column.val) = 0) :
    hit? wrap x y bits column = Sprite.pixelAt? wrap (x + column.val) y := by
  rw [Byte.and_shifted_eq_zero_iff, Bool.not_eq_false] at h
  rw [hit?, if_pos h]

/-- Beyond the right edge nothing is hit when clipping. -/
theorem hit?_clip_of_le {x y : Nat} {bits : UInt8} {column : Fin 8}
    (h : 64 ≤ x + column.val) : hit? false x y bits column = none := by
  rw [hit?, Sprite.pixelAt?, if_neg Bool.false_ne_true, dif_neg (by omega), ite_self]

/-- A row of a sprite that wraps. -/
theorem drawColumns_wrap (x y : Nat) (bits : UInt8) (columns : List (Fin 8))
    (drawn : Vector Bool 2048 × Bool) :
    drawColumns true (x % 64) (y % 32) bits (columns.map Fin.val) drawn =
      .ok (Display.flip drawn.1 (columns.filterMap (hit? true x y bits)) drawn.2) := by
  induction columns generalizing drawn with
  | nil => rfl
  | cons column columns ih =>
      have hcolumn := column.isLt
      simp only [List.map_cons, drawColumns, mask_val, Attempt.ok_bind]
      by_cases hbit : bits &&& (0x80 >>> UInt8.ofNat column.val) = 0
      · rw [if_pos hbit, ih, List.filterMap_cons_none (hit?_eq_none hbit)]
      · have hpx : (if 64 ≤ x % 64 + column.val then (x % 64 + column.val) % 64
            else x % 64 + column.val) = (x + column.val) % 64 := by
          split <;> omega
        have hhit : hit? true x y bits column = some (Pixel.at
            ⟨(x + column.val) % 64, Nat.mod_lt _ (by decide)⟩
            ⟨y % 32, Nat.mod_lt _ (by decide)⟩) := hit?_of_set hbit
        rw [if_neg hbit, fit_of_lt (by omega), Attempt.ok_bind, if_neg (by simp), hpx,
          pixelAt_of_lt (Nat.mod_lt _ (by decide)) (Nat.mod_lt _ (by decide)), Attempt.ok_bind, ih,
          List.filterMap_cons_some hhit]
        rfl

/-- A row of a sprite that is clipped.  The columns increase, so that none is left out by
breaking off. -/
theorem drawColumns_clip (x y : Nat) (hx : x < 256) (hy : y < 32) (bits : UInt8)
    (columns : List (Fin 8)) (hsorted : columns.Pairwise (· < ·))
    (drawn : Vector Bool 2048 × Bool) :
    drawColumns false x y bits (columns.map Fin.val) drawn =
      .ok (Display.flip drawn.1 (columns.filterMap (hit? false x y bits)) drawn.2) := by
  induction columns generalizing drawn with
  | nil => rfl
  | cons column columns ih =>
      obtain ⟨hlater, hsorted⟩ := List.pairwise_cons.1 hsorted
      have hcolumn := column.isLt
      simp only [List.map_cons, drawColumns, mask_val, Attempt.ok_bind]
      by_cases hbit : bits &&& (0x80 >>> UInt8.ofNat column.val) = 0
      · rw [if_pos hbit, ih hsorted, List.filterMap_cons_none (hit?_eq_none hbit)]
      rw [if_neg hbit, fit_of_lt (by omega), Attempt.ok_bind]
      by_cases hedge : 64 ≤ x + column.val
      · -- This is where the loop breaks off: all that is left lies beyond the edge.
        have hnone : ∀ c ∈ column :: columns, hit? false x y bits c = none := by
          intro c hc
          apply hit?_clip_of_le
          rcases List.mem_cons.1 hc with rfl | hc
          · exact hedge
          · exact Nat.le_trans hedge (Nat.add_le_add_left (Nat.le_of_lt (hlater c hc)) x)
        rw [if_pos ⟨hedge, rfl⟩, List.filterMap_eq_nil_iff.2 hnone]
        rfl
      · have hhit : hit? false x y bits column = some (Pixel.at
            ⟨x + column.val, Nat.lt_of_not_le hedge⟩ ⟨y, hy⟩) := by
          rw [hit?_of_set hbit, Sprite.pixelAt?, if_neg Bool.false_ne_true, dif_pos ⟨hy, by omega⟩]
        rw [if_neg (fun h => hedge h.1), if_neg hedge, pixelAt_of_lt (Nat.lt_of_not_le hedge) hy,
          Attempt.ok_bind, ih hsorted, List.filterMap_cons_some hhit]
        rfl

/-- Flipping one list after another. -/
theorem flip_append (pixels : Vector Bool 2048) (ps qs : List Pixel) (collision : Bool) :
    Display.flip pixels (ps ++ qs) collision =
      Display.flip (Display.flip pixels ps collision).1 qs
        (Display.flip pixels ps collision).2 := by
  induction ps generalizing pixels collision with
  | nil => rfl
  | cons p ps ih => exact ih _ _

/-- Below the lower edge nothing is hit when clipping. -/
theorem hits_clip_of_le (x : Nat) (rows : List UInt8) {y : Nat} (hy : 32 ≤ y) :
    Sprite.hits false x y rows = [] := by
  induction rows generalizing y with
  | nil => rfl
  | cons bits rows ih =>
      have hnone : ∀ c ∈ List.finRange 8, hit? false x y bits c = none := by
        intro c _
        rw [hit?, Sprite.pixelAt?, if_neg Bool.false_ne_true, dif_neg (by omega), ite_self]
      rw [Sprite.hits, ih (Nat.le_succ_of_le hy), rowHits_eq, List.filterMap_eq_nil_iff.2 hnone,
        List.append_nil]

theorem range_eight : List.range 8 = (List.finRange 8).map Fin.val := by decide

theorem drawRows_wrap (x y row : Nat) (rows : List UInt8) (h : row + rows.length < 2 ^ 63)
    (drawn : Vector Bool 2048 × Bool) :
    drawRows true (x % 64) (y % 32) row rows drawn =
      .ok (Display.flip drawn.1 (Sprite.hits true x (y + row) rows) drawn.2) := by
  induction rows generalizing row drawn with
  | nil => rfl
  | cons bits rows ih =>
      rw [List.length_cons] at h
      have hpy : (if 32 ≤ y % 32 + row then (y % 32 + row) % 32 else y % 32 + row) =
          (y + row) % 32 := by
        split <;> omega
      rw [drawRows, fit_of_lt (by omega), Attempt.ok_bind, if_neg (by simp), hpy, range_eight,
        drawColumns_wrap, Attempt.ok_bind, ih (row + 1) (by omega), Sprite.hits, flip_append,
        rowHits_eq, Nat.add_assoc]

theorem drawRows_clip (x y row : Nat) (hx : x < 256) (hy : y < 256) (rows : List UInt8)
    (h : row + rows.length < 2 ^ 63) (drawn : Vector Bool 2048 × Bool) :
    drawRows false x y row rows drawn =
      .ok (Display.flip drawn.1 (Sprite.hits false x (y + row) rows) drawn.2) := by
  induction rows generalizing row drawn with
  | nil => rfl
  | cons bits rows ih =>
      rw [List.length_cons] at h
      rw [drawRows, fit_of_lt (by omega), Attempt.ok_bind]
      by_cases hedge : 32 ≤ y + row
      · rw [if_pos ⟨hedge, rfl⟩, hits_clip_of_le x _ hedge]
        rfl
      · rw [if_neg (fun h => hedge h.1), if_neg hedge, range_eight,
          drawColumns_clip x _ hx (Nat.lt_of_not_le hedge) bits _ (List.pairwise_lt_finRange 8),
          Attempt.ok_bind, ih (row + 1) (by omega), Sprite.hits, flip_append, rowHits_eq,
          Nat.add_assoc]

/-- **A sprite can be drawn anywhere.**  The length of a sprite matters only because its
rows are counted, and a sequence that fits into an address space of 64 bits is shorter than
the bound. -/
theorem drawSprite_eq (d : Display) (wrap : Bool) (x y : UInt8) (rows : List UInt8)
    (h : rows.length < 2 ^ 63) : drawSprite d wrap x y rows = .ok (d.draw wrap x y rows) := by
  have h' : 0 + rows.length < 2 ^ 63 := by omega
  cases wrap with
  | true => exact congrArg (· >>= _) (drawRows_wrap x.toNat y.toNat 0 rows h' (d.pixels, false))
  | false =>
      exact congrArg (· >>= _)
        (drawRows_clip x.toNat y.toNat 0 x.toNat_lt y.toNat_lt rows h' (d.pixels, false))

/-! ## Packed screens -/

/-- Set the bit of a lit pixel. -/
def packPixel (d : Display) (buffer : Packed) : Row × Column → Attempt Packed
  | (y, x) =>
      if d.pixel x y then do
        let i ← fit 64 (y.val * 8 + x.val / 8)
        let byte ← entry buffer i
        let m ← mask (x.val % 8)
        replace buffer i (byte ||| m)
      else .ok buffer

/-- The pixels of a screen, eight to a byte, row by row. -/
def pack (d : Display) : Attempt Packed :=
  ((List.finRange 32).product (List.finRange 64)).foldlM (packPixel d) (Vector.replicate 256 0)

/-- Whether a bit of a packed screen is set. -/
def unpackPixel (buffer : Packed) (x y : Nat) : Attempt Bool := do
  let i ← fit 64 (y * 8 + x / 8)
  let byte ← entry buffer i
  let m ← mask (x % 8)
  .ok (byte &&& m != 0)

/-- The screen of a packed one, row by row. -/
def unpack (buffer : Packed) : Attempt Display := do
  let pixels ← Vector.ofFnM fun p : Pixel => unpackPixel buffer (p.val % 64) (p.val / 64)
  .ok ⟨pixels, false⟩

/-- A packed screen with one more bit set. -/
def setBit (buffer : Packed) (i : Fin 256) (k : Fin 8) : Packed :=
  buffer.set i (buffer[i] ||| 0x80 >>> UInt8.ofNat k.val)

/-- A packed screen with one more pixel lit. -/
def light (buffer : Packed) (p : Pixel) : Packed := setBit buffer p.byteOf p.bitOf

/-- A pixel is determined by its byte and its bit. -/
theorem pixel_eq_iff (p q : Pixel) : p = q ↔ p.byteOf = q.byteOf ∧ p.bitOf = q.bitOf := by
  refine ⟨fun h => ⟨congrArg _ h, congrArg _ h⟩, fun h => ?_⟩
  rw [← Pixel.ofBit_byteOf_bitOf p, ← Pixel.ofBit_byteOf_bitOf q, h.1, h.2]

theorem lit_light (buffer : Packed) (p q : Pixel) :
    (light buffer p).lit q = (buffer.lit q || decide (p = q)) := by
  simp only [Packed.lit, light, setBit, Fin.getElem_fin, Vector.getElem_set]
  by_cases hbyte : p.byteOf = q.byteOf
  · rw [if_pos (congrArg Fin.val hbyte), Byte.bit_or, Byte.bit_shifted]
    simp only [hbyte, pixel_eq_iff, true_and]
  · rw [if_neg (fun h => hbyte (Fin.ext h))]
    simp only [pixel_eq_iff, hbyte, false_and, decide_false, Bool.or_false]

/-- Packed screens that show the same pixels are the same. -/
theorem packed_ext {b c : Packed} (h : ∀ p, b.lit p = c.lit p) : b = c := by
  rw [← Display.pack_unpack b, ← Display.pack_unpack c, Display.unpack, Display.unpack, funext h]

/-- The byte and the bit of a position are those of its pixel. -/
theorem packPixel_eq (d : Display) (buffer : Packed) (z : Row × Column) :
    packPixel d buffer z =
      .ok (if d.pixel z.2 z.1 then light buffer (Pixel.at z.2 z.1) else buffer) := by
  obtain ⟨y, x⟩ := z
  have hx := x.isLt
  have hy := y.isLt
  have hbyte : y.val * 8 + x.val / 8 = (Pixel.at x y).byteOf.val := by
    simp only [Pixel.at, Pixel.byteOf]
    omega
  have hbit : x.val % 8 = (Pixel.at x y).bitOf.val := by
    simp only [Pixel.at, Pixel.bitOf]
    omega
  rw [packPixel]
  by_cases hlit : d.pixel x y
  · rw [if_pos hlit, if_pos hlit, fit_of_lt (by omega), Attempt.ok_bind, hbyte, hbit, entry_val,
      Attempt.ok_bind, mask_val, Attempt.ok_bind, replace_val, light, setBit]
  · rw [if_neg hlit, if_neg hlit]

/-- What the loop has set after some positions. -/
theorem lit_foldl_light (d : Display) (positions : List (Row × Column)) (buffer : Packed)
    (p : Pixel) :
    (positions.foldl (fun b z => if d.pixel z.2 z.1 then light b (Pixel.at z.2 z.1) else b)
        buffer).lit p =
      (buffer.lit p || positions.any fun z => d.pixel z.2 z.1 && decide (Pixel.at z.2 z.1 = p)) := by
  induction positions generalizing buffer with
  | nil => simp
  | cons z positions ih =>
      rw [List.foldl_cons, ih, List.any_cons]
      by_cases hlit : d.pixel z.2 z.1
      · rw [if_pos hlit, lit_light, hlit, Bool.true_and, Bool.or_assoc]
      · rw [if_neg hlit, Bool.eq_false_iff.2 hlit, Bool.false_and, Bool.false_or]

/-- Every pixel has a column and a row. -/
theorem exists_at_eq (p : Pixel) : ∃ x y, Pixel.at x y = p := by
  have hp := p.isLt
  refine ⟨⟨p.val % 64, by omega⟩, ⟨p.val / 64, by omega⟩, Fin.ext ?_⟩
  simp only [Pixel.at]
  omega

/-- **A screen can be packed**, and the result is the packed screen. -/
theorem pack_eq (d : Display) : pack d = .ok d.pack := by
  have hstep : packPixel d = fun buffer z => pure
      (if d.pixel z.2 z.1 then light buffer (Pixel.at z.2 z.1) else buffer) :=
    funext fun buffer => funext fun z => packPixel_eq d buffer z
  rw [pack, hstep, List.foldlM_pure]
  refine congrArg Except.ok (packed_ext fun p => ?_)
  obtain ⟨x, y, rfl⟩ := exists_at_eq p
  have hblank : Packed.lit (Vector.replicate 256 0) (Pixel.at x y) = false := by
    simp [Packed.lit, Byte.bit]
  rw [lit_foldl_light, hblank, Bool.false_or, Display.lit_pack, Bool.eq_iff_iff, List.any_eq_true]
  constructor
  · rintro ⟨⟨y', x'⟩, -, h⟩
    obtain ⟨hlit, heq⟩ := Bool.and_eq_true_iff.1 h
    obtain ⟨rfl, rfl⟩ := Pixel.at_inj.1 (of_decide_eq_true heq)
    exact hlit
  · intro hlit
    refine ⟨(y, x), List.mem_product.2 ⟨List.mem_finRange y, List.mem_finRange x⟩, ?_⟩
    simpa [Display.pixel] using hlit

theorem unpackPixel_eq (buffer : Packed) (p : Pixel) :
    unpackPixel buffer (p.val % 64) (p.val / 64) = .ok (buffer.lit p) := by
  have hp := p.isLt
  have hbyte : p.val / 64 * 8 + p.val % 64 / 8 = p.byteOf.val := by
    simp only [Pixel.byteOf]
    omega
  have hbit : p.val % 64 % 8 = p.bitOf.val := by
    simp only [Pixel.bitOf]
    omega
  rw [unpackPixel, fit_of_lt (by omega), Attempt.ok_bind, hbyte, hbit, entry_val, Attempt.ok_bind,
    mask_val, Attempt.ok_bind, Byte.masked_bne_zero]
  rfl

/-- **Every packed screen can be unpacked**, and the result is its screen. -/
theorem unpack_eq (buffer : Packed) : unpack buffer = .ok (Display.unpack buffer) := by
  have hpixels : (fun p : Pixel => unpackPixel buffer (p.val % 64) (p.val / 64)) =
      fun p => pure (buffer.lit p) := funext fun p => unpackPixel_eq buffer p
  rw [unpack, hpixels, Vector.ofFnM_pure]
  rfl

end Guarded
end Chip8
