import Chip8.Proofs.Display.Drawing

/-!
# Sprites drawn one after the other

Programs move a sprite by drawing it a second time where it was, which takes it off the screen, and
then drawing it elsewhere.  In between they draw other sprites over it.  That this works is a
property of whole lists of drawings: what is left on the screen does not depend on their order, and
drawing all of them again, in whatever order, leaves what was there at the start.

A drawing flips the pixels in a list, one after the other, and so do several drawings: the list is
that of all hits of all sprites (`pixels_stampAll`).  What flipping leaves of a pixel is decided by
how often it is in the list (`get_flip`), and a list in another order has each pixel just as often.
It does not matter that a sprite may overlap itself, or that some sprites wrap and others are
clipped.

Whether a sprite *collides* does depend on what has been drawn before it, and nothing of the kind is
said of the collisions.

Wrapping and clipping differ at the edges of the screen only.  A sprite that lies within them hits
the same pixels in the same order either way, and then collides either way too
(`hits_wrap_eq_clip`).
-/

namespace Chip8

/-- A sprite, and where and how it is to be drawn. -/
structure Stamp where
  /-- Whether the sprite wraps around the edges of the screen. -/
  wrap : Bool
  /-- The column of its upper left corner. -/
  x : UInt8
  /-- The row of its upper left corner. -/
  y : UInt8
  /-- Its rows, from the top. -/
  rows : List UInt8
  deriving DecidableEq

/-- The pixels that a sprite hits, in the order in which they are flipped. -/
def Stamp.hits (s : Stamp) : List Pixel := Sprite.hits s.wrap s.x.toNat s.y.toNat s.rows

/-! ## Within the edges of the screen -/

namespace Sprite

theorem pixelAt?_wrap_eq_clip {x y : Nat} (hx : x < 64) (hy : y < 32) :
    pixelAt? true x y = pixelAt? false x y := by
  simp only [pixelAt?, if_true, Bool.false_eq_true, if_false, hx, hy, and_self, dite_true,
    Nat.mod_eq_of_lt]

theorem rowHits_wrap_eq_clip {x y : Nat} (hx : x ≤ 56) (hy : y < 32) (row : UInt8) :
    rowHits true x y row = rowHits false x y row := by
  refine List.filterMap_congr fun column _ => ?_
  have hcolumn := column.isLt
  rw [pixelAt?_wrap_eq_clip (by omega) hy]

/-- **A sprite within the edges of the screen** hits the same pixels whether or not it wraps. -/
theorem hits_wrap_eq_clip {x y : Nat} {rows : List UInt8} (hx : x ≤ 56)
    (hy : y + rows.length ≤ 32) : hits true x y rows = hits false x y rows := by
  induction rows generalizing y with
  | nil => rfl
  | cons row rows ih =>
      rw [List.length_cons] at hy
      rw [hits, hits, rowHits_wrap_eq_clip hx (by omega), ih (by omega)]

end Sprite

namespace Display

/-! ## Flips in any order -/

/-- What is left of the pixels depends only on how often each of them is flipped. -/
theorem flip_congr (pixels : Vector Bool 2048) {ps ps' : List Pixel} (collision collision' : Bool)
    (h : ∀ q, ps.count q = ps'.count q) :
    (flip pixels ps collision).1 = (flip pixels ps' collision').1 := by
  apply Vector.ext
  intro i hi
  have hget := get_flip pixels ps collision ⟨i, hi⟩
  rw [h, ← get_flip pixels ps' collision'] at hget
  exact hget

/-- Pixels that are flipped as often again are as they were. -/
theorem flip_flip (pixels : Vector Bool 2048) {ps ps' : List Pixel} (collision collision' : Bool)
    (h : ∀ q, ps.count q = ps'.count q) :
    (flip (flip pixels ps collision).1 ps' collision').1 = pixels := by
  apply Vector.ext
  intro i hi
  have hget : (flip (flip pixels ps collision).1 ps' collision').1.get ⟨i, hi⟩ =
      pixels.get ⟨i, hi⟩ := by
    rw [get_flip, get_flip, h, Bool.xor_assoc, Bool.xor_self, Bool.xor_false]
  exact hget

/-! ## Several sprites -/

/-- The screen after a sprite has been drawn. -/
def stamp (d : Display) (s : Stamp) : Display := (d.draw s.wrap s.x s.y s.rows).1

/-- The screen after several sprites have been drawn, one after the other. -/
def stampAll (d : Display) (ss : List Stamp) : Display := ss.foldl stamp d

/-- **Drawing several sprites** flips all the pixels that they hit. -/
theorem pixels_stampAll (d : Display) (ss : List Stamp) :
    (d.stampAll ss).pixels = (flip d.pixels (ss.flatMap Stamp.hits) false).1 := by
  induction ss generalizing d with
  | nil => rfl
  | cons s ss ih =>
      have hfirst : (d.stamp s).pixels = (flip d.pixels s.hits false).1 := rfl
      have hrest : (d.stampAll (s :: ss)).pixels = ((d.stamp s).stampAll ss).pixels := rfl
      rw [hrest, ih, hfirst, List.flatMap_cons, Guarded.flip_append]
      exact flip_congr _ _ _ fun _ => rfl

/-- A pixel is flipped once for every bit of a sprite that hits it. -/
theorem pixel_stampAll (d : Display) (ss : List Stamp) (px : Column) (py : Row) :
    (d.stampAll ss).pixel px py =
      (d.pixel px py ^^ decide (Odd ((ss.flatMap Stamp.hits).count (Pixel.at px py)))) := by
  show (d.stampAll ss).pixels.get (Pixel.at px py) = _
  rw [pixels_stampAll, get_flip]
  rfl

end Display

namespace Guarded

/-- Several sprites, drawn by the loops that go over their rows and columns. -/
def stampAll (d : Display) (ss : List Stamp) : Attempt Display :=
  ss.foldlM (fun d s => do .ok (← drawSprite d s.wrap s.x s.y s.rows).1) d

/-- **Several sprites can be drawn**, and the result is the screen after them. -/
theorem stampAll_eq (d : Display) {ss : List Stamp} (h : ∀ s ∈ ss, s.rows.length < 2 ^ 63) :
    stampAll d ss = .ok (d.stampAll ss) := by
  induction ss generalizing d with
  | nil => rfl
  | cons s ss ih =>
      have hfirst := drawSprite_eq d s.wrap s.x s.y s.rows (h s List.mem_cons_self)
      rw [stampAll, List.foldlM_cons, hfirst]
      exact ih (d.stamp s) fun s' hs' => h s' (List.mem_cons_of_mem s hs')

end Guarded

namespace Display

/-- **Sprites can be drawn in any order, and drawing them again takes them off.**  Take two lists of
sprites that are the same but for their order.

* Drawn on the same screen, they leave the same pixels lit.
* Drawn one after the other, they leave the pixels as they were.
* The loops that go over the rows and the columns draw the same.  (They count in 64 bits, in which a
  sequence has fewer than `2 ^ 63` rows.)
* A sprite of any height that lies within the edges of the screen is drawn in the same way whether
  or not it wraps, on every screen, and collides or not in the same way. -/
theorem stamps_commute_and_cancel {ss ss' : List Stamp} (h : ss.Perm ss') (d : Display) :
    (d.stampAll ss).pixels = (d.stampAll ss').pixels ∧
      ((d.stampAll ss).stampAll ss').pixels = d.pixels ∧
      ((∀ s ∈ ss, s.rows.length < 2 ^ 63) → Guarded.stampAll d ss = .ok (d.stampAll ss)) ∧
      ∀ (x y : UInt8) (rows : List UInt8), x.toNat ≤ 56 → y.toNat + rows.length ≤ 32 →
        d.draw true x y rows = d.draw false x y rows := by
  have hcount : ∀ q, (ss.flatMap Stamp.hits).count q = (ss'.flatMap Stamp.hits).count q :=
    (h.flatMap_right Stamp.hits).count_eq
  refine ⟨?_, ?_, Guarded.stampAll_eq d, fun x y rows hx hy => ?_⟩
  · rw [pixels_stampAll, pixels_stampAll]
    exact flip_congr _ _ _ hcount
  · rw [pixels_stampAll, pixels_stampAll]
    exact flip_flip _ _ _ hcount
  · rw [draw, draw, Sprite.hits_wrap_eq_clip hx hy]

/-- A sprite of 33 rows that wraps and so overlaps itself, and one that is clipped at the corner of
the screen and lies over it; taken off in the opposite order. -/
theorem stamps_commute_and_cancel_overlapping :
    let tall : Stamp := ⟨true, 60, 0, List.replicate 33 0xFF⟩
    let corner : Stamp := ⟨false, 61, 30, [0xF0, 0x90, 0xF0]⟩
    [tall, corner].Perm [corner, tall] ∧
      (blank.stampAll [tall, corner]).pixel 3 31 = true ∧
      ((blank.stampAll [tall, corner]).stampAll [corner, tall]).pixels = blank.pixels := by
  intro tall corner
  have hperm : [tall, corner].Perm [corner, tall] := List.Perm.swap corner tall []
  have hcount : ([tall, corner].flatMap Stamp.hits).count (Pixel.at 3 31) = 1 := by decide +kernel
  refine ⟨hperm, ?_, (stamps_commute_and_cancel hperm blank).2.1⟩
  rw [pixel_stampAll, hcount]
  simp [pixel, blank]

end Display
end Chip8
