import Chip8.Proofs.Guarded.Display
import Mathlib.Algebra.BigOperators.Fin
import Mathlib.Algebra.Ring.Parity
import Mathlib.Data.Fintype.BigOperators
import Mathlib.Data.Fintype.Prod

/-!
# What a sprite does to each pixel

A sprite is drawn bit by bit, and every bit changes the screen that the next one finds.  What comes
of it can be said of each pixel by itself, without any order: a pixel is flipped if the number of
bits that hit it is odd, and there is a collision if a lit pixel is hit, or any pixel twice.

`Hits` says which bits hit which pixels, straight from the positions, and `hitCount` counts them.
The way from there to `Display.draw` has two parts.

* **From the list to the pixels.**  `Display.flip` goes through a list of pixels one after the
  other.  What it leaves of a pixel, and whether there is a collision, depends on nothing but how
  often each pixel is in the list (`get_flip`, `flip_collides_iff`).  The collision is the part where
  order might matter: a pixel that was dark is lit when it is hit for the second time, whatever has
  been hit in between.
* **From the bits to the list.**  A pixel is in `Sprite.hits` as often as it is hit (`count_hits`).

A pixel is hit twice only if two rows of a sprite fall on the same row of the screen.  That takes a
sprite that wraps and has more than 32 rows (`eq_of_hits`), so no program draws one.
-/

namespace Chip8
namespace Sprite

/-! ## Bits and the pixels they hit -/

/-- A bit of a sprite: its row, counted from the top, and its column, counted from the left. -/
abbrev BitOf (rows : List UInt8) := Fin rows.length × Fin 8

/-- A position falls on a pixel.  With wrapping it is counted around the edges of the screen. -/
def Lands (wrap : Bool) (x y : Nat) (px : Column) (py : Row) : Prop :=
  if wrap then px.val = x % 64 ∧ py.val = y % 32 else px.val = x ∧ py.val = y

instance (wrap : Bool) (x y : Nat) (px : Column) (py : Row) : Decidable (Lands wrap x y px py) :=
  inferInstanceAs (Decidable (if wrap then _ else _))

/-- A bit of a sprite with its upper left corner at `(x, y)` hits a pixel: it is set, and it falls
on the pixel. -/
def Hits (wrap : Bool) (x y : Nat) (rows : List UInt8) (px : Column) (py : Row)
    (b : BitOf rows) : Prop :=
  Byte.bit (rows.get b.1) b.2 = true ∧ Lands wrap (x + b.2.val) (y + b.1.val) px py

instance (wrap : Bool) (x y : Nat) (rows : List UInt8) (px : Column) (py : Row) (b : BitOf rows) :
    Decidable (Hits wrap x y rows px py b) :=
  inferInstanceAs (Decidable (_ ∧ _))

/-- The number of bits of a sprite that hit a pixel. -/
def hitCount (wrap : Bool) (x y : Nat) (rows : List UInt8) (px : Column) (py : Row) : Nat :=
  (Finset.univ.filter fun b : BitOf rows => Hits wrap x y rows px py b).card

theorem hitCount_pos_iff (wrap : Bool) (x y : Nat) (rows : List UInt8) (px : Column) (py : Row) :
    0 < hitCount wrap x y rows px py ↔ ∃ b, Hits wrap x y rows px py b := by
  rw [hitCount, Finset.card_pos]
  simp [Finset.Nonempty]

/-- **Two bits that hit the same pixel are the same bit**, unless the sprite wraps and has more rows
than the screen. -/
theorem eq_of_hits {wrap : Bool} {x y : Nat} {rows : List UInt8} {px : Column} {py : Row}
    (h : wrap = true → rows.length ≤ 32) {b b' : BitOf rows} (hb : Hits wrap x y rows px py b)
    (hb' : Hits wrap x y rows px py b') : b = b' := by
  obtain ⟨⟨row, hrow⟩, ⟨column, hcolumn⟩⟩ := b
  obtain ⟨⟨row', hrow'⟩, ⟨column', hcolumn'⟩⟩ := b'
  obtain ⟨-, hlands⟩ := hb
  obtain ⟨-, hlands'⟩ := hb'
  obtain ⟨rfl, rfl⟩ : row = row' ∧ column = column' := by
    cases wrap with
    | true =>
        -- less than 32 rows and less than 64 columns apart, and so not around the edges
        have hlength := h rfl
        simp only [Lands, if_true] at hlands hlands'
        omega
    | false =>
        simp only [Lands, Bool.false_eq_true, if_false] at hlands hlands'
        omega
  rfl

theorem hitCount_le_one {wrap : Bool} {rows : List UInt8} (h : wrap = true → rows.length ≤ 32)
    (x y : Nat) (px : Column) (py : Row) : hitCount wrap x y rows px py ≤ 1 := by
  rw [hitCount, Finset.card_le_one_iff]
  intro b b' hb hb'
  exact eq_of_hits h (Finset.mem_filter.mp hb).2 (Finset.mem_filter.mp hb').2

/-! ## The list of hits -/

theorem pixelAt?_eq_some_iff (wrap : Bool) (x y : Nat) (px : Column) (py : Row) :
    pixelAt? wrap x y = some (Pixel.at px py) ↔ Lands wrap x y px py := by
  have hx := px.isLt
  have hy := py.isLt
  unfold pixelAt? Lands
  cases wrap with
  | true =>
      rw [if_pos rfl, if_pos rfl, Option.some.injEq, Pixel.at_inj, Fin.ext_iff, Fin.ext_iff]
      exact and_congr eq_comm eq_comm
  | false =>
      rw [if_neg Bool.false_ne_true, if_neg Bool.false_ne_true]
      by_cases hgrid : y < 32 ∧ x < 64
      · rw [dif_pos hgrid, Option.some.injEq, Pixel.at_inj, Fin.ext_iff, Fin.ext_iff]
        exact and_congr eq_comm eq_comm
      · rw [dif_neg hgrid]
        refine iff_of_false (Option.some_ne_none _).symm ?_
        omega

theorem countP_finRange {n : Nat} (p : Fin n → Bool) :
    (List.finRange n).countP p = ∑ i, if p i = true then 1 else 0 := by
  rw [Fin.sum_univ_def]
  induction List.finRange n with
  | nil => rfl
  | cons i l ih => rw [List.countP_cons, ih, List.map_cons, List.sum_cons, Nat.add_comm]

/-- A row of a sprite lists a pixel once for each of its bits that hit it. -/
theorem count_rowHits (wrap : Bool) (x y : Nat) (row : UInt8) (px : Column) (py : Row) :
    (rowHits wrap x y row).count (Pixel.at px py) =
      ∑ column : Fin 8,
        if Byte.bit row column = true ∧ Lands wrap (x + column.val) y px py then 1 else 0 := by
  rw [rowHits, List.count_filterMap, countP_finRange]
  refine Finset.sum_congr rfl fun column _ => if_congr ?_ rfl rfl
  rw [beq_iff_eq]
  by_cases hbit : Byte.bit row column = true
  · rw [if_pos hbit, pixelAt?_eq_some_iff]
    exact (and_iff_right hbit).symm
  · rw [if_neg hbit]
    exact iff_of_false (Option.some_ne_none _).symm fun h => hbit h.1

/-- **A sprite lists a pixel once for each bit that hits it.** -/
theorem count_hits (wrap : Bool) (x y : Nat) (rows : List UInt8) (px : Column) (py : Row) :
    (hits wrap x y rows).count (Pixel.at px py) = hitCount wrap x y rows px py := by
  have hsum : (hits wrap x y rows).count (Pixel.at px py) =
      ∑ row : Fin rows.length, ∑ column : Fin 8,
        if Hits wrap x y rows px py (row, column) then 1 else 0 := by
    induction rows generalizing y with
    | nil => rfl
    | cons row rows ih =>
        have hbelow : ∀ (r : Fin rows.length) (column : Fin 8),
            Hits wrap x (y + 1) rows px py (r, column) ↔
              Hits wrap x y (row :: rows) px py (r.succ, column) := by
          intro r column
          rw [Hits, Hits, Fin.val_succ, Nat.add_assoc, Nat.add_comm 1]
          rfl
        rw [hits, List.count_append, count_rowHits, ih (y + 1)]
        simp only [hbelow]
        exact (Fin.sum_univ_succ fun r : Fin (rows.length + 1) => ∑ column : Fin 8,
          if Hits wrap x y (row :: rows) px py (r, column) then 1 else 0).symm
  rw [hsum, hitCount, Finset.card_filter, Fintype.sum_prod_type]

end Sprite

namespace Display

/-! ## One flip after the other -/

theorem get_set_self (pixels : Vector Bool 2048) (p : Pixel) (lit : Bool) :
    (pixels.set p.val lit p.isLt).get p = lit := by
  rw [Vector.get_eq_getElem, Vector.getElem_set_self]

theorem get_set_of_ne (pixels : Vector Bool 2048) {p q : Pixel} (h : p ≠ q) (lit : Bool) :
    (pixels.set p.val lit p.isLt).get q = pixels.get q := by
  rw [Vector.get_eq_getElem, Vector.getElem_set_ne _ _ (Fin.val_ne_of_ne h), Vector.get_eq_getElem]

/-- **Flipping leaves of a pixel what its number of flips leaves of it.** -/
theorem get_flip (pixels : Vector Bool 2048) (ps : List Pixel) (collision : Bool) (q : Pixel) :
    (flip pixels ps collision).1.get q = (pixels.get q ^^ decide (Odd (ps.count q))) := by
  induction ps generalizing pixels collision with
  | nil => simp [flip]
  | cons p ps ih =>
      show (flip (pixels.set p (!pixels.get p)) ps (collision || pixels.get p)).1.get q = _
      rw [ih]
      by_cases h : p = q
      · subst h
        rw [get_set_self, List.count_cons_self, decide_eq_decide.mpr Nat.odd_add_one, decide_not,
          Bool.xor_not, Bool.not_xor]
      · rw [get_set_of_ne pixels h, List.count_cons_of_ne h]

/-- **There is a collision** if a lit pixel is flipped, or any pixel twice. -/
theorem flip_collides_iff (pixels : Vector Bool 2048) (ps : List Pixel) (collision : Bool) :
    (flip pixels ps collision).2 = true ↔
      collision = true ∨ ∃ q, (pixels.get q = true ∧ 1 ≤ ps.count q) ∨ 2 ≤ ps.count q := by
  induction ps generalizing pixels collision with
  | nil => simp [flip]
  | cons p ps ih =>
      show (flip (pixels.set p (!pixels.get p)) ps (collision || pixels.get p)).2 = true ↔ _
      rw [ih, Bool.or_eq_true]
      have hcount : (p :: ps).count p = ps.count p + 1 := List.count_cons_self
      constructor
      · rintro ((hcollision | hlit) | ⟨q, hq⟩)
        · exact Or.inl hcollision
        · exact Or.inr ⟨p, Or.inl ⟨hlit, by omega⟩⟩
        · refine Or.inr ⟨q, ?_⟩
          by_cases h : p = q
          · -- it was flipped before, and is flipped once more
            subst h
            omega
          · rw [List.count_cons_of_ne h]
            rwa [get_set_of_ne pixels h] at hq
      · rintro (hcollision | ⟨q, hq⟩)
        · exact Or.inl (Or.inl hcollision)
        · by_cases h : p = q
          · subst h
            cases hlit : pixels.get p with
            | true => exact Or.inl (Or.inr rfl)
            | false =>
                -- dark before the first flip, and so lit before the second
                rw [hlit] at hq
                obtain ⟨hdark, -⟩ | htwice := hq
                · cases hdark
                · exact Or.inr ⟨p, Or.inl ⟨get_set_self pixels p true, by omega⟩⟩
          · rw [List.count_cons_of_ne h] at hq
            refine Or.inr ⟨q, ?_⟩
            rwa [get_set_of_ne pixels h]

/-! ## Drawing -/

/-- A drawn sprite flips the pixels that it hits an odd number of times. -/
theorem pixel_draw (d : Display) (wrap : Bool) (x y : UInt8) (rows : List UInt8) (px : Column)
    (py : Row) : (d.draw wrap x y rows).1.pixel px py =
      (d.pixel px py ^^ decide (Odd (Sprite.hitCount wrap x.toNat y.toNat rows px py))) := by
  rw [← Sprite.count_hits]
  exact get_flip d.pixels _ false (Pixel.at px py)

theorem draw_collides_iff (d : Display) (wrap : Bool) (x y : UInt8) (rows : List UInt8) :
    (d.draw wrap x y rows).2 = true ↔
      ∃ px py, (d.pixel px py = true ∧ 1 ≤ Sprite.hitCount wrap x.toNat y.toNat rows px py) ∨
        2 ≤ Sprite.hitCount wrap x.toNat y.toNat rows px py := by
  have hflip := flip_collides_iff d.pixels (Sprite.hits wrap x.toNat y.toNat rows) false
  rw [Bool.false_eq_true, false_or] at hflip
  refine hflip.trans ⟨?_, ?_⟩
  · rintro ⟨q, hq⟩
    obtain ⟨px, py, rfl⟩ := Guarded.exists_at_eq q
    rw [Sprite.count_hits] at hq
    exact ⟨px, py, hq⟩
  · rintro ⟨px, py, hq⟩
    rw [← Sprite.count_hits] at hq
    exact ⟨Pixel.at px py, hq⟩

section Small

variable {wrap : Bool} {rows : List UInt8} (h : wrap = true → rows.length ≤ 32) (d : Display)
  (x y : UInt8)

include h

/-- A sprite with no more rows than the screen changes the pixels that it hits, and no others. -/
theorem pixel_draw_ne_iff (px : Column) (py : Row) :
    (d.draw wrap x y rows).1.pixel px py ≠ d.pixel px py ↔
      ∃ b, Sprite.Hits wrap x.toNat y.toNat rows px py b := by
  have honce := Sprite.hitCount_le_one h x.toNat y.toNat px py
  rw [← Sprite.hitCount_pos_iff, pixel_draw]
  rcases Nat.le_one_iff_eq_zero_or_eq_one.mp honce with hcount | hcount
  · rw [hcount]
    simp
  · rw [hcount]
    simp

/-- Such a sprite collides exactly if it turns a lit pixel off. -/
theorem draw_collides_iff_turns_off :
    (d.draw wrap x y rows).2 = true ↔
      ∃ px py, d.pixel px py = true ∧ (d.draw wrap x y rows).1.pixel px py = false := by
  rw [draw_collides_iff]
  refine exists_congr fun px => exists_congr fun py => ?_
  have honce := Sprite.hitCount_le_one h x.toNat y.toNat px py
  have hchange := d.pixel_draw_ne_iff h x y px py
  rw [← Sprite.hitCount_pos_iff] at hchange
  constructor
  · rintro (⟨hlit, hhit⟩ | htwice)
    · have hoff := hchange.mpr hhit
      rw [hlit] at hoff
      exact ⟨hlit, Bool.eq_false_iff.mpr hoff⟩
    · omega
  · rintro ⟨hlit, hoff⟩
    refine Or.inl ⟨hlit, hchange.mp ?_⟩
    rw [hlit, hoff]
    exact Bool.false_ne_true

end Small

/-- **Drawing, pixel by pixel.**  A sprite of any number of rows is drawn anywhere, with or without
wrapping.

* A pixel is afterwards what it was before, or the opposite if the number of bits that hit it is
  odd.  The redraw flag is up.
* There is a collision exactly if some pixel that was lit is hit, or some pixel is hit twice.  The
  second can happen only to a sprite that wraps and has more than 32 rows.
* The loops that go over the rows and the columns, skip the bits that are not set and break off at
  the edges come to the same.  (They count in 64 bits, in which a sequence has fewer than `2 ^ 63`
  rows.) -/
theorem draw_by_pixel (d : Display) (wrap : Bool) (x y : UInt8) (rows : List UInt8) :
    let drawn := d.draw wrap x y rows
    let hitCount := Sprite.hitCount wrap x.toNat y.toNat rows
    (∀ px py, drawn.1.pixel px py = (d.pixel px py ^^ decide (Odd (hitCount px py)))) ∧
      drawn.1.redraw = true ∧
      (drawn.2 = true ↔
        ∃ px py, (d.pixel px py = true ∧ 1 ≤ hitCount px py) ∨ 2 ≤ hitCount px py) ∧
      (∀ px py, 2 ≤ hitCount px py → wrap = true ∧ 32 < rows.length) ∧
      (rows.length < 2 ^ 63 → Guarded.drawSprite d wrap x y rows = .ok drawn) := by
  intro drawn hitCount
  refine ⟨d.pixel_draw wrap x y rows, d.redraw_draw wrap x y rows,
    d.draw_collides_iff wrap x y rows, fun px py htwice => ?_, Guarded.drawSprite_eq d wrap x y rows⟩
  by_contra hfew
  have honce : hitCount px py ≤ 1 :=
    Sprite.hitCount_le_one (fun hwrap => Nat.not_lt.mp fun hrows => hfew ⟨hwrap, hrows⟩) _ _ px py
  omega

/-- A sprite of 33 rows that wraps: the last row falls on the first. -/
example : Sprite.hitCount true 5 0 (List.replicate 33 0x80) 5 0 = 2 := by decide +kernel

end Display
end Chip8
