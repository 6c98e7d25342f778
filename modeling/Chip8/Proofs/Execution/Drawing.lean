import Chip8.Proofs.Display.Drawing
import Chip8.Proofs.Execution.Addresses
import Chip8.Proofs.Instruction.Naming

/-!
# Drawing from memory

`DXYN` takes its rows from the cells that follow each other from the index register on, around the
end of memory, and its position from two registers.  Either of these may be the flag register, which
the same instruction sets; it is set last, so the position is the one from before.

A word has room for at most fifteen rows.  That is what makes `DXYN` simpler than drawing in
general: no pixel is hit twice, so what a program finds in the flag register can be said without
looking at how the sprite was drawn.  It says whether a pixel that was lit before is dark after.
-/

namespace Chip8

namespace Machine

/-- The rows of the sprite at the index register, each in the cell of its number. -/
def spriteRows (m : Machine) (height : Nat) : List UInt8 :=
  (List.range height).map fun r => m.memory.read (UInt16.ofNat ((m.index.toNat + r) % 4096))

theorem readRun_eq_spriteRows (m : Machine) (height : Nat) :
    m.memory.readRun m.index height = m.spriteRows height :=
  List.map_congr_left fun r _ => m.memory.read_add m.index r

theorem length_spriteRows (m : Machine) (height : Nat) : (m.spriteRows height).length = height := by
  rw [← readRun_eq_spriteRows, Memory.length_readRun]

/-- A word names fewer rows than the screen has. -/
theorem length_spriteRows_le (m : Machine) (height : Fin 16) :
    (m.spriteRows height.val).length ≤ 32 := by
  have := height.isLt
  rw [length_spriteRows]
  omega

theorem drawSprite_eq (m : Machine) (d : Dialect) (x y : Register) (height : Fin 16) :
    let drawn := m.display.draw d.wrapSprites (m.reg x) (m.reg y) (m.spriteRows height.val)
    m.drawSprite d x y height =
      { m with display := drawn.1 }.setReg .flag (if drawn.2 then 1 else 0) := by
  rw [← readRun_eq_spriteRows]
  rfl

end Machine

variable {σ : Type} [ByteSource σ]

/-- **What `DXYN` does.**  Its rows are the bytes in the cells from the index register on, modulo
4096.  They are drawn at the position that `VX` and `VY` give, each as it was before the
instruction, whichever registers these are.

* The pixels that a set bit of a row hits, and no others, are changed.  The redraw flag is up, even
  if there are no rows.
* The flag register is 1 if some pixel was lit before and is dark after, and 0 otherwise.
* No other register is changed, nor is any part of the machine but the registers and the screen.
  The program goes on, no random byte is drawn, and there is nothing to report. -/
theorem executeWord_draws_rows (d : Dialect) {w : UInt16} (hw : Word.family w = 0xD) (m : Machine)
    (s : σ) :
    let x := m.reg (Word.x w)
    let y := m.reg (Word.y w)
    let rows := m.spriteRows (Word.n w).val
    let after := (executeWord d w m s).machine
    (∀ px py, after.display.pixel px py ≠ m.display.pixel px py ↔
        ∃ b, Sprite.Hits d.wrapSprites x.toNat y.toNat rows px py b) ∧
      after.display.redraw = true ∧
      (after.reg .flag = 1 ↔
        ∃ px py, m.display.pixel px py = true ∧ after.display.pixel px py = false) ∧
      (after.reg .flag = 1 ∨ after.reg .flag = 0) ∧
      (∀ r, r ≠ .flag → after.reg r = m.reg r) ∧
      executeWord d w m s =
        proceed { m with registers := after.registers, display := after.display } s := by
  intro x y rows after
  have hexecuted : executeWord d w m s =
      proceed (m.drawSprite d (Word.x w) (Word.y w) (Word.n w)) s :=
    executeWord_of_namedBy (i := .draw (Word.x w) (Word.y w) (Word.n w)) ⟨hw, rfl, rfl, rfl⟩ d m s
  let drawn := m.display.draw d.wrapSprites x y rows
  have hdrawn : m.drawSprite d (Word.x w) (Word.y w) (Word.n w) =
      { m with display := drawn.1 }.setReg .flag (if drawn.2 then 1 else 0) :=
    m.drawSprite_eq d _ _ _
  have hafter : after = { m with display := drawn.1 }.setReg .flag (if drawn.2 then 1 else 0) :=
    (congrArg Outcome.machine hexecuted).trans hdrawn
  have hfew : d.wrapSprites = true → rows.length ≤ 32 := fun _ => m.length_spriteRows_le _
  have hdisplay : after.display = drawn.1 := by
    rw [hafter]
    rfl
  have hflag : after.reg .flag = if drawn.2 then 1 else 0 := by
    rw [hafter, Machine.reg_setReg, if_pos rfl]
  have hcollides := m.display.draw_collides_iff_turns_off hfew x y
  refine ⟨fun px py => ?pixels, ?redraw, ?flag, ?zero, fun r hr => ?registers, ?rest⟩
  case pixels =>
    rw [hdisplay]
    exact m.display.pixel_draw_ne_iff hfew x y px py
  case redraw =>
    rw [hdisplay]
    rfl
  case flag =>
    rw [hflag, hdisplay, ← hcollides]
    cases drawn.2 <;> decide
  case zero =>
    rw [hflag]
    cases drawn.2 with
    | true => exact Or.inl rfl
    | false => exact Or.inr rfl
  case registers =>
    rw [hafter, Machine.reg_setReg, if_neg hr.symm]
    rfl
  case rest =>
    rw [hexecuted, hdrawn, hafter]
    rfl

/-- A machine that draws from the last cell of memory on, at the lower right corner of a screen whose
lower left pixel is lit.  The word it executes is `DF12`. -/
def cornerSprite : Machine :=
  { (Machine.initial.setReg .flag 63).setReg (Word.y 0xDF12) 31 with
    memory := (Memory.blank.write 0xFFF 0xC0).write 0x000 0x80
    index := 0xFFFF
    display := (Display.blank.draw false 0 31 [0x80]).1 }

/-- The flag register holds the column of the sprite, and then the collision in the lower left
corner.  The second row is in the first cell of memory. -/
theorem executeWord_draws_rows_cornerSprite :
    let after := (executeWord { wrapSprites := true } 0xDF12 cornerSprite (Seeded.mk 7)).machine
    Word.family 0xDF12 = 0xD ∧
      after.display.pixel 63 31 ≠ cornerSprite.display.pixel 63 31 ∧
      after.display.pixel 63 0 ≠ cornerSprite.display.pixel 63 0 ∧
      after.display.redraw = true ∧ after.reg .flag = 1 := by
  intro after
  have hw : Word.family 0xDF12 = 0xD := by decide
  obtain ⟨hpixels, hredraw, hflag, -⟩ :=
    executeWord_draws_rows { wrapSprites := true } hw cornerSprite (Seeded.mk 7)
  have hleft : after.display.pixel 0 31 ≠ cornerSprite.display.pixel 0 31 :=
    (hpixels 0 31).mpr ⟨⟨⟨0, by decide +kernel⟩, 1⟩, by decide +kernel⟩
  have hlit : cornerSprite.display.pixel 0 31 = true := by decide +kernel
  rw [hlit] at hleft
  refine ⟨hw, (hpixels 63 31).mpr ⟨⟨⟨0, by decide +kernel⟩, 0⟩, by decide +kernel⟩,
    (hpixels 63 0).mpr ⟨⟨⟨1, by decide +kernel⟩, 0⟩, by decide +kernel⟩, hredraw, ?_⟩
  exact hflag.mpr ⟨0, 31, hlit, Bool.eq_false_iff.mpr hleft⟩

end Chip8
