import Chip8.Text

/-!
# Dialects

The instruction set was implemented many times, and a handful of instructions
came out differently.  A program is usually written against one of these
implementations and misbehaves on another.  `Dialect` records the choices, one
Boolean per divergence, and everything that executes instructions takes one.

A dialect also has a one-byte form, in which it travels with a saved machine:
bit `k` of the byte is the `k`-th field.  The eighth bit is unassigned, and a byte
that sets it is refused rather than truncated, so the byte form is exactly the
dialect (`ofBits?_toBits`, `toBits_ofBits?`).
-/

namespace Chip8

/-- The choices by which implementations of the instruction set differ. -/
structure Dialect where
  /-- `8XY6` and `8XYE` shift `VX` in place instead of shifting `VY` into `VX`. -/
  shiftUsesVx : Bool := false
  /-- `FX55` and `FX65` advance the index register by `X` instead of `X + 1`. -/
  memoryIncrementByX : Bool := false
  /-- `FX55` and `FX65` leave the index register alone.  This choice hides the
  previous one. -/
  memoryLeaveIUnchanged : Bool := false
  /-- `BNNN` adds `VX` instead of `V0`. -/
  jumpAddsVx : Bool := false
  /-- Sprites wrap around the edges of the screen instead of being clipped. -/
  wrapSprites : Bool := false
  /-- `8XY1`, `8XY2` and `8XY3` clear the flag register. -/
  vfReset : Bool := false
  /-- The word `0000` stops the machine. -/
  haltOnZero : Bool := false
  deriving DecidableEq

namespace Dialect

/-- The dialect with every divergence off. -/
def plain : Dialect := {}

/-- The bit assigned to each choice. -/
def toBits (d : Dialect) : UInt8 :=
  let worth (b : Bool) (n : Nat) : Nat := if b then n else 0
  UInt8.ofNat (worth d.shiftUsesVx 1 + worth d.memoryIncrementByX 2
    + worth d.memoryLeaveIUnchanged 4 + worth d.jumpAddsVx 8 + worth d.wrapSprites 16
    + worth d.vfReset 32 + worth d.haltOnZero 64)

/-- The dialect of a byte, unless the byte sets the unassigned bit. -/
def ofBits? (bits : UInt8) : Option Dialect :=
  if bits.toNat < 128 then
    some {
      shiftUsesVx := bits.toNat.testBit 0
      memoryIncrementByX := bits.toNat.testBit 1
      memoryLeaveIUnchanged := bits.toNat.testBit 2
      jumpAddsVx := bits.toNat.testBit 3
      wrapSprites := bits.toNat.testBit 4
      vfReset := bits.toNat.testBit 5
      haltOnZero := bits.toNat.testBit 6 }
  else none

/-- Every dialect can be read back from its byte. -/
@[simp] theorem ofBits?_toBits (d : Dialect) : ofBits? d.toBits = some d := by
  obtain ⟨a, b, c, d, e, f, g⟩ := d
  revert a b c d e f g
  decide

theorem toBits_ofBits?_ofNat :
    ∀ n, n < 128 → (ofBits? (UInt8.ofNat n)).map toBits = some (UInt8.ofNat n) := by
  decide +kernel

/-- Exactly the bytes below 128 are dialects. -/
theorem ofBits?_eq_none_iff (bits : UInt8) : ofBits? bits = none ↔ 128 ≤ bits.toNat := by
  unfold ofBits?
  by_cases h : bits.toNat < 128
  · simp only [h, if_true, reduceCtorEq, false_iff]
    omega
  · simp only [h, if_false, true_iff]
    omega

/-- A byte that is a dialect is the byte of that dialect: nothing is dropped. -/
theorem toBits_ofBits? {bits : UInt8} {d : Dialect} (h : ofBits? bits = some d) :
    d.toBits = bits := by
  have hlt : bits.toNat < 128 := by
    rcases Nat.lt_or_ge bits.toNat 128 with hl | hg
    · exact hl
    · rw [(ofBits?_eq_none_iff bits).2 hg] at h
      cases h
  have h' := toBits_ofBits?_ofNat bits.toNat hlt
  simpa [h] using h'

/-- The union of two dialects: a choice is made if either makes it. -/
def union (a b : Dialect) : Dialect where
  shiftUsesVx := a.shiftUsesVx || b.shiftUsesVx
  memoryIncrementByX := a.memoryIncrementByX || b.memoryIncrementByX
  memoryLeaveIUnchanged := a.memoryLeaveIUnchanged || b.memoryLeaveIUnchanged
  jumpAddsVx := a.jumpAddsVx || b.jumpAddsVx
  wrapSprites := a.wrapSprites || b.wrapSprites
  vfReset := a.vfReset || b.vfReset
  haltOnZero := a.haltOnZero || b.haltOnZero

/-- The dialect written out, choice by choice. -/
def describe (d : Dialect) : String :=
  "Quirks \x7b shift_uses_vx: " ++ Text.truth d.shiftUsesVx
    ++ ", memory_increment_by_x: " ++ Text.truth d.memoryIncrementByX
    ++ ", memory_leave_i_unchanged: " ++ Text.truth d.memoryLeaveIUnchanged
    ++ ", jump_adds_vx: " ++ Text.truth d.jumpAddsVx
    ++ ", wrap_sprites: " ++ Text.truth d.wrapSprites
    ++ ", vf_reset: " ++ Text.truth d.vfReset
    ++ ", halt_on_zero: " ++ Text.truth d.haltOnZero ++ " \x7d"

end Dialect

/-! ## Presets -/

/-- Well-known implementations whose dialect has a name. -/
inductive Preset where
  /-- Every divergence off. -/
  | standard
  /-- The interpreter of the COSMAC VIP. -/
  | cosmac
  /-- SUPER-CHIP 1.1. -/
  | superChip
  deriving DecidableEq

namespace Preset

/-- Every preset, in the order in which they are offered. -/
def all : List Preset := [standard, cosmac, superChip]

/-- The dialect of a preset. -/
def dialect : Preset → Dialect
  | standard => .plain
  | cosmac => { vfReset := true }
  | superChip => { shiftUsesVx := true, memoryLeaveIUnchanged := true, jumpAddsVx := true }

/-- The name by which a preset is asked for. -/
def name : Preset → String
  | standard => "default"
  | cosmac => "cosmac"
  | superChip => "schip"

/-- The preset of a name, spelled exactly. -/
def ofName? (s : String) : Option Preset := all.find? fun p => p.name == s

/-- The preset of a name, in upper or lower case.  Only the letters `A` to `Z` are
folded: no other letter occurs in a name. -/
def ofNameAnyCase? (s : String) : Option Preset :=
  ofName? (s.map Char.toLower)

@[simp] theorem ofName?_name (p : Preset) : ofName? p.name = some p := by
  cases p <;> decide

end Preset
end Chip8
