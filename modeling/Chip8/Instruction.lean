import Chip8.Word

/-!
# The instructions

An instruction word either names one of the thirty-four instructions below or
names nothing.  `Instruction` lists them by what they do, with their operands
already picked out of the word, and `decode` reads a word.

Decoding is a match on the first digit, family by family.  Six families look at
further digits and may fail: `0`, `8`, `E`, `F`, and the two register comparisons
`5` and `9`.  A word that names nothing decodes to `none`, which is not an
error: the machine reports it and steps over it, and a listing shows it as
`???`.  Both ask this one function, so they cannot disagree about which words
are instructions.

The word `0000` decodes to `none` as well.  Some dialects stop on it, but that is
a matter of execution and not of the instruction set.
-/

namespace Chip8

/-- The register-to-register operations of the `8XYn` family. -/
inductive Operation where
  /-- `8XY0`: `VX := VY`. -/
  | copy
  /-- `8XY1`: bitwise or. -/
  | or
  /-- `8XY2`: bitwise and. -/
  | and
  /-- `8XY3`: bitwise exclusive or. -/
  | xor
  /-- `8XY4`: sum, with carry. -/
  | add
  /-- `8XY5`: `VX - VY`, with the flag raised when nothing was borrowed. -/
  | subtract
  /-- `8XY6`: shift right by one, with the bit that fell out. -/
  | shiftRight
  /-- `8XY7`: `VY - VX`, with the flag raised when nothing was borrowed. -/
  | subtractFrom
  /-- `8XYE`: shift left by one, with the bit that fell out. -/
  | shiftLeft
  deriving DecidableEq

/-- An instruction with its operands. -/
inductive Instruction where
  /-- `00E0`: blank the screen. -/
  | clear
  /-- `00EE`: return from a subroutine. -/
  | ret
  /-- `1NNN`: go to an address. -/
  | jump (target : UInt16)
  /-- `2NNN`: call a subroutine. -/
  | call (target : UInt16)
  /-- `3XNN`: skip if a register holds a value. -/
  | skipIfValue (x : Register) (value : UInt8)
  /-- `4XNN`: skip unless a register holds a value. -/
  | skipUnlessValue (x : Register) (value : UInt8)
  /-- `5XY0`: skip if two registers agree. -/
  | skipIfSame (x y : Register)
  /-- `6XNN`: set a register. -/
  | set (x : Register) (value : UInt8)
  /-- `7XNN`: add to a register, without touching the flag. -/
  | increase (x : Register) (value : UInt8)
  /-- `8XYn`: combine two registers. -/
  | combine (operation : Operation) (x y : Register)
  /-- `9XY0`: skip unless two registers agree. -/
  | skipUnlessSame (x y : Register)
  /-- `ANNN`: set the index register. -/
  | setIndex (target : UInt16)
  /-- `BNNN`: go to an address plus a register.  Dialects differ on the register:
  `V0`, or the one named by the first digit of the address. -/
  | jumpPlus (x : Register) (base : UInt16)
  /-- `CXNN`: a random byte, masked. -/
  | random (x : Register) (mask : UInt8)
  /-- `DXYN`: draw a sprite of `height` rows. -/
  | draw (x y : Register) (height : Fin 16)
  /-- `EX9E`: skip if the key named by a register is down. -/
  | skipIfKey (x : Register)
  /-- `EXA1`: skip unless the key named by a register is down. -/
  | skipUnlessKey (x : Register)
  /-- `FX07`: read the delay timer. -/
  | readDelay (x : Register)
  /-- `FX0A`: wait for a key. -/
  | awaitKey (x : Register)
  /-- `FX15`: set the delay timer. -/
  | setDelay (x : Register)
  /-- `FX18`: set the sound timer. -/
  | setSound (x : Register)
  /-- `FX1E`: add a register to the index register. -/
  | increaseIndex (x : Register)
  /-- `FX29`: point the index register at the glyph of a digit. -/
  | glyph (x : Register)
  /-- `FX33`: write the three decimal digits of a register. -/
  | decimal (x : Register)
  /-- `FX55`: write `V0` to `VX` to memory. -/
  | store (x : Register)
  /-- `FX65`: read `V0` to `VX` from memory. -/
  | load (x : Register)
  deriving DecidableEq

/-- The operation that the last digit of an `8XYn` word names. -/
def Operation.ofDigit? : Nat → Option Operation
  | 0x0 => some .copy
  | 0x1 => some .or
  | 0x2 => some .and
  | 0x3 => some .xor
  | 0x4 => some .add
  | 0x5 => some .subtract
  | 0x6 => some .shiftRight
  | 0x7 => some .subtractFrom
  | 0xE => some .shiftLeft
  | _ => none

namespace Instruction

/-! ## Decoding -/

/-- The `FXnn` instruction whose last two digits are `nn`. -/
def ofMiscellaneous? (x : Register) : Nat → Option Instruction
  | 0x07 => some (readDelay x)
  | 0x0A => some (awaitKey x)
  | 0x15 => some (setDelay x)
  | 0x18 => some (setSound x)
  | 0x1E => some (increaseIndex x)
  | 0x29 => some (glyph x)
  | 0x33 => some (decimal x)
  | 0x55 => some (store x)
  | 0x65 => some (load x)
  | _ => none

/-- The instruction that a word names, if it names one. -/
def decode (w : UInt16) : Option Instruction :=
  match Word.family w with
  | 0x0 => if w = 0x00E0 then some clear else if w = 0x00EE then some ret else none
  | 0x1 => some (jump (Word.nnn w))
  | 0x2 => some (call (Word.nnn w))
  | 0x3 => some (skipIfValue (Word.x w) (Word.nn w))
  | 0x4 => some (skipUnlessValue (Word.x w) (Word.nn w))
  | 0x5 => if Word.n w = 0 then some (skipIfSame (Word.x w) (Word.y w)) else none
  | 0x6 => some (set (Word.x w) (Word.nn w))
  | 0x7 => some (increase (Word.x w) (Word.nn w))
  | 0x8 => (Operation.ofDigit? (Word.n w).val).map (combine · (Word.x w) (Word.y w))
  | 0x9 => if Word.n w = 0 then some (skipUnlessSame (Word.x w) (Word.y w)) else none
  | 0xA => some (setIndex (Word.nnn w))
  | 0xB => some (jumpPlus (Word.x w) (Word.nnn w))
  | 0xC => some (random (Word.x w) (Word.nn w))
  | 0xD => some (draw (Word.x w) (Word.y w) (Word.n w))
  | 0xE =>
      if Word.nn w = 0x9E then some (skipIfKey (Word.x w))
      else if Word.nn w = 0xA1 then some (skipUnlessKey (Word.x w))
      else none
  | _ => ofMiscellaneous? (Word.x w) (Word.nn w).toNat

/-- The zero word is not an instruction. -/
theorem decode_zero : decode 0 = none := by decide

end Instruction
end Chip8
