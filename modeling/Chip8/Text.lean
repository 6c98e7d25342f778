/-!
# Written forms of numbers and sequences

Everything the machine prints --- listings, register lines, memory dumps, log
lines --- is made of a few written forms, and this file holds them.

Hexadecimal is upper case throughout.  A byte always takes two digits and a word
always takes four, but an *address* takes three: the address space has twelve
bits, so a fourth digit appears only for a word that points past it.  That is
the one variable-width form here, and `address_toList` says exactly when the
fourth digit is there.

The forms are built as lists of characters first and become strings last, so a
statement about what is printed is a statement about a short list.
-/

namespace Chip8
namespace Text

/-- The upper case hexadecimal digit of a number below sixteen. -/
def digit (d : Nat) : Char :=
  if d < 10 then Char.ofNat (48 + d) else Char.ofNat (55 + d)

/-- The two digits of a byte. -/
def byteDigits (b : Nat) : List Char := [digit (b / 16 % 16), digit (b % 16)]

/-- The four digits of a word. -/
def wordDigits (w : Nat) : List Char := byteDigits (w / 256) ++ byteDigits w

/-- The digits of an address: three when they suffice, four otherwise. -/
def addressDigits (a : Nat) : List Char :=
  if a < 0x1000 then (wordDigits a).drop 1 else wordDigits a

/-- A byte in two hexadecimal digits. -/
def byte (b : UInt8) : String := String.ofList (byteDigits b.toNat)

/-- A word in four hexadecimal digits. -/
def word (w : UInt16) : String := String.ofList (wordDigits w.toNat)

/-- An address in at least three hexadecimal digits. -/
def address (a : UInt16) : String := String.ofList (addressDigits a.toNat)

/-- One hexadecimal digit, for a register, a key or a sprite height. -/
def nibble (d : Fin 16) : String := String.ofList [digit d.val]

@[simp] theorem byte_toList (b : UInt8) : (byte b).toList = byteDigits b.toNat := by
  simp [byte]

@[simp] theorem word_toList (w : UInt16) : (word w).toList = wordDigits w.toNat := by
  simp [word]

@[simp] theorem address_toList (a : UInt16) :
    (address a).toList = if a.toNat < 0x1000 then (wordDigits a.toNat).drop 1
      else wordDigits a.toNat := by
  simp [address, addressDigits]

/-! ## Sequences -/

/-- A sequence in square brackets, its items parted by a comma and a blank. -/
def bracketed (items : List String) : String :=
  "[" ++ ", ".intercalate items ++ "]"

/-- A truth value as a word. -/
def truth (b : Bool) : String := if b then "true" else "false"

/-- Lines, each closed by a line break. -/
def lines (ls : List String) : String := String.join (ls.map (· ++ "\n"))

end Text
end Chip8
