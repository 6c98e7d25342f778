import Chip8.Instruction.Mnemonic

/-!
# Listings

A program written out, one line to an instruction word: its address, the word and
its mnemonic.  Words that are no instructions are listed like any others, and a last
byte that has no partner gets a line of its own, so every byte of the program can be
read off the listing.

Addresses count on from the start and wrap at sixteen bits.
-/

namespace Chip8
namespace Listing

/-- The line of a word. -/
def wordLine (address word : UInt16) : String :=
  Text.address address ++ ": " ++ Text.word word ++ "  " ++ Instruction.spell word

/-- The line of a byte without a partner. -/
def byteLine (address : UInt16) (byte : UInt8) : String :=
  Text.address address ++ ": " ++ Text.byte byte

/-- The lines of a program that starts at an address. -/
def lines (address : UInt16) : List UInt8 → List String
  | high :: low :: rest =>
      wordLine address (Word.ofBytes high low) :: lines (address + 2) rest
  | [byte] => [byteLine address byte]
  | [] => []

/-- Two bytes to a line, and the last line may hold one. -/
theorem length_lines (address : UInt16) (bytes : List UInt8) :
    (lines address bytes).length = (bytes.length + 1) / 2 := by
  fun_induction lines address bytes with
  | case1 address high low rest ih =>
      simp only [List.length_cons, ih]
      omega
  | case2 => simp
  | case3 => simp

end Listing
end Chip8
