import Chip8.Listing
import Chip8.Proofs.Text.Hexadecimal

/-!
# Reading a listing

A listing is meant for people, but it is also a complete account of a program: every line has its
bytes in it, next to what they mean.  Whoever has the listing can therefore get the program back,
and does not have to understand a mnemonic for it.

The bytes of a line stand between its first colon and the blank that ends them (`listed`).  This
works because the digits in front of them, of which there are three or four, are neither.  A last
byte without a partner has nothing behind it, so its line reads as one byte; a word has a mnemonic
behind it, and reads as two.  Where the program starts does not matter, so listings that are equal
are listings of the same program wherever it was said to start (`flatMap_listed_lines`).

The lines themselves are given by their number, with addresses that wrap at sixteen bits
(`getElem?_lines_of_word`, `getElem?_lines_of_byte`).
-/

namespace Chip8
namespace Listing

/-! ## Line by line -/

/-- Behind the first word of a program, addresses count on. -/
theorem address_succ (start : UInt16) (k : Nat) :
    start + 2 + UInt16.ofNat (2 * k) = start + UInt16.ofNat (2 * (k + 1)) := by
  rw [← UInt16.toNat_inj]
  simp only [UInt16.toNat_add, UInt16.toNat_ofNat', UInt16.reduceToNat]
  omega

/-- The line of a word has the number of the word. -/
theorem getElem?_lines_of_word (start : UInt16) {bytes : List UInt8} {k : Nat} {high low : UInt8}
    (hhigh : bytes[2 * k]? = some high) (hlow : bytes[2 * k + 1]? = some low) :
    (lines start bytes)[k]? =
      some (wordLine (start + UInt16.ofNat (2 * k)) (Word.ofBytes high low)) := by
  induction start, bytes using lines.induct generalizing k with
  | case1 start first second rest ih =>
      cases k with
      | zero =>
          obtain rfl : first = high := Option.some.inj hhigh
          obtain rfl : second = low := Option.some.inj hlow
          exact congrArg (fun a => some (wordLine a _)) (UInt16.add_zero start).symm
      | succ k =>
          rw [lines, List.getElem?_cons_succ, ih hhigh hlow, address_succ]
  | case2 start byte => cases hlow
  | case3 start => cases hhigh

/-- The line of a byte without a partner comes last. -/
theorem getElem?_lines_of_byte (start : UInt16) {bytes : List UInt8} {k : Nat} {byte : UInt8}
    (hbyte : bytes[2 * k]? = some byte) (hlast : bytes.length = 2 * k + 1) :
    (lines start bytes)[k]? = some (byteLine (start + UInt16.ofNat (2 * k)) byte) := by
  induction start, bytes using lines.induct generalizing k with
  | case1 start first second rest ih =>
      simp only [List.length_cons] at hlast
      cases k with
      | zero => omega
      | succ k =>
          rw [lines, List.getElem?_cons_succ, ih hbyte (by omega), address_succ]
  | case2 start last =>
      obtain rfl : k = 0 := by
        rw [List.length_singleton] at hlast
        omega
      obtain rfl : last = byte := Option.some.inj hbyte
      exact congrArg (fun a => some (byteLine a _)) (UInt16.add_zero start).symm
  | case3 start => cases hbyte

/-! ## Bytes out of lines -/

/-- The bytes that a line lists: what stands between its first colon, with a blank behind it, and
the next blank. -/
def listed (line : String) : List UInt8 :=
  Text.readBytes (((line.toList.dropWhile (· != ':')).drop 2).takeWhile (· != ' '))

/-- The address of a line ends with its first colon. -/
theorem drop_dropWhile_address (address : UInt16) (rest : List Char) :
    ((Text.addressDigits address.toNat ++ ':' :: ' ' :: rest).dropWhile (· != ':')).drop 2 =
      rest := by
  rw [List.dropWhile_append_of_pos fun c hc =>
    bne_iff_ne.mpr (Text.ne_of_mem_addressDigits hc).1]
  rfl

theorem listed_wordLine (address : UInt16) (high low : UInt8) :
    listed (wordLine address (Word.ofBytes high low)) = [high, low] := by
  have hline : (wordLine address (Word.ofBytes high low)).toList =
      Text.addressDigits address.toNat ++ ':' :: ' ' ::
        (Text.wordDigits (high.toNat * 256 + low.toNat) ++
          ' ' :: ' ' :: (Instruction.spell (Word.ofBytes high low)).toList) := by
    simp only [wordLine, Text.address, Text.word, Word.toNat_ofBytes, String.toList_append,
      String.toList_ofList, List.append_assoc]
    rfl
  rw [listed, hline, drop_dropWhile_address, List.takeWhile_append_of_pos fun c hc =>
    bne_iff_ne.mpr (Text.ne_of_mem_wordDigits hc).2, Text.wordDigits_of_bytes, List.append_assoc,
    Text.readBytes_byteDigits, Text.readBytes_byteDigits]
  rfl

theorem listed_byteLine (address : UInt16) (byte : UInt8) :
    listed (byteLine address byte) = [byte] := by
  have hline : (byteLine address byte).toList =
      Text.addressDigits address.toNat ++ ':' :: ' ' :: (Text.byteDigits byte.toNat ++ []) := by
    simp only [byteLine, Text.address, Text.byte, String.toList_append, String.toList_ofList,
      List.append_assoc, List.append_nil]
    rfl
  rw [listed, hline, drop_dropWhile_address, List.takeWhile_append_of_pos fun c hc =>
    bne_iff_ne.mpr (Text.ne_of_mem_byteDigits hc).2, Text.readBytes_byteDigits]
  rfl

/-- **The lines of a listing list the program**, wherever it starts. -/
theorem flatMap_listed_lines (start : UInt16) (bytes : List UInt8) :
    (lines start bytes).flatMap listed = bytes := by
  fun_induction lines start bytes with
  | case1 start high low rest ih => rw [List.flatMap_cons, listed_wordLine, ih]; rfl
  | case2 start byte => rw [List.flatMap_cons, listed_byteLine]; rfl
  | case3 => rfl

theorem wordLine_eq (address : UInt16) (high low : UInt8) :
    wordLine address (Word.ofBytes high low) =
      Text.hex 3 address.toNat ++ ": " ++ Text.hex 4 (high.toNat * 256 + low.toNat) ++ "  " ++
        Instruction.spell (Word.ofBytes high low) := by
  rw [wordLine, Text.address_eq_hex, Text.word_eq_hex, Word.toNat_ofBytes]

theorem byteLine_eq (address : UInt16) (byte : UInt8) :
    byteLine address byte = Text.hex 3 address.toNat ++ ": " ++ Text.hex 2 byte.toNat := by
  rw [byteLine, Text.address_eq_hex, Text.byte_eq_hex]

theorem toNat_address (start : UInt16) (k : Nat) :
    (start + UInt16.ofNat (2 * k)).toNat = (start.toNat + 2 * k) % 65536 := by
  simp only [UInt16.toNat_add, UInt16.toNat_ofNat']
  omega

/-- **A listing drops nothing.**  Take any start and any sequence of bytes.

* The listing has a line for every two bytes, and one for a byte that is left over.
* The line with the number `k`, counted from zero, has the address `2 * k` behind the start, counted
  around at sixteen bits and in at least three digits; the word of the bytes `2 * k` and
  `2 * k + 1`, the first of them being the high one, in four digits; and the mnemonic of that word.
* If a byte is left over, the last line has its address and the byte, in two digits.
* The bytes can be read off the lines.  So no other sequence of bytes has the same listing, wherever
  it is said to start. -/
theorem lines_drop_nothing (start : UInt16) (bytes : List UInt8) :
    let listing := lines start bytes
    let place (k : Nat) : Nat := (start.toNat + 2 * k) % 65536
    listing.length = (bytes.length + 1) / 2 ∧
      (∀ k < bytes.length / 2, ∃ high low, bytes[2 * k]? = some high ∧
        bytes[2 * k + 1]? = some low ∧
        listing[k]? = some (Text.hex 3 (place k) ++ ": " ++
          Text.hex 4 (high.toNat * 256 + low.toNat) ++ "  " ++
            Instruction.spell (Word.ofBytes high low))) ∧
      (bytes.length % 2 = 1 → ∃ last, bytes.getLast? = some last ∧
        listing.getLast? = some (Text.hex 3 (place (bytes.length / 2)) ++ ": " ++
          Text.hex 2 last.toNat)) ∧
      listing.flatMap listed = bytes ∧
      ∀ (start' : UInt16) (bytes' : List UInt8),
        lines start' bytes' = listing → bytes' = bytes := by
  intro listing place
  have hread : listing.flatMap listed = bytes := flatMap_listed_lines start bytes
  refine ⟨length_lines start bytes, fun k hk => ?_, fun hodd => ?_, hread,
    fun start' bytes' h => ?_⟩
  · have hhigh : bytes[2 * k]? = some bytes[2 * k] := List.getElem?_eq_getElem (by omega)
    have hlow : bytes[2 * k + 1]? = some bytes[2 * k + 1] := List.getElem?_eq_getElem (by omega)
    refine ⟨_, _, hhigh, hlow, (getElem?_lines_of_word start hhigh hlow).trans ?_⟩
    rw [wordLine_eq, toNat_address]
  · have hlength : bytes.length = 2 * (bytes.length / 2) + 1 := by omega
    have hlines : listing.length = bytes.length / 2 + 1 := by
      rw [length_lines]
      omega
    obtain ⟨last, hlast⟩ : ∃ last, bytes[2 * (bytes.length / 2)]? = some last :=
      ⟨_, List.getElem?_eq_getElem (by omega)⟩
    have hline := getElem?_lines_of_byte start hlast hlength
    refine ⟨last, ?_, ?_⟩
    · rw [List.getLast?_eq_getElem?, ← hlast]
      exact congrArg (bytes[·]?) (by omega)
    · rw [List.getLast?_eq_getElem?, hlines, Nat.add_sub_cancel, hline, byteLine_eq, toNat_address]
  · rw [← flatMap_listed_lines start' bytes', h, hread]

/-- Addresses that wrap, and a byte that is left over. -/
example : lines 0xFFFE [0x00, 0xE0, 0xD1, 0x2F, 0xAB] =
    ["FFFE: 00E0  CLS", "000: D12F  DRW V1, V2, 0xF", "002: AB"] := by decide +kernel

end Listing
end Chip8
