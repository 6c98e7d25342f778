import Chip8.Text
import Mathlib.Data.Nat.Digits.Defs

/-!
# Hexadecimal, written and read

The written forms of bytes, words and addresses are three forms of one: the digits of a number in
base sixteen, with zeros in front of them up to a width.  The width is two, four and three
(`byteDigits_eq`, `wordDigits_eq`, `addressDigits_eq`).  It is a least width: an address that needs
a fourth digit gets it, and there the three differ.

Read the other way, a pair of digits is a byte (`readBytes`).  Nothing else is needed to read a
word, which is written as its two bytes one after the other.
-/

namespace Chip8
namespace Text

/-- The digits of a number in base sixteen, with zeros in front of them up to a width. -/
def padded (width n : Nat) : List Char := ((Nat.digits 16 n).reverse.map digit).leftpad width '0'

/-- The last digit is the remainder, and the digits before it are those of the quotient. -/
theorem padded_succ (width n : Nat) :
    padded (width + 1) n = padded width (n / 16) ++ [digit (n % 16)] := by
  rcases Nat.eq_zero_or_pos n with rfl | hpos
  · have hzero : digit 0 = '0' := by decide
    simp only [padded, List.leftpad, Nat.zero_div, Nat.zero_mod, Nat.digits_zero, List.reverse_nil,
      List.map_nil, List.append_nil, List.length_nil, Nat.sub_zero, hzero, List.replicate_succ']
  · rw [padded, padded, Nat.digits_def' (by decide) hpos, List.reverse_cons, List.map_append,
      List.map_singleton, List.leftpad, List.leftpad, List.length_append, List.length_singleton,
      Nat.add_sub_add_right, List.append_assoc]

theorem padded_zero_zero : padded 0 0 = [] := by
  rw [padded, Nat.digits_zero]
  rfl

/-- A number below sixteen is its own digit. -/
theorem padded_zero_of_lt {n : Nat} (hpos : n ≠ 0) (hlt : n < 16) : padded 0 n = [digit n] := by
  rw [padded, Nat.digits_of_lt 16 n hpos hlt]
  rfl

theorem byteDigits_eq {n : Nat} (h : n < 256) : byteDigits n = padded 2 n := by
  have hnone : n / 16 / 16 = 0 := by omega
  rw [padded_succ, padded_succ, hnone, padded_zero_zero]
  rfl

theorem wordDigits_eq {n : Nat} (h : n < 65536) : wordDigits n = padded 4 n := by
  have hnone : n / 16 / 16 / 16 / 16 = 0 := by omega
  have hbytes : n / 256 = n / 16 / 16 := by omega
  rw [padded_succ, padded_succ, padded_succ, padded_succ, hnone, padded_zero_zero, wordDigits,
    hbytes]
  rfl

theorem addressDigits_eq {n : Nat} (h : n < 65536) : addressDigits n = padded 3 n := by
  have hbytes : n / 256 = n / 16 / 16 := by omega
  rw [padded_succ, padded_succ, padded_succ, addressDigits, wordDigits, hbytes]
  by_cases hshort : n < 0x1000
  · have hnone : n / 16 / 16 / 16 = 0 := by omega
    rw [if_pos hshort, hnone, padded_zero_zero]
    rfl
  · have hfourth : n / 16 / 16 / 16 % 16 = n / 16 / 16 / 16 := by omega
    rw [if_neg hshort, padded_zero_of_lt (by omega) (by omega), byteDigits, hfourth]
    rfl

/-- A number in hexadecimal, with zeros in front of it up to a width. -/
def hex (width n : Nat) : String := String.ofList (padded width n)

theorem byte_eq_hex (b : UInt8) : byte b = hex 2 b.toNat :=
  congrArg String.ofList (byteDigits_eq b.toNat_lt)

theorem word_eq_hex (w : UInt16) : word w = hex 4 w.toNat :=
  congrArg String.ofList (wordDigits_eq w.toNat_lt)

theorem address_eq_hex (a : UInt16) : address a = hex 3 a.toNat :=
  congrArg String.ofList (addressDigits_eq a.toNat_lt)

/-! ## Reading -/

/-- The number that a digit stands for. -/
def digitValue (c : Char) : Nat := if c.toNat < 58 then c.toNat - 48 else c.toNat - 55

/-- The bytes that are written in a sequence of digits, two digits to a byte. -/
def readBytes : List Char → List UInt8
  | high :: low :: rest => UInt8.ofNat (digitValue high * 16 + digitValue low) :: readBytes rest
  | _ => []

theorem digitValue_digit : ∀ d < 16, digitValue (digit d) = d := by decide

/-- A digit is neither a colon nor a blank. -/
theorem digit_ne : ∀ d < 16, digit d ≠ ':' ∧ digit d ≠ ' ' := by decide

theorem readBytes_byteDigits (b : UInt8) (rest : List Char) :
    readBytes (byteDigits b.toNat ++ rest) = b :: readBytes rest := by
  have hb := b.toNat_lt
  have hvalue : b.toNat / 16 % 16 * 16 + b.toNat % 16 = b.toNat := by omega
  show UInt8.ofNat _ :: readBytes rest = _
  rw [digitValue_digit _ (by omega), digitValue_digit _ (by omega), hvalue, UInt8.ofNat_toNat]

theorem byteDigits_mod (n : Nat) : byteDigits (n % 256) = byteDigits n := by
  have hhigh : n % 256 / 16 % 16 = n / 16 % 16 := by omega
  have hlow : n % 256 % 16 = n % 16 := by omega
  rw [byteDigits, byteDigits, hhigh, hlow]

/-- A word is written as its two bytes. -/
theorem wordDigits_of_bytes (high low : UInt8) :
    wordDigits (high.toNat * 256 + low.toNat) = byteDigits high.toNat ++ byteDigits low.toNat := by
  have hlow := low.toNat_lt
  have hquotient : (high.toNat * 256 + low.toNat) / 256 = high.toNat := by omega
  have hremainder : (high.toNat * 256 + low.toNat) % 256 = low.toNat := by omega
  rw [wordDigits, hquotient, ← byteDigits_mod (high.toNat * 256 + low.toNat), hremainder]

/-! ## What a written form consists of -/

/-- A byte is written without colons and blanks. -/
theorem ne_of_mem_byteDigits {n : Nat} {c : Char} (h : c ∈ byteDigits n) : c ≠ ':' ∧ c ≠ ' ' := by
  rw [byteDigits, List.mem_cons, List.mem_singleton] at h
  rcases h with rfl | rfl
  · exact digit_ne _ (Nat.mod_lt _ (by decide))
  · exact digit_ne _ (Nat.mod_lt _ (by decide))

theorem ne_of_mem_wordDigits {n : Nat} {c : Char} (h : c ∈ wordDigits n) : c ≠ ':' ∧ c ≠ ' ' :=
  (List.mem_append.mp h).elim ne_of_mem_byteDigits ne_of_mem_byteDigits

theorem ne_of_mem_addressDigits {n : Nat} {c : Char} (h : c ∈ addressDigits n) :
    c ≠ ':' ∧ c ≠ ' ' := by
  rw [addressDigits] at h
  split at h
  · exact ne_of_mem_wordDigits (List.mem_of_mem_drop h)
  · exact ne_of_mem_wordDigits h

end Text
end Chip8
