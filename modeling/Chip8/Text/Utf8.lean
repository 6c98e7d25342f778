/-!
# Reading bytes as text

File names are bytes, and not all of them are text.  `Utf8.decode` reads a sequence
of bytes as UTF-8 and puts the replacement character U+FFFD where that is not
possible: one for every maximal piece that begins like a character and is then cut
short, and one for every byte that cannot begin a character at all.

The reader is a scan that remembers the character it is in the middle of
(`Pending`): how many bytes are to come, which values the next of them may have, and
the bits collected so far.  The range for the *second* byte depends on the first ---
that is what excludes overlong forms, surrogates and numbers above U+10FFFF --- and
every later byte lies between `0x80` and `0xBF`.  A byte outside the range ends the
unfinished character and is then looked at afresh.
-/

namespace Chip8
namespace Utf8

/-- A character of which some bytes have been read. -/
structure Pending where
  /-- How many bytes are to come after the next one. -/
  after : Nat
  /-- The least value that the next byte may have. -/
  least : Nat
  /-- The greatest value that the next byte may have. -/
  greatest : Nat
  /-- The bits read so far. -/
  bits : Nat

/-- What stands in place of bytes that are not text. -/
def replacement : Char := '\uFFFD'

/-- Read a byte that is not in the middle of a character. -/
def first (b : UInt8) : List Char × Option Pending :=
  let n := b.toNat
  if n < 0x80 then ([Char.ofNat n], none)
  else if 0xC2 ≤ n ∧ n ≤ 0xDF then ([], some ⟨0, 0x80, 0xBF, n % 32⟩)
  else if n = 0xE0 then ([], some ⟨1, 0xA0, 0xBF, n % 16⟩)
  else if n = 0xED then ([], some ⟨1, 0x80, 0x9F, n % 16⟩)
  else if 0xE1 ≤ n ∧ n ≤ 0xEF then ([], some ⟨1, 0x80, 0xBF, n % 16⟩)
  else if n = 0xF0 then ([], some ⟨2, 0x90, 0xBF, n % 8⟩)
  else if 0xF1 ≤ n ∧ n ≤ 0xF3 then ([], some ⟨2, 0x80, 0xBF, n % 8⟩)
  else if n = 0xF4 then ([], some ⟨2, 0x80, 0x8F, n % 8⟩)
  else ([replacement], none)

/-- Read a byte. -/
def next (p : Option Pending) (b : UInt8) : List Char × Option Pending :=
  match p with
  | none => first b
  | some p =>
      if p.least ≤ b.toNat ∧ b.toNat ≤ p.greatest then
        let bits := p.bits * 64 + b.toNat % 64
        match p.after with
        | 0 => ([Char.ofNat bits], none)
        | after + 1 => ([], some ⟨after, 0x80, 0xBF, bits⟩)
      else
        let (characters, q) := first b
        (replacement :: characters, q)

/-- The characters of a sequence of bytes, of which some may have been read. -/
def characters (p : Option Pending) : List UInt8 → List Char
  | [] => if p.isSome then [replacement] else []
  | b :: bs =>
      let (read, q) := next p b
      read ++ characters q bs

/-- A sequence of bytes as text. -/
def decode (bytes : List UInt8) : String := String.ofList (characters none bytes)

end Utf8
end Chip8
