import Chip8.Memory
import Chip8.Text.Utf8

/-!
# Roms

A rom is a program image with a name.  It has no header and no structure; the only
thing that can be wrong with it is its size.  The two bounds are fields of the type,
so a rom in hand always fits, and loading one cannot fail.

There is one way to make a rom from bytes, and `isOk_ofBytes` says when it succeeds.
A rom from a file is named after the file.  The name of a file is a sequence of bytes
like its contents, and is read as text as far as that goes.
-/

namespace Chip8

/-- A program image that fits into memory. -/
structure Rom where
  name : String
  bytes : List UInt8
  /-- There is something to run. -/
  nonempty : bytes ≠ []
  /-- It ends before memory does. -/
  fits : bytes.length ≤ 3584
  deriving DecidableEq

namespace Rom

/-- The rom with given bytes. -/
def ofBytes (name : String) (bytes : List UInt8) : Except Refusal Rom :=
  if h : bytes = [] then .error .emptyRom
  else if h' : bytes.length ≤ 3584 then .ok ⟨name, bytes, h, h'⟩
  else .error (.romTooLarge bytes.length)

/-- The rom in a file, given the path by which it was asked for, the bytes of its
name, and what came of reading it: its bytes, or the reason why there are none. -/
def ofFile (path : String) (fileName : List UInt8) (contents : Except String (List UInt8)) :
    Except Refusal Rom :=
  match contents with
  | .ok bytes => ofBytes (Utf8.decode fileName) bytes
  | .error reason => .error (.romUnreadable s!"{path}: {reason}")

/-- Exactly the images of one byte up to the capacity are roms. -/
theorem isOk_ofBytes (name : String) (bytes : List UInt8) :
    (ofBytes name bytes).isOk = true ↔ 1 ≤ bytes.length ∧ bytes.length ≤ 3584 := by
  unfold ofBytes
  by_cases h : bytes = []
  · subst h
    simp [Except.isOk, Except.toBool]
  · have hpos : 1 ≤ bytes.length := List.length_pos_iff.2 h
    by_cases h' : bytes.length ≤ 3584 <;>
      simp [h, h', hpos, Except.isOk, Except.toBool]

/-- A rom written out briefly: its name, its size and its first bytes. -/
def describe (r : Rom) : String :=
  s!"{r.name} ({r.bytes.length} bytes): " ++ Text.bracketed ((r.bytes.take 6).map Text.byte)

end Rom
end Chip8
