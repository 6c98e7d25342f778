/-!
# Random bytes

One instruction draws a random byte.  `ByteSource` is what it draws from: a state
and a rule for the next byte.  The machine is written against the class, so a run
is a function of the state of its source, and two runs whose sources are in the same
state draw the same bytes.

Two sources are given.  `Seeded` is a small generator with 64 bits of state: the
state advances by a fixed odd number, and each output folds one 128-bit product of
the new state with a scrambled copy of itself.  `Tape` plays a list of bytes over
and over, for replaying a run.
-/

namespace Chip8

/-- A source of bytes. -/
class ByteSource (σ : Type) where
  /-- The next byte, and the state of the source after it. -/
  next : σ → UInt8 × σ

/-! ## A seeded generator -/

/-- The state of the seeded generator. -/
structure Seeded where
  /-- Sixty-four bits, at first the seed. -/
  state : UInt64
  deriving DecidableEq

namespace Seeded

/-- What the state advances by. -/
def stride : UInt64 := 0xA0761D6478BD642F

/-- What the state is scrambled with. -/
def scramble : UInt64 := 0xE7037ED1A0B428DB

/-- The exclusive or of the two halves of a 128-bit number. -/
def fold (n : Nat) : Nat := (n % 0x10000000000000000) ^^^ (n / 0x10000000000000000)

/-- Advance the state and fold it into a byte. -/
def next (g : Seeded) : UInt8 × Seeded :=
  let state := g.state + stride
  (UInt8.ofNat (fold (state.toNat * (state ^^^ scramble).toNat) % 256), ⟨state⟩)

instance : ByteSource Seeded := ⟨next⟩

end Seeded

/-! ## A tape -/

/-- A list of bytes and what is left of it to be played. -/
structure Tape where
  /-- The whole list. -/
  bytes : List UInt8
  /-- What is still to come before the list starts over. -/
  rest : List UInt8
  deriving DecidableEq

namespace Tape

/-- A tape at its start. -/
def ofList (bytes : List UInt8) : Tape := ⟨bytes, bytes⟩

/-- The next byte of the tape.  An empty tape plays zeros. -/
def next (t : Tape) : UInt8 × Tape :=
  match t.rest with
  | b :: rest => (b, ⟨t.bytes, rest⟩)
  | [] =>
      match t.bytes with
      | b :: rest => (b, ⟨t.bytes, rest⟩)
      | [] => (0, t)

instance : ByteSource Tape := ⟨next⟩

end Tape
end Chip8
