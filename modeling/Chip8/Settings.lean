import Chip8.Dialect

/-!
# Settings

What is decided before a console is switched on and stays as it is: the dialect it
starts in and how many instructions it executes in a frame.  The latter has no right
value, since programs were written for machines of different speeds; ten to a frame
come to about six hundred in a second, which suits most of them.
-/

namespace Chip8

/-- How many instructions are executed in a frame, unless something else is asked
for. -/
def usualCyclesPerFrame : Nat := 10

/-- What stays fixed while a console is on. -/
structure Settings where
  dialect : Dialect := .plain
  /-- The most instructions executed in a frame. -/
  cyclesPerFrame : Nat := usualCyclesPerFrame
  deriving DecidableEq

end Chip8
