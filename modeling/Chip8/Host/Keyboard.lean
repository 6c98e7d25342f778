import Chip8.Keys

/-!
# The keyboard

A keyboard has many keys, and the program uses twenty-one of them.  Sixteen stand
for the keypad: the square at the left of the letter block, laid out like the keypad
itself.

    keypad      keyboard
    1 2 3 C     1 2 3 4
    4 5 6 D     Q W E R
    7 8 9 E     A S D F
    A 0 B F     Z X C V

The other five are commands.  Keys are known by name; a key with another name means
nothing.

The two groups are disjoint and each is duplicate-free, so a name stands for at most
one thing, and every key of the keypad is reached from exactly one name
(`padKey?_padName`).
-/

namespace Chip8
namespace Keyboard

/-- What the user can ask for with a single key. -/
inductive Command where
  | quit
  | pause
  /-- Start the rom again. -/
  | reset
  | save
  | restore
  deriving DecidableEq

/-- What a key of the keyboard stands for. -/
inductive Binding where
  | pad (key : Fin 16)
  | command (c : Command)
  deriving DecidableEq

/-- The names of the keys that stand for the keypad, in the order of the keypad. -/
def padNames : Vector String 16 :=
  #v["X", "Key1", "Key2", "Key3", "Q", "W", "E", "A", "S", "D", "Z", "C", "Key4", "R", "F", "V"]

/-- The names of the keys that stand for commands. -/
def commandNames : List (String × Command) :=
  [("Escape", .quit), ("P", .pause), ("Back", .reset), ("F5", .save), ("F9", .restore)]

/-- The key of the keypad that a name stands for. -/
def padKey? (name : String) : Option (Fin 16) :=
  (List.finRange 16).find? fun k => padNames.get k == name

/-- The command that a name stands for. -/
def command? (name : String) : Option Command := commandNames.lookup name

/-- What a name stands for. -/
def binding? (name : String) : Option Binding :=
  match padKey? name with
  | some key => some (.pad key)
  | none => (command? name).map .command

/-- Every key of the keypad is found under its name. -/
theorem padKey?_padName : ∀ k : Fin 16, padKey? (padNames.get k) = some k := by
  decide +kernel

end Keyboard
end Chip8
