import Chip8.Settings

/-!
# The command line

The program takes the path of a rom and a number of options.  `parse` reads a list
of arguments and says what was asked for: a run, a text, or nothing that makes
sense.

Arguments are read from left to right, and the first one that settles the matter
does so.  A request for help is granted if nothing before it was wrong, whatever
comes after it; a wrong argument is refused if no request came before it.  Only a
missing path is found out at the end.

An argument is one of the following.

* `--` ends the options: everything after it is a path.
* `--name` and `--name=value` are options by name, spelled in full.  An option that
  takes a value finds it after the equals sign or else in the next argument, which
  must not look like an option itself.
* `-h` and `-V` are options by letter.  Letters may be joined, and the first of them
  already decides.
* Anything else is a path, and so are `-` and the empty argument.

Nothing may be given twice.
-/

namespace Chip8
namespace CommandLine

/-! ## Options -/

/-- Options that are either given or not.  All but the last turn on a choice of dialect. -/
inductive Switch where
  | shiftUsesVx | memoryIncrementByX | memoryLeaveIUnchanged | jumpAddsVx | wrapSprites
  | vfReset | haltOnZero
  /-- Print the program instead of running it. -/
  | disassemble
  deriving DecidableEq

/-- Options that take a value. -/
inductive Setting where
  /-- The most instructions executed in a frame. -/
  | cyclesPerFrame
  | profile
  /-- The size of a pixel in the window. -/
  | scale
  deriving DecidableEq

/-- Options that ask for a text. -/
inductive Request where
  /-- The options at length. -/
  | help
  /-- The options in brief. -/
  | summary
  | version
  deriving DecidableEq

/-- Every switch. -/
def Switch.all : List Switch :=
  [shiftUsesVx, memoryIncrementByX, memoryLeaveIUnchanged, jumpAddsVx, wrapSprites, vfReset,
    haltOnZero, disassemble]

/-- The name of a switch. -/
def Switch.name : Switch → String
  | shiftUsesVx => "shift-uses-vx"
  | memoryIncrementByX => "memory-increment-by-x"
  | memoryLeaveIUnchanged => "memory-leave-i-unchanged"
  | jumpAddsVx => "jump-adds-vx"
  | wrapSprites => "wrap-sprites"
  | vfReset => "vf-reset"
  | haltOnZero => "halt-on-zero"
  | disassemble => "disassemble"

/-- Every setting. -/
def Setting.all : List Setting := [cyclesPerFrame, profile, scale]

/-- The name of a setting. -/
def Setting.name : Setting → String
  | cyclesPerFrame => "cycles-per-frame"
  | profile => "profile"
  | scale => "scale"

/-- The choice of dialect that a switch turns on. -/
def Switch.dialect : Switch → Dialect
  | shiftUsesVx => { shiftUsesVx := true }
  | memoryIncrementByX => { memoryIncrementByX := true }
  | memoryLeaveIUnchanged => { memoryLeaveIUnchanged := true }
  | jumpAddsVx => { jumpAddsVx := true }
  | wrapSprites => { wrapSprites := true }
  | vfReset => { vfReset := true }
  | haltOnZero => { haltOnZero := true }
  | disassemble => .plain

/-! ## What was asked for -/

/-- What the arguments read so far have settled: the rom, and the options that were given. -/
structure Draft where
  path : Option String := none
  cyclesPerFrame : Option Nat := none
  preset : Option Preset := none
  scale : Option Nat := none
  switches : List Switch := []

/-- The size of a pixel in the window, unless something else is asked for. -/
def usualScale : Nat := 10

/-- A run of the program, with the rom at a path.  With `disassemble` the program is printed
and not run. -/
structure Configuration where
  path : String
  settings : Settings
  scale : Nat
  disassemble : Bool
  deriving DecidableEq

/-- What a list of arguments asks for, unless they make no sense. -/
inductive Parsed where
  | run (configuration : Configuration)
  | answer (request : Request)
  | refused
  deriving DecidableEq

/-! ## Values -/

/-- The number written by decimal digits, of which there is at least one.  There may be
any number of zeros in front. -/
def natural? (digits : List Char) : Option Nat :=
  if digits.isEmpty || digits.any (fun c => !c.isDigit) then none
  else some (digits.foldl (fun n c => 10 * n + (c.toNat - '0'.toNat)) 0)

/-- A decimal integer.  A sign may stand in front of it. -/
def integer? (s : String) : Option Int :=
  match s.toList with
  | '+' :: digits => (natural? digits).map fun n => (n : Int)
  | '-' :: digits => (natural? digits).map fun n => -(n : Int)
  | digits => (natural? digits).map fun n => (n : Int)

/-- An integer between two numbers, the bounds included.  The bounds are natural
numbers, so a minus sign can only stand in front of zero. -/
def number? (least greatest : Nat) (s : String) : Option Nat :=
  (integer? s).bind fun n =>
    if (least : Int) ≤ n ∧ n ≤ (greatest : Int) then some n.toNat else none

/-- A number of instructions: one of 32 bits. -/
def cycles? (s : String) : Option Nat := number? 0 0xFFFFFFFF s

/-- The size of a pixel: a number from 1 to 64. -/
def scale? (s : String) : Option Nat := number? 1 64 s

namespace Draft

/-- Take a path.  There is room for one. -/
def addPath (d : Draft) (path : String) : Option Draft :=
  if d.path.isSome then none else some { d with path := some path }

/-- Take a switch, once. -/
def addSwitch (d : Draft) (s : Switch) : Option Draft :=
  if s ∈ d.switches then none else some { d with switches := s :: d.switches }

/-- Take a setting, once, if its value is in order. -/
def addSetting (d : Draft) (s : Setting) (value : String) : Option Draft :=
  match s with
  | .cyclesPerFrame =>
      if d.cyclesPerFrame.isSome then none
      else (cycles? value).map fun n => { d with cyclesPerFrame := some n }
  | .profile =>
      if d.preset.isSome then none
      else (Preset.ofName? value).map fun p => { d with preset := some p }
  | .scale =>
      if d.scale.isSome then none
      else (scale? value).map fun n => { d with scale := some n }

/-- The dialect: that of the preset, and every choice that was turned on. -/
def dialect (d : Draft) : Dialect :=
  d.switches.foldl (fun acc s => acc.union s.dialect) (d.preset.getD .standard).dialect

/-- What was asked for, once every argument has been read.  Whatever was not given
has its usual value. -/
def finish (d : Draft) : Parsed :=
  match d.path with
  | none => .refused
  | some path =>
      .run {
        path
        settings := {
          dialect := d.dialect
          cyclesPerFrame := d.cyclesPerFrame.getD usualCyclesPerFrame }
        scale := d.scale.getD usualScale
        disassemble := d.switches.contains .disassemble }

end Draft

/-! ## Reading the arguments -/

/-- What an argument looks like, before its name is looked up. -/
inductive Shape where
  /-- The end of the options. -/
  | separator
  | named (name : String) (value : Option String)
  | letter (c : Char)
  | path
  deriving DecidableEq

/-- What an argument looks like. -/
def Shape.of (argument : String) : Shape :=
  match argument.toList with
  | ['-', '-'] => .separator
  | '-' :: '-' :: rest =>
      let name := rest.takeWhile (· != '=')
      .named (String.ofList name)
        (if name.length < rest.length then some (String.ofList (rest.drop (name.length + 1)))
          else none)
  | '-' :: c :: _ => .letter c
  | _ => .path

/-- What an option by name stands for. -/
inductive Meaning where
  | switch (s : Switch)
  | setting (s : Setting)
  | request (r : Request)

/-- What a name stands for. -/
def Meaning.ofName? (name : String) : Option Meaning :=
  match Switch.all.find? (·.name == name), Setting.all.find? (·.name == name) with
  | some s, _ => some (.switch s)
  | none, some s => some (.setting s)
  | none, none =>
      if name = "help" then some (.request .help)
      else if name = "version" then some (.request .version)
      else none

/-- What a letter stands for. -/
def Request.ofLetter? : Char → Option Request
  | 'h' => some .summary
  | 'V' => some .version
  | _ => none

/-- Read arguments none of which is an option. -/
def parsePaths (d : Draft) : List String → Parsed
  | [] => d.finish
  | path :: rest =>
      match d.addPath path with
      | some d => parsePaths d rest
      | none => .refused

/-- What reading one argument leads to. -/
inductive Next where
  | settled (p : Parsed)
  | further (d : Draft)
  /-- The next argument is the value of a setting. -/
  | valueOf (s : Setting)
  /-- No further argument is an option. -/
  | onlyPaths

/-- Go on if an argument could be taken. -/
def Next.ofOption : Option Draft → Next
  | some d => .further d
  | none => .settled .refused

/-- Read one argument. -/
def Next.read (d : Draft) (argument : String) : Next :=
  match Shape.of argument with
  | .separator => .onlyPaths
  | .path => .ofOption (d.addPath argument)
  | .letter c =>
      match Request.ofLetter? c with
      | some r => .settled (.answer r)
      | none => .settled .refused
  | .named name value =>
      match Meaning.ofName? name, value with
      | some (.switch s), none => .ofOption (d.addSwitch s)
      | some (.request r), none => .settled (.answer r)
      | some (.setting s), some value => .ofOption (d.addSetting s value)
      | some (.setting s), none => .valueOf s
      | _, _ => .settled .refused

/-- Read arguments, some of which may be options. -/
def parseFrom (d : Draft) : List String → Parsed
  | [] => d.finish
  | argument :: rest =>
      match Next.read d argument with
      | .settled p => p
      | .further d => parseFrom d rest
      | .onlyPaths => parsePaths d rest
      | .valueOf s =>
          match rest with
          | [] => .refused
          | value :: rest =>
              match Shape.of value, d.addSetting s value with
              | .path, some d => parseFrom d rest
              | _, _ => .refused

/-- What a list of arguments asks for. -/
def parse (arguments : List String) : Parsed := parseFrom {} arguments

end CommandLine
end Chip8
