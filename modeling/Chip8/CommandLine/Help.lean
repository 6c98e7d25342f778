import Chip8.CommandLine

/-!
# What the program says about itself

The options are described once, in `entries`, and printed in two ways.  The long
form gives every option a paragraph; the short form gives it a line and appends its
usual value and the values it can have.
-/

namespace Chip8
namespace CommandLine

/-- What there is to say about an option. -/
structure Entry where
  /-- The option as it is written. -/
  heading : String
  /-- What it does. -/
  purpose : String
  /-- The value it has when it is not given. -/
  usual : Option String := none
  /-- The values it can have, each with what it means. -/
  choices : List (String × String) := []

/-- The name of the program and its version. -/
def versionLine : String := "chip8-vm 0.1.0"

/-- What the program is. -/
def purpose : String := "A CHIP-8 virtual machine with configurable compatibility quirks"

/-- How the program is called. -/
def usageLine : String := "Usage: chip8-vm [OPTIONS] <CHIP-8_PROGRAM_PATH>"

/-- What a switch does. -/
def Switch.purpose : Switch → String
  | shiftUsesVx => "8XY6/8XYE shift VX in place instead of VY"
  | memoryIncrementByX => "FX55/FX65 leave I advanced by X instead of X + 1"
  | memoryLeaveIUnchanged => "FX55/FX65 leave I unchanged"
  | jumpAddsVx => "BNNN jumps to NNN + VX instead of NNN + V0"
  | wrapSprites => "Sprites wrap around the screen edges instead of being clipped"
  | vfReset => "8XY1/8XY2/8XY3 reset VF to 0"
  | haltOnZero => "Stop when the word 0000 is executed"
  | disassemble => "Print the rom's disassembly and exit"

/-- What a preset is. -/
def presetPurpose : Preset → String
  | .standard => "Every quirk disabled"
  | .cosmac => "The original COSMAC VIP interpreter"
  | .superChip => "SUPER-CHIP 1.1 on the HP48"

/-- The entry of a switch. -/
def Switch.entry (s : Switch) : Entry := ⟨"      --" ++ s.name, s.purpose, none, []⟩

/-- The entry of a setting. -/
def Setting.entry : Setting → Entry
  | cyclesPerFrame =>
      ⟨"      --cycles-per-frame <CYCLES_PER_FRAME>", "Instructions executed per 60Hz frame",
        some (toString usualCyclesPerFrame), []⟩
  | profile =>
      ⟨"      --profile <PROFILE>", "Starting set of compatibility quirks",
        some Preset.standard.name, Preset.all.map fun p => (p.name, presetPurpose p)⟩
  | scale => ⟨"      --scale <SCALE>", "Window pixels per CHIP-8 pixel", some (toString usualScale), []⟩

/-- The options in the order in which they are listed.  The switches of the dialect
stand between the settings. -/
def entries (helpPurpose : String) : List Entry :=
  [Setting.cyclesPerFrame, .profile].map Setting.entry
    ++ (Switch.all.filter (· ≠ .disassemble)).map Switch.entry
    ++ [Setting.scale.entry, Switch.disassemble.entry,
        ⟨"  -h, --help", helpPurpose, none, []⟩,
        ⟨"  -V, --version", "Print version", none, []⟩]

/-- The indentation of what is said about an option. -/
def indent : String := "          "

/-! ## The long form -/

/-- The lines of the choices of an option, aligned behind the longest of them. -/
def Entry.choiceLines (e : Entry) : List String :=
  let widest := (e.choices.map fun c => c.1.length).foldl max 0
  match e.choices with
  | [] => []
  | choices =>
      ["", indent ++ "Possible values:"] ++ choices.map fun c =>
        indent ++ "- " ++ c.1 ++ ":" ++ "".pushn ' ' (widest - c.1.length + 1) ++ c.2

/-- The paragraph of an option. -/
def Entry.paragraph (e : Entry) : List String :=
  [e.heading, indent ++ e.purpose] ++ e.choiceLines ++
    match e.usual with
    | some value => [indent, indent ++ "[default: " ++ value ++ "]"]
    | none => []

/-- The options at length. -/
def helpLines : List String :=
  [purpose, "", usageLine, "",
    "Arguments:", "  <CHIP-8_PROGRAM_PATH>", indent ++ "Path to the rom to emulate", "",
    "Options:"]
    ++ [""].intercalate ((entries "Print help (see a summary with '-h')").map Entry.paragraph)

/-! ## The short form -/

/-- The line of an option. -/
def Entry.brief (e : Entry) : List String :=
  let usual := match e.usual with
    | some value => " [default: " ++ value ++ "]"
    | none => ""
  let choices := match e.choices with
    | [] => ""
    | cs => " [possible values: " ++ ", ".intercalate (cs.map Prod.fst) ++ "]"
  [e.heading, indent ++ e.purpose ++ usual ++ choices]

/-- The options in brief. -/
def summaryLines : List String :=
  [purpose, "", usageLine, "",
    "Arguments:", "  <CHIP-8_PROGRAM_PATH>  Path to the rom to emulate", "",
    "Options:"]
    ++ (entries "Print help (see more with '--help')").flatMap Entry.brief

/-- The answer to a request. -/
def Request.text : Request → String
  | help => Text.lines helpLines
  | summary => Text.lines summaryLines
  | version => Text.lines [versionLine]

end CommandLine
end Chip8
