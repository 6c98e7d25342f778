import Chip8.Proofs.Console.Command
import Chip8.Proofs.Guarded.Execution
import Chip8.Proofs.Guarded.Snapshot

/-!
# Sessions without faults

A guarded console holds a guarded state, and answers every command by guarded operations
only: the glyphs and the program are copied into ranges of memory, the program is checked
for its size once more although a rom has been checked before, a frame runs guarded steps
and packs the screen byte by byte, and a snapshot is read from the front.

Everything comes together in `no_fault`.  A session of any commands whatever, given to a
console of any settings, goes through without a fault, and ends with the console that the
same session ends with where nothing can fail.  So the types of the machine hide nothing:
they state what the checks would find.
-/

namespace Chip8
namespace Guarded

/-- A guarded console: a console whose machine is a guarded one. -/
structure Console (σ : Type) where
  state : State
  dialect : Dialect
  source : σ
  cyclesPerFrame : Nat
  rom : Option Rom
  halted : Bool
  paused : Bool
  awaitingKey : Bool

variable {σ : Type}

/-- The state of a machine without a program. -/
def cleared : Attempt State := do
  let memory ← copyTo Memory.blank 0x050 0x0A0 Font.rows
  .ok {
    memory
    registers := Vector.replicate 16 0
    index := 0
    pc := programStart
    stack := ⟨Vector.replicate 16 0, 0⟩
    display := Display.blank.requestRedraw
    timers := {}
    keys := .released }

namespace Console

/-- A console without a rom. -/
def powerOn (settings : Settings) (source : σ) : Attempt (Console σ) := do
  let state ← cleared
  .ok {
    state, source
    dialect := settings.dialect
    cyclesPerFrame := settings.cyclesPerFrame
    rom := none
    halted := true
    paused := false
    awaitingKey := false }

/-- Run a rom from its start.  The report that it was loaded shows the first bytes. -/
def load (rom : Rom) (c : Console σ) : Attempt (Console σ × Option Refusal) := do
  let state ← cleared
  match ← loadProgram state.memory rom.bytes with
  | .error e => .ok ({ c with state, halted := true, awaitingKey := false }, some e)
  | .ok memory =>
      let _ ← slice rom.bytes 0 (min rom.bytes.length 6)
      .ok ({ c with
        state := { state with memory }, rom := some rom, halted := false, awaitingKey := false },
        none)

/-- Run the rom in a file. -/
def loadFile (path : String) (fileName : List UInt8) (contents : Except String (List UInt8))
    (c : Console σ) : Attempt (Console σ × Option Refusal) := do
  let state ← cleared
  let c := { c with state, rom := none, halted := true, awaitingKey := false }
  match Rom.ofFile path fileName contents with
  | .error e => .ok (c, some e)
  | .ok rom => c.load rom

/-- Run the rom from its start again, or clear the machine if there is none. -/
def reset (c : Console σ) : Attempt (Console σ × Option Refusal) :=
  match c.rom with
  | some rom => { c with rom := none }.load rom
  | none => do
      let state ← cleared
      .ok ({ c with state }, none)

/-- Go on from a snapshot. -/
def restore (bytes : List UInt8) (c : Console σ) : Attempt (Console σ × Option Refusal) := do
  match ← decode bytes with
  | .error e => .ok (c, some e)
  | .ok (state, dialect) =>
      .ok ({ c with state, dialect, halted := false, awaitingKey := false }, none)

/-- Execute the instructions of a frame, and count the timers down. -/
def advance [ByteSource σ] (keys : Keys) (c : Console σ) : Attempt (Console σ) :=
  if c.halted || c.paused then .ok c
  else do
    let result ← cycles c.dialect c.cyclesPerFrame { c.state with keys } c.source
    .ok { c with
      state := { result.state with timers := result.state.timers.tick }
      source := result.source
      halted := decide (result.signal = Signal.halt)
      awaitingKey := decide (result.signal = Signal.awaitKey) }

/-- Run a frame, and hand over the screen if it has to be painted. -/
def runFrame [ByteSource σ] (keys : Keys) (c : Console σ) :
    Attempt (Console σ × Option Packed) := do
  let c ← c.advance keys
  let painted := { c with state := { c.state with display := c.state.display.takeRedraw } }
  if c.state.display.redraw then
    let screen ← pack c.state.display
    .ok (painted, some screen)
  else .ok (painted, none)

/-- The console after a command. -/
def perform [ByteSource σ] (c : Console σ) : Command → Attempt (Console σ)
  | .load rom => do
      let (c, _) ← c.load rom
      .ok c
  | .loadFile path fileName contents => do
      let (c, _) ← c.loadFile path fileName contents
      .ok c
  | .reset => do
      let (c, _) ← c.reset
      .ok c
  | .togglePause => .ok { c with paused := !c.paused }
  | .frame keys _ => do
      let (c, _) ← c.runFrame keys
      .ok c
  | .save => do
      let _ ← encode c.state c.dialect
      .ok c
  | .restore bytes => do
      let (c, _) ← c.restore bytes
      .ok c

/-- The console at the end of a session. -/
def session [ByteSource σ] (settings : Settings) (source : σ) (commands : List Command) :
    Attempt (Console σ) := do
  let c ← powerOn settings source
  commands.foldlM perform c

end Console
end Guarded

/-- A console without the bound on the depth of its stack. -/
def Console.bare {σ : Type} (c : Console σ) : Guarded.Console σ where
  state := c.machine.bare
  dialect := c.dialect
  source := c.source
  cyclesPerFrame := c.cyclesPerFrame
  rom := c.rom
  halted := c.halted
  paused := c.paused
  awaitingKey := c.awaitingKey

namespace Guarded

variable {σ : Type}

theorem cleared_eq : cleared = .ok Machine.initial.bare := by
  have hfont : copyTo Memory.blank 0x050 0x0A0 Font.rows = .ok Memory.blank.withFont :=
    @copyTo_of_le Memory.blank 0x050 Font.rows (by decide)
  rw [cleared, hfont]
  rfl

namespace Console

theorem powerOn_eq (settings : Settings) (source : σ) :
    powerOn settings source = .ok (Chip8.Console.powerOn settings source).bare := by
  rw [powerOn, cleared_eq]
  rfl

/-- A rom has a size that fits, so neither check of the copy refuses it. -/
theorem load_eq (rom : Rom) (c : Console σ) :
    c.load rom = .ok ({ c with
      state := (Machine.load rom).bare, rom := some rom, halted := false, awaitingKey := false },
      none) := by
  have hprogram : loadProgram Machine.initial.bare.memory rom.bytes =
      .ok (.ok (Machine.load rom).memory) := by
    rw [loadProgram_eq]
    exact congrArg Except.ok (Machine.loadProgram_initial rom)
  rw [load, cleared_eq, Attempt.ok_bind, hprogram, Attempt.ok_bind]
  dsimp only
  rw [slice_of_le _ (Nat.zero_le _) (Nat.min_le_left _ _)]
  rfl

/-- Taking the rom out first makes no difference, because the load puts it back. -/
theorem reset_of_rom {c : Console σ} {rom : Rom} (h : c.rom = some rom) :
    c.reset = c.load rom := by
  rw [reset, h]
  show Console.load rom _ = _
  rw [load_eq, load_eq]

theorem load_bare (rom : Rom) (c : Chip8.Console σ) :
    c.bare.load rom = .ok ((c.load rom).console.bare, (c.load rom).refusal) :=
  load_eq rom c.bare

theorem loadFile_bare (path : String) (fileName : List UInt8)
    (contents : Except String (List UInt8)) (c : Chip8.Console σ) :
    c.bare.loadFile path fileName contents =
      .ok ((c.loadFile path fileName contents).console.bare,
        (c.loadFile path fileName contents).refusal) := by
  rw [loadFile, cleared_eq, Attempt.ok_bind, Chip8.Console.loadFile]
  cases Rom.ofFile path fileName contents with
  | error e => rfl
  | ok rom => exact load_bare rom c.eject

theorem reset_bare (c : Chip8.Console σ) :
    c.bare.reset = .ok (c.reset.console.bare, c.reset.refusal) := by
  obtain ⟨machine, dialect, source, cyclesPerFrame, rom, halted, paused, awaitingKey⟩ := c
  cases rom with
  | none =>
      rw [reset, Chip8.Console.bare, cleared_eq]
      rfl
  | some rom =>
      exact load_bare rom ⟨machine, dialect, source, cyclesPerFrame, none, halted, paused,
        awaitingKey⟩

theorem restore_bare (bytes : List UInt8) (c : Chip8.Console σ) :
    c.bare.restore bytes = .ok ((c.restore bytes).console.bare, (c.restore bytes).refusal) := by
  rw [restore, decode_eq, Attempt.ok_bind, Chip8.Console.restore]
  cases Snapshot.decode bytes <;> rfl

/-- The console of a frame before the screen is handed over. -/
theorem advance_bare [ByteSource σ] (keys : Keys) (toneOn : Bool) (c : Chip8.Console σ) :
    ∃ c' : Chip8.Console σ, c.bare.advance keys = .ok c'.bare ∧
      ∃ tone notices, c.runFrame keys toneOn = c'.handOver tone notices := by
  rw [advance, Chip8.Console.runFrame]
  by_cases hidle : c.halted || c.paused
  · refine ⟨c, if_pos hidle, ToneSwitch.between? toneOn false, #[], ?_⟩
    rw [if_pos hidle]
    rfl
  · have hcycles : cycles c.bare.dialect c.bare.cyclesPerFrame { c.bare.state with keys }
        c.bare.source = .ok (run c.dialect c.cyclesPerFrame (c.machine.latch keys) c.source).bare :=
      cycles_bare c.dialect c.cyclesPerFrame (c.machine.latch keys) c.source
    rw [if_neg hidle, Chip8.Console.activeFrame]
    refine ⟨_, ?_, _, _, rfl⟩
    rw [if_neg (show ¬(c.bare.halted || c.bare.paused) = true from hidle), hcycles]
    rfl

theorem runFrame_bare [ByteSource σ] (keys : Keys) (toneOn : Bool) (c : Chip8.Console σ) :
    c.bare.runFrame keys =
      .ok ((c.runFrame keys toneOn).console.bare, (c.runFrame keys toneOn).screen) := by
  obtain ⟨c', hadvance, tone, notices, hframe⟩ := advance_bare keys toneOn c
  have hpack : pack c'.bare.state.display = .ok c'.machine.display.pack :=
    pack_eq c'.machine.display
  have hredraw : c'.bare.state.display.redraw = c'.machine.display.redraw := rfl
  rw [runFrame, hadvance, Attempt.ok_bind, hframe, Chip8.Console.handOver, hpack, hredraw]
  cases c'.machine.display.redraw <;> rfl

theorem perform_bare [ByteSource σ] (c : Chip8.Console σ) (command : Command) :
    c.bare.perform command = .ok (c.perform command).bare := by
  cases command with
  | load rom => simp only [perform, load_bare, Attempt.ok_bind, Chip8.Console.perform]
  | loadFile path fileName contents =>
      simp only [perform, loadFile_bare, Attempt.ok_bind, Chip8.Console.perform]
  | reset => simp only [perform, reset_bare, Attempt.ok_bind, Chip8.Console.perform]
  | togglePause => rfl
  | frame keys toneOn =>
      simp only [perform, runFrame_bare keys toneOn, Attempt.ok_bind, Chip8.Console.perform]
  | save =>
      have hencode : encode c.bare.state c.bare.dialect = .ok c.save :=
        encode_bare c.machine c.dialect
      rw [perform, hencode]
      rfl
  | restore bytes => simp only [perform, restore_bare, Attempt.ok_bind, Chip8.Console.perform]

/-- A session goes through, and ends where it ends without checks. -/
theorem session_eq [ByteSource σ] (settings : Settings) (source : σ) (commands : List Command) :
    session settings source commands =
      .ok (Chip8.Console.session settings source commands).bare := by
  have hfold : ∀ c : Chip8.Console σ, commands.foldlM perform c.bare =
      .ok (commands.foldl Chip8.Console.perform c).bare := by
    induction commands with
    | nil => exact fun c => rfl
    | cons command commands ih =>
        intro c
        rw [List.foldlM_cons, perform_bare, Attempt.ok_bind, List.foldl_cons, ih]
  rw [session, powerOn_eq, Attempt.ok_bind, hfold, Chip8.Console.session]

end Console

/-! ## The absence of faults -/

/-- **Nothing goes wrong.**

* A session of any commands, under any settings and with any source of random bytes, goes
  through without a fault.  It ends with the console that it ends with where nothing can
  fail, and no more than sixteen slots of the call stack are in use.
* From any state in which no more than sixteen slots are in use, whatever else it holds,
  any number of steps can be taken under any dialect, and no more than sixteen slots are
  in use afterwards.
* A sprite can be drawn anywhere, whether it wraps or is clipped, and has any number of
  rows that fit an address space of 64 bits.
* A screen can be packed, and any 256 bytes can be unpacked.
* Any bytes can be read as a snapshot, to be refused or accepted. -/
theorem no_fault [ByteSource σ] :
    (∀ (settings : Settings) (source : σ) (commands : List Command),
      ∃ c : Console σ, Console.session settings source commands = .ok c ∧
        c = (Chip8.Console.session settings source commands).bare ∧ c.state.stack.depth ≤ 16) ∧
      (∀ (d : Dialect) (n : Nat) (s : State) (source : σ), s.stack.depth ≤ 16 →
        ∃ result, cycles d n s source = .ok result ∧ result.state.stack.depth ≤ 16) ∧
      (∀ (d : Display) (wrap : Bool) (x y : UInt8) (rows : List UInt8), rows.length < 2 ^ 63 →
        drawSprite d wrap x y rows = .ok (d.draw wrap x y rows)) ∧
      (∀ (d : Display) (buffer : Packed),
        pack d = .ok d.pack ∧ unpack buffer = .ok (Display.unpack buffer)) ∧
      (∀ bytes : List UInt8,
        decode bytes = .ok ((Snapshot.decode bytes).map fun s => (s.machine.bare, s.dialect))) := by
  refine ⟨?sessions, ?steps, drawSprite_eq, ?screens, decode_eq⟩
  case sessions =>
    intro settings source commands
    refine ⟨_, Console.session_eq settings source commands, rfl, ?_⟩
    exact (Chip8.Console.session settings source commands).machine.stack.depth_le
  case steps =>
    intro d n s source hdepth
    exact exists_cycles_of_depth_le d n hdepth source
  case screens => exact fun d buffer => ⟨pack_eq d, unpack_eq buffer⟩

/-- A state with a full stack that is about to call the call itself. -/
def endlessCall : State :=
  { Machine.initial.bare with
    memory := Memory.blank.write 0x200 0x22, stack := ⟨Vector.replicate 16 0x202, 16⟩ }

/-- Calling on a full stack, and drawing a sprite around the corner of the screen. -/
theorem no_fault_endlessCall :
    (endlessCall.stack.depth ≤ 16 ∧ ∃ result, cycles .plain 100 endlessCall (Seeded.mk 7) =
        .ok result ∧ result.state.stack.depth ≤ 16) ∧
      ([0xFF, 0x81].length < 2 ^ 63 ∧ drawSprite .blank true 63 31 [0xFF, 0x81] =
        .ok (Display.blank.draw true 63 31 [0xFF, 0x81])) := by
  obtain ⟨-, hsteps, hdraw, -⟩ := @no_fault Seeded _
  have hdepth : endlessCall.stack.depth ≤ 16 := by decide
  have hlength : [(0xFF : UInt8), 0x81].length < 2 ^ 63 := by decide
  exact ⟨⟨hdepth, hsteps .plain 100 endlessCall (Seeded.mk 7) hdepth⟩,
    hlength, hdraw .blank true 63 31 [0xFF, 0x81] hlength⟩

end Guarded
end Chip8
