import Chip8.Proofs.Console.Replace
import Chip8.Proofs.Console.Resume
import Chip8.Proofs.Guarded.Console
import Chip8.Proofs.Memory.Initial

/-!
# Loading and resetting

A load starts from nothing: whatever ran before, however it ended and whatever was restored in
between, the machine afterwards is the one that `Machine.Fresh` describes, and that is one
machine for each program.  A reset is a load of the rom in hand.

Two things could spoil this.  The size of a program is checked three times, once to make a rom
of it, once for the program area and once for the copy, and a reset takes the rom out before it
loads it again.  If the later checks refused a rom that the first one let pass, the reset would
lose it.  They do not (`Guarded.Console.load_eq`), so the statements about guarded consoles,
where all checks are made, say the same as the ones about consoles.
-/

namespace Chip8

/-- A machine that is about to run a program of the given bytes and has done nothing yet. -/
structure Machine.Fresh (program : List UInt8) (m : Machine) : Prop where
  memory : m.memory.cells.toList = List.replicate 0x050 0 ++ Font.rows ++
    List.replicate 0x160 0 ++ program ++ List.replicate (0xE00 - program.length) 0
  registers : m.registers.toList = List.replicate 16 0
  index : m.index = 0
  pc : m.pc = 0x200
  slots : m.stack.slots.toList = List.replicate 16 0
  depth : m.stack.depth = 0
  pixels : m.display.pixels.toList = List.replicate 2048 false
  redraw : m.display.redraw = true
  delay : m.timers.delay = 0
  sound : m.timers.sound = 0
  keys : m.keys.toList = List.replicate 16 false

namespace Machine

theorem fresh_load (rom : Rom) : (load rom).Fresh rom.bytes where
  memory := toList_load rom
  registers := Vector.toList_replicate
  index := rfl
  pc := rfl
  slots := Vector.toList_replicate
  depth := rfl
  pixels := Vector.toList_replicate
  redraw := rfl
  delay := rfl
  sound := rfl
  keys := Vector.toList_replicate

/-- The description leaves nothing open. -/
theorem Fresh.unique {program : List UInt8} {m m' : Machine} (h : m.Fresh program)
    (h' : m'.Fresh program) : m = m' := by
  obtain ⟨⟨cells⟩, registers, index, pc, ⟨slots, depth, hdepth⟩, ⟨pixels, redraw⟩,
    ⟨delay, sound⟩, keys⟩ := m
  obtain ⟨⟨cells'⟩, registers', index', pc', ⟨slots', depth', hdepth'⟩, ⟨pixels', redraw'⟩,
    ⟨delay', sound'⟩, keys'⟩ := m'
  obtain rfl : cells = cells' := Vector.toList_inj.mp (h.memory.trans h'.memory.symm)
  obtain rfl : registers = registers' :=
    Vector.toList_inj.mp (h.registers.trans h'.registers.symm)
  obtain rfl : index = index' := h.index.trans h'.index.symm
  obtain rfl : pc = pc' := h.pc.trans h'.pc.symm
  obtain rfl : slots = slots' := Vector.toList_inj.mp (h.slots.trans h'.slots.symm)
  obtain rfl : depth = depth' := h.depth.trans h'.depth.symm
  obtain rfl : pixels = pixels' := Vector.toList_inj.mp (h.pixels.trans h'.pixels.symm)
  obtain rfl : redraw = redraw' := h.redraw.trans h'.redraw.symm
  obtain rfl : delay = delay' := h.delay.trans h'.delay.symm
  obtain rfl : sound = sound' := h.sound.trans h'.sound.symm
  obtain rfl : keys = keys' := Vector.toList_inj.mp (h.keys.trans h'.keys.symm)
  rfl

theorem fresh_iff (rom : Rom) (m : Machine) : m.Fresh rom.bytes ↔ m = load rom := by
  constructor
  · intro h
    exact h.unique (fresh_load rom)
  · rintro rfl
    exact fresh_load rom

end Machine

theorem Rom.exists_ofBytes_iff (name : String) (bytes : List UInt8) :
    (∃ rom, ofBytes name bytes = .ok rom) ↔ 1 ≤ bytes.length ∧ bytes.length ≤ 3584 := by
  rw [← isOk_ofBytes name bytes]
  cases ofBytes name bytes with
  | error e => simp [Except.isOk, Except.toBool]
  | ok rom => simp [Except.isOk, Except.toBool]

namespace Console

variable {σ : Type}

/-- **A load and a reset begin afresh.**

* A rom can be made of any bytes between one and 3584 in number, and of no others.
* A load of a rom is never refused, whatever the console holds.  It leaves a machine that is
  determined by the bytes of the rom alone.  The rom is in hand, the machine runs and waits for
  no key, and the pause, the dialect, the pace and the source of random bytes are as before.
* With a rom in hand a reset is a load of that rom.  So it is not refused, it keeps the rom, and
  a second one changes nothing.
* None of this hides a check: the console that makes them all loads and resets in the same way,
  although it has given up the rom before it loads it again. -/
theorem load_and_reset_afresh :
    (∀ (name : String) (bytes : List UInt8),
      (∃ rom, Rom.ofBytes name bytes = .ok rom) ↔ 1 ≤ bytes.length ∧ bytes.length ≤ 3584) ∧
      (∀ rom : Rom, ∃ machine : Machine, (∀ m : Machine, m.Fresh rom.bytes ↔ m = machine) ∧
        (∀ c : Console σ, (c.load rom).refusal = none ∧ (c.load rom).console = { c with
          machine := machine, rom := some rom, halted := false, awaitingKey := false }) ∧
        ∀ c : Guarded.Console σ, c.load rom = .ok ({ c with
          state := machine.bare, rom := some rom, halted := false, awaitingKey := false }, none)) ∧
      (∀ (c : Console σ) (rom : Rom), c.rom = some rom →
        c.reset = c.load rom ∧ c.reset.refusal = none ∧ c.reset.console.rom = some rom ∧
          c.reset.console.reset = c.reset) ∧
      ∀ (c : Guarded.Console σ) (rom : Rom), c.rom = some rom → c.reset = c.load rom := by
  refine ⟨Rom.exists_ofBytes_iff, ?loads, ?resets, ?guarded⟩
  case loads =>
    intro rom
    refine ⟨.load rom, Machine.fresh_iff rom, ?_, Guarded.Console.load_eq rom⟩
    intro c
    exact ⟨rfl, rfl⟩
  case resets =>
    intro c rom h
    have hreset := reset_of_rom h
    have hagain : (c.load rom).console.reset = (c.load rom).console.load rom :=
      reset_of_rom rfl
    rw [hreset, hagain]
    exact ⟨rfl, rfl, rfl, c.load_replaced (.load rom) (some rom) false false rom⟩
  case guarded =>
    intro c rom h
    exact Guarded.Console.reset_of_rom h

/-- A console that is waiting for a key, with and without the checks. -/
theorem load_and_reset_afresh_waitAndDraw :
    let loaded := ((powerOn {} (Seeded.mk 7)).load waitAndDraw).console
    let c := (loaded.runFrame .released false).console
    (c.rom = some waitAndDraw ∧ c.reset.console.reset = c.load waitAndDraw) ∧
      (c.bare.rom = some waitAndDraw ∧ c.bare.reset = c.bare.load waitAndDraw) := by
  intro loaded c
  obtain ⟨-, -, hreset, hguarded⟩ := @load_and_reset_afresh Seeded
  have hrom : c.rom = some waitAndDraw := rfl
  obtain ⟨hload, -, -, hagain⟩ := hreset c waitAndDraw hrom
  exact ⟨⟨hrom, hagain.trans hload⟩, hrom, hguarded c.bare waitAndDraw hrom⟩

end Console
end Chip8
