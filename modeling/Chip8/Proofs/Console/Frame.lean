import Chip8.Proofs.Console.Command

/-!
# What happens in a frame

A frame has two halves.  First the console *advances*: unless it is halted or paused, it looks
at the keys, executes instructions and counts the timers down.  Then it turns to the outside,
switches the tone and hands over the screen, and this half is the same whether or not it has
advanced.

`advance` is the first half.  The three equations below say what the console, the screen and
the tone of a frame are in terms of it, and everything that is proved about frames in this
library goes through them.
-/

namespace Chip8
namespace Console

variable {σ : Type} [ByteSource σ]

/-- The console at the end of a frame, before the screen is handed over. -/
def advance (keys : Keys) (c : Console σ) : Console σ :=
  if c.halted || c.paused then c
  else
    let r := run c.dialect c.cyclesPerFrame (c.machine.latch keys) c.source
    { c with
      machine := r.machine.tick
      source := r.source
      halted := decide (r.signal = Signal.halt)
      awaitingKey := decide (r.signal = Signal.awaitKey) }

theorem advance_of_idle {c : Console σ} (h : (c.halted || c.paused) = true) (keys : Keys) :
    c.advance keys = c :=
  if_pos h

theorem advance_of_active {c : Console σ} (h : (c.halted || c.paused) = false) (keys : Keys) :
    c.advance keys =
      { c with
        machine := (run c.dialect c.cyclesPerFrame (c.machine.latch keys) c.source).machine.tick
        source := (run c.dialect c.cyclesPerFrame (c.machine.latch keys) c.source).source
        halted := decide ((run c.dialect c.cyclesPerFrame (c.machine.latch keys)
          c.source).signal = Signal.halt)
        awaitingKey := decide ((run c.dialect c.cyclesPerFrame (c.machine.latch keys)
          c.source).signal = Signal.awaitKey) } :=
  if_neg (by rw [h]; decide)

/-- A frame is an advance, and then the screen is handed over. -/
theorem exists_runFrame_eq (keys : Keys) (toneOn : Bool) (c : Console σ) :
    ∃ notices, c.runFrame keys toneOn = (c.advance keys).handOver
      (ToneSwitch.between? toneOn
        (!(c.halted || c.paused) && (c.advance keys).machine.timers.isSounding)) notices := by
  cases h : c.halted || c.paused with
  | true =>
      rw [runFrame, if_pos h, advance_of_idle h]
      exact ⟨_, rfl⟩
  | false =>
      rw [runFrame, if_neg (by rw [h]; decide), advance_of_active h, activeFrame]
      exact ⟨_, rfl⟩

/-- The console after a frame has advanced, and its redraw flag is down. -/
theorem console_runFrame (keys : Keys) (toneOn : Bool) (c : Console σ) :
    (c.runFrame keys toneOn).console =
      { c.advance keys with
        machine := { (c.advance keys).machine with
          display := (c.advance keys).machine.display.takeRedraw } } := by
  obtain ⟨notices, h⟩ := c.exists_runFrame_eq keys toneOn
  rw [h]
  rfl

/-- The screen is handed over if the redraw flag is up when the console has advanced. -/
theorem screen_runFrame (keys : Keys) (toneOn : Bool) (c : Console σ) :
    (c.runFrame keys toneOn).screen =
      if (c.advance keys).machine.display.redraw then
        some (c.advance keys).machine.display.pack
      else none := by
  obtain ⟨notices, h⟩ := c.exists_runFrame_eq keys toneOn
  rw [h]
  rfl

/-- The tone is to sound if the console was neither halted nor paused and the sound timer has not
run out. -/
theorem tone_runFrame (keys : Keys) (toneOn : Bool) (c : Console σ) :
    (c.runFrame keys toneOn).tone = ToneSwitch.between? toneOn
      (!(c.halted || c.paused) && (c.advance keys).machine.timers.isSounding) := by
  obtain ⟨notices, h⟩ := c.exists_runFrame_eq keys toneOn
  rw [h]
  rfl

end Console
end Chip8
