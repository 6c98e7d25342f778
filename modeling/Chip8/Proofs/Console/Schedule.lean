import Chip8.Proofs.Console.Halted
import Chip8.Proofs.Console.Waiting
import Chip8.Proofs.Execution.Succession

/-!
# The work of a frame

A console that runs has a fixed amount of work in every frame: look at the keys, take so many steps,
count the timers down, see to the tone and the screen.  Only the steps can be fewer, because one of
them may ask to stop.  `runFrame_on_schedule` says how many are taken in every case, and that the
frame is made of them and of one tick.  In particular what a frame reports is decided in the frame: a
console that awaited a key before, and does not in this frame, is running.

## What is asked of the outside

`runFrame` is told which keys are down and whether the tone is on, so of itself it cannot say how
often it would have looked.  A frame that does look is `runFrameWith`.  It is given `Peripherals` to
ask and to order about, in the order in which a frame has cause to, and nothing is assumed of what
they do: they act in a monad, and their answers may change from one question to the next.

A frame of this kind is a frame of the other with its questions before it and its wishes carried out
behind it, in every lawful monad (`runFrameWith_of_active`).  So the keys are looked at once and the
tone is asked for once, and neither depends on how many steps are taken.  A console that is halted or
paused does not look at the keys at all (`runFrameWith_of_idle`).
-/

namespace Chip8

/-- What a console reports if this is what its last step has asked for. -/
def Signal.status : Signal → Status
  | .proceed => .running
  | .awaitKey => .awaitingKey
  | .halt => .halted

variable {σ : Type} [ByteSource σ]

/-- A run that reports what the first `k` steps report has executed their words. -/
theorem executed_eq_map (d : Dialect) {n k : Nat} {m : Machine} {s : σ}
    (h : (run d n m s).notices = (reports d m s k).toArray) :
    executed d n m s = (List.range k).map fun i =>
      (stateAt d m s i).1.memory.readWord (stateAt d m s i).1.pc := by
  have hrun := Run.filterMap_word?_extend d n m s 0 #[]
  calc executed d n m s
      = (run d n m s).notices.toList.filterMap Notice.word? := hrun.symm
    _ = (reports d m s k).filterMap Notice.word? := by rw [h]
    _ = (List.range k).flatMap fun i => (outcomeAt d m s i).notices.filterMap Notice.word? :=
        List.filterMap_flatMap ..
    _ = _ := by
        simp only [outcomeAt, filterMap_word?_step]
        exact List.map_eq_flatMap.symm

/-! ## Peripherals -/

/-- What a console turns to in the course of a frame. -/
structure Peripherals (M : Type → Type) where
  pressedKeys : M Keys
  isToneOn : M Bool
  startTone : M Unit
  stopTone : M Unit
  drawBuffer : Packed → M Unit

namespace Peripherals

variable {M : Type → Type} [Monad M] (p : Peripherals M)

/-- Bring the tone to where it is wanted, if it is not there. -/
def updateTone (wanted : Bool) : M Unit :=
  if wanted then do
    unless ← p.isToneOn do p.startTone
  else do
    if ← p.isToneOn then p.stopTone

/-- Switch the tone, if it is to be switched. -/
def switchTone : Option ToneSwitch → M Unit
  | some .start => p.startTone
  | some .stop => p.stopTone
  | none => pure ()

/-- Show a picture, if there is one. -/
def paint : Option Packed → M Unit
  | some screen => p.drawBuffer screen
  | none => pure ()

/-- Carry out what a frame wants done, and hand back the console. -/
def carryOut {σ : Type} (f : Frame σ) : M (Console σ) := do
  p.switchTone f.tone
  p.paint f.screen
  pure f.console

/-- The tone is asked for once, wherever it is wanted. -/
theorem updateTone_eq (wanted : Bool) :
    p.updateTone wanted = (do
      let isOn ← p.isToneOn
      p.switchTone (ToneSwitch.between? isOn wanted)) := by
  cases wanted with
  | true => exact congrArg (p.isToneOn >>= ·) (funext fun isOn => by cases isOn <;> rfl)
  | false => exact congrArg (p.isToneOn >>= ·) (funext fun isOn => by cases isOn <;> rfl)

end Peripherals

namespace Console

section

variable {M : Type → Type} [Monad M] (p : Peripherals M)

/-- Show the screen if it has to be painted, and take note that it was. -/
def present (c : Console σ) : M (Console σ) := do
  if c.machine.display.redraw then p.drawBuffer c.machine.display.pack
  pure { c with machine := c.machine.withRedraw false }

/-- A frame that asks its peripherals when it has to know, and orders them about. -/
def runFrameWith (c : Console σ) : M (Console σ) :=
  if c.halted || c.paused then do
    if ← p.isToneOn then p.stopTone
    c.present p
  else do
    let keys ← p.pressedKeys
    let c := c.advance keys
    p.updateTone c.machine.timers.isSounding
    c.present p

variable [LawfulMonad M]

/-- What a frame wants done is that the tone be switched, and then the screen shown. -/
theorem carryOut_runFrame (c : Console σ) (keys : Keys) (toneOn : Bool) :
    p.carryOut (c.runFrame keys toneOn) = (do
      p.switchTone (ToneSwitch.between? toneOn
        (!(c.halted || c.paused) && (c.advance keys).machine.timers.isSounding))
      (c.advance keys).present p) := by
  rw [Peripherals.carryOut, tone_runFrame, screen_runFrame, console_runFrame, present]
  refine bind_congr fun _ => ?_
  cases (c.advance keys).machine.display.redraw with
  | true => rfl
  | false => exact pure_bind _ _

/-- **A console that runs looks at the keys once**, and asks for the tone once. -/
theorem runFrameWith_of_active {c : Console σ} (h : (c.halted || c.paused) = false) :
    c.runFrameWith p = (do
      let keys ← p.pressedKeys
      let toneOn ← p.isToneOn
      p.carryOut (c.runFrame keys toneOn)) := by
  have hactive : ¬(c.halted || c.paused) = true := by
    rw [h]
    decide
  rw [runFrameWith, if_neg hactive]
  refine bind_congr fun keys => ?_
  simp only [Peripherals.updateTone_eq, bind_assoc]
  refine bind_congr fun toneOn => ?_
  rw [carryOut_runFrame, h]
  rfl

/-- **A console that is halted or paused does not look at the keys**, and its frame is the same
whatever they are. -/
theorem runFrameWith_of_idle {c : Console σ} (h : (c.halted || c.paused) = true) (keys : Keys) :
    c.runFrameWith p = (do
      let toneOn ← p.isToneOn
      p.carryOut (c.runFrame keys toneOn)) := by
  rw [runFrameWith, if_pos h]
  refine bind_congr fun toneOn => ?_
  rw [carryOut_runFrame, h, advance_of_idle h]
  cases toneOn with
  | true => rfl
  | false => exact (pure_bind () fun _ => c.present p).symm

end

/-! ## Frames -/

/-- **A frame of a console that runs is the steps that are due, and one tick.**  The steps are those
from the machine with the keys in it.  As many are due as may be executed in a frame, if they all ask
to go on, and otherwise those up to the first that does not.  The frame executes their words and no
others; it ends with the machine and the source to which they lead, with the timers counted down once
and the screen handed over; and it reports what the last of them has asked for, if there is one.  The
keys are looked at once.

To have the keys in it is all that is new in the machine from which the steps are taken.  To be counted
down is to hold one less for either timer, or zero if it holds zero, and but for that and the redraw
flag the frame ends with the machine to which the steps lead. -/
theorem runFrame_on_schedule {c : Console σ} (hhalted : c.halted = false)
    (hpaused : c.paused = false) (keys : Keys) (toneOn : Bool) :
    let latched := c.machine.latch keys
    let state k := stateAt c.dialect latched c.source k
    let signal k := (outcomeAt c.dialect latched c.source k).signal
    let f := c.runFrame keys toneOn
    latched = { c.machine with keys := keys } ∧
    (∃ k, Due signal c.cyclesPerFrame k ∧
      f.words = (List.range k).map (fun i => (state i).1.memory.readWord (state i).1.pc) ∧
      f.console.machine = (state k).1.tick.withRedraw false ∧
      f.console.machine = { (state k).1 with
        timers := f.console.machine.timers
        display := { (state k).1.display with redraw := false } } ∧
      f.console.machine.timers.delay.toNat = (state k).1.timers.delay.toNat - 1 ∧
      f.console.machine.timers.sound.toNat = (state k).1.timers.sound.toNat - 1 ∧
      f.console.source = (state k).2 ∧
      f.console.status = (lastSignal c.dialect latched c.source k).status) ∧
    ∀ {M : Type → Type} [Monad M] [LawfulMonad M] (p : Peripherals M),
      c.runFrameWith p = (do
        let keys ← p.pressedKeys
        let toneOn ← p.isToneOn
        p.carryOut (c.runFrame keys toneOn)) := by
  have hactive : (c.halted || c.paused) = false := by rw [hhalted, hpaused]; rfl
  intro latched state signal f
  refine ⟨rfl, ?_, fun p => runFrameWith_of_active p hactive⟩
  obtain ⟨k, hdue, hrun⟩ := exists_run_eq c.dialect c.cyclesPerFrame latched c.source
  have hconsole : f.console = { c.advance keys with
      machine := (c.advance keys).machine.withRedraw false } := c.console_runFrame keys toneOn
  rw [advance_of_active hactive] at hconsole
  have hmachine : f.console.machine = (state k).1.tick.withRedraw false := by
    rw [hconsole, hrun]
  refine ⟨k, hdue, ?_, hmachine, ?_, ?_, ?_, ?_, ?_⟩
  · have hexecuted : c.executedIn keys = executed c.dialect c.cyclesPerFrame latched c.source := by
      rw [executedIn, hactive]
      rfl
    rw [c.words_runFrame keys toneOn, hexecuted]
    exact executed_eq_map c.dialect (congrArg Run.notices hrun)
  · rw [hmachine]
    rfl
  · rw [hmachine]
    exact toNat_countDown _
  · rw [hmachine]
    exact toNat_countDown _
  · rw [hconsole, hrun]
  · rw [hconsole, hrun, status]
    cases lastSignal c.dialect latched c.source k <;> simp [hpaused, Signal.status]

/-- A console whose program awaits a key with its first word: of the ten steps that it may take, one
is due, and the console ends with the keys and a tick later. -/
theorem runFrame_on_schedule_waitAndDraw :
    let c := ((powerOn {} (Seeded.mk 7)).load waitAndDraw).console
    let f := c.runFrame .released true
    c.halted = false ∧ c.paused = false ∧ c.cyclesPerFrame = 10 ∧
      f.words.length = 1 ∧
      f.console.machine = (c.machine.latch .released).tick.withRedraw false ∧
      f.console.status = .awaitingKey := by
  intro c f
  have hwaits : (c.machine.latch .released).Waits :=
    ⟨waits_load_waitAndDraw.family, waits_load_waitAndDraw.low, rfl⟩
  obtain ⟨hmachine, -, hsignal⟩ := step_of_waits c.dialect hwaits c.source
  have hstop : (outcomeAt c.dialect (c.machine.latch .released) c.source 0).signal ≠ .proceed := by
    rw [outcomeAt, stateAt_zero, hsignal]
    exact Signal.noConfusion
  obtain ⟨-, ⟨k, hdue, hwords, hframe, -, -, -, -, hstatus⟩, -⟩ :=
    runFrame_on_schedule (c := c) rfl rfl .released true
  obtain rfl : k = 1 :=
    hdue.first 0 (by decide) hstop fun j hj => absurd hj (Nat.not_lt_zero j)
  refine ⟨rfl, rfl, rfl, ?_, ?_, ?_⟩
  · exact (congrArg List.length hwords).trans (List.length_map _)
  · simp only [stateAt_succ, outcomeAt, stateAt_zero, hmachine] at hframe
    exact hframe
  · rw [lastSignal, outcomeAt, stateAt_zero, hsignal] at hstatus
    exact hstatus

end Console
end Chip8
