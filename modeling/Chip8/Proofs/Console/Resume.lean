import Chip8.Proofs.Console.Restore
import Chip8.Proofs.Execution.Redraw

/-!
# Resuming from a snapshot

A snapshot leaves things out: the keys, the redraw flag, whether the program was
waiting for a key, whether it had stopped.  The question is whether a program can tell.
It cannot, and this file says so for runs of any length: a console that runs, and any
other console into which the first one's snapshot is restored, go through the same
frames from then on.

What makes it work is the order of things in a frame.  The keys are replaced before the
first instruction, the wait for a key is decided anew by the run, and the redraw flag
is neither looked at by an instruction nor still up when the frame is over.  So all that
was left out has been put back or thrown away by the end of the *first* frame, and from
there on the two consoles differ in nothing but the rom that a reset would go back
to.

* `activeFrame_of_restored` is the first frame.
* `runFrame_withRom` is every later one.
* `frames_of_restored` puts them together, by induction on the frames.
-/

namespace Chip8

/-- What a frame is told: which keys are down, and whether the tone is on. -/
structure FrameInput where
  keys : Keys
  toneOn : Bool

/-- What can be told of a console after a frame, apart from the rom and the pace. -/
structure FrameView (σ : Type) where
  machine : Machine
  dialect : Dialect
  /-- The status that the frame reports. -/
  status : Status
  source : σ

/-- What can be told of the console after a frame. -/
def Frame.view {σ : Type} (f : Frame σ) : FrameView σ :=
  ⟨f.console.machine, f.console.dialect, f.console.status, f.console.source⟩

namespace Console

variable {σ : Type} [ByteSource σ]

/-- The frames of a console, one for each input. -/
def frames (c : Console σ) : List FrameInput → List (Frame σ)
  | [] => []
  | i :: inputs =>
      let f := c.runFrame i.keys i.toneOn
      f :: f.console.frames inputs

/-! ## The first frame -/

/-- **The first frame makes up for all that was left out.**  The consoles before it
differ in the rom, the keys, the redraw flag and the wait for a key; the consoles after it
differ in the rom.  If the flag was up, the screen is painted. -/
theorem activeFrame_of_restored (c : Console σ) (rom : Option Rom) (awaiting : Bool)
    (keys₀ keys : Keys) (tone tone' : Bool) :
    let f := c.activeFrame keys tone
    let f' := ({ c with
      machine := (c.machine.latch keys₀).withRedraw true
      rom := rom, awaitingKey := awaiting }).activeFrame keys tone'
    f'.console = { f.console with rom := rom } ∧
      f'.screen = some f.console.machine.display.pack := by
  intro f f'
  obtain ⟨painted, hrun⟩ := exists_run_withRedraw c.dialect c.cyclesPerFrame
    (c.machine.latch keys) c.source
  have hlatch : ((c.machine.latch keys₀).withRedraw true).latch keys =
      (c.machine.latch keys).withRedraw true := rfl
  have hup := hrun true
  rw [Bool.or_true] at hup
  constructor
  · simp only [f, f', activeFrame, hlatch, hup]
    rfl
  · simp only [f, f', activeFrame, hlatch, hup]
    rfl

/-! ## Later frames -/

/-- A frame does not depend on the rom, nor does anything but the switch of the tone depend on
whether the tone is on. -/
theorem runFrame_withRom (c : Console σ) (rom : Option Rom) (keys : Keys) (tone tone' : Bool) :
    (({ c with rom := rom }).runFrame keys tone').console =
        { (c.runFrame keys tone).console with rom := rom } ∧
      (({ c with rom := rom }).runFrame keys tone').screen = (c.runFrame keys tone).screen := by
  unfold runFrame
  cases hidle : c.halted || c.paused with
  | true => exact ⟨rfl, rfl⟩
  | false => exact ⟨rfl, rfl⟩

/-- Consoles that differ in the rom alone show and look the same in every frame. -/
theorem frames_withRom (inputs inputs' : List FrameInput)
    (hkeys : inputs.map FrameInput.keys = inputs'.map FrameInput.keys) (c : Console σ)
    (rom : Option Rom) :
    (({ c with rom := rom }).frames inputs').map (fun f : Frame σ => (f.view, f.screen)) =
      (c.frames inputs).map fun f => (f.view, f.screen) := by
  induction inputs generalizing inputs' c with
  | nil =>
      obtain rfl : inputs' = [] := List.map_eq_nil_iff.mp hkeys.symm
      rfl
  | cons i inputs ih =>
      cases inputs' with
      | nil => cases hkeys
      | cons i' inputs' =>
          obtain ⟨hi, hkeys⟩ := List.cons.inj hkeys
          obtain ⟨hconsole, hscreen⟩ := c.runFrame_withRom rom i.keys i.toneOn i'.toneOn
          have hview : (({ c with rom := rom }).runFrame i.keys i'.toneOn).view =
              (c.runFrame i.keys i.toneOn).view := by
            rw [Frame.view, hconsole]
            rfl
          have hlater := ih inputs' hkeys (c.runFrame i.keys i.toneOn).console
          simp only [frames, List.map_cons, ← hi, hconsole, hview, hscreen, hlater]

/-! ## All frames -/

omit [ByteSource σ] in
/-- Saved and restored, a console that runs is the same console but for the rom, the keys,
the redraw flag and the wait for a key. -/
theorem console_restore_save {c c' : Console σ} (hhalted : c.halted = false)
    (hpaused : c.paused = false) (hpaused' : c'.paused = false)
    (hcycles : c'.cyclesPerFrame = c.cyclesPerFrame) (hsource : c'.source = c.source) :
    (c'.restore c.save).refusal = none ∧
      (c'.restore c.save).console = { c with
        machine := (c.machine.latch .released).withRedraw true
        rom := c'.rom, awaitingKey := false } := by
  obtain ⟨machine, dialect, source, cycles, rom, halted, paused, awaiting⟩ := c
  obtain ⟨machine', dialect', source', cycles', rom', halted', paused', awaiting'⟩ := c'
  cases hhalted
  cases hpaused
  cases hpaused'
  cases hcycles
  cases hsource
  exact restore_save _ _

/-- The frames of a console that runs, and of one restored from it. -/
theorem frames_of_restored {c : Console σ} (hhalted : c.halted = false) (hpaused : c.paused = false)
    (rom : Option Rom) (awaiting : Bool) (keys₀ : Keys) (i i' : FrameInput)
    (inputs inputs' : List FrameInput) (hi : i.keys = i'.keys)
    (hkeys : inputs.map FrameInput.keys = inputs'.map FrameInput.keys) :
    ∃ (f f' : Frame σ) (later later' : List (Frame σ)),
      c.frames (i :: inputs) = f :: later ∧
      ({ c with
        machine := (c.machine.latch keys₀).withRedraw true
        rom := rom, awaitingKey := awaiting }).frames (i' :: inputs') = f' :: later' ∧
      f'.view = f.view ∧ f'.screen = some f'.console.machine.display.pack ∧
      later'.map (fun f : Frame σ => (f.view, f.screen)) =
        later.map fun f => (f.view, f.screen) := by
  have hrun : (c.halted || c.paused) = false := by rw [hhalted, hpaused]; rfl
  obtain ⟨hconsole, hscreen⟩ :=
    c.activeFrame_of_restored rom awaiting keys₀ i.keys i.toneOn i'.toneOn
  refine ⟨_, _, _, _, rfl, rfl, ?_⟩
  simp only [runFrame, hrun, Bool.false_eq_true, if_false, ← hi, Frame.view, hconsole, hscreen]
  exact ⟨rfl, trivial, frames_withRom inputs inputs' hkeys _ rom⟩

/-- **A program cannot tell that it was saved and restored.**  Take a console that runs, and any
other that is not paused, has the same pace and a source of random bytes in the same
state.  Restoring the snapshot of the first into the second succeeds; and
whatever keys both are given from then on, in every frame they end with equal
machines, dialects and sources and report the same status.  The restored console paints
the screen in its first frame, and in every later frame both paint or neither does, and the same
picture. -/
theorem restore_save_unnoticed (c c' : Console σ) (hhalted : c.halted = false)
    (hpaused : c.paused = false) (hpaused' : c'.paused = false)
    (hcycles : c'.cyclesPerFrame = c.cyclesPerFrame) (hsource : c'.source = c.source)
    (inputs inputs' : List FrameInput)
    (hkeys : inputs.map FrameInput.keys = inputs'.map FrameInput.keys) :
    (c'.restore c.save).refusal = none ∧
      ((c'.restore c.save).console.frames inputs').map Frame.view =
        (c.frames inputs).map Frame.view ∧
      (∀ f ∈ ((c'.restore c.save).console.frames inputs').head?,
        f.screen = some f.console.machine.display.pack) ∧
      ((c'.restore c.save).console.frames inputs').tail.map Frame.screen =
        (c.frames inputs).tail.map Frame.screen := by
  obtain ⟨hrefusal, hconsole⟩ :=
    console_restore_save hhalted hpaused hpaused' hcycles hsource
  refine ⟨hrefusal, ?_⟩
  rw [hconsole]
  cases inputs with
  | nil =>
      obtain rfl : inputs' = [] := List.map_eq_nil_iff.mp hkeys.symm
      exact ⟨rfl, fun f hf => absurd hf (by simp [frames]), rfl⟩
  | cons i inputs =>
      cases inputs' with
      | nil => cases hkeys
      | cons i' inputs' =>
          obtain ⟨hi, hkeys⟩ := List.cons.inj hkeys
          obtain ⟨f, f', later, later', hf, hf', hview, hscreen, hlater⟩ :=
            frames_of_restored hhalted hpaused c'.rom false .released i i' inputs inputs' hi hkeys
          have hviews := congrArg (List.map Prod.fst) hlater
          have hscreens := congrArg (List.map Prod.snd) hlater
          rw [List.map_map, List.map_map] at hviews hscreens
          rw [hf, hf']
          refine ⟨congrArg₂ List.cons hview hviews, ?_, hscreens⟩
          intro g hg
          obtain rfl : f' = g := Option.some.inj hg
          exact hscreen

/-- A rom that waits for a key and then draws a random byte. -/
def waitAndDraw : Rom := ⟨"wait", [0xF0, 0x0A, 0xC1, 0xFF], by decide, by decide⟩

/-- A console that is about to wait for a key, restored into one of another dialect that was
never started.  The key comes in the second frame, and the tone is on for one of the two only. -/
theorem restore_save_unnoticed_waitAndDraw :
    ((powerOn {} (Seeded.mk 7)).load waitAndDraw).console.halted = false ∧
      ((powerOn { dialect := Preset.superChip.dialect } (Seeded.mk 7)).restore
        ((powerOn {} (Seeded.mk 7)).load waitAndDraw).console.save).refusal = none ∧
      ((((powerOn { dialect := Preset.superChip.dialect } (Seeded.mk 7)).restore
          ((powerOn {} (Seeded.mk 7)).load waitAndDraw).console.save).console.frames
            [⟨.released, true⟩, ⟨Keys.released.put 4 true, false⟩]).map Frame.view =
        (((powerOn {} (Seeded.mk 7)).load waitAndDraw).console.frames
            [⟨.released, false⟩, ⟨Keys.released.put 4 true, false⟩]).map Frame.view) :=
  have h := restore_save_unnoticed ((powerOn {} (Seeded.mk 7)).load waitAndDraw).console
    (powerOn { dialect := Preset.superChip.dialect } (Seeded.mk 7)) rfl rfl rfl rfl rfl
    [⟨.released, false⟩, ⟨Keys.released.put 4 true, false⟩]
    [⟨.released, true⟩, ⟨Keys.released.put 4 true, false⟩] rfl
  ⟨rfl, h.1, h.2.1⟩

end Console
end Chip8
