import Chip8.Proofs.Console.Frame
import Chip8.Proofs.Console.Replace
import Chip8.Proofs.Console.Resume
import Chip8.Proofs.Execution.Redraw

/-!
# Paused frames can be erased

A console that is paused goes on being asked for frames.  They are not to leave any trace: once
the console goes on, it is where it would be if nobody had paused it and nobody had asked for
those frames.

So two sessions are compared, the one that took place and the one that is left of it when every
pause and every paused frame is struck out (`heeded`).  After each command the two consoles
agree in everything but the pause itself and the redraw flag.  The flag cannot be left out,
because a paused frame does hand over the screen, and lowers the flag that is still up in the
other console.  But no instruction looks at it (`exists_run_withRedraw`), and the next frame
that is not paused lowers it in both: then the consoles are equal (`runFrame_withPause`).

The statement is about sessions of all commands.  Loads, resets and restores do not care about
the pause either, and are kept like the frames that are not paused.
-/

namespace Chip8

namespace Console

variable {σ : Type}

/-- The console with the pause and the redraw flag as given. -/
def withPause (c : Console σ) (paused redraw : Bool) : Console σ :=
  { c with paused := paused, machine := c.machine.withRedraw redraw }

/-- Whether a console heeds a command: all but pausing and going on, and while it is paused no
frame. -/
def heeds (c : Console σ) : Command → Bool
  | .togglePause => false
  | .frame .. => !c.paused
  | _ => true

variable [ByteSource σ]

/-- The commands of a session that the console heeds, each judged when its turn comes. -/
def heeded (c : Console σ) : List Command → List Command
  | [] => []
  | command :: commands =>
      if c.heeds command then command :: (c.perform command).heeded commands
      else (c.perform command).heeded commands

/-! ## Frames -/

/-- A console that is not paused advances alike, wherever its redraw flag is. -/
theorem exists_advance_withPause {c : Console σ} (h : c.paused = false) (redraw : Bool)
    (keys : Keys) :
    ∃ redraw', (c.withPause false redraw).advance keys =
      (c.advance keys).withPause false redraw' := by
  obtain ⟨machine, dialect, source, cycles, rom, halted, paused, awaiting⟩ := c
  obtain rfl : paused = false := h
  cases halted with
  | true => exact ⟨redraw, rfl⟩
  | false =>
      obtain ⟨painted, hrun⟩ := exists_run_withRedraw dialect cycles (machine.latch keys) source
      have hlatch : run dialect cycles ((machine.withRedraw redraw).latch keys) source =
          (run dialect cycles (machine.latch keys) source).withRedraw (painted || redraw) :=
        hrun redraw
      refine ⟨painted || redraw, ?_⟩
      rw [advance_of_active rfl, advance_of_active rfl]
      simp only [withPause, hlatch]
      rfl

theorem paused_advance (c : Console σ) (keys : Keys) : (c.advance keys).paused = c.paused := by
  rw [advance]
  split <;> rfl

theorem paused_runFrame (c : Console σ) (keys : Keys) (toneOn : Bool) :
    (c.runFrame keys toneOn).console.paused = c.paused := by
  rw [console_runFrame, ← c.paused_advance keys]

/-- A frame that is not paused makes up for all that a paused one may have changed. -/
theorem runFrame_withPause {c : Console σ} (h : c.paused = false) (redraw : Bool) (keys : Keys)
    (toneOn : Bool) :
    ((c.withPause false redraw).runFrame keys toneOn).console =
      (c.runFrame keys toneOn).console := by
  obtain ⟨redraw', hadvance⟩ := exists_advance_withPause h redraw keys
  have hpaused : (c.advance keys).paused = false := by rw [paused_advance, h]
  rw [console_runFrame, console_runFrame, hadvance]
  -- the flag is taken in both, and neither is paused
  generalize c.advance keys = c' at hpaused ⊢
  obtain ⟨machine, dialect, source, cycles, rom, halted, paused, awaiting⟩ := c'
  obtain rfl : paused = false := hpaused
  rfl

/-- A paused frame does nothing but hand over the screen. -/
theorem perform_frame_of_paused {c : Console σ} (h : c.paused = true) (keys : Keys)
    (toneOn : Bool) : c.perform (.frame keys toneOn) = c.withPause true false := by
  have hidle : (c.halted || c.paused) = true := by rw [h, Bool.or_true]
  rw [perform, console_runFrame, advance_of_idle hidle]
  obtain ⟨machine, dialect, source, cycles, rom, halted, paused, awaiting⟩ := c
  obtain rfl : paused = true := h
  rfl

/-! ## Commands -/

/-- A command that is not heeded leaves everything but the pause and the redraw flag alone. -/
theorem exists_perform_of_not_heeds {c : Console σ} {command : Command}
    (h : c.heeds command = false) :
    ∃ paused redraw, c.perform command = c.withPause paused redraw := by
  cases command with
  | togglePause => exact ⟨!c.paused, c.machine.display.redraw, rfl⟩
  | frame keys toneOn =>
      have hpaused : c.paused = true := by simpa [heeds] using h
      exact ⟨true, false, perform_frame_of_paused hpaused keys toneOn⟩
  | _ => cases h

/-- A command that replaces the machine does not ask for the pause or the redraw flag. -/
theorem exists_perform_of_replaces {c : Console σ} {command : Command}
    (h : c.replaces command = true) :
    ∃ (machine : Machine) (dialect : Dialect) (rom : Option Rom) (halted awaiting : Bool),
      ∀ paused redraw, (c.withPause paused redraw).perform command = { c with
        machine := machine, dialect := dialect, rom := rom, halted := halted
        awaitingKey := awaiting, paused := paused } := by
  cases command with
  | load rom =>
      refine ⟨.load rom, c.dialect, some rom, false, false, fun paused redraw => ?_⟩
      simp only [perform, load, withPause]
  | loadFile path fileName contents =>
      cases hrom : Rom.ofFile path fileName contents with
      | ok rom =>
          refine ⟨.load rom, c.dialect, some rom, false, false, fun paused redraw => ?_⟩
          simp only [perform, loadFile, hrom, load_eject]
          simp only [load, withPause]
      | error e =>
          refine ⟨.initial, c.dialect, none, true, false, fun paused redraw => ?_⟩
          simp only [perform, loadFile, hrom, eject, withPause]
  | reset =>
      cases hrom : c.rom with
      | some rom =>
          refine ⟨.load rom, c.dialect, some rom, false, false, fun paused redraw => ?_⟩
          simp only [perform, reset, withPause, hrom, load]
      | none =>
          refine ⟨.initial, c.dialect, none, c.halted, c.awaitingKey, fun paused redraw => ?_⟩
          simp only [perform, reset, withPause, hrom]
  | restore bytes =>
      cases hdecode : Snapshot.decode bytes with
      | ok s =>
          refine ⟨s.machine, s.dialect, c.rom, false, false, fun paused redraw => ?_⟩
          simp only [perform, restore, hdecode, withPause]
      | error e =>
          simp [replaces, restore, hdecode] at h
  | togglePause | save => cases h
  | frame keys toneOn => cases h

omit [ByteSource σ] in
theorem withPause_self {c : Console σ} (h : c.paused = false) :
    c.withPause false c.machine.display.redraw = c := by
  obtain ⟨machine, dialect, source, cycles, rom, halted, paused, awaiting⟩ := c
  obtain rfl : paused = false := h
  rfl

/-- A command that is heeded leaves consoles together that differ in the pause and the redraw flag
alone. -/
theorem exists_perform_withPause {c : Console σ} (h : c.paused = false) {paused redraw : Bool}
    {command : Command} (hheeds : (c.withPause paused redraw).heeds command = true) :
    (c.perform command).paused = false ∧
      ∃ paused' redraw', (c.withPause paused redraw).perform command =
        (c.perform command).withPause paused' redraw' := by
  cases hreplaces : c.replaces command with
  | true =>
      obtain ⟨machine, dialect, rom, halted, awaiting, hperform⟩ :=
        exists_perform_of_replaces hreplaces
      have hself := hperform false c.machine.display.redraw
      rw [withPause_self h] at hself
      rw [hself, hperform]
      exact ⟨rfl, paused, machine.display.redraw, rfl⟩
  | false =>
      cases command with
      | frame keys toneOn =>
          obtain rfl : paused = false := by simpa [heeds, withPause] using hheeds
          have hpaused : (c.perform (.frame keys toneOn)).paused = false := by
            rw [perform, paused_runFrame, h]
          refine ⟨hpaused, false, (c.perform (.frame keys toneOn)).machine.display.redraw, ?_⟩
          rw [withPause_self hpaused]
          exact runFrame_withPause h redraw keys toneOn
      | restore bytes =>
          rcases Snapshot.decode_cases bytes with ⟨e, -, hdecode⟩ | ⟨s, -, hdecode, -⟩
          · refine ⟨?_, paused, redraw, ?_⟩
            · simp only [perform, restore, hdecode, h]
            · simp only [perform, restore, hdecode]
          · simp [replaces, restore, hdecode] at hreplaces
      | save => exact ⟨h, paused, redraw, rfl⟩
      | togglePause => cases hheeds
      | load rom | loadFile path fileName contents | reset => cases hreplaces

/-! ## Sessions -/

theorem heeded_append (c : Console σ) (before after : List Command) :
    c.heeded (before ++ after) = c.heeded before ++ (before.foldl perform c).heeded after := by
  induction before generalizing c with
  | nil => rfl
  | cons command before ih =>
      rw [List.cons_append, heeded, heeded, ih, List.foldl_cons]
      split
      · rw [List.cons_append]
      · rfl

theorem ne_togglePause_of_mem_heeded (c : Console σ) (commands : List Command) {command : Command}
    (h : command ∈ c.heeded commands) : command ≠ .togglePause := by
  induction commands generalizing c with
  | nil => cases h
  | cons first commands ih =>
      rw [heeded] at h
      split at h
      · rename_i hheeds
        rcases List.mem_cons.mp h with rfl | hlater
        · rintro rfl
          cases hheeds
        · exact ih _ hlater
      · exact ih _ h

/-- **The two sessions stay together.** -/
theorem exists_foldl_withPause {c : Console σ} (h : c.paused = false) (paused redraw : Bool)
    (commands : List Command) :
    let left := ((c.withPause paused redraw).heeded commands).foldl perform c
    left.paused = false ∧ ∃ paused' redraw',
      commands.foldl perform (c.withPause paused redraw) = left.withPause paused' redraw' := by
  -- A command that is heeded moves both consoles, and one that is not moves only the first.
  induction commands generalizing c paused redraw with
  | nil => exact ⟨h, paused, redraw, rfl⟩
  | cons command commands ih =>
      rw [heeded, List.foldl_cons]
      cases hheeds : (c.withPause paused redraw).heeds command with
      | true =>
          obtain ⟨hpaused, paused', redraw', hperform⟩ := exists_perform_withPause h hheeds
          rw [if_pos rfl, List.foldl_cons, hperform]
          exact ih hpaused paused' redraw'
      | false =>
          obtain ⟨paused', redraw', hperform⟩ := exists_perform_of_not_heeds hheeds
          rw [if_neg Bool.false_ne_true, hperform]
          exact ih h paused' redraw'

/-- **Paused frames can be erased.**  Take a console that is not paused, and any session of it.
Strike out every pause and every frame that the console was asked for while it was paused, and
let it do what is left from the same start.

* Afterwards the two consoles differ in nothing but the pause and the redraw flag.
* If the session ends with a frame that was not paused, they do not differ at all. -/
theorem paused_frames_erased (c : Console σ) (h : c.paused = false) (commands : List Command) :
    let left := c.heeded commands
    (∀ command ∈ left, command ≠ .togglePause) ∧
      (∃ paused redraw,
        commands.foldl perform c = (left.foldl perform c).withPause paused redraw) ∧
      ∀ before keys toneOn, commands = before ++ [.frame keys toneOn] →
        (before.foldl perform c).paused = false →
          commands.foldl perform c = left.foldl perform c := by
  intro left
  refine ⟨fun command hmem => c.ne_togglePause_of_mem_heeded commands hmem, ?_, ?_⟩
  · have hsessions := exists_foldl_withPause h false c.machine.display.redraw commands
    rw [withPause_self h] at hsessions
    exact hsessions.2
  · rintro before keys toneOn rfl hrunning
    obtain ⟨hpaused, paused, redraw, hbefore⟩ :=
      exists_foldl_withPause h false c.machine.display.redraw before
    rw [withPause_self h] at hpaused hbefore
    generalize hend : before.foldl perform c = c' at hrunning hbefore
    -- the frame is the last command of both sessions
    have hheeds : c'.heeds (.frame keys toneOn) = true := by simp [heeds, hrunning]
    have hlast : c'.heeded [.frame keys toneOn] = [.frame keys toneOn] := by
      rw [heeded, if_pos hheeds, heeded]
    have hleft : left = c.heeded before ++ [.frame keys toneOn] := by
      rw [← hlast, ← hend]
      exact c.heeded_append before _
    rw [hleft, List.foldl_append, List.foldl_append, hend]
    show (c'.runFrame keys toneOn).console = (Console.runFrame keys toneOn _).console
    obtain rfl : paused = false := by
      rw [hbefore] at hrunning
      exact hrunning
    rw [hbefore]
    exact runFrame_withPause hpaused redraw keys toneOn

/-- A frame, and another one for which the console is paused. -/
def pausedForAFrame (keys keys' : Keys) : List Command :=
  [.frame keys false, .togglePause, .frame keys' true, .togglePause]

theorem paused_pausedForAFrame {c : Console σ} (h : c.paused = false) (keys keys' : Keys) :
    ((pausedForAFrame keys keys').foldl perform c).paused = false := by
  simp [pausedForAFrame, perform, togglePause, paused_runFrame, h]

theorem heeded_pausedForAFrame {c : Console σ} (h : c.paused = false) (keys keys' : Keys) :
    c.heeded (pausedForAFrame keys keys' ++ [.frame keys false]) =
      [.frame keys false, .frame keys false] := by
  simp [pausedForAFrame, heeded, heeds, perform, togglePause, paused_runFrame, h]

/-- A program that waits for a key is paused in its second frame, and the key that is down then is
not noticed. -/
theorem paused_frames_erased_waitAndDraw :
    let c := ((powerOn {} (Seeded.mk 7)).load waitAndDraw).console
    let before := pausedForAFrame .released (Keys.released.put 4 true)
    c.paused = false ∧ (before.foldl perform c).paused = false ∧
      (before ++ [Command.frame .released false]).foldl perform c =
        [Command.frame .released false, .frame .released false].foldl perform c := by
  intro c before
  have hstart : c.paused = false := rfl
  have hrunning := paused_pausedForAFrame hstart .released (Keys.released.put 4 true)
  have hheeded := heeded_pausedForAFrame hstart .released (Keys.released.put 4 true)
  obtain ⟨-, -, hequal⟩ := paused_frames_erased c hstart (before ++ [.frame .released false])
  refine ⟨hstart, hrunning, ?_⟩
  rw [hequal before .released false rfl hrunning, hheeded]

end Console
end Chip8
