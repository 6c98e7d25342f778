import Chip8.Proofs.Console.Frame
import Chip8.Proofs.Console.Replace
import Chip8.Proofs.Execution.Painting
import Mathlib.Data.List.Induction

/-!
# The screen is never stale

A console does not repaint its screen in every frame.  It hands over a picture when the redraw
flag is up at the end of a frame, and whoever shows the screen keeps the last picture until
then.  So the picture shown and the screen of the machine are two copies of the same thing,
and the flag is all that keeps them together.

The invariant is that *while the flag is down, the picture last handed over is the picture of
the screen*.  It survives every command for one of three reasons: the command changes no pixel,
it leaves the flag up, or it is a frame and hands over the picture itself
(`getLast?_pictures_perform`).  In particular a command that is refused is harmless: it changes
nothing, or it has cleared the machine and raised the flag.

The second question is when a picture is handed over at all.  The flag is up at the end of a
frame exactly if the machine has been replaced since the last frame, or a word was executed
in this one that raises it (`redraw_session`, `redraw_advance`).
-/

namespace Chip8

namespace Console

variable {σ : Type} [ByteSource σ]

/-! ## The pictures of a session -/

/-- The picture that is handed over in the course of a command, if one is. -/
def handed (c : Console σ) : Command → Option Packed
  | .frame keys toneOn => (c.runFrame keys toneOn).screen
  | _ => none

theorem handed_of_isFrame (c : Console σ) {command : Command} (h : command.isFrame = false) :
    c.handed command = none := by
  cases command with
  | frame keys toneOn => cases h
  | _ => rfl

/-- The pictures that are handed over in the course of commands, in order. -/
def pictures (c : Console σ) : List Command → List Packed
  | [] => []
  | command :: commands =>
      (c.handed command).toList ++ (c.perform command).pictures commands

theorem pictures_concat (c : Console σ) (commands : List Command) (command : Command) :
    c.pictures (commands ++ [command]) =
      c.pictures commands ++ ((commands.foldl perform c).handed command).toList := by
  induction commands generalizing c with
  | nil => simp [pictures]
  | cons first commands ih =>
      rw [List.cons_append, pictures, ih, pictures, List.append_assoc, List.foldl_cons]

/-! ## The flag -/

/-- Since the last frame of a session the machine has been initialized or restored.  Switching
the console on initializes it. -/
def Renewed (settings : Settings) (source : σ) (commands : List Command) : Prop :=
  (∀ command ∈ commands, command.isFrame = false) ∨
    ∃ before command after, commands = before ++ command :: after ∧
      (session settings source before).replaces command = true ∧
      ∀ later ∈ after, later.isFrame = false

/-- Whether the machine has been replaced is decided by the last command, unless it does neither
replace it nor run a frame. -/
theorem renewed_concat (settings : Settings) (source : σ) (commands : List Command)
    (command : Command) :
    Renewed settings source (commands ++ [command]) ↔
      command.isFrame = false ∧
        ((session settings source commands).replaces command = true ∨
          Renewed settings source commands) := by
  constructor
  · -- The command that replaced the machine is the last one, or it comes before it.
    rintro (hall | ⟨before, first, after, hcommands, hreplaces, hafter⟩)
    · refine ⟨hall command (by simp), Or.inr (Or.inl fun c hc => hall c ?_)⟩
      exact List.mem_append_left _ hc
    · rcases List.eq_nil_or_concat after with rfl | ⟨after', last, rfl⟩
      · obtain ⟨rfl, hlast⟩ := List.append_inj' hcommands rfl
        obtain rfl := (List.cons.inj hlast).1
        exact ⟨isFrame_of_replaces hreplaces, Or.inl hreplaces⟩
      · have hcommands' : commands ++ [command] = (before ++ first :: after') ++ [last] := by
          rw [hcommands, List.append_assoc, List.cons_append, List.concat_eq_append]
        obtain ⟨rfl, hlast⟩ := List.append_inj' hcommands' rfl
        obtain rfl := (List.cons.inj hlast).1
        refine ⟨hafter command (by simp), Or.inr (Or.inr ⟨before, first, after', rfl,
          hreplaces, fun later hlater => hafter later ?_⟩)⟩
        simp [hlater]
  · rintro ⟨hframe, hreplaces | hall | ⟨before, first, after, rfl, hreplaces, hafter⟩⟩
    · exact Or.inr ⟨commands, command, [], rfl, hreplaces, by simp⟩
    · refine Or.inl fun c hc => ?_
      rcases List.mem_append.mp hc with hc | hc
      · exact hall c hc
      · rwa [List.mem_singleton.mp hc]
    · refine Or.inr ⟨before, first, after ++ [command], by simp, hreplaces, fun later hlater => ?_⟩
      rcases List.mem_append.mp hlater with hlater | hlater
      · exact hafter later hlater
      · rwa [List.mem_singleton.mp hlater]

/-- After a command the flag is up if the command has replaced the machine, or if it was up and
there was no frame. -/
theorem redraw_perform (c : Console σ) (command : Command) :
    (c.perform command).machine.display.redraw = true ↔
      command.isFrame = false ∧
        (c.replaces command = true ∨ c.machine.display.redraw = true) := by
  cases hreplaces : c.replaces command with
  | true =>
      exact iff_of_true (perform_of_replaces hreplaces).1
        ⟨isFrame_of_replaces hreplaces, Or.inl rfl⟩
  | false =>
      cases hframe : command.isFrame with
      | true =>
          obtain ⟨keys, toneOn, rfl⟩ := Command.eq_frame_of_isFrame hframe
          simp [perform, console_runFrame, Display.takeRedraw]
      | false =>
          obtain ⟨paused, hperform⟩ := perform_of_not_replaces hframe hreplaces
          simp [hperform]

/-- **The flag is up between two commands** exactly if the machine has been replaced since the last
frame. -/
theorem redraw_session (settings : Settings) (source : σ) (commands : List Command) :
    (session settings source commands).machine.display.redraw = true ↔
      Renewed settings source commands := by
  induction commands using List.reverseRecOn with
  | nil => exact iff_of_true rfl (Or.inl (by simp))
  | append_singleton commands command ih =>
      rw [session_concat, redraw_perform, renewed_concat, ih]

/-- The words that a frame executes. -/
def executedIn (c : Console σ) (keys : Keys) : List UInt16 :=
  if c.halted || c.paused then []
  else executed c.dialect c.cyclesPerFrame (c.machine.latch keys) c.source

/-- **The flag is up at the end of a frame** exactly if it was up before the frame, or the frame
has executed a word that raises it. -/
theorem redraw_advance (c : Console σ) (keys : Keys) :
    (c.advance keys).machine.display.redraw = true ↔
      c.machine.display.redraw = true ∨ ∃ w ∈ c.executedIn keys, Word.Paints w := by
  cases hidle : c.halted || c.paused with
  | true => simp [advance_of_idle hidle, executedIn, hidle]
  | false =>
      have hrun := redraw_run c.dialect c.cyclesPerFrame (c.machine.latch keys) c.source
      rw [advance_of_active hidle, executedIn, hidle, or_comm]
      exact hrun

/-! ## The pixels -/

/-- A console that has advanced and whose flag is down shows what it showed before. -/
theorem display_advance_of_redraw (c : Console σ) (keys : Keys)
    (h : (c.advance keys).machine.display.redraw = false) :
    (c.advance keys).machine.display = c.machine.display := by
  cases hidle : c.halted || c.paused with
  | true => rw [advance_of_idle hidle]
  | false =>
      rw [advance_of_active hidle] at h ⊢
      exact display_run_of_redraw c.dialect c.cyclesPerFrame (c.machine.latch keys) c.source h

/-- **The invariant.**  If the last of the pictures shows what is on the screen while the flag is
down, then so it does after a command, with the picture that was handed over in it. -/
theorem getLast?_pictures_perform (c : Console σ) (command : Command) {pictures : List Packed}
    (h : c.machine.display.redraw = false →
      pictures.getLast? = some c.machine.display.pack)
    (hdown : (c.perform command).machine.display.redraw = false) :
    (pictures ++ (c.handed command).toList).getLast? =
      some (c.perform command).machine.display.pack := by
  cases hframe : command.isFrame with
  | true =>
      obtain ⟨keys, toneOn, rfl⟩ := Command.eq_frame_of_isFrame hframe
      rw [handed, perform, screen_runFrame, console_runFrame]
      -- with the flag up the frame hands over what it ends with, with the flag down it has
      -- changed no pixel
      cases hflag : (c.advance keys).machine.display.redraw with
      | true =>
          rw [if_pos rfl, Option.toList_some, List.getLast?_concat]
          rfl
      | false =>
          have hdisplay := c.display_advance_of_redraw keys hflag
          rw [if_neg Bool.false_ne_true, Option.toList_none, List.append_nil,
            h (hdisplay ▸ hflag), hdisplay]
          rfl
  | false =>
      rw [handed_of_isFrame c hframe, Option.toList_none, List.append_nil]
      cases hreplaces : c.replaces command with
      | true =>
          rw [(perform_of_replaces hreplaces).1] at hdown
          cases hdown
      | false =>
          obtain ⟨paused, hperform⟩ := perform_of_not_replaces hframe hreplaces
          rw [hperform] at hdown ⊢
          exact h hdown

/-- In every session, while the flag is down, the last picture handed over is the picture of the
screen. -/
theorem getLast?_pictures_session (settings : Settings) (source : σ) (commands : List Command)
    (hdown : (session settings source commands).machine.display.redraw = false) :
    ((powerOn settings source).pictures commands).getLast? =
      some (session settings source commands).machine.display.pack := by
  induction commands using List.reverseRecOn with
  | nil => cases hdown
  | append_singleton commands command ih =>
      rw [session_concat] at hdown ⊢
      rw [pictures_concat]
      exact getLast?_pictures_perform _ command ih hdown

/-- **The screen is never stale.**  Take any session, whether or not its commands succeed, and run
a frame with any keys and the tone on or off.

* Afterwards the redraw flag is down, and the last of all the pictures handed over since the
  console was switched on is the picture of the screen as it is now.
* The frame hands over one picture at most, and it does so exactly if the flag was up at its
  end.
* That is the case exactly if the machine has been initialized or restored since the frame
  before, or the frame has executed one of the words `00E0`, `00EE` and `DXYN`. -/
theorem screen_never_stale (settings : Settings) (source : σ) (commands : List Command)
    (keys : Keys) (toneOn : Bool) :
    let c := session settings source commands
    let f := c.runFrame keys toneOn
    let shown := (powerOn settings source).pictures (commands ++ [.frame keys toneOn])
    f.console.machine.display.redraw = false ∧
      shown.getLast? = some f.console.machine.display.pack ∧
      shown = (powerOn settings source).pictures commands ++ f.screen.toList ∧
      f.screen.isSome = (c.advance keys).machine.display.redraw ∧
      (f.screen.isSome = true ↔
        Renewed settings source commands ∨ ∃ w ∈ c.executedIn keys, Word.Paints w) := by
  intro c f shown
  have hdown : f.console.machine.display.redraw = false := by
    simp only [f, console_runFrame]
    rfl
  have hshown : shown = (powerOn settings source).pictures commands ++ f.screen.toList :=
    pictures_concat _ _ _
  have hlast : shown.getLast? = some f.console.machine.display.pack := by
    have hsession : session settings source (commands ++ [.frame keys toneOn]) = f.console :=
      session_concat settings source commands _
    rw [← hsession] at hdown ⊢
    exact getLast?_pictures_session settings source _ hdown
  have hscreen : f.screen.isSome = (c.advance keys).machine.display.redraw := by
    simp only [f, screen_runFrame]
    cases (c.advance keys).machine.display.redraw <;> rfl
  refine ⟨hdown, hlast, hshown, hscreen, ?_⟩
  rw [hscreen, redraw_advance, redraw_session]

end Console
end Chip8
