import Chip8.Console

/-!
# What can be asked of a console

A console is switched on and then asked for one thing after another.  `Command` lists
what it can be asked for, with whatever it is given along with the request; a list of
commands is a session, and the consoles that a session can end with are the ones that can
occur.  Nothing is required of a command: a file may hold anything or be unreadable, and
the bytes to restore from may be any bytes.
-/

namespace Chip8

/-- What a console can be asked for. -/
inductive Command where
  | load (rom : Rom)
  /-- Run the rom in a file, given what came of reading the file. -/
  | loadFile (path : String) (fileName : List UInt8) (contents : Except String (List UInt8))
  | reset
  | togglePause
  | frame (keys : Keys) (toneOn : Bool)
  | save
  | restore (bytes : List UInt8)

/-- Whether a command is a frame. -/
def Command.isFrame : Command → Bool
  | .frame .. => true
  | _ => false

theorem Command.eq_frame_of_isFrame {command : Command} (h : command.isFrame = true) :
    ∃ keys toneOn, command = .frame keys toneOn := by
  cases command with
  | frame keys toneOn => exact ⟨keys, toneOn, rfl⟩
  | _ => cases h

/-- Whether a command asks for a rom to be run that may be another one. -/
def Command.isLoad : Command → Bool
  | .load _ | .loadFile .. => true
  | _ => false

namespace Console

variable {σ : Type} [ByteSource σ]

/-- The console after a command. -/
def perform (c : Console σ) : Command → Console σ
  | .load rom => (c.load rom).console
  | .loadFile path fileName contents => (c.loadFile path fileName contents).console
  | .reset => c.reset.console
  | .togglePause => c.togglePause.console
  | .frame keys toneOn => (c.runFrame keys toneOn).console
  | .save => c
  | .restore bytes => (c.restore bytes).console

/-- The console at the end of a session. -/
def session (settings : Settings) (source : σ) (commands : List Command) : Console σ :=
  commands.foldl perform (powerOn settings source)

/-- A session is continued with the console that it ended with. -/
theorem session_append (settings : Settings) (source : σ) (before after : List Command) :
    session settings source (before ++ after) =
      after.foldl perform (session settings source before) :=
  List.foldl_append

@[simp] theorem session_concat (settings : Settings) (source : σ) (commands : List Command)
    (command : Command) :
    session settings source (commands ++ [command]) =
      (session settings source commands).perform command :=
  session_append settings source commands [command]

/-- **What every command preserves holds at the end of every session**, if it holds when a
console is switched on. -/
theorem session_invariant {P : Console σ → Prop} (settings : Settings) (source : σ)
    (hstart : P (powerOn settings source))
    (hperform : ∀ (c : Console σ) (command : Command), P c → P (c.perform command))
    (commands : List Command) : P (session settings source commands) :=
  List.foldlRecOn commands perform hstart fun c hc command _ => hperform c command hc

/-! ## What holds at every turn -/

/-- Whenever a console is given one of the commands, in its turn, the two are as `P` says. -/
def Throughout (P : Console σ → Command → Prop) (c : Console σ) : List Command → Prop
  | [] => True
  | command :: commands => P c command ∧ (c.perform command).Throughout P commands

/-- **What every command of a kind preserves, commands of that kind preserve.** -/
theorem foldl_of_throughout {P : Console σ → Command → Prop} {Q : Console σ → Prop}
    (hperform : ∀ (c : Console σ) (command : Command), Q c → P c command → Q (c.perform command))
    {c : Console σ} (hc : Q c) {commands : List Command} (h : c.Throughout P commands) :
    Q (commands.foldl perform c) := by
  induction commands generalizing c with
  | nil => exact hc
  | cons command commands ih =>
      obtain ⟨hcommand, hcommands⟩ := h
      exact ih (hperform c command hc hcommand) hcommands

/-- What follows at every turn from something that the commands preserve, holds throughout. -/
theorem throughout_of_invariant {P R : Console σ → Command → Prop} {Q : Console σ → Prop}
    (hperform : ∀ (c : Console σ) (command : Command), Q c → P c command →
      R c command ∧ Q (c.perform command))
    {c : Console σ} (hc : Q c) {commands : List Command} (h : c.Throughout P commands) :
    c.Throughout R commands := by
  induction commands generalizing c with
  | nil => trivial
  | cons command commands ih =>
      obtain ⟨hcommand, hcommands⟩ := h
      obtain ⟨hturn, hnext⟩ := hperform c command hc hcommand
      exact ⟨hturn, ih hnext hcommands⟩

theorem Throughout.and {P Q : Console σ → Command → Prop} {c : Console σ}
    {commands : List Command} (hP : c.Throughout P commands) (hQ : c.Throughout Q commands) :
    c.Throughout (fun c command => P c command ∧ Q c command) commands := by
  induction commands generalizing c with
  | nil => trivial
  | cons command commands ih => exact ⟨⟨hP.1, hQ.1⟩, ih hP.2 hQ.2⟩

/-- All of the commands are as `P` says, or there is a last one that is not. -/
theorem throughout_or_exists_last (P : Console σ → Command → Prop) (c : Console σ)
    (commands : List Command) :
    c.Throughout P commands ∨
      ∃ before command after, commands = before ++ command :: after ∧
        ¬P (before.foldl perform c) command ∧
        ((before.foldl perform c).perform command).Throughout P after := by
  induction commands generalizing c with
  | nil => exact Or.inl trivial
  | cons first commands ih =>
      rcases ih (c.perform first) with hall | ⟨before, command, after, rfl, hlast, hafter⟩
      · by_cases hfirst : P c first
        · exact Or.inl ⟨hfirst, hall⟩
        · exact Or.inr ⟨[], first, commands, rfl, hfirst, hall⟩
      · exact Or.inr ⟨first :: before, command, after, rfl, hlast, hafter⟩

end Console
end Chip8
