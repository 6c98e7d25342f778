import Chip8.Proofs.Console.Command
import Chip8.Proofs.Console.Restore

/-!
# What a command can do to a console

There are seven commands and three kinds of them.

* A *frame* goes on with the machine in the console.
* A command *replaces* the machine if it initializes it or restores it from a snapshot: a rom
  that is run, a file whether or not there is a rom in it, a reset, and a restore that is not
  refused.
* All other commands leave the console alone, except that it may be paused or go on.

So what holds of a console across commands has to be looked into for frames and for
replacements only.  A replaced machine always asks to be painted.  It never awaits a key, with
one exception: a reset without a rom clears the machine and does not touch the rest of the
console.
-/

namespace Chip8

/-- Why there is no rom in a file, if there is none, given what came of reading it. -/
def Rom.fileDefect? (path : String) : Except String (List UInt8) → Option Refusal
  | .error reason => some (.romUnreadable (path ++ ": " ++ reason))
  | .ok bytes =>
      if bytes.length = 0 then some .emptyRom
      else if 3584 < bytes.length then some (.romTooLarge bytes.length)
      else none

/-- There is a rom in a file, which has the name of the file and all its bytes, or there is a
reason why not. -/
theorem Rom.ofFile_cases (path : String) (fileName : List UInt8)
    (contents : Except String (List UInt8)) :
    (∃ e, fileDefect? path contents = some e ∧ ofFile path fileName contents = .error e) ∨
      ∃ rom : Rom, fileDefect? path contents = none ∧ contents = .ok rom.bytes ∧
        rom.name = Utf8.decode fileName ∧ ofFile path fileName contents = .ok rom := by
  cases contents with
  | error reason => exact Or.inl ⟨_, rfl, rfl⟩
  | ok bytes =>
      show (∃ e, _ ∧ ofBytes _ bytes = .error e) ∨ ∃ rom, _ ∧ _ ∧ _ ∧ ofBytes _ bytes = .ok rom
      unfold ofBytes
      by_cases hempty : bytes = []
      · subst hempty
        exact Or.inl ⟨.emptyRom, rfl, rfl⟩
      · have hlength : bytes.length ≠ 0 := fun h => hempty (List.length_eq_zero_iff.mp h)
        by_cases hfits : bytes.length ≤ 3584
        · refine Or.inr ⟨⟨Utf8.decode fileName, bytes, hempty, hfits⟩, ?_, rfl, rfl, ?_⟩
          · rw [fileDefect?, if_neg hlength, if_neg (Nat.not_lt.mpr hfits)]
          · rw [dif_neg hempty, dif_pos hfits]
        · refine Or.inl ⟨.romTooLarge bytes.length, ?_, ?_⟩
          · rw [fileDefect?, if_neg hlength, if_pos (Nat.lt_of_not_le hfits)]
          · rw [dif_neg hempty, dif_neg hfits]

namespace Console

variable {σ : Type}

/-- Whether a command initializes the machine or restores it from a snapshot. -/
def replaces (c : Console σ) : Command → Bool
  | .load _ | .loadFile .. | .reset => true
  | .restore bytes => (c.restore bytes).refusal.isNone
  | _ => false

theorem isFrame_of_replaces {c : Console σ} {command : Command}
    (h : c.replaces command = true) : command.isFrame = false := by
  cases command with
  | frame keys toneOn => cases h
  | _ => rfl

/-- A load does not ask for anything that it replaces. -/
theorem load_replaced (c : Console σ) (machine : Machine) (rom' : Option Rom)
    (halted awaiting : Bool) (rom : Rom) :
    ({ c with machine := machine, rom := rom', halted := halted, awaitingKey := awaiting } :
      Console σ).load rom = c.load rom := rfl

theorem load_eject (c : Console σ) (rom : Rom) : c.eject.load rom = c.load rom := by
  rw [eject]
  exact c.load_replaced .initial none true false rom

theorem reset_of_rom {c : Console σ} {rom : Rom} (h : c.rom = some rom) :
    c.reset = c.load rom := by
  rw [reset, h]

/-- The rom in the file is loaded, or the console is left without one. -/
theorem loadFile_cases (path : String) (fileName : List UInt8)
    (contents : Except String (List UInt8)) (c : Console σ) :
    (∃ e, Rom.fileDefect? path contents = some e ∧
        c.loadFile path fileName contents = { console := c.eject, refusal := some e }) ∨
      ∃ rom : Rom, Rom.fileDefect? path contents = none ∧ contents = .ok rom.bytes ∧
        rom.name = Utf8.decode fileName ∧ c.loadFile path fileName contents = c.load rom := by
  unfold loadFile
  rcases Rom.ofFile_cases path fileName contents with
    ⟨e, he, hfile⟩ | ⟨rom, hnone, hok, hname, hfile⟩
  · rw [hfile]
    exact Or.inl ⟨e, he, rfl⟩
  · rw [hfile]
    exact Or.inr ⟨rom, hnone, hok, hname, c.load_eject rom⟩

variable [ByteSource σ]

/-- No command but a load puts another rom into the console, or takes it out. -/
theorem rom_perform {c : Console σ} {command : Command} (h : command.isLoad = false) :
    (c.perform command).rom = c.rom := by
  cases command with
  | load rom | loadFile path fileName contents => cases h
  | reset =>
      rw [perform, reset]
      cases hrom : c.rom <;> rfl
  | togglePause | save => rfl
  | frame keys toneOn =>
      rw [perform, runFrame]
      cases c.halted || c.paused <;> rfl
  | restore bytes =>
      rw [perform]
      rcases c.restore_cases bytes with ⟨e, -, hsame⟩ | ⟨s, -, -, hrestored⟩
      · rw [hsame]
      · rw [hrestored]

theorem rom_foldl {c : Console σ} {commands : List Command}
    (h : ∀ command ∈ commands, command.isLoad = false) : (commands.foldl perform c).rom = c.rom := by
  induction commands generalizing c with
  | nil => rfl
  | cons command commands ih =>
      obtain ⟨hcommand, hcommands⟩ := List.forall_mem_cons.mp h
      exact (ih hcommands).trans (rom_perform hcommand)

/-- A reset without a rom clears the machine and nothing else. -/
theorem perform_reset_of_rom_eq_none {c : Console σ} (h : c.rom = none) :
    c.perform .reset = { c with machine := .initial } := by
  simp only [perform, reset, h]

/-- **A command that replaces the machine** leaves one that asks to be painted, and a console that
does not await a key; but for a reset without a rom, which clears the machine and nothing
else. -/
theorem perform_of_replaces {c : Console σ} {command : Command} (h : c.replaces command = true) :
    (c.perform command).machine.display.redraw = true ∧
      ((c.perform command).awaitingKey = false ∨
        command = .reset ∧ c.rom = none ∧ c.perform command = { c with machine := .initial }) := by
  cases command with
  | load rom => exact ⟨rfl, Or.inl rfl⟩
  | loadFile path fileName contents =>
      rw [perform]
      rcases loadFile_cases path fileName contents c with ⟨e, -, heject⟩ | ⟨rom, -, -, -, hload⟩
      · rw [heject]
        exact ⟨rfl, Or.inl rfl⟩
      · rw [hload]
        exact ⟨rfl, Or.inl rfl⟩
  | reset =>
      rcases Option.eq_none_or_eq_some c.rom with hrom | ⟨rom, hrom⟩
      · have hreset := perform_reset_of_rom_eq_none hrom
        refine ⟨?_, Or.inr ⟨rfl, hrom, hreset⟩⟩
        rw [hreset]
        rfl
      · rw [perform, reset_of_rom hrom]
        exact ⟨rfl, Or.inl rfl⟩
  | restore bytes =>
      rw [perform]
      -- a refused restore replaces nothing, and a restored machine is to be painted
      rcases c.restore_cases bytes with ⟨e, hrefusal, -⟩ | ⟨s, hrecorded, -, hrestored⟩
      · rw [replaces, hrefusal] at h
        cases h
      · rw [hrestored, ← hrecorded]
        exact ⟨rfl, Or.inl rfl⟩
  | togglePause | save => cases h
  | frame keys toneOn => cases h

/-- **A command that is no frame and does not replace the machine** does nothing, except that the
console may be paused or go on. -/
theorem perform_of_not_replaces {c : Console σ} {command : Command}
    (hframe : command.isFrame = false) (h : c.replaces command = false) :
    ∃ paused, c.perform command = { c with paused := paused } := by
  cases command with
  | load rom | loadFile path fileName contents | reset => cases h
  | togglePause => exact ⟨!c.paused, rfl⟩
  | frame keys toneOn => cases hframe
  | save => exact ⟨c.paused, rfl⟩
  | restore bytes =>
      rw [perform]
      rcases c.restore_cases bytes with ⟨e, -, hsame⟩ | ⟨s, -, hrefusal, -⟩
      · exact ⟨c.paused, hsame⟩
      · rw [replaces, hrefusal] at h
        cases h

end Console
end Chip8
