import Chip8.Proofs.Console.LoadFile

/-!
# Consoles without a program

A console that has no program is to be halted.  What it means to have none is a matter of the
session so far: no rom is in hand, and nothing has been restored from a snapshot since the machine
was last cleared (`Unrestored`).  Three things clear the machine without putting a program in it:
switching the console on, asking for the rom in a file that has none, and a reset without a rom.

The first two halt the console as well.  The third does not touch the halt, and this is the gap.
A console that never had a rom and was restored from a snapshot runs; a reset then takes the
program away, and the console goes on running through what is left in memory
(`status_after_restore_and_reset`).

There is no other gap.  Without a rom and without a restore a halted console stays halted
(`halted_of_throughout`), so all that matters is whether the console was halted when its machine
was last cleared, and only a reset can have left it otherwise (`perform_of_clears`).
-/

namespace Chip8
namespace Console

variable {σ : Type}

/-- Whether a command clears the machine and puts no program in it. -/
def clears (c : Console σ) : Command → Bool
  | .loadFile path fileName contents => (c.loadFile path fileName contents).refusal.isSome
  | .reset => c.rom.isNone
  | _ => false

/-- Whether a command is a restore, and is not refused. -/
def restores (c : Console σ) : Command → Bool
  | .restore bytes => (c.restore bytes).refusal.isNone
  | _ => false

variable [ByteSource σ]

/-- A command that clears the machine leaves no rom, and it leaves a console that is halted; or it
is a reset, and changes nothing else. -/
theorem perform_of_clears {c : Console σ} {command : Command} (h : c.clears command = true) :
    (c.perform command).Cleared ∧
      ((c.perform command).halted = true ∨
        command = .reset ∧ c.rom = none ∧ (c.perform command).status = c.status) := by
  cases command with
  | loadFile path fileName contents =>
      rw [perform]
      rcases loadFile_cases path fileName contents c with ⟨e, -, heject⟩ | ⟨rom, -, -, -, hload⟩
      · rw [heject]
        exact ⟨c.cleared_eject, Or.inl rfl⟩
      · rw [clears, hload] at h
        cases h
  | reset =>
      have hrom : c.rom = none := Option.isNone_iff_eq_none.mp h
      rw [perform_reset_of_rom_eq_none hrom]
      exact ⟨⟨hrom, rfl⟩, Or.inr ⟨rfl, hrom, c.status_withMachine .initial⟩⟩
  | load rom => cases h
  | frame keys toneOn => cases h
  | togglePause | save => cases h
  | restore bytes => cases h

/-- Without a rom and without a restore, a console that was halted is halted. -/
theorem halted_perform {c : Console σ} (h : c.rom = none → c.halted = true) {command : Command}
    (hrestores : c.restores command = false) (hrom : (c.perform command).rom = none) :
    (c.perform command).halted = true := by
  cases command with
  | load rom => cases hrom
  | loadFile path fileName contents =>
      rw [perform] at hrom ⊢
      rcases loadFile_cases path fileName contents c with ⟨e, -, heject⟩ | ⟨rom, -, -, -, hload⟩
      · rw [heject]
        rfl
      · rw [hload] at hrom
        cases hrom
  | reset =>
      rcases Option.eq_none_or_eq_some c.rom with hnone | ⟨rom, hsome⟩
      · rw [perform_reset_of_rom_eq_none hnone]
        exact h hnone
      · rw [perform, reset_of_rom hsome] at hrom
        cases hrom
  | togglePause => exact h hrom
  | frame keys toneOn =>
      rw [perform, console_runFrame] at hrom ⊢
      cases hidle : c.halted || c.paused with
      | true =>
          rw [advance_of_idle hidle] at hrom ⊢
          exact h hrom
      | false =>
          -- a console that runs has a rom, and keeps it
          rw [advance_of_active hidle] at hrom
          rw [h hrom] at hidle
          cases hidle
  | save => exact h hrom
  | restore bytes =>
      rw [perform] at hrom ⊢
      rcases c.restore_cases bytes with ⟨e, -, hsame⟩ | ⟨s, -, hrefusal, -⟩
      · rw [hsame] at hrom ⊢
        exact h hrom
      · rw [restores, hrefusal] at hrestores
        cases hrestores

/-- **Without a rom and without restores, a console that was halted stays halted.** -/
theorem halted_of_throughout {c : Console σ} (h : c.halted = true) {commands : List Command}
    (hrestores : c.Throughout (fun c command => c.restores command = false) commands)
    (hrom : (commands.foldl perform c).rom = none) : (commands.foldl perform c).halted = true :=
  foldl_of_throughout (Q := fun c : Console σ => c.rom = none → c.halted = true)
    (fun _ _ hc hcommand => halted_perform hc hcommand) (fun _ => h) hrestores hrom

/-! ## Sessions -/

/-- At the end of these commands the machine has just been cleared: the console was just switched
on, or the last command has cleared it. -/
def JustCleared (settings : Settings) (source : σ) (commands : List Command) : Prop :=
  commands = [] ∨ ∃ earlier command, commands = earlier ++ [command] ∧
    (session settings source earlier).clears command = true

/-- No restore has succeeded since the machine was last cleared. -/
def Unrestored (settings : Settings) (source : σ) (commands : List Command) : Prop :=
  ∃ before after, commands = before ++ after ∧ JustCleared settings source before ∧
    (session settings source before).Throughout (fun c command => c.restores command = false) after

/-- **A console without a program does not run**, but for one case.  Take any session that ends
without a rom, and in which nothing was restored since the machine was last cleared.

* If the console was halted at every reset that found no rom, then it reports that it is
  halted, and no instruction is executed in a frame.
* In any case, if this is not so, then the machine was last cleared by a reset of a console that had
  no rom and was not halted, and that reset has not halted it. -/
theorem dormant_of_unrestored (settings : Settings) (source : σ) (commands : List Command)
    (hrom : (session settings source commands).rom = none)
    (h : Unrestored settings source commands) :
    ((∀ before after, commands = before ++ .reset :: after →
        (session settings source before).rom = none →
          (session settings source before).status = .halted) →
      (session settings source commands).Dormant) ∧
      (¬(session settings source commands).Dormant →
        ∃ before after, commands = before ++ .reset :: after ∧
          (session settings source before).rom = none ∧
          (session settings source before).status ≠ .halted ∧
          (session settings source (before ++ [.reset])).status =
            (session settings source before).status ∧
          (session settings source (before ++ [.reset])).Throughout
            (fun c command => c.restores command = false) after) := by
  have hgap : ¬(session settings source commands).Dormant →
      ∃ before after, commands = before ++ .reset :: after ∧
        (session settings source before).rom = none ∧
        (session settings source before).status ≠ .halted ∧
        (session settings source (before ++ [.reset])).status =
          (session settings source before).status ∧
        (session settings source (before ++ [.reset])).Throughout
          (fun c command => c.restores command = false) after := by
    intro hrunning
    obtain ⟨before, after, rfl, hcleared, hrestores⟩ := h
    rw [session_append] at hrom hrunning
    -- had the console been halted when the machine was cleared, it would be halted now
    have hnot : (session settings source before).halted ≠ true := by
      intro hhalted
      exact hrunning ((dormant_iff _).mpr (halted_of_throughout hhalted hrestores hrom))
    rcases hcleared with rfl | ⟨earlier, command, rfl, hclears⟩
    · exact absurd rfl hnot
    · rw [session_concat] at hnot
      obtain ⟨-, hhalted | ⟨rfl, hnone, hstatus⟩⟩ := perform_of_clears hclears
      · exact absurd hhalted hnot
      · rw [Ne, ← status_eq_halted_iff, hstatus] at hnot
        refine ⟨earlier, after, ?_, hnone, hnot, ?_, hrestores⟩
        · rw [List.append_assoc, List.singleton_append]
        · rw [session_concat, hstatus]
  refine ⟨fun hresets => ?_, hgap⟩
  by_contra hrunning
  obtain ⟨before, after, hcommands, hnone, hstatus, -⟩ := hgap hrunning
  exact hstatus (hresets before after hcommands hnone)

/-- A console whose rom is taken out by a file that is not there, and that is paused afterwards. -/
theorem dormant_of_unrestored_missingFile :
    let commands : List Command :=
      [.load waitAndDraw, .frame .released false, .loadFile "gone" [0x67] (.error "gone"),
        .togglePause]
    (session {} (Seeded.mk 7) commands).rom = none ∧ Unrestored {} (Seeded.mk 7) commands ∧
      (session {} (Seeded.mk 7) commands).Dormant := by
  intro commands
  have hrom : (session {} (Seeded.mk 7) commands).rom = none := rfl
  have hunrestored : Unrestored {} (Seeded.mk 7) commands :=
    ⟨[.load waitAndDraw, .frame .released false, .loadFile "gone" [0x67] (.error "gone")],
      [.togglePause], rfl, Or.inr ⟨[.load waitAndDraw, .frame .released false], _, rfl, rfl⟩,
      rfl, trivial⟩
  obtain ⟨hdormant, -⟩ := dormant_of_unrestored {} (Seeded.mk 7) commands hrom hunrestored
  refine ⟨hrom, hunrestored, hdormant ?_⟩
  intro before after hcommands
  have hmem : Command.reset ∈ commands := by
    rw [hcommands]
    simp
  simp [commands] at hmem

/-! ## The case in which it does -/

/-- A reset that finds no rom clears the machine. -/
theorem unrestored_concat_reset {settings : Settings} {source : σ} (commands : List Command)
    (hrom : (session settings source commands).rom = none) :
    Unrestored settings source (commands ++ [.reset]) := by
  refine ⟨commands ++ [.reset], [], (List.append_nil _).symm, Or.inr ⟨commands, .reset, rfl, ?_⟩,
    trivial⟩
  exact Option.isNone_iff_eq_none.mpr hrom

/-- A console that has no rom is woken up by a restore, and a reset does not halt it again. -/
theorem exists_perform_restore_reset {c : Console σ} (hrom : c.rom = none) {bytes : List UInt8}
    (h : Snapshot.defect? bytes = none) :
    (c.perform (.restore bytes)).rom = none ∧
      ∃ dialect, (c.perform (.restore bytes)).perform .reset = { c with
        machine := .initial, dialect := dialect, halted := false, awaitingKey := false } := by
  obtain ⟨s, -, -, hrestored⟩ := restore_of_sound (c := c) h
  have hrestored' : (c.perform (.restore bytes)).rom = none := by
    rw [perform, hrestored, hrom]
  refine ⟨hrestored', s.dialect, ?_⟩
  rw [perform_reset_of_rom_eq_none hrestored', perform, hrestored]

/-- A console that was just switched on, restored from any snapshot, and reset has no rom, and
nothing was restored since the machine was cleared; but it runs. -/
theorem running_of_restore_and_reset {settings : Settings} (source : σ)
    (hcycles : settings.cyclesPerFrame ≠ 0) {bytes : List UInt8}
    (h : Snapshot.defect? bytes = none) :
    Unrestored settings source [.restore bytes, .reset] ∧
      (session settings source [.restore bytes, .reset]).rom = none ∧
      (session settings source [.restore bytes, .reset]).status = .running ∧
      ∀ keys toneOn,
        ((session settings source [.restore bytes, .reset]).runFrame keys toneOn).words ≠ [] := by
  obtain ⟨hrom, dialect, hreset⟩ :=
    exists_perform_restore_reset (c := powerOn settings source) rfl h
  have hsession : session settings source [.restore bytes, .reset] =
      { powerOn settings source with dialect := dialect, halted := false } := hreset
  refine ⟨unrestored_concat_reset [.restore bytes] hrom, ?_, ?_, ?_⟩
  · rw [hsession]
    rfl
  · rw [hsession]
    rfl
  · intro keys toneOn hwords
    rw [words_runFrame, executedIn_eq_nil_iff, hsession] at hwords
    rcases hwords with hhalted | hpaused | hzero
    · cases hhalted
    · cases hpaused
    · exact hcycles hzero

omit [ByteSource σ] in
/-- What a console saves can be restored. -/
theorem defect?_save (c : Console σ) : Snapshot.defect? c.save = none :=
  Snapshot.defect?_encode _

/-- **A console without a program can run.**  A console that was just switched on is restored from a
snapshot of itself and reset.  It has no rom, and nothing was restored since the machine was
cleared; but it reports that it runs, and executes instructions in every frame. -/
theorem status_after_restore_and_reset :
    let commands : List Command := [.restore (powerOn {} (Seeded.mk 7)).save, .reset]
    let c := session {} (Seeded.mk 7) commands
    Unrestored {} (Seeded.mk 7) commands ∧ c.rom = none ∧ c.status = .running ∧
      ∀ keys toneOn, (c.runFrame keys toneOn).words ≠ [] :=
  running_of_restore_and_reset (Seeded.mk 7) (by decide) (defect?_save _)

end Console
end Chip8
