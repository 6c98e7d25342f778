import Chip8.Proofs.Console.Programless
import Chip8.Proofs.Execution.Stopping

/-!
# A halt is for good

A console that is halted stays halted whatever it is asked for, until it is asked for a program
and gets one.  This file proves it in both directions and says what happens in between.

`halted_perform_iff` is the whole law, for one command and any console: a console is halted after a
command exactly if the program was stopped in the course of it (`Stops`), or the console was halted
before and the command is not one that ends a halt (`resumes`).  What ends a halt is a load, a
restore or the rom in a file, if it is not refused, and a reset if there is a rom to go back to.
What stops a program is the word `0000`, in a dialect that stops on it, or a file without a rom that
was asked for in its place.

In between nothing happens to a console that is halted (`exists_perform_of_halted`).  Its machine is
cleared by a file without a rom, and otherwise it changes at most in the redraw flag.
-/

namespace Chip8
namespace Console

variable {σ : Type}

/-- Whether a command ends the halt of a console that is halted. -/
def resumes (c : Console σ) : Command → Bool
  | .load _ => true
  | .loadFile path fileName contents => (c.loadFile path fileName contents).refusal.isNone
  | .reset => c.rom.isSome
  | .restore bytes => (c.restore bytes).refusal.isNone
  | _ => false

variable [ByteSource σ]

/-- The program of a console is stopped in the course of a command: it executes the word `0000` in a
dialect that stops on it, or it is given up for a file in which there is no rom. -/
def Stops (c : Console σ) : Command → Prop
  | .frame keys toneOn => c.dialect.haltOnZero = true ∧ 0 ∈ (c.runFrame keys toneOn).words
  | .loadFile path fileName contents => (c.loadFile path fileName contents).refusal ≠ none
  | _ => False

/-! ## What halts a console and what does not -/

/-- After a frame a console is halted if it was halted before, or has executed the word that
stops it. -/
theorem halted_runFrame_iff (c : Console σ) (keys : Keys) (toneOn : Bool) :
    (c.runFrame keys toneOn).console.halted = true ↔
      c.Stops (.frame keys toneOn) ∨ c.halted = true := by
  rw [Stops, words_runFrame, executedIn, console_runFrame]
  cases hidle : c.halted || c.paused with
  | true =>
      rw [advance_of_idle hidle, if_pos rfl]
      simp
  | false =>
      have hrunning : c.halted = false := (Bool.or_eq_false_iff.mp hidle).1
      rw [advance_of_active hidle, if_neg Bool.false_ne_true, hrunning,
        or_iff_left Bool.false_ne_true]
      exact decide_eq_true_iff.trans
        (signal_run_eq_halt_iff c.dialect c.cyclesPerFrame (c.machine.latch keys) c.source)

/-- **When a console is halted.**  After a command it is halted exactly if the program was stopped
in the course of it, or the console was halted before and the command did not end that. -/
theorem halted_perform_iff (c : Console σ) (command : Command) :
    (c.perform command).halted = true ↔
      c.Stops command ∨ (c.halted = true ∧ c.resumes command = false) := by
  cases command with
  | load rom => simp [perform, load, Stops, resumes]
  | loadFile path fileName contents =>
      simp only [perform, Stops, resumes]
      rcases loadFile_cases path fileName contents c with ⟨e, -, heject⟩ | ⟨rom, -, -, -, hload⟩
      · simp [heject, eject]
      · simp [hload, load]
  | reset =>
      simp only [Stops, resumes, false_or]
      rcases Option.eq_none_or_eq_some c.rom with hrom | ⟨rom, hrom⟩
      · simp [perform_reset_of_rom_eq_none hrom, hrom]
      · simp [perform, reset_of_rom hrom, hrom, load]
  | togglePause => simp [perform, togglePause, Stops, resumes]
  | frame keys toneOn =>
      have hframe := c.halted_runFrame_iff keys toneOn
      simpa only [perform, resumes, and_true] using hframe
  | save => simp [perform, Stops, resumes]
  | restore bytes =>
      simp only [perform, Stops, resumes, false_or]
      rcases c.restore_cases bytes with ⟨e, hrefusal, hsame⟩ | ⟨s, -, hrefusal, hrestored⟩
      · simp [hrefusal, hsame]
      · simp [hrefusal, hrestored]

/-- What stops a program does not end a halt. -/
theorem Stops.resumes_eq_false {c : Console σ} {command : Command} (h : c.Stops command) :
    c.resumes command = false := by
  cases command with
  | loadFile path fileName contents =>
      exact Option.isNone_eq_false_iff.mpr (Option.isSome_iff_ne_none.mpr h)
  | frame keys toneOn => rfl
  | load | reset | togglePause | save | restore => cases h

/-! ## What happens in between -/

/-- **Nothing happens to a console that is halted** and stays so.  The machine is the one from
before, up to the redraw flag, or it was cleared; the dialect, the pace and the source of random
bytes are not touched. -/
theorem exists_perform_of_halted {c : Console σ} (h : c.halted = true) {command : Command}
    (hresumes : c.resumes command = false) :
    ∃ machine rom paused awaitingKey, c.perform command =
        { c with machine := machine, rom := rom, paused := paused, awaitingKey := awaitingKey } ∧
      machine.withRedraw true =
        if c.clears command then .initial else c.machine.withRedraw true := by
  cases command with
  | load rom => cases hresumes
  | loadFile path fileName contents =>
      rw [perform, clears]
      rcases loadFile_cases path fileName contents c with ⟨e, -, heject⟩ | ⟨rom, -, -, -, hload⟩
      · rw [heject]
        exact ⟨.initial, none, c.paused, false, by rw [eject, h], rfl⟩
      · rw [resumes, hload] at hresumes
        cases hresumes
  | reset =>
      have hrom : c.rom = none :=
        Option.isNone_iff_eq_none.mp (Option.isSome_eq_false_iff.mp hresumes)
      refine ⟨.initial, c.rom, c.paused, c.awaitingKey, perform_reset_of_rom_eq_none hrom, ?_⟩
      rw [clears, hrom]
      rfl
  | togglePause => exact ⟨c.machine, c.rom, !c.paused, c.awaitingKey, rfl, rfl⟩
  | frame keys toneOn =>
      have hframe := ((dormant_iff c).mpr h).console keys toneOn
      exact ⟨c.machine.withRedraw false, c.rom, c.paused, c.awaitingKey, hframe, rfl⟩
  | save => exact ⟨c.machine, c.rom, c.paused, c.awaitingKey, rfl, rfl⟩
  | restore bytes =>
      rcases c.restore_cases bytes with ⟨e, -, hsame⟩ | ⟨s, -, hrefusal, -⟩
      · exact ⟨c.machine, c.rom, c.paused, c.awaitingKey, hsame, rfl⟩
      · rw [resumes, hrefusal] at hresumes
        cases hresumes

/-- A console sleeps through a command.  It is halted before and after it and executes nothing in a
frame; no random byte is drawn, and the machine is the same up to the redraw flag, unless the
command clears it. -/
structure SleepsThrough (c : Console σ) (command : Command) : Prop where
  before : c.Dormant
  after : (c.perform command).Dormant
  source : (c.perform command).source = c.source
  machine : (c.perform command).machine.withRedraw true =
    if c.clears command then .initial else c.machine.withRedraw true

/-- What does not end a halt is slept through. -/
theorem sleepsThrough {c : Console σ} (h : c.halted = true) {command : Command}
    (hresumes : c.resumes command = false) : c.SleepsThrough command := by
  obtain ⟨machine, rom, paused, awaitingKey, hperform, hmachine⟩ :=
    exists_perform_of_halted h hresumes
  refine ⟨(dormant_iff c).mpr h, ?_, ?_, ?_⟩ <;> rw [hperform]
  · exact (dormant_iff _).mpr h
  · exact hmachine

/-- **A halt is for good.**  Take any console.

* Let it be halted, and let it be asked for anything except a load, the rom in a file that has one,
  a reset with a rom to go back to, or a restore that is not refused.  Through all of this it
  sleeps: it reports after every command that it is halted, and in no frame does it execute an
  instruction, draw a random byte, look at the keys or count down a timer.  Nothing in its machine
  changes but the redraw flag, unless it is cleared by a request for a file without a rom or by a
  reset.
* The commands that were left out are those that end the halt, each of them and no others.
* A console that is not halted is halted by a command exactly if it executes the word `0000`
  in the course of it, in a dialect that stops on that word, or if it was asked for a file without a
  rom. -/
theorem halt_is_terminal (c : Console σ) :
    (c.halted = true → ∀ commands : List Command,
      c.Throughout (fun c command => c.resumes command = false) commands →
        c.Throughout SleepsThrough commands ∧
          (commands.foldl perform c).Dormant ∧
          (commands.foldl perform c).source = c.source ∧
          (c.Throughout (fun c command => c.clears command = false) commands →
            (commands.foldl perform c).machine.withRedraw true = c.machine.withRedraw true)) ∧
      (∀ command, c.halted = true →
        ((c.perform command).status ≠ .halted ↔ c.resumes command = true)) ∧
      (∀ command, c.halted = false →
        ((c.perform command).status = .halted ↔ c.Stops command)) := by
  refine ⟨fun h commands hresting => ⟨?_, ?_, ?_, fun hclears => ?_⟩, fun command h => ?_,
    fun command h => ?_⟩
  · refine throughout_of_invariant (Q := fun c : Console σ => c.halted = true) ?_ h hresting
    intro c command hc hcommand
    have hsleeps := sleepsThrough hc hcommand
    exact ⟨hsleeps, (dormant_iff _).mp hsleeps.after⟩
  · refine foldl_of_throughout (Q := fun c : Console σ => c.Dormant) ?_ ((dormant_iff c).mpr h)
      hresting
    intro c command hc hcommand
    exact (sleepsThrough ((dormant_iff c).mp hc) hcommand).after
  · have hinvariant : (commands.foldl perform c).halted = true ∧
        (commands.foldl perform c).source = c.source := by
      refine foldl_of_throughout (Q := fun c' : Console σ => c'.halted = true ∧
        c'.source = c.source) ?_ ⟨h, rfl⟩ hresting
      intro c' command hc' hcommand
      have hsleeps := sleepsThrough hc'.1 hcommand
      exact ⟨(dormant_iff _).mp hsleeps.after, hsleeps.source.trans hc'.2⟩
    exact hinvariant.2
  · have hinvariant : (commands.foldl perform c).halted = true ∧
        (commands.foldl perform c).machine.withRedraw true = c.machine.withRedraw true := by
      refine foldl_of_throughout (Q := fun c' : Console σ => c'.halted = true ∧
        c'.machine.withRedraw true = c.machine.withRedraw true) ?_ ⟨h, rfl⟩ (hresting.and hclears)
      intro c' command hc' hcommand
      have hsleeps := sleepsThrough hc'.1 hcommand.1
      refine ⟨(dormant_iff _).mp hsleeps.after, ?_⟩
      rw [hsleeps.machine, hcommand.2, if_neg Bool.false_ne_true, hc'.2]
    exact hinvariant.2
  · have hiff : c.Stops command ∨ (c.halted = true ∧ c.resumes command = false) ↔
        c.resumes command = false :=
      ⟨fun hhalted => hhalted.elim Stops.resumes_eq_false And.right,
        fun hrests => Or.inr ⟨h, hrests⟩⟩
    rw [Ne, status_eq_halted_iff, halted_perform_iff, hiff, Bool.not_eq_false]
  · rw [status_eq_halted_iff, halted_perform_iff, h]
    simp

/-- A frame begins with the word under the program counter, if it executes anything. -/
theorem readWord_mem_executedIn {c : Console σ} (hactive : (c.halted || c.paused) = false)
    (hcycles : 0 < c.cyclesPerFrame) (keys : Keys) :
    c.machine.memory.readWord c.machine.pc ∈ c.executedIn keys := by
  obtain ⟨n, hn⟩ := Nat.exists_eq_add_one.mpr hcycles
  rw [executedIn, if_neg (by rw [hactive]; decide), hn]
  exact List.mem_cons_self

/-- A program that begins with the word `0000`. -/
def stopOnZero : Rom := ⟨"stop", [0x00, 0x00], by decide, by decide⟩

theorem readWord_load_stopOnZero : (Machine.load stopOnZero).memory.readWord 0x200 = 0 := by
  have hlength : stopOnZero.bytes.length = 2 := rfl
  rw [Memory.readWord, Machine.read_load stopOnZero (k := 0) (by omega) (by decide),
    Machine.read_load stopOnZero (k := 1) (by omega) (by decide)]
  change Word.ofBytes 0x00 0x00 = 0
  decide

/-- A console whose program stops in its first frame.  It sleeps through a pause, frames, a restore
from no bytes and a request for a file that is not there; a reset ends the halt. -/
theorem halt_is_terminal_stopOnZero :
    let settings : Settings := { dialect := { haltOnZero := true } }
    let c := ((powerOn settings (Seeded.mk 7)).load stopOnZero).console
    let stopped := c.perform (.frame .released false)
    let later : List Command := [.togglePause, .frame .released true, .save, .restore [],
      .loadFile "gone" [0x67] (.error "gone"), .frame .released false]
    c.halted = false ∧ stopped.status = .halted ∧ (stopped.perform .reset).status ≠ .halted ∧
      stopped.Throughout (fun c command => c.resumes command = false) later ∧
      stopped.Throughout SleepsThrough later := by
  intro settings c stopped later
  have hword : 0 ∈ (c.runFrame .released false).words := by
    have hfirst := readWord_mem_executedIn (c := c) rfl (by decide) .released
    rw [words_runFrame]
    rwa [show c.machine.memory.readWord c.machine.pc = 0 from readWord_load_stopOnZero] at hfirst
  obtain ⟨-, -, hstops⟩ := halt_is_terminal c
  have hstopped : stopped.status = .halted := (hstops _ rfl).mpr ⟨rfl, hword⟩
  have hhalted : stopped.halted = true := (status_eq_halted_iff stopped).mp hstopped
  have hrestore : ∀ c : Console Seeded, c.resumes (.restore []) = false := by
    intro c
    have hempty : Snapshot.defect? [] = some (.snapshotLength 0) := by decide
    rw [resumes, (restore_of_defect hempty).1]
    rfl
  have hlater : stopped.Throughout (fun c command => c.resumes command = false) later :=
    ⟨rfl, rfl, rfl, hrestore _, rfl, rfl, trivial⟩
  obtain ⟨hsleeps, hresumes, -⟩ := halt_is_terminal stopped
  exact ⟨rfl, hstopped, (hresumes .reset hhalted).mpr rfl, hlater, (hsleeps hhalted later hlater).1⟩

end Console
end Chip8
