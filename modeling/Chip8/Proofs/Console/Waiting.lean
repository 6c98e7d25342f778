import Chip8.Proofs.Console.Frame
import Chip8.Proofs.Console.Replace
import Chip8.Proofs.Console.Resume
import Chip8.Proofs.Execution.Waiting
import Chip8.Proofs.Memory.Initial
import Mathlib.Data.List.Induction

/-!
# What it means that a console awaits a key

A console remembers in a flag of its own whether the last frame ended with the program
waiting for a key, and reports it as its status.  The flag is a copy of something that can be
seen in the machine, so the question is whether the two ever disagree.

They do, in one way.  A reset without a rom clears the machine and leaves the flag as it is:
every other command that replaces the machine lowers it.  So a console that was restored from
a snapshot without ever having had a rom, and then waits for a key, can be reset, and it goes on
reporting that it waits although there is no program left (`status_after_reset`).

This is the only way.  `perform_cases` lists what a command can do to a raised flag, and from
it follow the two statements of `waits_iff_of_status_awaitingKey`: in a session without such a reset the
status is always right; and in any session, when it is wrong, there is no rom and the machine is
the cleared one.
-/

namespace Chip8

/-- Whether a machine waits does not depend on the redraw flag. -/
theorem Machine.waits_withRedraw (m : Machine) (b : Bool) : (m.withRedraw b).Waits ↔ m.Waits :=
  ⟨fun h => ⟨h.family, h.low, h.keys⟩, fun h => ⟨h.family, h.low, h.keys⟩⟩

/-- A machine that was just cleared does not wait. -/
theorem Machine.not_waits_initial : ¬initial.Waits := by
  intro h
  have hfamily := h.family
  rw [readWord_initial] at hfamily
  cases hfamily

namespace Console

variable {σ : Type}

/-- The console has no rom, and its machine is the cleared one; whether it has to be painted is
left open. -/
structure Cleared (c : Console σ) : Prop where
  rom : c.rom = none
  machine : c.machine.withRedraw true = .initial

theorem Cleared.not_waits {c : Console σ} (h : c.Cleared) : ¬c.machine.Waits := by
  rw [← Machine.waits_withRedraw _ true, h.machine]
  exact Machine.not_waits_initial

/-- The status is not read off the machine. -/
theorem status_withMachine (c : Console σ) (m : Machine) :
    ({ c with machine := m } : Console σ).status = c.status := rfl

theorem awaitingKey_of_status {c : Console σ} (h : c.status = .awaitingKey) :
    c.awaitingKey = true := by
  unfold status at h
  split at h
  · cases h
  · split at h
    · cases h
    · split at h
      · assumption
      · cases h

variable [ByteSource σ]

/-- A frame that leaves the flag up has found the program waiting, or it was none and the flag
was up before. -/
theorem runFrame_cases (c : Console σ) (keys : Keys) (toneOn : Bool)
    (h : (c.runFrame keys toneOn).console.awaitingKey = true) :
    (c.runFrame keys toneOn).console.machine.Waits ∨
      (c.awaitingKey = true ∧ (c.runFrame keys toneOn).console.rom = c.rom ∧
        (c.runFrame keys toneOn).console.machine.withRedraw true = c.machine.withRedraw true) := by
  rw [console_runFrame] at h ⊢
  cases hidle : c.halted || c.paused with
  | true =>
      rw [advance_of_idle hidle] at h ⊢
      exact Or.inr ⟨h, rfl, rfl⟩
  | false =>
      rw [advance_of_active hidle] at h ⊢
      have hwaits := run_waits _ _ _ _ (of_decide_eq_true h)
      -- the tick and the screen come after the run, and neither is looked at
      exact Or.inl ⟨hwaits.family, hwaits.low, hwaits.keys⟩

/-- **What a command can have done if it leaves the flag up.**  It has found the program waiting;
or it has left the flag, the rom and the machine alone, but for the redraw flag; or it was a
reset without a rom. -/
theorem perform_cases (c : Console σ) (command : Command)
    (h : (c.perform command).awaitingKey = true) :
    (c.perform command).machine.Waits ∨
      (c.awaitingKey = true ∧ (c.perform command).rom = c.rom ∧
        (c.perform command).machine.withRedraw true = c.machine.withRedraw true) ∨
      (command = .reset ∧ c.awaitingKey = true ∧ c.rom = none ∧ (c.perform command).Cleared) := by
  cases hreplaces : c.replaces command with
  | true =>
      obtain ⟨-, hdown | ⟨hcommand, hrom, hperform⟩⟩ := perform_of_replaces hreplaces
      · rw [hdown] at h
        cases h
      · rw [hperform] at h ⊢
        exact Or.inr (Or.inr ⟨hcommand, h, hrom, hrom, rfl⟩)
  | false =>
      cases hframe : command.isFrame with
      | true =>
          obtain ⟨keys, toneOn, rfl⟩ := Command.eq_frame_of_isFrame hframe
          exact (c.runFrame_cases keys toneOn h).imp_right Or.inl
      | false =>
          obtain ⟨paused, hperform⟩ := perform_of_not_replaces hframe hreplaces
          rw [hperform] at h ⊢
          exact Or.inr (Or.inl ⟨h, rfl, rfl⟩)

/-! ## Sessions -/

/-- In a session in which the flag is not up when there is a reset without a rom, a raised flag
is right. -/
theorem waits_of_session (settings : Settings) (source : σ) (commands : List Command)
    (hresets : ∀ before after, commands = before ++ .reset :: after →
      (session settings source before).awaitingKey = true →
        (session settings source before).rom ≠ none)
    (h : (session settings source commands).awaitingKey = true) :
    (session settings source commands).machine.Waits := by
  -- On the last command, since the flag is about what came last.  The resets of a shorter session
  -- are resets of the longer one, so the assumption is handed down.
  induction commands using List.reverseRecOn with
  | nil => cases h
  | append_singleton commands command ih =>
      rw [session_concat] at h ⊢
      rcases perform_cases _ command h with hwaits | ⟨hflag, -, hmachine⟩ | ⟨rfl, hflag, hrom, -⟩
      · exact hwaits
      · rw [← Machine.waits_withRedraw _ true, hmachine, Machine.waits_withRedraw]
        refine ih (fun before after hcommands => hresets before (after ++ [command]) ?_) hflag
        rw [hcommands, List.append_assoc, List.cons_append]
      · exact absurd hrom (hresets commands [] rfl hflag)

/-- In any session, a raised flag is right or the console is cleared. -/
theorem waits_or_cleared_of_session (settings : Settings) (source : σ) (commands : List Command) :
    (session settings source commands).awaitingKey = true →
      (session settings source commands).machine.Waits ∨
        (session settings source commands).Cleared := by
  refine session_invariant (P := fun c : Console σ =>
    c.awaitingKey = true → c.machine.Waits ∨ c.Cleared) settings source (fun h => ?_) ?_ commands
  · cases h
  · intro c command hc h
    -- a raised flag was raised just now, or it is older and the machine with it
    rcases perform_cases c command h with hwaits | ⟨hflag, hrom, hmachine⟩ | ⟨-, -, -, hcleared⟩
    · exact Or.inl hwaits
    · rw [← Machine.waits_withRedraw _ true, hmachine, Machine.waits_withRedraw]
      refine (hc hflag).imp_right fun hcleared => ⟨?_, ?_⟩
      · rw [hrom, hcleared.rom]
      · rw [hmachine, hcleared.machine]
    · exact Or.inr hcleared

/-- **What it means that a console awaits a key.**  Take the console at the end of any session.

* If the console had a rom whenever it was reset in the session while its flag was up, then
  whenever it reports that it awaits a key it does: the word under the program counter is an
  `FX0A`, and no key is down in the machine.
* Whatever happened in the session, a console that reports that it awaits a key does so unless
  it has no rom and its machine is the cleared one. -/
theorem waits_iff_of_status_awaitingKey (settings : Settings) (source : σ)
    (commands : List Command) :
    ((∀ before after, commands = before ++ .reset :: after →
        (session settings source before).awaitingKey = true →
          (session settings source before).rom ≠ none) →
      (session settings source commands).status = .awaitingKey →
        (session settings source commands).machine.Waits) ∧
      ((session settings source commands).status = .awaitingKey →
        ((session settings source commands).machine.Waits ↔
          ¬(session settings source commands).Cleared)) := by
  refine ⟨fun hresets h => ?_, fun h => ⟨fun hwaits hcleared => ?_, fun hcleared => ?_⟩⟩
  · exact waits_of_session settings source commands hresets (awaitingKey_of_status h)
  · exact hcleared.not_waits hwaits
  · exact (waits_or_cleared_of_session settings source commands
      (awaitingKey_of_status h)).resolve_right hcleared

/-! ## A frame in which the program waits -/

/-- A frame in which the program waits from its first instruction on ends with the console
reporting it, and leaves the rom alone. -/
theorem status_runFrame_of_waits {c : Console σ} (hhalted : c.halted = false)
    (hpaused : c.paused = false) (hcycles : 0 < c.cyclesPerFrame) {keys : Keys}
    (h : (c.machine.latch keys).Waits) (toneOn : Bool) :
    (c.runFrame keys toneOn).console.status = .awaitingKey ∧
      (c.runFrame keys toneOn).console.rom = c.rom := by
  obtain ⟨n, hn⟩ := Nat.exists_eq_add_one.mpr hcycles
  have hactive : (c.halted || c.paused) = false := by rw [hhalted, hpaused]; rfl
  have hsignal := (run_of_waits c.dialect n h c.source).2.2
  rw [← hn] at hsignal
  rw [console_runFrame, advance_of_active hactive, hsignal]
  simp [status, hpaused]

/-- The program of `waitAndDraw` begins with the instruction that waits. -/
theorem waits_load_waitAndDraw : (Machine.load waitAndDraw).Waits := by
  have hword : (Machine.load waitAndDraw).memory.readWord 0x200 = 0xF00A := by
    have hlength : waitAndDraw.bytes.length = 4 := rfl
    rw [Memory.readWord, Machine.read_load waitAndDraw (k := 0) (by omega) (by decide),
      Machine.read_load waitAndDraw (k := 1) (by omega) (by decide)]
    change Word.ofBytes 0xF0 0x0A = 0xF00A
    decide
  refine ⟨?_, ?_, rfl⟩
  · exact (congrArg Word.family hword).trans (by decide)
  · exact (congrArg Word.nn hword).trans (by decide)

/-- A rom that waits for a key with its first instruction, loaded and run for a frame in which no
key is down. -/
theorem waits_iff_of_status_awaitingKey_waitAndDraw :
    (session {} (Seeded.mk 7) [.load waitAndDraw, .frame .released false]).status = .awaitingKey ∧
      (session {} (Seeded.mk 7) [.load waitAndDraw, .frame .released false]).machine.Waits := by
  have hstatus : (session {} (Seeded.mk 7)
      [.load waitAndDraw, .frame .released false]).status = .awaitingKey :=
    (status_runFrame_of_waits (c := ((powerOn {} (Seeded.mk 7)).load waitAndDraw).console)
      rfl rfl (by decide) waits_load_waitAndDraw false).1
  refine ⟨hstatus, (waits_iff_of_status_awaitingKey {} (Seeded.mk 7) _).1 ?_ hstatus⟩
  intro before after h
  have hmem : Command.reset ∈ [.load waitAndDraw, .frame .released false] := by
    rw [h]
    simp
  simp at hmem

/-- A console without a rom that reports that it awaits a key is wrong about it once it has been
reset. -/
theorem status_perform_reset {c : Console σ} (hrom : c.rom = none)
    (h : c.status = .awaitingKey) :
    (c.perform .reset).status = .awaitingKey ∧ ¬(c.perform .reset).machine.Waits := by
  rw [perform_reset_of_rom_eq_none hrom, status_withMachine]
  exact ⟨h, Machine.not_waits_initial⟩

/-- How a console comes to be wrong.  It has no rom; it is restored from a snapshot of a
program that waits for a key, runs a frame, and is reset. -/
theorem status_restore_frame_reset {c c' : Console σ} (hpaused : c'.paused = false)
    (hrom : c'.rom = none) (hcycles : 0 < c'.cyclesPerFrame)
    (h : (c.machine.latch .released).Waits) :
    ((((c'.perform (.restore c.save)).perform (.frame .released false)).perform
        .reset).status = .awaitingKey) ∧
      ¬(((c'.perform (.restore c.save)).perform (.frame .released false)).perform
        .reset).machine.Waits := by
  have hrestored : c'.perform (.restore c.save) = { c' with
      machine := c.machine.recorded, dialect := c.dialect, halted := false,
      awaitingKey := false } := by
    simp only [perform, restore, save, Snapshot.decode_encode]
    rfl
  have hwaits : ((c'.perform (.restore c.save)).machine.latch .released).Waits := by
    rw [hrestored]
    exact ⟨h.family, h.low, rfl⟩
  obtain ⟨hstatus, hframe⟩ := status_runFrame_of_waits (by rw [hrestored])
    (by rw [hrestored, hpaused]) (by rw [hrestored]; exact hcycles) hwaits false
  refine status_perform_reset (hframe.trans ?_) hstatus
  rw [hrestored, hrom]

/-- **The status of a console can be wrong.**  A console that was just switched on is restored
from a snapshot of `waitAndDraw`, runs a frame and is reset.  It still reports that it awaits a
key, and there is no program in its machine. -/
theorem status_after_reset :
    let commands : List Command :=
      [.restore ((powerOn {} (Seeded.mk 7)).load waitAndDraw).console.save,
        .frame .released false, .reset]
    (session {} (Seeded.mk 7) commands).status = .awaitingKey ∧
      ¬(session {} (Seeded.mk 7) commands).machine.Waits := by
  have hsession : ∀ bytes : List UInt8,
      session {} (Seeded.mk 7) [.restore bytes, .frame .released false, .reset] =
        (((powerOn {} (Seeded.mk 7)).perform (.restore bytes)).perform
          (.frame .released false)).perform .reset := fun _ => rfl
  have hwaits : (((powerOn {} (Seeded.mk 7)).load waitAndDraw).console.machine.latch
      .released).Waits :=
    ⟨waits_load_waitAndDraw.family, waits_load_waitAndDraw.low, rfl⟩
  intro commands
  rw [hsession]
  exact status_restore_frame_reset rfl rfl (by decide) hwaits

end Console
end Chip8
