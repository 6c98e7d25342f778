import Chip8.Proofs.Console.Halted
import Chip8.Proofs.Console.Load
import Chip8.Proofs.Console.Waiting

/-!
# Running the rom in a file

A console that is asked for the rom in a file clears its machine first and reads the file then.
So there are two outcomes and nothing in between: the rom runs, or the console is left without
one.  Which of them it is depends on the file alone (`Rom.fileDefect?`), and what the console was
doing before makes no difference to either.

The first outcome is the one of a load (`load_eject`): a load replaces everything that was cleared
for it.  The second one lasts.  A console without a rom that is halted and cleared stays so under
all commands that do not bring it a program (`Cleared.perform`), and nothing happens in its frames.
In particular a reset does not wake it up, since there is nothing to go back to.
-/

namespace Chip8

/-- A machine that was just cleared is one that is about to run nothing. -/
theorem Machine.fresh_initial : initial.Fresh [] where
  memory := by
    have hroom : (List.replicate 0x160 0 ++ List.replicate 0xE00 0 : List UInt8) =
        List.replicate 0xF60 0 := List.replicate_append_replicate
    rw [toList_initial, ← hroom, List.append_nil, List.length_nil, ← List.append_assoc]
  registers := Vector.toList_replicate
  index := rfl
  pc := rfl
  slots := Vector.toList_replicate
  depth := rfl
  pixels := Vector.toList_replicate
  redraw := rfl
  delay := rfl
  sound := rfl
  keys := Vector.toList_replicate

namespace Console

variable {σ : Type}

theorem cleared_eject (c : Console σ) : c.eject.Cleared := ⟨rfl, rfl⟩

/-- Whether a command is a load or a restore, and is not refused. -/
def supplies (c : Console σ) : Command → Bool
  | .load rom => (c.load rom).refusal.isNone
  | .loadFile path fileName contents => (c.loadFile path fileName contents).refusal.isNone
  | .restore bytes => (c.restore bytes).refusal.isNone
  | _ => false

variable [ByteSource σ]

/-- **A console that is cleared and halted stays so** under all commands that do not bring it a
program. -/
theorem Cleared.perform {c : Console σ} (h : c.Cleared) (hhalted : c.halted = true)
    {command : Command} (hsupplies : c.supplies command = false) :
    (c.perform command).Cleared ∧ (c.perform command).halted = true := by
  cases command with
  | load rom => cases hsupplies
  | loadFile path fileName contents =>
      show (c.loadFile path fileName contents).console.Cleared ∧
        (c.loadFile path fileName contents).console.halted = true
      rcases loadFile_cases path fileName contents c with ⟨e, -, heject⟩ | ⟨rom, -, -, -, hload⟩
      · rw [heject]
        exact ⟨c.cleared_eject, rfl⟩
      · rw [supplies, hload] at hsupplies
        cases hsupplies
  | reset =>
      rw [perform_reset_of_rom_eq_none h.rom]
      exact ⟨⟨h.rom, rfl⟩, hhalted⟩
  | togglePause => exact ⟨⟨h.rom, h.machine⟩, hhalted⟩
  | frame keys toneOn =>
      have hframe := ((dormant_iff c).mpr hhalted).console keys toneOn
      show (c.runFrame keys toneOn).console.Cleared ∧ (c.runFrame keys toneOn).console.halted = true
      rw [hframe]
      exact ⟨⟨h.rom, h.machine⟩, hhalted⟩
  | save => exact ⟨h, hhalted⟩
  | restore bytes =>
      rcases c.restore_cases bytes with ⟨e, -, hsame⟩ | ⟨s, -, hrefusal, -⟩
      · show (c.restore bytes).console.Cleared ∧ (c.restore bytes).console.halted = true
        rw [hsame]
        exact ⟨h, hhalted⟩
      · rw [supplies, hrefusal] at hsupplies
        cases hsupplies

/-- Nothing wakes up a console that is cleared and halted, but a program. -/
theorem Cleared.dormant_foldl {c : Console σ} (h : c.Cleared) (hhalted : c.halted = true)
    {commands : List Command}
    (hsupplies : c.Throughout (fun c command => c.supplies command = false) commands) :
    (commands.foldl Console.perform c).Cleared ∧ (commands.foldl Console.perform c).Dormant := by
  rw [dormant_iff]
  exact foldl_of_throughout (Q := fun c : Console σ => c.Cleared ∧ c.halted = true)
    (fun c command hc hcommand => hc.1.perform hc.2 hcommand) ⟨h, hhalted⟩ hsupplies

/-- **Running the rom in a file has two outcomes.**  Let any console be asked for the rom in a
file, whatever came of reading it.

* The request is refused if the file could not be read, if it is empty, or if it has more than 3584
  bytes, and not otherwise.
* If the file has between one and 3584 bytes, the result is that of a load of the rom that has
  these bytes and is named after the file.
* If the request is refused, there is no rom, the machine is the cleared one with only the glyphs in
  memory, and the console is halted and waits for no key.  The pause, the dialect, the pace and the
  source of random bytes are as before.  Whatever the console is asked for from then on, nothing is
  executed in a frame until a load or a restore succeeds.
* No check is hidden by this: the console that makes all of them when it copies the rom answers in
  the same way. -/
theorem loadFile_runs_or_clears (path : String) (fileName : List UInt8)
    (contents : Except String (List UInt8)) (c : Console σ) :
    let r := c.loadFile path fileName contents
    r.refusal = Rom.fileDefect? path contents ∧
      (∀ bytes, contents = .ok bytes → 1 ≤ bytes.length → bytes.length ≤ 3584 →
        ∃ rom : Rom, rom.bytes = bytes ∧ rom.name = Utf8.decode fileName ∧ r = c.load rom ∧
          r.refusal = none) ∧
      (∀ e, r.refusal = some e →
        r.console = { c with
          machine := .initial, rom := none, halted := true, awaitingKey := false } ∧
          r.console.machine.Fresh [] ∧ r.console.status = .halted ∧
          ∀ later, r.console.Throughout (fun c command => c.supplies command = false) later →
            (later.foldl perform r.console).Cleared ∧ (later.foldl perform r.console).Dormant) ∧
      c.bare.loadFile path fileName contents = .ok (r.console.bare, r.refusal) := by
  intro r
  have hbare := Guarded.Console.loadFile_bare path fileName contents c
  rcases loadFile_cases path fileName contents c with
    ⟨e, he, heject⟩ | ⟨rom, hnone, hok, hname, hload⟩
  · have hr : r = { console := c.eject, refusal := some e } := heject
    refine ⟨by rw [hr, he], fun bytes hbytes hpos hfits => ?_, fun e' _ => ?_, hbare⟩
    · -- a file of such a length has no defect
      rw [hbytes, Rom.fileDefect?, if_neg (by omega), if_neg (by omega)] at he
      cases he
    · rw [hr]
      refine ⟨rfl, Machine.fresh_initial, rfl, fun later hlater => ?_⟩
      exact c.cleared_eject.dormant_foldl rfl hlater
  · have hr : r = c.load rom := hload
    refine ⟨by rw [hr, hnone]; rfl, fun bytes hbytes hpos hfits => ?_, fun e' he' => ?_, hbare⟩
    · refine ⟨rom, ?_, hname, hr, by rw [hr]; rfl⟩
      rw [hok] at hbytes
      exact Except.ok.inj hbytes
    · rw [hr] at he'
      cases he'

/-- A console that waits for a key is asked for its rom again, by way of a file, and then for a
file that is not there.  It stays halted through a pause, a reset and an empty file. -/
theorem loadFile_runs_or_clears_waitAndDraw :
    let loaded := ((powerOn {} (Seeded.mk 7)).load waitAndDraw).console
    let c := (loaded.runFrame .released false).console
    let found := c.loadFile "wait" [0x77] (.ok waitAndDraw.bytes)
    let missing := c.loadFile "gone" [0x67] (.error "No such file or directory (os error 2)")
    let later : List Command := [.togglePause, .frame .released true, .togglePause, .reset,
      .loadFile "empty" [0x65] (.ok []), .frame .released false]
    (1 ≤ waitAndDraw.bytes.length ∧ waitAndDraw.bytes.length ≤ 3584 ∧ found.refusal = none ∧
        ∃ rom : Rom, rom.bytes = waitAndDraw.bytes ∧ found = c.load rom) ∧
      missing.refusal = some (.romUnreadable "gone: No such file or directory (os error 2)") ∧
      missing.console.Throughout (fun c command => c.supplies command = false) later ∧
      (later.foldl perform missing.console).Dormant := by
  intro loaded c found missing later
  obtain ⟨-, hfound, -⟩ := loadFile_runs_or_clears "wait" [0x77] (.ok waitAndDraw.bytes) c
  obtain ⟨-, -, hmissing, -⟩ := loadFile_runs_or_clears "gone" [0x67]
    (.error "No such file or directory (os error 2)") c
  have hpos : 1 ≤ waitAndDraw.bytes.length := by decide
  have hfits : waitAndDraw.bytes.length ≤ 3584 := by decide
  obtain ⟨rom, hbytes, -, hload, hrefusal⟩ := hfound _ rfl hpos hfits
  have hgone : missing.refusal =
      some (.romUnreadable "gone: No such file or directory (os error 2)") := rfl
  have hlater : missing.console.Throughout (fun c command => c.supplies command = false) later :=
    ⟨rfl, rfl, rfl, rfl, rfl, rfl, trivial⟩
  obtain ⟨-, -, -, hdormant⟩ := hmissing _ hgone
  exact ⟨⟨hpos, hfits, hrefusal, rom, hbytes, hload⟩, hgone, hlater, (hdormant later hlater).2⟩

end Console
end Chip8
