import Chip8.Proofs.Console.Load
import Chip8.Proofs.Host.Files
import Chip8.Proofs.Host.Routing

/-!
# Saving, restoring and resetting by key

A snapshot outlives the console that it was taken of: it lies in a file, and between the key that
writes the file and the key that reads it anything may happen to either.  What is said here about
the two keys is said for any events in between, and about the file only that it holds the saved
bytes again when they are read.

Three things carry the argument.

* The rom stays.  No event makes the console ask for a rom (`console_turn_eq_foldl`), so what was
  inserted at the start is in hand at every reset (`rom_after`), and the file of the snapshots is
  named after it throughout (`snapshotPath_after`).
* A key that fails does nothing.  A snapshot that is not written leaves the session and the disk as
  they were, and so does one that cannot be read or is not in order (`restore_of_fileDefect`).
* What was saved is always in order, whatever the console that goes on from it was doing
  (`Console.restore_save`).

Whether the file still holds the bytes is for the user to see to.  It does if its path leads to a
file, nobody else writes to the disk, and nothing is saved a second time (`read_of_undisturbed`);
in the program nobody else does (`Program.drive_eq_turns`).
-/

namespace Chip8

/-- Why there is nothing to go on from in a file, if there is nothing, given what came of reading
it. -/
def Snapshot.fileDefect? (path : String) : Except FileError (List UInt8) → Option Refusal
  | .error e => some (.snapshotUnreadable (path ++ ": " ++ e.message))
  | .ok bytes => defect? bytes

/-- A console that was given a rom without a refusal has the rom in the file. -/
theorem Program.exists_rom_of_insert {σ : Type} {c : CommandLine.Configuration} {source : σ}
    {contents : Except String (List UInt8)} (h : (insert c source contents).refusal = none) :
    ∃ rom : Rom, contents = .ok rom.bytes ∧ rom.name = Utf8.decode (Disk.fileName c.path) ∧
      (insert c source contents).console.rom = some rom := by
  unfold insert at h ⊢
  rcases Console.loadFile_cases c.path (Disk.fileName c.path) contents
    (Console.powerOn c.settings source) with ⟨e, -, hrefused⟩ | ⟨rom, -, hbytes, hname, hloaded⟩
  · rw [hrefused] at h
    cases h
  · rw [hloaded]
    exact ⟨rom, hbytes, hname, rfl⟩

namespace Session

variable {σ : Type}

/-! ## The three commands -/

theorem reset_of_rom {s : Session σ} {rom : Rom} (h : s.console.rom = some rom) (disk : Disk) :
    ∃ notices, s.reset disk =
      { session := { s with console := (s.console.load rom).console }
        disk := disk
        reports := reportsOf notices ++ [.reset] } := by
  rw [reset, Console.reset_of_rom h]
  exact ⟨_, rfl⟩

theorem save_of_ok {s : Session σ} {disk disk' : Disk}
    (h : disk.write s.snapshotPath s.console.save = .ok disk') :
    s.save disk = { session := s, disk := disk', reports := [.saved s.snapshotPath] } := by
  rw [save, h]

theorem save_of_error {s : Session σ} {disk : Disk} {e : FileError}
    (h : disk.write s.snapshotPath s.console.save = .error e) :
    s.save disk = { session := s, disk := disk, reports := [.notSaved s.snapshotPath e] } := by
  rw [save, h]

/-- A restore from a file that is not in order, or cannot be read, changes nothing. -/
theorem restore_of_fileDefect {s : Session σ} {disk : Disk} {e : Refusal}
    (h : Snapshot.fileDefect? s.snapshotPath (disk.read s.snapshotPath) = some e) :
    ∃ notices, s.restore disk =
      { session := s, disk := disk, reports := reportsOf notices ++ [.notRestored e] } := by
  unfold restore
  cases hread : disk.read s.snapshotPath with
  | error reason =>
      rw [hread] at h
      obtain rfl := Option.some.inj h
      exact ⟨[], rfl⟩
  | ok bytes =>
      rw [hread] at h
      obtain ⟨hrefusal, hconsole⟩ := Console.restore_of_defect (c := s.console) h
      dsimp only
      rw [hrefusal, hconsole]
      exact ⟨_, rfl⟩

theorem restore_of_read {s : Session σ} {disk : Disk} {bytes : List UInt8}
    (hread : disk.read s.snapshotPath = .ok bytes)
    (h : (s.console.restore bytes).refusal = none) :
    ∃ notices, s.restore disk =
      { session := { s with console := (s.console.restore bytes).console }
        disk := disk
        reports := reportsOf notices ++ [.restored s.snapshotPath] } := by
  unfold restore
  rw [hread]
  dsimp only
  rw [h]
  exact ⟨_, rfl⟩

/-- A restore from a file that is in order is carried out. -/
theorem restore_of_fileDefect_eq_none {s : Session σ} {disk : Disk}
    (h : Snapshot.fileDefect? s.snapshotPath (disk.read s.snapshotPath) = none) :
    ∃ notices, (s.restore disk).disk = disk ∧
      (s.restore disk).reports = reportsOf notices ++ [.restored s.snapshotPath] := by
  cases hread : disk.read s.snapshotPath with
  | error reason =>
      rw [hread] at h
      cases h
  | ok bytes =>
      rw [hread] at h
      obtain ⟨-, -, hrefusal, -⟩ := Console.restore_of_sound (c := s.console) h
      obtain ⟨notices, hrestore⟩ := restore_of_read hread hrefusal
      rw [hrestore]
      exact ⟨notices, rfl, rfl⟩

/-- **Going on from what another session has saved.** -/
theorem restore_of_read_save {s before : Session σ} {disk : Disk}
    (hread : disk.read before.snapshotPath = .ok s.console.save) :
    (before.restore disk).session.console.save = s.console.save ∧
      ∃ notices, before.restore disk =
        { session := { before with console := { before.console with
            machine := s.console.machine.recorded, dialect := s.console.dialect
            halted := false, awaitingKey := false } }
          disk := disk
          reports := reportsOf notices ++ [.restored before.snapshotPath] } := by
  obtain ⟨hrefusal, hconsole⟩ := Console.restore_save s.console before.console
  obtain ⟨notices, hrestore⟩ := restore_of_read hread hrefusal
  constructor
  · rw [hrestore]
    exact Console.save_restore_save s.console before.console
  · rw [hconsole] at hrestore
    exact ⟨notices, hrestore⟩

/-! ## One turn -/

variable [ByteSource σ] (v : Devices)

/-- The key of a command gives the command. -/
theorem turn_of_binding {o : Occurrence} {name : String} {c : Keyboard.Command}
    (h : o.event = .key (some name) true) (hname : Keyboard.binding? name = some (.command c))
    (s : Session σ) : s.turn v o = s.command o.disk c := by
  obtain ⟨now, disk, event⟩ := o
  subst h
  show s.key disk name true = _
  rw [key, hname]
  exact if_pos rfl

theorem turn_back {o : Occurrence} (h : o.event = .key (some "Back") true) (s : Session σ) :
    s.turn v o = s.reset o.disk := by
  have hname : Keyboard.binding? "Back" = some (.command .reset) := by decide +kernel
  exact turn_of_binding v h hname s

theorem turn_f5 {o : Occurrence} (h : o.event = .key (some "F5") true) (s : Session σ) :
    s.turn v o = s.save o.disk := by
  have hname : Keyboard.binding? "F5" = some (.command .save) := by decide +kernel
  exact turn_of_binding v h hname s

theorem turn_f9 {o : Occurrence} (h : o.event = .key (some "F9") true) (s : Session σ) :
    s.turn v o = s.restore o.disk := by
  have hname : Keyboard.binding? "F9" = some (.command .restore) := by decide +kernel
  exact turn_of_binding v h hname s

/-- **No event makes the console ask for a rom.**  Whatever else it is asked for in a turn, it is
asked for one thing after another. -/
theorem console_turn_eq_foldl (s : Session σ) (o : Occurrence) :
    ∃ commands : List Command, (∀ command ∈ commands, command.isLoad = false) ∧
      (s.turn v o).session.console = commands.foldl Console.perform s.console := by
  rcases s.turn_cases v o with
    ⟨keys, hturn, -⟩ | ⟨-, ⟨name, c, -, -, hturn⟩ |
      ⟨-, ⟨-, tones, beeper, canvas, -, hsession⟩ | hsession⟩⟩
  · rw [hturn]
    exact ⟨[], List.forall_mem_nil _, rfl⟩
  · rw [hturn]
    cases c with
    | quit => exact ⟨[], List.forall_mem_nil _, rfl⟩
    | pause => exact ⟨[.togglePause], List.forall_mem_singleton.mpr rfl, rfl⟩
    | reset => exact ⟨[.reset], List.forall_mem_singleton.mpr rfl, rfl⟩
    | save =>
        have hsession := s.session_save o.disk
        exact ⟨[.save], List.forall_mem_singleton.mpr rfl, congrArg console hsession⟩
    | restore =>
        show ∃ commands : List Command, _ ∧ (s.restore o.disk).session.console = _
        unfold restore
        cases o.disk.read s.snapshotPath with
        | error e => exact ⟨[], List.forall_mem_nil _, rfl⟩
        | ok bytes => exact ⟨[.restore bytes], List.forall_mem_singleton.mpr rfl, rfl⟩
  · rw [hsession]
    exact ⟨_, List.forall_mem_map.mpr fun tone _ => rfl, rfl⟩
  · rw [hsession]
    exact ⟨[], List.forall_mem_nil _, rfl⟩

theorem rom_turn (s : Session σ) (o : Occurrence) :
    (s.turn v o).session.console.rom = s.console.rom := by
  obtain ⟨commands, hload, hconsole⟩ := s.console_turn_eq_foldl v o
  rw [hconsole, Console.rom_foldl hload]

theorem snapshotPath_turn (s : Session σ) (o : Occurrence) :
    (s.turn v o).session.snapshotPath = s.snapshotPath := by
  rcases s.turn_cases v o with
    ⟨keys, hturn, -⟩ | ⟨-, ⟨name, c, -, -, hturn⟩ |
      ⟨-, ⟨-, tones, beeper, canvas, -, hsession⟩ | hsession⟩⟩
  · rw [hturn]
  · rw [hturn, session_command]
  · rw [hsession]
  · rw [hsession]

/-- The disk is changed by a snapshot that is written, and by nothing else. -/
theorem disk_turn (s : Session σ) (o : Occurrence) :
    (s.turn v o).disk = o.disk ∨ (s.turn v o).reports = [.saved s.snapshotPath] := by
  rcases s.turn_cases v o with ⟨keys, hturn, -⟩ | ⟨-, ⟨name, c, -, -, hturn⟩ | ⟨hdisk, -⟩⟩
  · rw [hturn]
    exact Or.inl rfl
  · rw [hturn]
    cases c with
    | quit | pause | reset => exact Or.inl rfl
    | save =>
        show (s.save o.disk).disk = o.disk ∨ (s.save o.disk).reports = _
        unfold save
        split
        · exact Or.inr rfl
        · exact Or.inl rfl
    | restore =>
        show (s.restore o.disk).disk = o.disk ∨ _
        unfold restore
        split <;> exact Or.inl rfl
  · exact Or.inl hdisk

/-! ## Many turns -/

theorem rom_after (s : Session σ) (past : List Occurrence) :
    (s.after v past).console.rom = s.console.rom := by
  induction past generalizing s with
  | nil => rfl
  | cons o past ih => exact (ih (s.turn v o).session).trans (s.rom_turn v o)

theorem snapshotPath_after (s : Session σ) (past : List Occurrence) :
    (s.after v past).snapshotPath = s.snapshotPath := by
  induction past generalizing s with
  | nil => rfl
  | cons o past ih => exact (ih (s.turn v o).session).trans (s.snapshotPath_turn v o)

/-- The disk stays as it is as long as nothing is saved and nobody else writes to it. -/
theorem disk_of_undisturbed {s : Session σ} {disk : Disk} {between : List Occurrence}
    {last : Occurrence} (h : s.Undisturbed v disk (between ++ [last]))
    (hsaved : ∀ t ∈ s.turns v between, ∀ path, .saved path ∉ t.reports) : last.disk = disk := by
  induction between generalizing s disk with
  | nil => exact h.1
  | cons o between ih =>
      obtain ⟨rfl, hlater⟩ := h
      obtain ⟨hfirst, hsaved⟩ := List.forall_mem_cons.mp hsaved
      rcases s.disk_turn v o with hdisk | hreports
      · rw [hdisk] at hlater
        exact ih hlater hsaved
      · -- the first turn has saved
        rw [hreports] at hfirst
        exact absurd List.mem_cons_self (hfirst s.snapshotPath)

/-- **The file holds the bytes that were saved** as long as nothing else is saved and nobody else
writes to the disk. -/
theorem read_of_undisturbed {s : Session σ} {saving last : Occurrence} {between : List Occurrence}
    {disk : Disk} (hkeeps : saving.disk.Keeps s.snapshotPath)
    (hevent : saving.event = .key (some "F5") true)
    (hwritten : saving.disk.write s.snapshotPath s.console.save = .ok disk)
    (h : s.Undisturbed v saving.disk (saving :: between ++ [last]))
    (hsaved : ∀ t ∈ s.turns v between, ∀ path, .saved path ∉ t.reports) :
    last.disk.read s.snapshotPath = .ok s.console.save := by
  have hturn : s.turn v saving = _ := (turn_f5 v hevent s).trans (save_of_ok hwritten)
  obtain ⟨-, hlater⟩ := h
  rw [hturn] at hlater
  rw [disk_of_undisturbed v hlater hsaved]
  exact Disk.read_of_write hkeeps hwritten

/-! ## All of it -/

/-- **What is saved by key comes back by key, and no key that fails does harm.**  Insert a rom, open
a session at a window, and let any events come, each at any moment and with any disk.

* The console has the rom in hand.  So a reset by key is a load of this rom, and it is not refused;
  neither is it by the console that makes all the checks, and gives up the rom before it makes them.
* Saving by key leaves the session as it is.  The bytes are written or, if they cannot be, the disk
  is left as it is as well.
* Restoring by key leaves the disk as it is.  If the file cannot be read or is not in order, it
  leaves the session as it is as well and says why.  If the file is in order it is restored.
* Let a snapshot be written, and any events come, and let the file hold the bytes of the snapshot
  when it is restored.  Then the machine is the one that was saved, as far as it is recorded, so
  saving it gives the same bytes; the dialect is the one that was in force, and the halt and the
  wait for a key are over.  All the rest of the session is as it was just before, and in
  particular the pause and the rom are. -/
theorem hotkeys_round_trip {v : Devices} {c : CommandLine.Configuration} {source : σ}
    {contents : Except String (List UInt8)}
    (hinserted : (Program.insert c source contents).refusal = none)
    {opened : Session σ} {calls : List DeviceCall} {reports : List Report}
    (hopened : Program.openSession v c (Program.insert c source contents).console =
      .ok (opened, calls, reports)) :
    let path := Program.snapshotPath c.path
    ∃ rom : Rom, contents = .ok rom.bytes ∧ rom.name = Utf8.decode (Disk.fileName c.path) ∧
      ∀ past : List Occurrence,
        let s := opened.after v past
        s.console.rom = some rom ∧
        ∀ o : Occurrence,
          let turn := s.turn v o
          (o.event = .key (some "Back") true →
            (∃ notices, turn =
              { session := { s with console := (s.console.load rom).console }
                disk := o.disk
                reports := reportsOf notices ++ [.reset] }) ∧
            s.console.bare.reset = .ok (turn.session.console.bare, none)) ∧
          (o.event = .key (some "F5") true →
            (∀ disk, o.disk.write path s.console.save = .ok disk →
              turn = { session := s, disk := disk, reports := [.saved path] }) ∧
            ∀ e, o.disk.write path s.console.save = .error e →
              turn = { session := s, disk := o.disk, reports := [.notSaved path e] }) ∧
          (o.event = .key (some "F9") true →
            (∀ e, Snapshot.fileDefect? path (o.disk.read path) = some e → ∃ notices, turn =
              { session := s, disk := o.disk, reports := reportsOf notices ++ [.notRestored e] }) ∧
            (Snapshot.fileDefect? path (o.disk.read path) = none → ∃ notices,
              turn.disk = o.disk ∧ turn.reports = reportsOf notices ++ [.restored path])) ∧
          ∀ disk, o.event = .key (some "F5") true →
            o.disk.write path s.console.save = .ok disk →
            ∀ (between : List Occurrence) (restoring : Occurrence),
              restoring.event = .key (some "F9") true →
              restoring.disk.read path = .ok s.console.save →
              let before := opened.after v (past ++ o :: between)
              let turn := before.turn v restoring
              turn.session.console.save = s.console.save ∧ ∃ notices, turn =
                { session := { before with console := { before.console with
                    machine := s.console.machine.recorded, dialect := s.console.dialect
                    halted := false, awaitingKey := false } }
                  disk := restoring.disk
                  reports := reportsOf notices ++ [.restored path] } := by
  intro path
  obtain ⟨rom, hcontents, hname, hrom⟩ := Program.exists_rom_of_insert hinserted
  obtain ⟨-, -, hconsole, hpath⟩ := Program.openSession_eq_ok hopened
  refine ⟨rom, hcontents, hname, fun past => ?_⟩
  intro s
  have hspath : s.snapshotPath = path := (opened.snapshotPath_after v past).trans hpath
  have hsrom : s.console.rom = some rom := by rw [rom_after, hconsole, hrom]
  refine ⟨hsrom, fun o => ?_⟩
  intro turn
  refine ⟨?reset, ?save, ?restore, ?roundTrip⟩
  case reset =>
    intro hevent
    obtain ⟨notices, hreset⟩ := reset_of_rom hsrom o.disk
    have hturn : turn = _ := (turn_back v hevent s).trans hreset
    refine ⟨⟨notices, hturn⟩, ?_⟩
    rw [hturn, Guarded.Console.reset_bare, Console.reset_of_rom hsrom]
    rfl
  case save =>
    intro hevent
    rw [← hspath]
    refine ⟨fun disk hdisk => ?_, fun e he => ?_⟩
    · exact (turn_f5 v hevent s).trans (save_of_ok hdisk)
    · exact (turn_f5 v hevent s).trans (save_of_error he)
  case restore =>
    intro hevent
    have hturn : turn = s.restore o.disk := turn_f9 v hevent s
    rw [hturn, ← hspath]
    exact ⟨fun e => restore_of_fileDefect, restore_of_fileDefect_eq_none⟩
  case roundTrip =>
    intro disk _ _ between restoring hrestoring hread before turn
    have hbefore : before.snapshotPath = path := (opened.snapshotPath_after v _).trans hpath
    have hturn : turn = before.restore restoring.disk := turn_f9 v hrestoring before
    rw [hturn, ← hbefore]
    exact restore_of_read_save (hbefore ▸ hread)

/-- A snapshot is written, a frame falls due, the rom is started again, the console is paused, and a
second snapshot cannot be written because a directory is in the way.  Then the first one is
restored, and the console stays paused.  A file without a byte is refused. -/
theorem hotkeys_round_trip_pausedBetween :
    let v : Devices := {}
    let c : CommandLine.Configuration := ⟨"pong", {}, 10, false⟩
    let path := Program.snapshotPath c.path
    let inserted := Program.insert c (⟨7⟩ : Seeded) (.ok Console.waitAndDraw.bytes)
    let empty : Disk := ⟨[([], .directory)], []⟩
    let blocked : Disk := ⟨[([], .directory), ([path], .directory)], []⟩
    let past : List Occurrence := [⟨20000000, empty, .idle⟩]
    let saving : Occurrence := ⟨40000000, empty, .key (some "F5") true⟩
    let between : List Occurrence :=
      [⟨60000000, empty, .idle⟩, ⟨70000000, empty, .key (some "Back") true⟩,
        ⟨80000000, empty, .key (some "P") true⟩, ⟨90000000, blocked, .key (some "F5") true⟩]
    let restoring (disk : Disk) : Occurrence := ⟨100000000, disk, .key (some "F9") true⟩
    inserted.refusal = none ∧
      ∃ (opened : Session Seeded) (calls : List DeviceCall) (reports : List Report),
        Program.openSession v c inserted.console = .ok (opened, calls, reports) ∧
        let s := opened.after v past
        let before := opened.after v (past ++ saving :: between)
        ∃ written : Disk, empty.write path s.console.save = .ok written ∧
          written.read path = .ok s.console.save ∧
          (before.turn v (restoring written)).session.console.save = s.console.save ∧
          (before.turn v (restoring written)).session.console.paused = before.console.paused ∧
          (before.turn v (restoring (empty.put [path] (.file [])))).session = before := by
  intro v c path inserted empty blocked past saving between restoring
  have hinserted : inserted.refusal = none := by decide +kernel
  have hopened : ∃ opened calls reports,
      Program.openSession v c inserted.console = .ok (opened, calls, reports) := ⟨_, _, _, rfl⟩
  obtain ⟨opened, calls, reports, hopened⟩ := hopened
  obtain ⟨rom, -, -, hturns⟩ := hotkeys_round_trip hinserted hopened
  obtain ⟨-, hsaved⟩ := hturns past
  obtain ⟨-, hlater⟩ := hturns (past ++ saving :: between)
  -- the file is a new one in the root directory
  have hlocate : empty.locate path = .ok [path] := by decide +kernel
  have hkeeps : empty.Keeps path := by
    intro l hl
    obtain rfl := Except.ok.inj (hlocate.symm.trans hl)
    have hnode : empty.node? [path] = none := by decide +kernel
    simp [hnode]
  obtain ⟨written, hwritten⟩ :
      ∃ written, empty.write path (opened.after v past).console.save = .ok written := by
    rw [Disk.write, hlocate]
    exact ⟨_, rfl⟩
  have hread := Disk.read_of_write hkeeps hwritten
  obtain ⟨-, -, -, hroundTrip⟩ := hsaved saving
  obtain ⟨hsave, notices, hturn⟩ :=
    hroundTrip written rfl hwritten between (restoring written) rfl hread
  have hdefect : Snapshot.fileDefect? path ((empty.put [path] (.file [])).read path) =
      some (.snapshotLength 0) := by decide +kernel
  obtain ⟨-, -, hrestore, -⟩ := hlater (restoring (empty.put [path] (.file [])))
  obtain ⟨notices', hrefused⟩ := (hrestore rfl).1 _ hdefect
  refine ⟨hinserted, opened, calls, reports, hopened, written, hwritten, hread, hsave, ?_, ?_⟩
  · rw [hturn]
  · rw [hrefused]

end Session
end Chip8
