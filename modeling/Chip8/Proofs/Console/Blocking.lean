import Chip8.Proofs.Console.Waiting
import Chip8.Proofs.Execution.Independence
import Chip8.Proofs.Execution.Timing

/-!
# A program that waits, from frame to frame

A program that awaits a key tries the same instruction once in every frame until a key is down.  The
instruction is fetched, executed and taken back each time, so it has to be shown that nothing of an
attempt remains: otherwise whatever did would add up, and a program could tell how long it has
waited from more than its timers.

What remains of an attempt is nothing (`step_of_waits`), and what remains of a frame is what every
frame does besides: the keys are replaced, the timers are counted down, the screen is handed over.
Doing this `n` times is the same as doing it once and counting down by `n`, which is
`Console.waited`.  The frames of waiting are then one induction (`Console.Blocks.frames`).

## The frame in which the key comes

The instruction that finds a key down is one like any other.  To say this without listing what
others do, a frame is taken apart at its first step.  If that step asks to go on, the rest is a
frame of its own: that of the console which is ahead by the step and may take one step fewer
(`Console.ahead`, `runFrame_of_proceeds`).  This holds of every instruction after which a program
goes on, and a wait that is over is one of them (`step_of_key`).
-/

namespace Chip8

/-- A key is the lowest one that is down exactly if it is down and all below it are up. -/
theorem Keys.lowest?_eq_some_iff (keys : Keys) (k : Fin 16) :
    keys.lowest? = some k ↔ keys.get k = true ∧ ∀ j < k, keys.get j = false := by
  rw [lowest?, List.find?_eq_some_iff_getElem]
  refine and_congr_right fun _ => ⟨?_, fun h => ?_⟩
  · rintro ⟨i, hi, rfl, hbelow⟩ j hj
    rw [List.getElem_finRange] at hj
    have hup := hbelow j.val (Fin.lt_def.mp hj)
    rwa [List.getElem_finRange, Bool.not_eq_true'] at hup
  · have hlength : k.val < (List.finRange 16).length := by rw [List.length_finRange]; exact k.isLt
    refine ⟨k.val, hlength, by rw [List.getElem_finRange]; rfl, fun j hj => ?_⟩
    rw [List.getElem_finRange, Bool.not_eq_true']
    exact h _ (Fin.lt_def.mpr hj)

/-- If any key is down, one is the lowest. -/
theorem Keys.exists_lowest {keys : Keys} (h : ∃ j, keys.get j = true) :
    ∃ k, keys.lowest? = some k := by
  obtain ⟨j, hj⟩ := h
  refine Option.ne_none_iff_exists'.mp fun hnone => ?_
  have hup : keys.get j = false := (keys.lowest?_eq_none_iff).mp hnone j
  rw [hup] at hj
  cases hj

/-! ## Counting down -/

/-- The timers, after a number of ticks. -/
def Timers.after (n : Nat) (t : Timers) : Timers :=
  ⟨UInt8.ofNat (t.delay.toNat - n), UInt8.ofNat (t.sound.toNat - n)⟩

theorem Timer.toNat_value_after (t : Timer) (n : Nat) (timers : Timers) :
    (t.value (timers.after n)).toNat = (t.value timers).toNat - n := by
  have hofNat : ∀ v : UInt8, (UInt8.ofNat (v.toNat - n)).toNat = v.toNat - n := by
    intro v
    have := v.toNat_lt
    rw [UInt8.toNat_ofNat']
    omega
  cases t <;> exact hofNat _

/-- Timers are told apart by their counters. -/
theorem Timers.ext_toNat {a b : Timers} (h : ∀ t : Timer, (t.value a).toNat = (t.value b).toNat) :
    a = b := by
  obtain ⟨delay, sound⟩ := a
  obtain ⟨delay', sound'⟩ := b
  obtain rfl : delay = delay' := UInt8.toNat_inj.mp (h .delay)
  obtain rfl : sound = sound' := UInt8.toNat_inj.mp (h .sound)
  rfl

theorem Timers.after_one (t : Timers) : t.after 1 = t.tick := by
  apply ext_toNat
  intro timer
  rw [timer.toNat_value_after, timer.toNat_value_tick]

theorem Timers.after_after (m n : Nat) (t : Timers) : (t.after m).after n = t.after (m + n) := by
  apply ext_toNat
  intro timer
  rw [timer.toNat_value_after, timer.toNat_value_after, timer.toNat_value_after, Nat.sub_sub]

variable {σ : Type} [ByteSource σ]

/-! ## The step that finds a key -/

/-- **A wait that is over.**  The step sets the register that the word names to the lowest key down,
and moves on to the next word.  It draws nothing and reports nothing but the word. -/
theorem step_of_key (d : Dialect) {m : Machine}
    (hfamily : Word.family (m.memory.readWord m.pc) = 0xF)
    (hlow : Word.nn (m.memory.readWord m.pc) = 0x0A) {k : Fin 16} (hk : m.keys.lowest? = some k)
    (s : σ) :
    step d m s =
      { machine := { m.setReg (Word.x (m.memory.readWord m.pc)) (UInt8.ofNat k.val) with
          pc := m.pc + 2 }
        source := s
        notices := [.executing m.pc (m.memory.readWord m.pc)] } := by
  have hnamed : (Instruction.awaitKey (Word.x (m.memory.readWord m.pc))).NamedBy
      (m.memory.readWord m.pc) := ⟨⟨hfamily, hlow⟩, rfl⟩
  rw [step, executeWord_of_namedBy hnamed]
  simp only [execute, hk]
  rfl

/-! ## A frame and its first step -/

theorem Machine.latch_of_keys_eq {m : Machine} {keys : Keys} (h : m.keys = keys) :
    m.latch keys = m := by
  rw [← h]
  rfl

/-- A run that was begun earlier: a step was taken before, and has reported something. -/
def Run.precededBy (notices : List Notice) (r : Run σ) : Run σ :=
  { r with steps := r.steps + 1, notices := notices.toArray ++ r.notices }

/-- How a run goes on does not depend on what has been taken and reported before. -/
theorem Run.extend_precededBy (d : Dialect) (n : Nat) (earlier : List Notice) (r : Run σ) :
    Run.extend d n (r.precededBy earlier) = (Run.extend d n r).precededBy earlier := by
  induction n generalizing r with
  | zero => rfl
  | succ n ih =>
      obtain ⟨m, s, signal, k, notices⟩ := r
      cases signal with
      | proceed =>
          have hnotices : earlier.toArray ++ notices ++ (step d m s).notices =
              earlier.toArray ++ (notices ++ (step d m s).notices) := by
            apply Array.toList_inj.mp
            simp only [Array.toList_append, Array.toList_appendList, List.append_assoc]
          rw [Run.extend, ← ih]
          simp only [precededBy, Run.extend, hnotices]
      | halt => rfl
      | awaitKey => rfl

/-- A run whose first step asks to go on is that step, and then a run of one step fewer. -/
theorem run_of_proceeds (d : Dialect) (n : Nat) {m : Machine} {s : σ}
    (h : (step d m s).signal = .proceed) :
    run d (n + 1) m s =
      (run d n (step d m s).machine (step d m s).source).precededBy (step d m s).notices := by
  have hnotices : (#[] : Array Notice) ++ (step d m s).notices =
      (step d m s).notices.toArray ++ #[] := by
    apply Array.toList_inj.mp
    simp only [Array.toList_append, Array.toList_appendList, List.append_nil, List.nil_append]
  rw [run, run, Run.extend, h, ← Run.extend_precededBy, Run.precededBy, hnotices]

/-- A frame that was begun earlier: a step was taken before, and has reported something. -/
def Frame.precededBy (notices : List Notice) (f : Frame σ) : Frame σ :=
  { f with
    console := { f.console with cyclesPerFrame := f.console.cyclesPerFrame + 1 }
    notices := notices.toArray ++ f.notices }

namespace Console

/-- The first step of a frame, once the keys have been looked at. -/
def firstStep (keys : Keys) (c : Console σ) : Outcome σ :=
  step c.dialect (c.machine.latch keys) c.source

/-- The console after the first step of a frame, with the steps that it may still take. -/
def ahead (keys : Keys) (c : Console σ) : Console σ :=
  { c with
    machine := (c.firstStep keys).machine
    source := (c.firstStep keys).source
    cyclesPerFrame := c.cyclesPerFrame - 1 }

/-- **A frame whose first step asks to go on is that step, and then a frame of one step fewer.** -/
theorem runFrame_of_proceeds {c : Console σ} (hhalted : c.halted = false)
    (hpaused : c.paused = false) (hcycles : 0 < c.cyclesPerFrame) {keys : Keys}
    (h : (c.firstStep keys).signal = .proceed) (toneOn : Bool) :
    c.runFrame keys toneOn =
      ((c.ahead keys).runFrame keys toneOn).precededBy (c.firstStep keys).notices := by
  obtain ⟨machine, dialect, source, cycles, rom, halted, paused, awaiting⟩ := c
  cases hhalted
  cases hpaused
  obtain ⟨n, rfl⟩ := Nat.exists_eq_add_one.mpr hcycles
  -- no instruction changes the keys, so looking at them again makes no difference
  have hkeys : (step dialect (machine.latch keys) source).machine.latch keys =
      (step dialect (machine.latch keys) source).machine :=
    Machine.latch_of_keys_eq (keys_step dialect (machine.latch keys) source)
  have hrun := run_of_proceeds dialect n h
  simp only [runFrame, ahead, firstStep, activeFrame, hkeys, Nat.add_sub_cancel, hrun,
    Bool.or_self, Bool.false_eq_true, if_false, Run.precededBy, Array.append_assoc]
  rfl

/-! ## Frames in which no key is down -/

/-- The console after `n` frames in which its program has waited for a key. -/
def waited (n : Nat) (c : Console σ) : Console σ :=
  { c with
    machine := { c.machine with
      keys := .released
      timers := c.machine.timers.after n
      display := c.machine.display.takeRedraw }
    awaitingKey := true }

omit [ByteSource σ] in
theorem waited_waited (m n : Nat) (c : Console σ) : (c.waited m).waited n = c.waited (m + n) := by
  simp only [waited, Timers.after_after, Display.takeRedraw]

/-- The console runs, and a step from its machine would wait if no key was down. -/
structure Blocks (c : Console σ) : Prop where
  halted : c.halted = false
  paused : c.paused = false
  cycles : 0 < c.cyclesPerFrame
  family : Word.family (c.machine.memory.readWord c.machine.pc) = 0xF
  low : Word.nn (c.machine.memory.readWord c.machine.pc) = 0x0A

namespace Blocks

omit [ByteSource σ] in
theorem waited {c : Console σ} (h : c.Blocks) (n : Nat) : (c.waited n).Blocks :=
  ⟨h.halted, h.paused, h.cycles, h.family, h.low⟩

omit [ByteSource σ] in
theorem status_waited {c : Console σ} (h : c.Blocks) (n : Nat) :
    (c.waited n).status = .awaitingKey := by
  have hhalted : (c.waited n).halted = false := h.halted
  have hpaused : (c.waited n).paused = false := h.paused
  rw [status, hhalted, hpaused]
  rfl

/-- A frame of waiting leaves nothing of itself but the time that has passed. -/
theorem console_runFrame {c : Console σ} (h : c.Blocks) (toneOn : Bool) :
    (c.runFrame .released toneOn).console = c.waited 1 := by
  have hwaits : (c.machine.latch .released).Waits := ⟨h.family, h.low, rfl⟩
  have hactive : (c.halted || c.paused) = false := by rw [h.halted, h.paused]; rfl
  obtain ⟨n, hn⟩ := Nat.exists_eq_add_one.mpr h.cycles
  obtain ⟨hmachine, hsource, hsignal⟩ := run_of_waits c.dialect n hwaits c.source
  rw [Console.console_runFrame, advance_of_active hactive, hn, hmachine, hsource, hsignal,
    Console.waited, Timers.after_one, ← hn]
  simp only [h.halted, Machine.tick, Machine.latch, reduceCtorEq, decide_false, decide_true]

/-- **The frames of waiting**: each ends with the console that has waited one frame longer. -/
theorem frames {c : Console σ} (h : c.Blocks) (tones : List Bool) :
    (c.frames (tones.map (FrameInput.mk .released))).map Frame.console =
      (List.range tones.length).map fun i => c.waited (i + 1) := by
  -- On the frames; after the first, the console is one that has waited for a frame already.
  induction tones generalizing c with
  | nil => rfl
  | cons toneOn tones ih =>
      have hlater : ∀ i, (c.waited 1).waited (i + 1) = c.waited (i + 1 + 1) := by
        intro i
        rw [waited_waited, Nat.add_comm]
      rw [List.map_cons, Console.frames, List.map_cons, h.console_runFrame, ih (h.waited 1),
        List.length_cons, List.range_succ_eq_map, List.map_cons, List.map_map]
      simp only [hlater]
      rfl

/-- The first step of the frame in which a key comes. -/
theorem firstStep {c : Console σ} (h : c.Blocks) {keys : Keys} {k : Fin 16}
    (hk : keys.lowest? = some k) :
    c.firstStep keys =
      { machine := { (c.machine.latch keys).setReg
            (Word.x (c.machine.memory.readWord c.machine.pc)) (UInt8.ofNat k.val) with
          pc := c.machine.pc + 2 }
        source := c.source
        notices := [.executing c.machine.pc (c.machine.memory.readWord c.machine.pc)] } :=
  step_of_key (m := c.machine.latch keys) c.dialect h.family h.low hk c.source

end Blocks

/-! ## Until the key comes -/

/-- **Waiting for a key, across frames.**  Take a console that runs, with `FX0A` under its program
counter, and any number of frames, but at least one, in which no key is down.

* Each of them reports that the program awaits a key.  They leave the console as it was, except that
  no key is down in its machine, its timers have counted down once in each of the frames, but not
  below zero, and the redraw flag is down.
* In the next frame let some key be down.  The first step sets `VX` to the lowest such key and moves
  on to the next word.  The frame is that step, and then the frame of a console which is ahead by
  the step and may take one step fewer, as with any other instruction after which a program goes on
  (`runFrame_of_proceeds`). -/
theorem waits_until_key {c : Console σ} (h : c.Blocks) {tones : List Bool} (hframes : tones ≠ []) :
    let frames := c.frames (tones.map (FrameInput.mk .released))
    let waiting := c.waited tones.length
    let word := c.machine.memory.readWord c.machine.pc
    (∀ f ∈ frames, f.console.status = .awaitingKey) ∧
      frames.getLast?.map Frame.console = some waiting ∧
      (∀ t : Timer, (t.value waiting.machine.timers).toNat =
        (t.value c.machine.timers).toNat - tones.length) ∧
      ∀ keys : Keys, (∃ j, keys.get j = true) →
        ∃ k, keys.get k = true ∧ (∀ j < k, keys.get j = false) ∧
          waiting.firstStep keys =
            { machine := { (waiting.machine.latch keys).setReg (Word.x word)
                (UInt8.ofNat k.val) with pc := c.machine.pc + 2 }
              source := c.source
              signal := .proceed
              notices := [.executing c.machine.pc word] } ∧
          ∀ toneOn, waiting.runFrame keys toneOn =
            ((waiting.ahead keys).runFrame keys toneOn).precededBy
              (waiting.firstStep keys).notices := by
  intro frames waiting word
  have hconsoles := h.frames tones
  have hwaiting : waiting.Blocks := h.waited tones.length
  refine ⟨fun f hf => ?_, ?_, fun t => t.toNat_value_after _ _, fun keys hkeys => ?_⟩
  · have hmem : f.console ∈ frames.map Frame.console := List.mem_map_of_mem hf
    rw [hconsoles] at hmem
    obtain ⟨i, -, hi⟩ := List.mem_map.mp hmem
    rw [← hi]
    exact h.status_waited (i + 1)
  · obtain ⟨n, hn⟩ := Nat.exists_eq_add_one.mpr (List.length_pos_iff.mpr hframes)
    rw [← List.getLast?_map, hconsoles, List.getLast?_map, hn, List.getLast?_range]
    simp only [waiting, hn]
    rfl
  · obtain ⟨k, hk⟩ := Keys.exists_lowest hkeys
    obtain ⟨hdown, hbelow⟩ := (keys.lowest?_eq_some_iff k).mp hk
    have hfirst := hwaiting.firstStep hk
    have hproceeds : (waiting.firstStep keys).signal = .proceed := by rw [hfirst]
    exact ⟨k, hdown, hbelow, hfirst, runFrame_of_proceeds hwaiting.halted hwaiting.paused
      hwaiting.cycles hproceeds⟩

/-- A console that was just loaded with `waitAndDraw`, and has its timers set, waits for three
frames.  Then two keys come, and the register is set to the lower one. -/
theorem waits_until_key_waitAndDraw :
    let loaded := ((powerOn {} (Seeded.mk 7)).load waitAndDraw).console
    let c := { loaded with machine := { loaded.machine with timers := ⟨2, 200⟩ } }
    let keys := (Keys.released.put 9 true).put 4 true
    c.Blocks ∧
      (∀ f ∈ c.frames ([false, true, true].map (FrameInput.mk .released)),
        f.console.status = .awaitingKey) ∧
      (c.waited 3).machine.timers = ⟨0, 197⟩ ∧
      ((c.waited 3).firstStep keys).machine.pc = 0x202 ∧
      ((c.waited 3).firstStep keys).machine.reg .first = 4 := by
  intro loaded c keys
  have hblocks : c.Blocks :=
    ⟨rfl, rfl, by decide, waits_load_waitAndDraw.family, waits_load_waitAndDraw.low⟩
  have hregister : Word.x (c.machine.memory.readWord c.machine.pc) = Register.first := by
    have hword : c.machine.memory.readWord c.machine.pc = Word.ofBytes 0xF0 0x0A :=
      Machine.readWord_load waitAndDraw (a := 0x200) (k := 0) (by decide) (by decide) (by decide)
    rw [hword]
    decide
  have htimers : (c.waited 3).machine.timers = ⟨0, 197⟩ := by decide
  have hstart : c.machine.pc = 0x200 := rfl
  -- nothing else about the console is needed
  clear_value c
  have hframes : [false, true, true] ≠ [] := List.cons_ne_nil _ _
  obtain ⟨hstatus, -, -, hkey⟩ := waits_until_key hblocks hframes
  obtain ⟨k, hdown, hbelow, hfirst, -⟩ := hkey keys ⟨9, by decide⟩
  have hk : ∀ k : Fin 16, keys.get k = true → (∀ j < k, keys.get j = false) → k = 4 := by decide
  obtain rfl := hk k hdown hbelow
  have hlength : [false, true, true].length = 3 := rfl
  rw [hlength, hregister] at hfirst
  refine ⟨hblocks, hstatus, htimers, ?_, ?_⟩
  · rw [hfirst, hstart]
    rfl
  · rw [hfirst]
    exact (Machine.reg_setReg _ _ _ _).trans (if_pos rfl)

end Console
end Chip8
