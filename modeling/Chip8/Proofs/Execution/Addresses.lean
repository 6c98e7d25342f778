import Chip8.Proofs.Execution.Trace
import Mathlib.Data.List.Forall2

/-!
# Addresses have twelve bits

The index register, the program counter and the return addresses are kept at sixteen bits,
and memory has 4096 cells.  The remainder is taken when a cell is read or written and nowhere
else, so the upper four bits of an address live on: they are carried by a call onto the
stack, taken back by a return, and counted on across the end of memory.

Nothing ever comes of them.  Two machines are *alike* if their addresses stand for the same
cells and all else that an instruction can look at is equal; what is left free is the upper
bits, the stale slots of the stack and the redraw flag.  The statement is that alike machines
stay alike: every step of one is matched by a step of the other that asks for the same and
draws the same random byte.

Two facts carry it.  Adding a number to two addresses of the same cell gives two addresses of
the same cell, because 65536 is a multiple of 4096 (`Memory.cell_add`); and no instruction
turns an address into a byte.
-/

namespace Chip8

/-! ## Addresses of the same cell -/

namespace Memory

/-- Counting on from addresses of the same cell leads to addresses of the same cell, also where
sixteen bits overflow. -/
theorem cell_add {a b : UInt16} (h : cell a = cell b) (k : UInt16) :
    cell (a + k) = cell (b + k) := by
  rw [cell_eq_iff] at h ⊢
  rw [UInt16.toNat_add, UInt16.toNat_add]
  omega

/-- The same for counting back. -/
theorem cell_sub {a b : UInt16} (h : cell a = cell b) (k : UInt16) :
    cell (a - k) = cell (b - k) := by
  have hk := k.toNat_lt
  rw [cell_eq_iff] at h ⊢
  rw [UInt16.toNat_sub, UInt16.toNat_sub]
  omega

variable (m : Memory) {a b : UInt16}

theorem read_congr (h : cell a = cell b) : m.read a = m.read b := by
  simp only [read, h]

/-- Counting on from an address leads around the end of memory, also where sixteen bits
overflow. -/
theorem read_add (start : UInt16) (k : Nat) :
    m.read (start + UInt16.ofNat k) = m.read (UInt16.ofNat ((start.toNat + k) % 4096)) := by
  apply m.read_congr
  rw [cell_eq_iff, UInt16.toNat_add, UInt16.toNat_ofNat', UInt16.toNat_ofNat']
  omega

/-- The byte `k` places on from an address, around the end of memory. -/
def beyond (start : UInt16) (k : Nat) : UInt8 :=
  m.read (UInt16.ofNat ((start.toNat + k) % 4096))

theorem beyond_eq (start : UInt16) (k : Nat) : m.beyond start k = m.read (start + UInt16.ofNat k) :=
  (m.read_add start k).symm

theorem readWord_congr (h : cell a = cell b) : m.readWord a = m.readWord b := by
  rw [readWord, readWord, m.read_congr h, m.read_congr (cell_add h 1)]

theorem readRun_congr (h : cell a = cell b) (count : Nat) :
    m.readRun a count = m.readRun b count := by
  rw [readRun, readRun]
  exact List.map_congr_left fun k _ => m.read_congr (cell_add h _)

theorem writeRun_congr (h : cell a = cell b) (values : List UInt8) :
    m.writeRun a values = m.writeRun b values := by
  induction values generalizing m a b with
  | nil => rfl
  | cons v values ih =>
      have hwrite : m.write a v = m.write b v := by simp only [write, h]
      rw [writeRun, writeRun, hwrite]
      exact ih _ (cell_add h 1)

end Memory

/-! ## Stacks that return to the same cells -/

namespace CallStack

variable {s t : CallStack}

theorem depth_eq_of_live (h : s.live.map Memory.cell = t.live.map Memory.cell) :
    s.depth = t.depth := by
  have hlength := congrArg List.length h
  rwa [List.length_map, List.length_map, length_live, length_live] at hlength

/-- A call keeps such stacks so, whether it finds them full or not. -/
theorem live_push_congr (h : s.live.map Memory.cell = t.live.map Memory.cell) {a b : UInt16}
    (hab : Memory.cell a = Memory.cell b) :
    (s.push a).live.map Memory.cell = (t.push b).live.map Memory.cell := by
  have hdepth := depth_eq_of_live h
  rcases Nat.lt_or_eq_of_le s.depth_le with hlt | hfull
  · rw [live_push_of_lt s a hlt, live_push_of_lt t b (hdepth ▸ hlt), List.map_append,
      List.map_append, h, List.map_singleton, List.map_singleton, hab]
  · rw [live_push_of_full s a hfull, live_push_of_full t b (hdepth ▸ hfull), List.map_append,
      List.map_append, List.map_dropLast, List.map_dropLast, h, List.map_singleton,
      List.map_singleton, hab]

/-- Such stacks are empty together; and if they are not, a return takes addresses of the same
cell from them and leaves them so. -/
theorem pop?_congr (h : s.live.map Memory.cell = t.live.map Memory.cell) :
    (s.pop? = none ∧ t.pop? = none) ∨
      ∃ (a b : UInt16) (s' t' : CallStack), s.pop? = some (a, s') ∧ t.pop? = some (b, t') ∧
        Memory.cell a = Memory.cell b ∧
        s'.live.map Memory.cell = t'.live.map Memory.cell := by
  cases hs : s.pop? with
  | none =>
      have hlive := (pop?_eq_none_iff s).mp hs
      rw [hlive, List.map_nil, eq_comm, List.map_eq_nil_iff] at h
      exact Or.inl ⟨rfl, (pop?_eq_none_iff t).mpr h⟩
  | some p =>
      obtain ⟨a, s'⟩ := p
      have hlive := live_eq_of_pop? hs
      cases ht : t.pop? with
      | none =>
          have hnil := (pop?_eq_none_iff t).mp ht
          rw [hlive, hnil] at h
          simp at h
      | some q =>
          obtain ⟨b, t'⟩ := q
          rw [hlive, live_eq_of_pop? ht, List.map_append, List.map_append] at h
          obtain ⟨hlow, htop⟩ := List.append_inj' h rfl
          exact Or.inr ⟨a, b, s', t', rfl, rfl, (List.cons.inj htop).1, hlow⟩

end CallStack

/-! ## Machines that are alike -/

/-- Two machines are alike if their addresses agree modulo 4096 and all else that an
instruction can look at is equal.  The upper bits of the addresses, the slots that are not in
use and the redraw flag are free. -/
structure Machine.Alike (m m' : Machine) : Prop where
  memory : m.memory = m'.memory
  registers : m.registers = m'.registers
  index : Memory.cell m.index = Memory.cell m'.index
  pc : Memory.cell m.pc = Memory.cell m'.pc
  depth : m.stack.depth = m'.stack.depth
  /-- The slots in use stand for the same cells, one by one. -/
  returns : m.stack.live.map Memory.cell = m'.stack.live.map Memory.cell
  pixels : m.display.pixels = m'.display.pixels
  timers : m.timers = m'.timers
  keys : m.keys = m'.keys

namespace Machine.Alike

variable {m m' : Machine}

theorem reg (h : m.Alike m') (x : Register) : m.reg x = m'.reg x := by
  rw [Machine.reg, Machine.reg, h.registers]

theorem withRegisters (h : m.Alike m') {v v' : Vector UInt8 16} (hv : v = v') :
    ({ m with registers := v } : Machine).Alike { m' with registers := v' } :=
  { h with registers := hv }

theorem setReg (h : m.Alike m') (x : Register) (v : UInt8) :
    (m.setReg x v).Alike (m'.setReg x v) :=
  h.withRegisters (by rw [h.registers])

theorem goto (h : m.Alike m') {a b : UInt16} (hab : Memory.cell a = Memory.cell b) :
    ({ m with pc := a } : Machine).Alike { m' with pc := b } :=
  { h with pc := hab }

theorem withIndex (h : m.Alike m') {a b : UInt16} (hab : Memory.cell a = Memory.cell b) :
    ({ m with index := a } : Machine).Alike { m' with index := b } :=
  { h with index := hab }

theorem withMemory (h : m.Alike m') {c c' : Memory} (hc : c = c') :
    ({ m with memory := c } : Machine).Alike { m' with memory := c' } :=
  { h with memory := hc }

theorem withStack (h : m.Alike m') {s s' : CallStack}
    (hlive : s.live.map Memory.cell = s'.live.map Memory.cell) :
    ({ m with stack := s } : Machine).Alike { m' with stack := s' } :=
  { h with depth := CallStack.depth_eq_of_live hlive, returns := hlive }

theorem withDisplay (h : m.Alike m') {v v' : Display} (hv : v.pixels = v'.pixels) :
    ({ m with display := v } : Machine).Alike { m' with display := v' } :=
  { h with pixels := hv }

theorem withTimers (h : m.Alike m') {t t' : Timers} (ht : t = t') :
    ({ m with timers := t } : Machine).Alike { m' with timers := t' } :=
  { h with timers := ht }

theorem skipIf (h : m.Alike m') {c c' : Bool} (hc : c = c') :
    (m.skipIf c).Alike (m'.skipIf c') := by
  subst hc
  cases c with
  | false => exact h
  | true => exact h.goto (Memory.cell_add h.pc 2)

theorem combine (h : m.Alike m') (d : Dialect) (f : Operation) (x y : Register) :
    (m.combine d f x y).Alike (m'.combine d f x y) := by
  rw [Machine.combine, Machine.combine, h.reg x, h.reg y]
  rcases f.apply d (m'.reg x) (m'.reg y) with ⟨value, _ | flag⟩
  · exact h.setReg x value
  · exact (h.setReg x value).setReg .flag _

theorem indexAfterTransfer (h : m.Alike m') (d : Dialect) (x : Register) :
    Memory.cell (m.indexAfterTransfer d x) = Memory.cell (m'.indexAfterTransfer d x) := by
  unfold Machine.indexAfterTransfer
  split
  · exact h.index
  · split <;> exact Memory.cell_add h.index _

theorem store (h : m.Alike m') (d : Dialect) (x : Register) :
    (m.store d x).Alike (m'.store d x) := by
  have hmemory : (m.store d x).memory = (m'.store d x).memory := by
    rw [Machine.store, Machine.store, h.memory, h.registers]
    exact m'.memory.writeRun_congr h.index _
  exact (h.withMemory hmemory).withIndex (h.indexAfterTransfer d x)

theorem fetch (h : m.Alike m') (d : Dialect) (x : Register) :
    (m.fetch d x).Alike (m'.fetch d x) := by
  have hread : ∀ k, m.memory.read (m.index + k) = m'.memory.read (m'.index + k) := fun k => by
    rw [h.memory]
    exact m'.memory.read_congr (Memory.cell_add h.index k)
  have hregisters : (m.fetch d x).registers = (m'.fetch d x).registers := by
    simp only [Machine.fetch, hread, h.reg]
  exact (h.withRegisters hregisters).withIndex (h.indexAfterTransfer d x)

theorem drawSprite (h : m.Alike m') (d : Dialect) (x y : Register) (height : Fin 16) :
    (m.drawSprite d x y height).Alike (m'.drawSprite d x y height) := by
  have hrows : m.memory.readRun m.index height.val = m'.memory.readRun m'.index height.val := by
    rw [h.memory]
    exact m'.memory.readRun_congr h.index _
  have hdrawn : ∀ rows, m.display.draw d.wrapSprites (m.reg x) (m.reg y) rows =
      m'.display.draw d.wrapSprites (m'.reg x) (m'.reg y) rows := fun rows => by
    rw [Display.draw, Display.draw, h.pixels, h.reg x, h.reg y]
  rw [Machine.drawSprite, Machine.drawSprite, hrows, hdrawn]
  exact (h.withDisplay rfl).setReg .flag _

end Machine.Alike

/-! ## Steps -/

variable {σ : Type}

/-- Two outcomes are alike if their machines are, and if the sources are in the same state and
the same is asked for.  What there is to report is left out, because it shows addresses at
their full width. -/
structure Outcome.Alike (o o' : Outcome σ) : Prop where
  machine : o.machine.Alike o'.machine
  source : o.source = o'.source
  signal : o.signal = o'.signal

theorem Machine.Alike.proceed {m m' : Machine} (h : m.Alike m') (s : σ) :
    (Chip8.proceed m s).Alike (Chip8.proceed m' s) :=
  ⟨h, rfl, rfl⟩

variable [ByteSource σ]

/-- **Alike machines execute an instruction alike.** -/
theorem Machine.Alike.execute {m m' : Machine} (h : m.Alike m') (d : Dialect) (i : Instruction)
    (s : σ) : (Chip8.execute d i m s).Alike (Chip8.execute d i m' s) := by
  cases i with
  | clear => exact (h.withDisplay rfl).proceed s
  | ret =>
      simp only [Chip8.execute]
      rcases CallStack.pop?_congr h.returns with ⟨hs, ht⟩ | ⟨a, b, s', t', hs, ht, hab, hlive⟩
      · -- a return from an empty stack goes nowhere, and it raises the redraw flag like any other
        rw [hs, ht]
        exact ⟨h.withDisplay h.pixels, rfl, rfl⟩
      · rw [hs, ht]
        exact ⟨((h.goto hab).withStack hlive).withDisplay h.pixels, rfl, rfl⟩
  | jump a => exact (h.goto rfl).proceed s
  | call a =>
      -- the program counter is pushed with its upper bits
      have hlive := CallStack.live_push_congr h.returns h.pc
      exact ⟨(h.withStack hlive).goto rfl, rfl, rfl⟩
  | skipIfValue x v => exact (h.skipIf (by rw [h.reg])).proceed s
  | skipUnlessValue x v => exact (h.skipIf (by rw [h.reg])).proceed s
  | skipIfSame x y => exact (h.skipIf (by rw [h.reg, h.reg])).proceed s
  | skipUnlessSame x y => exact (h.skipIf (by rw [h.reg, h.reg])).proceed s
  | set x v => exact (h.setReg x v).proceed s
  | increase x v =>
      simp only [Chip8.execute, h.reg]
      exact (h.setReg x _).proceed s
  | combine f x y => exact (h.combine d f x y).proceed s
  | setIndex a => exact (h.withIndex rfl).proceed s
  | jumpPlus x base =>
      -- the sum is not reduced to twelve bits, and it is the same sum
      simp only [Chip8.execute, h.reg]
      exact (h.goto rfl).proceed s
  | random x mask => exact (h.setReg x _).proceed _
  | draw x y height => exact (h.drawSprite d x y height).proceed s
  | skipIfKey x => exact (h.skipIf (by simp only [h.reg, h.keys])).proceed s
  | skipUnlessKey x => exact (h.skipIf (by simp only [h.reg, h.keys])).proceed s
  | readDelay x =>
      simp only [Chip8.execute, h.timers]
      exact (h.setReg x _).proceed s
  | awaitKey x =>
      have hkeys : m.keys.lowest? = m'.keys.lowest? := by rw [h.keys]
      simp only [Chip8.execute, hkeys]
      cases m'.keys.lowest? with
      | some key => exact (h.setReg x _).proceed s
      | none => exact ⟨h.goto (Memory.cell_sub h.pc 2), rfl, rfl⟩
  | setDelay x =>
      simp only [Chip8.execute, h.reg, h.timers]
      exact (h.withTimers rfl).proceed s
  | setSound x =>
      simp only [Chip8.execute, h.reg, h.timers]
      exact (h.withTimers rfl).proceed s
  | increaseIndex x =>
      simp only [Chip8.execute, h.reg]
      exact (h.withIndex (Memory.cell_add h.index _)).proceed s
  | glyph x =>
      simp only [Chip8.execute, h.reg]
      exact (h.withIndex rfl).proceed s
  | decimal x =>
      simp only [Chip8.execute, h.reg, h.memory]
      exact (h.withMemory (m'.memory.writeRun_congr h.index _)).proceed s
  | store x => exact (h.store d x).proceed s
  | load x => exact (h.fetch d x).proceed s

/-- The same for a word. -/
theorem Machine.Alike.executeWord {m m' : Machine} (h : m.Alike m') (d : Dialect) (w : UInt16)
    (s : σ) : (Chip8.executeWord d w m s).Alike (Chip8.executeWord d w m' s) := by
  unfold Chip8.executeWord
  split
  · exact ⟨h, rfl, rfl⟩
  · split
    · exact h.execute d _ s
    · exact ⟨h, rfl, rfl⟩

/-- **Alike machines take a step alike**: they fetch the same word, and are alike behind it. -/
theorem Machine.Alike.step {m m' : Machine} (h : m.Alike m') (d : Dialect) (s : σ) :
    (Chip8.step d m s).Alike (Chip8.step d m' s) := by
  have hword : m.memory.readWord m.pc = m'.memory.readWord m'.pc := by
    rw [h.memory]
    exact m'.memory.readWord_congr h.pc
  have hexecute := (h.goto (Memory.cell_add h.pc 2)).executeWord d (m.memory.readWord m.pc) s
  simp only [Chip8.step, ← hword]
  exact ⟨hexecute.machine, hexecute.source, hexecute.signal⟩

/-! ## Runs -/

/-- Two runs are alike if their machines are, the sources are in the same state, and they took
as many steps and stopped for the same reason. -/
structure Run.Alike (r r' : Run σ) : Prop where
  machine : r.machine.Alike r'.machine
  source : r.source = r'.source
  signal : r.signal = r'.signal
  steps : r.steps = r'.steps

theorem Run.Alike.extend {r r' : Run σ} (h : r.Alike r') (d : Dialect) (n : Nat) :
    (Run.extend d n r).Alike (Run.extend d n r') := by
  induction n generalizing r r' with
  | zero => exact h
  | succ n ih =>
      obtain ⟨m, s, signal, k, notices⟩ := r
      obtain ⟨m', s', signal', k', notices'⟩ := r'
      obtain ⟨hmachine, hsource, hsignal, hsteps⟩ := h
      cases hsource
      cases hsignal
      cases hsteps
      cases signal with
      | proceed =>
          have hstep := Machine.Alike.step hmachine d s
          exact ih ⟨hstep.machine, hstep.source, hstep.signal, rfl⟩
      | halt => exact ⟨hmachine, rfl, rfl, rfl⟩
      | awaitKey => exact ⟨hmachine, rfl, rfl, rfl⟩

theorem Machine.Alike.run {m m' : Machine} (h : m.Alike m') (d : Dialect) (n : Nat) (s : σ) :
    (Chip8.run d n m s).Alike (Chip8.run d n m' s) := by
  have hstart : (Run.mk m s .proceed 0 #[]).Alike (Run.mk m' s .proceed 0 #[]) :=
    ⟨h, rfl, rfl, rfl⟩
  exact hstart.extend d n

theorem Machine.Alike.trace {m m' : Machine} (h : m.Alike m') (d : Dialect) (n : Nat) (s : σ) :
    List.Forall₂ Outcome.Alike (Chip8.trace d n m s) (Chip8.trace d n m' s) := by
  induction n generalizing m m' s with
  | zero => exact List.Forall₂.nil
  | succ n ih =>
      have hstep := h.step d s
      have hlater := ih hstep.machine (Chip8.step d m s).source
      rw [Chip8.trace, Chip8.trace]
      rw [hstep.source] at hlater ⊢
      exact List.Forall₂.cons hstep hlater

/-- **Addresses have twelve bits.**  Take two machines that are alike: the memory, the
registers, the pixels, the timers and the keys are equal, as many slots of the stack are in
use, and the index registers, the program counters and the slots in use agree modulo 4096.
Under any dialect, and with sources in the same state, a step of one and a step of the other
ask for the same, draw the same random bytes and leave machines that are alike.  Hence so do
any number of steps, all of them or up to the first that asks to stop.

The sources are of any kind.  Recorders are named because they make equal states of the
sources into equal lists of bytes drawn. -/
theorem addresses_have_twelve_bits (d : Dialect) {m m' : Machine} (h : m.Alike m') (s : σ) :
    (step d m s).Alike (step d m' s) ∧
      (step d m (Recorder.mk s [])).source.drawn = (step d m' (Recorder.mk s [])).source.drawn ∧
      ∀ n, List.Forall₂ Outcome.Alike (trace d n m s) (trace d n m' s) ∧
        (run d n m s).Alike (run d n m' s) ∧
        (run d n m (Recorder.mk s [])).source.drawn =
          (run d n m' (Recorder.mk s [])).source.drawn := by
  refine ⟨h.step d s, ?_, fun n => ⟨h.trace d n s, h.run d n s, ?_⟩⟩
  · rw [(h.step d (Recorder.mk s [])).source]
  · rw [(h.run d n (Recorder.mk s [])).source]

/-- A machine whose next instruction lies across the end of memory and calls a subroutine,
with upper bits added to every address. -/
def callAcrossEnd (upper : UInt16) : Machine :=
  { Machine.initial with
    memory := (Memory.blank.write 0x0FFF 0x22).write 0x0000 0x34
    index := upper + 0x0FFE
    pc := upper + 0x0FFF
    stack := ⟨Vector.replicate 16 (upper + 0x0202), 15, by decide⟩ }

/-- The program counter runs past the end of memory in one machine and past sixteen bits in the
other, and both push where it arrives. -/
theorem addresses_have_twelve_bits_callAcrossEnd :
    (callAcrossEnd 0).Alike (callAcrossEnd 0xF000) ∧
      (run .plain 100 (callAcrossEnd 0) (Seeded.mk 7)).Alike
        (run .plain 100 (callAcrossEnd 0xF000) (Seeded.mk 7)) := by
  have halike : (callAcrossEnd 0).Alike (callAcrossEnd 0xF000) :=
    ⟨rfl, rfl, by decide, by decide, rfl, by decide, rfl, rfl, rfl⟩
  obtain ⟨-, -, hruns⟩ := addresses_have_twelve_bits .plain halike (Seeded.mk 7)
  exact ⟨halike, (hruns 100).2.1⟩

end Chip8
