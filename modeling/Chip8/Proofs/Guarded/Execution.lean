import Chip8.Proofs.Execution.Trace
import Chip8.Proofs.Guarded.Machine

/-!
# Executing instructions, guarded

An instruction word is cut into its fields by masks and shifts, and the fields are mere
numbers: that a register number is below sixteen is nowhere written down.  Instructions
that move several bytes are loops over addresses.

`execute_bare` says that every word is executed without a fault from every machine, and
with the outcome it has there; steps and cycles follow (`step_bare`, `cycles_bare`).  What
is reported on the way is part of the outcome, so a word that is no instruction is told
from one that has no effect.

The call stack is the only part of a state that matters for this, so the same holds from
any state with at most sixteen slots in use, and it leads to such a state again
(`exists_step_of_depth_le`, `exists_cycles_of_depth_le`).
-/

namespace Chip8
namespace Guarded

/-! ## The fields of a word -/

/-- A word and its fields: its four digits, the last two of them as a byte, and the last
three as an address. -/
structure Fields where
  word : UInt16
  family : Nat
  x : Nat
  y : Nat
  n : Nat
  nn : UInt8
  nnn : UInt16
  deriving DecidableEq

/-- The fields of a word. -/
def Fields.ofWord (w : UInt16) : Fields where
  word := w
  family := ((w &&& 0xF000) >>> 12).toNat
  x := ((w &&& 0x0F00) >>> 8).toNat
  y := ((w &&& 0x00F0) >>> 4).toNat
  n := (w &&& 0x000F).toNat
  nn := (w &&& 0x00FF).toUInt8
  nnn := w &&& 0x0FFF

/-- One digit of a number, by a mask and a shift. -/
theorem and_shiftRight_digit (a k : Nat) : (a &&& (15 <<< k)) >>> k = a / 2 ^ k % 16 := by
  rw [Nat.shiftRight_and_distrib, Nat.shiftLeft_shiftRight, Nat.shiftRight_eq_div_pow]
  exact Nat.and_two_pow_sub_one_eq_mod _ 4

/-- The fields that are cut out of a word are its fields. -/
theorem ofWord_eq (w : UInt16) :
    Fields.ofWord w =
      ⟨w, Word.family w, (Word.x w).val, (Word.y w).val, (Word.n w).val, Word.nn w, Word.nnn w⟩ := by
  have hw := w.toNat_lt
  rw [Fields.ofWord, Fields.mk.injEq]
  refine ⟨rfl, ?hfamily, ?hx, ?hy, ?hn, ?hnn, ?hnnn⟩
  case hfamily =>
    rw [UInt16.toNat_shiftRight, UInt16.toNat_and]
    refine (and_shiftRight_digit w.toNat 12).trans ?_
    simp only [Word.family]
    omega
  case hx =>
    rw [UInt16.toNat_shiftRight, UInt16.toNat_and]
    exact and_shiftRight_digit w.toNat 8
  case hy =>
    rw [UInt16.toNat_shiftRight, UInt16.toNat_and]
    exact and_shiftRight_digit w.toNat 4
  case hn =>
    rw [UInt16.toNat_and]
    exact Nat.and_two_pow_sub_one_eq_mod w.toNat 4
  case hnn =>
    apply UInt8.toNat_inj.1
    rw [UInt16.toNat_toUInt8, UInt16.toNat_and, Word.nn, Word.toNat_low]
    have h : w.toNat &&& (0x00FF : UInt16).toNat = w.toNat % 2 ^ 8 :=
      Nat.and_two_pow_sub_one_eq_mod w.toNat 8
    omega
  case hnnn =>
    apply UInt16.toNat_inj.1
    rw [UInt16.toNat_and, Word.toNat_nnn]
    exact Nat.and_two_pow_sub_one_eq_mod w.toNat 12

/-! ## Instructions -/

variable {σ : Type}

/-- What executing something led to, and what there is to report of it, in order. -/
structure Result (σ : Type) where
  state : State
  source : σ
  signal : Signal
  notices : List Notice

/-- A result with something to report before it. -/
def Result.behind (result : Result σ) (notices : List Notice) : Result σ :=
  { result with notices := notices ++ result.notices }

theorem Result.behind_behind (result : Result σ) (first second : List Notice) :
    (result.behind second).behind first = result.behind (first ++ second) := by
  rw [behind, behind, behind, List.append_assoc]

/-- The result of an instruction that only changes the state. -/
def proceed (s : State) (r : σ) : Attempt (Result σ) := .ok ⟨s, r, .proceed, []⟩

/-- The result of a word that is no instruction. -/
def ignore (word : UInt16) (s : State) (r : σ) : Attempt (Result σ) :=
  .ok ⟨s, r, .proceed, [.unknownWord word (s.pc - 2)]⟩

/-- `00EE`. -/
def ret (s : State) (r : σ) : Attempt (Result σ) := do
  let popped ← s.stack.pop?
  let display := s.display.requestRedraw
  match popped with
  | some (address, stack) => proceed { s with pc := address, stack, display } r
  | none => .ok ⟨{ s with display }, r, .proceed, [.returnIgnored (s.pc - 2)]⟩

/-- `2NNN`. -/
def call (s : State) (target : UInt16) (r : σ) : Attempt (Result σ) := do
  let stack ← s.stack.push s.pc
  let notices := if s.stack.depth = 16 then [Notice.returnReplaced target] else []
  .ok ⟨{ s with stack, pc := target }, r, .proceed, notices⟩

/-- The `8XYn` words that name an operation. -/
def combine (d : Dialect) (f : Operation) (s : State) (x y : Nat) : Attempt State := do
  let a ← s.reg x
  let b ← s.reg y
  match f.apply d a b with
  | (value, none) => s.setReg x value
  | (value, some flag) => s.setWithFlag x value flag

/-- `BNNN`. -/
def jumpPlus (d : Dialect) (s : State) (x : Nat) (base : UInt16) : Attempt State := do
  let offset ← s.reg (if d.jumpAddsVx then x else 0)
  let target ← fit 16 (base.toNat + offset.toNat)
  .ok { s with pc := UInt16.ofNat target }

/-- `DXYN`. -/
def draw (d : Dialect) (s : State) (x y height : Nat) : Attempt State := do
  let rows ← (List.range height).mapM fun row => read s.memory (s.index + UInt16.ofNat row)
  let vx ← s.reg x
  let vy ← s.reg y
  let (display, collision) ← drawSprite s.display d.wrapSprites vx vy rows
  { s with display }.setReg 15 (if collision then 1 else 0)

/-- Whether the key named by a register is down. -/
def keyDown (s : State) (x : Nat) : Attempt Bool := do
  let value ← s.reg x
  entry s.keys (value &&& 0xF).toNat

/-- `FX29`. -/
def glyph (s : State) (x : Nat) : Attempt State := do
  let value ← s.reg x
  let offset ← fit 16 (5 * (value &&& 0xF).toNat)
  let address ← fit 16 (0x050 + offset)
  .ok { s with index := UInt16.ofNat address }

/-- Write bytes to successive addresses, after `offset` others. -/
def writeFrom (m : Memory) (start : UInt16) : Nat → List UInt8 → Attempt Memory
  | _, [] => .ok m
  | offset, value :: values => do
      let m ← write m (start + UInt16.ofNat offset) value
      writeFrom m start (offset + 1) values

/-- `FX33`. -/
def decimal (s : State) (x : Nat) : Attempt State := do
  let value ← s.reg x
  let memory ← writeFrom s.memory s.index 0 [value / 100, value / 10 % 10, value % 10]
  .ok { s with memory }

/-- The index register after `FX55` and `FX65`. -/
def advance (d : Dialect) (s : State) (x : Nat) : Attempt State :=
  if d.memoryLeaveIUnchanged then .ok s
  else do
    let increment ← if d.memoryIncrementByX then .ok x else fit 64 (x + 1)
    .ok { s with index := s.index + UInt16.ofNat increment }

/-- `FX55`. -/
def store (d : Dialect) (s : State) (x : Nat) : Attempt State := do
  let memory ← (List.range (x + 1)).foldlM (fun memory register => do
    let value ← s.reg register
    write memory (s.index + UInt16.ofNat register) value) s.memory
  advance d { s with memory } x

/-- `FX65`. -/
def load (d : Dialect) (s : State) (x : Nat) : Attempt State := do
  let registers ← (List.range (x + 1)).foldlM (fun registers register => do
    let value ← read s.memory (s.index + UInt16.ofNat register)
    replace registers register value) s.registers
  advance d { s with registers } x

/-- The `FXnn` words. -/
def miscellaneous (d : Dialect) (word : UInt16) (s : State) (r : σ) (x : Nat) :
    Nat → Attempt (Result σ)
  | 0x07 => do proceed (← s.setReg x s.timers.delay) r
  | 0x0A =>
      match s.keys.lowest? with
      | some key => do proceed (← s.setReg x (UInt8.ofNat key.val)) r
      | none => .ok ⟨{ s with pc := s.pc - 2 }, r, .awaitKey, []⟩
  | 0x15 => do
      let value ← s.reg x
      proceed { s with timers := { s.timers with delay := value } } r
  | 0x18 => do
      let value ← s.reg x
      proceed { s with timers := { s.timers with sound := value } } r
  | 0x1E => do
      let value ← s.reg x
      proceed { s with index := s.index + value.toUInt16 } r
  | 0x29 => do proceed (← glyph s x) r
  | 0x33 => do proceed (← decimal s x) r
  | 0x55 => do proceed (← store d s x) r
  | 0x65 => do proceed (← load d s x) r
  | _ => ignore word s r

/-- Execute a word, given by its fields. -/
def execute [ByteSource σ] (d : Dialect) (f : Fields) (s : State) (r : σ) :
    Attempt (Result σ) :=
  match f.family with
  | 0x0 =>
      if f.x = 0x0 ∧ f.y = 0xE ∧ f.n = 0x0 then
        proceed { s with display := s.display.clear } r
      else if f.x = 0x0 ∧ f.y = 0xE ∧ f.n = 0xE then ret s r
      else if (f.x = 0x0 ∧ f.y = 0x0 ∧ f.n = 0x0) ∧ d.haltOnZero then .ok ⟨s, r, .halt, []⟩
      else ignore f.word s r
  | 0x1 => proceed { s with pc := f.nnn } r
  | 0x2 => call s f.nnn r
  | 0x3 => do
      let vx ← s.reg f.x
      proceed (s.skipIf (vx == f.nn)) r
  | 0x4 => do
      let vx ← s.reg f.x
      proceed (s.skipIf (vx != f.nn)) r
  | 0x5 =>
      if f.n = 0x0 then do
        let vx ← s.reg f.x
        let vy ← s.reg f.y
        proceed (s.skipIf (vx == vy)) r
      else ignore f.word s r
  | 0x6 => do proceed (← s.setReg f.x f.nn) r
  | 0x7 => do
      let vx ← s.reg f.x
      proceed (← s.setReg f.x (vx + f.nn)) r
  | 0x8 =>
      match Operation.ofDigit? f.n with
      | some operation => do proceed (← combine d operation s f.x f.y) r
      | none => ignore f.word s r
  | 0x9 =>
      if f.n = 0x0 then do
        let vx ← s.reg f.x
        let vy ← s.reg f.y
        proceed (s.skipIf (vx != vy)) r
      else ignore f.word s r
  | 0xA => proceed { s with index := f.nnn } r
  | 0xB => do proceed (← jumpPlus d s f.x f.nnn) r
  | 0xC => do
      let (byte, r) := ByteSource.next r
      proceed (← s.setReg f.x (byte &&& f.nn)) r
  | 0xD => do proceed (← draw d s f.x f.y f.n) r
  | 0xE =>
      if f.nn = 0x9E then do
        let down ← keyDown s f.x
        proceed (s.skipIf down) r
      else if f.nn = 0xA1 then do
        let down ← keyDown s f.x
        proceed (s.skipIf !down) r
      else ignore f.word s r
  | _ => miscellaneous d f.word s r f.x f.nn.toNat

/-- Fetch a word, step over it, and execute it. -/
def step [ByteSource σ] (d : Dialect) (s : State) (r : σ) : Attempt (Result σ) := do
  let word ← readWord s.memory s.pc
  let result ← execute d (Fields.ofWord word) { s with pc := s.pc + 2 } r
  .ok (result.behind [.executing s.pc word])

/-- Up to `n` steps.  They end early with the first one that does not ask to go on. -/
def cycles [ByteSource σ] (d : Dialect) : Nat → State → σ → Attempt (Result σ)
  | 0, s, r => proceed s r
  | n + 1, s, r => do
      let result ← step d s r
      match result.signal with
      | .proceed => do
          let rest ← cycles d n result.state result.source
          .ok (rest.behind result.notices)
      | _ => .ok result

end Guarded

/-- An outcome without the bound on the depth of the stack. -/
def Outcome.bare {σ : Type} (o : Outcome σ) : Guarded.Result σ :=
  ⟨o.machine.bare, o.source, o.signal, o.notices⟩

/-- A run without the bound on the depth of the stack, and without its length. -/
def Run.bare {σ : Type} (r : Run σ) : Guarded.Result σ :=
  ⟨r.machine.bare, r.source, r.signal, r.notices.toList⟩

namespace Guarded

variable {σ : Type}

/-! ## Single instructions -/

theorem ret_bare [ByteSource σ] (d : Dialect) (m : Machine) (r : σ) :
    ret m.bare r = .ok (Chip8.execute d .ret m r).bare := by
  have hpop : m.bare.stack.pop? = .ok (m.stack.pop?.map fun popped => (popped.1, popped.2.bare)) :=
    pop?_bare m.stack
  rw [ret, hpop, Attempt.ok_bind, Chip8.execute]
  rcases m.stack.pop? with _ | ⟨address, stack⟩ <;> rfl

theorem call_bare [ByteSource σ] (d : Dialect) (m : Machine) (target : UInt16) (r : σ) :
    call m.bare target r = .ok (Chip8.execute d (.call target) m r).bare := by
  have hpush : m.bare.stack.push m.bare.pc = .ok (m.stack.push m.pc).bare := push_bare m.stack m.pc
  have hfull : m.stack.isFull = decide (m.bare.stack.depth = 16) := rfl
  rw [call, hpush, Attempt.ok_bind, Chip8.execute, hfull]
  simp only [decide_eq_true_eq]
  rfl

theorem combine_bare (d : Dialect) (f : Operation) (m : Machine) (x y : Register) :
    combine d f m.bare x.val y.val = .ok (m.combine d f x y).bare := by
  rw [combine, reg_bare, reg_bare, Attempt.ok_bind, Attempt.ok_bind, Machine.combine]
  rcases f.apply d (m.reg x) (m.reg y) with ⟨value, _ | flag⟩
  · exact setReg_bare m x value
  · exact setWithFlag_bare m x value flag

/-- An address plus a byte fits sixteen bits, since an address in an instruction has only
twelve. -/
theorem jumpPlus_bare [ByteSource σ] (d : Dialect) (m : Machine) (x : Register) (base : UInt16)
    (hbase : base.toNat < 4096) (r : σ) :
    (do proceed (← jumpPlus d m.bare x.val base) r) =
      .ok (Chip8.execute d (.jumpPlus x base) m r).bare := by
  obtain ⟨offset, hoffset⟩ : ∃ offset, (if d.jumpAddsVx then m.reg x else m.reg .first) = offset :=
    ⟨_, rfl⟩
  have hreg : m.bare.reg (if d.jumpAddsVx then x.val else 0) = .ok offset := by
    rw [← hoffset]
    split
    · exact reg_bare m x
    · exact reg_bare m .first
  have hlt := offset.toNat_lt
  have hsum : UInt16.ofNat (base.toNat + offset.toNat) = base + offset.toUInt16 := by
    rw [UInt16.ofNat_add, UInt16.ofNat_toNat, UInt16.ofNat_uInt8ToNat]
  rw [jumpPlus, hreg, Attempt.ok_bind, fit_of_lt (by omega), Attempt.ok_bind, hsum, Chip8.execute,
    hoffset]
  rfl

theorem draw_bare (d : Dialect) (m : Machine) (x y : Register) (height : Fin 16) :
    draw d m.bare x.val y.val height.val = .ok (m.drawSprite d x y height).bare := by
  have hrows : ((List.range height.val).mapM fun row =>
      read m.bare.memory (m.bare.index + UInt16.ofNat row)) =
        .ok (m.memory.readRun m.index height.val) := by
    simp only [read_eq]
    exact List.mapM_pure
  have hlength : (m.memory.readRun m.index height.val).length < 2 ^ 63 := by
    rw [Memory.length_readRun]
    omega
  rw [draw, hrows, Attempt.ok_bind, reg_bare, Attempt.ok_bind, reg_bare, Attempt.ok_bind,
    drawSprite_eq _ _ _ _ _ hlength, Attempt.ok_bind]
  exact setReg_bare { m with display := (m.display.draw d.wrapSprites (m.reg x) (m.reg y)
    (m.memory.readRun m.index height.val)).1 } .flag _

theorem keyDown_bare (m : Machine) (x : Register) :
    keyDown m.bare x.val = .ok (m.keys.get (Keys.ofByte (m.reg x))) := by
  have hkey : (m.reg x &&& 0xF).toNat = (Keys.ofByte (m.reg x)).val := by
    rw [UInt8.toNat_and]
    exact Nat.and_two_pow_sub_one_eq_mod _ 4
  rw [keyDown, reg_bare, Attempt.ok_bind, hkey, entry_val]
  rfl

theorem glyph_bare (m : Machine) (x : Register) :
    glyph m.bare x.val = .ok { m with index := Font.glyphAddress (m.reg x) }.bare := by
  have hdigit : (m.reg x &&& 0xF).toNat = (m.reg x).toNat % 16 := by
    rw [UInt8.toNat_and]
    exact Nat.and_two_pow_sub_one_eq_mod _ 4
  rw [glyph, reg_bare, Attempt.ok_bind, hdigit, fit_of_lt (by omega), Attempt.ok_bind,
    fit_of_lt (by omega), Attempt.ok_bind, UInt16.ofNat_add]
  rfl

theorem writeFrom_eq (m : Memory) (start : UInt16) (offset : Nat) (values : List UInt8) :
    writeFrom m start offset values =
      .ok (m.writeRun (start + UInt16.ofNat offset) values) := by
  induction values generalizing m offset with
  | nil => rfl
  | cons value values ih =>
      rw [writeFrom, write_eq, Attempt.ok_bind, ih, UInt16.ofNat_add, ← UInt16.add_assoc]
      rfl

theorem decimal_bare (m : Machine) (x : Register) :
    decimal m.bare x.val =
      .ok { m with memory := m.memory.writeRun m.index (Machine.decimalDigits (m.reg x)) }.bare := by
  have hstart : m.index + UInt16.ofNat 0 = m.index := UInt16.add_zero m.index
  rw [decimal, reg_bare, Attempt.ok_bind, writeFrom_eq, Attempt.ok_bind]
  simp only [Machine.bare, hstart]
  rfl

theorem advance_bare (d : Dialect) (m : Machine) (x : Register) :
    advance d m.bare x.val = .ok { m with index := m.indexAfterTransfer d x }.bare := by
  have hx := x.isLt
  rw [advance, Machine.indexAfterTransfer]
  by_cases hleave : d.memoryLeaveIUnchanged
  · rw [if_pos hleave, if_pos hleave]
  · rw [if_neg hleave, if_neg hleave, fit_of_lt (by omega)]
    by_cases hshort : d.memoryIncrementByX
    · rw [if_pos hshort, if_pos hshort]
      rfl
    · rw [if_neg hshort, if_neg hshort]
      rfl

/-- A run of bytes is written last byte last. -/
theorem writeRun_concat (m : Memory) (start : UInt16) (values : List UInt8) (value : UInt8) :
    m.writeRun start (values ++ [value]) =
      (m.writeRun start values).write (start + UInt16.ofNat values.length) value := by
  induction values generalizing m start with
  | nil => simp [Memory.writeRun]
  | cons v values ih =>
      rw [List.cons_append, Memory.writeRun, ih, List.length_cons, Nat.add_comm, UInt16.ofNat_add,
        UInt16.add_assoc]
      rfl

/-- What `FX55` has written after the first registers. -/
theorem store_loop_bare (m : Machine) (count : Nat) (hcount : count ≤ 16) :
    ((List.range count).foldlM (fun memory register => do
      let value ← m.bare.reg register
      write memory (m.bare.index + UInt16.ofNat register) value) m.bare.memory) =
        .ok (m.memory.writeRun m.index (m.registers.toList.take count)) := by
  induction count with
  | zero => rfl
  | succ count ih =>
      have hlt : count < m.registers.toList.length := by
        rw [Vector.length_toList]
        omega
      have htake : (m.registers.toList.take count).length = count := by
        rw [List.length_take]
        omega
      rw [List.range_succ, List.foldlM_append, ih (by omega), Attempt.ok_bind,
        List.take_add_one, List.getElem?_eq_getElem hlt, Option.toList_some, writeRun_concat, htake]
      simp only [List.foldlM_cons, List.foldlM_nil, write_eq]
      rw [State.reg, entry_of_lt _ (by omega)]
      rfl

theorem store_bare (d : Dialect) (m : Machine) (x : Register) :
    store d m.bare x.val = .ok (m.store d x).bare := by
  have hx := x.isLt
  rw [store, store_loop_bare m (x.val + 1) (by omega), Attempt.ok_bind]
  exact advance_bare d { m with
    memory := m.memory.writeRun m.index (m.registers.toList.take (x.val + 1)) } x

/-- What `FX65` has read after the first registers. -/
theorem load_loop_bare (m : Machine) (count : Nat) (hcount : count ≤ 16) :
    ((List.range count).foldlM (fun registers register => do
      let value ← read m.bare.memory (m.bare.index + UInt16.ofNat register)
      replace registers register value) m.bare.registers) =
        .ok (Vector.ofFn fun r : Register =>
          if r.val < count then m.memory.read (m.index + UInt16.ofNat r.val) else m.reg r) := by
  induction count with
  | zero =>
      refine congrArg Except.ok (Vector.ext fun i hi => ?_)
      rw [Vector.getElem_ofFn, if_neg (Nat.not_lt_zero _)]
      rfl
  | succ count ih =>
      rw [List.range_succ, List.foldlM_append, ih (by omega), Attempt.ok_bind]
      simp only [List.foldlM_cons, List.foldlM_nil, read_eq, Attempt.ok_bind]
      rw [replace_of_lt _ _ (by omega)]
      refine congrArg Except.ok (Vector.ext fun i hi => ?_)
      rw [Vector.getElem_set, Vector.getElem_ofFn, Vector.getElem_ofFn]
      by_cases hlast : count = i
      · subst hlast
        rw [if_pos rfl, if_pos (Nat.lt_succ_self _)]
        rfl
      · have hiff : i < count + 1 ↔ i < count := by omega
        simp only [if_neg hlast, hiff]

theorem load_bare (d : Dialect) (m : Machine) (x : Register) :
    load d m.bare x.val = .ok (m.fetch d x).bare := by
  have hx := x.isLt
  have hle : ∀ r : Register, r.val < x.val + 1 ↔ r ≤ x := fun r => Nat.lt_succ_iff
  rw [load, load_loop_bare m (x.val + 1) (by omega), Attempt.ok_bind]
  simp only [hle]
  exact advance_bare d { m with
    registers := Vector.ofFn fun r : Register =>
      if r ≤ x then m.memory.read (m.index + UInt16.ofNat r.val) else m.reg r } x

/-! ## Words -/

/-- The result of a word that may be an instruction. -/
def resultOf [ByteSource σ] (d : Dialect) (word : UInt16) (m : Machine) (r : σ) :
    Option Instruction → Result σ
  | some i => (Chip8.execute d i m r).bare
  | none => ⟨m.bare, r, .proceed, [.unknownWord word (m.pc - 2)]⟩

/-- A word that does not stop the machine is executed if it is an instruction. -/
theorem bare_executeWord [ByteSource σ] {d : Dialect} {w : UInt16}
    (h : ¬(w = 0 ∧ d.haltOnZero)) (m : Machine) (r : σ) :
    (executeWord d w m r).bare = resultOf d w m r (Instruction.decode w) := by
  rw [executeWord, if_neg h]
  cases Instruction.decode w <;> rfl

/-- Words are compared digit by digit. -/
theorem word_eq_iff (w v : UInt16) :
    w = v ↔ Word.family w = Word.family v ∧ Word.x w = Word.x v ∧ Word.y w = Word.y v ∧
      Word.n w = Word.n v := by
  constructor
  · rintro rfl
    exact ⟨rfl, rfl, rfl, rfl⟩
  · rintro ⟨hfamily, hx, hy, hn⟩
    apply UInt16.toNat_inj.1
    rw [Word.toNat_eq_digits w, Word.toNat_eq_digits v, hfamily, hx, hy, hn]

theorem miscellaneous_bare [ByteSource σ] (d : Dialect) (word : UInt16) (m : Machine) (r : σ)
    (x : Register) (nn : Nat) :
    miscellaneous d word m.bare r x.val nn =
      .ok (resultOf d word m r (Instruction.ofMiscellaneous? x nn)) := by
  fun_cases Instruction.ofMiscellaneous? x nn with
  | case1 =>
      rw [miscellaneous, setReg_bare]
      rfl
  | case2 =>
      simp only [miscellaneous, setReg_bare, Attempt.ok_bind, resultOf, Chip8.execute]
      have hkeys : m.bare.keys.lowest? = m.keys.lowest? := rfl
      rw [hkeys]
      cases m.keys.lowest? <;> rfl
  | case3 | case4 | case5 =>
      rw [miscellaneous, reg_bare]
      rfl
  | case6 =>
      rw [miscellaneous, glyph_bare]
      rfl
  | case7 =>
      rw [miscellaneous, decimal_bare]
      rfl
  | case8 =>
      rw [miscellaneous, store_bare]
      rfl
  | case9 =>
      rw [miscellaneous, load_bare]
      rfl
  | case10 =>
      rw [miscellaneous]
      · rfl
      all_goals assumption

/-- The words of family `0` that name no instruction.  One of them may stop the machine. -/
theorem execute_family_zero [ByteSource σ] (d : Dialect) (w : UInt16) (m : Machine) (r : σ)
    (hfamily : Word.family w = 0) :
    execute d (Fields.ofWord w) m.bare r = .ok (executeWord d w m r).bare := by
  have hdigits : ∀ v : UInt16, Word.family v = 0 →
      (w = v ↔ (Word.x w).val = (Word.x v).val ∧ (Word.y w).val = (Word.y v).val ∧
        (Word.n w).val = (Word.n v).val) := by
    intro v hv
    simp only [word_eq_iff w v, hfamily, hv, true_and, Fin.ext_iff]
  have hclear : w = 0x00E0 ↔
      (Word.x w).val = 0x0 ∧ (Word.y w).val = 0xE ∧ (Word.n w).val = 0x0 :=
    hdigits 0x00E0 (by decide)
  have hret : w = 0x00EE ↔
      (Word.x w).val = 0x0 ∧ (Word.y w).val = 0xE ∧ (Word.n w).val = 0xE :=
    hdigits 0x00EE (by decide)
  have hzero : w = 0x0000 ↔
      (Word.x w).val = 0x0 ∧ (Word.y w).val = 0x0 ∧ (Word.n w).val = 0x0 :=
    hdigits 0x0000 (by decide)
  rw [ofWord_eq]
  simp only [execute, hfamily]
  by_cases hw : w = 0x00E0
  · rw [if_pos (hclear.1 hw), hw]
    rfl
  rw [if_neg (fun h => hw (hclear.2 h))]
  by_cases hw' : w = 0x00EE
  · rw [if_pos (hret.1 hw'), hw', ret_bare d]
    rfl
  rw [if_neg (fun h => hw' (hret.2 h))]
  by_cases hhalt : w = 0 ∧ d.haltOnZero
  · rw [if_pos ⟨hzero.1 hhalt.1, hhalt.2⟩, executeWord, if_pos hhalt]
    rfl
  · rw [if_neg (fun h => hhalt ⟨hzero.2 h.1, h.2⟩), bare_executeWord hhalt]
    simp only [Instruction.decode, hfamily, if_neg hw, if_neg hw']
    rfl

/-- **Every word is executed without a fault**, from every machine and under every dialect,
with the outcome that it has for the machine. -/
theorem execute_bare [ByteSource σ] (d : Dialect) (w : UInt16) (m : Machine) (r : σ) :
    execute d (Fields.ofWord w) m.bare r = .ok (executeWord d w m r).bare := by
  by_cases hfamily : Word.family w = 0
  · exact execute_family_zero d w m r hfamily
  have hhalt : ¬(w = 0 ∧ d.haltOnZero) := by
    rintro ⟨rfl, -⟩
    exact hfamily rfl
  rw [ofWord_eq, bare_executeWord hhalt]
  -- One case for each answer of `decode`: the family of the word says which instruction is
  -- executed, and each of them has been dealt with above.
  fun_cases Instruction.decode w with
  | case1 h | case2 h | case3 h => exact absurd h hfamily
  | case4 h | case15 h =>
      simp only [execute, h]
      rfl
  | case5 h =>
      simp only [execute, h, call_bare d]
      rfl
  | case6 h | case7 h =>
      simp only [execute, h, reg_bare, Attempt.ok_bind, skipIf_bare]
      rfl
  | case8 h hn | case13 h hn =>
      simp only [execute, h, hn, reg_bare, Attempt.ok_bind, skipIf_bare]
      rfl
  | case9 h hn | case14 h hn =>
      have hn' : ¬(Word.n w).val = 0 := fun e => hn (Fin.ext e)
      simp only [execute, h, if_neg hn']
      rfl
  | case10 h | case17 h =>
      simp only [execute, h, setReg_bare]
      rfl
  | case11 h =>
      simp only [execute, h, reg_bare, setReg_bare, Attempt.ok_bind]
      rfl
  | case12 h =>
      simp only [execute, h]
      cases Operation.ofDigit? (Word.n w).val with
      | some f =>
          simp only [combine_bare]
          rfl
      | none => rfl
  | case16 h =>
      have hnnn : (Word.nnn w).toNat < 4096 := by
        rw [Word.toNat_nnn]
        omega
      simp only [execute, h, jumpPlus_bare d m _ _ hnnn]
      rfl
  | case18 h =>
      simp only [execute, h, draw_bare]
      rfl
  | case19 h hnn =>
      simp only [execute, h, hnn, keyDown_bare, Attempt.ok_bind, skipIf_bare]
      rfl
  | case20 h hnn hnn' =>
      simp only [execute, h, hnn', keyDown_bare, Attempt.ok_bind, skipIf_bare]
      rfl
  | case21 h hnn hnn' =>
      simp only [execute, h, if_neg hnn, if_neg hnn']
      rfl
  | case22 =>
      have hlt := Word.family_lt w
      have h : Word.family w = 0xF := by grind
      simp only [execute, h]
      exact miscellaneous_bare d w m r (Word.x w) (Word.nn w).toNat

/-! ## Steps and cycles -/

/-- A step is taken without a fault. -/
theorem step_bare [ByteSource σ] (d : Dialect) (m : Machine) (r : σ) :
    step d m.bare r = .ok (Chip8.step d m r).bare := by
  have hword : readWord m.bare.memory m.bare.pc = .ok (m.memory.readWord m.pc) :=
    readWord_eq m.memory m.pc
  rw [step, hword, Attempt.ok_bind]
  show (execute d (Fields.ofWord _) { m with pc := m.pc + 2 }.bare r >>= fun result =>
    Except.ok (result.behind [.executing m.pc (m.memory.readWord m.pc)])) = _
  rw [execute_bare, Attempt.ok_bind]
  rfl

/-- A step from any state whose stack is not too deep is taken without a fault, and the
stack is not too deep afterwards. -/
theorem exists_step_of_depth_le [ByteSource σ] (d : Dialect) {s : State}
    (h : s.stack.depth ≤ 16) (r : σ) :
    ∃ result, step d s r = .ok result ∧ result.state.stack.depth ≤ 16 := by
  obtain ⟨m, rfl⟩ := (exists_bare_eq_iff s).2 h
  exact ⟨_, step_bare d m r, (Chip8.step d m r).machine.stack.depth_le⟩

/-- Cycles are taken without a fault, and a run that goes on for as many ends as they do, whatever
its length and its notices are so far. -/
theorem exists_cycles_behind [ByteSource σ] (d : Dialect) (n : Nat) (m : Machine) (r : σ) :
    ∃ result, cycles d n m.bare r = .ok result ∧ ∀ steps notices,
      (Run.extend d n ⟨m, r, .proceed, steps, notices⟩).bare = result.behind notices.toList := by
  induction n generalizing m r with
  | zero =>
      refine ⟨⟨m.bare, r, .proceed, []⟩, rfl, fun steps notices => ?_⟩
      rw [Result.behind, List.append_nil]
      rfl
  | succ n ih =>
      obtain ⟨rest, hrest, hbare⟩ := ih (Chip8.step d m r).machine (Chip8.step d m r).source
      rw [cycles, step_bare, Attempt.ok_bind]
      by_cases hsignal : (Chip8.step d m r).signal = .proceed
      · refine ⟨rest.behind (Chip8.step d m r).notices, ?_, fun steps notices => ?_⟩
        · simp only [Outcome.bare, hsignal, hrest, Attempt.ok_bind]
        · rw [Run.extend, hsignal, hbare, Array.toList_appendList, Result.behind_behind]
      · refine ⟨(Chip8.step d m r).bare, ?_, fun steps notices => ?_⟩
        · split
          · next hproceed => exact absurd hproceed hsignal
          · rfl
        · rw [Run.extend, Run.extend_of_signal_ne d n hsignal, Run.bare, Array.toList_appendList]
          rfl

/-- Any number of steps is taken without a fault, and their reports come one after the other. -/
theorem cycles_bare [ByteSource σ] (d : Dialect) (n : Nat) (m : Machine) (r : σ) :
    cycles d n m.bare r = .ok (run d n m r).bare := by
  obtain ⟨result, hresult, hbare⟩ := exists_cycles_behind d n m r
  rw [hresult, run, hbare]
  rfl

/-- Any number of steps from any state whose stack is not too deep is taken without a fault,
and the stack is not too deep afterwards. -/
theorem exists_cycles_of_depth_le [ByteSource σ] (d : Dialect) (n : Nat) {s : State}
    (h : s.stack.depth ≤ 16) (r : σ) :
    ∃ result, cycles d n s r = .ok result ∧ result.state.stack.depth ≤ 16 := by
  obtain ⟨m, rfl⟩ := (exists_bare_eq_iff s).2 h
  exact ⟨_, cycles_bare d n m r, (run d n m r).machine.stack.depth_le⟩

end Guarded
end Chip8
