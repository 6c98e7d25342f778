import Chip8.Proofs.Execution.Addresses
import Chip8.Proofs.Execution.Arithmetic
import Chip8.Proofs.Execution.Stopping

/-!
# Where a program goes on

The program counter is moved past a word before the word is executed, and what the word does to it
comes on top of that: it is replaced by a jump, a call or a return, moved once more by a skip, and
moved back by an instruction that waits.  This file says where it is in the end, for every word and
every address.

`Machine.continuation` is the answer, as a number and in terms of the machine before the step.  It
goes by the pattern of the word and not by its decoding, so the words that are no instructions need
no mention: they are among those that simply go on with the next word.  Which these are is known from
the families (`continuation_of_straight`), and the rest is one lemma for the skips
(`toNat_pc_skipIf`) and one case for each of the four words that go elsewhere.

The two ways to stop are treated elsewhere, and are put together with this one in
`step_control_flow`.
-/

namespace Chip8

open Word (family x y n nn nnn IsE)

namespace Machine

/-- The word is a skip, and its condition holds. -/
def Skips (m : Machine) (w : UInt16) : Prop :=
  (family w = 0x3 ∧ m.reg (x w) = nn w) ∨
    (family w = 0x4 ∧ m.reg (x w) ≠ nn w) ∨
    (family w = 0x5 ∧ (n w).val = 0x0 ∧ m.reg (x w) = m.reg (y w)) ∨
    (family w = 0x9 ∧ (n w).val = 0x0 ∧ m.reg (x w) ≠ m.reg (y w)) ∨
    (IsE w 0x9E ∧ m.keys.get (Keys.ofByte (m.reg (x w))) = true) ∨
    (IsE w 0xA1 ∧ m.keys.get (Keys.ofByte (m.reg (x w))) = false)

instance (m : Machine) (w : UInt16) : Decidable (m.Skips w) :=
  inferInstanceAs (Decidable (_ ∨ _))

/-- Where a program goes on after a word under the program counter, if the word does not stop it. -/
def continuation (d : Dialect) (m : Machine) (w : UInt16) : Nat :=
  if family w = 0x1 ∨ family w = 0x2 then w.toNat % 4096
  else if family w = 0xB then
    w.toNat % 4096 + (m.reg (if d.jumpAddsVx then x w else .first)).toNat
  else if w = 0x00EE then (m.stack.live.getLast?.map UInt16.toNat).getD ((m.pc.toNat + 2) % 65536)
  else if m.Skips w then (m.pc.toNat + 4) % 65536
  else (m.pc.toNat + 2) % 65536

variable {d : Dialect} {m : Machine} {w : UInt16}

/-- Words of these families neither go elsewhere nor skip. -/
theorem continuation_of_straight (hw : family w ∈ [0x6, 0x7, 0x8, 0xA, 0xC, 0xD, 0xF]) :
    m.continuation d w = (m.pc.toNat + 2) % 65536 := by
  have hret : w ≠ 0x00EE := by
    rintro rfl
    revert hw
    decide
  simp only [List.mem_cons, List.not_mem_nil, or_false] at hw
  rcases hw with hw | hw | hw | hw | hw | hw | hw <;>
    simp [continuation, Skips, IsE, hw, hret]

/-- Words of these families skip or do not. -/
theorem continuation_of_family (hw : family w ∈ [0x3, 0x4, 0x5, 0x9, 0xE]) :
    m.continuation d w =
      if m.Skips w then (m.pc.toNat + 4) % 65536 else (m.pc.toNat + 2) % 65536 := by
  have hret : w ≠ 0x00EE := by
    rintro rfl
    revert hw
    decide
  simp only [List.mem_cons, List.not_mem_nil, or_false] at hw
  rcases hw with hw | hw | hw | hw | hw <;> simp [continuation, hw, hret]

theorem toNat_pc_next : (m.pc + 2).toNat = (m.pc.toNat + 2) % 65536 :=
  UInt16.toNat_add m.pc 2

/-- A skip is a second move of the program counter. -/
theorem toNat_pc_skipIf {c : Bool} (hw : family w ∈ [0x3, 0x4, 0x5, 0x9, 0xE])
    (hc : c = true ↔ m.Skips w) :
    (({ m with pc := m.pc + 2 } : Machine).skipIf c).pc.toNat = m.continuation d w := by
  rw [continuation_of_family hw]
  cases c with
  | true =>
      rw [if_pos (hc.mp rfl)]
      show (m.pc + 2 + 2).toNat = _
      rw [UInt16.toNat_add, toNat_pc_next]
      exact Nat.mod_add_mod (m.pc.toNat + 2) 65536 2
  | false =>
      rw [if_neg fun hskips => Bool.noConfusion (hc.mpr hskips)]
      exact toNat_pc_next

/-- A return goes on at the address on top of the stack. -/
theorem toNat_pc_pop (m : Machine) (d : Dialect) {address : UInt16} {stack : CallStack}
    (h : m.stack.pop? = some (address, stack)) : address.toNat = m.continuation d 0x00EE := by
  have hlast : m.stack.live.getLast? = some address := by
    rw [CallStack.live_eq_of_pop? h, List.getLast?_concat]
  rw [continuation, if_neg (by decide), if_neg (by decide), if_pos rfl, hlast]
  rfl

theorem toNat_pc_of_pop_eq_none (m : Machine) (d : Dialect) (h : m.stack.pop? = none) :
    (m.pc + 2).toNat = m.continuation d 0x00EE := by
  have hlive : m.stack.live = [] := (CallStack.pop?_eq_none_iff _).mp h
  rw [continuation, if_neg (by decide), if_neg (by decide), if_pos rfl, hlive]
  exact toNat_pc_next

/-- An address in a word has twelve bits, and its sum with a byte is exact. -/
theorem toNat_pc_jumpPlus (m : Machine) (d : Dialect) (hw : family w = 0xB) :
    (nnn w + (if d.jumpAddsVx then m.reg (x w) else m.reg .first).toUInt16).toNat =
      m.continuation d w := by
  have hfamilies : ¬(family w = 0x1 ∨ family w = 0x2) := by
    rw [hw]
    decide
  rw [continuation, if_neg hfamilies, if_pos hw, apply_ite m.reg]
  generalize (if d.jumpAddsVx = true then m.reg (x w) else m.reg .first) = offset
  have hoffset := offset.toNat_lt
  rw [UInt16.toNat_add, Word.toNat_nnn, UInt8.toNat_toUInt16]
  omega

variable {σ : Type} [ByteSource σ]

/-- **Every instruction goes where its word says**, unless it waits. -/
theorem toNat_pc_execute {i : Instruction} (hi : i.NamedBy w) (d : Dialect) (m : Machine) (s : σ)
    (hgo : (execute d i { m with pc := m.pc + 2 } s).signal = .proceed) :
    (execute d i { m with pc := m.pc + 2 } s).machine.pc.toNat = m.continuation d w := by
  cases i with
  | jump a =>
      obtain ⟨hw, rfl⟩ := hi
      rw [continuation, if_pos (Or.inl hw)]
      exact Word.toNat_nnn w
  | call a =>
      obtain ⟨hw, rfl⟩ := hi
      rw [continuation, if_pos (Or.inr hw)]
      exact Word.toNat_nnn w
  | jumpPlus r a =>
      obtain ⟨hw, rfl, rfl⟩ := hi
      exact m.toNat_pc_jumpPlus d hw
  | ret =>
      obtain rfl := hi
      simp only [execute]
      cases hpop : m.stack.pop? with
      | none => exact m.toNat_pc_of_pop_eq_none d hpop
      | some popped => exact m.toNat_pc_pop d hpop
  | skipIfValue r v | skipUnlessValue r v =>
      obtain ⟨hw, rfl, rfl⟩ := hi
      refine toNat_pc_skipIf (by simp [hw]) ?_
      simp [Skips, hw, IsE, reg]
  | skipIfSame r q | skipUnlessSame r q =>
      obtain ⟨hw, hn, rfl, rfl⟩ := hi
      refine toNat_pc_skipIf (by simp [hw]) ?_
      simp [Skips, hw, hn, IsE, reg]
  | skipIfKey r =>
      obtain ⟨⟨hw, hnn⟩, rfl⟩ := hi
      refine toNat_pc_skipIf (by simp [hw]) ?_
      show m.keys.get (Keys.ofByte (m.reg (x w))) = true ↔ _
      simp [Skips, hw, hnn, IsE]
  | skipUnlessKey r =>
      obtain ⟨⟨hw, hnn⟩, rfl⟩ := hi
      refine toNat_pc_skipIf (by simp [hw]) ?_
      show (!m.keys.get (Keys.ofByte (m.reg (x w)))) = true ↔ _
      simp [Skips, hw, hnn, IsE]
  | awaitKey r =>
      obtain ⟨⟨hw, -⟩, rfl⟩ := hi
      rw [continuation_of_straight (by simp [hw])]
      simp only [execute] at hgo ⊢
      cases hkeys : m.keys.lowest? with
      | none =>
          simp only [hkeys] at hgo
          cases hgo
      | some key => exact toNat_pc_next
  | clear =>
      obtain rfl := hi
      have hskips : ¬m.Skips 0x00E0 := by
        have hfamily : family 0x00E0 = 0x0 := by decide
        simp [Skips, hfamily, IsE]
      rw [continuation, if_neg (by decide), if_neg (by decide), if_neg (by decide), if_neg hskips]
      exact toNat_pc_next
  | combine f r q =>
      obtain ⟨⟨hw, -⟩, rfl, rfl⟩ := hi
      rw [continuation_of_straight (by simp [hw]), ← toNat_pc_next]
      exact congrArg (fun m' : Machine => m'.pc.toNat) (combine_eq_withRegisters _ d f (x w) (y w))
  | set | increase | setIndex | random | draw =>
      rw [continuation_of_straight (by simp [hi.1])]
      exact toNat_pc_next
  | readDelay | setDelay | setSound | increaseIndex | glyph | decimal | store | load =>
      rw [continuation_of_straight (by simp [hi.1.1])]
      exact toNat_pc_next

end Machine

/-! ## Words and steps -/

namespace Machine

/-- A word that is no instruction is stepped over. -/
theorem continuation_of_decode_eq_none (m : Machine) (d : Dialect)
    (h : Instruction.decode w = none) : m.continuation d w = (m.pc.toNat + 2) % 65536 := by
  have hunnamed : ∀ i : Instruction, ¬i.NamedBy w := by
    intro i hi
    rw [(Instruction.decode_eq_some_iff w i).mpr hi] at h
    cases h
  have hskips : ¬m.Skips w := by
    rintro (⟨hw, -⟩ | ⟨hw, -⟩ | ⟨hw, hn, -⟩ | ⟨hw, hn, -⟩ | ⟨hw, -⟩ | ⟨hw, -⟩)
    · exact hunnamed (.skipIfValue (x w) (nn w)) ⟨hw, rfl, rfl⟩
    · exact hunnamed (.skipUnlessValue (x w) (nn w)) ⟨hw, rfl, rfl⟩
    · exact hunnamed (.skipIfSame (x w) (y w)) ⟨hw, hn, rfl, rfl⟩
    · exact hunnamed (.skipUnlessSame (x w) (y w)) ⟨hw, hn, rfl, rfl⟩
    · exact hunnamed (.skipIfKey (x w)) ⟨hw, rfl⟩
    · exact hunnamed (.skipUnlessKey (x w)) ⟨hw, rfl⟩
  have hjumps : ¬(family w = 0x1 ∨ family w = 0x2) := by
    rintro (hw | hw)
    · exact hunnamed (.jump (nnn w)) ⟨hw, rfl⟩
    · exact hunnamed (.call (nnn w)) ⟨hw, rfl⟩
  have hsums : family w ≠ 0xB := fun hw => hunnamed (.jumpPlus (x w) (nnn w)) ⟨hw, rfl, rfl⟩
  have hreturns : w ≠ 0x00EE := fun hw => hunnamed .ret hw
  rw [continuation, if_neg hjumps, if_neg hsums, if_neg hreturns, if_neg hskips]

/-- An exact sum of an address and a byte does not overflow sixteen bits. -/
theorem continuation_le_of_family (m : Machine) (d : Dialect) (hw : family w = 0xB) :
    m.continuation d w ≤ 0x10FE := by
  have hfamilies : ¬(family w = 0x1 ∨ family w = 0x2) := by
    rw [hw]
    decide
  have hbyte := (m.reg (if d.jumpAddsVx then x w else .first)).toNat_lt
  rw [continuation, if_neg hfamilies, if_pos hw]
  omega

end Machine

variable {σ : Type} [ByteSource σ]

/-- **A step goes where its word says**, unless the word stops it. -/
theorem toNat_pc_step (d : Dialect) (m : Machine) (s : σ) (hgo : (step d m s).signal = .proceed) :
    (step d m s).machine.pc.toNat = m.continuation d (m.memory.readWord m.pc) := by
  change (executeWord d (m.memory.readWord m.pc) { m with pc := m.pc + 2 } s).signal = _ at hgo
  show (executeWord d (m.memory.readWord m.pc) { m with pc := m.pc + 2 } s).machine.pc.toNat = _
  rcases executeWord_cases d (m.memory.readWord m.pc) { m with pc := m.pc + 2 } s with
    ⟨hmachine, -, -, hdecode⟩ | ⟨i, hi, heq⟩
  · rw [hmachine, m.continuation_of_decode_eq_none d hdecode]
    exact Machine.toNat_pc_next
  · rw [heq] at hgo ⊢
    exact Machine.toNat_pc_execute hi d m s hgo

/-- A step that stops the machine for good moves the program counter and does nothing else. -/
theorem step_of_halts (d : Dialect) (m : Machine) (s : σ) (h : (step d m s).signal = .halt) :
    (step d m s).machine = { m with pc := m.pc + 2 } ∧ (step d m s).source = s := by
  have hzero := (signal_step_eq_halt_iff d m s).mp h
  simp only [step, executeWord, if_pos hzero, and_self]

/-- **The control flow of a step.**  Let `w` be the word under the program counter: two bytes, the
more significant one first, and the second from the first cell of memory if the first is in the last.

* The step asks to stop for good exactly if `w` is `0000` and the dialect stops on it.  Then the
  program counter has been moved past the word, and nothing else has changed.
* It asks to wait exactly if `w` is `FX0A` and no key is down.  Then nothing at all has changed.
* In every other case it asks to go on, and the program counter is where `Machine.continuation` says:
  at `NNN` after `1NNN` and `2NNN`; at the sum of `NNN` and a register after `BNNN`, which does not
  overflow; at the address on top of the stack after `00EE`, if there is one; four on after a skip
  whose condition held before the step; and two on after any other word, instruction or not. -/
theorem step_control_flow (d : Dialect) (m : Machine) (s : σ) :
    let w := m.memory.readWord m.pc
    let o := step d m s
    w.toNat = (m.memory.beyond m.pc 0).toNat * 256 + (m.memory.beyond m.pc 1).toNat ∧
      (o.signal = .halt ↔ w = 0x0000 ∧ d.haltOnZero = true) ∧
      (o.signal = .halt → o.machine = { m with pc := m.pc + 2 } ∧ o.source = s) ∧
      (o.signal = .awaitKey ↔ Word.IsF w 0x0A ∧ m.keys = .released) ∧
      (o.signal = .awaitKey → o.machine = m ∧ o.source = s) ∧
      (o.signal = .proceed → o.machine.pc.toNat = m.continuation d w) ∧
      (family w = 0xB → m.continuation d w ≤ 0x10FE) := by
  intro w o
  have hwaits : o.signal = .awaitKey ↔ m.Waits := signal_step_eq_awaitKey_iff d m s
  refine ⟨?word, signal_step_eq_halt_iff d m s, step_of_halts d m s, hwaits.trans ?waits, ?still,
    toNat_pc_step d m s, m.continuation_le_of_family d⟩
  case word =>
    have hfirst : m.pc + UInt16.ofNat 0 = m.pc := UInt16.add_zero m.pc
    rw [Memory.beyond_eq, Memory.beyond_eq, hfirst]
    exact Word.toNat_ofBytes _ _
  case waits =>
    exact ⟨fun h => ⟨⟨h.family, h.low⟩, h.keys⟩, fun h => ⟨h.1.1, h.1.2, h.2⟩⟩
  case still =>
    intro h
    obtain ⟨hmachine, hsource, -⟩ := step_of_waits d (hwaits.mp h) s
    exact ⟨hmachine, hsource⟩

end Chip8
