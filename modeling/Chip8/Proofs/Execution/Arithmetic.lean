import Chip8.Proofs.Instruction.Naming
import Mathlib.Data.Int.Notation

/-!
# Register arithmetic on numbers

The `8XYn` words compute with bytes, and what a byte cannot hold goes into the flag register: the
carry of a sum, the borrow of a difference, the bit that a shift pushes out.  Nothing is lost in
this way.  Result and flag together determine what the operation would give for numbers of any size,
and `Operation.Exact` is the equation that says so, one for each operation.

The flag register may itself be an operand, or the target, or both.  The operands are read before
anything is written, so the equations are about the values from before in every case.  If the target
is the flag register, then the flag is written over the result (`Machine.reg_combine_flag`), and only
an operation that leaves the flag alone leaves its result there.
-/

namespace Chip8

namespace Operation

/-- What an operation on the numbers `a` in `VX` and `b` in `VY` puts into the flag register, if it
does not leave it alone. -/
def flag? (d : Dialect) (a b : Nat) : Operation → Option Nat
  | copy => none
  | or | and | xor => if d.vfReset then some 0 else none
  | add => some (if 255 < a + b then 1 else 0)
  | subtract => some (if b ≤ a then 1 else 0)
  | shiftRight => some ((if d.shiftUsesVx then a else b) % 2)
  | subtractFrom => some (if a ≤ b then 1 else 0)
  | shiftLeft => some ((if d.shiftUsesVx then a else b) / 128)

/-- The equation between the operands `a` and `b` of an operation, its result `v` and the flag `c`.
Only the equations of the operations that set the flag have it in them. -/
def Exact (d : Dialect) (a b v c : Nat) : Operation → Prop
  | copy => v = b
  | or => v = a ||| b
  | and => v = a &&& b
  | xor => v = a ^^^ b
  | add => v + 256 * c = a + b
  | subtract => (v : ℤ) = a - b + 256 * (1 - c)
  | shiftRight => 2 * v + c = if d.shiftUsesVx then a else b
  | subtractFrom => (v : ℤ) = b - a + 256 * (1 - c)
  | shiftLeft => v + 256 * c = 2 * if d.shiftUsesVx then a else b

theorem toNat_decide (p : Prop) [Decidable p] : (decide p).toNat = if p then 1 else 0 := by
  by_cases h : p
  · rw [decide_eq_true h, if_pos h, Bool.toNat_true]
  · rw [decide_eq_false h, if_neg h, Bool.toNat_false]

/-- **The flag that an operation sets** is the one of the table. -/
theorem flag?_toNat (d : Dialect) (f : Operation) (a b : UInt8) :
    f.flag? d a.toNat b.toNat = (f.apply d a b).2.map Bool.toNat := by
  cases f with
  | copy => rfl
  | or | and | xor =>
      simp only [flag?, apply]
      cases d.vfReset <;> rfl
  | add | subtract | subtractFrom =>
      simp only [flag?, apply, Option.map_some, toNat_decide]
  | shiftRight =>
      simp only [flag?, apply, Option.map_some, toNat_decide, ← apply_ite UInt8.toNat]
      generalize (if d.shiftUsesVx = true then a else b) = shifted
      congr 1
      split <;> omega
  | shiftLeft =>
      simp only [flag?, apply, Option.map_some, toNat_decide, ← apply_ite UInt8.toNat]
      generalize (if d.shiftUsesVx = true then a else b) = shifted
      have hlt := shifted.toNat_lt
      congr 1
      split <;> omega

/-- **The byte that comes of an operation satisfies its equation**, with the flag that it sets. -/
theorem exact_apply (d : Dialect) (f : Operation) (a b : UInt8) {c : Nat}
    (hc : ∀ flag, f.flag? d a.toNat b.toNat = some flag → c = flag) :
    f.Exact d a.toNat b.toNat (f.apply d a b).1.toNat c := by
  have ha := a.toNat_lt
  have hb := b.toNat_lt
  cases f with
  | copy => rfl
  | or => exact UInt8.toNat_or a b
  | and => exact UInt8.toNat_and a b
  | xor => exact UInt8.toNat_xor a b
  | add =>
      have hcarry := hc _ rfl
      simp only [Exact, apply, UInt8.toNat_add]
      split at hcarry <;> omega
  | subtract | subtractFrom =>
      have hborrow := hc _ rfl
      simp only [Exact, apply, UInt8.toNat_sub]
      split at hborrow <;> omega
  | shiftRight =>
      have hbit := hc _ rfl
      simp only [Exact, apply, ← apply_ite UInt8.toNat] at hbit ⊢
      generalize (if d.shiftUsesVx = true then a else b) = shifted at hbit ⊢
      have hhalf : (shifted / 2).toNat = shifted.toNat / 2 := UInt8.toNat_div shifted 2
      omega
  | shiftLeft =>
      have hbit := hc _ rfl
      simp only [Exact, apply, ← apply_ite UInt8.toNat] at hbit ⊢
      generalize (if d.shiftUsesVx = true then a else b) = shifted at hbit ⊢
      have hlt := shifted.toNat_lt
      have hdouble : (shifted * 2).toNat = shifted.toNat * 2 % 256 := UInt8.toNat_mul shifted 2
      omega

end Operation

/-! ## Two registers, which may be one -/

namespace Machine

variable (m : Machine) (d : Dialect) (f : Operation) (x y : Register)

/-- The target holds the result, unless the flag is written over it. -/
theorem reg_combine_target
    (h : x = .flag → (f.apply d (m.reg x) (m.reg y)).2 = none) :
    (m.combine d f x y).reg x = (f.apply d (m.reg x) (m.reg y)).1 := by
  unfold combine
  rcases happly : f.apply d (m.reg x) (m.reg y) with ⟨value, _ | flag⟩
  · exact (m.reg_setReg x x value).trans (if_pos rfl)
  · have hx : Register.flag ≠ x := by
      rintro rfl
      rw [happly] at h
      exact absurd (h rfl) (Option.some_ne_none flag)
    show ((m.setReg x value).setReg .flag _).reg x = value
    rw [reg_setReg, if_neg hx, reg_setReg, if_pos rfl]

/-- **The flag wins**: what an operation puts into the flag register is there afterwards, also if
the flag register is the target. -/
theorem reg_combine_flag {flag : Bool} (h : (f.apply d (m.reg x) (m.reg y)).2 = some flag) :
    ((m.combine d f x y).reg .flag).toNat = flag.toNat := by
  unfold combine
  rcases happly : f.apply d (m.reg x) (m.reg y) with ⟨value, _ | flag'⟩
  · rw [happly] at h
    cases h
  · rw [happly] at h
    obtain rfl := Option.some.inj h
    show (((m.setReg x value).setReg .flag _).reg .flag).toNat = _
    rw [reg_setReg, if_pos rfl]
    cases flag' <;> rfl

theorem reg_combine_of_ne {r : Register} (hx : r ≠ x)
    (hflag : r = .flag → (f.apply d (m.reg x) (m.reg y)).2 = none) :
    (m.combine d f x y).reg r = m.reg r := by
  unfold combine
  rcases happly : f.apply d (m.reg x) (m.reg y) with ⟨value, _ | flag⟩
  · exact (m.reg_setReg x r value).trans (if_neg hx.symm)
  · have hr : Register.flag ≠ r := by
      rintro rfl
      rw [happly] at hflag
      exact absurd (hflag rfl) (Option.some_ne_none flag)
    show ((m.setReg x value).setReg .flag _).reg r = m.reg r
    rw [reg_setReg, if_neg hr, reg_setReg, if_neg hx.symm]

theorem combine_eq_withRegisters :
    m.combine d f x y = { m with registers := (m.combine d f x y).registers } := by
  unfold combine
  rcases f.apply d (m.reg x) (m.reg y) with ⟨value, _ | flag⟩ <;> rfl

end Machine

/-! ## Words -/

variable {σ : Type} [ByteSource σ]

/-- **The arithmetic of the `8XYn` words is exact, and the flag wins.**  Let `a` and `b` be what
`VX` and `VY` hold before the word is executed, whichever registers these are.

* The flag register holds what the operation puts there, according to the table of flags.
* `VX` and the flag register together satisfy the equation of the operation.  The flag is written
  over the result if `VX` is the flag register, and there the equation is claimed only of the
  operations that leave the flag alone.
* An operation that leaves the flag alone does not change the flag register, unless it is `VX`.
* No other register is changed, and nothing but registers. -/
theorem executeWord_arithmetic_exact (d : Dialect) {f : Operation} {w : UInt16}
    (hw : Word.Is8 w f.digit) (m : Machine) (s : σ) :
    let x := Word.x w
    let a := (m.reg x).toNat
    let b := (m.reg (Word.y w)).toNat
    let after := (executeWord d w m s).machine
    (∀ flag, f.flag? d a b = some flag → (after.reg .flag).toNat = flag) ∧
      ((x = .flag → f.flag? d a b = none) →
        f.Exact d a b (after.reg x).toNat (after.reg .flag).toNat) ∧
      (f.flag? d a b = none → x ≠ .flag → after.reg .flag = m.reg .flag) ∧
      (∀ r, r ≠ x → r ≠ .flag → after.reg r = m.reg r) ∧
      executeWord d w m s = proceed { m with registers := after.registers } s := by
  intro x a b after
  have hexecuted : executeWord d w m s = proceed (m.combine d f x (Word.y w)) s :=
    executeWord_of_namedBy (i := .combine f x (Word.y w)) ⟨hw, rfl, rfl⟩ d m s
  have hafter : after = m.combine d f x (Word.y w) := congrArg Outcome.machine hexecuted
  have htable : f.flag? d a b = (f.apply d (m.reg x) (m.reg (Word.y w))).2.map Bool.toNat :=
    f.flag?_toNat d _ _
  have hnone : f.flag? d a b = none → (f.apply d (m.reg x) (m.reg (Word.y w))).2 = none := by
    intro h
    rwa [htable, Option.map_eq_none_iff] at h
  have hflag : ∀ flag, f.flag? d a b = some flag → (after.reg .flag).toNat = flag := by
    intro flag h
    rw [htable, Option.map_eq_some_iff] at h
    obtain ⟨set, hset, rfl⟩ := h
    rw [hafter]
    exact m.reg_combine_flag d f x (Word.y w) hset
  refine ⟨hflag, fun h => ?equation, fun h hx => ?untouched, fun r hr hr' => ?others, ?rest⟩
  case equation =>
    have htarget : after.reg x = (f.apply d (m.reg x) (m.reg (Word.y w))).1 := by
      rw [hafter]
      exact m.reg_combine_target d f x (Word.y w) fun hx => hnone (h hx)
    rw [htarget]
    exact f.exact_apply d _ _ hflag
  case untouched =>
    rw [hafter]
    exact m.reg_combine_of_ne d f x (Word.y w) hx.symm fun _ => hnone h
  case others =>
    rw [hafter]
    exact m.reg_combine_of_ne d f x (Word.y w) hr fun h => absurd h hr'
  case rest =>
    rw [hexecuted, hafter, ← m.combine_eq_withRegisters]

/-- The flag register is an operand, and its old value is the one that is added. -/
theorem executeWord_arithmetic_exact_flagOperand :
    let m := (Machine.initial.setReg .flag 200).setReg 1 100
    let after := (executeWord .plain 0x81F4 m (Seeded.mk 7)).machine
    Word.Is8 0x81F4 Operation.add.digit ∧ (after.reg .flag).toNat = 1 ∧
      (after.reg 1).toNat + 256 * (after.reg .flag).toNat = 100 + 200 := by
  intro m after
  have hw : Word.Is8 0x81F4 Operation.add.digit := by decide
  obtain ⟨hflag, hexact, -⟩ := executeWord_arithmetic_exact .plain hw m (Seeded.mk 7)
  have hx : Word.x 0x81F4 ≠ .flag := by decide
  exact ⟨hw, hflag 1 (by decide), hexact fun h => absurd h hx⟩

end Chip8
