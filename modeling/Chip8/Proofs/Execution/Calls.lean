import Chip8.Proofs.Execution.Effects
import Chip8.Proofs.Execution.Succession
import Chip8.Proofs.Memory.Initial
import Mathlib.Data.Nat.Find

/-!
# Calls and returns

The call stack is sixteen slots and a depth, and a program sees a list: the return addresses of the
calls in progress, the outermost one first.  This file says what becomes of the list in the course of
a program.  It is determined by the words that are executed and by where they stand, which together
are a `Site`, and by nothing else: no other word touches the list, and the slots that are not in use
never come back.

The list is bounded, and it is not an error to go beyond the bounds.  A call that finds sixteen
addresses replaces the last one, and a return that finds none is passed over; each is reported once.
So a program that calls too deep loses a return address, and from then on its calls and returns do
not belong together as they are written.

As long as it does not, they do.  The *height* of a step is how many calls more than returns there
have been before it.  If heights are never negative and the stack has room for all of them
(`Nested`), then the height counts the addresses that have come to the list (`Nested.length_live`),
those which a step finds there stay while heights stay as high (`Nested.prefix_live`), and the return
that belongs to a call is the one with which the height comes back to that of the call
(`Nested.exists_return`).  So it finds the address behind the call on top of the list
(`Nested.exists_return_live`).
-/

namespace Chip8

/-- A word, and the address at which it is executed. -/
structure Site where
  address : UInt16
  word : UInt16

namespace Site

/-- The word is `2NNN`. -/
def IsCall (i : Site) : Prop := Word.family i.word = 0x2

/-- The word is `00EE`. -/
def IsReturn (i : Site) : Prop := i.word = 0x00EE

instance (i : Site) : Decidable i.IsCall := inferInstanceAs (Decidable (_ = _))

instance (i : Site) : Decidable i.IsReturn := inferInstanceAs (Decidable (_ = _))

/-- The address behind the word. -/
def next (i : Site) : UInt16 := i.address + 2

/-- What the word makes of a list of return addresses. -/
def apply (i : Site) (returns : List UInt16) : List UInt16 :=
  if i.IsCall then (if returns.length < 16 then returns else returns.dropLast) ++ [i.next]
  else if i.IsReturn then returns.dropLast
  else returns

/-- What there is to report about the list. -/
def warnings (i : Site) (returns : List UInt16) : List Notice :=
  if i.IsCall then if returns.length < 16 then [] else [.returnReplaced (Word.nnn i.word)]
  else if i.IsReturn then if returns = [] then [.returnIgnored i.address] else []
  else []

/-- By how many calls the word leads deeper. -/
def rise (i : Site) : Int := if i.IsCall then 1 else if i.IsReturn then -1 else 0

theorem not_isCall_of_isReturn {i : Site} (h : i.IsReturn) : ¬i.IsCall := by
  rw [IsCall, h]
  decide

end Site

/-- Whether a notice is about the list of return addresses. -/
def Notice.concernsReturns : Notice → Bool
  | .returnIgnored _ | .returnReplaced _ => true
  | _ => false

/-- The word that a machine is about to execute, where it stands. -/
def Machine.site (m : Machine) : Site := ⟨m.pc, m.memory.readWord m.pc⟩

/-! ## Steps -/

section

variable {σ : Type} [ByteSource σ]

/-- Only a call and a return have anything to report. -/
theorem notices_execute_of_ne (d : Dialect) {i : Instruction} (hret : i ≠ .ret)
    (hcall : ∀ a, i ≠ .call a) (m : Machine) (s : σ) : (execute d i m s).notices = [] := by
  cases i with
  | ret => exact absurd rfl hret
  | call a => exact absurd rfl (hcall a)
  | awaitKey x =>
      simp only [execute]
      cases m.keys.lowest? <;> rfl
  | _ => rfl

variable (d : Dialect) {m : Machine} (s : σ)

theorem machine_step :
    (step d m s).machine = (executeWord d m.site.word { m with pc := m.pc + 2 } s).machine :=
  rfl

theorem filter_concernsReturns_step :
    (step d m s).notices.filter Notice.concernsReturns =
      (executeWord d m.site.word { m with pc := m.pc + 2 } s).notices.filter
        Notice.concernsReturns :=
  rfl

/-- **A call** pushes the address behind it, and reports if there is no room. -/
theorem step_of_isCall (h : m.site.IsCall) :
    (step d m s).machine.stack.live = m.site.apply m.stack.live ∧
      (step d m s).notices.filter Notice.concernsReturns = m.site.warnings m.stack.live := by
  have hexecuted := executeWord_of_namedBy (i := .call (Word.nnn m.site.word)) ⟨h, rfl⟩ d
    { m with pc := m.pc + 2 } s
  have hstack : (step d m s).machine.stack = m.stack.push m.site.next := by
    rw [machine_step, hexecuted]
    rfl
  rw [hstack, filter_concernsReturns_step, hexecuted, Site.apply, Site.warnings, if_pos h, if_pos h,
    CallStack.length_live]
  rcases Nat.lt_or_eq_of_le m.stack.depth_le with hroom | hfull
  · have hisFull : m.stack.isFull = false := by
      rw [CallStack.isFull, beq_eq_false_iff_ne]
      exact Nat.ne_of_lt hroom
    rw [if_pos hroom, if_pos hroom]
    refine ⟨m.stack.live_push_of_lt _ hroom, ?_⟩
    simp only [execute, hisFull]
    rfl
  · have hisFull : m.stack.isFull = true := by
      rw [CallStack.isFull, hfull]
      rfl
    have hroom : ¬m.stack.depth < 16 := by
      rw [hfull]
      decide
    rw [if_neg hroom, if_neg hroom]
    refine ⟨m.stack.live_push_of_full _ hfull, ?_⟩
    simp only [execute, hisFull]
    rfl

/-- **A return** takes the last address off the list and goes on there.  If there is none, it goes on
behind itself and reports. -/
theorem step_of_isReturn (h : m.site.IsReturn) :
    (step d m s).machine.stack.live = m.site.apply m.stack.live ∧
      (step d m s).notices.filter Notice.concernsReturns = m.site.warnings m.stack.live ∧
      (step d m s).machine.pc = m.stack.live.getLast?.getD m.site.next := by
  have hcall := Site.not_isCall_of_isReturn h
  have hexecuted := executeWord_of_namedBy (i := .ret) h d { m with pc := m.pc + 2 } s
  rw [machine_step, filter_concernsReturns_step, hexecuted, Site.apply, Site.warnings,
    if_neg hcall, if_neg hcall, if_pos h, if_pos h]
  simp only [execute]
  cases hpop : m.stack.pop? with
  | none =>
      have hlive : m.stack.live = [] := (CallStack.pop?_eq_none_iff _).mp hpop
      -- what is reported is the address of the return, which the program counter has left behind
      have hbehind : m.pc + 2 - 2 = m.pc := UInt16.add_sub_cancel _ _
      simp only [hlive, hbehind]
      exact ⟨rfl, rfl, rfl⟩
  | some popped =>
      have hlive := CallStack.live_eq_of_pop? hpop
      have hne : m.stack.live ≠ [] := by
        rw [hlive]
        exact List.append_ne_nil_of_right_ne_nil _ (List.cons_ne_nil _ _)
      rw [if_neg hne, hlive, List.dropLast_concat, List.getLast?_concat]
      exact ⟨rfl, rfl, rfl⟩

/-- Every other word leaves the list alone, and has nothing to report about it. -/
theorem step_of_not_isCall (hcall : ¬m.site.IsCall) (hreturn : ¬m.site.IsReturn) :
    (step d m s).machine.stack.live = m.site.apply m.stack.live ∧
      (step d m s).notices.filter Notice.concernsReturns = m.site.warnings m.stack.live := by
  have hstack : (step d m s).machine.stack = m.stack := by
    by_contra hne
    have hconfined := Machine.Confined.executeWord d m.site.word { m with pc := m.pc + 2 } s
    exact (hconfined.stack hne).elim hcall hreturn
  rw [hstack, filter_concernsReturns_step, Site.apply, Site.warnings, if_neg hcall, if_neg hcall,
    if_neg hreturn, if_neg hreturn]
  refine ⟨rfl, ?_⟩
  unfold executeWord
  split
  · rfl
  · cases hdecode : Instruction.decode m.site.word with
    | none => rfl
    | some i =>
        have hi := (Instruction.decode_eq_some_iff m.site.word i).mp hdecode
        have hret : i ≠ .ret := by
          rintro rfl
          exact hreturn hi
        have hcall' : ∀ a, i ≠ .call a := by
          rintro a rfl
          exact hcall hi.1
        show List.filter _ (execute d i _ s).notices = []
        rw [notices_execute_of_ne d hret hcall', List.filter_nil]

/-- **A step does to the list what its word does**, and reports what there is to report. -/
theorem live_step :
    (step d m s).machine.stack.live = m.site.apply m.stack.live ∧
      (step d m s).notices.filter Notice.concernsReturns = m.site.warnings m.stack.live := by
  by_cases hcall : m.site.IsCall
  · exact step_of_isCall d s hcall
  · by_cases hreturn : m.site.IsReturn
    · obtain ⟨hlive, hwarnings, -⟩ := step_of_isReturn d s hreturn
      exact ⟨hlive, hwarnings⟩
    · exact step_of_not_isCall d s hcall hreturn

end

/-! ## Calls and returns that belong together -/

/-- How many calls more than returns there are among the first `k` of a sequence of words. -/
def height (site : Nat → Site) : Nat → Int
  | 0 => 0
  | k + 1 => height site k + (site k).rise

theorem height_succ (site : Nat → Site) (k : Nat) :
    height site (k + 1) = height site k + (site k).rise := rfl

/-- Every return among the first `n` words has its call before it and every call its return behind it,
and there is room for all of them on top of `depth` addresses. -/
structure Nested (site : Nat → Site) (depth n : Nat) : Prop where
  nonneg : ∀ k ≤ n, 0 ≤ height site k
  room : ∀ k ≤ n, depth + height site k ≤ 16
  closed : height site n = 0

namespace Site

variable {i : Site} {returns : List UInt16}

theorem apply_of_isCall (h : i.IsCall) (hroom : returns.length < 16) :
    i.apply returns = returns ++ [i.next] := by
  rw [apply, if_pos h, if_pos hroom]

theorem apply_of_isReturn (h : i.IsReturn) : i.apply returns = returns.dropLast := by
  rw [apply, if_neg (not_isCall_of_isReturn h), if_pos h]

theorem rise_of_isCall (h : i.IsCall) : i.rise = 1 := if_pos h

theorem rise_of_isReturn (h : i.IsReturn) : i.rise = -1 := by
  rw [rise, if_neg (not_isCall_of_isReturn h), if_pos h]

/-- A word is a call, or a return, or it leaves every list alone. -/
theorem cases (i : Site) :
    i.IsCall ∨ i.IsReturn ∨ (i.rise = 0 ∧ ∀ returns, i.apply returns = returns) := by
  by_cases hcall : i.IsCall
  · exact Or.inl hcall
  · by_cases hreturn : i.IsReturn
    · exact Or.inr (Or.inl hreturn)
    · refine Or.inr (Or.inr ⟨?_, fun returns => ?_⟩)
      · rw [rise, if_neg hcall, if_neg hreturn]
      · rw [apply, if_neg hcall, if_neg hreturn]

/-- As long as there is room, and there is an address to return to, a list grows by as much as a word
leads deeper. -/
theorem length_apply (hroom : returns.length + i.rise ≤ 16) (hsome : 0 ≤ returns.length + i.rise) :
    ((i.apply returns).length : Int) = returns.length + i.rise := by
  rcases i.cases with hcall | hreturn | ⟨hrise, hsame⟩
  · rw [rise_of_isCall hcall] at hroom ⊢
    rw [apply_of_isCall hcall (by omega), List.length_append, List.length_singleton]
    rfl
  · rw [rise_of_isReturn hreturn] at hsome ⊢
    rw [apply_of_isReturn hreturn, List.length_dropLast]
    omega
  · rw [hrise, hsame, Int.add_zero]

/-- A list that begins with `bottom` still does so after a word, unless the word takes an address of
`bottom` off. -/
theorem prefix_apply {bottom : List UInt16} (h : bottom <+: returns)
    (hroom : returns.length + i.rise ≤ 16) (hstays : bottom.length ≤ returns.length + i.rise) :
    bottom <+: i.apply returns := by
  rcases i.cases with hcall | hreturn | ⟨-, hsame⟩
  · rw [rise_of_isCall hcall] at hroom
    rw [apply_of_isCall hcall (by omega)]
    exact h.trans (List.prefix_append _ _)
  · rw [rise_of_isReturn hreturn] at hstays
    rw [apply_of_isReturn hreturn, List.dropLast_eq_take]
    exact List.prefix_take_iff.mpr ⟨h, by omega⟩
  · rw [hsame]
    exact h

end Site

namespace Nested

variable {site : Nat → Site} {live : Nat → List UInt16} {n : Nat}

/-- **The height counts the addresses that have come to the list.** -/
theorem length_live (h : Nested site (live 0).length n)
    (hlive : ∀ k, live (k + 1) = (site k).apply (live k)) {k : Nat} (hk : k ≤ n) :
    ((live k).length : Int) = (live 0).length + height site k := by
  induction k with
  | zero => exact (Int.add_zero _).symm
  | succ k ih =>
      have hbefore := ih (Nat.le_of_succ_le hk)
      have hroom := h.room (k + 1) hk
      have hnonneg := h.nonneg (k + 1) hk
      rw [height_succ] at hroom hnonneg
      rw [hlive, Site.length_apply (by omega) (by omega), hbefore, height_succ, Int.add_assoc]

/-- **The addresses that a word finds stay on the list** while heights stay as high as there. -/
theorem prefix_live (h : Nested site (live 0).length n)
    (hlive : ∀ k, live (k + 1) = (site k).apply (live k)) {a b : Nat} (hab : a ≤ b) (hb : b ≤ n)
    (hhigh : ∀ k, a ≤ k → k ≤ b → height site a ≤ height site k) : live a <+: live b := by
  induction hab with
  | refl => exact List.prefix_refl _
  | @step b hab ih =>
      have hbefore := ih (Nat.le_of_succ_le hb) fun k hak hkb => hhigh k hak (Nat.le_succ_of_le hkb)
      have hlength := h.length_live hlive (Nat.le_of_succ_le hb)
      have hlength' := h.length_live hlive (Nat.le_trans hab (Nat.le_of_succ_le hb))
      have hroom := h.room (b + 1) hb
      have hstays := hhigh (b + 1) (Nat.le_succ_of_le hab) (Nat.le_refl _)
      rw [height_succ] at hroom hstays
      rw [hlive]
      exact Site.prefix_apply hbefore (by omega) (by omega)

/-- **Every call has its return**: the one with which the height comes back to that of the call for
the first time. -/
theorem exists_return {depth : Nat} (h : Nested site depth n) {i : Nat} (hi : i < n)
    (hcall : (site i).IsCall) :
    ∃ j, i < j ∧ j < n ∧ (site j).IsReturn ∧ height site j = height site i + 1 ∧
      ∀ k, i < k → k ≤ j → height site i < height site k := by
  have hend : height site n ≤ height site i := by
    rw [h.closed]
    exact h.nonneg i (Nat.le_of_lt hi)
  have hfalls : ∃ k, i < k ∧ height site k ≤ height site i := ⟨n, hi, hend⟩
  obtain ⟨hbehind, hlow⟩ := Nat.find_spec hfalls
  have hlast : Nat.find hfalls ≤ n := Nat.find_min' hfalls ⟨hi, hend⟩
  have hhigh : ∀ k, i < k → k < Nat.find hfalls → height site i < height site k :=
    fun k hik hk => Int.not_le.mp fun hle => Nat.find_min hfalls hk ⟨hik, hle⟩
  -- the height falls back behind the word before, and right behind the call it has not yet
  obtain ⟨j, hj⟩ := Nat.exists_eq_succ_of_ne_zero (Nat.ne_zero_of_lt hbehind)
  rw [hj] at hbehind hlow hlast hhigh
  have hne : j ≠ i := by
    rintro rfl
    rw [height_succ, Site.rise_of_isCall hcall] at hlow
    omega
  have hij : i < j := Nat.lt_of_le_of_ne (Nat.le_of_lt_succ hbehind) hne.symm
  have hbefore := hhigh j hij (Nat.lt_succ_self j)
  rw [height_succ] at hlow
  rcases (site j).cases with hcall' | hreturn | ⟨hrise, -⟩
  · rw [Site.rise_of_isCall hcall'] at hlow
    omega
  · rw [Site.rise_of_isReturn hreturn] at hlow
    exact ⟨j, hij, hlast, hreturn, by omega, fun k hik hkj => hhigh k hik (Nat.lt_succ_of_le hkj)⟩
  · omega

/-- **What is between a call and its return** finds the address behind the call on the list, above
the addresses that were there, and the return takes it off. -/
theorem exists_return_live (h : Nested site (live 0).length n)
    (hlive : ∀ k, live (k + 1) = (site k).apply (live k)) {i : Nat} (hi : i < n)
    (hcall : (site i).IsCall) :
    ∃ j, i < j ∧ j < n ∧ (site j).IsReturn ∧ live j = live i ++ [(site i).next] ∧
      live (j + 1) = live i ∧
      ∀ k, i < k → k ≤ j → live i ++ [(site i).next] <+: live k := by
  obtain ⟨j, hij, hj, hreturn, hheight, hhigh⟩ := h.exists_return hi hcall
  have hrises : height site (i + 1) = height site i + 1 := by
    rw [height_succ, Site.rise_of_isCall hcall]
  have hpushed : live (i + 1) = live i ++ [(site i).next] := by
    have hlength := h.length_live hlive (Nat.le_of_lt hi)
    have hroom := h.room (i + 1) hi
    rw [hlive]
    exact Site.apply_of_isCall hcall (by omega)
  have hbelow : ∀ k, i < k → k ≤ j → live (i + 1) <+: live k := fun k hik hkj =>
    h.prefix_live hlive hik (by omega) fun l hil hlk => by
      have := hhigh l hil (Nat.le_trans hlk hkj)
      omega
  have hsame : live (i + 1) = live j := by
    have hlength := h.length_live hlive (k := i + 1) hi
    have hlength' := h.length_live hlive (Nat.le_of_lt hj)
    exact (hbelow j hij (Nat.le_refl j)).eq_of_length (by omega)
  rw [← hpushed]
  refine ⟨j, hij, hj, hreturn, hsame.symm, ?_, hbelow⟩
  rw [hlive, Site.apply_of_isReturn hreturn, ← hsame, hpushed, List.dropLast_concat]

end Nested

/-! ## Runs -/

/-- The words that the first `n` steps execute, and where. -/
def sites {σ : Type} [ByteSource σ] (d : Dialect) (m : Machine) (s : σ) (n : Nat) : List Site :=
  (List.range n).map fun k => (stateAt d m s k).1.site

variable {σ : Type} [ByteSource σ]

theorem live_stateAt_succ (d : Dialect) (m : Machine) (s : σ) (k : Nat) :
    (stateAt d m s (k + 1)).1.stack.live =
      (stateAt d m s k).1.site.apply (stateAt d m s k).1.stack.live := by
  rw [stateAt_succ]
  exact (live_step d (stateAt d m s k).2).1

/-- **The list of return addresses is what the executed words make of it**, one after the other. -/
theorem live_stateAt (d : Dialect) (m : Machine) (s : σ) (n : Nat) :
    (stateAt d m s n).1.stack.live =
      (sites d m s n).foldl (fun returns i => i.apply returns) m.stack.live := by
  induction n with
  | zero => rfl
  | succ n ih =>
      rw [live_stateAt_succ, ih, sites, sites, List.range_succ, List.map_append, List.foldl_append]
      rfl

/-- **The call stack is a list of at most sixteen return addresses**, however many steps are taken.
The words that are executed make the list what it is, and each step reports what its word finds too
many or too few.  A return goes on at the last address, or behind itself if there is none.  Where
calls and returns are nested and there is room for them, every call has its return, which goes on
behind the call with the list as the call has found it. -/
theorem calls_refine_list (d : Dialect) (m : Machine) (s : σ) (n : Nat) :
    let machine k := (stateAt d m s k).1
    let site k := (machine k).site
    let live k := (machine k).stack.live
    live n = (sites d m s n).foldl (fun returns i => i.apply returns) m.stack.live ∧
    (live n).length ≤ 16 ∧
    (outcomeAt d m s n).notices.filter Notice.concernsReturns = (site n).warnings (live n) ∧
    ((site n).IsReturn → (machine (n + 1)).pc = (live n).getLast?.getD (site n).next) ∧
    (Nested site m.stack.depth n →
      live n = m.stack.live ∧
      (∀ k ≤ n, m.stack.live <+: live k) ∧
      ∀ i < n, (site i).IsCall → ∃ j, i < j ∧ j < n ∧ (site j).IsReturn ∧
        (machine (j + 1)).pc = (site i).next ∧
        live (j + 1) = live i ∧
        ∀ k, i < k → k ≤ j → live i ++ [(site i).next] <+: live k) := by
  intro machine site live
  have hreturn : ∀ j, (site j).IsReturn →
      (machine (j + 1)).pc = (live j).getLast?.getD (site j).next := fun j hj => by
    obtain ⟨-, -, hpc⟩ := step_of_isReturn d (stateAt d m s j).2 hj
    rw [← hpc]
    exact congrArg (fun p => p.1.pc) (stateAt_succ d m s j)
  refine ⟨live_stateAt d m s n, ?_, (live_step d _).2, hreturn n, fun hnested => ?_⟩
  · rw [CallStack.length_live]
    exact (machine n).stack.depth_le
  · have hlive : ∀ k, live (k + 1) = (site k).apply (live k) := live_stateAt_succ d m s
    have hnested' : Nested site (live 0).length n := by
      rw [CallStack.length_live]
      exact hnested
    have hbottom : ∀ k ≤ n, live 0 <+: live k := fun k hk =>
      hnested'.prefix_live hlive (Nat.zero_le k) hk fun l _ hl => hnested.nonneg l (by omega)
    have hback : live 0 = live n :=
      (hbottom n (Nat.le_refl n)).eq_of_length (by
        have hlength := hnested'.length_live hlive (Nat.le_refl n)
        rw [hnested.closed] at hlength
        omega)
    refine ⟨hback.symm, hbottom, fun i hi hcall => ?_⟩
    obtain ⟨j, hij, hj, hisReturn, htop, hafter, hbelow⟩ :=
      hnested'.exists_return_live hlive hi hcall
    refine ⟨j, hij, hj, hisReturn, ?_, hafter, hbelow⟩
    rw [hreturn j hisReturn, htop, List.getLast?_concat]
    rfl

/-- A call of a subroutine that returns at once is nested with the return. -/
theorem nested_of_return_at (d : Dialect) {m : Machine} (s : σ) (hcall : m.site.IsCall)
    (hreturn : m.memory.readWord (Word.nnn m.site.word) = 0x00EE) (hroom : m.stack.depth < 16) :
    Nested (fun k => (stateAt d m s k).1.site) m.stack.depth 2 := by
  have hexecuted := executeWord_of_namedBy (i := .call (Word.nnn m.site.word)) ⟨hcall, rfl⟩ d
    { m with pc := m.pc + 2 } s
  have hcalled : (stateAt d m s 1).1.site = ⟨Word.nnn m.site.word, 0x00EE⟩ := by
    rw [stateAt_succ, outcomeAt, stateAt_zero, machine_step, hexecuted, ← hreturn]
    rfl
  have hone : height (fun k => (stateAt d m s k).1.site) 1 = 1 := by
    rw [height_succ, stateAt_zero, Site.rise_of_isCall hcall]
    rfl
  have htwo : height (fun k => (stateAt d m s k).1.site) 2 = 0 := by
    rw [height_succ, hone, hcalled, Site.rise_of_isReturn (i := ⟨_, 0x00EE⟩) rfl]
    rfl
  have hheight : ∀ k ≤ 2, 0 ≤ height (fun k => (stateAt d m s k).1.site) k ∧
      height (fun k => (stateAt d m s k).1.site) k ≤ 1 := fun k hk => by
    match k, hk with
    | 0, _ => exact ⟨Int.le_refl 0, Int.zero_le_ofNat 1⟩
    | 1, _ => omega
    | 2, _ => omega
  refine ⟨fun k hk => (hheight k hk).1, fun k hk => ?_, htwo⟩
  have := (hheight k hk).2
  omega

/-- A rom that calls a subroutine, which returns at once, and then stays where it is. -/
def callAndReturn : Rom := ⟨"call", [0x22, 0x04, 0x12, 0x02, 0x00, 0xEE], by decide, by decide⟩

/-- The first two words of `callAndReturn` are nested, so the program is behind its call after them,
and has nothing to return to. -/
theorem calls_refine_list_callAndReturn :
    let m := Machine.load callAndReturn
    let state k := (stateAt .plain m (Seeded.mk 7) k).1
    Nested (fun k => (state k).site) m.stack.depth 2 ∧
      (state 2).pc = 0x202 ∧ (state 2).stack.live = [] := by
  intro m state
  have hsite : m.site = ⟨0x200, 0x2204⟩ :=
    congrArg (Site.mk 0x200) ((Machine.readWord_load callAndReturn (a := 0x200) (k := 0) (by decide)
      (by decide) (by decide)).trans (by decide))
  have hcall : m.site.IsCall := by
    rw [hsite]
    decide
  have hreturn : m.memory.readWord (Word.nnn m.site.word) = 0x00EE := by
    rw [hsite]
    exact (Machine.readWord_load callAndReturn (a := Word.nnn 0x2204) (k := 4) (by decide)
      (by decide) (by decide)).trans (by decide)
  have hnested := nested_of_return_at .plain (Seeded.mk 7) hcall hreturn (by decide)
  obtain ⟨-, -, -, -, hback⟩ := calls_refine_list .plain m (Seeded.mk 7) 2
  obtain ⟨hlive, -, hreturns⟩ := hback hnested
  obtain ⟨j, hpos, hlt, -, hpc, -⟩ := hreturns 0 (by decide) hcall
  obtain rfl : j = 1 := by omega
  refine ⟨hnested, hpc.trans ?_, hlive.trans (by decide)⟩
  exact congrArg Site.next hsite

end Chip8
