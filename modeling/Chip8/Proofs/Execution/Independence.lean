import Chip8.Proofs.Execution.Effects

/-!
# What a program does not depend on

Three things are given to a program from outside: the dialect, the keys and the random bytes.
Each of them is looked at by a few words only.  So two runs may differ in all three, and as
long as the program executes no word that looks at a difference, the runs are the same run.

`Word.Indifferent` lists, for two ways of running a program, what must not differ for the sake
of a word.  The statement `differences_unnoticed` asks for this of the words that the *first*
run fetches.  That is enough, although a program may write the words that it goes on to
execute: up to the first word that looks at a difference both runs have the same memory and
the same program counter, so they fetch the same words.

The dialect has one choice that hides another one.  If the index register is left alone by the
transfers, it makes no difference by how much they would advance it.
-/

namespace Chip8

/-! ## Sources that play the same bytes -/

namespace ByteSource

variable {σ τ : Type} [ByteSource σ] [ByteSource τ]

/-- The next bytes of a source. -/
def bytes : Nat → σ → List UInt8
  | 0, _ => []
  | n + 1, s => (next s).1 :: bytes n (next s).2

/-- Two sources, which may be of different kinds, play the same bytes for ever. -/
def Agree (s : σ) (t : τ) : Prop := ∀ n, bytes n s = bytes n t

namespace Agree

variable {s : σ} {t : τ}

theorem byte (h : Agree s t) : (next s).1 = (next t).1 :=
  (List.cons.inj (h 1)).1

theorem rest (h : Agree s t) : Agree (next s).2 (next t).2 := by
  intro n
  exact (List.cons.inj (h (n + 1))).2

end Agree
end ByteSource

/-! ## Words that look at nothing that differs -/

/-- Between two ways of running a program nothing differs that the word looks at.  The ways are
two dialects, two states of the keys, and two sources, which agree or do not. -/
structure Word.Indifferent (d d' : Dialect) (keys keys' : Keys) (agree : Prop) (w : UInt16) :
    Prop where
  shift : Is8 w 0x6 ∨ Is8 w 0xE → d'.shiftUsesVx = d.shiftUsesVx
  leave : IsF w 0x55 ∨ IsF w 0x65 → d'.memoryLeaveIUnchanged = d.memoryLeaveIUnchanged
  /-- By how much the index register is advanced matters only if it is advanced. -/
  increment : IsF w 0x55 ∨ IsF w 0x65 → d.memoryLeaveIUnchanged = false →
    d'.memoryIncrementByX = d.memoryIncrementByX
  jump : family w = 0xB → d'.jumpAddsVx = d.jumpAddsVx
  wrap : family w = 0xD → d'.wrapSprites = d.wrapSprites
  reset : Is8 w 0x1 ∨ Is8 w 0x2 ∨ Is8 w 0x3 → d'.vfReset = d.vfReset
  halt : w = 0x0000 → d'.haltOnZero = d.haltOnZero
  keys : IsE w 0x9E ∨ IsE w 0xA1 ∨ IsF w 0x0A → keys' = keys
  random : family w = 0xC → agree

namespace Word.Indifferent

variable {d d' : Dialect} {keys keys' : Keys} {agree : Prop} {w : UInt16}

theorem apply (h : Indifferent d d' keys keys' agree w) {f : Operation} (hw : Is8 w f.digit)
    (a b : UInt8) : f.apply d' a b = f.apply d a b := by
  cases f with
  | or => simp only [Operation.apply, h.reset (Or.inl hw)]
  | and => simp only [Operation.apply, h.reset (Or.inr (Or.inl hw))]
  | xor => simp only [Operation.apply, h.reset (Or.inr (Or.inr hw))]
  | shiftRight => simp only [Operation.apply, h.shift (Or.inl hw)]
  | shiftLeft => simp only [Operation.apply, h.shift (Or.inr hw)]
  | _ => rfl

theorem indexAfterTransfer (h : Indifferent d d' keys keys' agree w)
    (hw : IsF w 0x55 ∨ IsF w 0x65) (m : Machine) (x : Register) :
    m.indexAfterTransfer d' x = m.indexAfterTransfer d x := by
  rw [Machine.indexAfterTransfer, Machine.indexAfterTransfer, h.leave hw]
  cases hleave : d.memoryLeaveIUnchanged with
  | true => rfl
  | false => rw [h.increment hw hleave]

end Word.Indifferent

/-! ## Steps -/

variable {σ τ : Type}

/-- Two outcomes are the same but for the keys, which are the given ones in the second: the
machines agree in everything else, the same is asked for and the same reported.  The sources
agree afterwards if they did so at the start. -/
structure Outcome.Matches (keys : Keys) (agree : Prop) [ByteSource σ] [ByteSource τ]
    (o : Outcome σ) (o' : Outcome τ) : Prop where
  machine : o'.machine = o.machine.latch keys
  signal : o'.signal = o.signal
  notices : o'.notices = o.notices
  sources : agree → ByteSource.Agree o.source o'.source

variable [ByteSource σ] [ByteSource τ]

section Execution

variable {d d' : Dialect} {w : UInt16} {m : Machine} {keys : Keys} {agree : Prop} {s : σ} {s' : τ}

theorem Machine.latch_skipIf (m : Machine) (keys : Keys) (c : Bool) :
    (m.latch keys).skipIf c = (m.skipIf c).latch keys := by
  cases c <;> rfl

theorem Outcome.matches_proceed (hs : agree → ByteSource.Agree s s') :
    (proceed m s).Matches keys agree (proceed (m.latch keys) s') :=
  ⟨rfl, rfl, rfl, hs⟩

theorem Outcome.matches_skipIf (hs : agree → ByteSource.Agree s s') (c : Bool) :
    (proceed (m.skipIf c) s).Matches keys agree (proceed ((m.latch keys).skipIf c) s') := by
  rw [m.latch_skipIf keys c]
  exact matches_proceed hs

theorem combine_matches {f : Operation} {x y : Register}
    (hw : Word.Indifferent d d' m.keys keys agree w) (hf : Word.Is8 w f.digit) :
    (m.latch keys).combine d' f x y = (m.combine d f x y).latch keys := by
  have happly : f.apply d' ((m.latch keys).reg x) ((m.latch keys).reg y) =
      f.apply d (m.reg x) (m.reg y) := hw.apply hf _ _
  rw [Machine.combine, Machine.combine, happly]
  rcases f.apply d (m.reg x) (m.reg y) with ⟨value, _ | flag⟩ <;> rfl

/-- **An instruction is executed in the same way** if its word looks at nothing that differs. -/
theorem execute_matches {i : Instruction} (hi : i.NamedBy w)
    (hw : Word.Indifferent d d' m.keys keys agree w) (hs : agree → ByteSource.Agree s s') :
    (execute d i m s).Matches keys agree (execute d' i (m.latch keys) s') := by
  cases i with
  | ret =>
      have hpop : (m.latch keys).stack.pop? = m.stack.pop? := rfl
      simp only [execute, hpop]
      cases m.stack.pop? with
      | some p => exact Outcome.matches_proceed hs
      | none => exact ⟨rfl, rfl, rfl, hs⟩
  | call a => exact ⟨rfl, rfl, rfl, hs⟩
  | skipIfValue | skipUnlessValue | skipIfSame | skipUnlessSame =>
      exact Outcome.matches_skipIf hs _
  | combine f x y =>
      simp only [execute, combine_matches hw hi.1]
      exact Outcome.matches_proceed hs
  | jumpPlus x base =>
      simp only [execute, hw.jump hi.1]
      exact Outcome.matches_proceed hs
  | random x mask =>
      -- the word draws a byte, so the sources are known to agree
      have hagree := hs (hw.random hi.1)
      simp only [execute, ← hagree.byte]
      exact Outcome.matches_proceed fun _ => hagree.rest
  | draw x y height =>
      have hdraw : (m.latch keys).drawSprite d' x y height =
          (m.drawSprite d x y height).latch keys := by
        simp only [Machine.drawSprite, hw.wrap hi.1]
        rfl
      simp only [execute, hdraw]
      exact Outcome.matches_proceed hs
  | skipIfKey x =>
      have hkeys := hw.keys (Or.inl hi.1)
      subst hkeys
      exact Outcome.matches_skipIf hs _
  | skipUnlessKey x =>
      have hkeys := hw.keys (Or.inr (Or.inl hi.1))
      subst hkeys
      exact Outcome.matches_skipIf hs _
  | awaitKey x =>
      have hkeys := hw.keys (Or.inr (Or.inr hi.1))
      have hlowest : (m.latch keys).keys.lowest? = m.keys.lowest? := congrArg Keys.lowest? hkeys
      simp only [execute, hlowest]
      cases m.keys.lowest? with
      | some key => exact Outcome.matches_proceed hs
      | none => exact ⟨rfl, rfl, rfl, hs⟩
  | store x =>
      have hstore : (m.latch keys).store d' x = (m.store d x).latch keys := by
        have hindex := hw.indexAfterTransfer (Or.inl hi.1) (m.latch keys) x
        simp only [Machine.store, hindex]
        rfl
      simp only [execute, hstore]
      exact Outcome.matches_proceed hs
  | load x =>
      have hload : (m.latch keys).fetch d' x = (m.fetch d x).latch keys := by
        have hindex := hw.indexAfterTransfer (Or.inr hi.1) (m.latch keys) x
        simp only [Machine.fetch, hindex]
        rfl
      simp only [execute, hload]
      exact Outcome.matches_proceed hs
  | _ => exact Outcome.matches_proceed hs

theorem executeWord_matches (hw : Word.Indifferent d d' m.keys keys agree w)
    (hs : agree → ByteSource.Agree s s') :
    (executeWord d w m s).Matches keys agree (executeWord d' w (m.latch keys) s') := by
  have hhalt : (w = 0 ∧ d'.haltOnZero = true) ↔ (w = 0 ∧ d.haltOnZero = true) :=
    and_congr_right fun hzero => by rw [hw.halt hzero]
  simp only [executeWord, hhalt]
  split
  · exact ⟨rfl, rfl, rfl, hs⟩
  · cases hdecode : Instruction.decode w with
    | some i => exact execute_matches ((Instruction.decode_eq_some_iff w i).mp hdecode) hw hs
    | none => exact ⟨rfl, rfl, rfl, hs⟩

/-- The same for a step, which fetches the same word in both runs. -/
theorem step_matches
    (hw : Word.Indifferent d d' m.keys keys agree (m.memory.readWord m.pc))
    (hs : agree → ByteSource.Agree s s') :
    (step d m s).Matches keys agree (step d' (m.latch keys) s') := by
  have h : (executeWord d (m.memory.readWord m.pc) { m with pc := m.pc + 2 } s).Matches keys agree
      (executeWord d' (m.memory.readWord m.pc) (({ m with pc := m.pc + 2 } : Machine).latch keys)
        s') := executeWord_matches hw hs
  exact ⟨h.machine, h.signal, congrArg (List.cons _) h.notices, h.sources⟩

end Execution

/-! ## Runs -/

theorem keys_step (d : Dialect) (m : Machine) (s : σ) : (step d m s).machine.keys = m.keys :=
  (Machine.Confined.executeWord d _ { m with pc := m.pc + 2 } s).keys

/-- **The runs are the same**, step by step, if no word that the first one fetches looks at anything
that differs. -/
theorem trace_of_indifferent (d d' : Dialect) (n : Nat) {m : Machine} {keys : Keys} {agree : Prop}
    {s : σ} {s' : τ} (hs : agree → ByteSource.Agree s s')
    (hw : ∀ w ∈ fetched d n m s, Word.Indifferent d d' m.keys keys agree w) :
    (trace d' n (m.latch keys) s').map (fun o => (o.machine, o.signal, o.notices)) =
      (trace d n m s).map fun o => (o.machine.latch keys, o.signal, o.notices) := by
  -- The second run is not known to fetch the same words beforehand.  It is the first step that
  -- shows that its machine is the one from which the first run goes on.
  induction n generalizing m s s' with
  | zero => rfl
  | succ n ih =>
      have hfirst := step_matches (hw _ List.mem_cons_self) hs
      have hlater : ∀ w ∈ fetched d n (step d m s).machine (step d m s).source,
          Word.Indifferent d d' (step d m s).machine.keys keys agree w := by
        intro w hmem
        rw [keys_step]
        exact hw w (List.mem_cons_of_mem _ hmem)
      have htail := ih hfirst.sources hlater
      rw [← hfirst.machine] at htail
      simp only [trace, List.map_cons]
      rw [htail, hfirst.machine, hfirst.signal, hfirst.notices]

/-! ## The choice that is hidden -/

section Increment

variable {d : Dialect}

/-- Only the transfers ask by how much to advance the index register, and they do not ask if they
leave it alone. -/
theorem execute_withIncrement (h : d.memoryLeaveIUnchanged = true) (b : Bool) (i : Instruction)
    (m : Machine) (s : σ) :
    execute { d with memoryIncrementByX := b } i m s = execute d i m s := by
  have hindex : ∀ x, m.indexAfterTransfer { d with memoryIncrementByX := b } x =
      m.indexAfterTransfer d x := by
    intro x
    simp only [Machine.indexAfterTransfer, h, if_true]
  cases i with
  | store x => simp only [execute, Machine.store, hindex]
  | load x => simp only [execute, Machine.fetch, hindex]
  | _ => rfl

theorem step_withIncrement (h : d.memoryLeaveIUnchanged = true) (b : Bool) (m : Machine) (s : σ) :
    step { d with memoryIncrementByX := b } m s = step d m s := by
  simp only [step, executeWord, execute_withIncrement h]

theorem trace_withIncrement (h : d.memoryLeaveIUnchanged = true) (b : Bool) (n : Nat) (m : Machine)
    (s : σ) : trace { d with memoryIncrementByX := b } n m s = trace d n m s := by
  induction n generalizing m s with
  | zero => rfl
  | succ n ih => simp only [trace, step_withIncrement h, ih]

end Increment

/-- **Dialects, keys and random bytes are noticed by their own words only.**  Take two runs of any
number of steps, from machines that are equal except for the keys, under dialects that may
differ, and with sources that may be of different kinds.  If no word that the first run fetches
looks at anything that differs between the two, then step by step both ask for the same, report
the same and leave machines that are equal except for the keys.

In particular, when the transfers leave the index register alone, it makes no difference at all by
how much they would advance it. -/
theorem differences_unnoticed (d d' : Dialect) (m : Machine) (keys : Keys) (s : σ) (s' : τ)
    (n : Nat) :
    ((∀ w ∈ fetched d n m s,
        Word.Indifferent d d' m.keys keys (ByteSource.Agree s s') w) →
      (trace d' n (m.latch keys) s').map (fun o => (o.machine, o.signal, o.notices)) =
        (trace d n m s).map fun o => (o.machine.latch keys, o.signal, o.notices)) ∧
      (d.memoryLeaveIUnchanged = true → ∀ b,
        trace { d with memoryIncrementByX := b } n m s = trace d n m s) :=
  ⟨fun hw => trace_of_indifferent d d' n id hw, fun h b => trace_withIncrement h b n m s⟩

/-- A machine with the key `3` down, and a program that shifts a register, sets another, starts the
sound timer and comes to an end of its words. -/
def shiftAndSound : Machine :=
  { Machine.initial with
    memory := (((((Memory.blank.write 0x200 0x81).write 0x201 0x2E).write 0x202 0x6A).write
      0x203 0x07).write 0x204 0xFA).write 0x205 0x18
    keys := Keys.released.put (Keys.ofByte 3) true }

theorem fetched_shiftAndSound :
    fetched .plain 4 shiftAndSound (Seeded.mk 7) = [0x812E, 0x6A07, 0xFA18, 0x0000] := by
  decide +kernel

/-- The dialect that has nothing in common with the plain one but how to shift and what `0000`
does. -/
def contrary : Dialect where
  memoryIncrementByX := true
  memoryLeaveIUnchanged := true
  jumpAddsVx := true
  wrapSprites := true
  vfReset := true

/-- The two dialects, with a key that is down in one run only and two kinds of sources. -/
theorem differences_unnoticed_shiftAndSound :
    (∀ w ∈ fetched .plain 4 shiftAndSound (Seeded.mk 7),
        Word.Indifferent .plain contrary shiftAndSound.keys .released
          (ByteSource.Agree (Seeded.mk 7) (Tape.ofList [])) w) ∧
      (trace contrary 4 (shiftAndSound.latch .released) (Tape.ofList [])).map
          (fun o => (o.machine, o.signal, o.notices)) =
        (trace .plain 4 shiftAndSound (Seeded.mk 7)).map
          (fun o => (o.machine.latch .released, o.signal, o.notices)) ∧
      contrary.memoryLeaveIUnchanged = true ∧
      trace { contrary with memoryIncrementByX := false } 4 shiftAndSound (Seeded.mk 7) =
        trace contrary 4 shiftAndSound (Seeded.mk 7) := by
  have hwords : ∀ w ∈ fetched .plain 4 shiftAndSound (Seeded.mk 7),
      Word.Indifferent .plain contrary shiftAndSound.keys .released
        (ByteSource.Agree (Seeded.mk 7) (Tape.ofList [])) w := by
    intro w hw
    rw [fetched_shiftAndSound] at hw
    have hlook : ¬(Word.IsF w 0x55 ∨ Word.IsF w 0x65) ∧ Word.family w ≠ 0xB ∧
        Word.family w ≠ 0xD ∧ ¬(Word.Is8 w 0x1 ∨ Word.Is8 w 0x2 ∨ Word.Is8 w 0x3) ∧
        ¬(Word.IsE w 0x9E ∨ Word.IsE w 0xA1 ∨ Word.IsF w 0x0A) ∧ Word.family w ≠ 0xC := by
      simp only [List.mem_cons, List.not_mem_nil, or_false] at hw
      rcases hw with rfl | rfl | rfl | rfl <;> decide
    obtain ⟨htransfer, hjump, hwrap, hreset, hkeys, hrandom⟩ := hlook
    exact {
      shift := fun _ => rfl
      leave := fun h => absurd h htransfer
      increment := fun h => absurd h htransfer
      jump := fun h => absurd h hjump
      wrap := fun h => absurd h hwrap
      reset := fun h => absurd h hreset
      halt := fun _ => rfl
      keys := fun h => absurd h hkeys
      random := fun h => absurd h hrandom }
  obtain ⟨hruns, -⟩ := differences_unnoticed .plain contrary shiftAndSound .released (Seeded.mk 7)
    (Tape.ofList []) 4
  obtain ⟨-, hincrement⟩ := differences_unnoticed contrary .plain shiftAndSound .released
    (Seeded.mk 7) (Seeded.mk 7) 4
  exact ⟨hwords, hruns hwords, rfl, hincrement rfl false⟩

end Chip8
