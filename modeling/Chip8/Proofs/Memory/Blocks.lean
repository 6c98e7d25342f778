import Chip8.Proofs.Guarded.Access

/-!
# Block copies

A block is copied into memory as a whole or not at all.  `Memory.loadBytes` is defined in a way that
leaves two questions about this open.  It adds an address and a length as numbers without a bound, so
it cannot be asked what becomes of a sum that takes more than 64 bits.  If that began again at zero,
a block that lies beyond the end of memory would be let in.  And there is no memory in a refusal, so
it cannot be asked what a refused copy leaves behind.

## Memory changed in place

`InPlace` is a second reading, in which both can be asked.  There is one memory, and it is changed
where it stands, one cell after the other: what has been written by the time a request is refused
stays written.  Addresses have 64 bits, and so have their sums.  A cell that does not exist is a
fault, and so is a place for a block that has another length than the block.

The loop over the cells comes to `Memory.overwrite` by one law, that a block may be copied in two
parts (`overwrite_append`): its first byte is a part, and the bytes behind it are the other
(`run_setCells`).  The checks are made before the first cell is written, so both readings come to the
same (`run_loadBytes`, `run_loadProgram`).

## The size of a program

A program is checked for its size, and is then copied like any block, which is checked for its end.
The two limits meet, 512 and 3584 being 4096, so the second check has nothing left to refuse
(`loadProgram_cases`).
-/

namespace Chip8

namespace Memory

variable (m : Memory) (address : Nat)

/-! ## Cells -/

/-- A memory is known by its cells. -/
theorem ext_get {m m' : Memory} (h : ∀ a : Fin 4096, m.cells.get a = m'.cells.get a) : m = m' :=
  congrArg Memory.mk (Vector.ext fun i hi => h ⟨i, hi⟩)

/-- A cell after a block copy. -/
theorem get_overwrite (block : List UInt8) (a : Fin 4096) :
    (m.overwrite address block).cells.get a =
      if address ≤ a.val then (block[a.val - address]?).getD (m.cells.get a) else m.cells.get a :=
  getElem_overwrite m address block a.val a.isLt

theorem overwrite_nil : m.overwrite address [] = m := by
  refine ext_get fun a => ?_
  rw [get_overwrite, List.getElem?_nil, Option.getD_none, ite_self]

/-- A block may be copied in two parts, one behind the other. -/
theorem overwrite_append (front back : List UInt8) :
    m.overwrite address (front ++ back) =
      (m.overwrite address front).overwrite (address + front.length) back := by
  refine ext_get fun a => ?_
  rw [get_overwrite, get_overwrite, get_overwrite]
  rcases Nat.lt_or_ge a.val address with hbefore | hfrom
  · rw [if_neg (by omega), if_neg (by omega), if_neg (by omega)]
  · rw [if_pos hfrom, if_pos hfrom]
    rcases Nat.lt_or_ge a.val (address + front.length) with hfront | hback
    · rw [if_neg (by omega), List.getElem?_append_left (by omega)]
    · rw [if_pos hback, List.getElem?_append_right (by omega), Nat.sub_sub,
        List.getElem?_eq_none (l := front) (by omega), Option.getD_none]

/-- A block of one byte replaces one cell. -/
theorem overwrite_singleton (i : Fin 4096) (value : UInt8) :
    m.overwrite i.val [value] = ⟨m.cells.set i.val value i.isLt⟩ := by
  refine ext_get fun a => ?_
  rw [get_overwrite, Vector.get_eq_getElem (m.cells.set ..), Vector.getElem_set]
  rcases Nat.lt_trichotomy a.val i.val with hbefore | hat | hbehind
  · rw [if_neg (by omega), if_neg (by omega)]
    rfl
  · rw [if_pos (by omega), if_pos hat.symm, hat, Nat.sub_self]
    rfl
  · have hpast : [value].length ≤ a.val - i.val := by
      rw [List.length_singleton]
      omega
    rw [if_pos (by omega), if_neg (by omega), List.getElem?_eq_none hpast]
    rfl

/-- A memory in which a block has been copied to an address: the bytes of the block are in the
cells from there on, in their order, and the other cells are as they were in `m`. -/
structure CopiedAt (block : List UInt8) (after : Memory) : Prop where
  /-- The cells of the block have its bytes. -/
  inside : ∀ a : Fin 4096, address ≤ a.val → a.val < address + block.length →
    block[a.val - address]? = some (after.cells.get a)
  /-- The cells before and behind it have what they had. -/
  outside : ∀ a : Fin 4096, a.val < address ∨ address + block.length ≤ a.val →
    after.cells.get a = m.cells.get a

theorem copiedAt_overwrite (block : List UInt8) :
    m.CopiedAt address block (m.overwrite address block) where
  inside a hfrom hbefore := by
    have hlt : a.val - address < block.length := by omega
    rw [get_overwrite, if_pos hfrom, List.getElem?_eq_getElem hlt, Option.getD_some]
  outside a hout := by
    rw [get_overwrite]
    rcases hout with hbefore | hbehind
    · rw [if_neg (by omega)]
    · rw [List.getElem?_eq_none (by omega), Option.getD_none, ite_self]

/-- What is left to one who holds `m` and asks for a new memory: the answer, and the memory that is
held from then on. -/
def settle : Except Refusal Memory → Except Refusal Unit × Memory
  | .ok after => (.ok (), after)
  | .error e => (.error e, m)

end Memory

/-! ## Memory changed in place -/

/-- A request that changes memory in place.  It may be refused, or come to a fault. -/
abbrev InPlace (α : Type) := ExceptT Refusal (StateT Memory Attempt) α

namespace InPlace

variable {α β : Type}

/-- What a request comes to: the answer, and memory as it is left, whatever the answer. -/
def run (x : InPlace α) (m : Memory) : Attempt (Except Refusal α × Memory) :=
  StateT.run (ExceptT.run x) m

/-- Replace what is in a cell. -/
def setCell (i : Nat) (value : UInt8) : InPlace Unit := do
  let m ← get
  let cells ← Guarded.replace m.cells i value
  set (Memory.mk cells)

/-- Replace what is in the cells from one on, one after the other. -/
def setCells (i : Nat) : List UInt8 → InPlace Unit
  | [] => pure ()
  | value :: values => do
      setCell i value
      setCells (i + 1) values

/-- Copy a block to the cells from one address up to another. -/
def copyTo (start stop : Nat) (block : List UInt8) : InPlace Unit :=
  if start ≤ stop ∧ stop ≤ 4096 then
    if block.length = stop - start then setCells start block
    else liftM (Except.error (.length (stop - start) block.length) : Attempt Unit)
  else liftM (Except.error (.range start stop 4096) : Attempt Unit)

/-- The sum of an address and a length, if 64 bits are enough for it. -/
def sum? (address : UInt64) (length : Nat) : Option UInt64 :=
  if address.toNat + length < 2 ^ 64 then some (address + UInt64.ofNat length) else none

/-- Copy a block into memory, all or nothing. -/
def loadBytes (address : UInt64) (block : List UInt8) : InPlace Unit :=
  match (sum? address block.length).filter (· ≤ 4096) with
  | some stop => copyTo address.toNat stop.toNat block
  | none => throw .memoryOverflow

/-- Copy a program to where programs start. -/
def loadProgram (program : List UInt8) : InPlace Unit := do
  if program.isEmpty then throw .emptyRom
  if program.length > 3584 then throw (.romTooLarge program.length)
  loadBytes 0x200 program

/-- What has succeeded is passed on, with memory as it is by then. -/
theorem run_bind_of_ok {x : InPlace α} {m m' : Memory} {a : α} (h : x.run m = .ok (.ok a, m'))
    (f : α → InPlace β) : (x >>= f).run m = (f a).run m' := by
  have hx : x m = .ok (.ok a, m') := h
  show (x m >>= fun p => ExceptT.bindCont f p.1 p.2) = _
  rw [hx]
  rfl

/-- A cell that exists is replaced, as by a block of one byte. -/
theorem run_setCell (m : Memory) {i : Nat} (value : UInt8) (h : i < 4096) :
    (setCell i value).run m = .ok (.ok (), m.overwrite i [value]) := by
  have hget : (get : InPlace Memory).run m = .ok (.ok m, m) := rfl
  have hreplace : (liftM (Guarded.replace m.cells i value) : InPlace _).run m =
      .ok (.ok (m.cells.set i value), m) := by
    rw [Guarded.replace_of_lt m.cells value h]
    rfl
  rw [setCell, run_bind_of_ok hget, m.overwrite_singleton ⟨i, h⟩ value]
  exact run_bind_of_ok hreplace _

/-- **The loop over the cells copies the block**, if all of them exist. -/
theorem run_setCells (m : Memory) {i : Nat} {block : List UInt8} (h : i + block.length ≤ 4096) :
    (setCells i block).run m = .ok (.ok (), m.overwrite i block) := by
  induction block generalizing m i with
  | nil => rw [Memory.overwrite_nil]; rfl
  | cons value values ih =>
      rw [List.length_cons] at h
      rw [setCells, run_bind_of_ok (run_setCell m value (by omega)), ih _ (by omega)]
      exact congrArg (fun after => Except.ok (Except.ok (), after))
        (m.overwrite_append i [value] values).symm

/-- A place of the length of the block, within memory, takes the block. -/
theorem run_copyTo (m : Memory) {start stop : Nat} {block : List UInt8}
    (hstop : start + block.length = stop) (hend : stop ≤ 4096) :
    (copyTo start stop block).run m = .ok (.ok (), m.overwrite start block) := by
  rw [copyTo, if_pos (by omega), if_pos (by omega), run_setCells m (by omega)]

/-- The sum in 64 bits lies within memory exactly when the sum of the numbers does, and is the same
number then. -/
theorem filter_sum?_eq (address : UInt64) (length : Nat) :
    ((sum? address length).filter (· ≤ 4096)).map UInt64.toNat =
      if address.toNat + length ≤ 4096 then some (address.toNat + length) else none := by
  rw [sum?]
  by_cases hlt : address.toNat + length < 2 ^ 64
  · have hlength : length < 2 ^ 64 := by omega
    have hsum : (address + UInt64.ofNat length).toNat = address.toNat + length := by
      rw [UInt64.toNat_add, UInt64.toNat_ofNat_of_lt' hlength, Nat.mod_eq_of_lt hlt]
    have hwithin : address + UInt64.ofNat length ≤ 4096 ↔ address.toNat + length ≤ 4096 := by
      rw [UInt64.le_iff_toNat_le, hsum]
      rfl
    rw [if_pos hlt, Option.filter_some]
    by_cases hfits : address.toNat + length ≤ 4096
    · rw [if_pos (decide_eq_true (hwithin.mpr hfits)), if_pos hfits, Option.map_some, hsum]
    · rw [if_neg (by simpa only [decide_eq_true_eq] using fun h => hfits (hwithin.mp h)),
        if_neg hfits, Option.map_none]
  · -- the sum has begun again at zero, and is not looked at
    rw [if_neg hlt, if_neg (by omega)]
    rfl

-- a block of one byte at the last of all addresses would end at zero
example : (0xFFFFFFFFFFFFFFFF : UInt64) + 1 = 0 ∧ sum? 0xFFFFFFFFFFFFFFFF 1 = none := by decide

/-- **A block is copied in place as it is for a new memory**, and a refusal leaves the old one. -/
theorem run_loadBytes (m : Memory) (address : UInt64) (block : List UInt8) :
    (loadBytes address block).run m = .ok (m.settle (m.loadBytes address.toNat block)) := by
  have hsum := filter_sum?_eq address block.length
  rw [loadBytes, Memory.loadBytes]
  by_cases hfits : address.toNat + block.length ≤ 4096
  · rw [if_pos hfits] at hsum ⊢
    obtain ⟨stop, hstop, htoNat⟩ := Option.map_eq_some_iff.mp hsum
    rw [hstop]
    exact run_copyTo m htoNat.symm (htoNat ▸ hfits)
  · rw [if_neg hfits] at hsum ⊢
    rw [Option.map_eq_none_iff.mp hsum]
    rfl

/-- **The same goes for a program**, which is checked for its size before. -/
theorem run_loadProgram (m : Memory) (program : List UInt8) :
    (loadProgram program).run m = .ok (m.settle (m.loadProgram program)) := by
  rw [loadProgram, Memory.loadProgram]
  by_cases hempty : program.isEmpty
  · rw [if_pos hempty, if_pos hempty]
    rfl
  · rw [if_neg hempty, if_neg hempty]
    by_cases hlarge : program.length > 3584
    · rw [if_pos hlarge, if_pos hlarge]
      rfl
    · rw [if_neg hlarge, if_neg hlarge]
      exact run_loadBytes m 0x200 program

end InPlace

namespace Memory

variable (m : Memory)

/-! ## All or nothing -/

/-- The two ways in which a copy of a block can end, said of the request in place and of what the
request for a new memory has come to.  A copy comes to no fault in either of them. -/
inductive AllOrNothing (address : Nat) (block : List UInt8) (request : InPlace Unit) :
    Except Refusal Memory → Prop where
  /-- The block is copied, and no other cell has changed. -/
  | copied {after : Memory} (hrun : request.run m = .ok (.ok (), after))
      (hcopied : m.CopiedAt address block after) : AllOrNothing address block request (.ok after)
  /-- The block is refused for the same reason, and memory is as before. -/
  | refused {e : Refusal} (hrun : request.run m = .ok (.error e, m)) :
      AllOrNothing address block request (.error e)

/-- A request in place that settles like one for a new memory ends in one of the two ways, if the
new memory has the block. -/
theorem allOrNothing_of_run {address : Nat} {block : List UInt8} {request : InPlace Unit}
    {result : Except Refusal Memory} (hrun : request.run m = .ok (m.settle result))
    (hcopied : ∀ after, result = .ok after → m.CopiedAt address block after) :
    m.AllOrNothing address block request result := by
  cases result with
  | ok after => exact .copied hrun (hcopied after rfl)
  | error e => exact .refused hrun

/-- A block ends within memory and is copied, or is refused. -/
theorem loadBytes_cases (address : Nat) (block : List UInt8) :
    (address + block.length ≤ 4096 ∧
      m.loadBytes address block = .ok (m.overwrite address block)) ∨
    (4096 < address + block.length ∧ m.loadBytes address block = .error .memoryOverflow) := by
  rcases Nat.lt_or_ge 4096 (address + block.length) with hover | hfits
  · exact .inr ⟨hover, if_neg (by omega)⟩
  · exact .inl ⟨hfits, if_pos hfits⟩

/-- A program has no bytes, or too many, or is copied: its size leaves the copy nothing to refuse. -/
theorem loadProgram_cases (program : List UInt8) :
    (program = [] ∧ m.loadProgram program = .error .emptyRom) ∨
    (3584 < program.length ∧ m.loadProgram program = .error (.romTooLarge program.length)) ∨
    (1 ≤ program.length ∧ program.length ≤ 3584 ∧
      m.loadProgram program = .ok (m.overwrite 0x200 program)) := by
  by_cases hempty : program = []
  · exact .inl ⟨hempty, hempty ▸ rfl⟩
  · rcases Nat.lt_or_ge 3584 program.length with hlarge | hfits
    · refine .inr (.inl ⟨hlarge, ?_⟩)
      rw [loadProgram, if_neg (by rwa [List.isEmpty_iff]), if_pos hlarge]
    · exact .inr (.inr ⟨List.length_pos_iff.mpr hempty, hfits, m.loadProgram_eq_ok hempty hfits⟩)

theorem copiedAt_of_loadBytes {address : Nat} {block : List UInt8} {after : Memory}
    (h : m.loadBytes address block = .ok after) : m.CopiedAt address block after := by
  rcases m.loadBytes_cases address block with ⟨-, hload⟩ | ⟨-, hload⟩
  · obtain rfl := Except.ok.inj (hload.symm.trans h)
    exact m.copiedAt_overwrite address block
  · cases hload.symm.trans h

theorem copiedAt_of_loadProgram {program : List UInt8} {after : Memory}
    (h : m.loadProgram program = .ok after) : m.CopiedAt 0x200 program after := by
  rcases m.loadProgram_cases program with ⟨-, hload⟩ | ⟨-, hload⟩ | ⟨-, -, hload⟩
  · cases hload.symm.trans h
  · cases hload.symm.trans h
  · obtain rfl := Except.ok.inj (hload.symm.trans h)
    exact m.copiedAt_overwrite 0x200 program

/-- **A block is copied exactly or not at all.**  Let a block be copied to any address of 64 bits, in
any memory.

* The copy is all or nothing, in place and for a new memory.
* It succeeds if the address and the length of the block add up to 4096 at most, as numbers, and
  runs past the end of memory otherwise.

Let the block be a program.

* The copy is all or nothing, and the cells that it changes are those from 512 on.
* It is refused as empty if there are no bytes, and as too large, by its own size, if there are more
  than 3584.
* It succeeds with all the sizes between, and never runs past the end of memory. -/
theorem block_copied_exactly_or_refused (block : List UInt8) :
    (∀ address : UInt64,
      m.AllOrNothing address.toNat block (InPlace.loadBytes address block)
        (m.loadBytes address.toNat block) ∧
      ((m.loadBytes address.toNat block).isOk = true ↔ address.toNat + block.length ≤ 4096) ∧
      (m.loadBytes address.toNat block = .error .memoryOverflow ↔
        4096 < address.toNat + block.length)) ∧
    m.AllOrNothing 0x200 block (InPlace.loadProgram block) (m.loadProgram block) ∧
    (m.loadProgram block = .error .emptyRom ↔ block = []) ∧
    (∀ size, m.loadProgram block = .error (.romTooLarge size) ↔
      size = block.length ∧ 3584 < block.length) ∧
    ((m.loadProgram block).isOk = true ↔ 1 ≤ block.length ∧ block.length ≤ 3584) ∧
    m.loadProgram block ≠ .error .memoryOverflow := by
  refine ⟨fun address => ⟨m.allOrNothing_of_run (InPlace.run_loadBytes m address block)
    fun _ => m.copiedAt_of_loadBytes, ?sum⟩,
    m.allOrNothing_of_run (InPlace.run_loadProgram m block) fun _ => m.copiedAt_of_loadProgram,
    ?sizes⟩
  case sum =>
    rcases m.loadBytes_cases address.toNat block with ⟨hfits, hload⟩ | ⟨hover, hload⟩
    · rw [hload]
      simp [Except.isOk, Except.toBool, hfits]
    · rw [hload]
      simp [Except.isOk, Except.toBool, hover]
  case sizes =>
    rcases m.loadProgram_cases block with ⟨hempty, hload⟩ | ⟨hlarge, hload⟩ | ⟨hpos, hfits, hload⟩
    · rw [hload]
      simp [Except.isOk, Except.toBool, hempty]
    · have hne : block ≠ [] := List.length_pos_iff.mp (by omega)
      rw [hload]
      simp [Except.isOk, Except.toBool, hne, hlarge, eq_comm]
    · have hne : block ≠ [] := List.length_pos_iff.mp hpos
      rw [hload]
      simp [Except.isOk, Except.toBool, hne, hpos, hfits]

end Memory
end Chip8
