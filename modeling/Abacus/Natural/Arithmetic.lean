import Abacus.Natural.Basic

/-!
# Sum, difference, product and order

Sum and difference run over the blocks of both numbers side by side, with a carry or a borrow of
one between neighbouring blocks. A product doubles and adds, once for every bit of its right
factor. Each operation on representations is matched by the operation on numbers.
-/

namespace Abacus

namespace Blocks

/-- The blocks of both numbers side by side; missing blocks are zero. -/
def align (left right : List Nat) : List (Nat × Nat) :=
  List.zipWithAll (fun a b => (a.getD 0, b.getD 0)) left right

/-- The sum of the aligned numbers and a carry. -/
def addCarry : List (Nat × Nat) → (carry : Nat) → List Nat
  | [], carry => if carry = 0 then [] else [carry]
  | (a, b) :: rest, carry =>
    (a + b + carry) % base :: addCarry rest ((a + b + carry) / base)

/-- The difference of the aligned numbers and a borrow, and whether it falls below zero; then the
blocks are short of it by one block more than they have. -/
def subBorrow : List (Nat × Nat) → (borrow : Nat) → List Nat × Bool
  | [], borrow => ([], borrow != 0)
  | (a, b) :: rest, borrow =>
    let below := a < b + borrow
    let upper := subBorrow rest (if below then 1 else 0)
    ((if below then a + base - (b + borrow) else a - (b + borrow)) :: upper.1, upper.2)

/-- Both sides of every pair fit in a block. -/
def PairsInRange (pairs : List (Nat × Nat)) : Prop :=
  ∀ pair ∈ pairs, pair.1 < base ∧ pair.2 < base

theorem pairsInRange_cons {a b : Nat} {rest : List (Nat × Nat)} :
    PairsInRange ((a, b) :: rest) ↔ (a < base ∧ b < base) ∧ PairsInRange rest := by
  simp [PairsInRange]

theorem pairsInRange_align {left right : List Nat} (leftRange : InRange left)
    (rightRange : InRange right) : PairsInRange (align left right) := by
  induction left generalizing right with
  | nil =>
    intro pair member
    rw [align, List.nil_zipWithAll, List.mem_map] at member
    obtain ⟨block, here, rfl⟩ := member
    exact ⟨base_pos, rightRange block here⟩
  | cons a left ih =>
    cases right with
    | nil =>
      intro pair member
      rw [align, List.zipWithAll_nil, List.mem_map] at member
      obtain ⟨block, here, rfl⟩ := member
      exact ⟨leftRange block here, base_pos⟩
    | cons b right =>
      obtain ⟨aFits, leftRange⟩ := inRange_cons.mp leftRange
      obtain ⟨bFits, rightRange⟩ := inRange_cons.mp rightRange
      exact pairsInRange_cons.mpr ⟨⟨aFits, bFits⟩, ih leftRange rightRange⟩

theorem value_align_fst (left right : List Nat) :
    value ((align left right).map Prod.fst) = value left := by
  induction left generalizing right with
  | nil =>
    rw [align, List.nil_zipWithAll]
    induction right with
    | nil => rfl
    | cons b right ih => simpa [value] using congrArg (base * ·) ih
  | cons a left ih =>
    cases right with
    | nil => simp [align, Function.comp_def]
    | cons b right => rw [value, ← ih right]; rfl

theorem align_swap (left right : List Nat) :
    align right left = (align left right).map Prod.swap := by
  induction left generalizing right with
  | nil => cases right <;> simp [align]
  | cons a left ih =>
    cases right with
    | nil => simp [align]
    | cons b right => simpa [align] using ih right

theorem value_align_snd (left right : List Nat) :
    value ((align left right).map Prod.snd) = value right := by
  rw [← value_align_fst right left, align_swap left right, List.map_map]
  rfl

theorem value_addCarry (pairs : List (Nat × Nat)) (carry : Nat) :
    value (addCarry pairs carry) =
      value (pairs.map Prod.fst) + value (pairs.map Prod.snd) + carry := by
  induction pairs generalizing carry with
  | nil => by_cases none : carry = 0 <;> simp [addCarry, none, value]
  | cons pair rest ih =>
    have split := Nat.mod_add_div (pair.1 + pair.2 + carry) base
    simp only [addCarry, value, ih, List.map_cons, Nat.mul_add]
    omega

/-- A carry of at most one keeps every block of the sum in range. -/
theorem inRange_addCarry {pairs : List (Nat × Nat)} {carry : Nat} (inRange : PairsInRange pairs)
    (small : carry ≤ 1) : InRange (addCarry pairs carry) := by
  induction pairs generalizing carry with
  | nil => by_cases none : carry = 0 <;> simp [addCarry, none, InRange, base] ; omega
  | cons pair rest ih =>
    obtain ⟨fits, restRange⟩ := pairsInRange_cons.mp inRange
    refine inRange_cons.mpr ⟨Nat.mod_lt _ base_pos, ih restRange ?_⟩
    have : (pair.1 + pair.2 + carry) / base < 2 := Nat.div_lt_of_lt_mul (by omega)
    omega

theorem value_subBorrow {pairs : List (Nat × Nat)} (inRange : PairsInRange pairs) {borrow : Nat}
    (small : borrow ≤ 1) :
    value (subBorrow pairs borrow).1 + value (pairs.map Prod.snd) + borrow =
      value (pairs.map Prod.fst) +
        base.pow pairs.length * (subBorrow pairs borrow).2.toNat := by
  rw [Nat.pow_eq]
  induction pairs generalizing borrow with
  | nil =>
    have : borrow = 0 ∨ borrow = 1 := by omega
    rcases this with rfl | rfl <;> simp [subBorrow, value]
  | cons pair rest ih =>
    obtain ⟨fits, restRange⟩ := pairsInRange_cons.mp inRange
    by_cases below : pair.1 < pair.2 + borrow
    · have step := congrArg (base * ·) (ih restRange (Nat.le_refl 1))
      simp only [Nat.mul_add, Nat.mul_one, ← Nat.mul_assoc] at step
      simp only [subBorrow, below, if_true, value, List.map_cons, List.length_cons,
        Nat.pow_succ'] at step ⊢
      omega
    · have step := congrArg (base * ·) (ih restRange (Nat.zero_le 1))
      simp only [Nat.mul_add, Nat.mul_zero, ← Nat.mul_assoc] at step
      simp only [subBorrow, below, if_false, value, List.map_cons, List.length_cons,
        Nat.pow_succ'] at step ⊢
      omega

theorem inRange_subBorrow {pairs : List (Nat × Nat)} (inRange : PairsInRange pairs) {borrow : Nat}
    (small : borrow ≤ 1) : InRange (subBorrow pairs borrow).1 := by
  induction pairs generalizing borrow with
  | nil => simp [subBorrow, InRange]
  | cons pair rest ih =>
    obtain ⟨fits, restRange⟩ := pairsInRange_cons.mp inRange
    refine inRange_cons.mpr ⟨?_, ih restRange (by split <;> omega)⟩
    split <;> omega

theorem length_subBorrow (pairs : List (Nat × Nat)) (borrow : Nat) :
    (subBorrow pairs borrow).1.length = pairs.length := by
  induction pairs generalizing borrow with
  | nil => rfl
  | cons pair rest ih => simp [subBorrow, ih]

/-- Blocks in range stand for a number below the power of the base that they fill. -/
theorem value_lt {blocks : List Nat} (inRange : InRange blocks) :
    value blocks < base.pow blocks.length := by
  rw [Nat.pow_eq]
  induction blocks with
  | nil => simp [value]
  | cons block blocks ih =>
    obtain ⟨fits, restRange⟩ := inRange_cons.mp inRange
    have room := Nat.mul_le_mul_left base (ih restRange)
    rw [value, List.length_cons, Nat.pow_succ']
    rw [Nat.mul_succ] at room
    omega

end Blocks

namespace Natural
open Blocks

def add (a b : Natural) : Natural :=
  trimmed (addCarry (align a.blocks b.blocks) 0) <|
    inRange_addCarry (pairsInRange_align a.canonical.inRange b.canonical.inRange) (by omega)

/-- The difference and `false`, or zero and `true` when it would fall below zero. -/
def monus (a b : Natural) : Natural × Bool :=
  let pairs := align a.blocks b.blocks
  if (subBorrow pairs 0).2 then (zero, true)
  else
    (trimmed (subBorrow pairs 0).1 <|
      inRange_subBorrow (pairsInRange_align a.canonical.inRange b.canonical.inRange) (by omega),
      false)

/-- Whether `a` exceeds `b`: subtracting the other way round falls below zero. -/
def greaterThan (a b : Natural) : Bool :=
  (b.monus a).2

def double (a : Natural) : Natural :=
  a.add a

/-- Doubles `sum` and adds `a` where the bit is set, for the `count` low bits of `block`, the
most significant first. -/
def multiplyBits (a : Natural) (block : Nat) : (count : Nat) → (sum : Natural) → Natural
  | 0, sum => sum
  | count + 1, sum =>
    multiplyBits a block count (if block.testBit count then sum.double.add a else sum.double)

/-- The product of `a` with the number in `blocks`, from the top block down. -/
def multiplyBlocks (a : Natural) : List Nat → Natural
  | [] => zero
  | block :: blocks => multiplyBits a block 32 (multiplyBlocks a blocks)

def multiply (a b : Natural) : Natural :=
  multiplyBlocks a b.blocks

def lt (a b : Natural) : Bool :=
  b.greaterThan a

/-- The order: equal or strictly less. -/
def le (a b : Natural) : Bool :=
  a.lt b || a == b

/-- The order the other way round: neither less nor equal. -/
def gt (a b : Natural) : Bool :=
  !a.lt b && a != b

def ge (a b : Natural) : Bool :=
  !a.lt b

/-- The numbers in ascending order. -/
def sort (numbers : List Natural) : List Natural :=
  numbers.mergeSort le

@[simp] theorem toNat_add (a b : Natural) : (a.add b).toNat = a.toNat + b.toNat := by
  rw [add, toNat_trimmed, value_addCarry, value_align_fst, value_align_snd]
  rfl

@[simp] theorem toNat_double (a : Natural) : a.double.toNat = 2 * a.toNat := by
  rw [double, toNat_add]; omega

/-- The borrow left over tells whether the difference falls below zero. -/
theorem underflow_iff (a b : Natural) : (a.monus b).2 = true ↔ a.toNat < b.toNat := by
  have inRange := pairsInRange_align a.canonical.inRange b.canonical.inRange
  have balance := value_subBorrow inRange (Nat.zero_le 1)
  have room := value_lt (inRange_subBorrow inRange (Nat.zero_le 1))
  rw [length_subBorrow, Nat.pow_eq] at room
  rw [value_align_fst, value_align_snd, Nat.pow_eq] at balance
  cases underflow : (subBorrow (align a.blocks b.blocks) 0).2
  · simp only [monus, underflow, toNat] at balance ⊢
    simp at balance ⊢
    omega
  · simp only [monus, underflow, toNat] at balance ⊢
    simp at balance ⊢
    omega

@[simp] theorem toNat_monus (a b : Natural) : (a.monus b).1.toNat = a.toNat - b.toNat := by
  have inRange := pairsInRange_align a.canonical.inRange b.canonical.inRange
  have balance := value_subBorrow inRange (Nat.zero_le 1)
  rw [value_align_fst, value_align_snd] at balance
  have less := underflow_iff a b
  cases underflow : (subBorrow (align a.blocks b.blocks) 0).2
  · simp only [underflow, Bool.toNat_false, Nat.mul_zero, Nat.add_zero] at balance
    simp only [monus, underflow, Bool.false_eq_true, if_false, toNat_trimmed]
    simp only [toNat]
    omega
  · simp only [monus, underflow, if_true, true_iff] at less
    simp only [monus, underflow, if_true, toNat_zero]
    omega

theorem greaterThan_iff {a b : Natural} : a.greaterThan b = true ↔ b.toNat < a.toNat :=
  underflow_iff b a

theorem lt_iff {a b : Natural} : a.lt b = true ↔ a.toNat < b.toNat :=
  greaterThan_iff

theorem le_iff {a b : Natural} : a.le b = true ↔ a.toNat ≤ b.toNat := by
  rw [le, Bool.or_eq_true, lt_iff, beq_iff_eq, ← toNat_inj]
  omega

theorem gt_iff {a b : Natural} : a.gt b = true ↔ b.toNat < a.toNat := by
  rw [gt, Bool.and_eq_true, bne_iff_ne, ne_eq, ← toNat_inj, Bool.not_eq_true', ← Bool.not_eq_true, lt_iff]
  omega

theorem ge_iff {a b : Natural} : a.ge b = true ↔ b.toNat ≤ a.toNat := by
  rw [ge, Bool.not_eq_true', ← Bool.not_eq_true, lt_iff, Nat.not_lt]

/-- A multiplication by `a` under way. It has `taken` the top blocks of the right factor, but for the
`offset` low bits of the last of them, which has made the `sum` what it is. -/
inductive Multiplying (a : Natural) : (taken : List Nat) → (offset : Nat) → (sum : Natural) → Prop
  | start : Multiplying a [] 0 zero
  | block {taken : List Nat} {sum : Natural} (block : Nat) (before : Multiplying a taken 0 sum) :
      Multiplying a (block :: taken) 32 sum
  | bit {block offset : Nat} {taken : List Nat} {sum : Natural}
      (before : Multiplying a (block :: taken) (offset + 1) sum) :
      Multiplying a (block :: taken) offset
        (if block.testBit offset then sum.double.add a else sum.double)

/-- The sum, and the bits of the last block that are still to come, make up the product with what has been
taken of the right factor. -/
theorem Multiplying.balance {a sum : Natural} {taken : List Nat} {offset : Nat}
    (multiplying : Multiplying a taken offset sum) (inRange : InRange taken) :
    sum.toNat * Nat.pow 2 offset + taken.headD 0 % Nat.pow 2 offset * a.toNat =
      a.toNat * value taken := by
  induction multiplying with
  | start => simp [value]
  | @block taken sum block before ih =>
    obtain ⟨fits, restRange⟩ := inRange_cons.mp inRange
    have above := congrArg (· * base) (ih restRange)
    simp only [Nat.pow_eq, Nat.pow_zero, Nat.mul_one, Nat.mod_one, Nat.zero_mul, Nat.add_zero] at above
    have whole : block % Nat.pow 2 32 = block := Nat.mod_eq_of_lt fits
    rw [List.headD_cons, whole, show Nat.pow 2 32 = base from rfl, above, value, Nat.mul_add,
      Nat.add_comm, Nat.mul_comm block, Nat.mul_assoc, Nat.mul_comm base]
  | @bit block offset taken sum before ih =>
    have split : block % 2 ^ (offset + 1) = _ := Nat.mod_pow_succ
    rw [← Nat.toNat_testBit] at split
    have balance := ih inRange
    simp only [List.headD_cons, Nat.pow_eq] at balance ⊢
    rw [split, Nat.pow_succ] at balance
    rw [← balance]
    cases block.testBit offset
    · simp only [Bool.false_eq_true, if_false, toNat_double, Bool.toNat_false]
      grind
    · simp only [if_true, toNat_add, toNat_double, Bool.toNat_true]
      grind

/-- All bits of a block are taken one after the other. -/
theorem multiplying_multiplyBits {a sum : Natural} {block count : Nat} {taken : List Nat}
    (before : Multiplying a (block :: taken) count sum) :
    Multiplying a (block :: taken) 0 (multiplyBits a block count sum) := by
  induction count generalizing sum with
  | zero => exact before
  | succ count ih => exact ih before.bit

theorem multiplying_multiplyBlocks (a : Natural) (blocks : List Nat) :
    Multiplying a blocks 0 (multiplyBlocks a blocks) := by
  induction blocks with
  | nil => exact .start
  | cons block blocks ih => exact multiplying_multiplyBits (ih.block block)

/-- A product is the last sum of its multiplication. -/
@[simp] theorem toNat_multiply (a b : Natural) : (a.multiply b).toNat = a.toNat * b.toNat := by
  have balance := (multiplying_multiplyBlocks a b.blocks).balance b.canonical.inRange
  rwa [Nat.pow_eq, Nat.pow_zero, Nat.mul_one, Nat.mod_one, Nat.zero_mul, Nat.add_zero] at balance

end Natural

end Abacus
