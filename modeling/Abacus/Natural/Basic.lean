import Abacus.Error

/-!
# Natural numbers in blocks

A natural number of any size is a list of 32-bit blocks, the least significant first. The list
is canonical: it is never empty, and its top block is zero only in the number zero, so every
number has one representation. `Natural.toNat` is the number a representation stands for.
-/

namespace Abacus

namespace Blocks

/-- One more than the largest block. -/
def base : Nat := 0x100000000

/-- The number that a list of blocks stands for. -/
def value : List Nat → Nat
  | [] => 0
  | block :: blocks => block + base * value blocks

/-- Every block fits in its 32 bits. -/
def InRange (blocks : List Nat) : Prop :=
  ∀ block ∈ blocks, block < base

/-- The blocks without the zeros at the top. -/
def dropTop : List Nat → List Nat
  | [] => []
  | block :: blocks =>
    match dropTop blocks with
    | [] => if block = 0 then [] else [block]
    | next :: rest => block :: next :: rest

/-- The canonical blocks of the same number. -/
def trim (blocks : List Nat) : List Nat :=
  match dropTop blocks with
  | [] => [0]
  | block :: rest => block :: rest

/-- The blocks of a number. -/
def ofNat (n : Nat) : List Nat :=
  if n < base then [n] else n % base :: ofNat (n / base)
termination_by n
decreasing_by
  rename_i large
  exact Nat.div_lt_self (by simp only [base] at large; omega) (by decide)

/-- In range, not empty, and without a zero block on top except in zero itself. -/
structure Canonical (blocks : List Nat) : Prop where
  inRange : InRange blocks
  nonempty : blocks ≠ []
  top : blocks.getLast? = some 0 → blocks = [0]

theorem base_pos : 0 < base := by decide

theorem inRange_cons {block : Nat} {blocks : List Nat} :
    InRange (block :: blocks) ↔ block < base ∧ InRange blocks := by
  simp [InRange]

theorem value_dropTop (blocks : List Nat) : value (dropTop blocks) = value blocks := by
  induction blocks with
  | nil => rfl
  | cons block blocks ih =>
    cases tail : dropTop blocks with
    | nil =>
      rw [tail] at ih
      by_cases zero : block = 0 <;> simp [dropTop, tail, zero, value, ← ih]
    | cons next rest =>
      rw [tail] at ih
      simp only [dropTop, tail, value] at ih ⊢
      rw [ih]

theorem mem_of_mem_dropTop {block : Nat} {blocks : List Nat} (member : block ∈ dropTop blocks) :
    block ∈ blocks := by
  induction blocks with
  | nil => simp [dropTop] at member
  | cons head blocks ih =>
    cases tail : dropTop blocks with
    | nil =>
      by_cases zero : head = 0 <;> simp_all [dropTop]
    | cons next rest =>
      rw [tail] at ih
      simp only [dropTop, tail, List.mem_cons] at member ih ⊢
      rcases member with same | later
      · exact Or.inl same
      · exact Or.inr (ih later)

theorem getLast?_dropTop (blocks : List Nat) : (dropTop blocks).getLast? ≠ some 0 := by
  induction blocks with
  | nil => simp [dropTop]
  | cons block blocks ih =>
    cases tail : dropTop blocks with
    | nil => by_cases zero : block = 0 <;> simp [dropTop, tail, zero]
    | cons next rest =>
      rw [tail] at ih
      simpa [dropTop, tail, List.getLast?_cons_cons] using ih

theorem value_trim (blocks : List Nat) : value (trim blocks) = value blocks := by
  rw [← value_dropTop blocks]
  cases trimmed : dropTop blocks <;> simp [trim, trimmed, value]

theorem canonical_trim {blocks : List Nat} (inRange : InRange blocks) :
    Canonical (trim blocks) := by
  have kept : ∀ block, block ∈ dropTop blocks → block ∈ blocks := fun _ => mem_of_mem_dropTop
  have last := getLast?_dropTop blocks
  cases trimmed : dropTop blocks with
  | nil =>
    refine ⟨?_, by simp [trim, trimmed], by simp [trim, trimmed]⟩
    simp [trim, trimmed, InRange, base_pos]
  | cons block rest =>
    rw [trimmed] at kept last
    refine ⟨?_, by simp [trim, trimmed], ?_⟩
    · intro one member
      exact inRange one (kept one (by simpa [trim, trimmed] using member))
    · intro zero
      exact absurd (by simpa [trim, trimmed] using zero) last

theorem inRange_ofNat (n : Nat) : InRange (ofNat n) := by
  fun_induction ofNat n with
  | case1 n small => simpa [InRange] using small
  | case2 n large ih => exact inRange_cons.mpr ⟨Nat.mod_lt _ base_pos, ih⟩

theorem value_ofNat (n : Nat) : value (ofNat n) = n := by
  fun_induction ofNat n with
  | case1 n small => simp [value]
  | case2 n large ih => rw [value, ih]; exact Nat.mod_add_div n base

theorem Canonical.tail {block next : Nat} {rest : List Nat}
    (whole : Canonical (block :: next :: rest)) : Canonical (next :: rest) := by
  refine ⟨(inRange_cons.mp whole.inRange).2, by simp, fun zero => ?_⟩
  exact absurd (whole.top (by rwa [List.getLast?_cons_cons])) (by simp)

/-- A number has only one canonical list of blocks. -/
theorem ofNat_value {blocks : List Nat} (canonical : Canonical blocks) :
    ofNat (value blocks) = blocks := by
  induction blocks with
  | nil => exact absurd rfl canonical.nonempty
  | cons block blocks ih =>
    have fits := (inRange_cons.mp canonical.inRange).1
    cases blocks with
    | nil => rw [ofNat, if_pos (by simpa [value] using fits)]; simp [value]
    | cons next rest =>
      have same := ih canonical.tail
      have positive : 0 < value (next :: rest) := by
        rcases Nat.eq_zero_or_pos (value (next :: rest)) with zero | positive
        · rw [zero, ofNat, if_pos base_pos] at same
          have top := canonical.top (by rw [List.getLast?_cons_cons, ← same]; rfl)
          simp at top
        · exact positive
      have large : ¬ block + base * value (next :: rest) < base := by
        have := Nat.le_mul_of_pos_right base positive
        omega
      rw [value, ofNat, if_neg large, Nat.add_mul_mod_self_left, Nat.mod_eq_of_lt fits,
        Nat.add_mul_div_left _ _ base_pos, Nat.div_eq_of_lt fits, Nat.zero_add, same]

end Blocks

/-- A natural number of any size. -/
structure Natural where
  /-- The 32-bit blocks, the least significant first. -/
  blocks : List Nat
  canonical : Blocks.Canonical blocks
deriving DecidableEq

namespace Natural

/-- The number itself. -/
def toNat (n : Natural) : Nat :=
  Blocks.value n.blocks

/-- The number that blocks in range stand for. -/
def trimmed (blocks : List Nat) (inRange : Blocks.InRange blocks) : Natural :=
  ⟨Blocks.trim blocks, Blocks.canonical_trim inRange⟩

/-- The number `n` in blocks. -/
def ofNat (n : Nat) : Natural :=
  trimmed (Blocks.ofNat n) (Blocks.inRange_ofNat n)

/-- The number `value`, which must not be negative. -/
def ofInt? (value : Int) : Except Error Natural :=
  if value < 0 then .error (.negativeNatural value) else .ok (ofNat value.toNat)

/-- Whether `block` fits in its 32 bits. -/
def fits (block : Int) : Bool :=
  0 ≤ block && block < Blocks.base

/-- The number that `blocks` stand for, zeros at the top allowed; every block has to fit in its
32 bits, and the first that does not is reported. -/
def ofBlocks? (blocks : List Int) : Except Error Natural :=
  match outside : blocks.find? fun block => !fits block with
  | some block => .error (.blockOutOfRange block)
  | none => .ok (trimmed (blocks.map Int.toNat) fun block member => by
      obtain ⟨given, here, rfl⟩ := List.mem_map.mp member
      have inside := List.find?_eq_none.mp outside given here
      simp only [fits, Bool.not_eq_true', Bool.not_eq_false, Bool.and_eq_true,
        decide_eq_true_eq] at inside
      omega)

def zero : Natural := ofNat 0

def one : Natural := ofNat 1

def ten : Natural := ofNat 10

def isZero (n : Natural) : Bool :=
  n.blocks == [0]

def isOne (n : Natural) : Bool :=
  n.blocks == [1]

instance : Inhabited Natural := ⟨zero⟩

@[simp] theorem toNat_trimmed (blocks : List Nat) (inRange : Blocks.InRange blocks) :
    (trimmed blocks inRange).toNat = Blocks.value blocks :=
  Blocks.value_trim blocks

@[simp] theorem toNat_ofNat (n : Nat) : (ofNat n).toNat = n := by
  rw [ofNat, toNat_trimmed, Blocks.value_ofNat]

@[simp] theorem toNat_zero : zero.toNat = 0 :=
  toNat_ofNat 0

@[simp] theorem toNat_one : one.toNat = 1 :=
  toNat_ofNat 1

@[simp] theorem toNat_ten : ten.toNat = 10 :=
  toNat_ofNat 10

/-- Two representations of one number are the same. -/
theorem toNat_inj {a b : Natural} : a.toNat = b.toNat ↔ a = b := by
  refine ⟨fun same => ?_, fun same => same ▸ rfl⟩
  cases a with | mk left leftCanonical => cases b with | mk right rightCanonical =>
    have equal : left = right := by
      rw [← Blocks.ofNat_value leftCanonical, ← Blocks.ofNat_value rightCanonical]
      exact congrArg Blocks.ofNat same
    subst equal
    rfl

theorem isZero_iff {n : Natural} : n.isZero = true ↔ n.toNat = 0 := by
  rw [isZero, beq_iff_eq]
  constructor
  · intro blocks; simp [toNat, blocks, Blocks.value]
  · intro none; rw [toNat_inj.mp (none.trans toNat_zero.symm)]; decide +kernel

theorem isOne_iff {n : Natural} : n.isOne = true ↔ n.toNat = 1 := by
  rw [isOne, beq_iff_eq]
  constructor
  · intro blocks; simp [toNat, blocks, Blocks.value]
  · intro single; rw [toNat_inj.mp (single.trans toNat_one.symm)]; decide +kernel

end Natural

end Abacus
