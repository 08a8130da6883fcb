import Abacus.Proofs.Natural
import Mathlib.Algebra.BigOperators.Fin

/-!
# One representation for each number

Given blocks are refused exactly if one of them does not fit in its 32 bits. All others stand for the sum of
the blocks at their places, and only zeros at the top are dropped. Every canonical list of blocks is that of
exactly one number, so taking numbers apart and putting them together are inverse to each other, and
representations are equal exactly if they stand for equal numbers (`Natural.one_representation`).
-/

namespace Abacus

namespace Blocks

/-! ## Blocks at their places -/

/-- With a block below them, all others move up by one place. -/
theorem sum_places_cons (block : Int) (blocks : List Int) :
    ∑ i : Fin (block :: blocks).length, (block :: blocks)[i] * 2 ^ (32 * i.val) =
      block + base * ∑ i : Fin blocks.length, blocks[i] * 2 ^ (32 * i.val) := by
  have whole : (base : Int) = 2 ^ 32 := rfl
  refine (Fin.sum_univ_succ fun i : Fin (blocks.length + 1) =>
    (block :: blocks)[i] * (2 : Int) ^ (32 * i.val)).trans ?_
  rw [Finset.mul_sum]
  refine congrArg₂ (· + ·) (mul_one block) (Finset.sum_congr rfl fun i _ => ?_)
  show blocks[i] * 2 ^ (32 * (i.val + 1)) = base * (blocks[i] * 2 ^ (32 * i.val))
  rw [whole, Nat.mul_succ, pow_add, ← mul_assoc, mul_comm]

/-- Blocks that are not negative stand for their sum. -/
theorem value_toNat {blocks : List Int} (positive : ∀ block ∈ blocks, 0 ≤ block) :
    (value (blocks.map Int.toNat) : Int) = ∑ i : Fin blocks.length, blocks[i] * 2 ^ (32 * i.val) := by
  induction blocks with
  | nil => rfl
  | cons block blocks ih =>
    obtain ⟨first, others⟩ := List.forall_mem_cons.mp positive
    rw [sum_places_cons, ← ih others, List.map_cons, value, Nat.cast_add, Nat.cast_mul,
      Int.toNat_of_nonneg first]

/-- Only zeros at the top are dropped. -/
theorem exists_dropTop_append (blocks : List Nat) :
    ∃ zeros, dropTop blocks ++ List.replicate zeros 0 = blocks := by
  induction blocks with
  | nil => exact ⟨0, rfl⟩
  | cons block blocks ih =>
    obtain ⟨zeros, same⟩ := ih
    cases tail : dropTop blocks with
    | nil =>
      have step : dropTop (block :: blocks) = if block = 0 then [] else [block] := by rw [dropTop, tail]
      rw [tail, List.nil_append] at same
      by_cases zero : block = 0
      · exact ⟨zeros + 1, by rw [step, if_pos zero, List.nil_append, List.replicate_succ, same, zero]⟩
      · exact ⟨zeros, by rw [step, if_neg zero, List.singleton_append, same]⟩
    | cons next rest =>
      have step : dropTop (block :: blocks) = block :: next :: rest := by rw [dropTop, tail]
      rw [tail] at same
      exact ⟨zeros, by rw [step, List.cons_append, same]⟩

theorem exists_trim_append {blocks : List Nat} (nonempty : blocks ≠ []) :
    ∃ zeros, trim blocks ++ List.replicate zeros 0 = blocks := by
  obtain ⟨zeros, same⟩ := exists_dropTop_append blocks
  cases kept : dropTop blocks with
  | cons block rest =>
    have trimmed : trim blocks = dropTop blocks := by rw [trim, kept]
    exact ⟨zeros, by rw [trimmed, same]⟩
  | nil =>
    -- One of the zeros stays, as the only block.
    have trimmed : trim blocks = [0] := by rw [trim, kept]
    rw [kept, List.nil_append] at same
    cases zeros with
    | zero => exact absurd same.symm nonempty
    | succ zeros => exact ⟨zeros, by rw [trimmed, List.singleton_append, ← same, List.replicate_succ]⟩

/-! ## Taking numbers apart and putting them together -/

/-- The bits of the lowest block. -/
def mask : Nat := base - 1

/-- A run that takes a number apart. The lowest block of what is `left` of it is written behind those already
`written` and shifted out, until nothing is left; the `blocks` have then been written. -/
inductive Shifting : (left : Nat) → (written blocks : List Nat) → Prop
  | stop {left : Nat} {written : List Nat} (nothing : left >>> 32 = 0) :
      Shifting left written (written ++ [left &&& mask])
  | turn {left : Nat} {written blocks : List Nat} (more : left >>> 32 ≠ 0)
      (later : Shifting (left >>> 32) (written ++ [left &&& mask]) blocks) : Shifting left written blocks

theorem and_mask (n : Nat) : n &&& mask = n % base :=
  Nat.and_two_pow_sub_one_eq_mod n 32

theorem shiftRight_eq_div (n : Nat) : n >>> 32 = n / base :=
  Nat.shiftRight_eq_div_pow n 32

theorem shiftRight_eq_zero_iff (n : Nat) : n >>> 32 = 0 ↔ n < base := by
  rw [shiftRight_eq_div, Nat.div_eq_zero_iff_lt base_pos]

/-- The run ends for every number, and writes its blocks. -/
theorem shifting_iff {left : Nat} {written blocks : List Nat} :
    Shifting left written blocks ↔ blocks = written ++ ofNat left := by
  constructor
  · intro shifting
    induction shifting with
    | @stop left written nothing =>
      have small := (shiftRight_eq_zero_iff left).mp nothing
      rw [ofNat, if_pos small, and_mask, Nat.mod_eq_of_lt small]
    | @turn left written blocks more later ih =>
      have large := mt (shiftRight_eq_zero_iff left).mpr more
      rw [ih, and_mask, shiftRight_eq_div, List.append_assoc, List.singleton_append]
      conv_rhs => rw [ofNat, if_neg large]
  · rintro rfl
    fun_induction ofNat left generalizing written with
    | case1 left small =>
      have stop : Shifting left written (written ++ [left &&& mask]) :=
        .stop ((shiftRight_eq_zero_iff left).mpr small)
      rwa [and_mask, Nat.mod_eq_of_lt small] at stop
    | case2 left large ih =>
      have later : Shifting (left / base) (written ++ [left % base])
          (written ++ [left % base] ++ ofNat (left / base)) := ih
      rw [List.append_assoc, List.singleton_append] at later
      refine .turn (mt (shiftRight_eq_zero_iff left).mp large) ?_
      rwa [shiftRight_eq_div, and_mask]

/-- Shifting in one block after the other, from the top one down, puts a number together. -/
theorem foldr_shiftLeft_or {blocks : List Nat} (inRange : InRange blocks) :
    blocks.foldr (fun block n => n <<< 32 ||| block) 0 = value blocks := by
  induction blocks with
  | nil => rfl
  | cons block blocks ih =>
    obtain ⟨fits, restRange⟩ := inRange_cons.mp inRange
    rw [List.foldr_cons, ih restRange, ← Nat.shiftLeft_add_eq_or_of_lt fits, Nat.shiftLeft_eq, value,
      Nat.mul_comm, Nat.add_comm]
    rfl

end Blocks

namespace Natural
open Blocks

/-! ## Given blocks -/

theorem fits_iff {block : Int} : fits block = true ↔ 0 ≤ block ∧ block ≤ 2 ^ 32 - 1 := by
  have whole : (base : Int) = 2 ^ 32 := rfl
  rw [fits, Bool.and_eq_true, decide_eq_true_eq, decide_eq_true_eq, whole]
  omega

section Given
variable {blocks : List Int} {n : Natural}

/-- The first block that does not fit is the fault. -/
theorem ofBlocks?_eq_error_iff {error : Error} :
    ofBlocks? blocks = .error error ↔
      ∃ block, blocks.find? (fun block => !fits block) = some block ∧ error = .blockOutOfRange block := by
  unfold ofBlocks?
  split
  · rename_i block outside
    simp [outside, eq_comm]
  · rename_i none
    simp [none]

theorem ofBlocks?_fails_iff :
    (∃ error, ofBlocks? blocks = .error error ∧ error.kind = .invalidValue) ↔
      ∃ block ∈ blocks, ¬ (0 ≤ block ∧ block ≤ 2 ^ 32 - 1) := by
  have outside : ∀ block, (!fits block) = true ↔ ¬ (0 ≤ block ∧ block ≤ 2 ^ 32 - 1) := fun block => by
    rw [← fits_iff, Bool.not_eq_true', Bool.not_eq_true]
  constructor
  · rintro ⟨error, failed, -⟩
    obtain ⟨block, found, -⟩ := ofBlocks?_eq_error_iff.mp failed
    have unfit := List.find?_some (p := fun block => !fits block) found
    exact ⟨block, List.mem_of_find?_eq_some found, (outside block).mp unfit⟩
  · rintro ⟨block, member, unfit⟩
    have some : (blocks.find? fun block => !fits block).isSome :=
      List.find?_isSome.mpr ⟨block, member, (outside block).mpr unfit⟩
    obtain ⟨first, found⟩ := Option.isSome_iff_exists.mp some
    exact ⟨_, ofBlocks?_eq_error_iff.mpr ⟨first, found, rfl⟩, rfl⟩

/-- Blocks that all fit are accepted, less the zeros at the top. -/
theorem exists_ofBlocks? (fit : ∀ block ∈ blocks, 0 ≤ block ∧ block ≤ 2 ^ 32 - 1) :
    ∃ n, ofBlocks? blocks = .ok n ∧ n.blocks = trim (blocks.map Int.toNat) := by
  have same : (blocks.map Int.toNat).map Int.ofNat = blocks := by
    rw [List.map_map]
    exact (List.map_congr_left fun block member => Int.toNat_of_nonneg (fit block member).1).trans
      (List.map_id blocks)
  have inRange : InRange (blocks.map Int.toNat) := by
    intro block member
    obtain ⟨given, here, rfl⟩ := List.mem_map.mp member
    obtain ⟨low, high⟩ := fit given here
    have whole : (base : Int) = 2 ^ 32 := rfl
    omega
  exact ⟨trimmed _ inRange, by rw [← ofBlocks?_of_inRange inRange, same], rfl⟩

theorem fit_of_ofBlocks? (accepted : ofBlocks? blocks = .ok n) :
    ∀ block ∈ blocks, 0 ≤ block ∧ block ≤ 2 ^ 32 - 1 := by
  by_contra unfit
  obtain ⟨block, member, outside⟩ := not_forall₂.mp unfit
  obtain ⟨error, failed, -⟩ := ofBlocks?_fails_iff.mpr ⟨block, member, outside⟩
  cases accepted.symm.trans failed

theorem ofBlocks?_succeeds_iff :
    (∃ n, ofBlocks? blocks = .ok n) ↔ ∀ block ∈ blocks, 0 ≤ block ∧ block ≤ 2 ^ 32 - 1 := by
  constructor
  · rintro ⟨n, accepted⟩
    exact fit_of_ofBlocks? accepted
  · intro fit
    obtain ⟨n, accepted, -⟩ := exists_ofBlocks? fit
    exact ⟨n, accepted⟩

theorem blocks_of_ofBlocks? (accepted : ofBlocks? blocks = .ok n) :
    n.blocks = trim (blocks.map Int.toNat) := by
  obtain ⟨m, same, trims⟩ := exists_ofBlocks? (fit_of_ofBlocks? accepted)
  rwa [Except.ok.inj (accepted.symm.trans same)]

theorem toNat_of_ofBlocks? (accepted : ofBlocks? blocks = .ok n) :
    (n.toNat : Int) = ∑ i : Fin blocks.length, blocks[i] * 2 ^ (32 * i.val) := by
  rw [toNat, blocks_of_ofBlocks? accepted, value_trim,
    value_toNat fun block member => (fit_of_ofBlocks? accepted block member).1]

end Given

/-! ## Canonical blocks -/

theorem ofInt?_natCast (number : Nat) : ofInt? number = .ok (ofNat number) := by
  rw [ofInt?, if_neg (Int.not_lt.mpr (Int.natCast_nonneg number)), Int.toNat_natCast]

theorem ofInt?_eq_error_iff {value : Int} {error : Error} :
    ofInt? value = .error error ↔ value < 0 ∧ error = .negativeNatural value := by
  rw [ofInt?]
  split
  · rename_i negative
    simp [negative, eq_comm]
  · rename_i nonnegative
    exact ⟨nofun, fun fault => absurd fault.1 nonnegative⟩

/-- Canonical blocks are those of exactly one number, and the blocks of a number are canonical. -/
theorem canonical_iff {blocks : List Nat} :
    Canonical blocks ↔ ∃! number : Nat, (ofNat number).blocks = blocks := by
  constructor
  · intro canonical
    refine ⟨value blocks, ?_, fun number same => ?_⟩
    · exact (blocks_eq_ofNat (toNat_ofNat _)).trans (ofNat_value canonical)
    · rw [← same]
      exact (toNat_ofNat number).symm
  · rintro ⟨number, rfl, -⟩
    exact (ofNat number).canonical

theorem blocks_inj {a b : Natural} : a.blocks = b.blocks ↔ a.toNat = b.toNat :=
  ⟨congrArg value, fun same => congrArg blocks (toNat_inj.mp same)⟩

/-- Given blocks are refused exactly if one of them does not fit in its 32 bits, and the first such block is
reported. Otherwise they stand for the sum of the blocks at their places, and nothing but zeros at the top is
dropped to make them canonical. Every canonical list of blocks is that of exactly one number. Taking a number
apart ends with its blocks, and shifting these in gives the number again; so numbers that are not negative and
representations correspond to each other, and representations are equal exactly if their numbers are. -/
theorem one_representation :
    (∀ blocks : List Int,
      ((∃ error, ofBlocks? blocks = .error error ∧ error.kind = .invalidValue) ↔
        ∃ block ∈ blocks, ¬ (0 ≤ block ∧ block ≤ 2 ^ 32 - 1)) ∧
      (∀ error, ofBlocks? blocks = .error error ↔
        ∃ block, blocks.find? (fun block => !fits block) = some block ∧ error = .blockOutOfRange block) ∧
      ((∃ n, ofBlocks? blocks = .ok n) ↔ ∀ block ∈ blocks, 0 ≤ block ∧ block ≤ 2 ^ 32 - 1) ∧
      ∀ n, ofBlocks? blocks = .ok n →
        (n.toNat : Int) = ∑ i : Fin blocks.length, blocks[i] * 2 ^ (32 * i.val) ∧ Canonical n.blocks ∧
        (blocks ≠ [] → ∃ zeros, n.blocks ++ List.replicate zeros 0 = blocks.map Int.toNat)) ∧
    (∀ blocks : List Nat, Canonical blocks ↔ ∃! number : Nat, (ofNat number).blocks = blocks) ∧
    (∀ value error, ofInt? value = .error error ↔ value < 0 ∧ error = .negativeNatural value) ∧
    (∀ number : Nat, ofInt? number = .ok (ofNat number) ∧ (ofNat number).toNat = number ∧
      ∀ blocks, Shifting number [] blocks ↔ blocks = (ofNat number).blocks) ∧
    (∀ n : Natural, ofInt? n.toNat = .ok n ∧
      n.blocks.foldr (fun block number => number <<< 32 ||| block) 0 = n.toNat) ∧
    ∀ a b : Natural, (a.blocks = b.blocks ↔ a.toNat = b.toNat) ∧
      ((a == b) = true ↔ a.toNat = b.toNat) := by
  refine ⟨fun blocks => ⟨ofBlocks?_fails_iff, fun error => ofBlocks?_eq_error_iff, ofBlocks?_succeeds_iff,
      fun n accepted => ⟨toNat_of_ofBlocks? accepted, n.canonical, fun nonempty => ?_⟩⟩,
    fun blocks => canonical_iff, fun value error => ofInt?_eq_error_iff,
    fun number => ⟨ofInt?_natCast number, toNat_ofNat number, fun blocks => ?_⟩,
    fun n => ⟨?_, foldr_shiftLeft_or n.canonical.inRange⟩, fun a b => ⟨blocks_inj, ?_⟩⟩
  · rw [blocks_of_ofBlocks? accepted]
    exact exists_trim_append (mt List.map_eq_nil_iff.mp nonempty)
  · rw [shifting_iff, List.nil_append, blocks_eq_ofNat (toNat_ofNat number)]
  · rw [ofInt?_natCast]
    exact congrArg Except.ok (toNat_inj.mp (toNat_ofNat n.toNat))
  · rw [beq_iff_eq, toNat_inj]

/-- Zeros at the top are dropped; one is left of the number zero. -/
example : (blocks <$> ofBlocks? [5, 0, 0]).toOption = some [5] ∧
    (blocks <$> ofBlocks? [0, 0]).toOption = some [0] := by
  decide +kernel

end Natural

end Abacus
