import Abacus.Proofs.Natural
import Mathlib.Order.Defs.LinearOrder

/-!
# The order of natural numbers

A subtraction finds the difference or falls below zero, and numbers are compared in no other way than by
whether it does. The comparisons are those of the numbers all the same, and sorting puts every list into the
one ascending order that it has (`Natural.monus_decides_order`).
-/

namespace Abacus.Natural
open Blocks

/-- The blocks that a subtraction writes, before they are checked and trimmed. -/
def differenceBlocks (a b : Natural) : List Nat :=
  (subBorrow (align a.blocks b.blocks) 0).1

theorem inRange_differenceBlocks (a b : Natural) : InRange (differenceBlocks a b) :=
  inRange_subBorrow (pairsInRange_align a.canonical.inRange b.canonical.inRange) (Nat.zero_le 1)

theorem monus_of_lt {a b : Natural} (less : a.toNat < b.toNat) : a.monus b = (zero, true) := by
  have underflow := (underflow_iff a b).mpr less
  refine Prod.ext (toNat_inj.mp ?_) underflow
  rw [toNat_monus, toNat_zero]
  omega

theorem monus_of_le {a b : Natural} (enough : b.toNat ≤ a.toNat) :
    a.monus b = (ofNat (a.toNat - b.toNat), false) := by
  have noUnderflow : ¬ (a.monus b).2 = true := by
    rw [underflow_iff]
    omega
  refine Prod.ext (toNat_inj.mp ?_) (Bool.eq_false_iff.mpr noUnderflow)
  rw [toNat_monus, toNat_ofNat]

/-- If the difference does not fall below zero, what is written is its blocks. -/
theorem ofBlocks?_differenceBlocks {a b : Natural} (enough : b.toNat ≤ a.toNat) :
    ofBlocks? ((differenceBlocks a b).map Int.ofNat) = .ok (ofNat (a.toNat - b.toNat)) := by
  have whole := monus_of_le enough
  rw [monus] at whole
  split at whole
  · cases congrArg Prod.snd whole
  · rw [ofBlocks?_of_inRange (inRange_differenceBlocks a b)]
    exact congrArg Except.ok (congrArg Prod.fst whole)

/-- The comparisons make a linear order, in which only a number itself is neither less nor greater. -/
instance : LinearOrder Natural where
  le a b := a.le b = true
  lt a b := a.lt b = true
  le_refl a := le_iff.mpr (Nat.le_refl a.toNat)
  le_trans _ _ _ first second := le_iff.mpr (Nat.le_trans (le_iff.mp first) (le_iff.mp second))
  lt_iff_le_not_ge a b := by
    rw [lt_iff, le_iff, le_iff]
    omega
  le_antisymm _ _ below above := toNat_inj.mp (Nat.le_antisymm (le_iff.mp below) (le_iff.mp above))
  le_total a b := (Nat.le_total a.toNat b.toNat).imp le_iff.mpr le_iff.mpr
  toDecidableLE a b := inferInstanceAs (Decidable (a.le b = true))
  toDecidableLT a b := inferInstanceAs (Decidable (a.lt b = true))

theorem sort_perm (numbers : List Natural) : (sort numbers).Perm numbers :=
  List.mergeSort_perm numbers le

theorem sort_pairwise (numbers : List Natural) :
    (sort numbers).Pairwise fun a b => a.toNat ≤ b.toNat := by
  have transitive : ∀ a b c : Natural, a.le b = true → b.le c = true → a.le c = true :=
    fun a b c => @le_trans Natural _ a b c
  have total : ∀ a b : Natural, (a.le b || b.le a) = true := fun a b =>
    (Bool.or_eq_true _ _).mpr (le_total a b)
  exact (List.pairwise_mergeSort transitive total numbers).imp le_iff.mp

/-- A list has only one ascending arrangement. -/
theorem eq_sort_of_perm {numbers others : List Natural} (perm : others.Perm numbers)
    (ascending : others.Pairwise fun a b => b.lt a = false) : others = sort numbers := by
  have below : others.Pairwise fun a b => a.toNat ≤ b.toNat := by
    refine ascending.imp fun notLess => ?_
    rwa [← Bool.not_eq_true, lt_iff, Nat.not_lt] at notLess
  have antisymmetric : ∀ a b : Natural, a.toNat ≤ b.toNat → b.toNat ≤ a.toNat → a = b :=
    fun _ _ less greater => toNat_inj.mp (Nat.le_antisymm less greater)
  exact List.Perm.eq_of_pairwise (fun a b _ _ => antisymmetric a b) below (sort_pairwise numbers)
    (perm.trans (sort_perm numbers).symm)

/-- A subtraction falls below zero exactly if the numbers do, and otherwise its value and the blocks that it
writes are those of the difference. So the comparisons decide the order of the numbers, and they make a
linear order, in which numbers with the same blocks are equal. Sorting arranges any list in ascending order,
and every arrangement in which no number is less than one before it is the sorted one. -/
theorem monus_decides_order :
    (∀ a b : Natural, a.monus b =
      if a.toNat < b.toNat then (zero, true) else (ofNat (a.toNat - b.toNat), false)) ∧
    (∀ a b : Natural, InRange (differenceBlocks a b) ∧ (b.toNat ≤ a.toNat →
      ofBlocks? ((differenceBlocks a b).map Int.ofNat) = .ok (ofNat (a.toNat - b.toNat)))) ∧
    (∀ a b : Natural, (a.greaterThan b = true ↔ b.toNat < a.toNat) ∧
      (a.lt b = true ↔ a.toNat < b.toNat) ∧ (a.le b = true ↔ a.toNat ≤ b.toNat) ∧
      (a.gt b = true ↔ b.toNat < a.toNat) ∧ (a.ge b = true ↔ b.toNat ≤ a.toNat)) ∧
    (∃ order : LinearOrder Natural, ∀ a b : Natural,
      (order.le a b ↔ a.le b = true) ∧ (order.lt a b ↔ a.lt b = true)) ∧
    ∀ numbers : List Natural, (sort numbers).Perm numbers ∧
      ((sort numbers).map toNat).Pairwise (· ≤ ·) ∧
      ∀ others : List Natural, others.Perm numbers →
        (others.Pairwise fun a b => b.lt a = false) → others = sort numbers := by
  refine ⟨fun a b => ?_, fun a b => ⟨inRange_differenceBlocks a b, ofBlocks?_differenceBlocks⟩,
    fun a b => ⟨greaterThan_iff, lt_iff, le_iff, gt_iff, ge_iff⟩,
    ⟨inferInstance, fun a b => ⟨Iff.rfl, Iff.rfl⟩⟩, fun numbers => ?_⟩
  · split
    · rename_i less
      exact monus_of_lt less
    · rename_i enough
      exact monus_of_le (Nat.not_lt.mp enough)
  · exact ⟨sort_perm numbers, List.pairwise_map.mpr (sort_pairwise numbers),
      fun others => eq_sort_of_perm⟩

end Abacus.Natural
