import Abacus.Proofs.ReducedForm

/-!
# Laws of sums and products

Matrices over one field obey the laws of a ring and of a module over its field, as far as their dimensions
let them. Two sides of a law are always defined together: where the dimensions fit they are the same matrix,
and where they do not fit both report that, in whatever order the shapes are compared
(`Matrix.sums_products_lawful`).
-/

namespace Abacus
open Echelon (Table)

namespace Matrix

/-- Two computations of one matrix: if `fit` holds, both return it, and otherwise both fail because
dimensions do not fit. -/
inductive SameIf (fit : Prop) : Except Error Matrix → Except Error Matrix → Prop
  | defined (holds : fit) (a : Matrix) : SameIf fit (.ok a) (.ok a)
  | unfit (fails : ¬ fit) {first second : Error} (left : first.kind = .incompatibleDimensions)
      (right : second.kind = .incompatibleDimensions) : SameIf fit (.error first) (.error second)

/-- The computation fails because dimensions do not fit. -/
abbrev Unfit (computation : Except Error Matrix) : Prop :=
  FailsWith computation .incompatibleDimensions

section Outcomes
variable {fit : Prop} {first second : Except Error Matrix} {a b : Matrix}

theorem SameIf.of_ok (holds : fit) (left : first = .ok a) (right : second = .ok a) :
    SameIf fit first second := by
  rw [left, right]
  exact .defined holds a

theorem SameIf.of_unfit (fails : ¬ fit) (left : Unfit first) (right : Unfit second) :
    SameIf fit first second := by
  obtain ⟨_, rfl, left⟩ := left
  obtain ⟨_, rfl, right⟩ := right
  exact .unfit fails left right

theorem SameIf.exists_ok (same : SameIf fit first second) (holds : fit) :
    ∃ a, first = .ok a ∧ second = .ok a := by
  cases same with
  | defined _ a => exact ⟨a, rfl, rfl⟩
  | unfit fails => exact absurd holds fails

theorem SameIf.unfit_both (same : SameIf fit first second) (fails : ¬ fit) :
    Unfit first ∧ Unfit second := by
  cases same with
  | defined holds a => exact absurd holds fails
  | unfit _ left right => exact ⟨⟨_, rfl, left⟩, _, rfl, right⟩

theorem unfit_entrywise (verb : String) (operation : Scalar → Scalar → Except Error Scalar)
    (differ : ¬ (a.height = b.height ∧ a.width = b.width)) : Unfit (entrywise verb operation a b) := by
  rw [entrywise, dif_neg differ]
  exact ⟨_, rfl, rfl⟩

theorem unfit_multiply (differ : a.width ≠ b.height) : Unfit (a.multiply b) := by
  rw [multiply, dif_neg differ]
  exact ⟨_, rfl, rfl⟩

end Outcomes

/-! ## The laws -/

namespace Over
variable {F : GroundField} {a b c : Matrix} (aOver : a.Over F.name) (bOver : b.Over F.name)
  (cOver : c.Over F.name)

include aOver bOver in
theorem add_swap : SameIf (a.height = b.height ∧ a.width = b.width) (a.add b) (b.add a) := by
  obtain ⟨m, n, A, tall, wide, rfl⟩ := aOver.exists_table
  obtain ⟨m', n', B, tall', wide', rfl⟩ := bOver.exists_table
  by_cases same : m = m' ∧ n = n'
  · obtain ⟨rfl, rfl⟩ := same
    have sum : (F.matrix B tall wide).add (F.matrix A tall wide) = .ok (F.matrix (B + A) tall wide) :=
      F.representation.add_matrix B A
    rw [add_comm] at sum
    exact .of_ok ⟨rfl, rfl⟩ (F.representation.add_matrix A B) sum
  · refine .of_unfit same (unfit_entrywise _ _ same) (unfit_entrywise _ _ fun both => same ?_)
    exact ⟨both.1.symm, both.2.symm⟩

include aOver bOver cOver in
theorem add_regroup :
    SameIf ((a.height = b.height ∧ a.width = b.width) ∧ b.height = c.height ∧ b.width = c.width)
      (do (← a.add b).add c) (do a.add (← b.add c)) := by
  obtain ⟨m, n, A, tall, wide, rfl⟩ := aOver.exists_table
  obtain ⟨m', n', B, tall', wide', rfl⟩ := bOver.exists_table
  obtain ⟨k, l, C, tall'', wide'', rfl⟩ := cOver.exists_table
  let rep := F.representation
  by_cases left : m = m' ∧ n = n'
  · obtain ⟨rfl, rfl⟩ := left
    have ab : (rep.matrix A tall wide).add (rep.matrix B tall wide) =
        .ok (rep.matrix (A + B) tall wide) := rep.add_matrix A B
    by_cases right : m = k ∧ n = l
    · obtain ⟨rfl, rfl⟩ := right
      have bc : (rep.matrix B tall wide).add (rep.matrix C tall wide) =
          .ok (rep.matrix (B + C) tall wide) := rep.add_matrix B C
      have whole : (rep.matrix A tall wide).add (rep.matrix (B + C) tall wide) =
          .ok (rep.matrix (A + (B + C)) tall wide) := rep.add_matrix A (B + C)
      rw [← add_assoc] at whole
      exact .of_ok ⟨⟨rfl, rfl⟩, rfl, rfl⟩ ((bind_eq_of_ok ab _).trans (rep.add_matrix (A + B) C))
        ((bind_eq_of_ok bc _).trans whole)
    · exact .of_unfit (fun both => right both.2) (.after ab (unfit_entrywise _ _ right))
        ((unfit_entrywise _ _ right).bind _)
  · refine .of_unfit (fun both => left both.1) ((unfit_entrywise _ _ left).bind _) ?_
    by_cases right : m' = k ∧ n' = l
    · obtain ⟨rfl, rfl⟩ := right
      exact .after (rep.add_matrix B C) (unfit_entrywise _ _ left)
    · exact (unfit_entrywise _ _ right).bind _

include aOver bOver in
theorem subtract_eq_add :
    SameIf (a.height = b.height ∧ a.width = b.width) (a.subtract b) (do a.add (← b.negate)) := by
  obtain ⟨m, n, A, tall, wide, rfl⟩ := aOver.exists_table
  obtain ⟨m', n', B, tall', wide', rfl⟩ := bOver.exists_table
  let rep := F.representation
  have negated : (rep.matrix B tall' wide').negate = .ok (rep.matrix (-B) tall' wide') :=
    rep.negate_matrix B
  by_cases same : m = m' ∧ n = n'
  · obtain ⟨rfl, rfl⟩ := same
    have sum : (rep.matrix A tall wide).add (rep.matrix (-B) tall wide) =
        .ok (rep.matrix (A + -B) tall wide) := rep.add_matrix A (-B)
    rw [← sub_eq_add_neg] at sum
    exact .of_ok ⟨rfl, rfl⟩ (rep.subtract_matrix A B) ((bind_eq_of_ok negated _).trans sum)
  · exact .of_unfit same (unfit_entrywise _ _ same) (.after negated (unfit_entrywise _ _ same))

include aOver bOver cOver in
theorem multiply_regroup :
    SameIf (a.width = b.height ∧ b.width = c.height) (do (← a.multiply b).multiply c)
      (do a.multiply (← b.multiply c)) := by
  obtain ⟨m, n, A, tall, deep, rfl⟩ := aOver.exists_table
  obtain ⟨n', k, B, deep', wide, rfl⟩ := bOver.exists_table
  obtain ⟨k', l, C, wide', long, rfl⟩ := cOver.exists_table
  let rep := F.representation
  by_cases left : n = n'
  · subst left
    have ab := rep.multiply_matrix A B tall deep wide
    by_cases right : k = k'
    · subst right
      have bc := rep.multiply_matrix B C deep wide long
      have whole := rep.multiply_matrix A (B * C) tall deep long
      rw [← Matrix.mul_assoc] at whole
      exact .of_ok ⟨rfl, rfl⟩ ((bind_eq_of_ok ab _).trans (rep.multiply_matrix (A * B) C tall wide long))
        ((bind_eq_of_ok bc _).trans whole)
    · exact .of_unfit (fun both => right both.2) (.after ab (unfit_multiply right))
        ((unfit_multiply right).bind _)
  · refine .of_unfit (fun both => left both.1) ((unfit_multiply left).bind _) ?_
    by_cases right : k = k'
    · subst right
      exact .after (rep.multiply_matrix B C deep' wide long) (unfit_multiply left)
    · exact (unfit_multiply right).bind _

include aOver bOver cOver in
theorem multiply_add :
    SameIf (a.width = b.height ∧ b.height = c.height ∧ b.width = c.width)
      (do a.multiply (← b.add c)) (do (← a.multiply b).add (← a.multiply c)) := by
  obtain ⟨m, n, A, tall, deep, rfl⟩ := aOver.exists_table
  obtain ⟨n', k, B, deep', wide, rfl⟩ := bOver.exists_table
  obtain ⟨n'', k', C, deep'', wide', rfl⟩ := cOver.exists_table
  let rep := F.representation
  by_cases left : n = n'
  · subst left
    have ab := rep.multiply_matrix A B tall deep wide
    by_cases right : n = n''
    · subst right
      have ac := rep.multiply_matrix A C tall deep wide'
      by_cases even : k = k'
      · subst even
        have sum : (rep.matrix B deep wide).add (rep.matrix C deep wide) =
            .ok (rep.matrix (B + C) deep wide) := rep.add_matrix B C
        have whole : (rep.matrix (A * B) tall wide).add (rep.matrix (A * C) tall wide) =
            .ok (rep.matrix (A * B + A * C) tall wide) := rep.add_matrix (A * B) (A * C)
        rw [← Matrix.mul_add] at whole
        refine .of_ok ⟨rfl, rfl, rfl⟩
          ((bind_eq_of_ok sum _).trans (rep.multiply_matrix A (B + C) tall deep wide)) ?_
        exact (bind_eq_of_ok ab _).trans ((bind_eq_of_ok ac _).trans whole)
      · refine .of_unfit (fun all => even all.2.2) ((unfit_entrywise _ _ ?_).bind _)
          (.after ab (.after ac (unfit_entrywise _ _ ?_)))
        · exact fun both => even both.2
        · exact fun both => even both.2
    · refine .of_unfit (fun all => right all.2.1) ((unfit_entrywise _ _ ?_).bind _)
        (.after ab ((unfit_multiply right).bind _))
      exact fun both => right both.1
  · refine .of_unfit (fun all => left all.1) ?_ ((unfit_multiply left).bind _)
    by_cases same : n' = n'' ∧ k = k'
    · obtain ⟨rfl, rfl⟩ := same
      exact .after (rep.add_matrix B C) (unfit_multiply left)
    · exact (unfit_entrywise _ _ same).bind _

include aOver bOver in
theorem scale_multiply {x : Scalar} (inField : x.field = F.name) :
    SameIf (a.width = b.height) (do (← a.multiply b).scale x) (do (← a.scale x).multiply b) := by
  obtain ⟨m, n, A, tall, deep, rfl⟩ := aOver.exists_table
  obtain ⟨n', k, B, deep', wide, rfl⟩ := bOver.exists_table
  let rep := F.representation
  obtain ⟨r, rfl⟩ : ∃ r, x = rep.encode r := ⟨_, (rep.encode_decode x inField).symm⟩
  have scaled : (rep.matrix A tall deep).scale (rep.encode r) = .ok (rep.matrix (r • A) tall deep) :=
    rep.scale_matrix A r
  by_cases fit : n = n'
  · subst fit
    have product := rep.multiply_matrix A B tall deep wide
    have whole := rep.multiply_matrix (r • A) B tall deep wide
    rw [Matrix.smul_mul] at whole
    exact .of_ok rfl ((bind_eq_of_ok product _).trans (rep.scale_matrix (A * B) r))
      ((bind_eq_of_ok scaled _).trans whole)
  · exact .of_unfit fit ((unfit_multiply fit).bind _) (.after scaled (unfit_multiply fit))

include aOver in
/-- A matrix is negated entry by entry. -/
theorem exists_negate : ∃ negative, a.negate = .ok negative ∧
    ∃ (height : negative.height = a.height) (width : negative.width = a.width),
      ∀ i j, negative.get i j = (a.get (i.cast height) (j.cast width)).negate := by
  obtain ⟨m, n, A, tall, wide, rfl⟩ := aOver.exists_table
  refine ⟨_, F.representation.negate_matrix A, rfl, rfl, fun i j => ?_⟩
  rw [Representation.matrix_get, Fin.cast_eq_self, Fin.cast_eq_self, Representation.matrix_get,
    F.representation.negate]
  rfl

include aOver in
/-- A matrix and its negative cancel out. -/
theorem exists_add_negate : ∃ sum, (do a.add (← a.negate)) = .ok sum ∧ sum.shape = a.shape ∧
    ∀ i j, (sum.get i j).isZero = true := by
  obtain ⟨m, n, A, tall, wide, rfl⟩ := aOver.exists_table
  let rep := F.representation
  have negated : (rep.matrix A tall wide).negate = .ok (rep.matrix (-A) tall wide) :=
    rep.negate_matrix A
  have sum : (rep.matrix A tall wide).add (rep.matrix (-A) tall wide) =
      .ok (rep.matrix (A + -A) tall wide) := rep.add_matrix A (-A)
  rw [add_neg_cancel] at sum
  refine ⟨_, (bind_eq_of_ok negated _).trans sum, rfl, fun i j => ?_⟩
  rw [Representation.matrix_get]
  exact (rep.isZero_iff _).mpr rfl

/-- Numbers of one field are the same exactly if they represent the same element. -/
theorem decode_inj {x y : Scalar} (left : x.field = F.name) (right : y.field = F.name) :
    x = y ↔ F.decode x = F.decode y := by
  refine ⟨fun same => same ▸ rfl, fun same => ?_⟩
  rw [← F.representation.encode_decode x left, ← F.representation.encode_decode y right]
  exact congrArg F.encode same

end Over

/-- Two matrices are the same exactly if they have one shape and the same entries. -/
theorem eq_iff_get {a b : Matrix} : a = b ↔
    ∃ (height : a.height = b.height) (width : a.width = b.width),
      ∀ i j, a.get i j = b.get (i.cast height) (j.cast width) := by
  constructor
  · rintro rfl
    exact ⟨rfl, rfl, fun i j => rfl⟩
  · obtain ⟨m, n, entries, tall, wide⟩ := a
    obtain ⟨m', n', others, tall', wide'⟩ := b
    rintro ⟨height, width, same⟩
    obtain rfl : m = m' := height
    obtain rfl : n = n' := width
    have equal : entries = others := by
      ext i iInside j jInside
      exact same ⟨i, iInside⟩ ⟨j, jInside⟩
    rw [equal]

/-- For matrices over one field and a number of that field, the laws of sums, products and multiples hold,
and the two sides of a law are defined for the same shapes. Negation is that of the entries, and a matrix and
its negative cancel out. Equality is that of the shapes and the entries, and entries are the same exactly if
they represent the same element of the field. -/
theorem sums_products_lawful (F : GroundField) {a b c : Matrix} (aOver : a.Over F.name)
    (bOver : b.Over F.name) (cOver : c.Over F.name) {x : Scalar} (inField : x.field = F.name) :
    SameIf (a.width = b.height ∧ b.width = c.height) (do (← a.multiply b).multiply c)
      (do a.multiply (← b.multiply c)) ∧
    SameIf (a.width = b.height ∧ b.height = c.height ∧ b.width = c.width)
      (do a.multiply (← b.add c)) (do (← a.multiply b).add (← a.multiply c)) ∧
    SameIf ((a.height = b.height ∧ a.width = b.width) ∧ b.height = c.height ∧ b.width = c.width)
      (do (← a.add b).add c) (do a.add (← b.add c)) ∧
    SameIf (a.height = b.height ∧ a.width = b.width) (a.add b) (b.add a) ∧
    SameIf (a.height = b.height ∧ a.width = b.width) (a.subtract b) (do a.add (← b.negate)) ∧
    SameIf (a.width = b.height) (do (← a.multiply b).scale x) (do (← a.scale x).multiply b) ∧
    (∃ negative, a.negate = .ok negative ∧
      ∃ (height : negative.height = a.height) (width : negative.width = a.width),
        ∀ i j, negative.get i j = (a.get (i.cast height) (j.cast width)).negate) ∧
    (∃ sum, (do a.add (← a.negate)) = .ok sum ∧ sum.shape = a.shape ∧
      ∀ i j, (sum.get i j).isZero = true) ∧
    ((a == b) = true ↔ ∃ (height : a.height = b.height) (width : a.width = b.width),
      ∀ i j, a.get i j = b.get (i.cast height) (j.cast width)) ∧
    ∀ i j k l, a.get i j = b.get k l ↔ F.decode (a.get i j) = F.decode (b.get k l) := by
  refine ⟨aOver.multiply_regroup bOver cOver, aOver.multiply_add bOver cOver,
    aOver.add_regroup bOver cOver, aOver.add_swap bOver, aOver.subtract_eq_add bOver,
    aOver.scale_multiply bOver inField, aOver.exists_negate, aOver.exists_add_negate, ?_, ?_⟩
  · rw [beq_iff_eq]
    exact eq_iff_get
  · exact fun i j k l => Over.decode_inj (aOver i j) (bOver k l)

/-- A matrix with one column. -/
def column : Matrix :=
  GroundField.rationals.matrix !![1; -5] Nat.two_pos Nat.one_pos

theorem column_over : column.Over GroundField.rationals.name :=
  GroundField.rationals.matrix_over _ _ _

theorem sums_products_lawful_column :
    exchanged.Over GroundField.rationals.name ∧ column.Over GroundField.rationals.name ∧
      (∃ product, (do (← exchanged.multiply exchanged).multiply column) = .ok product ∧
        (do exchanged.multiply (← exchanged.multiply column)) = .ok product) ∧
      Unfit (do exchanged.multiply (← exchanged.add column)) ∧
      Unfit (do (← exchanged.multiply exchanged).add (← exchanged.multiply column)) := by
  have whole := exchanged_over
  have narrow := column_over
  have zero : (GroundField.rationals.encode 0).field = GroundField.rationals.name := rfl
  obtain ⟨associative, distributive, -⟩ := sums_products_lawful .rationals whole whole narrow zero
  exact ⟨whole, narrow, associative.exists_ok ⟨rfl, rfl⟩, distributive.unfit_both (by decide)⟩

end Matrix

end Abacus
