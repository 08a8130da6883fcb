import Abacus.Proofs.Nesting
import Abacus.Proofs.Reachability

/-!
# The field of a rank's operand

Without rank, an expression is evaluated over one field all the way down. Where it has a value, every matrix
among its variables is therefore over the field of its type, and there is such a matrix if the value is one
(`overOneField`). So it has a matrix for a value over no other field, and the first matrix among its
variables tells which field that is (`rank_of_evaluated`).
-/

namespace Abacus

namespace Expr

/-- The functions of one operand in an expression, from left to right. -/
def functions : Expr → List UnaryFunction
  | literal _ | var _ => []
  | unary function operand => function :: functions operand
  | binary _ left right => functions left ++ functions right

variable {store : Store Value} {levels : Nat} {type : ValueType} {field : NumberField} {e : Expr}
  {value : Value}

/-- Whatever matrices there are among the variables of an expression, they are over the field of the type
that it is evaluated at; and there are some, if it is the type of a matrix. -/
structure OverOneField (store : Store Value) (type : ValueType) (e : Expr) : Prop where
  same : ∀ name ∈ e.names, ∀ field, store.typeOf? name = some (.matrix field) → field = type.field
  present : ∀ field, type = .matrix field → ∃ name ∈ e.names, store.typeOf? name = some (.matrix field)

/-- A variable that has a value at a type is stored under it. -/
theorem typeOf?_of_evaluated {name : String}
    (evaluated : evaluate store type (.var name) levels = .ok value) :
    store.typeOf? name = some type := by
  have looked : ∃ found, store.lookup name type = .ok found := by
    cases type with
    | scalar field =>
      rw [evaluate, evaluateScalar] at evaluated
      obtain ⟨x, looked, -⟩ := map_eq_ok_iff.mp evaluated
      obtain ⟨found, looked, -⟩ := bind_eq_ok_iff.mp looked
      exact ⟨found, looked⟩
    | matrix field =>
      rw [evaluate, evaluateMatrix] at evaluated
      obtain ⟨a, looked, -⟩ := map_eq_ok_iff.mp evaluated
      obtain ⟨found, looked, -⟩ := bind_eq_ok_iff.mp looked
      exact ⟨found, looked⟩
  obtain ⟨found, looked⟩ := looked
  rw [Store.lookup] at looked
  rw [Store.typeOf?]
  cases bound : store.get? name with
  | none =>
    rw [bound] at looked
    cases looked
  | some binding =>
    simp only [bound] at looked
    split at looked
    · rename_i same
      rw [← same]
      rfl
    · cases looked

/-- All functions but rank stay in the field, and where the value is a matrix, so is the operand. -/
theorem operandType?_field {function : UnaryFunction} {inner : ValueType} (other : function ≠ .rank)
    (place : function.operandType? store e type = some inner) :
    inner.field = type.field ∧ ∀ field, type = .matrix field → inner = .matrix field := by
  cases type with
  | scalar field =>
    cases function with
    | rank => exact absurd rfl other
    | rref => cases place
    | _ => cases place; exact ⟨rfl, nofun⟩
  | matrix field =>
    cases function with
    | neg => cases place; exact ⟨rfl, fun _ same => same⟩
    | rref => cases place; exact ⟨rfl, fun _ same => same⟩
    | _ => cases place

/-- All operations stay in the field, and where the value is a matrix, so is the right operand. -/
theorem operandTypes?_field {operation : BinaryOperation} {first second : ValueType}
    (place : operation.operandTypes? type = some (first, second)) :
    first.field = type.field ∧ second.field = type.field ∧
      ∀ field, type = .matrix field → second = .matrix field := by
  cases type with
  | scalar field =>
    cases operation with
    | pow => cases place
    | scale => cases place
    | _ => cases place; exact ⟨rfl, rfl, nofun⟩
  | matrix field =>
    cases operation with
    | div => cases place
    | pow => cases place
    | _ => cases place; exact ⟨rfl, rfl, fun _ same => same⟩

theorem overOneField (rankFree : .rank ∉ e.functions)
    (evaluated : evaluate store type e levels = .ok value) : OverOneField store type e := by
  induction e generalizing levels type value with
  | literal text =>
    refine ⟨nofun, fun field same => ?_⟩
    subst same
    rw [evaluate, evaluateMatrix] at evaluated
    cases evaluated
  | var name =>
    have stored := typeOf?_of_evaluated evaluated
    constructor
    · intro other member field found
      obtain rfl := List.mem_singleton.mp member
      exact congrArg ValueType.field (Option.some.inj (found.symm.trans stored))
    · rintro field rfl
      exact ⟨name, List.mem_singleton_self name, stored⟩
  | unary function e ih =>
    rw [functions, List.mem_cons, not_or] at rankFree
    cases levels with
    | zero => cases evaluate_unary_zero.symm.trans evaluated
    | succ levels =>
      rcases unary_step type function e with ⟨error, failed⟩ | ⟨apply, step⟩
      · cases (failed store levels).symm.trans evaluated
      · obtain ⟨inner, place, whole⟩ := step store levels
        obtain ⟨v, operand, -⟩ := bind_eq_ok_iff.mp (whole.symm.trans evaluated)
        obtain ⟨same, matrix⟩ := operandType?_field (Ne.symm rankFree.1) place
        have uniform := ih rankFree.2 operand
        exact ⟨same ▸ uniform.same, fun field isMatrix => uniform.present field (matrix field isMatrix)⟩
  | binary operation l r left right =>
    rw [functions, List.mem_append, not_or] at rankFree
    cases levels with
    | zero => cases evaluate_binary_zero.symm.trans evaluated
    | succ levels =>
      rcases binary_step type operation l r with ⟨error, failed⟩ |
        ⟨first, second, combine, place, step⟩ | ⟨modulus, text, apply, rfl, rfl, rfl, step⟩
      · cases (failed store levels).symm.trans evaluated
      · obtain ⟨v, one, rest⟩ := bind_eq_ok_iff.mp ((step store levels).symm.trans evaluated)
        obtain ⟨w, two, -⟩ := bind_eq_ok_iff.mp rest
        obtain ⟨sameLeft, sameRight, matrix⟩ := operandTypes?_field place
        have uniformLeft := left rankFree.1 one
        have uniformRight := right rankFree.2 two
        constructor
        · intro name member
          rcases List.mem_append.mp member with before | after
          · exact sameLeft ▸ uniformLeft.same name before
          · exact sameRight ▸ uniformRight.same name after
        · intro field isMatrix
          obtain ⟨name, member, stored⟩ := uniformRight.present field (matrix field isMatrix)
          exact ⟨name, List.mem_append_right _ member, stored⟩
      · obtain ⟨v, base, -⟩ := bind_eq_ok_iff.mp ((step store levels).symm.trans evaluated)
        constructor
        · intro name member
          -- The exponent names no variable.
          rcases List.mem_append.mp member with before | after
          · exact (left rankFree.1 base).same name before
          · cases after
        · intro field isMatrix
          cases isMatrix

/-- The first matrix among the variables is over the field of all of them. -/
theorem OverOneField.firstMatrixField (uniform : OverOneField store (.matrix field) e) :
    firstMatrixField store e = some field := by
  rw [firstMatrixField_eq]
  cases found : e.names.findSome? (matrixField? store) with
  | none =>
    obtain ⟨name, member, stored⟩ := uniform.present field rfl
    have missed := List.findSome?_eq_none_iff.mp found name member
    cases missed.symm.trans (matrixField?_eq_some_iff.mpr stored)
  | some other =>
    obtain ⟨name, member, first⟩ := List.exists_of_findSome?_eq_some found
    exact congrArg _ (uniform.same name member other (matrixField?_eq_some_iff.mp first))

/-- On a well-typed store, let an expression without rank have a matrix over some field for a value within some
levels. Then it has none over any other field, whatever the levels; the first matrix among its variables is over
that field; and so its rank is the rank of the matrix, within any levels that leave room for one more function. -/
theorem rank_of_evaluated (typed : store.WellTyped) (rankFree : .rank ∉ e.functions) (F : GroundField)
    {a : Matrix} (evaluated : evaluate store (.matrix F.name) e levels = .ok (.matrix a)) :
    (∀ field, field ≠ F.name → ∀ other, Fails (evaluate store (.matrix field) e other)) ∧
    firstMatrixField store e = some F.name ∧
    ∃ rank : Nat, a.rank = .ok rank ∧ (Rational.ofInt rank).toRat = rank ∧
      ∀ other, (unary .rank e).depth ≤ other →
        evaluate store (.scalar .rationals) (.unary .rank e) other =
          .ok (.scalar (.rational (.ofInt rank))) := by
  have first := (overOneField rankFree evaluated).firstMatrixField
  refine ⟨fun field differs other => ?_, first, ?_⟩
  · cases attempt : evaluate store (.matrix field) e other with
    | error error => exact ⟨error, rfl⟩
    | ok value =>
      have second := (overOneField rankFree attempt).firstMatrixField
      exact absurd (Option.some.inj (second.symm.trans first)) differs
  · have inField : a.Over F.name := by
      have computed := evaluateMatrix_of_ok evaluated e.depth
      rw [within_of_le (Nat.le_refl _)] at computed
      exact ((evaluatesSoundly typed e).table F.name e.depth).value computed
    obtain ⟨_, _, A, tall, wide, rfl⟩ := inField.exists_table
    have rank := F.representation.rank_matrix A tall wide
    refine ⟨A.rank, rank, Rational.toRat_ofInt A.rank, fun other nested => ?_⟩
    obtain ⟨lower, rfl, room⟩ := exists_lower nested
    have computed := evaluateMatrix_of_ok evaluated lower
    rw [within_of_le room] at computed
    rw [evaluate, evaluateScalar, first, Option.getD_some, bind_eq_of_ok computed,
      bind_eq_of_ok rank]
    rfl

end Expr

/-- The calculator that also has been told of a matrix modulo seven, in which the second row is four times the
first. -/
def Calculator.matrixModuloSeven : Calculator :=
  (tenModuloSeven.execute "DEF Matrix[Z 7] 2 2 m" [.text "1 2", .text "4 1"]).calculator

/-- Its rank is one, also after it has been negated and scaled by a variable that is no matrix. -/
theorem Expr.rank_of_evaluated_seven :
    Calculator.matrixModuloSeven.store.WellTyped ∧
    firstMatrixField Calculator.matrixModuloSeven.store
      (.binary .scale (.var "x") (.unary .neg (.var "m"))) = some (.residues 7) ∧
    evaluate Calculator.matrixModuloSeven.store (.scalar .rationals)
      (.unary .rank (.binary .scale (.var "x") (.unary .neg (.var "m")))) =
        .ok (.scalar (.rational (.ofInt 1))) := by
  let a : Matrix := ⟨2, 2, #v[#v[.residue .seven ⟨4, by decide⟩, .residue .seven ⟨1, by decide⟩],
    #v[.residue .seven ⟨2, by decide⟩, .residue .seven ⟨4, by decide⟩]], Nat.two_pos, Nat.two_pos⟩
  have reachable : Calculator.matrixModuloSeven.Reachable :=
    .execute (.execute .new "DEF Z 7 x" [.text "10"]) "DEF Matrix[Z 7] 2 2 m" _
  have value : evaluate Calculator.matrixModuloSeven.store (.matrix (.residues 7))
      (.binary .scale (.var "x") (.unary .neg (.var "m"))) = .ok (.matrix a) := by decide +kernel
  obtain ⟨-, first, rank, ranked, -, shown⟩ :=
    rank_of_evaluated reachable.legal.typed (by decide) (.residues .seven) value
  obtain rfl : 1 = rank := Except.ok.inj ((show a.rank = .ok 1 by decide +kernel).symm.trans ranked)
  exact ⟨reachable.legal.typed, first, shown maxLevels (by decide)⟩

end Abacus
