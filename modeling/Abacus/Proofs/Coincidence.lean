import Abacus.Proofs.LastDefinition
import Abacus.Proofs.RankOperand

/-!
# Evaluation reads only the variables that are named

An expression is evaluated alike on any two stores that bind the variables in it alike. Its operands are
evaluated at the same types on both, although the operand of rank takes its type from the store
(`operandType?_congr`), and each step goes on in the same way (`evaluate_congr`). So definitions of other
names do not change what an expression comes to (`evaluate_coincides`).
-/

namespace Abacus

namespace Store

/-- Each of the names is bound alike in both stores, to one value under one type, or in neither. -/
def AgreeOn (names : List String) (first second : Store Value) : Prop :=
  ∀ name ∈ names, first.get? name = second.get? name

/-- The store after some definitions, one after the other. -/
def defineAll (store : Store Value) (definitions : List (String × Binding Value)) : Store Value :=
  definitions.foldl (fun store definition =>
    store.define definition.1 definition.2.type definition.2.value) store

section AgreeOn
variable {first second : Store Value} {name : String} {names : List String}

theorem typeOf?_congr (same : first.get? name = second.get? name) :
    first.typeOf? name = second.typeOf? name := by
  rw [typeOf?, typeOf?, same]

theorem lookup_congr (same : first.get? name = second.get? name) (requested : ValueType) :
    first.lookup name requested = second.lookup name requested := by
  rw [lookup, lookup, same]

/-- Definitions of other names keep what a name is bound to. -/
theorem get?_defineAll {definitions : List (String × Binding Value)}
    (others : ∀ definition ∈ definitions, definition.1 ≠ name) (store : Store Value) :
    (store.defineAll definitions).get? name = store.get? name := by
  induction definitions generalizing store with
  | nil => rfl
  | cons definition later ih =>
    obtain ⟨other, rest⟩ := List.forall_mem_cons.mp others
    exact (ih rest _).trans (store.get?_define_of_ne _ _ other.symm)

end AgreeOn

end Store

/-! ## Calls -/

section Calls
variable {call : Call} {calls : List Call} {name : String}

/-- A call that does not define the name keeps what it is bound to. -/
theorem Call.get?_of_not_defines (none : ∀ binding, ¬ call.Defines name binding)
    (calculator : Calculator) :
    (calculator.execute call.command call.lines).calculator.store.get? name =
      calculator.store.get? name := by
  have transition := calculator.execute_transition call
  generalize calculator.execute call.command call.lines = execution at transition ⊢
  cases transition with
  | @defined other binding defines =>
    have apart : name ≠ other := by
      rintro rfl
      exact none binding defines
    exact Store.get?_define_of_ne _ _ _ apart
  | left command => rfl
  | shown value command => rfl
  | failed failure => rfl

theorem Calculator.get?_executeAll_of_not_defines
    (none : ∀ call ∈ calls, ∀ binding, ¬ call.Defines name binding) (calculator : Calculator) :
    (calculator.executeAll calls).store.get? name = calculator.store.get? name := by
  induction calls generalizing calculator with
  | nil => rfl
  | cons call later ih =>
    obtain ⟨own, rest⟩ := List.forall_mem_cons.mp none
    exact (ih rest _).trans (Call.get?_of_not_defines own calculator)

end Calls

namespace Expr
variable {first second : Store Value} {e : Expr}

/-! ## One step -/

/-- The first matrix variable of an expression is one of its variables. -/
theorem firstMatrixField_congr (agree : Store.AgreeOn e.names first second) :
    firstMatrixField first e = firstMatrixField second e := by
  induction e with
  | literal text => rfl
  | var name =>
    rw [firstMatrixField, firstMatrixField, Store.typeOf?_congr (agree name (List.mem_singleton_self name))]
  | unary function e ih => exact ih agree
  | binary operation l r left right =>
    obtain ⟨agreeLeft, agreeRight⟩ := List.forall_mem_append.mp agree
    rw [firstMatrixField, firstMatrixField, left agreeLeft, right agreeRight]

theorem operandType?_congr (agree : Store.AgreeOn e.names first second) (function : UnaryFunction)
    (type : ValueType) : function.operandType? first e type = function.operandType? second e type := by
  unfold UnaryFunction.operandType?
  rw [firstMatrixField_congr agree]

theorem evaluate_var_congr {name : String} (same : first.get? name = second.get? name) (levels : Nat)
    (type : ValueType) :
    evaluate first type (.var name) levels = evaluate second type (.var name) levels := by
  cases type with
  | scalar field =>
    simp only [evaluate, evaluateScalar, lookupScalar, Store.lookup_congr same]
  | matrix field =>
    simp only [evaluate, evaluateMatrix, lookupMatrix, Store.lookup_congr same]

/-! ## All steps -/

theorem evaluate_congr (agree : Store.AgreeOn e.names first second) (levels : Nat)
    (type : ValueType) : evaluate first type e levels = evaluate second type e levels := by
  induction e generalizing levels type with
  | literal text =>
    cases type with
    | scalar field => simp only [evaluate, evaluateScalar]
    | matrix field => simp only [evaluate, evaluateMatrix]
  | var name => exact evaluate_var_congr (agree name (List.mem_singleton_self name)) levels type
  | unary function e ih =>
    have agree : Store.AgreeOn e.names first second := agree
    cases levels with
    | zero => rw [evaluate_unary_zero, evaluate_unary_zero]
    | succ levels =>
      rcases unary_step type function e with ⟨error, failed⟩ | ⟨apply, step⟩
      · rw [failed, failed]
      · -- The type of the operand may come from the store, but it is the same for both.
        obtain ⟨inner, place, whole⟩ := step first levels
        obtain ⟨inner', place', whole'⟩ := step second levels
        rw [operandType?_congr agree, place'] at place
        obtain rfl := Option.some.inj place
        rw [whole, whole', ih agree]
  | binary operation l r left right =>
    obtain ⟨agreeLeft, agreeRight⟩ := List.forall_mem_append.mp agree
    cases levels with
    | zero => rw [evaluate_binary_zero, evaluate_binary_zero]
    | succ levels =>
      rcases binary_step type operation l r with ⟨error, failed⟩ |
        ⟨inner, other, combine, -, step⟩ | ⟨modulus, text, apply, -, -, -, step⟩
      · rw [failed, failed]
      · rw [step, step, left agreeLeft, right agreeRight]
      · rw [step, step, left agreeLeft]

/-- What an expression comes to within some levels of nesting, whether a value or an error with its message, is
the same on any two stores that bind the variables in it alike. So it does not change by definitions of other
names, in whatever order, nor by any commands that define none of its variables. -/
theorem evaluate_coincides (e : Expr) (type : ValueType) (levels : Nat) :
    (∀ first second, Store.AgreeOn e.names first second →
      evaluate first type e levels = evaluate second type e levels) ∧
    (∀ (store : Store Value) (definitions : List (String × Binding Value)),
      (∀ definition ∈ definitions, definition.1 ∉ e.names) →
        evaluate (store.defineAll definitions) type e levels = evaluate store type e levels) ∧
    ∀ (calculator : Calculator) (calls : List Call),
      (∀ call ∈ calls, ∀ name ∈ e.names, ∀ binding, ¬ call.Defines name binding) →
        evaluate (calculator.executeAll calls).store type e levels =
          evaluate calculator.store type e levels := by
  have coincide {first second : Store Value} (agree : Store.AgreeOn e.names first second) :
      evaluate first type e levels = evaluate second type e levels :=
    evaluate_congr agree levels type
  refine ⟨fun first second => coincide, fun store definitions others => coincide ?_,
    fun calculator calls none => coincide ?_⟩
  · intro name member
    exact Store.get?_defineAll (fun definition defined same =>
      others definition defined (same ▸ member)) store
  · intro name member
    exact Calculator.get?_executeAll_of_not_defines (fun call called =>
      none call called name member) calculator

/-- The rank of a matrix modulo seven does not change by a matrix of rational numbers that is defined under
another name, nor does the field that it is taken over. -/
theorem evaluate_coincides_rank :
    ("a" ∉ (unary .rank (.var "m")).names) ∧
    evaluate (Calculator.matrixModuloSeven.store.defineAll
        [("a", ⟨.scalar .rationals, .scalar (.rational .one)⟩), ("a", ⟨.matrix .rationals, .matrix .exchanged⟩)])
      (.scalar .rationals) (.unary .rank (.var "m")) = .ok (.scalar (.rational (.ofInt 1))) := by
  have before : evaluate Calculator.matrixModuloSeven.store (.scalar .rationals)
      (.unary .rank (.var "m")) = .ok (.scalar (.rational (.ofInt 1))) := by decide +kernel
  refine ⟨by decide, ?_⟩
  rw [(evaluate_coincides (.unary .rank (.var "m")) (.scalar .rationals) maxLevels).2.1 _ _ (by decide), before]

end Expr

end Abacus
