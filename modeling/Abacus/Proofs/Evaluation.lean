import Abacus.Proofs.Reading

/-!
# Evaluation agrees with meaning

An expression that is nested no more deeply than the levels allow evaluates to what it denotes
(`evaluatesMeaning`), and fails if it is at fault (`failsAtFault`). As it always has a meaning or a
fault, evaluation returns a value exactly if there is a meaning, and there is none exactly if there is
a fault (`evaluate_iff_denotes`).
-/

namespace Abacus.Expr
open Echelon (Table rowSpace)

variable {store : Store Value}

/-! ## Variables -/

theorem lookup_of_bound {name : String} {type : ValueType} {value : Value}
    (bound : store.get? name = some ⟨type, value⟩) : store.lookup name type = .ok value := by
  rw [Store.lookup, bound]
  exact if_pos rfl

theorem lookupScalar_of_bound {name : String} {field : NumberField} {x : Scalar}
    (bound : store.get? name = some ⟨.scalar field, .scalar x⟩) :
    lookupScalar store field name = .ok x := by
  rw [lookupScalar, lookup_of_bound bound]
  rfl

theorem lookupMatrix_of_bound {name : String} {field : NumberField} {a : Matrix}
    (bound : store.get? name = some ⟨.matrix field, .matrix a⟩) :
    lookupMatrix store field name = .ok a := by
  rw [lookupMatrix, lookup_of_bound bound]
  rfl

/-- The field of a variable that is stored as a matrix. -/
def matrixField? (store : Store Value) (name : String) : Option NumberField :=
  match store.typeOf? name with
  | some (.matrix field) => some field
  | _ => none

theorem matrixField?_eq_some_iff {name : String} {field : NumberField} :
    matrixField? store name = some field ↔ store.typeOf? name = some (.matrix field) := by
  rw [matrixField?]
  split
  · rename_i other stored
    rw [stored, Option.some.injEq, Option.some.injEq, ValueType.matrix.injEq]
  · rename_i unmatched
    constructor
    · intro found
      cases found
    · intro stored
      exact absurd stored (unmatched field)

theorem matrixField?_eq_none {name : String} (other : ¬ NamesMatrix store name) :
    matrixField? store name = none := by
  cases found : matrixField? store name with
  | none => rfl
  | some field => exact absurd ⟨field, matrixField?_eq_some_iff.mp found⟩ other

theorem firstMatrixField_eq (store : Store Value) (e : Expr) :
    firstMatrixField store e = e.names.findSome? (matrixField? store) := by
  induction e with
  | literal text => rfl
  | var name =>
    rw [firstMatrixField, names, List.findSome?_singleton]
    rfl
  | unary function operand ih => rw [firstMatrixField, names, ih]
  | binary operation l r left right =>
    rw [firstMatrixField, names, List.findSome?_append, ← left, ← right]
    cases firstMatrixField store l <;> rfl

theorem firstMatrixField_getD {e : Expr} {F : GroundField} (place : MatrixField store e.names F) :
    (firstMatrixField store e).getD .rationals = F.name := by
  rw [firstMatrixField_eq]
  cases place with
  | @first _ before after name split earlier stored =>
    have found : e.names.findSome? (matrixField? store) = some F.name :=
      List.findSome?_eq_some_iff.mpr ⟨before, name, after, split,
        matrixField?_eq_some_iff.mpr stored, fun other member =>
          matrixField?_eq_none (earlier other member)⟩
    rw [found, Option.getD_some]
  | none all =>
    rw [List.findSome?_eq_none_iff.mpr fun name member => matrixField?_eq_none (all name member)]
    rfl

/-! ## Powers -/

theorem powerOf_encode {p : Modulus} {x : ZMod p.value} {text : String} {n : Int}
    (numeral : Numeral text.toList n) (defined : x ≠ 0 ∨ 0 ≤ n) :
    ((GroundField.residues p).encode x).powerOf text.toList =
      .ok ((GroundField.residues p).encode (x ^ n)) := by
  have inside : ¬ (n < 0 ∧ (Residue.ofZMod x).toZMod = 0) := by
    rw [Residue.toZMod_ofZMod]
    rintro ⟨negative, zero⟩
    rcases defined with nonzero | natural
    · exact nonzero zero
    · exact absurd natural (not_le.mpr negative)
  have power := Residue.power_exponentOf (Residue.ofZMod x) numeral
  rw [if_neg inside, Residue.toZMod_ofZMod] at power
  exact congrArg (Except.map (Scalar.residue p)) power

theorem powerOf_zero {p : Modulus} {text : String} {n : Int} (numeral : Numeral text.toList n)
    (negative : n < 0) :
    ((GroundField.residues p).encode 0).powerOf text.toList = .error .inverseOfZero := by
  have power := Residue.power_exponentOf (Residue.ofZMod (0 : ZMod p.value)) numeral
  rw [if_pos ⟨negative, Residue.toZMod_ofZMod _⟩] at power
  exact congrArg (Except.map (Scalar.residue p)) power

/-! ## What is denoted is evaluated -/

/-- An operation or function takes one level; what is left suffices for its operands. -/
theorem exists_lower {depth levels : Nat} (shallow : depth + 1 ≤ levels) :
    ∃ lower, levels = lower + 1 ∧ depth ≤ lower := by
  cases levels with
  | zero => exact absurd shallow (Nat.not_succ_le_zero depth)
  | succ lower => exact ⟨lower, rfl, Nat.le_of_succ_le_succ shallow⟩

/-- Within enough levels, an expression evaluates to what it denotes. -/
structure EvaluatesMeaning (store : Store Value) (e : Expr) : Prop where
  number : ∀ {F : GroundField} {levels : Nat} {x : F.Element}, DenotesNumber store F e x →
    e.depth ≤ levels → evaluateScalar store levels F.name e = .ok (F.encode x)
  table : ∀ {F : GroundField} {levels height width : Nat} {A : Table F.Element height width},
    DenotesTable store F e A → e.depth ≤ levels →
    ∃ tall wide, evaluateMatrix store levels F.name e = .ok (F.matrix A tall wide)

namespace EvaluatesMeaning

theorem literal (text : String) : EvaluatesMeaning store (.literal text) := by
  constructor
  · intro F levels x denotes shallow
    cases denotes with
    | literal numeral =>
      rw [evaluateScalar]
      exact F.representation.read numeral
  · intro F levels height width A denotes shallow
    cases denotes

theorem var (name : String) : EvaluatesMeaning store (.var name) := by
  constructor
  · intro F levels x denotes shallow
    cases denotes with
    | var bound =>
      rw [evaluateScalar]
      exact lookupScalar_of_bound bound
  · intro F levels height width A denotes shallow
    cases denotes with
    | @var _ _ _ _ _ tall wide bound =>
      refine ⟨tall, wide, ?_⟩
      rw [evaluateMatrix]
      exact lookupMatrix_of_bound bound

theorem unary_number {function : UnaryFunction} {e : Expr} (operand : EvaluatesMeaning store e)
    {F : GroundField} {levels : Nat} {x : F.Element}
    (denotes : DenotesNumber store F (.unary function e) x)
    (shallow : (unary function e).depth ≤ levels) :
    evaluateScalar store levels F.name (.unary function e) = .ok (F.encode x) := by
  obtain ⟨levels, rfl, inner⟩ := exists_lower shallow
  cases denotes with
  | neg denotes =>
    rw [evaluateScalar, operand.number denotes inner]
    exact congrArg Except.ok (F.representation.negate _)
  | inv denotes nonzero =>
    rw [evaluateScalar, operand.number denotes inner]
    exact F.representation.reciprocal _ nonzero
  | det denotes =>
    obtain ⟨tall, wide, evaluated⟩ := operand.table denotes inner
    rw [evaluateScalar, evaluated]
    exact F.representation.determinant_matrix _ tall wide
  | det_oblong denotes oblong =>
    obtain ⟨tall, wide, evaluated⟩ := operand.table denotes inner
    rw [evaluateScalar, evaluated]
    exact F.representation.determinant_oblong _ oblong tall wide
  | @rank G _ _ _ A place denotes =>
    obtain ⟨tall, wide, evaluated⟩ := operand.table denotes inner
    rw [← firstMatrixField_getD place] at evaluated
    rw [GroundField.name_rationals, evaluateScalar, evaluated]
    have counted : Rational.ofInt A.rank = Rational.ofRat (A.rank : ℚ) :=
      Rational.toRat_inj.mp (by simp)
    refine (bind_eq_of_ok (G.representation.rank_matrix A tall wide) _).trans ?_
    exact congrArg (Except.ok ∘ Scalar.rational) counted

theorem unary_table {function : UnaryFunction} {e : Expr} (operand : EvaluatesMeaning store e)
    {F : GroundField} {levels height width : Nat} {A : Table F.Element height width}
    (denotes : DenotesTable store F (.unary function e) A)
    (shallow : (unary function e).depth ≤ levels) :
    ∃ tall wide, evaluateMatrix store levels F.name (.unary function e) =
      .ok (F.matrix A tall wide) := by
  obtain ⟨levels, rfl, inner⟩ := exists_lower shallow
  cases denotes with
  | neg denotes =>
    obtain ⟨tall, wide, evaluated⟩ := operand.table denotes inner
    refine ⟨tall, wide, ?_⟩
    rw [evaluateMatrix, evaluated]
    exact F.representation.negate_matrix _
  | rref denotes reduced same =>
    obtain ⟨tall, wide, evaluated⟩ := operand.table denotes inner
    obtain ⟨r, executed, form⟩ := F.representation.reduce_form_eq reduced same tall wide
    refine ⟨tall, wide, ?_⟩
    rw [evaluateMatrix, evaluated]
    refine (bind_eq_of_ok executed _).trans ?_
    exact congrArg Except.ok form

theorem unary (function : UnaryFunction) {e : Expr} (operand : EvaluatesMeaning store e) :
    EvaluatesMeaning store (.unary function e) :=
  ⟨operand.unary_number, operand.unary_table⟩

theorem binary_number {operation : BinaryOperation} {l r : Expr} (left : EvaluatesMeaning store l)
    (right : EvaluatesMeaning store r) {F : GroundField} {levels : Nat} {x : F.Element}
    (denotes : DenotesNumber store F (.binary operation l r) x)
    (shallow : (binary operation l r).depth ≤ levels) :
    evaluateScalar store levels F.name (.binary operation l r) = .ok (F.encode x) := by
  obtain ⟨levels, rfl, inner⟩ := exists_lower shallow
  obtain ⟨leftInner, rightInner⟩ := max_le_iff.mp inner
  cases denotes with
  | add x y =>
    rw [evaluateScalar, left.number x leftInner, right.number y rightInner]
    exact F.representation.add _ _
  | sub x y =>
    rw [evaluateScalar, left.number x leftInner, right.number y rightInner]
    exact F.representation.subtract _ _
  | mul x y =>
    rw [evaluateScalar, left.number x leftInner, right.number y rightInner]
    exact F.representation.multiply _ _
  | div x y nonzero =>
    rw [evaluateScalar, left.number x leftInner, right.number y rightInner]
    exact F.representation.divide _ _ nonzero
  | @pow p _ text n x base numeral defined =>
    have evaluated := left.number base leftInner
    rw [GroundField.name_residues] at evaluated ⊢
    rw [evaluateScalar, evaluated]
    exact powerOf_encode numeral defined

theorem binary_table {operation : BinaryOperation} {l r : Expr} (left : EvaluatesMeaning store l)
    (right : EvaluatesMeaning store r) {F : GroundField} {levels height width : Nat}
    {A : Table F.Element height width} (denotes : DenotesTable store F (.binary operation l r) A)
    (shallow : (binary operation l r).depth ≤ levels) :
    ∃ tall wide, evaluateMatrix store levels F.name (.binary operation l r) =
      .ok (F.matrix A tall wide) := by
  obtain ⟨levels, rfl, inner⟩ := exists_lower shallow
  obtain ⟨leftInner, rightInner⟩ := max_le_iff.mp inner
  cases denotes with
  | add a b =>
    obtain ⟨tall, wide, evaluatedA⟩ := left.table a leftInner
    obtain ⟨_, _, evaluatedB⟩ := right.table b rightInner
    refine ⟨tall, wide, ?_⟩
    rw [evaluateMatrix, evaluatedA, evaluatedB]
    exact F.representation.add_matrix _ _
  | sub a b =>
    obtain ⟨tall, wide, evaluatedA⟩ := left.table a leftInner
    obtain ⟨_, _, evaluatedB⟩ := right.table b rightInner
    refine ⟨tall, wide, ?_⟩
    rw [evaluateMatrix, evaluatedA, evaluatedB]
    exact F.representation.subtract_matrix _ _
  | mul a b =>
    obtain ⟨tall, deep, evaluatedA⟩ := left.table a leftInner
    obtain ⟨_, wide, evaluatedB⟩ := right.table b rightInner
    refine ⟨tall, wide, ?_⟩
    rw [evaluateMatrix, evaluatedA, evaluatedB]
    exact F.representation.multiply_matrix _ _ tall deep wide
  | scale x a =>
    obtain ⟨tall, wide, evaluated⟩ := right.table a rightInner
    refine ⟨tall, wide, ?_⟩
    rw [evaluateMatrix, left.number x leftInner, evaluated]
    exact F.representation.scale_matrix _ _

theorem binary (operation : BinaryOperation) {l r : Expr} (left : EvaluatesMeaning store l)
    (right : EvaluatesMeaning store r) : EvaluatesMeaning store (.binary operation l r) :=
  ⟨left.binary_number right, left.binary_table right⟩

end EvaluatesMeaning

theorem evaluatesMeaning (store : Store Value) (e : Expr) : EvaluatesMeaning store e := by
  induction e with
  | literal text => exact .literal text
  | var name => exact .var name
  | unary function operand ih => exact .unary function ih
  | binary operation l r left right => exact .binary operation left right

/-! ## What is at fault fails -/

theorem fails_lookup_of_unbound {name : String} (unbound : store.get? name = none)
    (requested : ValueType) : Fails (store.lookup name requested) := by
  rw [Store.lookup, unbound]
  exact ⟨_, rfl⟩

theorem fails_lookup_of_other {name : String} {type requested : ValueType}
    (stored : store.typeOf? name = some type) (differs : type ≠ requested) :
    Fails (store.lookup name requested) := by
  obtain ⟨binding, found, rfl⟩ := Option.map_eq_some_iff.mp stored
  rw [Store.lookup, found]
  exact ⟨_, if_neg differs⟩

theorem fails_pow_of_notLiteral {levels : Nat} {modulus : Int} {l r : Expr}
    (notLiteral : ∀ text, r ≠ .literal text) :
    Fails (evaluateScalar store (levels + 1) (.residues modulus) (.binary .pow l r)) := by
  rw [evaluateScalar]
  · exact ⟨_, rfl⟩
  · exact notLiteral

/-- The operations on two numbers evaluate the left operand, then the right one. -/
theorem exists_combine {operation : BinaryOperation} (place : operation ∈ [.add, .sub, .mul, .div])
    (levels : Nat) (field : NumberField) (l r : Expr) :
    ∃ combine : Scalar → Scalar → Except Error Scalar,
      evaluateScalar store (levels + 1) field (.binary operation l r) =
        (evaluateScalar store levels field l >>= fun x =>
          evaluateScalar store levels field r >>= combine x) := by
  cases operation with
  | add => exact ⟨Scalar.add, by rw [evaluateScalar]⟩
  | sub => exact ⟨Scalar.subtract, by rw [evaluateScalar]⟩
  | mul => exact ⟨Scalar.multiply, by rw [evaluateScalar]⟩
  | div => exact ⟨Scalar.divide, by rw [evaluateScalar]⟩
  | pow => simp at place
  | scale => simp at place

/-- The operations on two matrices evaluate the left operand, then the right one. -/
theorem exists_combineMatrices {operation : BinaryOperation} (place : operation ∈ [.add, .sub, .mul])
    (levels : Nat) (field : NumberField) (l r : Expr) :
    ∃ combine : Matrix → Matrix → Except Error Matrix,
      evaluateMatrix store (levels + 1) field (.binary operation l r) =
        (evaluateMatrix store levels field l >>= fun a =>
          evaluateMatrix store levels field r >>= combine a) := by
  cases operation with
  | add => exact ⟨Matrix.add, by rw [evaluateMatrix]⟩
  | sub => exact ⟨Matrix.subtract, by rw [evaluateMatrix]⟩
  | mul => exact ⟨Matrix.multiply, by rw [evaluateMatrix]⟩
  | div => simp at place
  | pow => simp at place
  | scale => simp at place

/-- Within enough levels, an expression at fault does not evaluate. -/
structure FailsAtFault (store : Store Value) (e : Expr) : Prop where
  number : ∀ {F : GroundField} {levels : Nat}, NumberFault store F e → e.depth ≤ levels →
    Fails (evaluateScalar store levels F.name e)
  table : ∀ {F : GroundField} {levels : Nat}, TableFault store F e → e.depth ≤ levels →
    Fails (evaluateMatrix store levels F.name e)

namespace FailsAtFault

theorem literal (text : String) : FailsAtFault store (.literal text) := by
  constructor
  · intro F levels fault shallow
    cases fault
  · intro F levels fault shallow
    rw [evaluateMatrix]
    exact ⟨_, rfl⟩

theorem var (name : String) : FailsAtFault store (.var name) := by
  constructor
  · intro F levels fault shallow
    rw [evaluateScalar]
    cases fault with
    | undefined unbound => exact (fails_lookup_of_unbound unbound _).bind _
    | otherType stored differs => exact (fails_lookup_of_other stored differs).bind _
  · intro F levels fault shallow
    rw [evaluateMatrix]
    cases fault with
    | undefined unbound => exact (fails_lookup_of_unbound unbound _).bind _
    | otherType stored differs => exact (fails_lookup_of_other stored differs).bind _

theorem unary_number {function : UnaryFunction} {e : Expr} (operand : FailsAtFault store e)
    {F : GroundField} {levels : Nat} (fault : NumberFault store F (.unary function e))
    (shallow : (unary function e).depth ≤ levels) :
    Fails (evaluateScalar store levels F.name (.unary function e)) := by
  obtain ⟨levels, rfl, inner⟩ := exists_lower shallow
  cases fault with
  | operand place fault =>
    rcases place with rfl | rfl
    · rw [evaluateScalar]
      exact (operand.number fault inner).bind _
    · rw [evaluateScalar]
      exact (operand.number fault inner).bind _
  | inverseOfZero zero =>
    rw [evaluateScalar, (evaluatesMeaning store e).number zero inner]
    exact ⟨_, F.representation.reciprocal_zero⟩
  | determinant fault =>
    rw [evaluateScalar]
    exact (operand.table fault inner).bind _
  | rank place fault =>
    have fails := operand.table fault inner
    rw [← firstMatrixField_getD place] at fails
    rw [GroundField.name_rationals, evaluateScalar]
    exact fails.bind _
  | rankAtResidues =>
    rw [GroundField.name_residues, evaluateScalar]
    exact ⟨_, rfl⟩
  | rref =>
    rw [evaluateScalar]
    exact ⟨_, rfl⟩

theorem unary_table {function : UnaryFunction} {e : Expr} (operand : FailsAtFault store e)
    {F : GroundField} {levels : Nat} (fault : TableFault store F (.unary function e))
    (shallow : (unary function e).depth ≤ levels) :
    Fails (evaluateMatrix store levels F.name (.unary function e)) := by
  obtain ⟨levels, rfl, inner⟩ := exists_lower shallow
  cases fault with
  | operand place fault =>
    rcases place with rfl | rfl
    · rw [evaluateMatrix]
      exact (operand.table fault inner).bind _
    · rw [evaluateMatrix]
      exact (operand.table fault inner).bind _
  | function place =>
    rcases place with rfl | rfl | rfl
    · rw [evaluateMatrix]
      exact ⟨_, rfl⟩
    · rw [evaluateMatrix]
      exact ⟨_, rfl⟩
    · rw [evaluateMatrix]
      exact ⟨_, rfl⟩

theorem unary (function : UnaryFunction) {e : Expr} (operand : FailsAtFault store e) :
    FailsAtFault store (.unary function e) :=
  ⟨operand.unary_number, operand.unary_table⟩

theorem binary_number {operation : BinaryOperation} {l r : Expr} (judged : MeaningOrFault store l)
    (left : FailsAtFault store l) (right : FailsAtFault store r) {F : GroundField} {levels : Nat}
    (fault : NumberFault store F (.binary operation l r))
    (shallow : (binary operation l r).depth ≤ levels) :
    Fails (evaluateScalar store levels F.name (.binary operation l r)) := by
  obtain ⟨levels, rfl, inner⟩ := exists_lower shallow
  obtain ⟨leftInner, rightInner⟩ := max_le_iff.mp inner
  cases fault with
  | left place fault =>
    obtain ⟨combine, evaluated⟩ := exists_combine place levels F.name l r
    rw [evaluated]
    exact (left.number fault leftInner).bind _
  | right place fault =>
    obtain ⟨combine, evaluated⟩ := exists_combine place levels F.name l r
    rw [evaluated]
    exact .after _ fun _ => (right.number fault rightInner).bind _
  | divisionByZero zero =>
    -- The left operand comes first and may itself be at fault.
    rw [evaluateScalar]
    rcases judged.number F with ⟨x, denotes⟩ | fault
    · rw [(evaluatesMeaning store l).number denotes leftInner,
        (evaluatesMeaning store r).number zero rightInner]
      exact ⟨_, F.representation.divide_zero x⟩
    · exact (left.number fault leftInner).bind _
  | powAtRationals =>
    rw [GroundField.name_rationals, evaluateScalar]
    exact ⟨_, rfl⟩
  | @base p _ _ fault =>
    have fails := left.number fault leftInner
    rw [GroundField.name_residues] at fails ⊢
    cases r with
    | literal text => rw [evaluateScalar]; exact fails.bind _
    | _ => exact fails_pow_of_notLiteral (by simp)
  | exponent notLiteral =>
    rw [GroundField.name_residues]
    exact fails_pow_of_notLiteral notLiteral
  | powerOfZero zero numeral negative =>
    have evaluated := (evaluatesMeaning store l).number zero leftInner
    rw [GroundField.name_residues] at evaluated ⊢
    rw [evaluateScalar, evaluated]
    exact ⟨_, powerOf_zero numeral negative⟩
  | scale =>
    rw [evaluateScalar]
    exact ⟨_, rfl⟩

theorem binary_table {operation : BinaryOperation} {l r : Expr} (left : FailsAtFault store l)
    (right : FailsAtFault store r) {F : GroundField} {levels : Nat}
    (fault : TableFault store F (.binary operation l r))
    (shallow : (binary operation l r).depth ≤ levels) :
    Fails (evaluateMatrix store levels F.name (.binary operation l r)) := by
  obtain ⟨levels, rfl, inner⟩ := exists_lower shallow
  obtain ⟨leftInner, rightInner⟩ := max_le_iff.mp inner
  cases fault with
  | left place fault =>
    obtain ⟨combine, evaluated⟩ := exists_combineMatrices place levels F.name l r
    rw [evaluated]
    exact (left.table fault leftInner).bind _
  | right place fault =>
    obtain ⟨combine, evaluated⟩ := exists_combineMatrices place levels F.name l r
    rw [evaluated]
    exact .after _ fun _ => (right.table fault rightInner).bind _
  | scaled fault =>
    rw [evaluateMatrix]
    exact .after _ fun _ => (right.table fault rightInner).bind _
  | factor fault =>
    rw [evaluateMatrix]
    exact (left.number fault leftInner).bind _
  | shapes place a b differ =>
    obtain ⟨_, _, evaluatedA⟩ := (evaluatesMeaning store l).table a leftInner
    obtain ⟨_, _, evaluatedB⟩ := (evaluatesMeaning store r).table b rightInner
    rcases place with rfl | rfl
    · rw [evaluateMatrix, evaluatedA, evaluatedB]
      exact fails_entrywise differ
    · rw [evaluateMatrix, evaluatedA, evaluatedB]
      exact fails_entrywise differ
  | factors a b unfit =>
    obtain ⟨_, _, evaluatedA⟩ := (evaluatesMeaning store l).table a leftInner
    obtain ⟨_, _, evaluatedB⟩ := (evaluatesMeaning store r).table b rightInner
    rw [evaluateMatrix, evaluatedA, evaluatedB]
    exact fails_multiply unfit
  | operation place =>
    rcases place with rfl | rfl
    · rw [evaluateMatrix]
      exact ⟨_, rfl⟩
    · rw [evaluateMatrix]
      exact ⟨_, rfl⟩

theorem binary (operation : BinaryOperation) {l r : Expr} (judged : MeaningOrFault store l)
    (left : FailsAtFault store l) (right : FailsAtFault store r) :
    FailsAtFault store (.binary operation l r) :=
  ⟨binary_number judged left right, left.binary_table right⟩

end FailsAtFault

theorem failsAtFault (typed : store.WellTyped) {e : Expr} (numerals : e.HasNumerals) :
    FailsAtFault store e := by
  induction e with
  | literal text => exact .literal text
  | var name => exact .var name
  | unary function operand ih => exact .unary function (ih numerals)
  | binary operation l r left right =>
    exact .binary operation (meaningOrFault typed numerals.1) (left numerals.1) (right numerals.2)

/-! ## The whole -/

section Whole
variable {levels : Nat} {e : Expr} (typed : store.WellTyped) (nested : Nested levels e)
include typed nested

theorem evaluateScalar_iff_denotes (F : GroundField) (s : Scalar) :
    evaluateScalar store levels F.name e = .ok s ↔
      ∃ x, DenotesNumber store F e x ∧ s = F.encode x := by
  constructor
  · intro evaluated
    rcases (meaningOrFault typed nested.numerals).number F with ⟨x, denotes⟩ | fault
    · rw [(evaluatesMeaning store e).number denotes nested.depth_le] at evaluated
      exact ⟨x, denotes, (Except.ok.inj evaluated).symm⟩
    · obtain ⟨error, failed⟩ := (failsAtFault typed nested.numerals).number fault nested.depth_le
      cases failed.symm.trans evaluated
  · rintro ⟨x, denotes, rfl⟩
    exact (evaluatesMeaning store e).number denotes nested.depth_le

theorem evaluateMatrix_iff_denotes (F : GroundField) (a : Matrix) :
    evaluateMatrix store levels F.name e = .ok a ↔
      ∃ (height width : Nat) (A : Table F.Element height width) (tall : 0 < height)
        (wide : 0 < width), DenotesTable store F e A ∧ a = F.matrix A tall wide := by
  constructor
  · intro evaluated
    rcases (meaningOrFault typed nested.numerals).table F with ⟨height, width, A, denotes⟩ | fault
    · obtain ⟨tall, wide, value⟩ := (evaluatesMeaning store e).table denotes nested.depth_le
      exact ⟨height, width, A, tall, wide, denotes, Except.ok.inj (evaluated.symm.trans value)⟩
    · obtain ⟨error, failed⟩ := (failsAtFault typed nested.numerals).table fault nested.depth_le
      cases failed.symm.trans evaluated
  · rintro ⟨height, width, A, tall, wide, denotes, rfl⟩
    obtain ⟨_, _, value⟩ := (evaluatesMeaning store e).table denotes nested.depth_le
    exact value

theorem no_number_iff_fault (F : GroundField) :
    (∀ x, ¬ DenotesNumber store F e x) ↔ NumberFault store F e := by
  constructor
  · intro none
    rcases (meaningOrFault typed nested.numerals).number F with ⟨x, denotes⟩ | fault
    · exact absurd denotes (none x)
    · exact fault
  · intro fault x denotes
    obtain ⟨error, failed⟩ := (failsAtFault typed nested.numerals).number fault nested.depth_le
    cases failed.symm.trans ((evaluatesMeaning store e).number denotes nested.depth_le)

theorem no_table_iff_fault (F : GroundField) :
    (∀ (height width : Nat) (A : Table F.Element height width), ¬ DenotesTable store F e A) ↔
      TableFault store F e := by
  constructor
  · intro none
    rcases (meaningOrFault typed nested.numerals).table F with ⟨height, width, A, denotes⟩ | fault
    · exact absurd denotes (none height width A)
    · exact fault
  · intro fault height width A denotes
    obtain ⟨error, failed⟩ := (failsAtFault typed nested.numerals).table fault nested.depth_le
    obtain ⟨_, _, value⟩ := (evaluatesMeaning store e).table denotes nested.depth_le
    cases failed.symm.trans value

end Whole

/-- On a well-typed store, every expression that can be read within some levels of nesting evaluates within
these at a type to a value if and only if it has a meaning at that type, which the value then represents;
and it has none if and only if one of the listed faults is somewhere in it. -/
theorem evaluate_iff_denotes (typed : store.WellTyped) (levels : Nat) :
    (∀ line e, ofText line levels = .ok e → Nested levels e) ∧
    ∀ e, Nested levels e → ∀ F : GroundField,
      (∀ value, evaluate store (.scalar F.name) e levels = .ok value ↔
        ∃ x, DenotesNumber store F e x ∧ value = .scalar (F.encode x)) ∧
      ((∀ x, ¬ DenotesNumber store F e x) ↔ NumberFault store F e) ∧
      (∀ value, evaluate store (.matrix F.name) e levels = .ok value ↔
        ∃ (height width : Nat) (A : Table F.Element height width) (tall : 0 < height)
          (wide : 0 < width), DenotesTable store F e A ∧ value = .matrix (F.matrix A tall wide)) ∧
      ((∀ (height width : Nat) (A : Table F.Element height width), ¬ DenotesTable store F e A) ↔
        TableFault store F e) := by
  refine ⟨fun line e read => nested_of_ofText read, ?_⟩
  intro e nested F
  refine ⟨?_, no_number_iff_fault typed nested F, ?_, no_table_iff_fault typed nested F⟩
  · intro value
    rw [evaluate, map_eq_ok_iff]
    constructor
    · rintro ⟨s, evaluated, rfl⟩
      obtain ⟨x, denotes, rfl⟩ := (evaluateScalar_iff_denotes typed nested F s).mp evaluated
      exact ⟨x, denotes, rfl⟩
    · rintro ⟨x, denotes, rfl⟩
      exact ⟨_, (evaluateScalar_iff_denotes typed nested F _).mpr ⟨x, denotes, rfl⟩, rfl⟩
  · intro value
    rw [evaluate, map_eq_ok_iff]
    constructor
    · rintro ⟨a, evaluated, rfl⟩
      obtain ⟨height, width, A, tall, wide, denotes, rfl⟩ :=
        (evaluateMatrix_iff_denotes typed nested F a).mp evaluated
      exact ⟨height, width, A, tall, wide, denotes, rfl⟩
    · rintro ⟨height, width, A, tall, wide, denotes, rfl⟩
      exact ⟨_, (evaluateMatrix_iff_denotes typed nested F _).mpr
        ⟨height, width, A, tall, wide, denotes, rfl⟩, rfl⟩

/-- A store with one matrix in it. -/
def exchangedStore : Store Value :=
  Store.empty.define "a" (.matrix .rationals) (.matrix Matrix.exchanged)

theorem exchangedStore_typed : exchangedStore.WellTyped := by
  intro name binding found
  by_cases same : name = "a"
  · subst same
    rw [exchangedStore, Store.get?_define_self] at found
    cases found
    exact .table .rationals Matrix.exchanged_over
  · rw [exchangedStore, Store.get?_define_of_ne _ _ _ same] at found
    cases found

theorem evaluate_iff_denotes_quarter :
    exchangedStore.WellTyped ∧
      evaluate exchangedStore (.scalar .rationals)
        (.binary .div (.unary .det (.var "a")) (.literal "4")) =
        .ok (.scalar (GroundField.rationals.encode (-1 / 2))) := by
  have digit : IsDigits ['4'] := by
    refine ⟨List.cons_ne_nil _ _, fun c member => ?_⟩
    rw [List.mem_singleton.mp member]
    rfl
  have four : Numeral "4".toList 4 := .unsigned digit
  have nested : Nested maxLevels (.binary .div (.unary .det (.var "a")) (.literal "4")) :=
    ⟨⟨trivial, 4, four⟩, by simp [depth, maxLevels]⟩
  have operand : DenotesTable exchangedStore .rationals (.var "a") !![0, 1; 2, 3] :=
    .var (Store.get?_define_self _ _ _ _)
  have denotes := DenotesNumber.div (.det operand) (.literal four) (by norm_num)
  have value : Matrix.det !![(0 : ℚ), 1; 2, 3] / ((4 : ℤ) : ℚ) = -1 / 2 := by
    rw [Matrix.det_fin_two_of]
    norm_num
  refine ⟨exchangedStore_typed, ?_⟩
  obtain ⟨number, -⟩ := (evaluate_iff_denotes exchangedStore_typed maxLevels).2 _ nested .rationals
  exact (number _).mpr ⟨_, denotes, by rw [value]⟩

end Abacus.Expr
