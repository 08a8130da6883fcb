import Abacus.Evaluation
import Abacus.Proofs.ReducedForm

/-!
# The meaning of expressions

What an expression stands for in the mathematics of its field: an element of the field where a number
is wanted (`DenotesNumber`), a table over the field where a matrix is wanted (`DenotesTable`). The
ways in which an expression can fail to stand for anything are listed apart (`NumberFault`,
`TableFault`), and every expression with numerals for literals has a meaning or a fault
(`meaningOrFault`).
-/

namespace Abacus
open Echelon (Table rowSpace)

/-- A value of the type that it is stored under. -/
inductive Binding.WellTyped : Binding Value → Prop
  | number (F : GroundField) {x : Scalar} (inField : x.field = F.name) :
      WellTyped ⟨.scalar F.name, .scalar x⟩
  | table (F : GroundField) {a : Matrix} (inField : a.Over F.name) :
      WellTyped ⟨.matrix F.name, .matrix a⟩

/-- Every variable holds a value of its type. -/
def Store.WellTyped (store : Store Value) : Prop :=
  ∀ name binding, store.get? name = some binding → binding.WellTyped

namespace Expr

/-- The variables in an expression from left to right. -/
def names : Expr → List String
  | literal _ => []
  | var name => [name]
  | unary _ operand => names operand
  | binary _ left right => names left ++ names right

/-- The operations and functions around the innermost literal or variable. -/
def depth : Expr → Nat
  | literal _ | var _ => 0
  | unary _ operand => operand.depth + 1
  | binary _ left right => max left.depth right.depth + 1

/-- All literals are numerals. -/
def HasNumerals : Expr → Prop
  | literal text => ∃ n, Numeral text.toList n
  | var _ => True
  | unary _ operand => operand.HasNumerals
  | binary _ left right => left.HasNumerals ∧ right.HasNumerals

/-- The variable is stored as a matrix, whatever its field. -/
def NamesMatrix (store : Store Value) (name : String) : Prop :=
  ∃ field, store.typeOf? name = some (.matrix field)

/-- The field of the first matrix among the variables; the rationals if there is none. -/
inductive MatrixField (store : Store Value) (names : List String) : GroundField → Prop
  | first {F : GroundField} {before after : List String} {name : String}
      (split : names = before ++ name :: after)
      (earlier : ∀ other ∈ before, ¬ NamesMatrix store other)
      (stored : store.typeOf? name = some (.matrix F.name)) : MatrixField store names F
  | none (all : ∀ name ∈ names, ¬ NamesMatrix store name) : MatrixField store names .rationals

mutual

/-- The element of a field that an expression stands for where a number is wanted. -/
inductive DenotesNumber (store : Store Value) : (F : GroundField) → Expr → F.Element → Prop
  | literal {F : GroundField} {text : String} {n : Int} (numeral : Numeral text.toList n) :
      DenotesNumber store F (.literal text) n
  | var {F : GroundField} {name : String} {x : F.Element}
      (bound : store.get? name = some ⟨.scalar F.name, .scalar (F.encode x)⟩) :
      DenotesNumber store F (.var name) x
  | neg {F : GroundField} {e : Expr} {x : F.Element} (operand : DenotesNumber store F e x) :
      DenotesNumber store F (.unary .neg e) (-x)
  | inv {F : GroundField} {e : Expr} {x : F.Element} (operand : DenotesNumber store F e x)
      (nonzero : x ≠ 0) : DenotesNumber store F (.unary .inv e) x⁻¹
  | det {F : GroundField} {e : Expr} {size : Nat} {A : Table F.Element size size}
      (operand : DenotesTable store F e A) : DenotesNumber store F (.unary .det e) A.det
  | det_oblong {F : GroundField} {e : Expr} {height width : Nat} {A : Table F.Element height width}
      (operand : DenotesTable store F e A) (oblong : height ≠ width) :
      DenotesNumber store F (.unary .det e) 0
  | rank {G : GroundField} {e : Expr} {height width : Nat} {A : Table G.Element height width}
      (place : MatrixField store e.names G) (operand : DenotesTable store G e A) :
      DenotesNumber store .rationals (.unary .rank e) (A.rank : ℚ)
  | add {F : GroundField} {l r : Expr} {x y : F.Element} (left : DenotesNumber store F l x)
      (right : DenotesNumber store F r y) : DenotesNumber store F (.binary .add l r) (x + y)
  | sub {F : GroundField} {l r : Expr} {x y : F.Element} (left : DenotesNumber store F l x)
      (right : DenotesNumber store F r y) : DenotesNumber store F (.binary .sub l r) (x - y)
  | mul {F : GroundField} {l r : Expr} {x y : F.Element} (left : DenotesNumber store F l x)
      (right : DenotesNumber store F r y) : DenotesNumber store F (.binary .mul l r) (x * y)
  | div {F : GroundField} {l r : Expr} {x y : F.Element} (left : DenotesNumber store F l x)
      (right : DenotesNumber store F r y) (nonzero : y ≠ 0) :
      DenotesNumber store F (.binary .div l r) (x / y)
  | pow {p : Modulus} {e : Expr} {text : String} {n : Int} {x : ZMod p.value}
      (base : DenotesNumber store (.residues p) e x) (numeral : Numeral text.toList n)
      (defined : x ≠ 0 ∨ 0 ≤ n) :
      DenotesNumber store (.residues p) (.binary .pow e (.literal text)) (x ^ n)

/-- The table over a field that an expression stands for where a matrix is wanted. -/
inductive DenotesTable (store : Store Value) :
    (F : GroundField) → Expr → {height width : Nat} → Table F.Element height width → Prop
  | var {F : GroundField} {name : String} {height width : Nat} {A : Table F.Element height width}
      {tall : 0 < height} {wide : 0 < width}
      (bound : store.get? name = some ⟨.matrix F.name, .matrix (F.matrix A tall wide)⟩) :
      DenotesTable store F (.var name) A
  | neg {F : GroundField} {e : Expr} {height width : Nat} {A : Table F.Element height width}
      (operand : DenotesTable store F e A) : DenotesTable store F (.unary .neg e) (-A)
  | rref {F : GroundField} {e : Expr} {height width : Nat} {A R : Table F.Element height width}
      (operand : DenotesTable store F e A) (reduced : R.IsReducedRowEchelon)
      (same : rowSpace R = rowSpace A) : DenotesTable store F (.unary .rref e) R
  | add {F : GroundField} {l r : Expr} {height width : Nat} {A B : Table F.Element height width}
      (left : DenotesTable store F l A) (right : DenotesTable store F r B) :
      DenotesTable store F (.binary .add l r) (A + B)
  | sub {F : GroundField} {l r : Expr} {height width : Nat} {A B : Table F.Element height width}
      (left : DenotesTable store F l A) (right : DenotesTable store F r B) :
      DenotesTable store F (.binary .sub l r) (A - B)
  | mul {F : GroundField} {l r : Expr} {height inner width : Nat}
      {A : Table F.Element height inner} {B : Table F.Element inner width}
      (left : DenotesTable store F l A) (right : DenotesTable store F r B) :
      DenotesTable store F (.binary .mul l r) (A * B)
  | scale {F : GroundField} {l r : Expr} {height width : Nat} {x : F.Element}
      {A : Table F.Element height width} (factor : DenotesNumber store F l x)
      (operand : DenotesTable store F r A) : DenotesTable store F (.binary .scale l r) (x • A)

end

mutual

/-- Why an expression stands for no number of a field. -/
inductive NumberFault (store : Store Value) : GroundField → Expr → Prop
  | undefined {F : GroundField} {name : String} (unbound : store.get? name = none) :
      NumberFault store F (.var name)
  | otherType {F : GroundField} {name : String} {type : ValueType}
      (stored : store.typeOf? name = some type) (differs : type ≠ .scalar F.name) :
      NumberFault store F (.var name)
  | operand {F : GroundField} {function : UnaryFunction} {e : Expr}
      (place : function = .neg ∨ function = .inv) (fault : NumberFault store F e) :
      NumberFault store F (.unary function e)
  | inverseOfZero {F : GroundField} {e : Expr} (zero : DenotesNumber store F e 0) :
      NumberFault store F (.unary .inv e)
  | determinant {F : GroundField} {e : Expr} (fault : TableFault store F e) :
      NumberFault store F (.unary .det e)
  | rank {G : GroundField} {e : Expr} (place : MatrixField store e.names G)
      (fault : TableFault store G e) : NumberFault store .rationals (.unary .rank e)
  | rankAtResidues {p : Modulus} {e : Expr} : NumberFault store (.residues p) (.unary .rank e)
  | rref {F : GroundField} {e : Expr} : NumberFault store F (.unary .rref e)
  | left {F : GroundField} {operation : BinaryOperation} {l r : Expr}
      (place : operation ∈ [.add, .sub, .mul, .div]) (fault : NumberFault store F l) :
      NumberFault store F (.binary operation l r)
  | right {F : GroundField} {operation : BinaryOperation} {l r : Expr}
      (place : operation ∈ [.add, .sub, .mul, .div]) (fault : NumberFault store F r) :
      NumberFault store F (.binary operation l r)
  | divisionByZero {F : GroundField} {l r : Expr} (zero : DenotesNumber store F r 0) :
      NumberFault store F (.binary .div l r)
  | powAtRationals {l r : Expr} : NumberFault store .rationals (.binary .pow l r)
  | base {p : Modulus} {l r : Expr} (fault : NumberFault store (.residues p) l) :
      NumberFault store (.residues p) (.binary .pow l r)
  | exponent {p : Modulus} {l r : Expr} (notLiteral : ∀ text, r ≠ .literal text) :
      NumberFault store (.residues p) (.binary .pow l r)
  | powerOfZero {p : Modulus} {l : Expr} {text : String} {n : Int}
      (zero : DenotesNumber store (.residues p) l 0) (numeral : Numeral text.toList n)
      (negative : n < 0) : NumberFault store (.residues p) (.binary .pow l (.literal text))
  | scale {F : GroundField} {l r : Expr} : NumberFault store F (.binary .scale l r)

/-- Why an expression stands for no table over a field. -/
inductive TableFault (store : Store Value) : GroundField → Expr → Prop
  | literal {F : GroundField} {text : String} : TableFault store F (.literal text)
  | undefined {F : GroundField} {name : String} (unbound : store.get? name = none) :
      TableFault store F (.var name)
  | otherType {F : GroundField} {name : String} {type : ValueType}
      (stored : store.typeOf? name = some type) (differs : type ≠ .matrix F.name) :
      TableFault store F (.var name)
  | operand {F : GroundField} {function : UnaryFunction} {e : Expr}
      (place : function = .neg ∨ function = .rref) (fault : TableFault store F e) :
      TableFault store F (.unary function e)
  | function {F : GroundField} {function : UnaryFunction} {e : Expr}
      (place : function = .inv ∨ function = .det ∨ function = .rank) :
      TableFault store F (.unary function e)
  | left {F : GroundField} {operation : BinaryOperation} {l r : Expr}
      (place : operation ∈ [.add, .sub, .mul]) (fault : TableFault store F l) :
      TableFault store F (.binary operation l r)
  | right {F : GroundField} {operation : BinaryOperation} {l r : Expr}
      (place : operation ∈ [.add, .sub, .mul]) (fault : TableFault store F r) :
      TableFault store F (.binary operation l r)
  | factor {F : GroundField} {l r : Expr} (fault : NumberFault store F l) :
      TableFault store F (.binary .scale l r)
  | scaled {F : GroundField} {l r : Expr} (fault : TableFault store F r) :
      TableFault store F (.binary .scale l r)
  | shapes {F : GroundField} {operation : BinaryOperation} {l r : Expr} {height width : Nat}
      {height' width' : Nat} {A : Table F.Element height width} {B : Table F.Element height' width'}
      (place : operation = .add ∨ operation = .sub) (left : DenotesTable store F l A)
      (right : DenotesTable store F r B) (differ : (height, width) ≠ (height', width')) :
      TableFault store F (.binary operation l r)
  | factors {F : GroundField} {l r : Expr} {height width height' width' : Nat}
      {A : Table F.Element height width} {B : Table F.Element height' width'}
      (left : DenotesTable store F l A) (right : DenotesTable store F r B)
      (unfit : width ≠ height') : TableFault store F (.binary .mul l r)
  | operation {F : GroundField} {operation : BinaryOperation} {l r : Expr}
      (place : operation = .div ∨ operation = .pow) : TableFault store F (.binary operation l r)

end

/-! ## Every expression has a meaning or a fault -/

variable {store : Store Value}

theorem exists_matrixField (typed : store.WellTyped) (names : List String) :
    ∃ F, MatrixField store names F := by
  induction names with
  | nil => exact ⟨.rationals, .none (by simp)⟩
  | cons name rest ih =>
    by_cases stored : NamesMatrix store name
    · obtain ⟨field, bound⟩ := stored
      obtain ⟨binding, found, type⟩ := Option.map_eq_some_iff.mp bound
      cases typed name binding found with
      | number F inField => cases type
      | table F inField => exact ⟨F, @MatrixField.first store _ F [] rest name rfl (by simp)
          (bound.trans (congrArg some type.symm))⟩
    · obtain ⟨F, place⟩ := ih
      cases place with
      | @first _ before after other split earlier bound =>
        refine ⟨F, @MatrixField.first store _ F (name :: before) after other
          (congrArg (name :: ·) split) ?_ bound⟩
        intro other member
        rcases List.mem_cons.mp member with rfl | later
        · exact stored
        · exact earlier other later
      | none all =>
        refine ⟨.rationals, .none ?_⟩
        intro other member
        rcases List.mem_cons.mp member with rfl | later
        · exact stored
        · exact all other later

/-- An expression has a meaning or a fault, at every field and in both places. -/
structure MeaningOrFault (store : Store Value) (e : Expr) : Prop where
  number : ∀ F : GroundField, (∃ x, DenotesNumber store F e x) ∨ NumberFault store F e
  table : ∀ F : GroundField,
    (∃ (height width : Nat) (A : Table F.Element height width), DenotesTable store F e A) ∨
      TableFault store F e

namespace MeaningOrFault

theorem literal {text : String} {n : Int} (numeral : Numeral text.toList n) :
    MeaningOrFault store (.literal text) :=
  ⟨fun _ => Or.inl ⟨_, .literal numeral⟩, fun _ => Or.inr .literal⟩

theorem var (typed : store.WellTyped) (name : String) : MeaningOrFault store (.var name) := by
  cases found : store.get? name with
  | none => exact ⟨fun _ => Or.inr (.undefined found), fun _ => Or.inr (.undefined found)⟩
  | some binding =>
    have stored : store.typeOf? name = some binding.type := by rw [Store.typeOf?, found]; rfl
    cases typed name binding found with
    | @number G x inField =>
      refine ⟨fun F => ?_, fun F => Or.inr (.otherType stored ValueType.noConfusion)⟩
      by_cases same : G = F
      · subst same
        have encoded : G.encode (G.decode x) = x := G.representation.encode_decode x inField
        exact Or.inl ⟨G.decode x, .var (by rw [encoded]; exact found)⟩
      · refine Or.inr (.otherType stored fun equal => same ?_)
        exact GroundField.name_inj.mp (ValueType.scalar.inj equal)
    | @table G a inField =>
      refine ⟨fun F => Or.inr (.otherType stored ValueType.noConfusion), fun F => ?_⟩
      by_cases same : G = F
      · subst same
        have whole : G.matrix (G.table a) a.height_pos a.width_pos = a :=
          G.representation.matrix_table inField
        exact Or.inl ⟨_, _, G.table a, .var (by rw [whole]; exact found)⟩
      · refine Or.inr (.otherType stored fun equal => same ?_)
        exact GroundField.name_inj.mp (ValueType.matrix.inj equal)

theorem unary_number (typed : store.WellTyped) (function : UnaryFunction) {e : Expr}
    (operand : MeaningOrFault store e) (F : GroundField) :
    (∃ x, DenotesNumber store F (.unary function e) x) ∨ NumberFault store F (.unary function e) := by
  cases function with
  | neg =>
    rcases operand.number F with ⟨x, denotes⟩ | fault
    · exact Or.inl ⟨_, .neg denotes⟩
    · exact Or.inr (.operand (Or.inl rfl) fault)
  | inv =>
    rcases operand.number F with ⟨x, denotes⟩ | fault
    · by_cases zero : x = 0
      · exact Or.inr (.inverseOfZero (zero ▸ denotes))
      · exact Or.inl ⟨_, .inv denotes zero⟩
    · exact Or.inr (.operand (Or.inr rfl) fault)
  | det =>
    rcases operand.table F with ⟨height, width, A, denotes⟩ | fault
    · by_cases square : height = width
      · subst square
        exact Or.inl ⟨_, .det denotes⟩
      · exact Or.inl ⟨_, .det_oblong denotes square⟩
    · exact Or.inr (.determinant fault)
  | rank =>
    cases F with
    | rationals =>
      obtain ⟨G, place⟩ := exists_matrixField typed e.names
      rcases operand.table G with ⟨height, width, A, denotes⟩ | fault
      · exact Or.inl ⟨_, .rank place denotes⟩
      · exact Or.inr (.rank place fault)
    | residues p => exact Or.inr .rankAtResidues
  | rref => exact Or.inr .rref

theorem unary_table (function : UnaryFunction) {e : Expr} (operand : MeaningOrFault store e)
    (F : GroundField) :
    (∃ (height width : Nat) (A : Table F.Element height width),
      DenotesTable store F (.unary function e) A) ∨ TableFault store F (.unary function e) := by
  cases function with
  | neg =>
    rcases operand.table F with ⟨height, width, A, denotes⟩ | fault
    · exact Or.inl ⟨_, _, _, .neg denotes⟩
    · exact Or.inr (.operand (Or.inl rfl) fault)
  | rref =>
    rcases operand.table F with ⟨height, width, A, denotes⟩ | fault
    · obtain ⟨R, reduced, same⟩ := F.representation.exists_reduced A
      exact Or.inl ⟨_, _, R, .rref denotes reduced same⟩
    · exact Or.inr (.operand (Or.inr rfl) fault)
  | inv => exact Or.inr (.function (Or.inl rfl))
  | det => exact Or.inr (.function (Or.inr (Or.inl rfl)))
  | rank => exact Or.inr (.function (Or.inr (Or.inr rfl)))

theorem unary (typed : store.WellTyped) (function : UnaryFunction) {e : Expr}
    (operand : MeaningOrFault store e) : MeaningOrFault store (.unary function e) :=
  ⟨operand.unary_number typed function, operand.unary_table function⟩

/-- The four operations of a field on two numbers. -/
theorem arithmetic {F : GroundField} {operation : BinaryOperation} {l r : Expr}
    (left : MeaningOrFault store l) (right : MeaningOrFault store r)
    (place : operation ∈ [.add, .sub, .mul, .div])
    (both : ∀ x y, DenotesNumber store F l x → DenotesNumber store F r y →
      (∃ z, DenotesNumber store F (.binary operation l r) z) ∨
        NumberFault store F (.binary operation l r)) :
    (∃ z, DenotesNumber store F (.binary operation l r) z) ∨
      NumberFault store F (.binary operation l r) := by
  rcases left.number F with ⟨x, denotesLeft⟩ | fault
  · rcases right.number F with ⟨y, denotesRight⟩ | fault
    · exact both x y denotesLeft denotesRight
    · exact Or.inr (.right place fault)
  · exact Or.inr (.left place fault)

/-- The three operations on two matrices. -/
theorem matrixArithmetic {F : GroundField} {operation : BinaryOperation} {l r : Expr}
    (left : MeaningOrFault store l) (right : MeaningOrFault store r)
    (place : operation ∈ [.add, .sub, .mul])
    (both : ∀ (height width height' width' : Nat) (A : Table F.Element height width)
      (B : Table F.Element height' width'), DenotesTable store F l A → DenotesTable store F r B →
      (∃ (m n : Nat) (C : Table F.Element m n), DenotesTable store F (.binary operation l r) C) ∨
        TableFault store F (.binary operation l r)) :
    (∃ (m n : Nat) (C : Table F.Element m n), DenotesTable store F (.binary operation l r) C) ∨
      TableFault store F (.binary operation l r) := by
  rcases left.table F with ⟨height, width, A, denotesLeft⟩ | fault
  · rcases right.table F with ⟨height', width', B, denotesRight⟩ | fault
    · exact both _ _ _ _ A B denotesLeft denotesRight
    · exact Or.inr (.right place fault)
  · exact Or.inr (.left place fault)

theorem binary_number (operation : BinaryOperation) {l r : Expr} (left : MeaningOrFault store l)
    (right : MeaningOrFault store r) (numerals : r.HasNumerals) (F : GroundField) :
    (∃ x, DenotesNumber store F (.binary operation l r) x) ∨
      NumberFault store F (.binary operation l r) := by
  cases operation with
  | add =>
    refine left.arithmetic right (by simp) fun x y denotesLeft denotesRight => ?_
    exact Or.inl ⟨_, .add denotesLeft denotesRight⟩
  | sub =>
    refine left.arithmetic right (by simp) fun x y denotesLeft denotesRight => ?_
    exact Or.inl ⟨_, .sub denotesLeft denotesRight⟩
  | mul =>
    refine left.arithmetic right (by simp) fun x y denotesLeft denotesRight => ?_
    exact Or.inl ⟨_, .mul denotesLeft denotesRight⟩
  | div =>
    refine left.arithmetic right (by simp) fun x y denotesLeft denotesRight => ?_
    by_cases zero : y = 0
    · exact Or.inr (.divisionByZero (zero ▸ denotesRight))
    · exact Or.inl ⟨_, .div denotesLeft denotesRight zero⟩
  | pow =>
    cases F with
    | rationals => exact Or.inr .powAtRationals
    | residues p =>
      cases r with
      | literal text =>
        obtain ⟨n, numeral⟩ := numerals
        rcases left.number (.residues p) with ⟨x, denotes⟩ | fault
        · by_cases defined : x ≠ 0 ∨ 0 ≤ n
          · exact Or.inl ⟨_, .pow denotes numeral defined⟩
          · rw [not_or, not_not, not_le] at defined
            exact Or.inr (.powerOfZero (defined.1 ▸ denotes) numeral defined.2)
        · exact Or.inr (.base fault)
      | var name => exact Or.inr (.exponent (by simp))
      | unary function operand => exact Or.inr (.exponent (by simp))
      | binary operation l r => exact Or.inr (.exponent (by simp))
  | scale => exact Or.inr .scale

theorem binary_table (operation : BinaryOperation) {l r : Expr} (left : MeaningOrFault store l)
    (right : MeaningOrFault store r) (F : GroundField) :
    (∃ (height width : Nat) (A : Table F.Element height width),
      DenotesTable store F (.binary operation l r) A) ∨
      TableFault store F (.binary operation l r) := by
  cases operation with
  | add =>
    refine left.matrixArithmetic right (by simp) ?_
    intro height width height' width' A B denotesLeft denotesRight
    by_cases same : (height, width) = (height', width')
    · cases same
      exact Or.inl ⟨_, _, _, .add denotesLeft denotesRight⟩
    · exact Or.inr (.shapes (Or.inl rfl) denotesLeft denotesRight same)
  | sub =>
    refine left.matrixArithmetic right (by simp) ?_
    intro height width height' width' A B denotesLeft denotesRight
    by_cases same : (height, width) = (height', width')
    · cases same
      exact Or.inl ⟨_, _, _, .sub denotesLeft denotesRight⟩
    · exact Or.inr (.shapes (Or.inr rfl) denotesLeft denotesRight same)
  | mul =>
    refine left.matrixArithmetic right (by simp) ?_
    intro height width height' width' A B denotesLeft denotesRight
    by_cases fit : width = height'
    · subst fit
      exact Or.inl ⟨_, _, _, .mul denotesLeft denotesRight⟩
    · exact Or.inr (.factors denotesLeft denotesRight fit)
  | div => exact Or.inr (.operation (Or.inl rfl))
  | pow => exact Or.inr (.operation (Or.inr rfl))
  | scale =>
    rcases left.number F with ⟨x, denotes⟩ | fault
    · rcases right.table F with ⟨height, width, A, denotesTable⟩ | fault
      · exact Or.inl ⟨_, _, _, .scale denotes denotesTable⟩
      · exact Or.inr (.scaled fault)
    · exact Or.inr (.factor fault)

theorem binary (operation : BinaryOperation) {l r : Expr} (left : MeaningOrFault store l)
    (right : MeaningOrFault store r) (numerals : r.HasNumerals) :
    MeaningOrFault store (.binary operation l r) :=
  ⟨left.binary_number operation right numerals, left.binary_table operation right⟩

end MeaningOrFault

theorem meaningOrFault (typed : store.WellTyped) {e : Expr} (numerals : e.HasNumerals) :
    MeaningOrFault store e := by
  induction e with
  | literal text =>
    obtain ⟨n, numeral⟩ := numerals
    exact .literal numeral
  | var name => exact .var typed name
  | unary function operand ih => exact .unary typed function (ih numerals)
  | binary operation l r left right =>
    exact .binary operation (left numerals.1) (right numerals.2) numerals.2

end Expr

end Abacus
