import Abacus.Proofs.Reading
import Abacus.Proofs.Soundness

/-!
# Kinds of failures

What reading a number and evaluating an expression can fail with. A number is misspelt or, over the
rationals, has the denominator zero. An expression with numerals for literals, on a well-typed store and at a
type over a ground field, never fails for a number that cannot be read, and numbers of the rationals and
residues never meet in it (`Expr.evaluate_failsOnly`).
-/

namespace Abacus

/-! ## Computations that fail in certain ways only -/

/-- The computation fails only with errors of the given kinds, and never because a rational number meets a
residue. -/
def FailsOnly {α : Type} (computation : Except Error α) (kinds : List Error.Kind) : Prop :=
  ∀ error, computation = .error error → error.kind ∈ kinds ∧ error ≠ .mixedFields

namespace FailsOnly
variable {α β : Type} {kinds : List Error.Kind}

theorem ok (value : α) : FailsOnly (.ok value) kinds :=
  nofun

theorem error {error : Error} (within : error.kind ∈ kinds ∧ error ≠ .mixedFields) :
    FailsOnly (.error error : Except Error α) kinds := by
  intro other same
  cases same
  exact within

theorem bind {first : Except Error α} {next : α → Except Error β} (begins : FailsOnly first kinds)
    (continues : ∀ value, first = .ok value → FailsOnly (next value) kinds) :
    FailsOnly (first >>= next) kinds := by
  cases first with
  | error error => exact fun other same => begins other (congrArg _ (Except.error.inj same))
  | ok value => exact continues value rfl

theorem map {computation : Except Error α} (failsOnly : FailsOnly computation kinds) (f : α → β) :
    FailsOnly (f <$> computation) kinds := by
  cases computation with
  | error error => exact fun other same => failsOnly other (congrArg _ (Except.error.inj same))
  | ok value => exact ok (f value)

theorem mapM {compute : α → Except Error β} (each : ∀ x, FailsOnly (compute x) kinds) (list : List α) :
    FailsOnly (list.mapM compute) kinds := by
  induction list with
  | nil => exact ok []
  | cons x rest ih =>
    rw [List.mapM_cons]
    exact (each x).bind fun y _ => ih.bind fun ys _ => ok (y :: ys)

theorem widen {computation : Except Error α} {more : List Error.Kind}
    (failsOnly : FailsOnly computation kinds) (within : kinds ⊆ more) : FailsOnly computation more :=
  fun error failed => ⟨within (failsOnly error failed).1, (failsOnly error failed).2⟩

end FailsOnly

/-! ## Reading numbers -/

/-- The ways in which no number of the field can be read. -/
def NumberField.readingKinds : NumberField → List Error.Kind
  | rationals => [.invalidDigit, .invalidInteger, .divisionByZero]
  | residues _ => [.invalidDigit, .invalidInteger]

theorem Natural.readFrom_failsOnly (chars : List Char) (sum : Natural) :
    FailsOnly (readFrom sum chars) [.invalidDigit] := by
  induction chars generalizing sum with
  | nil => exact .ok sum
  | cons c rest ih =>
    rw [readFrom]
    split
    · exact ih _
    · exact .error (by simp [Error.kind])

theorem Integer.read_failsOnly (chars : List Char) :
    FailsOnly (read chars) [.invalidDigit, .invalidInteger] := by
  have digits : ∀ digits : List Char,
      FailsOnly (Natural.read digits) [.invalidDigit, .invalidInteger] := fun digits =>
    (Natural.readFrom_failsOnly digits _).widen (by simp)
  unfold read
  split
  · exact .error (by simp [Error.kind])
  · exact .error (by simp [Error.kind])
  · exact (digits _).bind fun n _ => .ok _
  · exact (digits _).bind fun n _ => .ok _

theorem Rational.read_failsOnly (chars : List Char) :
    FailsOnly (read chars) [.invalidDigit, .invalidInteger, .divisionByZero] := by
  have integer : ∀ part : List Char,
      FailsOnly (Integer.read part) [.invalidDigit, .invalidInteger, .divisionByZero] := fun part =>
    (Integer.read_failsOnly part).widen (by simp)
  simp only [read]
  split
  · exact (integer _).bind fun a _ => .ok _
  · split
    · exact .error (by simp [Error.kind])
    · refine (integer _).bind fun numerator _ => (integer _).bind fun denominator _ => ?_
      rw [ofIntegers_eq]
      split
      · exact .error (by simp [Error.kind])
      · exact .ok _

/-- The modulus of a ground field is not judged again. -/
theorem Scalar.read_failsOnly (F : GroundField) (chars : List Char) :
    FailsOnly (read F.name chars) F.name.readingKinds := by
  cases F with
  | rationals => exact (Rational.read_failsOnly chars).map _
  | residues p =>
    show FailsOnly (Modulus.ofInt? p.value >>= fun q => residue q <$> Residue.read q chars) _
    rw [Modulus.ofInt?_value]
    exact ((Integer.read_failsOnly _).bind fun a _ => .ok _).map _

/-! ## Operations within one field -/

section Operations
variable {F : GroundField}

theorem UnaryFunction.onNumber_failsOnly {function : UnaryFunction}
    {apply : Scalar → Except Error Scalar} (known : function.onNumber? = some apply) {s : Scalar}
    (inField : s.field = F.name) : FailsOnly (apply s) [.divisionByZero] := by
  obtain ⟨x, rfl⟩ := GroundField.exists_encode inField
  cases function with
  | neg =>
    cases known
    exact .ok _
  | inv =>
    cases known
    by_cases zero : x = 0
    · rw [zero, GroundField.encode, F.representation.reciprocal_zero]
      exact .error (by simp [Error.kind])
    · rw [GroundField.encode, F.representation.reciprocal x zero]
      exact .ok _
  | det => cases known
  | rank => cases known
  | rref => cases known

theorem BinaryOperation.onNumbers_failsOnly {operation : BinaryOperation}
    {combine : Scalar → Scalar → Except Error Scalar} (known : operation.onNumbers? = some combine)
    {s t : Scalar} (left : s.field = F.name) (right : t.field = F.name) :
    FailsOnly (combine s t) [.divisionByZero] := by
  obtain ⟨x, rfl⟩ := GroundField.exists_encode left
  obtain ⟨y, rfl⟩ := GroundField.exists_encode right
  cases operation with
  | add =>
    cases known
    rw [GroundField.encode, F.representation.add]
    exact .ok _
  | sub =>
    cases known
    rw [GroundField.encode, F.representation.subtract]
    exact .ok _
  | mul =>
    cases known
    rw [GroundField.encode, F.representation.multiply]
    exact .ok _
  | div =>
    cases known
    by_cases zero : y = 0
    · rw [zero, GroundField.encode, F.representation.divide_zero]
      exact .error (by simp [Error.kind])
    · rw [GroundField.encode, F.representation.divide x y zero]
      exact .ok _
  | pow => cases known
  | scale => cases known

theorem Scalar.powerOf_failsOnly {p : Modulus} {s : Scalar}
    (inField : s.field = (GroundField.residues p).name) (literal : List Char) :
    FailsOnly (s.powerOf literal) [.divisionByZero] := by
  obtain ⟨x, rfl⟩ := GroundField.exists_encode inField
  have powered : FailsOnly ((Residue.ofZMod x).power (exponentOf literal p.value))
      [.divisionByZero] := by
    rw [Residue.power_eq]
    split
    · exact .error (by simp [Error.kind])
    · exact .ok _
  exact powered.map _

theorem UnaryFunction.onMatrix_failsOnly {function : UnaryFunction}
    {apply : Matrix → Except Error Matrix} (known : function.onMatrix? = some apply) {a : Matrix}
    (inField : a.Over F.name) : FailsOnly (apply a) [] := by
  cases function with
  | neg =>
    cases known
    obtain ⟨_, _, A, tall, wide, rfl⟩ := inField.exists_table
    rw [F.representation.negate_matrix]
    exact .ok _
  | rref =>
    cases known
    obtain ⟨R, d, -, -, executed⟩ := inField.exists_reduce
    show FailsOnly (Matrix.Reduced.form <$> a.reduce) _
    rw [executed]
    exact .ok _
  | inv => cases known
  | det => cases known
  | rank => cases known

theorem Matrix.entrywise_failsOnly (verb : String) {operation : Scalar → Scalar → Except Error Scalar}
    {combine : F.Element → F.Element → F.Element}
    (each : ∀ x y, operation (F.encode x) (F.encode y) = .ok (F.encode (combine x y))) {a b : Matrix}
    (left : a.Over F.name) (right : b.Over F.name) :
    FailsOnly (entrywise verb operation a b) [.incompatibleDimensions] := by
  obtain ⟨m, n, A, tall, wide, rfl⟩ := left.exists_table
  obtain ⟨m', n', B, tall', wide', rfl⟩ := right.exists_table
  by_cases same : m = m' ∧ n = n'
  · obtain ⟨rfl, rfl⟩ := same
    rw [F.representation.entrywise_matrix verb each]
    exact .ok _
  · rw [entrywise, dif_neg same]
    exact .error (by simp [Error.kind])

theorem Matrix.multiply_failsOnly {a b : Matrix} (left : a.Over F.name) (right : b.Over F.name) :
    FailsOnly (a.multiply b) [.incompatibleDimensions] := by
  obtain ⟨m, inner, A, tall, deep, rfl⟩ := left.exists_table
  obtain ⟨inner', n, B, deep', wide, rfl⟩ := right.exists_table
  by_cases fit : inner = inner'
  · subst fit
    rw [F.representation.multiply_matrix]
    exact .ok _
  · rw [multiply, dif_neg fit]
    exact .error (by simp [Error.kind])

theorem BinaryOperation.onMatrices_failsOnly {operation : BinaryOperation}
    {combine : Matrix → Matrix → Except Error Matrix} (known : operation.onMatrices? = some combine)
    {a b : Matrix} (left : a.Over F.name) (right : b.Over F.name) :
    FailsOnly (combine a b) [.incompatibleDimensions] := by
  cases operation with
  | add =>
    cases known
    exact Matrix.entrywise_failsOnly "add" F.representation.add left right
  | sub =>
    cases known
    exact Matrix.entrywise_failsOnly "subtract" F.representation.subtract left right
  | mul =>
    cases known
    exact Matrix.multiply_failsOnly left right
  | div => cases known
  | pow => cases known
  | scale => cases known

theorem Matrix.scale_failsOnly {a : Matrix} (inField : a.Over F.name) {s : Scalar}
    (factor : s.field = F.name) : FailsOnly (a.scale s) [] := by
  obtain ⟨_, _, A, tall, wide, rfl⟩ := inField.exists_table
  obtain ⟨x, rfl⟩ := GroundField.exists_encode factor
  rw [GroundField.encode, F.representation.scale_matrix]
  exact .ok _

theorem Matrix.determinant_failsOnly {a : Matrix} (inField : a.Over F.name) :
    FailsOnly a.determinant [] := by
  obtain ⟨m, n, A, tall, wide, rfl⟩ := inField.exists_table
  by_cases square : m = n
  · subst square
    rw [F.representation.determinant_matrix]
    exact .ok _
  · rw [F.representation.determinant_oblong A square]
    exact .ok _

theorem Matrix.rank_failsOnly {a : Matrix} (inField : a.Over F.name) : FailsOnly a.rank [] := by
  obtain ⟨m, n, A, tall, wide, rfl⟩ := inField.exists_table
  rw [F.representation.rank_matrix]
  exact .ok _

end Operations

/-! ## Expressions -/

namespace Expr
variable {store : Store Value}

/-- The ways in which an expression that has been read can have no value. -/
def evaluationKinds : List Error.Kind :=
  [.invalidSyntax, .undefinedVariable, .incompatibleType, .incompatibleModuli, .incompatibleDimensions,
    .divisionByZero]

/-- A function or operation out of place is one of them. -/
theorem misplaced_failsOnly {α : Type} (name : String) (role : Role) :
    FailsOnly (.error (.misplaced name role) : Except Error α) evaluationKinds :=
  .error (by simp [Error.kind, evaluationKinds])

theorem nestedTooDeeply_failsOnly {α : Type} :
    FailsOnly (.error .nestedTooDeeply : Except Error α) evaluationKinds :=
  .error (by simp [Error.kind, evaluationKinds])

theorem lookup_failsOnly (name : String) (requested : ValueType) :
    FailsOnly (store.lookup name requested) evaluationKinds := by
  rw [Store.lookup]
  split
  · exact .error (by simp [Error.kind, evaluationKinds])
  · split
    · exact .ok _
    · unfold Store.mismatch
      split
      · exact .error (by simp [Error.kind, evaluationKinds])
      · exact .error (by simp [Error.kind, evaluationKinds])
      · exact .error (by simp [Error.kind, evaluationKinds])

/-- At every ground field, and in both places, the expression fails only in the ways in which an expression
can have no value. -/
structure FailsProperly (store : Store Value) (e : Expr) : Prop where
  number : ∀ (F : GroundField) (levels : Nat),
    FailsOnly (evaluateScalar store levels F.name e) evaluationKinds
  table : ∀ (F : GroundField) (levels : Nat),
    FailsOnly (evaluateMatrix store levels F.name e) evaluationKinds

namespace FailsProperly
variable {e l r : Expr}

/-- A numeral can be read as a number of every field. -/
theorem literal {text : String} {n : Int} (numeral : Numeral text.toList n) :
    FailsProperly store (.literal text) := by
  constructor
  · intro F levels
    rw [evaluateScalar, GroundField.name, F.representation.read numeral]
    exact .ok _
  · intro F levels
    rw [evaluateMatrix]
    exact .error (by simp [Error.kind, evaluationKinds])

theorem var (name : String) : FailsProperly store (.var name) := by
  constructor
  · intro F levels
    rw [evaluateScalar]
    refine (lookup_failsOnly name _).bind fun value _ => ?_
    cases value with
    | scalar x => exact .ok _
    | matrix a => exact .error (by simp [Error.kind, evaluationKinds])
  · intro F levels
    rw [evaluateMatrix]
    refine (lookup_failsOnly name _).bind fun value _ => ?_
    cases value with
    | scalar x => exact .error (by simp [Error.kind, evaluationKinds])
    | matrix a => exact .ok _

section Operands
variable {F : GroundField} {levels : Nat} (typed : store.WellTyped)
include typed

theorem onNumber (operand : FailsProperly store e) {function : UnaryFunction}
    {apply : Scalar → Except Error Scalar} (known : function.onNumber? = some apply) :
    FailsOnly (evaluateScalar store (levels + 1) F.name (.unary function e)) evaluationKinds := by
  rw [evaluateScalar_unary known]
  refine (operand.number F levels).bind fun s evaluated => ?_
  have inField := ((evaluatesSoundly typed e).number F.name levels).value evaluated
  exact (function.onNumber_failsOnly known inField).widen (by simp [evaluationKinds])

theorem onMatrix (operand : FailsProperly store e) {function : UnaryFunction}
    {apply : Matrix → Except Error Matrix} (known : function.onMatrix? = some apply) :
    FailsOnly (evaluateMatrix store (levels + 1) F.name (.unary function e)) evaluationKinds := by
  rw [evaluateMatrix_unary known]
  refine (operand.table F levels).bind fun a evaluated => ?_
  have inField := ((evaluatesSoundly typed e).table F.name levels).value evaluated
  exact (function.onMatrix_failsOnly known inField).widen (List.nil_subset _)

theorem onNumbers (left : FailsProperly store l) (right : FailsProperly store r)
    {operation : BinaryOperation} {combine : Scalar → Scalar → Except Error Scalar}
    (known : operation.onNumbers? = some combine) :
    FailsOnly (evaluateScalar store (levels + 1) F.name (.binary operation l r)) evaluationKinds := by
  rw [evaluateScalar_binary known]
  refine (left.number F levels).bind fun s first => (right.number F levels).bind fun t second => ?_
  have inField := ((evaluatesSoundly typed l).number F.name levels).value first
  have alsoInField := ((evaluatesSoundly typed r).number F.name levels).value second
  exact (operation.onNumbers_failsOnly known inField alsoInField).widen (by simp [evaluationKinds])

theorem onMatrices (left : FailsProperly store l) (right : FailsProperly store r)
    {operation : BinaryOperation} {combine : Matrix → Matrix → Except Error Matrix}
    (known : operation.onMatrices? = some combine) :
    FailsOnly (evaluateMatrix store (levels + 1) F.name (.binary operation l r)) evaluationKinds := by
  rw [evaluateMatrix_binary known]
  refine (left.table F levels).bind fun a first => (right.table F levels).bind fun b second => ?_
  have inField := ((evaluatesSoundly typed l).table F.name levels).value first
  have alsoInField := ((evaluatesSoundly typed r).table F.name levels).value second
  exact (operation.onMatrices_failsOnly known inField alsoInField).widen (by simp [evaluationKinds])

theorem determinant (operand : FailsProperly store e) :
    FailsOnly (evaluateScalar store (levels + 1) F.name (.unary .det e)) evaluationKinds := by
  rw [evaluateScalar]
  refine (operand.table F levels).bind fun a evaluated => ?_
  have inField := ((evaluatesSoundly typed e).table F.name levels).value evaluated
  exact (Matrix.determinant_failsOnly inField).widen (List.nil_subset _)

/-- The operand is evaluated over the field of a matrix in the store, which is a ground field. -/
theorem rank (operand : FailsProperly store e) :
    FailsOnly (evaluateScalar store (levels + 1) F.name (.unary .rank e)) evaluationKinds := by
  cases F with
  | rationals =>
    rw [GroundField.name_rationals, evaluateScalar]
    obtain ⟨G, place⟩ := exists_matrixField typed e.names
    simp only [firstMatrixField_getD place]
    refine (operand.table G levels).bind fun a evaluated => ?_
    have inField := ((evaluatesSoundly typed e).table G.name levels).value evaluated
    exact ((Matrix.rank_failsOnly inField).widen (List.nil_subset _)).bind fun rank _ => .ok _
  | residues p =>
    rw [GroundField.name_residues, evaluateScalar]
    exact misplaced_failsOnly _ _

theorem power (left : FailsProperly store l) (r : Expr) :
    FailsOnly (evaluateScalar store (levels + 1) F.name (.binary .pow l r)) evaluationKinds := by
  cases F with
  | rationals =>
    rw [GroundField.name_rationals, evaluateScalar]
    exact misplaced_failsOnly _ _
  | residues p =>
    -- An exponent is taken as it is written; no other expression is evaluated in its place.
    cases r with
    | literal text =>
      rw [GroundField.name_residues, evaluateScalar]
      refine (left.number (.residues p) levels).bind fun s evaluated => ?_
      have inField := ((evaluatesSoundly typed l).number _ levels).value evaluated
      exact (Scalar.powerOf_failsOnly inField _).widen (by simp [evaluationKinds])
    | _ =>
      rw [GroundField.name_residues, evaluateScalar]
      · exact .error (by simp [Error.kind, evaluationKinds])
      · simp

theorem scale (left : FailsProperly store l) (right : FailsProperly store r) :
    FailsOnly (evaluateMatrix store (levels + 1) F.name (.binary .scale l r)) evaluationKinds := by
  rw [evaluateMatrix]
  refine (left.number F levels).bind fun s first => (right.table F levels).bind fun a second => ?_
  have factor := ((evaluatesSoundly typed l).number F.name levels).value first
  have inField := ((evaluatesSoundly typed r).table F.name levels).value second
  exact (Matrix.scale_failsOnly inField factor).widen (List.nil_subset _)

theorem unary (function : UnaryFunction) (operand : FailsProperly store e) :
    FailsProperly store (.unary function e) := by
  constructor
  · intro F levels
    cases levels with
    | zero =>
      rw [evaluateScalar]
      exact nestedTooDeeply_failsOnly
    | succ levels =>
      cases function with
      | neg => exact operand.onNumber typed rfl
      | inv => exact operand.onNumber typed rfl
      | det => exact operand.determinant typed
      | rank => exact operand.rank typed
      | rref =>
        rw [evaluateScalar]
        exact misplaced_failsOnly _ _
  · intro F levels
    cases levels with
    | zero =>
      rw [evaluateMatrix]
      exact nestedTooDeeply_failsOnly
    | succ levels =>
      cases function with
      | neg => exact operand.onMatrix typed rfl
      | rref => exact operand.onMatrix typed rfl
      | _ =>
        rw [evaluateMatrix]
        exact misplaced_failsOnly _ _

theorem binary (operation : BinaryOperation) (left : FailsProperly store l)
    (right : FailsProperly store r) : FailsProperly store (.binary operation l r) := by
  constructor
  · intro F levels
    cases levels with
    | zero =>
      rw [evaluateScalar]
      exact nestedTooDeeply_failsOnly
    | succ levels =>
      cases operation with
      | pow => exact left.power typed r
      | scale =>
        rw [evaluateScalar]
        exact misplaced_failsOnly _ _
      | _ => exact left.onNumbers typed right rfl
  · intro F levels
    cases levels with
    | zero =>
      rw [evaluateMatrix]
      exact nestedTooDeeply_failsOnly
    | succ levels =>
      cases operation with
      | scale => exact left.scale typed right
      | div =>
        rw [evaluateMatrix]
        exact misplaced_failsOnly _ _
      | pow =>
        rw [evaluateMatrix]
        exact misplaced_failsOnly _ _
      | _ => exact left.onMatrices typed right rfl

end Operands

end FailsProperly

theorem failsProperly (typed : store.WellTyped) {e : Expr} (numerals : e.HasNumerals) :
    FailsProperly store e := by
  induction e with
  | literal text =>
    obtain ⟨n, numeral⟩ := numerals
    exact .literal numeral
  | var name => exact .var name
  | unary function operand ih => exact .unary typed function (ih numerals)
  | binary operation l r left right =>
    exact .binary typed operation (left numerals.1) (right numerals.2)

/-- On a well-typed store, an expression with numerals for literals fails at a type over a ground field only
in the ways in which an expression can have no value. -/
theorem evaluate_failsOnly (typed : store.WellTyped) {e : Expr} (numerals : e.HasNumerals)
    {type : ValueType} {F : GroundField} (ground : type.field = F.name) (levels : Nat) :
    FailsOnly (e.evaluate store type levels) evaluationKinds := by
  have properly := failsProperly typed numerals
  cases type with
  | scalar field =>
    obtain rfl : field = F.name := ground
    exact (properly.number F levels).map _
  | matrix field =>
    obtain rfl : field = F.name := ground
    exact (properly.table F levels).map _

end Expr

end Abacus
