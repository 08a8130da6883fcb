import Abacus.Proofs.Evaluation
import Abacus.Proofs.Operations

/-!
# Evaluation stays in one field

On a well-typed store every expression evaluates only to values of the type that it is evaluated at,
whatever that type is, whatever the literals are and however deeply it is nested. Residues of different
moduli never meet in the arithmetic: where an evaluation reports them, it has looked up a variable that
is stored modulo another prime (`evaluatesSoundly`).
-/

namespace Abacus

/-! ## Sound computations -/

/-- The computation returns only values with the property `post`, and reports incompatible moduli
only for the reason `cause`. -/
structure Sound {α : Type} (computation : Except Error α) (post : α → Prop) (cause : Error → Prop) :
    Prop where
  value : ∀ {result}, computation = .ok result → post result
  error : ∀ {error}, computation = .error error → error.kind = .incompatibleModuli → cause error

namespace Sound
variable {α β : Type} {post : α → Prop} {goal : β → Prop} {cause : Error → Prop}

theorem ok {result : α} (holds : post result) : Sound (.ok result) post cause :=
  ⟨fun same => Except.ok.inj same ▸ holds, nofun⟩

theorem other {error : Error} (differs : error.kind ≠ .incompatibleModuli) :
    Sound (.error error : Except Error α) post cause :=
  ⟨nofun, fun same kind => absurd (Except.error.inj same ▸ kind) differs⟩

theorem bind {first : Except Error α} {next : α → Except Error β} (begins : Sound first post cause)
    (continues : ∀ result, first = .ok result → post result → Sound (next result) goal cause) :
    Sound (first >>= next) goal cause := by
  cases first with
  | error error => exact ⟨nofun, fun same => begins.error (congrArg _ (Except.error.inj same))⟩
  | ok result => exact continues result rfl (begins.value rfl)

theorem map {computation : Except Error α} (sound : Sound computation post cause) {f : α → β}
    (keeps : ∀ result, post result → goal (f result)) : Sound (f <$> computation) goal cause := by
  cases computation with
  | error error => exact ⟨nofun, fun same => sound.error (congrArg _ (Except.error.inj same))⟩
  | ok result => exact ok (keeps result (sound.value rfl))

theorem mapM {compute : α → Except Error β} (each : ∀ x, Sound (compute x) goal cause)
    (list : List α) : Sound (list.mapM compute) (fun results => ∀ y ∈ results, goal y) cause := by
  induction list with
  | nil => exact ok fun y member => absurd member List.not_mem_nil
  | cons x rest ih =>
    rw [List.mapM_cons]
    refine (each x).bind fun y _ first => ?_
    exact ih.bind fun others _ later => ok (List.forall_mem_cons.mpr ⟨first, later⟩)

theorem imp {computation : Except Error α} {reason : Error → Prop}
    (sound : Sound computation post cause) (weaken : ∀ error, cause error → reason error) :
    Sound computation post reason :=
  ⟨sound.value, fun failed kind => weaken _ (sound.error failed kind)⟩

end Sound

/-! ## Reading numbers -/

section Reading
variable {cause : Error → Prop}

theorem Natural.readFrom_sound (chars : List Char) (sum : Natural) :
    Sound (readFrom sum chars) (fun _ => True) cause := by
  induction chars generalizing sum with
  | nil => exact .ok trivial
  | cons c rest ih =>
    rw [readFrom]
    split
    · exact ih _
    · exact .other (by simp [Error.kind])

theorem Integer.read_sound (chars : List Char) : Sound (read chars) (fun _ => True) cause := by
  unfold read
  split
  · exact .other (by simp [Error.kind])
  · exact .other (by simp [Error.kind])
  · exact (Natural.readFrom_sound _ _).bind fun _ _ _ => .ok trivial
  · exact (Natural.readFrom_sound _ _).bind fun _ _ _ => .ok trivial

theorem Rational.read_sound (chars : List Char) : Sound (read chars) (fun _ => True) cause := by
  simp only [read]
  split
  · exact (Integer.read_sound _).bind fun _ _ _ => .ok trivial
  · split
    · exact .other (by simp [Error.kind])
    · refine (Integer.read_sound _).bind fun _ _ _ => ?_
      refine (Integer.read_sound _).bind fun _ _ _ => ?_
      rw [ofIntegers]
      split
      · exact .ok trivial
      · exact .other (by simp [Error.kind])

theorem Residue.read_sound (p : Modulus) (chars : List Char) :
    Sound (read p chars) (fun _ => True) cause :=
  (Integer.read_sound _).bind fun _ _ _ => .ok trivial

theorem Modulus.ofInt?_sound (value : Int) :
    Sound (ofInt? value) (fun p => (p.value : Int) = value) cause := by
  rw [ofInt?]
  split
  · rename_i valid
    exact .ok (Int.toNat_of_nonneg (by omega))
  · exact .other (by simp [Error.kind])

/-- A number that is read for a field belongs to that field. -/
theorem Scalar.read_sound (field : NumberField) (chars : List Char) :
    Sound (read field chars) (fun x => x.field = field) cause := by
  cases field with
  | rationals => exact (Rational.read_sound chars).map fun _ _ => rfl
  | residues modulus =>
    refine (Modulus.ofInt?_sound modulus).bind fun p _ same => ?_
    exact (Residue.read_sound p chars).map fun _ _ => congrArg NumberField.residues same

end Reading

/-! ## Operations within one field -/

section Operations
variable {F : GroundField} {field : NumberField} {cause : Error → Prop}

theorem GroundField.field_encode (F : GroundField) (x : F.Element) : (F.encode x).field = F.name :=
  F.representation.field_encode x

/-- A number of the field represents one of its elements. -/
theorem GroundField.exists_encode {s : Scalar} (inField : s.field = F.name) :
    ∃ x, s = F.encode x :=
  ⟨F.decode s, (F.representation.encode_decode s inField).symm⟩

/-- The field of a number is a ground field. -/
theorem GroundField.exists_of_field {s : Scalar} (inField : s.field = field) :
    ∃ F : GroundField, field = F.name := by
  rw [← inField]
  exact exists_field s

/-- A ground field of residues is modulo a prime. -/
theorem GroundField.exists_modulus {modulus : Int}
    (same : NumberField.residues modulus = F.name) : ∃ p : Modulus, modulus = p.value := by
  cases F with
  | rationals => cases same
  | residues p => exact ⟨p, NumberField.residues.inj same⟩

/-- A field that a matrix is over is a ground field. -/
theorem Matrix.Over.exists_ground {a : Matrix} (inField : a.Over field) :
    ∃ F : GroundField, field = F.name :=
  GroundField.exists_of_field (inField ⟨0, a.height_pos⟩ ⟨0, a.width_pos⟩)

theorem UnaryFunction.onNumber_sound {function : UnaryFunction}
    {apply : Scalar → Except Error Scalar} (known : function.onNumber? = some apply) {s : Scalar}
    (inField : s.field = field) : Sound (apply s) (fun t => t.field = field) cause := by
  obtain ⟨F, rfl⟩ := GroundField.exists_of_field inField
  obtain ⟨x, rfl⟩ := GroundField.exists_encode inField
  cases function with
  | neg =>
    cases known
    refine .ok ?_
    rw [GroundField.encode, F.representation.negate]
    exact F.field_encode _
  | inv =>
    cases known
    by_cases zero : x = 0
    · rw [zero, GroundField.encode, F.representation.reciprocal_zero]
      exact .other (by simp [Error.kind])
    · rw [GroundField.encode, F.representation.reciprocal x zero]
      exact .ok (F.field_encode _)
  | det => cases known
  | rank => cases known
  | rref => cases known

theorem BinaryOperation.onNumbers_sound {operation : BinaryOperation}
    {combine : Scalar → Scalar → Except Error Scalar}
    (known : operation.onNumbers? = some combine) {s t : Scalar} (left : s.field = field)
    (right : t.field = field) : Sound (combine s t) (fun u => u.field = field) cause := by
  obtain ⟨F, rfl⟩ := GroundField.exists_of_field left
  obtain ⟨x, rfl⟩ := GroundField.exists_encode left
  obtain ⟨y, rfl⟩ := GroundField.exists_encode right
  cases operation with
  | add =>
    cases known
    rw [GroundField.encode, F.representation.add]
    exact .ok (F.field_encode _)
  | sub =>
    cases known
    rw [GroundField.encode, F.representation.subtract]
    exact .ok (F.field_encode _)
  | mul =>
    cases known
    rw [GroundField.encode, F.representation.multiply]
    exact .ok (F.field_encode _)
  | div =>
    cases known
    by_cases zero : y = 0
    · rw [zero, GroundField.encode, F.representation.divide_zero]
      exact .other (by simp [Error.kind])
    · rw [GroundField.encode, F.representation.divide x y zero]
      exact .ok (F.field_encode _)
  | pow => cases known
  | scale => cases known

theorem Scalar.powerOf_sound {modulus : Int} {s : Scalar} (inField : s.field = .residues modulus)
    (literal : List Char) :
    Sound (s.powerOf literal) (fun t => t.field = .residues modulus) cause := by
  obtain ⟨F, ground⟩ := GroundField.exists_of_field inField
  obtain ⟨p, rfl⟩ := GroundField.exists_modulus ground
  obtain ⟨x, rfl⟩ := GroundField.exists_encode (F := .residues p) inField
  have powered : Sound ((Residue.ofZMod x).power (exponentOf literal p.value)) (fun _ => True)
      cause := by
    rw [Residue.power_eq]
    split
    · exact .other (by simp [Error.kind])
    · exact .ok trivial
  exact powered.map fun _ _ => rfl

theorem UnaryFunction.onMatrix_sound {function : UnaryFunction}
    {apply : Matrix → Except Error Matrix} (known : function.onMatrix? = some apply) {a : Matrix}
    (inField : a.Over field) : Sound (apply a) (fun b => b.Over field) cause := by
  obtain ⟨F, rfl⟩ := inField.exists_ground
  cases function with
  | neg =>
    cases known
    obtain ⟨_, _, A, tall, wide, rfl⟩ := inField.exists_table
    rw [F.representation.negate_matrix]
    exact .ok (F.matrix_over _ _ _)
  | rref =>
    cases known
    obtain ⟨R, d, -, -, executed⟩ := inField.exists_reduce
    show Sound (Matrix.Reduced.form <$> a.reduce) _ _
    rw [executed]
    exact .ok (F.matrix_over _ _ _)
  | inv => cases known
  | det => cases known
  | rank => cases known

theorem Matrix.entrywise_sound (verb : String) {operation : Scalar → Scalar → Except Error Scalar}
    {combine : F.Element → F.Element → F.Element}
    (each : ∀ x y, operation (F.encode x) (F.encode y) = .ok (F.encode (combine x y))) {a b : Matrix}
    (left : a.Over F.name) (right : b.Over F.name) :
    Sound (entrywise verb operation a b) (fun c => c.Over F.name) cause := by
  obtain ⟨m, n, A, tall, wide, rfl⟩ := left.exists_table
  obtain ⟨m', n', B, tall', wide', rfl⟩ := right.exists_table
  by_cases same : m = m' ∧ n = n'
  · obtain ⟨rfl, rfl⟩ := same
    rw [F.representation.entrywise_matrix verb each]
    exact .ok (F.matrix_over _ _ _)
  · rw [entrywise, dif_neg same]
    exact .other (by simp [Error.kind])

theorem Matrix.multiply_sound {a b : Matrix} (left : a.Over field) (right : b.Over field) :
    Sound (a.multiply b) (fun c => c.Over field) cause := by
  obtain ⟨F, rfl⟩ := left.exists_ground
  obtain ⟨m, inner, A, tall, deep, rfl⟩ := left.exists_table
  obtain ⟨inner', n, B, deep', wide, rfl⟩ := right.exists_table
  by_cases fit : inner = inner'
  · subst fit
    rw [F.representation.multiply_matrix]
    exact .ok (F.matrix_over _ _ _)
  · rw [multiply, dif_neg fit]
    exact .other (by simp [Error.kind])

theorem BinaryOperation.onMatrices_sound {operation : BinaryOperation}
    {combine : Matrix → Matrix → Except Error Matrix}
    (known : operation.onMatrices? = some combine) {a b : Matrix} (left : a.Over field)
    (right : b.Over field) : Sound (combine a b) (fun c => c.Over field) cause := by
  obtain ⟨F, rfl⟩ := left.exists_ground
  cases operation with
  | add =>
    cases known
    exact Matrix.entrywise_sound "add" F.representation.add left right
  | sub =>
    cases known
    exact Matrix.entrywise_sound "subtract" F.representation.subtract left right
  | mul =>
    cases known
    exact Matrix.multiply_sound left right
  | div => cases known
  | pow => cases known
  | scale => cases known

theorem Matrix.scale_sound {a : Matrix} (inField : a.Over field) {s : Scalar}
    (factor : s.field = field) : Sound (a.scale s) (fun b => b.Over field) cause := by
  obtain ⟨F, rfl⟩ := inField.exists_ground
  obtain ⟨_, _, A, tall, wide, rfl⟩ := inField.exists_table
  obtain ⟨x, rfl⟩ := GroundField.exists_encode factor
  rw [GroundField.encode, F.representation.scale_matrix]
  exact .ok (F.matrix_over _ _ _)

theorem Matrix.determinant_sound {a : Matrix} (inField : a.Over field) :
    Sound a.determinant (fun s => s.field = field) cause := by
  obtain ⟨F, rfl⟩ := inField.exists_ground
  obtain ⟨m, n, A, tall, wide, rfl⟩ := inField.exists_table
  by_cases square : m = n
  · subst square
    rw [F.representation.determinant_matrix]
    exact .ok (F.field_encode _)
  · rw [F.representation.determinant_oblong A square]
    exact .ok (F.field_encode _)

theorem Matrix.rank_sound {a : Matrix} (inField : a.Over field) :
    Sound a.rank (fun _ => True) cause := by
  obtain ⟨F, rfl⟩ := inField.exists_ground
  obtain ⟨m, n, A, tall, wide, rfl⟩ := inField.exists_table
  rw [F.representation.rank_matrix]
  exact .ok trivial

end Operations

/-! ## Looking up variables -/

/-- The type that the operand of a function is evaluated at, if it is evaluated at all. -/
def UnaryFunction.operandType? (store : Store Value) (operand : Expr) :
    UnaryFunction → ValueType → Option ValueType
  | neg, type => some type
  | inv, .scalar field => some (.scalar field)
  | det, .scalar field => some (.matrix field)
  | rank, .scalar .rationals =>
    some (.matrix ((operand.firstMatrixField store).getD .rationals))
  | rref, .matrix field => some (.matrix field)
  | _, _ => none

/-- The types that the operands of an operation are evaluated at, if they are evaluated at all. -/
def BinaryOperation.operandTypes? : BinaryOperation → ValueType → Option (ValueType × ValueType)
  | add, type | sub, type | mul, type => some (type, type)
  | div, .scalar field => some (.scalar field, .scalar field)
  | scale, .matrix field => some (.scalar field, .matrix field)
  | _, _ => none

/-- The first type is that of residues, or of matrices of them, modulo a prime; the second is of the
same kind with another modulus. -/
inductive OtherPrime : ValueType → ValueType → Prop
  | scalar {p : Modulus} {modulus : Int} (differ : p.value ≠ modulus) :
      OtherPrime (.scalar (.residues p.value)) (.scalar (.residues modulus))
  | matrix {p : Modulus} {modulus : Int} (differ : p.value ≠ modulus) :
      OtherPrime (.matrix (.residues p.value)) (.matrix (.residues modulus))

theorem Binding.WellTyped.exists_field {binding : Binding Value} (typed : binding.WellTyped) :
    ∃ F : GroundField, binding.type.field = F.name := by
  cases typed with
  | number F inField => exact ⟨F, rfl⟩
  | table F inField => exact ⟨F, rfl⟩

namespace Expr

/-- Evaluating an expression at a type comes to look up a variable at a type of its own: everything
that is evaluated before it has a value. -/
inductive LooksUp (store : Store Value) :
    (levels : Nat) → ValueType → Expr → (name : String) → (requested : ValueType) → Prop
  | var {levels : Nat} {type : ValueType} {name : String} :
      LooksUp store levels type (.var name) name type
  | operand {levels : Nat} {type inner requested : ValueType} {function : UnaryFunction} {e : Expr}
      {name : String} (place : function.operandType? store e type = some inner)
      (inside : LooksUp store levels inner e name requested) :
      LooksUp store (levels + 1) type (.unary function e) name requested
  | left {levels : Nat} {type first second requested : ValueType} {operation : BinaryOperation}
      {l r : Expr} {name : String} (place : operation.operandTypes? type = some (first, second))
      (inside : LooksUp store levels first l name requested) :
      LooksUp store (levels + 1) type (.binary operation l r) name requested
  | right {levels : Nat} {type first second requested : ValueType} {operation : BinaryOperation}
      {l r : Expr} {name : String} {value : Value}
      (place : operation.operandTypes? type = some (first, second))
      (before : evaluate store first l levels = .ok value)
      (inside : LooksUp store levels second r name requested) :
      LooksUp store (levels + 1) type (.binary operation l r) name requested
  | base {levels : Nat} {modulus : Int} {requested : ValueType} {l : Expr} {text name : String}
      (inside : LooksUp store levels (.scalar (.residues modulus)) l name requested) :
      LooksUp store (levels + 1) (.scalar (.residues modulus)) (.binary .pow l (.literal text))
        name requested

/-- The error is that of looking up a variable that is stored modulo another prime than is requested
where it stands. -/
def MeetsOtherPrime (store : Store Value) (levels : Nat) (type : ValueType) (e : Expr)
    (error : Error) : Prop :=
  ∃ name stored requested, LooksUp store levels type e name requested ∧
    store.typeOf? name = some stored ∧ OtherPrime stored requested ∧
    store.lookup name requested = .error error

variable {store : Store Value}

/-- Where a variable is stored at a type over a ground field, only residues of another prime make a
place of the same kind report incompatible moduli. -/
theorem mismatch_sound {α : Type} {stored requested : ValueType} {F : GroundField}
    (ground : stored.field = F.name) (differ : stored ≠ requested) (name : String) (post : α → Prop) :
    Sound (.error (Store.mismatch name stored requested) : Except Error α) post
      (fun _ => OtherPrime stored requested) := by
  refine ⟨nofun, fun {error} same kind => ?_⟩
  cases same
  unfold Store.mismatch at kind
  split at kind
  · obtain ⟨p, rfl⟩ := GroundField.exists_modulus ground
    exact .scalar fun equal => differ (by rw [equal])
  · obtain ⟨p, rfl⟩ := GroundField.exists_modulus ground
    exact .matrix fun equal => differ (by rw [equal])
  · simp [Error.kind] at kind

theorem lookup_sound (typed : store.WellTyped) (name : String) (requested : ValueType) :
    Sound (store.lookup name requested) (fun value => Binding.WellTyped ⟨requested, value⟩)
      (fun error => ∃ stored, store.typeOf? name = some stored ∧ OtherPrime stored requested ∧
        store.lookup name requested = .error error) := by
  cases found : store.get? name with
  | none =>
    rw [Store.lookup, found]
    exact .other (by simp [Error.kind])
  | some binding =>
    have bindingTyped := typed name binding found
    by_cases same : binding.type = requested
    · subst same
      rw [lookup_of_bound found]
      exact .ok bindingTyped
    · obtain ⟨F, ground⟩ := bindingTyped.exists_field
      have failed : store.lookup name requested =
          .error (Store.mismatch name binding.type requested) := by
        rw [Store.lookup, found]
        exact if_neg same
      have mismatch := mismatch_sound ground same name
        (fun value => Binding.WellTyped ⟨requested, value⟩)
      rw [← failed] at mismatch
      refine ⟨mismatch.value, fun {error} raised kind => ?_⟩
      have stored : store.typeOf? name = some binding.type := by rw [Store.typeOf?, found]; rfl
      exact ⟨binding.type, stored, mismatch.error raised kind, raised⟩

theorem lookupScalar_sound (typed : store.WellTyped) (field : NumberField) (levels : Nat)
    (name : String) :
    Sound (lookupScalar store field name) (fun s => s.field = field)
      (MeetsOtherPrime store levels (.scalar field) (.var name)) := by
  have found := lookup_sound typed name (.scalar field)
  refine (found.imp ?_).bind fun value _ valueTyped => ?_
  · rintro error ⟨stored, bound, differ, raised⟩
    exact ⟨name, stored, _, .var, bound, differ, raised⟩
  · generalize binding : (⟨.scalar field, value⟩ : Binding Value) = b at valueTyped
    cases valueTyped with
    | number G inField =>
      obtain ⟨same, rfl⟩ := Binding.mk.inj binding
      exact .ok (inField.trans (ValueType.scalar.inj same).symm)
    | table G inField => cases (Binding.mk.inj binding).1

theorem lookupMatrix_sound (typed : store.WellTyped) (field : NumberField) (levels : Nat)
    (name : String) :
    Sound (lookupMatrix store field name) (fun a => a.Over field)
      (MeetsOtherPrime store levels (.matrix field) (.var name)) := by
  have found := lookup_sound typed name (.matrix field)
  refine (found.imp ?_).bind fun value _ valueTyped => ?_
  · rintro error ⟨stored, bound, differ, raised⟩
    exact ⟨name, stored, _, .var, bound, differ, raised⟩
  · generalize binding : (⟨.matrix field, value⟩ : Binding Value) = b at valueTyped
    cases valueTyped with
    | number G inField => cases (Binding.mk.inj binding).1
    | table G inField =>
      obtain ⟨same, rfl⟩ := Binding.mk.inj binding
      obtain same : field = G.name := ValueType.matrix.inj same
      rw [same]
      exact .ok inField

namespace MeetsOtherPrime
variable {levels : Nat} {type inner first second : ValueType} {function : UnaryFunction}
  {operation : BinaryOperation} {e l r : Expr} {error : Error}

theorem operand (place : function.operandType? store e type = some inner)
    (meets : MeetsOtherPrime store levels inner e error) :
    MeetsOtherPrime store (levels + 1) type (.unary function e) error := by
  obtain ⟨name, stored, requested, reached, failed⟩ := meets
  exact ⟨name, stored, requested, .operand place reached, failed⟩

theorem left (place : operation.operandTypes? type = some (first, second))
    (meets : MeetsOtherPrime store levels first l error) :
    MeetsOtherPrime store (levels + 1) type (.binary operation l r) error := by
  obtain ⟨name, stored, requested, reached, failed⟩ := meets
  exact ⟨name, stored, requested, .left place reached, failed⟩

theorem right (place : operation.operandTypes? type = some (first, second)) {value : Value}
    (before : evaluate store first l levels = .ok value)
    (meets : MeetsOtherPrime store levels second r error) :
    MeetsOtherPrime store (levels + 1) type (.binary operation l r) error := by
  obtain ⟨name, stored, requested, reached, failed⟩ := meets
  exact ⟨name, stored, requested, .right place before reached, failed⟩

theorem base {modulus : Int} {text : String}
    (meets : MeetsOtherPrime store levels (.scalar (.residues modulus)) l error) :
    MeetsOtherPrime store (levels + 1) (.scalar (.residues modulus))
      (.binary .pow l (.literal text)) error := by
  obtain ⟨name, stored, requested, reached, failed⟩ := meets
  exact ⟨name, stored, requested, .base reached, failed⟩

end MeetsOtherPrime

/-! ## Expressions -/

/-- At every field, and in both places, the expression evaluates only to values of the field, and
reports incompatible moduli only for a variable that it looks up. -/
structure EvaluatesSoundly (store : Store Value) (e : Expr) : Prop where
  number : ∀ (field : NumberField) (levels : Nat),
    Sound (evaluateScalar store levels field e) (fun s => s.field = field)
      (MeetsOtherPrime store levels (.scalar field) e)
  table : ∀ (field : NumberField) (levels : Nat),
    Sound (evaluateMatrix store levels field e) (fun a => a.Over field)
      (MeetsOtherPrime store levels (.matrix field) e)

namespace EvaluatesSoundly
variable {e l r : Expr} {field : NumberField} {levels : Nat}

theorem literal (text : String) : EvaluatesSoundly store (.literal text) := by
  constructor
  · intro field levels
    rw [evaluateScalar]
    exact Scalar.read_sound field _
  · intro field levels
    rw [evaluateMatrix]
    exact .other (by simp [Error.kind])

theorem var (typed : store.WellTyped) (name : String) : EvaluatesSoundly store (.var name) := by
  constructor
  · intro field levels
    rw [evaluateScalar]
    exact lookupScalar_sound typed field levels name
  · intro field levels
    rw [evaluateMatrix]
    exact lookupMatrix_sound typed field levels name

/-- The functions from numbers to numbers. -/
theorem onNumber (operand : EvaluatesSoundly store e) {function : UnaryFunction}
    {apply : Scalar → Except Error Scalar} (known : function.onNumber? = some apply)
    (place : function.operandType? store e (.scalar field) = some (.scalar field)) :
    Sound (evaluateScalar store (levels + 1) field (.unary function e))
      (fun s => s.field = field)
      (MeetsOtherPrime store (levels + 1) (.scalar field) (.unary function e)) := by
  rw [evaluateScalar_unary known]
  refine ((operand.number field levels).imp fun _ => .operand place).bind fun s _ inField => ?_
  exact function.onNumber_sound known inField

/-- The functions from matrices to matrices. -/
theorem onMatrix (operand : EvaluatesSoundly store e) {function : UnaryFunction}
    {apply : Matrix → Except Error Matrix} (known : function.onMatrix? = some apply)
    (place : function.operandType? store e (.matrix field) = some (.matrix field)) :
    Sound (evaluateMatrix store (levels + 1) field (.unary function e))
      (fun a => a.Over field)
      (MeetsOtherPrime store (levels + 1) (.matrix field) (.unary function e)) := by
  rw [evaluateMatrix_unary known]
  refine ((operand.table field levels).imp fun _ => .operand place).bind fun a _ inField => ?_
  exact function.onMatrix_sound known inField

/-- The operations on two numbers. -/
theorem onNumbers (left : EvaluatesSoundly store l) (right : EvaluatesSoundly store r)
    {operation : BinaryOperation} {combine : Scalar → Scalar → Except Error Scalar}
    (known : operation.onNumbers? = some combine)
    (place : operation.operandTypes? (.scalar field) = some (.scalar field, .scalar field)) :
    Sound (evaluateScalar store (levels + 1) field (.binary operation l r))
      (fun s => s.field = field)
      (MeetsOtherPrime store (levels + 1) (.scalar field) (.binary operation l r)) := by
  rw [evaluateScalar_binary known]
  refine ((left.number field levels).imp fun _ => .left place).bind fun s first inField => ?_
  have before : evaluate store (.scalar field) l levels = .ok (.scalar s) :=
    map_eq_ok_iff.mpr ⟨s, first, rfl⟩
  refine ((right.number field levels).imp fun _ => .right place before).bind fun t _ alsoInField => ?_
  exact operation.onNumbers_sound known inField alsoInField

/-- The operations on two matrices. -/
theorem onMatrices (left : EvaluatesSoundly store l) (right : EvaluatesSoundly store r)
    {operation : BinaryOperation} {combine : Matrix → Matrix → Except Error Matrix}
    (known : operation.onMatrices? = some combine)
    (place : operation.operandTypes? (.matrix field) = some (.matrix field, .matrix field)) :
    Sound (evaluateMatrix store (levels + 1) field (.binary operation l r))
      (fun a => a.Over field)
      (MeetsOtherPrime store (levels + 1) (.matrix field) (.binary operation l r)) := by
  rw [evaluateMatrix_binary known]
  refine ((left.table field levels).imp fun _ => .left place).bind fun a first inField => ?_
  have before : evaluate store (.matrix field) l levels = .ok (.matrix a) :=
    map_eq_ok_iff.mpr ⟨a, first, rfl⟩
  refine ((right.table field levels).imp fun _ => .right place before).bind fun b _ alsoInField => ?_
  exact operation.onMatrices_sound known inField alsoInField

theorem determinant (operand : EvaluatesSoundly store e) :
    Sound (evaluateScalar store (levels + 1) field (.unary .det e)) (fun s => s.field = field)
      (MeetsOtherPrime store (levels + 1) (.scalar field) (.unary .det e)) := by
  rw [evaluateScalar]
  refine ((operand.table field levels).imp fun _ => .operand rfl).bind fun a _ inField => ?_
  exact Matrix.determinant_sound inField

theorem rank (operand : EvaluatesSoundly store e) :
    Sound (evaluateScalar store (levels + 1) field (.unary .rank e)) (fun s => s.field = field)
      (MeetsOtherPrime store (levels + 1) (.scalar field) (.unary .rank e)) := by
  cases field with
  | rationals =>
    rw [evaluateScalar]
    refine ((operand.table _ levels).imp fun _ => .operand rfl).bind fun a _ inField => ?_
    exact (Matrix.rank_sound inField).bind fun rank _ _ => .ok rfl
  | residues modulus =>
    rw [evaluateScalar]
    exact .other (by simp [Error.kind])

theorem power {modulus : Int} (left : EvaluatesSoundly store l) (r : Expr) :
    Sound (evaluateScalar store (levels + 1) (.residues modulus) (.binary .pow l r))
      (fun s => s.field = .residues modulus)
      (MeetsOtherPrime store (levels + 1) (.scalar (.residues modulus)) (.binary .pow l r)) := by
  cases r with
  | literal text =>
    rw [evaluateScalar]
    refine ((left.number (.residues modulus) levels).imp fun _ => .base).bind fun s _ inField => ?_
    exact Scalar.powerOf_sound inField _
  | _ =>
    rw [evaluateScalar]
    · exact .other (by simp [Error.kind])
    · simp

theorem scale (left : EvaluatesSoundly store l) (right : EvaluatesSoundly store r) :
    Sound (evaluateMatrix store (levels + 1) field (.binary .scale l r))
      (fun a => a.Over field)
      (MeetsOtherPrime store (levels + 1) (.matrix field) (.binary .scale l r)) := by
  rw [evaluateMatrix]
  refine ((left.number field levels).imp fun _ => .left rfl).bind fun s first factor => ?_
  have before : evaluate store (.scalar field) l levels = .ok (.scalar s) :=
    map_eq_ok_iff.mpr ⟨s, first, rfl⟩
  refine ((right.table field levels).imp fun _ => .right rfl before).bind fun a _ inField => ?_
  exact Matrix.scale_sound inField factor

theorem unary (function : UnaryFunction)
    (operand : EvaluatesSoundly store e) : EvaluatesSoundly store (.unary function e) := by
  constructor
  · intro field levels
    cases levels with
    | zero =>
      rw [evaluateScalar]
      exact .other (by simp [Error.kind])
    | succ levels =>
      cases function with
      | neg => exact operand.onNumber rfl rfl
      | inv => exact operand.onNumber rfl rfl
      | det => exact operand.determinant
      | rank => exact operand.rank
      | rref =>
        rw [evaluateScalar]
        exact .other (by simp [Error.kind])
  · intro field levels
    cases levels with
    | zero =>
      rw [evaluateMatrix]
      exact .other (by simp [Error.kind])
    | succ levels =>
      cases function with
      | neg => exact operand.onMatrix rfl rfl
      | rref => exact operand.onMatrix rfl rfl
      | _ =>
        rw [evaluateMatrix]
        exact .other (by simp [Error.kind])

theorem binary (operation : BinaryOperation) (left : EvaluatesSoundly store l)
    (right : EvaluatesSoundly store r) : EvaluatesSoundly store (.binary operation l r) := by
  constructor
  · intro field levels
    cases levels with
    | zero =>
      rw [evaluateScalar]
      exact .other (by simp [Error.kind])
    | succ levels =>
      cases operation with
      | pow =>
        cases field with
        | rationals =>
          rw [evaluateScalar]
          exact .other (by simp [Error.kind])
        | residues modulus => exact left.power r
      | scale =>
        rw [evaluateScalar]
        exact .other (by simp [Error.kind])
      | _ => exact left.onNumbers right rfl rfl
  · intro field levels
    cases levels with
    | zero =>
      rw [evaluateMatrix]
      exact .other (by simp [Error.kind])
    | succ levels =>
      cases operation with
      | scale => exact left.scale right
      | div =>
        rw [evaluateMatrix]
        exact .other (by simp [Error.kind])
      | pow =>
        rw [evaluateMatrix]
        exact .other (by simp [Error.kind])
      | _ => exact left.onMatrices right rfl rfl

end EvaluatesSoundly

theorem evaluatesSoundly (typed : store.WellTyped) (e : Expr) : EvaluatesSoundly store e := by
  induction e with
  | literal text => exact .literal text
  | var name => exact .var typed name
  | unary function operand ih => exact .unary function ih
  | binary operation l r left right => exact .binary operation left right

end Expr

end Abacus
