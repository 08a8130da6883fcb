import Abacus.Proofs.CommandText
import Abacus.Proofs.Execution
import Abacus.Proofs.Layout
import Abacus.Proofs.Values

/-!
# Entering what was shown

A shown value can be entered again: as the number after the label, or as the rows of the box, below the
command that defines a variable of its type and shape. The variable then holds the same value, so values
of one type that are shown alike are equal (`shown_reenters`).
-/

namespace Abacus

/-- The lines to enter for a value of the given type that is shown. -/
def Display.entry : ValueType → String → List String
  | .scalar _, shown => [String.ofList (afterLabel shown)]
  | .matrix _, shown => (body shown).map String.ofList

/-- The command that defines a variable for the value. -/
def Value.definition (name : String) (type : ValueType) : Value → Command
  | scalar _ => .defineScalar type.field name
  | matrix a => .defineMatrix type.field a.height a.width name

namespace Display

theorem entry_scalar (field : NumberField) (x : Scalar) :
    entry (.scalar field) (value (.scalar x)) = [x.text] := by
  rw [entry, value, afterLabel_scalar, String.ofList_toList]

theorem entry_matrix (field : NumberField) (a : Matrix) :
    entry (.matrix field) (value (.matrix a)) =
      a.rows.map fun row => String.ofList (rowLine a row) := by
  rw [entry, value, body_matrix, List.map_map]
  rfl

end Display

/-! ## Rows -/

/-- The cells of a row in its line are read as the numbers of the row. -/
theorem mapM_read_rowLine {a : Matrix} {field : NumberField} (inField : a.Over field)
    {row : List Scalar} (member : row ∈ a.rows) :
    (Text.splitCells (Display.rowLine a row)).mapM (Scalar.read field) = .ok row := by
  rw [Display.splitCells_row member]
  refine mapM_map_of_ok fun x entry => ?_
  rw [← Matrix.over_iff.mp inField row member x entry]
  exact x.read_text

/-- The rows of the box are read as the rows of the matrix. -/
theorem mapM_read_body {a : Matrix} {field : NumberField} (inField : a.Over field) :
    (Display.body (Display.matrix a)).mapM
      (fun line => (Text.splitCells line).mapM (Scalar.read field)) = .ok a.rows := by
  rw [Display.body_matrix]
  exact mapM_map_of_ok fun row member => mapM_read_rowLine inField member

theorem writesRow_rowLine {a : Matrix} {field : NumberField} (inField : a.Over field)
    {row : List Scalar} (member : row ∈ a.rows) :
    WritesRow field (String.ofList (Display.rowLine a row)) row := by
  rw [WritesRow, String.toList_ofList]
  exact mapM_eq_ok_iff.mp (mapM_read_rowLine inField member)

/-! ## Values -/

namespace Value
variable {type : ValueType} {value : Value} {name : String}

theorem definition_writable (fits : value.Fits type) (legal : LegalName name)
    (small : ∀ a, value = .matrix a → a.height < 10 ^ 10 ∧ a.width < 10 ^ 10) :
    (value.definition name type).Writable := by
  have typed : Binding.WellTyped ⟨type, value⟩ := Binding.wellTyped_iff_fits.mpr fits
  cases typed with
  | number F inField => exact .defineScalar F legal
  | @table F a inField =>
    obtain ⟨low, narrow⟩ := small a rfl
    exact .defineMatrix F a.height_pos low a.width_pos narrow legal

/-- The lines that were shown make the value again. -/
theorem execute_entry (fits : value.Fits type) (legal : LegalName name)
    (small : ∀ a, value = .matrix a → a.height < 10 ^ 10 ∧ a.width < 10 ^ 10)
    (calculator : Calculator) (rest : List Line) :
    calculator.execute (value.definition name type).text
        ((Display.entry type (Display.value value)).map .text ++ rest) =
      ⟨calculator.apply (.define name type value), .ok none, rest,
        (Display.entry type (Display.value value)).length⟩ := by
  rw [Calculator.execute, Command.ofText_text (definition_writable fits legal small)]
  have typed : Binding.WellTyped ⟨type, value⟩ := Binding.wellTyped_iff_fits.mpr fits
  cases typed with
  | @number F x inField =>
    have read : Scalar.read F.name x.text.toList = .ok x := inField ▸ x.read_text
    rw [Display.entry_scalar]
    show Calculator.run calculator (.number F.name name) (.text x.text :: rest) = _
    rw [Calculator.run, Task.feed, bind_eq_of_ok read]
    rfl
  | @table F a inField =>
    have written : List.Forall₂ (WritesRow F.name)
        (a.rows.map fun row => String.ofList (Display.rowLine a row)) a.rows :=
      List.forall₂_map_left_iff.mpr
        (List.forall₂_same.mpr fun row member => writesRow_rowLine inField member)
    rw [Display.entry_matrix]
    exact Calculator.run_rows written rfl a.rows_ne_nil rest

/-- Values of one type that are shown alike are equal. -/
theorem eq_of_shown {other : Value} (fits : value.Fits type) (otherFits : other.Fits type)
    (alike : Display.value other = Display.value value) : other = value := by
  cases type with
  | scalar field =>
    cases value with
    | matrix a => cases fits
    | scalar x =>
      cases other with
      | matrix b => cases otherFits
      | scalar y =>
        have texts := congrArg (Display.entry (.scalar field)) alike
        rw [Display.entry_scalar, Display.entry_scalar, List.singleton_inj] at texts
        have first := x.read_text
        have second := y.read_text
        rw [fits_scalar_iff.mp fits] at first
        rw [fits_scalar_iff.mp otherFits, texts, first] at second
        exact congrArg scalar (Except.ok.inj second).symm
  | matrix field =>
    cases value with
    | scalar x => cases fits
    | matrix a =>
      cases other with
      | scalar y => cases otherFits
      | matrix b =>
        have boxes : Display.matrix b = Display.matrix a := alike
        have first := mapM_read_body (fits_matrix_iff.mp fits)
        have second := mapM_read_body (fits_matrix_iff.mp otherFits)
        rw [boxes, first] at second
        exact congrArg matrix (Matrix.rows_inj.mp (Except.ok.inj second)).symm

end Value

/-- A shown value can be entered again below the command that defines a variable for it, unless a
dimension has more than ten digits: the command succeeds, takes just those lines, and binds the name to
the same value. Values of one type that are shown alike are equal. -/
theorem shown_reenters {type : ValueType} {value : Value} (fits : value.Fits type) {name : String}
    (legal : LegalName name) :
    ((∀ a, value = .matrix a → a.height < 10 ^ 10 ∧ a.width < 10 ^ 10) →
      ∀ (calculator : Calculator) (rest : List Line),
        calculator.execute (value.definition name type).text
            ((Display.entry type (Display.value value)).map .text ++ rest) =
          ⟨{ calculator with store := calculator.store.define name type value }, .ok none, rest,
            (Display.entry type (Display.value value)).length⟩) ∧
    ∀ other : Value, other.Fits type → Display.value other = Display.value value → other = value :=
  ⟨fun small calculator rest => Value.execute_entry fits legal small calculator rest,
    fun _ otherFits alike => Value.eq_of_shown fits otherFits alike⟩

/-- A matrix of rational numbers whose texts have different lengths. -/
def Matrix.uneven : Matrix :=
  let half := Rational.reduce (.ofInt 1) (.ofInt 2) (by decide +kernel)
  ⟨2, 2, #v[#v[.rational half, .rational (.ofInt (-3))], #v[.rational .zero, .rational (.ofInt 10)]],
    Nat.two_pos, Nat.two_pos⟩

theorem Matrix.uneven_over : uneven.Over .rationals := by
  show ∀ i j, (uneven.get i j).field = .rationals
  decide +kernel

theorem shown_reenters_uneven :
    (Value.matrix .uneven).Fits (.matrix .rationals) ∧ LegalName "m" ∧
      (Calculator.new.execute "DEF Matrix[Q] 2 2 m"
        [.text " 1/2 -3  ", .text " 0   10  "]).calculator.store.get? "m" =
        some ⟨.matrix .rationals, .matrix .uneven⟩ := by
  have fits : (Value.matrix .uneven).Fits (.matrix .rationals) :=
    Value.fits_matrix_iff.mpr Matrix.uneven_over
  have legal : LegalName "m" := ⟨isName_word "m" nofun rfl, by decide⟩
  have command : ((Value.matrix .uneven).definition "m" (.matrix .rationals)).text =
      "DEF Matrix[Q] 2 2 m" := by decide +kernel
  have lines : Display.entry (.matrix .rationals) (Display.value (.matrix .uneven)) =
      [" 1/2 -3  ", " 0   10  "] := by decide +kernel
  have small : ∀ a, Value.matrix .uneven = .matrix a → a.height < 10 ^ 10 ∧ a.width < 10 ^ 10 := by
    rintro a ⟨⟩
    decide
  have entered := (shown_reenters fits legal).1 small .new []
  rw [command, lines] at entered
  refine ⟨fits, legal, ?_⟩
  exact (congrArg (fun done => done.calculator.store.get? "m") entered).trans
    (Store.get?_define_self _ _ _ _)

end Abacus
