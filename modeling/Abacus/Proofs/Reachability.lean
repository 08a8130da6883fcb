import Abacus.Proofs.Execution
import Abacus.Proofs.Soundness
import Abacus.Proofs.Values

/-!
# What every run keeps

Whatever commands are executed and whatever lines follow them, every variable has a legal name and a
value of its type. One line keeps this of a waiting task (`Task.Legal.feed`), a task keeps it until it
is finished or given up (`Store.Legal.run`), and so does every command (`Store.Legal.execute`). In a
calculator that commands have led to, evaluation therefore stays within its type (`reachable_sound`).
-/

namespace Abacus

/-- The names are legal and their values are of their types. -/
structure Store.Legal (store : Store Value) : Prop where
  names : ∀ name binding, store.get? name = some binding → LegalName name
  typed : store.WellTyped

/-- A task that defines a variable does so under a legal name and at a type over a ground field. The
rows that it has read lie in that field; they are as wide as the matrix, and not all of its rows. -/
inductive Task.Legal : Task → Prop
  | number (F : GroundField) {name : String} (legal : LegalName name) : Legal (.number F.name name)
  | rows (F : GroundField) {height width : Nat} {name : String} {done : List (List Scalar)}
      (legal : LegalName name) (wide : 0 < width) (short : done.length < height)
      (even : ∀ row ∈ done, row.length = width)
      (inField : ∀ row ∈ done, ∀ x ∈ row, x.field = F.name) :
      Legal (.rows F.name name height width done)
  | expression (F : GroundField) {type : ValueType} (ground : type.field = F.name) :
      Legal (.expression type)

/-- What an effect defines has a legal name and is of its type. -/
inductive Effect.Legal : Effect → Prop
  | exit : Legal .exit
  | define {name : String} {type : ValueType} {value : Value} (legal : LegalName name)
      (typed : Binding.WellTyped ⟨type, value⟩) : Legal (.define name type value)
  | result (value : Value) : Legal (.result value)

inductive Progress.Legal : Progress → Prop
  | waiting {task : Task} (legal : task.Legal) : Legal (.waiting task)
  | finished {effect : Effect} (legal : effect.Legal) : Legal (.finished effect)

theorem Command.Legal.start {command : Command} (legal : command.Legal) : command.start.Legal := by
  cases legal with
  | exit => exact .finished .exit
  | defineScalar F legal => exact .waiting (.number F legal)
  | defineMatrix F tall wide legal =>
    exact .waiting (.rows F legal wide tall (List.forall_mem_nil _) (List.forall_mem_nil _))
  | evaluate F ground => exact .waiting (.expression F ground)

/-! ## One line -/

namespace Task

theorem field_of_readRow {field : NumberField} {row width : Nat} {line : String} {xs : List Scalar}
    (read : readRow field row width line = .ok xs) : ∀ x ∈ xs, x.field = field := by
  simp only [readRow] at read
  split at read
  · have sound : Sound _ _ fun _ => True :=
      .mapM (Scalar.read_sound field) (Text.splitCells line.toList)
    exact sound.value read
  · cases read

/-- What a line makes of a legal task is legal. -/
theorem Legal.feed {store : Store Value} {line : String} {task : Task} {progress : Progress}
    (legal : task.Legal) (fed : task.feed store line = .ok progress) : progress.Legal := by
  cases feeds_of_feed fed with
  | number read =>
    cases legal with
    | number F legal =>
      have sound : Sound _ _ fun _ => True := Scalar.read_sound F.name line.toList
      exact .finished (.define legal (.number F (sound.value read)))
  | @row field name height width done row read more =>
    cases legal with
    | rows F legal wide short even inField =>
      have evenAll : ∀ other ∈ row :: done, other.length = width :=
        List.forall_mem_cons.mpr ⟨(readRow_eq_ok_iff.mp read).2, even⟩
      have all := List.forall_mem_cons.mpr ⟨field_of_readRow read, inField⟩
      exact .waiting (.rows F legal wide more evenAll all)
  | @lastRow field name height width done row a read last made =>
    cases legal with
    | rows F legal wide short even inField =>
      have all := List.forall_mem_cons.mpr ⟨field_of_readRow read, inField⟩
      have whole : a.Over F.name := by
        rw [Matrix.over_iff, Matrix.rows_of_ofRows? made]
        exact fun other member => all other (List.mem_reverse.mp member)
      exact .finished (.define legal (.table F whole))
  | expression parsed evaluated => exact .finished (.result _)

end Task

/-! ## Whole runs -/

namespace Store

theorem legal_empty : (empty : Store Value).Legal :=
  ⟨nofun, nofun⟩

theorem Legal.define {store : Store Value} (legal : store.Legal) {name : String} {type : ValueType}
    {value : Value} (legalName : LegalName name) (typed : Binding.WellTyped ⟨type, value⟩) :
    (store.define name type value).Legal := by
  constructor
  · intro other binding found
    by_cases same : other = name
    · subst same
      exact legalName
    · rw [get?_define_of_ne store type value same] at found
      exact legal.names other binding found
  · intro other binding found
    by_cases same : other = name
    · subst same
      rw [get?_define_self] at found
      cases found
      exact typed
    · rw [get?_define_of_ne store type value same] at found
      exact legal.typed other binding found

variable {calculator : Calculator}

theorem Legal.apply (legal : calculator.store.Legal) {effect : Effect} (legalEffect : effect.Legal) :
    (calculator.apply effect).store.Legal := by
  cases legalEffect with
  | exit => exact legal
  | define legalName typed => exact legal.define legalName typed
  | result value => exact legal

theorem Legal.run (legal : calculator.store.Legal) {task : Task} (legalTask : task.Legal)
    (lines : List Line) : (calculator.run task lines).calculator.store.Legal := by
  induction lines generalizing task with
  | nil => exact legal
  | cons line rest ih =>
    cases line with
    | interrupt => exact legal
    | text line =>
      rw [Calculator.run]
      split
      · exact legal
      · rename_i effect fed
        cases legalTask.feed fed with
        | finished legalEffect => exact legal.apply legalEffect
      · rename_i next fed
        cases legalTask.feed fed with
        | waiting legalNext => exact ih legalNext

theorem Legal.execute (legal : calculator.store.Legal) (command : String) (lines : List Line) :
    (calculator.execute command lines).calculator.store.Legal := by
  rw [Calculator.execute]
  split
  · exact legal
  · rename_i command read
    have started := (Command.legal_of_ofText read).start
    split
    · rename_i effect start
      rw [start] at started
      cases started with
      | finished legalEffect => exact legal.apply legalEffect
    · rename_i task start
      rw [start] at started
      cases started with
      | waiting legalTask => exact legal.run legalTask lines

end Store

/-- The calculators that executing commands leads to from one without variables. -/
inductive Calculator.Reachable : Calculator → Prop
  | new : Reachable .new
  | execute {calculator : Calculator} (before : calculator.Reachable) (command : String)
      (lines : List Line) : Reachable (calculator.execute command lines).calculator

theorem Calculator.Reachable.legal {calculator : Calculator} (reachable : calculator.Reachable) :
    calculator.store.Legal := by
  induction reachable with
  | new => exact Store.legal_empty
  | execute before command lines ih => exact ih.execute command lines

theorem Expr.evaluate_sound {store : Store Value} (typed : store.WellTyped) (type : ValueType)
    (e : Expr) (levels : Nat) :
    Sound (e.evaluate store type levels) (fun value => value.Fits type)
      (MeetsOtherPrime store levels type e) := by
  have sound := evaluatesSoundly typed e
  cases type with
  | scalar field => exact (sound.number field levels).map fun x => Value.fits_scalar_iff.mpr
  | matrix field => exact (sound.table field levels).map fun a => Value.fits_matrix_iff.mpr

/-- In a calculator that commands have led to, every variable has a legal name and a value that fits
its type. Within any number of levels, every expression evaluates only to values that fit the type it is
evaluated at, and residues of different moduli are reported only for a variable that is stored modulo
another prime than its place requires. -/
theorem reachable_sound {calculator : Calculator} (reachable : calculator.Reachable) :
    (∀ name binding, calculator.store.get? name = some binding →
      LegalName name ∧ binding.value.Fits binding.type) ∧
    ∀ (e : Expr) (type : ValueType) (levels : Nat),
      (∀ value, e.evaluate calculator.store type levels = .ok value → value.Fits type) ∧
      ∀ error, e.evaluate calculator.store type levels = .error error →
        error.kind = .incompatibleModuli → e.MeetsOtherPrime calculator.store levels type error := by
  have legal := reachable.legal
  refine ⟨fun name binding found => ⟨legal.names name binding found, ?_⟩, fun e type levels => ?_⟩
  · exact Binding.wellTyped_iff_fits.mp (legal.typed name binding found)
  · have sound := e.evaluate_sound legal.typed type levels
    exact ⟨fun value => sound.value, fun error => sound.error⟩

/-- The calculator that has been told that x is ten modulo seven. -/
def Calculator.tenModuloSeven : Calculator :=
  (new.execute "DEF Z 7 x" [.text "10"]).calculator

/-- There x is three, twice x is six, and x cannot be used modulo five. -/
theorem reachable_sound_seven :
    Calculator.tenModuloSeven.Reachable ∧
    (LegalName "x" ∧ (Value.scalar (.residue .seven ⟨3, by decide⟩)).Fits (.scalar (.residues 7))) ∧
    (Value.scalar (.residue .seven ⟨6, by decide⟩)).Fits (.scalar (.residues 7)) ∧
    (Expr.binary .mul (.literal "2") (.var "x")).MeetsOtherPrime Calculator.tenModuloSeven.store
      Expr.maxLevels (.scalar (.residues 5)) (.incompatibleModuli 7 5) := by
  have reachable : Calculator.tenModuloSeven.Reachable := .execute .new "DEF Z 7 x" [.text "10"]
  obtain ⟨stored, evaluated⟩ := reachable_sound reachable
  refine ⟨reachable, stored "x" ⟨_, _⟩ (by decide +kernel), ?_, ?_⟩
  · exact (evaluated (.binary .mul (.literal "2") (.var "x")) _ Expr.maxLevels).1 _ (by decide +kernel)
  · exact (evaluated _ _ _).2 _ (by decide +kernel) rfl

end Abacus
