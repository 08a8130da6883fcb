import Abacus.Proofs.Execution

/-!
# The last definition wins

After any calls, a name is bound to what the last successful definition of it says, whatever it was bound
to before. Nothing but a successful definition changes a variable, and nothing but leaving the calculator
counts as leaving it (`last_definition_wins`).
-/

namespace Abacus

/-- The calculator after some calls, one after the other. -/
def Calculator.executeAll (calculator : Calculator) (calls : List Call) : Calculator :=
  calls.foldl (fun calculator call => (calculator.execute call.command call.lines).calculator) calculator

namespace Call

/-- The command of the call is to define the name at the type. -/
def IsDefinition (call : Call) (name : String) (type : ValueType) : Prop :=
  ∃ command, Command.ofText call.command = .ok command ∧ command.target? = some (name, type)

/-- The call has an outcome other than a failure. -/
def Succeeds (call : Call) (calculator : Calculator) : Prop :=
  ∃ shown, (calculator.execute call.command call.lines).outcome = .ok shown

/-- The last of the calls that define the name binds it so. -/
def LastDefines (calls : List Call) (name : String) (binding : Binding Value) : Prop :=
  ∃ before call after, calls = before ++ call :: after ∧ call.Defines name binding ∧
    ∀ later ∈ after, ∀ other, ¬ later.Defines name other

variable {call : Call} {name : String} {binding : Binding Value}

/-! ## One call -/

theorem Defines.isDefinition (defines : call.Defines name binding) :
    call.IsDefinition name binding.type := by
  cases defines with
  | number command lines read => exact ⟨_, command, rfl⟩
  | rows command lines written => exact ⟨_, command, rfl⟩

theorem Defines.succeeds (defines : call.Defines name binding) (calculator : Calculator) :
    call.Succeeds calculator := by
  obtain ⟨unread, reads, executed⟩ := Calculator.execute_of_defines defines calculator
  exact ⟨none, by rw [executed]⟩

/-- A call binds a name to one thing. -/
theorem Defines.unique {other : Binding Value} (first : call.Defines name binding)
    (second : call.Defines name other) : binding = other := by
  obtain ⟨_, _, executed⟩ := Calculator.execute_of_defines first .new
  obtain ⟨_, _, again⟩ := Calculator.execute_of_defines second .new
  have stores := congrArg (fun execution => execution.calculator.store.get? name)
    (executed.symm.trans again)
  simpa only [Store.get?_define_self, Option.some.injEq] using stores

/-- A call is to define at most one name, at one type. -/
theorem IsDefinition.unique {other : String} {type otherType : ValueType}
    (first : call.IsDefinition name type) (second : call.IsDefinition other otherType) :
    name = other ∧ type = otherType := by
  obtain ⟨command, read, defined⟩ := first
  obtain ⟨_, again, otherDefined⟩ := second
  obtain rfl := Except.ok.inj (read.symm.trans again)
  exact Prod.mk.inj (Option.some.inj (defined.symm.trans otherDefined))

theorem not_isDefinition {command : Command} (read : Command.ofText call.command = .ok command)
    (nothing : command.target? = none) (name : String) (type : ValueType) :
    ¬ call.IsDefinition name type := by
  rintro ⟨_, again, defined⟩
  obtain rfl := Except.ok.inj (read.symm.trans again)
  cases nothing.symm.trans defined

/-- A call defines the name at the type if it is to do so and succeeds. -/
theorem exists_defines_iff (calculator : Calculator) (name : String) (type : ValueType) :
    (∃ value, call.Defines name ⟨type, value⟩) ↔
      call.IsDefinition name type ∧ call.Succeeds calculator := by
  constructor
  · rintro ⟨value, defines⟩
    exact ⟨defines.isDefinition, defines.succeeds calculator⟩
  · rintro ⟨isDefinition, shown, outcome⟩
    have transition := calculator.execute_transition call
    generalize calculator.execute call.command call.lines = execution at transition outcome
    cases transition with
    | @defined other binding defines unread reads =>
      obtain ⟨rfl, rfl⟩ := isDefinition.unique defines.isDefinition
      exact ⟨binding.value, defines⟩
    | left command => exact absurd isDefinition (not_isDefinition command rfl name type)
    | shown value command => exact absurd isDefinition (not_isDefinition command rfl name type)
    | failed failure => cases outcome

/-- A call that defines nothing keeps the variables. -/
theorem store_of_not_defines (calculator : Calculator)
    (none : ∀ name binding, ¬ call.Defines name binding) :
    (calculator.execute call.command call.lines).calculator.store = calculator.store := by
  have transition := calculator.execute_transition call
  generalize calculator.execute call.command call.lines = execution at transition ⊢
  cases transition with
  | defined defines => exact absurd defines (none _ _)
  | left command => rfl
  | shown value command => rfl
  | failed failure => rfl

/-- A calculator has been left after a call if it had been before, or the call is to leave it. -/
theorem exited_iff (calculator : Calculator) :
    (calculator.execute call.command call.lines).calculator.exited = true ↔
      calculator.exited = true ∨
        Command.ofText call.command = .ok .exit ∧ call.Succeeds calculator := by
  have transition := calculator.execute_transition call
  rw [Succeeds]
  generalize calculator.execute call.command call.lines = execution at transition ⊢
  cases transition with
  | defined defines =>
    refine ⟨.inl, fun either => either.resolve_right ?_⟩
    rintro ⟨exit, -⟩
    exact not_isDefinition exit rfl _ _ defines.isDefinition
  | left command => exact ⟨fun _ => .inr ⟨command, none, rfl⟩, fun _ => rfl⟩
  | shown value command =>
    refine ⟨.inl, fun either => either.resolve_right ?_⟩
    rintro ⟨exit, -⟩
    cases command.symm.trans exit
  | failed failure =>
    refine ⟨.inl, fun either => either.resolve_right ?_⟩
    rintro ⟨-, shown, success⟩
    cases success

end Call

/-! ## All calls -/

/-- To look for a place in a list, look at its end and then before it. -/
theorem exists_split_append_singleton {α : Type} {list : List α} {last : α}
    {holds : List α → α → List α → Prop} :
    (∃ before x after, list ++ [last] = before ++ x :: after ∧ holds before x after) ↔
      holds list last [] ∨
        ∃ before x after, list = before ++ x :: after ∧ holds before x (after ++ [last]) := by
  constructor
  · rintro ⟨before, x, after, split, found⟩
    rcases List.eq_nil_or_concat after with rfl | ⟨after, other, rfl⟩
    · obtain ⟨rfl, same⟩ := List.append_inj' split rfl
      obtain rfl := List.singleton_inj.mp same
      exact .inl found
    · rw [List.concat_eq_append, ← List.cons_append, ← List.append_assoc] at split
      obtain ⟨rfl, same⟩ := List.append_inj' split rfl
      obtain rfl := List.singleton_inj.mp same
      rw [List.concat_eq_append] at found
      exact .inr ⟨before, x, after, rfl, found⟩
  · rintro (found | ⟨before, x, after, rfl, found⟩)
    · exact ⟨list, last, [], rfl, found⟩
    · exact ⟨before, x, after ++ [last], by rw [List.append_assoc, List.cons_append], found⟩

namespace Calculator

theorem executeAll_append (calculator : Calculator) (calls : List Call) (call : Call) :
    calculator.executeAll (calls ++ [call]) =
      ((calculator.executeAll calls).execute call.command call.lines).calculator := by
  rw [executeAll, List.foldl_append]
  rfl

end Calculator

namespace Call
variable {calls : List Call} {call : Call} {name : String} {binding : Binding Value}

theorem lastDefines_append :
    LastDefines (calls ++ [call]) name binding ↔
      call.Defines name binding ∨
        LastDefines calls name binding ∧ ∀ other, ¬ call.Defines name other := by
  rw [LastDefines, exists_split_append_singleton]
  refine or_congr ⟨And.left, fun defines => ⟨defines, nofun⟩⟩ ?_
  rw [LastDefines]
  simp only [List.forall_mem_append, List.forall_mem_singleton]
  constructor
  · rintro ⟨before, found, after, split, defines, later, last⟩
    exact ⟨⟨before, found, after, split, defines, later⟩, last⟩
  · rintro ⟨⟨before, found, after, split, defines, later⟩, last⟩
    exact ⟨before, found, after, split, defines, later, last⟩

/-- A name is bound by the last call that defines it. -/
theorem get?_executeAll_iff (calls : List Call) (name : String) (binding : Binding Value) :
    (Calculator.new.executeAll calls).store.get? name = some binding ↔
      LastDefines calls name binding := by
  induction calls using List.reverseRecOn with
  | nil =>
    refine ⟨nofun, ?_⟩
    rintro ⟨before, call, after, split, -⟩
    exact absurd split.symm (by simp)
  | append_singleton calls call ih =>
    rw [Calculator.executeAll_append, lastDefines_append, ← ih]
    by_cases nothing : ∀ other bound, ¬ call.Defines other bound
    · rw [store_of_not_defines _ nothing]
      simp [nothing]
    · push Not at nothing
      obtain ⟨other, bound, defines⟩ := nothing
      obtain ⟨unread, reads, executed⟩ :=
        Calculator.execute_of_defines defines (Calculator.new.executeAll calls)
      rw [executed]
      by_cases same : name = other
      · subst same
        rw [Store.get?_define_self]
        constructor
        · intro found
          exact .inl (Option.some.inj found ▸ defines)
        · rintro (again | ⟨-, none⟩)
          · rw [again.unique defines]
          · exact absurd defines (none bound)
      · have apart (other : Binding Value) : ¬ call.Defines name other := fun again =>
          same (again.isDefinition.unique defines.isDefinition).1
        rw [Store.get?_define_of_ne _ _ _ same]
        simp [apart]

theorem exited_executeAll_iff (calls : List Call) :
    (Calculator.new.executeAll calls).exited = true ↔
      ∃ before call after, calls = before ++ call :: after ∧
        Command.ofText call.command = .ok .exit ∧ call.Succeeds (Calculator.new.executeAll before) := by
  induction calls using List.reverseRecOn with
  | nil =>
    refine ⟨nofun, ?_⟩
    rintro ⟨before, call, after, split, -⟩
    exact absurd split.symm (by simp)
  | append_singleton calls call ih =>
    rw [Calculator.executeAll_append, exited_iff, ih, exists_split_append_singleton, or_comm]

end Call

/-- After any calls, a name is bound by the last call that defines it, and by no other; and the calculator
has been left if one of the calls was to leave it and succeeded. A call defines a name if its command is to
do so and it succeeds. Any other call keeps all variables as they are. -/
theorem last_definition_wins (calls : List Call) :
    (∀ name binding, (Calculator.new.executeAll calls).store.get? name = some binding ↔
      Call.LastDefines calls name binding) ∧
    ((Calculator.new.executeAll calls).exited = true ↔
      ∃ before call after, calls = before ++ call :: after ∧
        Command.ofText call.command = .ok .exit ∧
          call.Succeeds (Calculator.new.executeAll before)) ∧
    ∀ (calculator : Calculator) (call : Call),
      (∀ name type, (∃ value, call.Defines name ⟨type, value⟩) ↔
        call.IsDefinition name type ∧ call.Succeeds calculator) ∧
      ((∀ name type, ¬ (call.IsDefinition name type ∧ call.Succeeds calculator)) →
        (calculator.execute call.command call.lines).calculator.store = calculator.store) := by
  refine ⟨Call.get?_executeAll_iff calls, Call.exited_executeAll_iff calls, fun calculator call => ?_⟩
  refine ⟨fun name type => Call.exists_defines_iff calculator name type, fun fails => ?_⟩
  refine Call.store_of_not_defines calculator fun name binding defines => ?_
  exact fails name binding.type ⟨defines.isDefinition, defines.succeeds calculator⟩

/-- A definition whose second row has a number too many. -/
def Call.unevenRows : Call :=
  ⟨"DEF Matrix[Q] 2 1 x", [.text "1", .text "2 3", .text "4"]⟩

/-- A name is defined as a fraction and then as a residue, with a definition in between that fails. -/
def Call.redefinition : List Call :=
  [⟨"DEF Q x", [.text "1/2"]⟩, .unevenRows, ⟨"DEF Z 7 x", [.text "10"]⟩, ⟨"EVAL Z 5", [.text "x"]⟩,
    ⟨"DEF Q x", []⟩]

/-- The residue is what remains, and the definition that fails changes nothing. -/
theorem last_definition_wins_redefined :
    Call.LastDefines Call.redefinition "x"
      ⟨.scalar (.residues 7), .scalar (.residue .seven ⟨3, by decide⟩)⟩ ∧
    (Calculator.new.execute Call.unevenRows.command Call.unevenRows.lines).calculator.store = .empty := by
  obtain ⟨bound, -, each⟩ := last_definition_wins Call.redefinition
  refine ⟨(bound _ _).mp (by decide +kernel), (each .new .unevenRows).2 ?_⟩
  rintro name type ⟨-, shown, outcome⟩
  have failed : (Calculator.new.execute Call.unevenRows.command Call.unevenRows.lines).outcome =
      .error (.error (.rowLength 2 2 1)) := by decide +kernel
  cases failed.symm.trans outcome

end Abacus
