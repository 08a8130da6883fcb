import Abacus.Proofs.CommandText
import Abacus.Proofs.Execution

/-!
# Matrices read row by row

A definition of a matrix takes one line after the other from the lines that follow it. Either the first of
them are the rows of the matrix, and it takes those and no others; or one of them is the first that is no row,
and it takes the lines up to that one, changes nothing and says what is wrong with it
(`Task.rows_taken`).
-/

namespace Abacus

/-- The line splits into `width` cells, and all of them are numbers of the field. -/
def Line.IsRow (field : NumberField) (width : Nat) (line : Line) : Prop :=
  ∃ text row, line = .text text ∧ WritesRow field text row ∧ row.length = width

/-- Why the line in place `index`, counted from one, is no row of `width` numbers, and what is reported. The
line may be missing. The number of its cells is judged first, and its cells from left to right. -/
inductive RowFault (field : NumberField) (index width : Nat) : Option Line → Failure → Prop
  | missing : RowFault field index width none .endOfInput
  | interrupted : RowFault field index width (some .interrupt) .interrupted
  | uneven {text : String} {count : Nat} (counted : (Text.splitCells text.toList).length = count)
      (differ : count ≠ width) :
      RowFault field index width (some (.text text)) (.error (.rowLength index count width))
  | cell {text : String} {before after : List (List Char)} {cell : List Char} {error : Error}
      (split : Text.splitCells text.toList = before ++ cell :: after)
      (even : (Text.splitCells text.toList).length = width)
      (read : ∀ other ∈ before, ∃ x, Scalar.read field other = .ok x)
      (failed : Scalar.read field cell = .error error) :
      RowFault field index width (some (.text text)) (.error error)

namespace Task
variable {field : NumberField} {index width : Nat}

/-- A row cannot be read for the reasons that make its line no row. -/
theorem readRow_of_fault {text : String} {error : Error}
    (fault : RowFault field index width (some (.text text)) (.error error)) :
    readRow field index width text = .error error := by
  cases fault with
  | uneven counted differ =>
    subst counted
    rw [readRow, if_neg differ]
  | cell split even read failed =>
    simp only [readRow, if_pos even]
    rw [split]
    exact mapM_of_failed read failed _

theorem fault_of_readRow {text : String} {error : Error}
    (failed : readRow field index width text = .error error) :
    RowFault field index width (some (.text text)) (.error error) := by
  simp only [readRow] at failed
  split at failed
  · rename_i even
    obtain ⟨before, cell, after, split, read, failed⟩ := exists_failed_of_mapM failed
    exact .cell split even read failed
  · rename_i differ
    cases failed
    exact .uneven rfl differ

/-- A line that is missing or no row has a fault. -/
theorem isRow_or_fault (field : NumberField) (index width : Nat) (line : Option Line) :
    (∃ row ∈ line, row.IsRow field width) ∨ ∃ failure, RowFault field index width line failure := by
  cases line with
  | none => exact .inr ⟨_, .missing⟩
  | some line =>
    cases line with
    | interrupt => exact .inr ⟨_, .interrupted⟩
    | text text =>
      cases read : readRow field index width text with
      | error error => exact .inr ⟨_, fault_of_readRow read⟩
      | ok row =>
        obtain ⟨written, even⟩ := readRow_eq_ok_iff.mp read
        exact .inl ⟨_, rfl, text, row, rfl, written, even⟩

end Task

/-- The first `count` lines are there, and each of them is a row. -/
def FirstRows (field : NumberField) (width : Nat) (lines : List Line) (count : Nat) : Prop :=
  count ≤ lines.length ∧ ∀ line ∈ lines.take count, line.IsRow field width

section Lines
variable {field : NumberField} {width : Nat}

/-- Either all lines up to a number are rows, or one of them is the first that is none. -/
theorem firstRows_or_fault (field : NumberField) (width : Nat) (lines : List Line) (height : Nat) :
    FirstRows field width lines height ∨ ∃ k < height, FirstRows field width lines k ∧
      ∃ failure, RowFault field (k + 1) width lines[k]? failure := by
  induction height with
  | zero => exact .inl ⟨Nat.zero_le _, by simp⟩
  | succ height ih =>
    rcases ih with ⟨enough, rows⟩ | ⟨k, before, rows, fault⟩
    · rcases Task.isRow_or_fault field (height + 1) width lines[height]? with ⟨line, here, row⟩ | fault
      · have inside : height < lines.length := (List.getElem?_eq_some_iff.mp here).1
        refine .inl ⟨inside, ?_⟩
        rw [List.take_add_one, here]
        exact List.forall_mem_append.mpr ⟨rows, by simpa using row⟩
      · exact .inr ⟨height, Nat.lt_succ_self _, ⟨enough, rows⟩, fault⟩
    · exact .inr ⟨k, Nat.lt_succ_of_lt before, rows, fault⟩

/-- Lines that are rows have texts that write rows of numbers. -/
theorem exists_written {lines : List Line} (all : ∀ line ∈ lines, line.IsRow field width) :
    ∃ texts rows, lines = texts.map .text ∧ List.Forall₂ (WritesRow field) texts rows ∧
      ∀ row ∈ rows, row.length = width := by
  induction lines with
  | nil => exact ⟨[], [], rfl, .nil, by simp⟩
  | cons line lines ih =>
    obtain ⟨⟨text, row, rfl, written, even⟩, others⟩ := List.forall_mem_cons.mp all
    obtain ⟨texts, rows, rfl, later, lengths⟩ := ih others
    refine ⟨text :: texts, row :: rows, rfl, .cons written later, ?_⟩
    exact List.forall_mem_cons.mpr ⟨even, lengths⟩

/-- What stands in one of two related lists stands opposite something in the other. -/
theorem exists_opposite {α β : Type} {related : α → β → Prop} {left : List α} {right : List β}
    (matched : List.Forall₂ related left right) {i : Nat} {y : β} (here : right[i]? = some y) :
    ∃ x, left[i]? = some x ∧ related x y := by
  induction matched generalizing i with
  | nil => cases here
  | @cons x z left right first later ih =>
    cases i with
    | zero =>
      cases here
      exact ⟨x, rfl, first⟩
    | succ i => exact ih here

end Lines

namespace Calculator
variable {calculator : Calculator} {field : NumberField} {name : String} {height width : Nat}

/-- Rows that do not complete the matrix are read, and nothing else happens. -/
theorem run_incomplete {texts : List String} {rows done : List (List Scalar)}
    (written : List.Forall₂ (WritesRow field) texts rows) (even : ∀ row ∈ rows, row.length = width)
    (short : done.length + rows.length < height) (rest : List Line) :
    calculator.run (.rows field name height width done) (texts.map .text ++ rest) =
      let later := calculator.run (.rows field name height width (rows.reverse ++ done)) rest
      { later with reads := later.reads + texts.length } := by
  induction written generalizing done with
  | nil => rfl
  | @cons text row texts rows first later ih =>
    obtain ⟨wide, others⟩ := List.forall_mem_cons.mp even
    rw [List.length_cons] at short
    have read : Task.readRow field (done.length + 1) width text = .ok row :=
      Task.readRow_eq_ok_iff.mpr ⟨first, wide⟩
    have fed : Task.feed calculator.store text (.rows field name height width done) =
        .ok (.waiting (.rows field name height width (row :: done))) := by
      rw [Task.feed, bind_eq_of_ok read, if_pos (by omega)]
      rfl
    have onward := @ih (row :: done) others (by rw [List.length_cons]; omega)
    rw [List.map_cons, List.cons_append, run_of_waiting fed, onward, List.reverse_cons,
      List.append_assoc]
    rfl

/-- The first line that is no row ends the definition. -/
theorem run_of_fault {done : List (List Scalar)} {lines : List Line} {failure : Failure}
    (fault : RowFault field (done.length + 1) width lines.head? failure) :
    calculator.run (.rows field name height width done) lines =
      ⟨calculator, .error failure, lines.tail, 1⟩ := by
  cases lines with
  | nil =>
    cases fault
    rfl
  | cons line rest =>
    cases line with
    | interrupt =>
      cases fault
      rfl
    | text text =>
      have reported : ∃ error, failure = .error error := by
        cases fault with
        | uneven counted differ => exact ⟨_, rfl⟩
        | cell split even read failed => exact ⟨_, rfl⟩
      obtain ⟨error, rfl⟩ := reported
      refine run_of_error ?_ rest
      rw [Task.feed, Task.readRow_of_fault fault]
      rfl

/-- Once the first rows are read, the first line that is no row ends the definition. -/
theorem run_of_firstRows_of_fault {lines : List Line} {k : Nat} {failure : Failure}
    (rows : FirstRows field width lines k) (before : k < height)
    (fault : RowFault field (k + 1) width lines[k]? failure) :
    calculator.run (.rows field name height width []) lines =
      ⟨calculator, .error failure, lines.drop (k + 1), k + 1⟩ := by
  obtain ⟨texts, read, taken, written, even⟩ := exists_written rows.2
  have texted : texts.length = k := by
    rw [← List.length_map Line.text, ← taken, List.length_take, Nat.min_eq_left rows.1]
  have counted : read.length = k := by rw [← written.length_eq, texted]
  have ends : calculator.run (.rows field name height width (read.reverse ++ [])) (lines.drop k) =
      ⟨calculator, .error failure, (lines.drop k).tail, 1⟩ := by
    refine run_of_fault ?_
    rwa [List.append_nil, List.length_reverse, counted, List.head?_drop]
  have short : ([] : List (List Scalar)).length + read.length < height := by
    rw [List.length_nil, counted]
    omega
  have whole : calculator.run (.rows field name height width []) (texts.map .text ++ lines.drop k) = _ :=
    run_incomplete written even short (lines.drop k)
  rw [← taken, List.take_append_drop, ends, texted, List.tail_drop] at whole
  rw [whole, Nat.add_comm]

/-- The first lines, if they are rows, are the rows of the matrix that is defined. -/
theorem run_of_firstRows {lines : List Line} (tall : 0 < height) (wide : 0 < width)
    (rows : FirstRows field width lines height) :
    ∃ a : Matrix, a.height = height ∧ a.width = width ∧
      (∀ i j, ∃ text cell, lines[i.val]? = some (.text text) ∧
        (Text.splitCells text.toList)[j.val]? = some cell ∧
        Scalar.read field cell = .ok (a.get i j)) ∧
      calculator.run (.rows field name height width []) lines =
        ⟨{ calculator with store := calculator.store.define name (.matrix field) (.matrix a) }, .ok none,
          lines.drop height, height⟩ := by
  obtain ⟨texts, read, taken, written, even⟩ := exists_written rows.2
  have texted : texts.length = height := by
    rw [← List.length_map Line.text, ← taken, List.length_take, Nat.min_eq_left rows.1]
  have counted : read.length = height := by rw [← written.length_eq, texted]
  have present : read ≠ [] := by
    rw [← List.length_pos_iff, counted]
    exact tall
  obtain ⟨a, made⟩ := Matrix.exists_ofRows? present wide even
  have whole := Matrix.rows_of_ofRows? made
  obtain rfl : a.height = height := by rw [← a.length_rows, whole, counted]
  obtain rfl : a.width = width := by
    obtain ⟨row, member⟩ := List.exists_mem_of_ne_nil _ present
    rw [← even row member]
    exact (Matrix.length_of_mem_rows (whole ▸ member)).symm
  refine ⟨a, rfl, rfl, fun i j => ?_, ?_⟩
  · obtain ⟨row, place, entry⟩ := a.exists_row i j
    rw [whole] at place
    obtain ⟨text, line, writes⟩ := exists_opposite written place
    obtain ⟨cell, here, number⟩ := exists_opposite writes entry
    refine ⟨text, cell, ?_, here, number⟩
    have listed : (lines.take a.height)[i.val]? = some (.text text) := by
      rw [taken, List.getElem?_map, line]
      rfl
    rwa [List.getElem?_take_of_lt i.isLt] at listed
  · have complete : ([] : List (List Scalar)).reverse ++ read = a.rows := whole.symm
    have executed : calculator.run (.rows field name a.height a.width [])
        (texts.map .text ++ lines.drop a.height) = _ := run_rows written complete present _
    rw [← taken, List.take_append_drop, texted] at executed
    exact executed

end Calculator

/-- Lines are read as the rows of a matrix one by one. The definition succeeds exactly if all the lines
that it needs are there and are rows, and then it has taken those lines and no others and has defined the
matrix whose entries stand in their cells. Otherwise one of the lines is the first that is missing or no row:
the lines up to it are taken, those behind it are left, what is wrong with that line is reported, and nothing
else has changed. -/
theorem Task.rows_taken (F : GroundField) (calculator : Calculator) (name : String) {height width : Nat}
    (tall : 0 < height) (wide : 0 < width) (lines : List Line) :
    let execution := calculator.run (.rows F.name name height width []) lines
    (∀ command, Command.ofText command = .ok (.defineMatrix F.name height width name) →
      calculator.execute command lines = execution) ∧
    ((∃ shown, execution.outcome = .ok shown) ↔ FirstRows F.name width lines height) ∧
    (FirstRows F.name width lines height → ∃ a : Matrix, a.height = height ∧ a.width = width ∧
      (∀ i j, ∃ text cell, lines[i.val]? = some (.text text) ∧
        (Text.splitCells text.toList)[j.val]? = some cell ∧
        Scalar.read F.name cell = .ok (a.get i j)) ∧
      execution =
        ⟨{ calculator with store := calculator.store.define name (.matrix F.name) (.matrix a) }, .ok none,
          lines.drop height, height⟩) ∧
    (∀ k < height, FirstRows F.name width lines k → ∀ failure,
      RowFault F.name (k + 1) width lines[k]? failure →
      execution = ⟨calculator, .error failure, lines.drop (k + 1), k + 1⟩) ∧
    (FirstRows F.name width lines height ∨ ∃ k < height, FirstRows F.name width lines k ∧
      ∃ failure, RowFault F.name (k + 1) width lines[k]? failure) := by
  have cases := firstRows_or_fault F.name width lines height
  refine ⟨fun command read => Calculator.execute_of_waiting read rfl lines, ⟨?_, fun rows => ?_⟩,
    Calculator.run_of_firstRows tall wide,
    fun k before rows failure => Calculator.run_of_firstRows_of_fault rows before, cases⟩
  · rintro ⟨shown, succeeded⟩
    rcases cases with rows | ⟨k, before, rows, failure, fault⟩
    · exact rows
    · rw [Calculator.run_of_firstRows_of_fault rows before fault] at succeeded
      cases succeeded
  · obtain ⟨a, -, -, -, executed⟩ := @Calculator.run_of_firstRows calculator F.name name height width
      lines tall wide rows
    rw [executed]
    exact ⟨none, rfl⟩

/-- Of three lines the second has a cell too few, and the third is left for the next command. -/
theorem Task.rows_taken_short :
    0 < 2 ∧ Calculator.new.execute "DEF Matrix[Q] 2 2 A" [.text "1, -2/4", .text "3", .text "EXIT"] =
      ⟨.new, .error (.error (.rowLength 2 1 2)), [.text "EXIT"], 2⟩ := by
  have command : Command.ofText "DEF Matrix[Q] 2 2 A" =
      .ok (.defineMatrix GroundField.rationals.name 2 2 "A") := by decide +kernel
  have firstRow : Task.readRow GroundField.rationals.name 1 2 "1, -2/4" =
      .ok [.rational (.ofInt 1), .rational (.reduce (.ofInt (-1)) (.ofInt 2) (by decide +kernel))] := by
    decide +kernel
  have rows : FirstRows GroundField.rationals.name 2 [.text "1, -2/4", .text "3", .text "EXIT"] 1 := by
    refine ⟨by decide, fun line member => ?_⟩
    obtain rfl := List.mem_singleton.mp member
    exact ⟨_, _, rfl, Task.readRow_eq_ok_iff.mp firstRow⟩
  have counted : (Text.splitCells "3".toList).length = 1 := by decide +kernel
  obtain ⟨executes, -, -, faults, -⟩ := Task.rows_taken .rationals .new "A" two_pos two_pos
    [.text "1, -2/4", .text "3", .text "EXIT"]
  refine ⟨two_pos, (executes _ command).trans ?_⟩
  exact faults 1 (by decide) rows _ (.uneven counted (by decide))

end Abacus
