import Abacus.Proofs.Decimal
import Abacus.Text.Cells

/-!
# Splitting lines into cells

Every line falls into separators and cells, and these are the cells that splitting finds: neither stripping
the line nor dropping the empty pieces loses one or joins two (`splitCells_eq_iff`). So cells that are written
one after the other, each followed by separators, are found again (`splitCells_flatMap`). Texts of numbers are
such cells.
-/

namespace Abacus

/-- Characters that make up one cell. -/
structure IsCell (chars : List Char) : Prop where
  nonempty : chars ≠ []
  solid : ∀ c ∈ chars, Text.inCell c = true

/-- A text of a number makes up one cell. -/
theorem IsNumberText.isCell {chars : List Char} (number : IsNumberText chars) : IsCell chars := by
  refine ⟨number.nonempty, fun c member => ?_⟩
  rcases number.all c member with digit | rfl | rfl
  · obtain ⟨low, high⟩ := isDigit_iff.mp digit
    have notComma : c ≠ ',' := by
      rintro rfl
      exact absurd low (by decide)
    have notSemicolon : c ≠ ';' := by
      rintro rfl
      exact absurd high (by decide)
    have notBlank := (Numeral.unsigned (isDigits_singleton digit)).not_blank List.mem_cons_self
    simp [Text.inCell, Text.separatesCells, notBlank, notComma, notSemicolon]
  · decide
  · decide

namespace Text
variable {chars line cell gap rest : List Char} {cells : List (List Char)}

/-! ## What a line falls into -/

/-- The characters are those of the cells, each as long as it can be, and separators. -/
inductive FallsInto : (chars : List Char) → (cells : List (List Char)) → Prop
  | nil : FallsInto [] []
  | separator {c : Char} {rest : List Char} {cells : List (List Char)}
      (separates : separatesCells c = true) (later : FallsInto rest cells) : FallsInto (c :: rest) cells
  | cell {cell rest : List Char} {cells : List (List Char)} (whole : IsCell cell)
      (ends : ∀ c ∈ rest.head?, separatesCells c = true) (later : FallsInto rest cells) :
      FallsInto (cell ++ rest) (cell :: cells)

/-- A character of a cell begins one, which is as long as it can be. -/
theorem isCell_cons_takeWhile {c : Char} (inside : ¬ separatesCells c = true) (rest : List Char) :
    IsCell (c :: rest.takeWhile inCell) := by
  refine ⟨List.cons_ne_nil _ _, List.forall_mem_cons.mpr ⟨?_, fun d => List.mem_takeWhile_imp⟩⟩
  simpa [inCell] using inside

theorem separates_of_head_dropWhile {c : Char} (head : c ∈ (rest.dropWhile inCell).head?) :
    separatesCells c = true := by
  simpa [inCell] using head_dropWhile head

/-- Every text falls into separators and cells. -/
theorem exists_fallsInto (chars : List Char) : ∃ cells, FallsInto chars cells := by
  -- What is behind the first cell is shorter, but not the tail of the list.
  induction length : chars.length using Nat.strong_induction_on generalizing chars with
  | h size ih =>
    cases chars with
    | nil => exact ⟨[], .nil⟩
    | cons first rest =>
      rw [List.length_cons] at length
      by_cases separates : separatesCells first = true
      · obtain ⟨cells, later⟩ := ih rest.length (by omega) rest rfl
        exact ⟨cells, .separator separates later⟩
      · have shorter := (List.dropWhile_suffix inCell (l := rest)).sublist.length_le
        obtain ⟨cells, later⟩ := ih _ (by omega) (rest.dropWhile inCell) rfl
        have falls := FallsInto.cell (isCell_cons_takeWhile separates rest)
          (fun c => separates_of_head_dropWhile) later
        rw [List.cons_append, List.takeWhile_append_dropWhile] at falls
        exact ⟨_, falls⟩

theorem FallsInto.separators_append (falls : FallsInto rest cells)
    (separates : ∀ c ∈ gap, separatesCells c = true) : FallsInto (gap ++ rest) cells := by
  induction gap with
  | nil => exact falls
  | cons c gap ih =>
    obtain ⟨first, others⟩ := List.forall_mem_cons.mp separates
    exact .separator first (ih others)

theorem FallsInto.append_separators (falls : FallsInto chars cells)
    (separates : ∀ c ∈ gap, separatesCells c = true) : FallsInto (chars ++ gap) cells := by
  induction falls with
  | nil =>
    have none := FallsInto.nil.separators_append separates
    rwa [List.append_nil] at none
  | separator first later ih => exact .separator first ih
  | @cell cell rest cells whole ends later ih =>
    rw [List.append_assoc]
    refine .cell whole (fun c head => ?_) ih
    cases rest with
    | nil => exact separates c (List.mem_of_mem_head? head)
    | cons d rest => exact ends c head

/-! ## Splitting at the separators -/

/-- The pieces between separators, without the empty ones. -/
def solidPieces (chars : List Char) : List (List Char) :=
  (splitAtRuns separatesCells chars).filter fun piece => !piece.isEmpty

theorem solidPieces_nil : solidPieces [] = [] := by
  rw [solidPieces, splitAtRuns, List.filter_cons_of_neg (by simp), List.filter_nil]

/-- What belongs to cells goes to the first piece. -/
theorem splitAtRuns_append (solid : ∀ c ∈ chars, inCell c = true) (rest : List Char) :
    splitAtRuns separatesCells (chars ++ rest) =
      (splitAtRuns separatesCells rest).modifyHead (chars ++ ·) := by
  induction chars with
  | nil => exact (congrFun List.modifyHead_id _).symm
  | cons c chars ih =>
    obtain ⟨first, others⟩ := List.forall_mem_cons.mp solid
    have inside : ¬ separatesCells c = true := by simpa [inCell] using first
    rw [List.cons_append, splitAtRuns, if_neg inside, ih others, List.modifyHead_modifyHead]
    rfl

/-- A separator ends the piece in front of it, and the separators behind it belong to no piece. -/
theorem solidPieces_of_separator {c : Char} (separates : separatesCells c = true) (rest : List Char) :
    solidPieces (c :: rest) = solidPieces (rest.dropWhile separatesCells) := by
  rw [solidPieces, splitAtRuns, if_pos separates, List.filter_cons_of_neg (by simp), solidPieces]

theorem solidPieces_dropWhile (chars : List Char) :
    solidPieces (chars.dropWhile separatesCells) = solidPieces chars := by
  cases chars with
  | nil => rfl
  | cons c rest =>
    by_cases separates : separatesCells c = true
    · rw [List.dropWhile_cons_of_pos separates, solidPieces_of_separator separates]
    · rw [List.dropWhile_cons_of_neg separates]

theorem solidPieces_of_cell (whole : IsCell cell) (ends : ∀ c ∈ rest.head?, separatesCells c = true) :
    solidPieces (cell ++ rest) = cell :: solidPieces rest := by
  rw [solidPieces, splitAtRuns_append whole.solid]
  cases rest with
  | nil =>
    rw [splitAtRuns, List.modifyHead_cons, List.filter_cons_of_pos (by simp [whole.nonempty]),
      List.append_nil, List.filter_nil, solidPieces_nil]
  | cons c rest =>
    rw [splitAtRuns, if_pos (ends c rfl), List.modifyHead_cons,
      List.filter_cons_of_pos (by simp [whole.nonempty]), List.append_nil,
      solidPieces_of_separator (ends c rfl), solidPieces]

/-- The pieces that are left are the cells that a text falls into. -/
theorem FallsInto.solidPieces_eq (falls : FallsInto chars cells) : solidPieces chars = cells := by
  induction falls with
  | nil => exact solidPieces_nil
  | separator separates later ih => rw [solidPieces_of_separator separates, solidPieces_dropWhile, ih]
  | cell whole ends later ih => rw [solidPieces_of_cell whole ends, ih]

/-- Blanks are separators, so a line falls into the cells of what stands between the blanks. -/
theorem FallsInto.of_strips {inner : List Char} (strips : Strips line inner)
    (falls : FallsInto inner cells) : FallsInto line cells := by
  obtain ⟨blankBefore, blankAfter, -, -⟩ := strips
  refine (falls.append_separators fun c member => ?_).separators_append fun c member => ?_
  · simp [separatesCells, blankAfter c member]
  · simp [separatesCells, blankBefore c member]

theorem splitCells_of_fallsInto (falls : FallsInto line cells) : splitCells line = cells := by
  obtain ⟨found, inside⟩ := exists_fallsInto (strip line)
  have whole := inside.of_strips (strips_strip line)
  calc splitCells line = found := inside.solidPieces_eq
    _ = solidPieces line := whole.solidPieces_eq.symm
    _ = cells := falls.solidPieces_eq

/-- Splitting a line gives exactly the cells that it falls into. -/
theorem splitCells_eq_iff : splitCells line = cells ↔ FallsInto line cells := by
  refine ⟨?_, splitCells_of_fallsInto⟩
  rintro rfl
  obtain ⟨cells, falls⟩ := exists_fallsInto line
  rwa [splitCells_of_fallsInto falls]

/-! ## What a line begins with -/

theorem splitCells_nil : splitCells [] = [] :=
  splitCells_of_fallsInto .nil

theorem splitCells_append_of_separators {gap : List Char}
    (separates : ∀ c ∈ gap, separatesCells c = true) (rest : List Char) :
    splitCells (gap ++ rest) = splitCells rest :=
  splitCells_of_fallsInto ((splitCells_eq_iff.mp rfl).separators_append separates)

theorem splitCells_append_of_isCell {cell : List Char} (whole : IsCell cell) {rest : List Char}
    (ends : ∀ c ∈ rest.head?, separatesCells c = true) :
    splitCells (cell ++ rest) = cell :: splitCells rest :=
  splitCells_of_fallsInto (.cell whole ends (splitCells_eq_iff.mp rfl))

theorem splitCells_cons (c : Char) (rest : List Char) :
    splitCells (c :: rest) =
      if separatesCells c then splitCells rest
      else (c :: rest.takeWhile inCell) :: splitCells (rest.dropWhile inCell) := by
  split
  · rename_i separates
    exact splitCells_append_of_separators (List.forall_mem_singleton.mpr separates) rest
  · rename_i inside
    rw [← splitCells_append_of_isCell (isCell_cons_takeWhile inside rest)
      (fun c => separates_of_head_dropWhile), List.cons_append, List.takeWhile_append_dropWhile]

/-- Cells that are each followed by separators are found again. -/
theorem splitCells_flatMap {α : Type} {cell gap : α → List Char} (items : List α)
    (whole : ∀ x ∈ items, IsCell (cell x)) (apart : ∀ x ∈ items, gap x ≠ [])
    (separates : ∀ x ∈ items, ∀ c ∈ gap x, separatesCells c = true) :
    splitCells (items.flatMap fun x => cell x ++ gap x) = items.map cell := by
  induction items with
  | nil => rw [List.flatMap_nil, splitCells_nil, List.map_nil]
  | cons x items ih =>
    obtain ⟨wholeFirst, wholeRest⟩ := List.forall_mem_cons.mp whole
    obtain ⟨apartFirst, apartRest⟩ := List.forall_mem_cons.mp apart
    obtain ⟨separatesFirst, separatesRest⟩ := List.forall_mem_cons.mp separates
    rw [List.flatMap_cons, List.append_assoc, splitCells_append_of_isCell wholeFirst,
      splitCells_append_of_separators separatesFirst, ih wholeRest apartRest separatesRest,
      List.map_cons]
    intro c first
    obtain ⟨d, others, gapIs⟩ := List.exists_cons_of_ne_nil apartFirst
    rw [gapIs] at first separatesFirst
    obtain rfl : d = c := Option.some.inj first
    exact separatesFirst d List.mem_cons_self

end Text

end Abacus
