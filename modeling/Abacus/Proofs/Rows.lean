import Abacus.Matrix.Arithmetic
import Abacus.Proofs.Computation
import Abacus.Proofs.Tables

/-!
# Matrices and their rows

A matrix is determined by the list of its rows. Lists of numbers are the rows of a matrix if there is
at least one, and all have the same positive length.
-/

namespace Abacus.Matrix

theorem length_rows (a : Matrix) : a.rows.length = a.height := by
  rw [rows, List.length_map, Vector.length_toList]

theorem length_of_mem_rows {a : Matrix} {row : List Scalar} (member : row ∈ a.rows) :
    row.length = a.width := by
  obtain ⟨entries, -, rfl⟩ := List.mem_map.mp member
  exact entries.length_toList

theorem rows_ne_nil (a : Matrix) : a.rows ≠ [] := by
  rw [← List.length_pos_iff, length_rows]
  exact a.height_pos

/-- The entries of a matrix stand in its rows. -/
theorem exists_row (a : Matrix) (i : Fin a.height) (j : Fin a.width) :
    ∃ row, a.rows[i.val]? = some row ∧ row[j.val]? = some (a.get i j) := by
  refine ⟨a.entries[i].toList, ?_, ?_⟩
  · simp [rows]
  · simp [get]

/-- Two matrices with the same rows are the same. -/
theorem rows_inj {a b : Matrix} : a.rows = b.rows ↔ a = b := by
  refine ⟨fun same => ?_, fun same => same ▸ rfl⟩
  have heights : a.height = b.height := by rw [← length_rows, same, length_rows]
  have widths : a.width = b.width := by
    obtain ⟨row, first⟩ := List.exists_mem_of_ne_nil _ a.rows_ne_nil
    have second := first
    rw [same] at second
    rw [← length_of_mem_rows first, length_of_mem_rows second]
  obtain ⟨m, n, entries, tall, wide⟩ := a
  obtain ⟨m', n', others, tall', wide'⟩ := b
  obtain rfl : m = m' := heights
  obtain rfl : n = n' := widths
  have lists : entries.toList.map Vector.toList = others.toList.map Vector.toList := same
  have equal : entries = others := by
    rw [← Vector.toList_inj]
    exact List.map_injective_iff.mpr (fun _ _ => Vector.toList_inj.mp) lists
  rw [equal]

/-- All entries lie in the field exactly if the numbers in all rows do. -/
theorem over_iff {a : Matrix} {field : NumberField} :
    a.Over field ↔ ∀ row ∈ a.rows, ∀ x ∈ row, x.field = field := by
  constructor
  · intro inField row member x entry
    obtain ⟨entries, place, rfl⟩ := List.mem_map.mp member
    obtain ⟨i, inside, rfl⟩ := List.mem_iff_getElem.mp place
    obtain ⟨j, within, rfl⟩ := List.mem_iff_getElem.mp entry
    rw [Vector.length_toList] at inside within
    simpa [get] using inField ⟨i, inside⟩ ⟨j, within⟩
  · intro all i j
    refine all a.entries[i].toList (List.mem_map_of_mem ?_) (a.get i j) ?_
    · exact Vector.mem_toList_iff.mpr (Vector.getElem_mem i.isLt)
    · exact Vector.mem_toList_iff.mpr (Vector.getElem_mem j.isLt)

/-- The matrix made of lists of numbers has them for its rows. -/
theorem rows_of_ofRows? {rows : List (List Scalar)} {a : Matrix} (made : ofRows? rows = .ok a) :
    a.rows = rows := by
  simp only [ofRows?] at made
  split at made
  · cases made
  · split at made
    · cases made
    · cases made
      refine List.ext_getElem ?_ fun i inside _ => ?_
      · rw [length_rows]
      · simp [Matrix.rows]

/-- Rows of the same positive length, at least one of them, make a matrix. -/
theorem exists_ofRows? {rows : List (List Scalar)} {width : Nat} (some : rows ≠ []) (wide : 0 < width)
    (even : ∀ row ∈ rows, row.length = width) : ∃ a, ofRows? rows = .ok a := by
  have first : (rows.headD []).length = width := by
    obtain ⟨row, rest, rfl⟩ := List.exists_cons_of_ne_nil some
    exact even row List.mem_cons_self
  have noneUneven : rows.findIdx? (fun row => row.length != (rows.headD []).length) = none := by
    rw [List.findIdx?_eq_none_iff]
    intro row member
    rw [even row member, first, bne_self_eq_false]
  simp only [ofRows?]
  split
  case isTrue empty =>
    rw [first] at empty
    exact absurd empty wide.ne'
  case isFalse =>
    split
    case h_1 index uneven => cases noneUneven.symm.trans uneven
    case h_2 => exact ⟨_, rfl⟩

/-- The rows of a matrix make that matrix. -/
theorem ofRows?_rows (a : Matrix) : ofRows? a.rows = .ok a := by
  obtain ⟨b, made⟩ := exists_ofRows? a.rows_ne_nil a.width_pos fun _ => length_of_mem_rows
  rw [made, rows_inj.mp (rows_of_ofRows? made)]

end Abacus.Matrix
