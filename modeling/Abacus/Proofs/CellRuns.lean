import Abacus.Proofs.Cells

/-!
# Cells are the longest runs

The cells of a line are its longest runs of characters that are no separators, all of them and from left to
right. So cells that are written one after the other, with any separators between them and around them, are
found again, and a line in which certain cells are found is written in this way (`Text.splitCells_maximal_runs`).
-/

namespace Abacus.Text

/-! ## Longest runs -/

/-- From `start` up to `stop` all characters belong to cells, and those next to them on both sides do not. -/
structure MaximalRun (source : List Char) (start stop : Nat) : Prop where
  start_lt : start < stop
  stop_le : stop ≤ source.length
  solid : ∀ i c, start ≤ i → i < stop → source[i]? = some c → inCell c = true
  begins : ∀ i c, i + 1 = start → source[i]? = some c → inCell c = false
  ends : ∀ c, source[stop]? = some c → inCell c = false

namespace MaximalRun
variable {source : List Char} {start stop otherStart otherStop : Nat}

/-- No run begins within another one. -/
theorem start_le (run : MaximalRun source start stop) (other : MaximalRun source otherStart otherStop)
    (overlap : otherStart < stop) : otherStart ≤ start := by
  by_contra later
  have inside : otherStart - 1 < source.length := by
    have := run.stop_le
    omega
  have read := List.getElem?_eq_getElem inside
  have solid := run.solid _ _ (by omega) (by omega) read
  rw [other.begins _ _ (by omega) read] at solid
  cases solid

/-- No run ends within another one. -/
theorem stop_le_stop (run : MaximalRun source start stop) (other : MaximalRun source otherStart otherStop)
    (overlap : otherStart ≤ stop) : otherStop ≤ stop := by
  by_contra later
  have inside : stop < source.length := by
    have := other.stop_le
    omega
  have read := List.getElem?_eq_getElem inside
  have solid := other.solid _ _ overlap (by omega) read
  rw [run.ends _ read] at solid
  cases solid

/-- Runs that have a character in common are the same. -/
theorem eq_of_overlap (run : MaximalRun source start stop) (other : MaximalRun source otherStart otherStop)
    (left : otherStart < stop) (right : start < otherStop) : start = otherStart ∧ stop = otherStop := by
  have first := run.start_le other left
  have second := other.start_le run right
  have third := run.stop_le_stop other left.le
  have fourth := other.stop_le_stop run right.le
  omega

/-- A run begins with a character of a cell. -/
theorem exists_first (run : MaximalRun source start stop) : ∃ c, source[start]? = some c ∧ inCell c = true := by
  have inside : start < source.length := run.start_lt.trans_le run.stop_le
  have read := List.getElem?_eq_getElem inside
  exact ⟨_, read, run.solid _ _ le_rfl run.start_lt read⟩

/-- A cell between separators, or at an end of the source, is a run. -/
theorem of_isCell {front cell rest : List Char} (whole : IsCell cell)
    (begins : ∀ c ∈ front.getLast?, inCell c = false) (ends : ∀ c ∈ rest.head?, inCell c = false) :
    MaximalRun (front ++ (cell ++ rest)) front.length (front.length + cell.length) where
  start_lt := Nat.lt_add_of_pos_right (List.length_pos_of_ne_nil whole.nonempty)
  stop_le := by
    rw [List.length_append, List.length_append]
    omega
  solid i c first last read := by
    rw [List.getElem?_append_right first, List.getElem?_append_left (by omega)] at read
    exact whole.solid c (List.mem_of_getElem? read)
  begins i c last read := by
    rw [List.getElem?_append_left (by omega)] at read
    refine begins c ?_
    rw [List.getLast?_eq_getElem?, ← last]
    exact read
  ends c read := by
    rw [List.getElem?_append_right (by omega), List.getElem?_append_right (by omega)] at read
    refine ends c ?_
    rw [List.head?_eq_getElem?]
    rwa [Nat.add_sub_cancel_left, Nat.sub_self] at read

end MaximalRun

/-- What stands in the source from the first place up to the second. -/
def slice (source : List Char) (run : Nat × Nat) : List Char :=
  (source.drop run.1).take (run.2 - run.1)

/-- From a place on, `runs` are the longest runs of the source from left to right, and the cells stand there. -/
structure RunsFrom (source : List Char) (place : Nat) (runs : List (Nat × Nat)) (cells : List (List Char)) :
    Prop where
  slices : runs.map (slice source) = cells
  maximal : ∀ run ∈ runs, place ≤ run.1 ∧ MaximalRun source run.1 run.2
  apart : runs.Pairwise fun r s => r.2 < s.1
  /-- Every character that belongs to cells is in one of the runs. -/
  covers : ∀ i c, place ≤ i → source[i]? = some c → inCell c = true → ∃ run ∈ runs, run.1 ≤ i ∧ i < run.2

section Runs
variable {source chars front rest cell : List Char} {runs : List (Nat × Nat)} {cells : List (List Char)}
  {place start stop : Nat} {c : Char}

theorem slice_append (front cell rest : List Char) :
    slice (front ++ (cell ++ rest)) (front.length, front.length + cell.length) = cell := by
  rw [slice, List.drop_left, Nat.add_sub_cancel_left, List.take_left]

/-- A separator changes nothing but the place. -/
theorem RunsFrom.separator (later : RunsFrom source (place + 1) runs cells)
    (read : source[place]? = some c) (outside : inCell c = false) : RunsFrom source place runs cells where
  slices := later.slices
  maximal run member := (later.maximal run member).imp_left Nat.le_of_succ_le
  apart := later.apart
  covers i d after readThere inside := by
    refine later.covers i d ?_ readThere inside
    by_contra here
    obtain rfl : i = place := by omega
    obtain rfl : c = d := Option.some.inj (read.symm.trans readThere)
    rw [outside] at inside
    cases inside

/-- A run comes in front of those behind it. -/
theorem RunsFrom.run (later : RunsFrom source stop runs cells) (run : MaximalRun source start stop) :
    RunsFrom source start ((start, stop) :: runs) (slice source (start, stop) :: cells) where
  slices := by rw [List.map_cons, later.slices]
  maximal := by
    refine List.forall_mem_cons.mpr ⟨⟨le_rfl, run⟩, fun other member => ?_⟩
    obtain ⟨behind, maximal⟩ := later.maximal other member
    exact ⟨run.start_lt.le.trans behind, maximal⟩
  apart := by
    refine List.pairwise_cons.mpr ⟨fun other member => ?_, later.apart⟩
    obtain ⟨behind, maximal⟩ := later.maximal other member
    by_contra touching
    have within := run.stop_le_stop maximal (Nat.not_lt.mp touching)
    have := maximal.start_lt
    omega
  covers i c after read inside := by
    by_cases here : i < stop
    · exact ⟨(start, stop), List.mem_cons_self, after, here⟩
    · obtain ⟨other, member, within⟩ := later.covers i c (Nat.not_lt.mp here) read inside
      exact ⟨other, List.mem_cons_of_mem _ member, within⟩

/-- The cells that a text falls into are its longest runs, also behind a text with which it shares no run. -/
theorem FallsInto.exists_runsFrom (falls : FallsInto chars cells) (front : List Char)
    (parts : ∀ c ∈ front.getLast?, ∀ d ∈ chars.head?, inCell d = true → inCell c = false) :
    ∃ runs, RunsFrom (front ++ chars) front.length runs cells := by
  induction falls generalizing front with
  | nil =>
    refine ⟨[], rfl, nofun, .nil, fun i c after read => ?_⟩
    rw [List.append_nil, List.getElem?_eq_none after] at read
    cases read
  | @separator c rest cells separates later ih =>
    have outside : inCell c = false := by simp [inCell, separates]
    have partsLater : ∀ d ∈ (front ++ [c]).getLast?, ∀ e ∈ rest.head?, inCell e = true →
        inCell d = false := by
      intro d last _ _ _
      rw [List.getLast?_concat] at last
      obtain rfl := Option.some.inj last
      exact outside
    obtain ⟨runs, behind⟩ := ih (front ++ [c]) partsLater
    rw [List.length_append, List.append_assoc] at behind
    exact ⟨runs, behind.separator (by simp) outside⟩
  | @cell cell rest cells whole ends later ih =>
    have outside : ∀ c ∈ rest.head?, inCell c = false := fun c head => by simp [inCell, ends c head]
    have partsLater : ∀ d ∈ (front ++ cell).getLast?, ∀ e ∈ rest.head?, inCell e = true →
        inCell d = false := by
      intro _ _ e head inside
      rw [outside e head] at inside
      cases inside
    have begins : ∀ c ∈ front.getLast?, inCell c = false := by
      obtain ⟨first, others, rfl⟩ := List.exists_cons_of_ne_nil whole.nonempty
      exact fun c last => parts c last first rfl (whole.solid first List.mem_cons_self)
    obtain ⟨runs, behind⟩ := ih (front ++ cell) partsLater
    rw [List.length_append, List.append_assoc] at behind
    have all := behind.run (.of_isCell whole begins outside)
    rw [slice_append] at all
    exact ⟨_, all⟩

/-- All longest runs from the beginning of the source on are among them. -/
theorem RunsFrom.mem_iff (all : RunsFrom source 0 runs cells) :
    (start, stop) ∈ runs ↔ MaximalRun source start stop := by
  refine ⟨fun member => (all.maximal _ member).2, fun run => ?_⟩
  obtain ⟨c, read, inside⟩ := run.exists_first
  obtain ⟨other, member, first, last⟩ := all.covers start c (Nat.zero_le _) read inside
  obtain ⟨sameStart, sameStop⟩ := run.eq_of_overlap (all.maximal other member).2
    (first.trans_lt run.start_lt) last
  rwa [sameStart, sameStop]

end Runs

/-! ## Cells with separators between them -/

/-- The cells are written one after the other, with some separators between any two of them. -/
inductive Joined : (cells : List (List Char)) → (chars : List Char) → Prop
  | none : Joined [] []
  | one (cell : List Char) : Joined [cell] cell
  | more (cell : List Char) {next gap chars : List Char} {cells : List (List Char)} (apart : gap ≠ [])
      (separates : ∀ c ∈ gap, separatesCells c = true) (later : Joined (next :: cells) chars) :
      Joined (cell :: next :: cells) (cell ++ (gap ++ chars))

/-- The line is the cells with separators between them, and perhaps before the first and behind the last. -/
inductive Spaced (cells : List (List Char)) : (line : List Char) → Prop
  | intro {before chars after : List Char} (separatesBefore : ∀ c ∈ before, separatesCells c = true)
      (joined : Joined cells chars) (separatesAfter : ∀ c ∈ after, separatesCells c = true) :
      Spaced cells (before ++ (chars ++ after))

section Joined
variable {line chars : List Char} {cells : List (List Char)}

theorem Joined.fallsInto (joined : Joined cells chars) (whole : ∀ cell ∈ cells, IsCell cell) :
    FallsInto chars cells := by
  induction joined with
  | none => exact .nil
  | one cell =>
    have alone : FallsInto (cell ++ []) [cell] := .cell (whole cell List.mem_cons_self) nofun .nil
    rwa [List.append_nil] at alone
  | @more cell next gap chars cells apart separates later ih =>
    obtain ⟨wholeFirst, wholeRest⟩ := List.forall_mem_cons.mp whole
    refine .cell wholeFirst (fun c head => ?_) ((ih wholeRest).separators_append separates)
    rw [List.head?_append_of_ne_nil gap apart] at head
    exact separates c (List.mem_of_mem_head? head)

theorem Spaced.fallsInto (spaced : Spaced cells line) (whole : ∀ cell ∈ cells, IsCell cell) :
    FallsInto line cells := by
  obtain ⟨separatesBefore, joined, separatesAfter⟩ := spaced
  exact ((joined.fallsInto whole).append_separators separatesAfter).separators_append separatesBefore

theorem FallsInto.isCell (falls : FallsInto chars cells) : ∀ cell ∈ cells, IsCell cell := by
  induction falls with
  | nil => exact nofun
  | separator separates later ih => exact ih
  | cell whole ends later ih => exact List.forall_mem_cons.mpr ⟨whole, ih⟩

theorem Joined.exists_first {next : List Char} (joined : Joined (next :: cells) chars) (whole : IsCell next) :
    ∃ c rest, chars = c :: rest ∧ inCell c = true := by
  obtain ⟨first, others, rfl⟩ := List.exists_cons_of_ne_nil whole.nonempty
  have inside := whole.solid first List.mem_cons_self
  cases joined with
  | one => exact ⟨first, others, rfl, inside⟩
  | more => exact ⟨first, _, rfl, inside⟩

/-- Cells that a text falls into have separators between them: each of them is as long as it can be. -/
theorem FallsInto.spaced (falls : FallsInto line cells) : Spaced cells line := by
  induction falls with
  | nil =>
    have empty : Spaced [] ([] ++ ([] ++ [])) := .intro nofun .none nofun
    exact empty
  | @separator c rest cells separates later ih =>
    obtain ⟨separatesBefore, joined, separatesAfter⟩ := ih
    exact .intro (List.forall_mem_cons.mpr ⟨separates, separatesBefore⟩) joined separatesAfter
  | @cell cell rest cells whole ends later ih =>
    obtain @⟨before, chars, after, separatesBefore, joined, separatesAfter⟩ := ih
    cases cells with
    | nil =>
      cases joined
      have alone : Spaced [cell] ([] ++ (cell ++ (before ++ after))) :=
        .intro nofun (.one cell) (List.forall_mem_append.mpr ⟨separatesBefore, separatesAfter⟩)
      exact alone
    | cons next cells =>
      have apart : before ≠ [] := by
        rintro rfl
        obtain ⟨c, others, rfl, inside⟩ := joined.exists_first (later.isCell next List.mem_cons_self)
        have separates := ends c rfl
        simp [inCell, separates] at inside
      have spaced : Spaced (cell :: next :: cells) ([] ++ (cell ++ (before ++ chars) ++ after)) :=
        .intro nofun (.more cell apart separatesBefore joined) separatesAfter
      rwa [List.nil_append, List.append_assoc, List.append_assoc] at spaced

end Joined

/-- The cells of a line are exactly its longest runs of characters that are neither blank nor a comma nor a
semicolon, from left to right. A line is split into certain cells exactly if these are not empty and free of
separators and the line is written with separators between any two of them, and with any before and behind. -/
theorem splitCells_maximal_runs (line : List Char) :
    (∃ runs : List (Nat × Nat), splitCells line = runs.map (slice line) ∧
      (∀ start stop, (start, stop) ∈ runs ↔ MaximalRun line start stop) ∧
      runs.Pairwise fun r s => r.2 < s.1) ∧
    ∀ cells, splitCells line = cells ↔ (∀ cell ∈ cells, IsCell cell) ∧ Spaced cells line := by
  constructor
  · obtain ⟨runs, all⟩ := (splitCells_eq_iff.mp rfl : FallsInto line _).exists_runsFrom [] nofun
    exact ⟨runs, all.slices.symm, fun start stop => all.mem_iff, all.apart⟩
  · intro cells
    rw [splitCells_eq_iff]
    exact ⟨fun falls => ⟨falls.isCell, falls.spaced⟩, fun ⟨whole, spaced⟩ => spaced.fallsInto whole⟩

/-- Commas and semicolons at the ends are not stripped, and leave no cell. -/
example : splitCells " ,;1;; \t,-2/3 ,".toList = ["1".toList, "-2/3".toList] := by
  decide +kernel

end Abacus.Text
