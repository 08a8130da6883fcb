import Abacus.Proofs.RowModuli

/-!
# Row reduction where moduli differ

Nothing checks that the residues of a matrix have one modulus. Row reduction finds out where it combines two
of them, and it never combines anything with the numbers of a row of zeros. So what decides is whether
some row that is not zero holds a modulus other than that of the corner (`Matrix.Astray`). The passes keep
such rows, in the state of the forward pass (`Sweep`) and of the backward pass (`Climb`), until one of them
cannot be cleared or scaled.
-/

namespace Abacus
open Echelon (Staircase swap_above swap_below)
open Abacus.Matrix (Reduction)

/-! ## Steps that return a value or fail for the moduli -/

/-- The computation returns a value with the property `post`, or it fails for the moduli and `astray`
holds. -/
inductive ReturnsUnless {α : Type} (astray : Prop) (post : α → Prop) : Except Error α → Prop
  | returned {value : α} (holds : post value) : ReturnsUnless astray post (.ok value)
  | failed {error : Error} (kind : error.kind = .incompatibleModuli) (reason : astray) :
      ReturnsUnless astray post (.error error)

namespace ReturnsUnless
variable {α β : Type} {astray : Prop} {size : Nat}

theorem of_failsWith {post : α → Prop} {computation : Except Error α}
    (fails : FailsWith computation .incompatibleModuli) (reason : astray) :
    ReturnsUnless astray post computation := by
  obtain ⟨error, rfl, kind⟩ := fails
  exact .failed kind reason

theorem bind {post : α → Prop} {later : β → Prop} {first : Except Error α}
    {next : α → Except Error β} (ends : ReturnsUnless astray post first)
    (continued : ∀ value, post value → ReturnsUnless astray later (next value)) :
    ReturnsUnless astray later (first >>= next) := by
  cases ends with
  | returned holds => exact continued _ holds
  | failed kind reason => exact .failed kind reason

theorem imp {post later : α → Prop} {computation : Except Error α}
    (ends : ReturnsUnless astray post computation) (stronger : ∀ value, post value → later value) :
    ReturnsUnless astray later computation := by
  cases ends with
  | returned holds => exact .returned (stronger _ holds)
  | failed kind reason => exact .failed kind reason

theorem ofFnM {post : Fin size → α → Prop} {entry : Fin size → Except Error α}
    (each : ∀ i, ReturnsUnless astray (post i) (entry i)) :
    ReturnsUnless astray (fun values : Vector α size => ∀ i : Fin size, post i (values.get i))
      (Vector.ofFnM entry) := by
  rcases ofFnM_cases entry with ⟨values, computed, entries⟩ | ⟨i, error, failed, whole⟩
  · rw [computed]
    refine .returned fun i => ?_
    have ends := each i
    rw [entries] at ends
    cases ends with
    | returned holds => exact holds
  · have ends := each i
    rw [failed] at ends
    rw [whole]
    cases ends with
    | failed kind reason => exact .failed kind reason

/-- Steps through all numbers below `size`, from an invariant at `0` to the invariant at `size`. -/
theorem foldlM_finRange {σ : Type} {size : Nat} {invariant : Nat → σ → Prop}
    {step : σ → Fin size → Except Error σ}
    (kept : ∀ state (i : Fin size), invariant i state →
      ReturnsUnless astray (invariant (i + 1)) (step state i))
    {state : σ} (start : invariant 0 state) :
    ReturnsUnless astray (invariant size) ((List.finRange size).foldlM step state) := by
  induction size generalizing invariant state with
  | zero => exact .returned start
  | succ size ih =>
    rw [List.finRange_succ, List.foldlM_cons]
    refine (kept state 0 start).bind fun next holds => ?_
    rw [List.foldlM_map]
    exact @ih (fun i => invariant (i + 1)) _ (fun state i => kept state i.succ) _ holds

/-- Steps through a list, with an invariant of what is still ahead. -/
theorem foldlM {σ : Type} {invariant : List β → σ → Prop} {step : σ → β → Except Error σ}
    (kept : ∀ state x ahead, invariant (x :: ahead) state →
      ReturnsUnless astray (invariant ahead) (step state x))
    {list : List β} {state : σ} (start : invariant list state) :
    ReturnsUnless astray (invariant []) (list.foldlM step state) := by
  induction list generalizing state with
  | nil => exact .returned start
  | cons x ahead ih =>
    rw [List.foldlM_cons]
    exact (kept state x ahead start).bind fun next holds => ih holds

end ReturnsUnless

/-- A row is cleared unless it goes astray or the pivot row does. -/
theorem Clears.returnsUnless {width : Nat} {p : Modulus} {astray : Prop}
    {source target : Vector Scalar width} {column : Fin width} {computation : Except Error (Vector Scalar width)}
    (clears : Clears source target column computation) (occupied : (source.get column).isZero = false)
    (reason : Strays p target ∨ Strays p source → astray) :
    ReturnsUnless astray (fun result => Clears source target column (.ok result)) computation := by
  cases computation with
  | ok result => exact .returned clears
  | error error =>
    cases clears with
    | apart kind targetOccupied differ =>
      refine .failed kind (reason ?_)
      by_cases same : RowModulo p source
      · exact .inl ⟨⟨column, targetOccupied⟩, fun modulo => differ p ⟨same, modulo⟩⟩
      · exact .inr ⟨⟨column, occupied⟩, same⟩

section Passes
variable {height width : Nat} {p : Modulus} {astray : Prop} {state : Reduction height width}

/-! ## The forward pass -/

/-- The forward pass in front of `column`. No pivot is zero, the rows below are zero in its column, and the
rows below all pivots are zero up to `column`. Some row goes astray exactly if `astray` holds. -/
structure Sweep (p : Modulus) (astray : Prop) (column : Nat) (state : Reduction height width) : Prop where
  residues : ∀ i : Fin height, RowOfResidues (state.work.get i)
  determinant : state.determinant.field = .residues p.value
  stairs : Staircase state.pivots
  left : ∀ pivot ∈ state.pivots, pivot.2.val < column
  lead : ∀ pivot ∈ state.pivots, ((state.work.get pivot.1).get pivot.2).isZero = false
  below : ∀ pivot ∈ state.pivots, ∀ i : Fin height, pivot.1 < i →
    ((state.work.get i).get pivot.2).isZero = true
  rest : ∀ i : Fin height, state.pivots.length ≤ i.val → ∀ j : Fin width, j.val < column →
    ((state.work.get i).get j).isZero = true
  astray_iff : astray ↔ ∃ i : Fin height, Strays p (state.work.get i)

namespace Sweep

theorem skip {column : Fin width} (sweep : Sweep p astray column state)
    (none : ∀ i : Fin height, state.pivots.length ≤ i.val → ((state.work.get i).get column).isZero = true) :
    Sweep p astray (column + 1) state where
  residues := sweep.residues
  determinant := sweep.determinant
  stairs := sweep.stairs
  left pivot member := Nat.lt_succ_of_lt (sweep.left pivot member)
  lead := sweep.lead
  below := sweep.below
  rest i lower j upTo := by
    rcases Nat.lt_succ_iff_lt_or_eq.mp upTo with before | here
    · exact sweep.rest i lower j before
    · rw [Fin.ext here]
      exact none i lower
  astray_iff := sweep.astray_iff

theorem swap_get (work : Vector (Vector Scalar width) height) (row found i : Fin height) :
    (work.swap row found row.isLt found.isLt).get i = work.get (Equiv.swap row found i) := by
  show getElem (work.swap row found row.isLt found.isLt) i.val i.isLt = _
  simp only [Vector.getElem_swap, Equiv.swap_apply_def, Fin.ext_iff]
  split
  · rfl
  · split <;> rfl

/-- Two rows below the pivots exchanged. -/
theorem exchange {column : Nat} (sweep : Sweep p astray column state) {row found : Fin height}
    (rowBelow : state.pivots.length ≤ row.val) (foundBelow : state.pivots.length ≤ found.val)
    {determinant : Scalar} (modulo : determinant.field = .residues p.value) :
    Sweep p astray column
      { state with work := state.work.swap row found row.isLt found.isLt, determinant } := by
  refine ⟨?_, modulo, sweep.stairs, sweep.left, ?_, ?_, ?_, ?_⟩
  · intro i
    rw [swap_get]
    exact sweep.residues _
  · intro pivot member
    rw [swap_get, swap_above rowBelow foundBelow (sweep.stairs.row_lt pivot member)]
    exact sweep.lead pivot member
  · intro pivot member i under
    rw [swap_get]
    refine sweep.below pivot member _ ?_
    rcases Nat.lt_or_ge i state.pivots.length with inside | outside
    · rwa [swap_above rowBelow foundBelow inside]
    · have lower := swap_below rowBelow foundBelow outside
      exact Fin.lt_def.mpr (lt_of_lt_of_le (sweep.stairs.row_lt pivot member) lower)
  · intro i below j before
    rw [swap_get]
    exact sweep.rest _ (swap_below rowBelow foundBelow below) j before
  · rw [sweep.astray_iff]
    simp only [swap_get]
    exact (Equiv.swap row found).exists_congr_left

/-- Clearing rows below a pivot keeps whether some row goes astray: a row that changes has the moduli of the
pivot row, before and after. -/
theorem exists_strays_iff {row : Fin height} {column : Fin width}
    {work next : Vector (Vector Scalar width) height}
    (occupied : ((work.get row).get column).isZero = false)
    (upper : ∀ i : Fin height, i ≤ row → next.get i = work.get i)
    (lower : ∀ i : Fin height, row < i →
      Clears (work.get row) (work.get i) column (.ok (next.get i))) :
    (∃ i : Fin height, Strays p (work.get i)) ↔ ∃ i : Fin height, Strays p (next.get i) := by
  constructor
  · rintro ⟨i, strays⟩
    rcases le_or_gt i row with within | under
    · exact ⟨i, (upper i within).symm ▸ strays⟩
    · rcases ((lower i under).strays_iff occupied).mpr (.inl strays) with result | source
      · exact ⟨i, result⟩
      · exact ⟨row, (upper row le_rfl).symm ▸ source⟩
  · rintro ⟨i, strays⟩
    rcases le_or_gt i row with within | under
    · exact ⟨i, upper i within ▸ strays⟩
    · rcases ((lower i under).strays_iff occupied).mp (.inl strays) with target | source
      · exact ⟨i, target⟩
      · exact ⟨row, source⟩

/-- Clearing a column below its pivot makes the pivot a new step of the staircase. -/
theorem clear {row : Fin height} {column : Fin width} (sweep : Sweep p astray column state)
    (next : row.val = state.pivots.length) (occupied : ((state.work.get row).get column).isZero = false)
    {work : Vector (Vector Scalar width) height}
    (upper : ∀ i : Fin height, i ≤ row → work.get i = state.work.get i)
    (lower : ∀ i : Fin height, row < i →
      Clears (state.work.get row) (state.work.get i) column (.ok (work.get i))) :
    Sweep p astray (column + 1) { state with work, pivots := (row, column) :: state.pivots } := by
  have above : ∀ pivot ∈ state.pivots, pivot.1 < row := fun pivot member =>
    Fin.lt_def.mpr (lt_of_lt_of_eq (sweep.stairs.row_lt pivot member) next.symm)
  refine ⟨?_, sweep.determinant, sweep.stairs.cons next sweep.left, ?_, ?_, ?_, ?_, ?_⟩
  · intro i
    rcases le_or_gt i row with within | under
    · rw [upper i within]
      exact sweep.residues i
    · exact (lower i under).ofResidues (sweep.residues i)
  · intro pivot member
    rcases List.mem_cons.mp member with rfl | old
    · exact Nat.lt_succ_self _
    · exact Nat.lt_succ_of_lt (sweep.left pivot old)
  · intro pivot member
    rcases List.mem_cons.mp member with rfl | old
    · rwa [upper row le_rfl]
    · rw [upper pivot.1 (above pivot old).le]
      exact sweep.lead pivot old
  · intro pivot member i under
    rcases List.mem_cons.mp member with rfl | old
    · exact (lower i under).isZero_column
    · rcases le_or_gt i row with within | further
      · rw [upper i within]
        exact sweep.below pivot old i under
      · rw [(lower i further).isZero_eq (sweep.below pivot old row (above pivot old))]
        exact sweep.below pivot old i under
  · intro i outside j upTo
    rw [List.length_cons] at outside
    have under : row < i := Fin.lt_def.mpr (by omega)
    rcases Nat.lt_succ_iff_lt_or_eq.mp upTo with before | here
    · rw [(lower i under).isZero_eq (sweep.rest row next.ge j before)]
      exact sweep.rest i (by omega) j before
    · rw [Fin.ext here]
      exact (lower i under).isZero_column
  · exact sweep.astray_iff.trans (exists_strays_iff occupied upper lower)

/-- Clearing one row in a column with a pivot. -/
theorem clearBelow {column : Fin width} (sweep : Sweep p astray column state) {row : Fin height}
    (occupied : ((state.work.get row).get column).isZero = false) (i : Fin height) :
    ReturnsUnless astray
      (fun result => (i ≤ row → result = state.work.get i) ∧
        (row < i → Clears (state.work.get row) (state.work.get i) column (.ok result)))
      (if row < i then Reduction.clearBelow (state.work.get row) column (state.work.get i)
      else .ok (state.work.get i)) := by
  split
  case isFalse within => exact .returned ⟨fun _ => rfl, fun under => absurd under within⟩
  case isTrue under =>
    have reason : Strays p (state.work.get i) ∨ Strays p (state.work.get row) → astray := fun strays =>
      sweep.astray_iff.mpr (strays.elim (fun target => ⟨i, target⟩) fun source => ⟨row, source⟩)
    have clears := clears_clearBelow (sweep.residues row) (sweep.residues i) occupied
    refine (clears.returnsUnless occupied reason).imp fun result cleared => ?_
    exact ⟨fun within => absurd under within.not_gt, fun _ => cleared⟩

/-- The forward pass at one column. -/
theorem forward {column : Fin width} (sweep : Sweep p astray column state) :
    ReturnsUnless astray (Sweep p astray (column + 1)) (state.forward column) := by
  cases found : Reduction.pivotRow? state.work state.pivots.length column with
  | none =>
    simp only [Reduction.forward, found]
    exact .returned (sweep.skip fun i => Reduction.isZero_of_pivotRow? found i)
  | some foundRow =>
    obtain ⟨below, occupied⟩ := Reduction.occupied_of_pivotRow? found
    have inside : state.pivots.length < height := lt_of_le_of_lt below foundRow.isLt
    obtain ⟨row, next⟩ : ∃ row : Fin height, row.val = state.pivots.length := ⟨⟨_, inside⟩, rfl⟩
    have sign : (if foundRow = row then state.determinant else state.determinant.negate).field =
        .residues p.value := by
      split
      · exact sweep.determinant
      · exact (field_negate _).trans sweep.determinant
    have exchanged := sweep.exchange next.ge below sign
    have lead : (((state.work.swap row foundRow row.isLt foundRow.isLt).get row).get column).isZero =
        false := by
      rw [swap_get, Equiv.swap_apply_left]
      exact occupied
    obtain rfl : row = ⟨state.pivots.length, inside⟩ := Fin.ext next
    simp only [Reduction.forward, found, dif_pos inside]
    refine .bind (.ofFnM fun i => exchanged.clearBelow lead i) fun work cleared => .returned ?_
    exact exchanged.clear rfl lead (fun i => (cleared i).1) fun i => (cleared i).2

end Sweep

/-! ## The backward pass -/

/-- The backward pass with the pivots in `ahead` still to be scaled. Every row that goes astray has one of
them. -/
structure Climb (p : Modulus) (astray : Prop) (ahead : List (Fin height × Fin width))
    (state : Reduction height width) : Prop where
  residues : ∀ i : Fin height, RowOfResidues (state.work.get i)
  determinant : state.determinant.field = .residues p.value
  lead : ∀ pivot ∈ ahead, ((state.work.get pivot.1).get pivot.2).isZero = false
  below : ∀ pivot ∈ ahead, ∀ i : Fin height, pivot.1 < i → ((state.work.get i).get pivot.2).isZero = true
  astray_iff : astray ↔ ∃ i : Fin height, Strays p (state.work.get i)
  accounted : ∀ i : Fin height, Strays p (state.work.get i) → ∃ j, (i, j) ∈ ahead

/-- The forward pass ends where the backward pass begins. -/
theorem Sweep.turn (sweep : Sweep p astray width state) : Climb p astray state.pivots state where
  residues := sweep.residues
  determinant := sweep.determinant
  lead := sweep.lead
  below := sweep.below
  astray_iff := sweep.astray_iff
  accounted i strays := by
    refine sweep.stairs.covered i (not_le.mp fun outside => ?_)
    obtain ⟨⟨j, nonzero⟩, -⟩ := strays
    rw [sweep.rest i outside j j.isLt] at nonzero
    cases nonzero

namespace Climb
variable {pivot : Fin height × Fin width} {ahead : List (Fin height × Fin width)}

/-- A pivot modulo `p` is counted in the determinant, and has an inverse. -/
theorem exists_pivot (climb : Climb p astray (pivot :: ahead) state)
    (same : ((state.work.get pivot.1).get pivot.2).field = .residues p.value) :
    ∃ d x : ZMod p.value, x ≠ 0 ∧
      (state.work.get pivot.1).get pivot.2 = (Residue.representation p).encode x ∧
      state.determinant.multiply ((state.work.get pivot.1).get pivot.2) =
        .ok ((Residue.representation p).encode d) ∧
      ((state.work.get pivot.1).get pivot.2).reciprocal = .ok ((Residue.representation p).encode x⁻¹) := by
  obtain ⟨d, determinant⟩ := exists_encode climb.determinant
  obtain ⟨x, value⟩ := exists_encode same
  have occupied := climb.lead pivot List.mem_cons_self
  rw [value] at occupied
  have nonzero := ne_zero_of_occupied occupied
  refine ⟨d * x, x, nonzero, value, ?_, ?_⟩
  · rw [determinant, value, (Residue.representation p).multiply]
  · rw [value, (Residue.representation p).reciprocal x nonzero]

/-- A pivot row with a foreign modulus cannot be scaled, or its pivot not be counted in the determinant. -/
theorem backward_of_strays (climb : Climb p astray (pivot :: ahead) state)
    (differ : ¬ RowModulo p (state.work.get pivot.1)) :
    FailsWith (state.backward pivot) .incompatibleModuli := by
  by_cases same : ((state.work.get pivot.1).get pivot.2).field = .residues p.value
  · obtain ⟨d, x, -, -, product, inverse⟩ := climb.exists_pivot same
    refine .after product (.after inverse (.bind ?_ _))
    refine ofFnM_combine_failsWith (climb.residues pivot.1) differ ?_ ?_
    · intro j residue foreign
      exact combine_failsWith residue ⟨p, _, rfl⟩ foreign _ _
    · intro j modulo
      obtain ⟨y, entry⟩ : ∃ y, state.work[pivot.1][j] = (Residue.representation p).encode y :=
        exists_encode modulo
      rw [entry, (Residue.representation p).multiply]
      exact ⟨_, rfl⟩
  · refine FailsWith.bind ?_ _
    obtain ⟨d, determinant⟩ := exists_encode climb.determinant
    refine combine_failsWith ?_ (climb.residues pivot.1 pivot.2) ?_ _ _
    · rw [determinant]
      exact ⟨p, _, rfl⟩
    · rw [climb.determinant]
      exact fun equal => same equal.symm

/-- A pivot row whose numbers are all modulo `p` does not go astray, nor does clearing its column make another
row do so. -/
theorem settle (climb : Climb p astray (pivot :: ahead) state)
    (modulo : RowModulo p (state.work.get pivot.1)) {scaled : Vector Scalar width}
    (scaledModulo : RowModulo p scaled)
    (zeros : ∀ j : Fin width, (scaled.get j).isZero = ((state.work.get pivot.1).get j).isZero)
    {determinant : Scalar} (determinantModulo : determinant.field = .residues p.value)
    {work : Vector (Vector Scalar width) height} (middle : work.get pivot.1 = scaled)
    (lower : ∀ i : Fin height, pivot.1 < i → work.get i = state.work.get i)
    (upper : ∀ i : Fin height, i < pivot.1 → Clears scaled (state.work.get i) pivot.2 (.ok (work.get i))) :
    Climb p astray ahead { state with work, determinant } := by
  have occupied : (scaled.get pivot.2).isZero = false := by
    rw [zeros]
    exact climb.lead pivot List.mem_cons_self
  have below : ∀ {i : Fin height} {j : Fin width}, pivot.1 ≤ i →
      ((work.get i).get j).isZero = ((state.work.get i).get j).isZero := by
    intro i j within
    rcases eq_or_lt_of_le within with rfl | under
    · rw [middle, zeros]
    · rw [lower i under]
  have above : ∀ {i : Fin height} {j : Fin width}, i < pivot.1 →
      ((state.work.get pivot.1).get j).isZero = true →
        ((work.get i).get j).isZero = ((state.work.get i).get j).isZero := by
    intro i j higher zero
    exact (upper i higher).isZero_eq ((zeros j).trans zero)
  have strays : ∀ i : Fin height, Strays p (work.get i) ↔ Strays p (state.work.get i) := by
    intro i
    rcases lt_trichotomy i pivot.1 with higher | rfl | under
    · have kept := (upper i higher).strays_iff (p := p) occupied
      rwa [or_iff_left (fun source => source.2 scaledModulo),
        or_iff_left (fun source => source.2 scaledModulo)] at kept
    · rw [middle]
      exact iff_of_false (fun source => source.2 scaledModulo) fun source => source.2 modulo
    · rw [lower i under]
  refine ⟨?_, determinantModulo, ?_, ?_, ?_, ?_⟩
  · intro i
    rcases lt_trichotomy i pivot.1 with higher | rfl | under
    · exact (upper i higher).ofResidues (climb.residues i)
    · rw [middle]
      exact scaledModulo.ofResidues
    · rw [lower i under]
      exact climb.residues i
  · intro q later
    have lead := climb.lead q (List.mem_cons_of_mem _ later)
    rcases lt_or_ge q.1 pivot.1 with higher | within
    · rwa [above higher (climb.below q (List.mem_cons_of_mem _ later) pivot.1 higher)]
    · rwa [below within]
  · intro q later i under
    have zero := climb.below q (List.mem_cons_of_mem _ later)
    rcases lt_or_ge i pivot.1 with higher | within
    · rw [above higher (zero pivot.1 (under.trans higher))]
      exact zero i under
    · rw [below within]
      exact zero i under
  · rw [climb.astray_iff]
    exact exists_congr fun i => (strays i).symm
  · intro i foreign
    have before := (strays i).mp foreign
    obtain ⟨j, member⟩ := climb.accounted i before
    rcases List.mem_cons.mp member with rfl | later
    · exact absurd modulo before.2
    · exact ⟨j, later⟩

/-- Clearing one row above a pivot that is one. -/
theorem clearAbove (climb : Climb p astray (pivot :: ahead) state) {s : Fin width → ZMod p.value}
    (one : s pivot.2 = 1) (i : Fin height) :
    ReturnsUnless astray
      (fun result =>
        (i < pivot.1 → Clears ((Residue.representation p).row s) (state.work.get i) pivot.2 (.ok result)) ∧
        (i = pivot.1 → result = (Residue.representation p).row s) ∧
        (pivot.1 < i → result = state.work.get i))
      (if i < pivot.1 then
        Reduction.clearAbove ((Residue.representation p).row s) pivot.2 (state.work.get i)
      else .ok (if i = pivot.1 then (Residue.representation p).row s else state.work.get i)) := by
  split
  case isFalse within =>
    refine .returned ⟨fun higher => absurd higher within, fun here => if_pos here, fun under => ?_⟩
    exact if_neg under.ne'
  case isTrue higher =>
    have occupied : (((Residue.representation p).row s).get pivot.2).isZero = false := by
      rw [get_row, one]
      exact Bool.eq_false_iff.mpr fun zero => one_ne_zero (((Residue.representation p).isZero_iff 1).mp zero)
    have reason : Strays p (state.work.get i) ∨ Strays p ((Residue.representation p).row s) → astray :=
      fun strays => climb.astray_iff.mpr
        ⟨i, strays.resolve_right fun source => source.2 (rowModulo_row s)⟩
    have clears := clears_clearAbove one (climb.residues i)
    refine (clears.returnsUnless occupied reason).imp fun result cleared => ?_
    exact ⟨fun _ => cleared, fun here => absurd higher here.not_lt, fun under => absurd higher under.not_gt⟩

/-- The backward pass at one pivot. -/
theorem backward (climb : Climb p astray (pivot :: ahead) state) :
    ReturnsUnless astray (Climb p astray ahead) (state.backward pivot) := by
  have lead := climb.lead pivot List.mem_cons_self
  by_cases modulo : RowModulo p (state.work.get pivot.1)
  case neg =>
    exact .of_failsWith (climb.backward_of_strays modulo)
      (climb.astray_iff.mpr ⟨pivot.1, ⟨pivot.2, lead⟩, modulo⟩)
  case pos =>
    let rep := Residue.representation p
    obtain ⟨d, x, nonzero, value, product, inverse⟩ := climb.exists_pivot (modulo pivot.2)
    obtain ⟨s, source⟩ := modulo.exists_row
    have one : s pivot.2 * x⁻¹ = 1 := by
      rw [source, get_row] at value
      rw [rep.encode_inj.mp value, mul_inv_cancel₀ nonzero]
    have scaled : Vector.ofFnM (fun j : Fin width =>
        ((state.work.get pivot.1).get j).multiply (rep.encode x⁻¹)) = .ok (rep.row fun j => s j * x⁻¹) := by
      refine ofFnM_eq_ok fun j => ?_
      rw [source, get_row, rep.multiply]
    have zeros : ∀ j : Fin width, ((rep.row fun j => s j * x⁻¹).get j).isZero =
        ((state.work.get pivot.1).get j).isZero := by
      rw [source]
      exact isZero_scaled s (inv_ne_zero nonzero)
    have first : state.backward pivot = _ :=
      (bind_eq_of_ok product _).trans ((bind_eq_of_ok inverse _).trans (bind_eq_of_ok scaled _))
    rw [first]
    refine .bind (.ofFnM fun i => climb.clearAbove one i) fun work cleared => .returned ?_
    exact climb.settle modulo (rowModulo_row _) zeros (rep.field_encode _) ((cleared pivot.1).2.1 rfl)
      (fun i => (cleared i).2.2) fun i => (cleared i).1

end Climb

end Passes

/-! ## The reduction as a whole -/

namespace Matrix

/-- Some row that is not zero holds a number of another field than the number in the corner. -/
def Astray (a : Matrix) : Prop :=
  ∃ i j k, (a.get i j).isZero = false ∧ (a.get i k).field ≠ a.corner.field

instance (a : Matrix) : Decidable a.Astray :=
  inferInstanceAs (Decidable (∃ i j k, (a.get i j).isZero = false ∧ (a.get i k).field ≠ a.corner.field))

theorem astray_iff {a : Matrix} {p : Modulus} (corner : a.corner.field = .residues p.value) :
    a.Astray ↔ ∃ i : Fin a.height, Strays p (a.entries.get i) := by
  rw [Astray, corner]
  refine exists_congr fun i => ?_
  constructor
  · rintro ⟨j, k, nonzero, foreign⟩
    exact ⟨⟨j, nonzero⟩, fun modulo => foreign (modulo k)⟩
  · rintro ⟨⟨j, nonzero⟩, differ⟩
    obtain ⟨k, foreign⟩ := exists_differs differ
    exact ⟨j, k, nonzero, foreign⟩

/-- Both passes run through exactly if no row goes astray. -/
theorem returnsUnless_reduce {a : Matrix} (residues : ∀ i j, (a.get i j).IsResidue) :
    ReturnsUnless a.Astray (fun _ => ¬ a.Astray) a.reduce := by
  obtain ⟨p, x, value⟩ := residues ⟨0, a.height_pos⟩ ⟨0, a.width_pos⟩
  have corner : a.corner = .residue p x := value
  have modulo : a.corner.field = .residues p.value := by
    rw [corner]
    rfl
  have one : a.corner.oneLike.field = .residues p.value := by
    rw [corner]
    rfl
  have start : Sweep p a.Astray 0 ⟨a.entries, a.corner.oneLike, []⟩ := by
    refine ⟨residues, one, .nil, ?_, ?_, ?_, ?_, astray_iff modulo⟩ <;> simp
  have down := ReturnsUnless.foldlM_finRange (fun _ _ sweep => sweep.forward) start
  refine down.bind fun turned sweep => ?_
  have up := ReturnsUnless.foldlM (fun _ _ _ climb => climb.backward) sweep.turn
  refine up.bind fun reduced climb => ?_
  refine .returned fun astray => ?_
  obtain ⟨i, strays⟩ := climb.astray_iff.mp astray
  obtain ⟨j, ahead⟩ := climb.accounted i strays
  cases ahead

/-- A matrix of residues is reduced exactly if every row that is not zero keeps to the modulus of the corner.
Otherwise reduction fails for the moduli. A row of zeros may hold any. -/
theorem reduce_foreign_moduli {a : Matrix} (residues : ∀ i j, (a.get i j).IsResidue) :
    (a.Astray → FailsWith a.reduce .incompatibleModuli ∧ FailsWith a.rank .incompatibleModuli ∧
      FailsWith a.determinant .incompatibleModuli) ∧
    (¬ a.Astray → ∃ r, a.reduce = .ok r ∧ a.rank = .ok r.rank ∧ a.determinant = .ok r.determinant) := by
  have ends := returnsUnless_reduce residues
  cases result : a.reduce with
  | ok r =>
    rw [result] at ends
    cases ends with
    | returned kept =>
      refine ⟨fun astray => absurd astray kept, fun _ => ⟨r, rfl, ?_, ?_⟩⟩
      · rw [rank, result]
        rfl
      · rw [determinant, result]
        rfl
  | error error =>
    rw [result] at ends
    cases ends with
    | failed kind astray =>
      refine ⟨fun _ => ⟨⟨error, rfl, kind⟩, ⟨error, ?_, kind⟩, ⟨error, ?_, kind⟩⟩, fun kept => ?_⟩
      · rw [rank, result]
        rfl
      · rw [determinant, result]
        rfl
      · exact absurd astray kept

/-- One modulo five above a number modulo seven. -/
def oneAbove (x : Residue .seven) : Matrix where
  height := 2
  width := 1
  entries := .ofFn ![.ofFn ![.residue .five (.one .five)], .ofFn ![.residue .seven x]]
  height_pos := Nat.two_pos
  width_pos := Nat.one_pos

theorem oneAbove_isResidue (x : Residue .seven) : ∀ i j, ((oneAbove x).get i j).IsResidue := by
  intro i j
  fin_cases i <;> fin_cases j
  · exact ⟨.five, _, rfl⟩
  · exact ⟨.seven, _, rfl⟩

/-- A one below is taken notice of, a zero is not. -/
theorem reduce_foreign_moduli_oneAbove :
    FailsWith (oneAbove (.one .seven)).reduce .incompatibleModuli ∧
      ∃ r, (oneAbove (.zero .seven)).reduce = .ok r := by
  refine ⟨((reduce_foreign_moduli (oneAbove_isResidue _)).1 (by decide)).1, ?_⟩
  obtain ⟨r, reduced, -⟩ := (reduce_foreign_moduli (oneAbove_isResidue (.zero .seven))).2 (by decide)
  exact ⟨r, reduced⟩

/-- Not every matrix that mixes moduli is rejected. -/
theorem not_reduce_fails_of_moduli :
    ¬ ∀ a : Matrix, (∀ i j, (a.get i j).IsResidue) →
      (∀ field, ¬ a.Over field) → FailsWith a.reduce .incompatibleModuli := by
  intro always
  have mixed : ∀ field, ¬ (oneAbove (.zero .seven)).Over field := by
    intro field same
    have upper : NumberField.residues 5 = field := same ⟨0, two_pos⟩ ⟨0, one_pos⟩
    have lower : NumberField.residues 7 = field := same ⟨1, one_lt_two⟩ ⟨0, one_pos⟩
    exact absurd (upper.trans lower.symm) (by decide)
  obtain ⟨error, failed, -⟩ := always _ (oneAbove_isResidue _) mixed
  have ends := returnsUnless_reduce (oneAbove_isResidue (.zero .seven))
  rw [failed] at ends
  cases ends with
  | failed kind astray => exact absurd astray (by decide)

end Matrix

end Abacus
