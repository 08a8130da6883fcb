import Mathlib.LinearAlgebra.Matrix.Determinant.Basic
import Mathlib.LinearAlgebra.Matrix.Echelon.Pivot
import Mathlib.LinearAlgebra.Matrix.NonsingularInverse

/-!
# Reduced echelon forms

Tables over a field and what row operations keep of them. A reduced row echelon form is determined
by the space that its rows span (`eq_of_rowSpace_eq`), and its rank counts the rows that are not
zero (`rank_eq_of_nonzero_rows`).
-/

namespace Echelon

/-- Elements of `K` in rows and columns. -/
abbrev Table (K : Type*) (height width : ℕ) := Matrix (Fin height) (Fin width) K

variable {K : Type*} [Field K] {height width : ℕ}

/-- The space that the rows span. -/
def rowSpace (A : Table K height width) : Submodule K (Fin width → K) :=
  Submodule.span K (Set.range A.row)

theorem row_mem_rowSpace (A : Table K height width) (i : Fin height) : A i ∈ rowSpace A :=
  Submodule.subset_span (Set.mem_range_self i)

/-- The members of the row space are the linear combinations of the rows. -/
theorem mem_rowSpace_iff {A : Table K height width} {v : Fin width → K} :
    v ∈ rowSpace A ↔ ∃ a : Fin height → K, ∑ i, a i • A i = v :=
  Submodule.mem_span_range_iff_exists_fun K

theorem finrank_rowSpace (A : Table K height width) : Module.finrank K (rowSpace A) = A.rank :=
  A.rank_eq_finrank_span_row.symm

theorem mul_row_mem_rowSpace {inner : ℕ} (P : Table K height inner) (A : Table K inner width)
    (i : Fin height) : (P * A) i ∈ rowSpace A := by
  refine mem_rowSpace_iff.mpr ⟨P i, ?_⟩
  funext j
  simp only [Finset.sum_apply, Pi.smul_apply, smul_eq_mul, Matrix.mul_apply]

theorem rowSpace_mul_le {inner : ℕ} (P : Table K height inner) (A : Table K inner width) :
    rowSpace (P * A) ≤ rowSpace A := by
  refine Submodule.span_le.mpr ?_
  rintro _ ⟨i, rfl⟩
  exact mul_row_mem_rowSpace P A i

/-- An invertible factor on the left keeps the row space. -/
theorem rowSpace_mul_of_isUnit {P : Table K height height} (unit : IsUnit P)
    (A : Table K height width) : rowSpace (P * A) = rowSpace A := by
  obtain ⟨Q, inverse⟩ := unit.exists_left_inv
  refine le_antisymm (rowSpace_mul_le P A) ?_
  have back := rowSpace_mul_le Q (P * A)
  rwa [← Matrix.mul_assoc, inverse, Matrix.one_mul] at back

/-! ## Leading entries -/

section Leading
variable {A B : Table K height width}

/-- Lower rows lead further to the right. -/
theorem leading_lt (echelon : A.IsRowEchelon) {i k : Fin height} {c d : Fin width} (lower : i < k)
    (left : A.IsLeadingEntry i c) (right : A.IsLeadingEntry k d) : c < d := by
  by_contra notLess
  refine right.2 (echelon lower ?_)
  intro j before
  exact left.1 j (lt_of_lt_of_le before (not_lt.mp notLess))

theorem leading_row_unique (echelon : A.IsRowEchelon) {i k : Fin height} {c : Fin width}
    (left : A.IsLeadingEntry i c) (right : A.IsLeadingEntry k c) : i = k := by
  rcases lt_trichotomy i k with less | same | greater
  · exact absurd (leading_lt echelon less left right) (lt_irrefl c)
  · exact same
  · exact absurd (leading_lt echelon greater right left) (lt_irrefl c)

/-- In a column with a leading one, a combination of rows has the factor of that row. -/
theorem combination_leading (reduced : A.IsReducedRowEchelon) {i : Fin height} {c : Fin width}
    (lead : A.IsLeadingEntry i c) (a : Fin height → K) : (∑ k, a k • A k) c = a i := by
  rw [Finset.sum_apply, Finset.sum_eq_single i]
  · rw [Pi.smul_apply, smul_eq_mul, reduced.eq_one lead, mul_one]
  · intro k _ other
    rw [Pi.smul_apply, reduced.eq_zero_of_ne_of_isLeadingEntry other lead, smul_zero]
  · intro outside
    exact absurd (Finset.mem_univ i) outside

/-- Whatever lies in the row space begins where some row does: at the uppermost row that takes part
in the combination. -/
theorem exists_leading_row (echelon : A.IsRowEchelon) {v : Fin width → K} (member : v ∈ rowSpace A)
    {c : Fin width} (before : ∀ j < c, v j = 0) (nonzero : v c ≠ 0) :
    ∃ i, A.IsLeadingEntry i c := by
  obtain ⟨a, rfl⟩ := mem_rowSpace_iff.mp member
  have used : ∃ k, a k • A k ≠ 0 := by
    by_contra none
    push Not at none
    rw [Finset.sum_eq_zero fun k _ => none k] at nonzero
    exact nonzero rfl
  obtain ⟨i, uses, first⟩ := wellFounded_lt.has_min {k | a k • A k ≠ 0} used
  obtain ⟨factor, row⟩ := smul_ne_zero_iff.mp uses
  obtain ⟨d, lead⟩ := Matrix.row_ne_zero_iff_exists_isLeadingEntry.mp row
  -- Rows above `i` take no part, and rows below it are still zero up to `d`.
  have value : ∀ j ≤ d, (∑ k, a k • A k) j = a i * A i j := by
    intro j upTo
    rw [Finset.sum_apply, Finset.sum_eq_single i]
    · rfl
    · intro k _ other
      rcases lt_or_gt_of_ne other with above | below
      · have unused : a k • A k = 0 := not_not.mp fun uses => first k uses above
        rw [unused, Pi.zero_apply]
      · have zero : A k j = 0 :=
          echelon below fun j' earlier => lead.1 j' (lt_of_lt_of_le earlier upTo)
        rw [Pi.smul_apply, zero, smul_zero]
    · intro outside
      exact absurd (Finset.mem_univ i) outside
  have same : c = d := by
    rcases lt_trichotomy c d with less | same | greater
    · rw [value c less.le, lead.1 c less, mul_zero] at nonzero
      exact absurd rfl nonzero
    · exact same
    · have zero := before d greater
      rw [value d le_rfl] at zero
      exact absurd zero (mul_ne_zero factor lead.2)
  exact ⟨i, same ▸ lead⟩

theorem exists_leading_row_of_rowSpace_eq (echelon : B.IsRowEchelon)
    (same : rowSpace A = rowSpace B) {i : Fin height} {c : Fin width}
    (lead : A.IsLeadingEntry i c) : ∃ k, B.IsLeadingEntry k c :=
  exists_leading_row echelon (same ▸ row_mem_rowSpace A i) lead.1 lead.2

/-- Rows of two reduced forms of one space that begin in the same column are equal. -/
theorem row_eq_of_leading (reducedA : A.IsReducedRowEchelon) (reducedB : B.IsReducedRowEchelon)
    (same : rowSpace A = rowSpace B) {i k : Fin height} {c : Fin width}
    (leadA : A.IsLeadingEntry i c) (leadB : B.IsLeadingEntry k c) : A i = B k := by
  have member : A i - B k ∈ rowSpace A :=
    Submodule.sub_mem _ (row_mem_rowSpace A i) (same ▸ row_mem_rowSpace B k)
  obtain ⟨a, combination⟩ := mem_rowSpace_iff.mp member
  have vanish : ∀ m, a m • A m = 0 := by
    intro m
    by_cases zero : A m = 0
    · rw [zero, smul_zero]
    · obtain ⟨d, lead⟩ := Matrix.row_ne_zero_iff_exists_isLeadingEntry.mp zero
      have factor : a m = A i d - B k d := by
        rw [← combination_leading reducedA lead a, combination, Pi.sub_apply]
      by_cases here : m = i
      · subst here
        have column := lead.unique leadA
        subst column
        rw [factor, reducedA.eq_one leadA, reducedB.eq_one leadB, sub_self, zero_smul]
      · obtain ⟨l, leadL⟩ := exists_leading_row_of_rowSpace_eq reducedB.isRowEchelon same lead
        have other : k ≠ l := by
          rintro rfl
          have column := leadL.unique leadB
          subst column
          exact here (leading_row_unique reducedA.isRowEchelon lead leadA)
        rw [factor, reducedA.eq_zero_of_ne_of_isLeadingEntry (Ne.symm here) lead,
          reducedB.eq_zero_of_ne_of_isLeadingEntry other leadL, sub_self, zero_smul]
  rw [Finset.sum_eq_zero fun m _ => vanish m] at combination
  exact sub_eq_zero.mp combination.symm

/-- Where all rows above agree, a row of one form that is not zero begins where the same row of the
other form does. -/
theorem leading_of_rows_above (echelonA : A.IsRowEchelon) (echelonB : B.IsRowEchelon)
    (same : rowSpace A = rowSpace B) {i : Fin height} (above : ∀ k < i, A k = B k) {c : Fin width}
    (lead : A.IsLeadingEntry i c) : ∃ d ≤ c, B.IsLeadingEntry i d := by
  obtain ⟨k, leadK⟩ := exists_leading_row_of_rowSpace_eq echelonB same lead
  rcases lt_trichotomy k i with less | here | greater
  · have leadA : A.IsLeadingEntry k c := by
      rw [Matrix.IsLeadingEntry, above k less]
      exact leadK
    exact absurd (leading_row_unique echelonA leadA lead) less.ne
  · exact ⟨c, le_rfl, here ▸ leadK⟩
  · have row : B i ≠ 0 := fun zero =>
      leadK.row_ne_zero (echelonB.row_eq_zero_of_lt greater zero)
    obtain ⟨d, leadD⟩ := Matrix.row_ne_zero_iff_exists_isLeadingEntry.mp row
    exact ⟨d, (leading_lt echelonB greater leadD leadK).le, leadD⟩

/-- A space has only one reduced row echelon form of a given height. -/
theorem eq_of_rowSpace_eq (reducedA : A.IsReducedRowEchelon) (reducedB : B.IsReducedRowEchelon)
    (same : rowSpace A = rowSpace B) : A = B := by
  have echelonA := reducedA.isRowEchelon
  have echelonB := reducedB.isRowEchelon
  have rows : ∀ i, A i = B i := by
    intro i
    induction i using WellFoundedLT.induction with
    | ind i above =>
      have aboveB : ∀ k < i, B k = A k := fun k less => (above k less).symm
      by_cases zero : A i = 0 ∧ B i = 0
      · rw [zero.1, zero.2]
      · have leads : ∃ c d, A.IsLeadingEntry i c ∧ B.IsLeadingEntry i d := by
          by_cases zeroA : A i = 0
          · have rowB : B i ≠ 0 := fun zeroB => zero ⟨zeroA, zeroB⟩
            obtain ⟨d, leadB⟩ := Matrix.row_ne_zero_iff_exists_isLeadingEntry.mp rowB
            obtain ⟨c, -, leadA⟩ := leading_of_rows_above echelonB echelonA same.symm aboveB leadB
            exact ⟨c, d, leadA, leadB⟩
          · obtain ⟨c, leadA⟩ := Matrix.row_ne_zero_iff_exists_isLeadingEntry.mp zeroA
            obtain ⟨d, -, leadB⟩ := leading_of_rows_above echelonA echelonB same above leadA
            exact ⟨c, d, leadA, leadB⟩
        obtain ⟨c, d, leadA, leadB⟩ := leads
        obtain ⟨c', leC, leadA'⟩ := leading_of_rows_above echelonB echelonA same.symm aboveB leadB
        obtain ⟨d', leD, leadB'⟩ := leading_of_rows_above echelonA echelonB same above leadA
        have column : c = d :=
          le_antisymm (leadA.unique leadA' ▸ leC) (leadB.unique leadB' ▸ leD)
        subst column
        exact row_eq_of_leading reducedA reducedB same leadA leadB
  funext i
  exact rows i

/-- The rank of an echelon form whose rows that are not zero are the first `rank` ones. -/
theorem rank_eq_of_nonzero_rows (echelon : A.IsRowEchelon) {rank : ℕ} (fits : rank ≤ height)
    (rows : ∀ i, A i ≠ 0 ↔ i.val < rank) : A.rank = rank := by
  classical
  have leads : ∀ i, ∃ l : WithTop (Fin width),
      (l = ⊤ ∧ A i = 0) ∨ ∃ c : Fin width, l = c ∧ A.IsLeadingEntry i c := by
    intro i
    by_cases zero : A i = 0
    · exact ⟨⊤, Or.inl ⟨rfl, zero⟩⟩
    · obtain ⟨c, lead⟩ := Matrix.row_ne_zero_iff_exists_isLeadingEntry.mp zero
      exact ⟨c, Or.inr ⟨c, rfl, lead⟩⟩
  choose l lead using leads
  have pivoted : A.IsPivotedBy l := by
    refine ⟨echelon, fun i => ?_⟩
    rcases lead i with ⟨top, zero⟩ | ⟨c, column, first⟩
    · rw [top]
      exact ⟨fun j _ => congrFun zero j, fun c absent => absurd absent WithTop.top_ne_coe⟩
    · rw [column]
      refine ⟨fun j before => first.1 j (WithTop.coe_lt_coe.mp before), ?_⟩
      intro d same
      exact WithTop.coe_inj.mp same ▸ first.2
  have counted : ∀ i, l i ≠ ⊤ ↔ i.val < rank := fun i => by
    rw [Ne, pivoted.eq_top_iff, ← rows i]
  rw [pivoted.rank_eq]
  simp only [counted, Fin.card_filter_val_lt, min_eq_right fits]

theorem isReducedRowEchelon_one (size : ℕ) :
    (1 : Table K size size).IsReducedRowEchelon := by
  have lead : ∀ {i c : Fin size}, (1 : Table K size size).IsLeadingEntry i c → i = c := by
    intro i c first
    by_contra other
    exact first.2 (Matrix.one_apply_ne other)
  refine ⟨?_, ?_, ?_⟩
  · intro i k lower j before
    refine Matrix.one_apply_ne ?_
    rintro rfl
    have zero := before i lower
    rw [Matrix.one_apply_eq] at zero
    exact one_ne_zero zero
  · intro i c first
    rw [lead first, Matrix.one_apply_eq]
  · intro i k c lower first
    rw [← lead first]
    exact Matrix.one_apply_ne lower.ne

/-- Reduced row echelon form, spelled out: the first `rank` rows are exactly those that are not
zero, each begins with a one, further right than the rows above it, and that column is zero
elsewhere. -/
structure IsReduced (A : Table K height width) (rank : ℕ) : Prop where
  fits : rank ≤ height
  nonzero_iff : ∀ i, A i ≠ 0 ↔ i.val < rank
  leading_one : ∀ i c, A.IsLeadingEntry i c → A i c = 1
  climbs : ∀ i k c d, i < k → A.IsLeadingEntry i c → A.IsLeadingEntry k d → c < d
  alone : ∀ i c, A.IsLeadingEntry i c → ∀ k, k ≠ i → A k c = 0

theorem isReduced_iff {rank : ℕ} :
    IsReduced A rank ↔
      A.IsReducedRowEchelon ∧ rank ≤ height ∧ ∀ i, A i ≠ 0 ↔ i.val < rank := by
  constructor
  · intro reduced
    refine ⟨⟨?_, fun i c => reduced.leading_one i c, ?_⟩, reduced.fits, reduced.nonzero_iff⟩
    · intro i k lower j before
      by_cases zero : A k = 0
      · rw [zero, Pi.zero_apply]
      · have upper : A i ≠ 0 := (reduced.nonzero_iff i).mpr
          ((Fin.lt_def.mp lower).trans ((reduced.nonzero_iff k).mp zero))
        obtain ⟨c, leadI⟩ := Matrix.row_ne_zero_iff_exists_isLeadingEntry.mp upper
        obtain ⟨d, leadK⟩ := Matrix.row_ne_zero_iff_exists_isLeadingEntry.mp zero
        have right := reduced.climbs i k c d lower leadI leadK
        have upTo : j ≤ c := not_lt.mp fun less => leadI.2 (before c less)
        exact leadK.1 j (lt_of_le_of_lt upTo right)
    · intro i k c lower lead
      exact reduced.alone k c lead i lower.ne
  · rintro ⟨reduced, fits, rows⟩
    refine ⟨fits, rows, fun i c lead => reduced.eq_one lead, ?_, ?_⟩
    · intro i k c d lower leadI leadK
      exact leading_lt reduced.isRowEchelon lower leadI leadK
    · intro i c lead k other
      exact reduced.eq_zero_of_ne_of_isLeadingEntry other lead

/-- The only reduced square form of full rank is the identity. -/
theorem eq_one_of_rank_eq {size : ℕ} {A : Table K size size} (reduced : A.IsReducedRowEchelon)
    (full : A.rank = size) : A = 1 := by
  refine eq_of_rowSpace_eq reduced (isReducedRowEchelon_one size) ?_
  have whole : ∀ B : Table K size size, B.rank = size → rowSpace B = ⊤ := by
    intro B rank
    refine Submodule.eq_top_of_finrank_eq ?_
    rw [finrank_rowSpace, rank, Module.finrank_fin_fun]
  rw [whole A full, whole 1 (by rw [Matrix.rank_one, Fintype.card_fin])]

end Leading

end Echelon
