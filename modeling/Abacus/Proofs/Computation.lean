import Abacus.Error
import Mathlib.Data.List.Forall2

/-!
# Computations that can fail

What a sequence of computations comes to when its parts return a value or fail.
-/

namespace Abacus

theorem bind_eq_of_ok {α β : Type} {first : Except Error α} {value : α} (computed : first = .ok value)
    (next : α → Except Error β) : first >>= next = next value := by
  rw [computed]
  rfl

theorem bind_eq_ok_iff {α β : Type} {first : Except Error α} {next : α → Except Error β} {value : β} :
    first >>= next = .ok value ↔ ∃ result, first = .ok result ∧ next result = .ok value := by
  cases first with
  | error error =>
    constructor
    · intro sequence
      cases sequence
    · rintro ⟨_, failed, -⟩
      cases failed
  | ok result =>
    constructor
    · intro sequence
      exact ⟨result, rfl, sequence⟩
    · rintro ⟨_, same, computed⟩
      cases same
      exact computed

theorem map_eq_ok_iff {α β : Type} {f : α → β} {computation : Except Error α} {value : β} :
    f <$> computation = .ok value ↔ ∃ result, computation = .ok result ∧ f result = value := by
  cases computation with
  | error error =>
    constructor
    · intro mapped
      cases mapped
    · rintro ⟨_, failed, -⟩
      cases failed
  | ok result =>
    constructor
    · intro mapped
      exact ⟨result, rfl, Except.ok.inj mapped⟩
    · rintro ⟨_, same, rfl⟩
      cases same
      rfl

/-- A list is computed entry by entry. -/
theorem mapM_eq_ok_iff {α β : Type} {compute : α → Except Error β} {list : List α} {results : List β} :
    list.mapM compute = .ok results ↔ List.Forall₂ (fun x y => compute x = .ok y) list results := by
  induction list generalizing results with
  | nil =>
    rw [List.forall₂_nil_left_iff]
    constructor
    · intro done
      cases done
      rfl
    · rintro rfl
      rfl
  | cons x rest ih =>
    rw [List.mapM_cons, List.forall₂_cons_left_iff]
    simp only [bind_eq_ok_iff, ih]
    constructor
    · rintro ⟨y, first, ys, others, same⟩
      exact ⟨y, ys, first, others, (Except.ok.inj same).symm⟩
    · rintro ⟨y, ys, first, others, rfl⟩
      exact ⟨y, first, ys, others, rfl⟩

/-- The first entry that cannot be computed decides how a list fails. -/
theorem mapM_of_failed {α β : Type} {compute : α → Except Error β} {before : List α} {x : α}
    {error : Error} (all : ∀ y ∈ before, ∃ result, compute y = .ok result)
    (failed : compute x = .error error) (after : List α) :
    (before ++ x :: after).mapM compute = .error error := by
  induction before with
  | nil =>
    rw [List.nil_append, List.mapM_cons, failed]
    rfl
  | cons y before ih =>
    obtain ⟨⟨result, computed⟩, others⟩ := List.forall_mem_cons.mp all
    rw [List.cons_append, List.mapM_cons, computed, ih others]
    rfl

/-- A list that cannot be computed has a first entry that cannot. -/
theorem exists_failed_of_mapM {α β : Type} {compute : α → Except Error β} {list : List α}
    {error : Error} (failed : list.mapM compute = .error error) :
    ∃ before x after, list = before ++ x :: after ∧
      (∀ y ∈ before, ∃ result, compute y = .ok result) ∧ compute x = .error error := by
  induction list with
  | nil => cases failed
  | cons first rest ih =>
    rw [List.mapM_cons] at failed
    cases computed : compute first with
    | error other =>
      rw [computed] at failed
      cases failed
      exact ⟨[], first, rest, rfl, by simp, computed⟩
    | ok result =>
      rw [bind_eq_of_ok computed] at failed
      cases others : rest.mapM compute with
      | error other =>
        rw [others] at failed
        cases failed
        obtain ⟨before, x, after, rfl, all, failed⟩ := ih others
        exact ⟨first :: before, x, after, rfl, List.forall_mem_cons.mpr ⟨⟨result, computed⟩, all⟩, failed⟩
      | ok results =>
        rw [others] at failed
        cases failed

/-- What undoes a function entry by entry undoes it on lists. -/
theorem mapM_map_of_ok {α β : Type} {f : α → β} {compute : β → Except Error α} {list : List α}
    (undone : ∀ x ∈ list, compute (f x) = .ok x) : (list.map f).mapM compute = .ok list :=
  mapM_eq_ok_iff.mpr (List.forall₂_map_left_iff.mpr (List.forall₂_same.mpr undone))

/-- A vector whose entries can all be computed. -/
theorem ofFnM_eq_ok {α : Type} {size : Nat} {entry : Fin size → Except Error α} {value : Fin size → α}
    (computed : ∀ i, entry i = .ok (value i)) : Vector.ofFnM entry = .ok (Vector.ofFn value) := by
  obtain rfl : entry = fun i => pure (value i) := funext computed
  exact Vector.ofFnM_pure

/-- The computation ends with some error. -/
def Fails {α : Type} (computation : Except Error α) : Prop :=
  ∃ error, computation = .error error

theorem Fails.bind {α β : Type} {first : Except Error α} (fails : Fails first)
    (next : α → Except Error β) : Fails (first >>= next) := by
  obtain ⟨error, rfl⟩ := fails
  exact ⟨error, rfl⟩

theorem Fails.after {α β : Type} (first : Except Error α) {next : α → Except Error β}
    (fails : ∀ value, Fails (next value)) : Fails (first >>= next) := by
  cases first with
  | error error => exact ⟨error, rfl⟩
  | ok value => exact fails value

/-- The computation ends with an error of the given kind. -/
def FailsWith {α : Type} (computation : Except Error α) (kind : Error.Kind) : Prop :=
  ∃ error, computation = .error error ∧ error.kind = kind

theorem FailsWith.bind {α β : Type} {first : Except Error α} {kind : Error.Kind}
    (fails : FailsWith first kind) (next : α → Except Error β) : FailsWith (first >>= next) kind := by
  obtain ⟨error, rfl, same⟩ := fails
  exact ⟨error, rfl, same⟩

theorem FailsWith.after {α β : Type} {first : Except Error α} {value : α} {kind : Error.Kind}
    (computed : first = .ok value) {next : α → Except Error β} (fails : FailsWith (next value) kind) :
    FailsWith (first >>= next) kind := by
  rwa [bind_eq_of_ok computed]

theorem exists_ok_of_not_fails {α : Type} {computation : Except Error α} (succeeds : ¬ Fails computation) :
    ∃ value, computation = .ok value := by
  cases computation with
  | error error => exact absurd ⟨error, rfl⟩ succeeds
  | ok value => exact ⟨value, rfl⟩

/-- A vector fails as some entry does, if one does. -/
theorem ofFnM_of_fails {α : Type} {size : Nat} {entry : Fin size → Except Error α}
    (some : ∃ i, Fails (entry i)) :
    ∃ i error, entry i = .error error ∧ Vector.ofFnM entry = .error error := by
  induction size with
  | zero =>
    obtain ⟨i, -⟩ := some
    exact i.elim0
  | succ size ih =>
    rw [Vector.ofFnM_succ]
    by_cases earlier : ∃ i : Fin size, Fails (entry i.castSucc)
    · obtain ⟨i, error, failed, whole⟩ := ih earlier
      refine ⟨i.castSucc, error, failed, ?_⟩
      rw [whole]
      rfl
    · have computed : ∀ i : Fin size, ∃ value, entry i.castSucc = .ok value := fun i =>
        exists_ok_of_not_fails fun fails => earlier ⟨i, fails⟩
      choose value computed using computed
      obtain ⟨i, error, failed⟩ := some
      induction i using Fin.lastCases with
      | cast i => exact absurd ⟨i, error, failed⟩ earlier
      | last =>
        refine ⟨Fin.last size, error, failed, ?_⟩
        rw [bind_eq_of_ok (ofFnM_eq_ok computed), failed]
        rfl

/-- A vector fails with a kind of error if some entry fails, and entries fail with that kind only. -/
theorem ofFnM_failsWith {α : Type} {size : Nat} {entry : Fin size → Except Error α}
    {kind : Error.Kind} (only : ∀ i error, entry i = .error error → error.kind = kind) {i : Fin size}
    (fails : Fails (entry i)) : FailsWith (Vector.ofFnM entry) kind := by
  obtain ⟨k, error, failed, whole⟩ := ofFnM_of_fails ⟨i, fails⟩
  exact ⟨error, whole, only k error failed⟩

/-- A vector is computed if all its entries are, and otherwise fails as one of them does. -/
theorem ofFnM_cases {α : Type} {size : Nat} (entry : Fin size → Except Error α) :
    (∃ values : Vector α size, Vector.ofFnM entry = .ok values ∧
      ∀ i, entry i = .ok (values.get i)) ∨
    ∃ i error, entry i = .error error ∧ Vector.ofFnM entry = .error error := by
  by_cases some : ∃ i, Fails (entry i)
  · exact .inr (ofFnM_of_fails some)
  · have computed : ∀ i, ∃ value, entry i = .ok value := fun i =>
      exists_ok_of_not_fails fun fails => some ⟨i, fails⟩
    choose value computed using computed
    refine .inl ⟨.ofFn value, ofFnM_eq_ok computed, fun i => ?_⟩
    exact (computed i).trans (congrArg Except.ok (Vector.getElem_ofFn i.isLt).symm)

end Abacus
