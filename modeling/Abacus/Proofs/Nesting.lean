import Abacus.Proofs.Soundness

/-!
# Steps and levels of evaluation

An operation or function takes one level. At a type it either fails at once or evaluates its operands on the
level below, at types of their own, and goes on from their values; what it goes on with depends neither on
the store nor on the level (`unary_step`, `binary_step`). So the levels only decide whether an expression has
a value: where it has one, it has the same within any number of levels that its nesting leaves room for, and
is nested too deeply within any other (`evaluate_of_ok`).
-/

namespace Abacus.Expr
open Function (Injective extend)

variable {store : Store Value} {levels : Nat} {type : ValueType} {function : UnaryFunction}
  {operation : BinaryOperation} {e l r : Expr} {value : Value}

/-! ## One step -/

section After
variable {α β : Type} {wrap : α → Value} {cover : β → Value}

/-- What goes on from a number or a matrix goes on from it as a value. -/
theorem exists_after (injective : Injective wrap) (next : α → Except Error Value) :
    ∃ apply : Value → Except Error Value, ∀ computation : Except Error α,
      computation >>= next = wrap <$> computation >>= apply := by
  refine ⟨extend wrap next .ok, fun computation => ?_⟩
  cases computation with
  | error error => rfl
  | ok x => exact (injective.extend_apply next .ok x).symm

theorem exists_after_both (left : Injective wrap) (right : Injective cover)
    (next : α → β → Except Error Value) :
    ∃ combine : Value → Value → Except Error Value,
      ∀ (first : Except Error α) (second : Except Error β),
        (first >>= fun x => second >>= next x) =
          wrap <$> first >>= fun v => cover <$> second >>= combine v := by
  refine ⟨extend wrap (fun x => extend cover (next x) .ok) fun _ => .ok, fun first second => ?_⟩
  cases first with
  | error error => rfl
  | ok x =>
    show second >>= next x = cover <$> second >>= extend wrap _ _ (wrap x)
    rw [left.extend_apply]
    cases second with
    | error error => rfl
    | ok y => exact (right.extend_apply (next x) .ok y).symm

theorem exists_apply (injective : Injective wrap) {operand : Store Value → Nat → Except Error α}
    {next : α → Except Error Value}
    (step : ∀ store levels, ∃ inner, function.operandType? store e type = some inner ∧
      evaluate store inner e levels = wrap <$> operand store levels ∧
      evaluate store type (.unary function e) (levels + 1) = operand store levels >>= next) :
    ∃ apply, ∀ store levels, ∃ inner, function.operandType? store e type = some inner ∧
      evaluate store type (.unary function e) (levels + 1) =
        evaluate store inner e levels >>= apply := by
  obtain ⟨apply, same⟩ := exists_after injective next
  refine ⟨apply, fun store levels => ?_⟩
  obtain ⟨inner, place, value, whole⟩ := step store levels
  exact ⟨inner, place, by rw [whole, value, same]⟩

theorem exists_combine_values {first second : ValueType} (left : Injective wrap) (right : Injective cover)
    (place : operation.operandTypes? type = some (first, second))
    {begins : Store Value → Nat → Except Error α} {continues : Store Value → Nat → Except Error β}
    {next : α → β → Except Error Value}
    (step : ∀ store levels, evaluate store first l levels = wrap <$> begins store levels ∧
      evaluate store second r levels = cover <$> continues store levels ∧
      evaluate store type (.binary operation l r) (levels + 1) =
        (begins store levels >>= fun x => continues store levels >>= next x)) :
    ∃ (first second : ValueType) (combine : Value → Value → Except Error Value),
      operation.operandTypes? type = some (first, second) ∧ ∀ store levels,
        evaluate store type (.binary operation l r) (levels + 1) =
          (evaluate store first l levels >>= fun v =>
            evaluate store second r levels >>= combine v) := by
  obtain ⟨combine, same⟩ := exists_after_both left right next
  refine ⟨first, second, combine, place, fun store levels => ?_⟩
  obtain ⟨one, other, whole⟩ := step store levels
  rw [whole, one, other, same]

end After

theorem scalar_injective : Injective Value.scalar :=
  fun _ _ => Value.scalar.inj

theorem matrix_injective : Injective Value.matrix :=
  fun _ _ => Value.matrix.inj

/-- A function fails at once, or goes on from the value of its operand. -/
theorem unary_step (type : ValueType) (function : UnaryFunction) (e : Expr) :
    (∃ error, ∀ store levels,
      evaluate store type (.unary function e) (levels + 1) = .error error) ∨
    ∃ apply, ∀ store levels, ∃ inner, function.operandType? store e type = some inner ∧
      evaluate store type (.unary function e) (levels + 1) =
        evaluate store inner e levels >>= apply := by
  cases type with
  | scalar field =>
    cases function with
    | neg =>
      exact .inr (exists_apply scalar_injective fun store levels =>
        ⟨_, rfl, rfl, by rw [evaluate, evaluateScalar_unary rfl, map_bind]⟩)
    | inv =>
      exact .inr (exists_apply scalar_injective fun store levels =>
        ⟨_, rfl, rfl, by rw [evaluate, evaluateScalar_unary rfl, map_bind]⟩)
    | det =>
      exact .inr (exists_apply matrix_injective fun store levels =>
        ⟨_, rfl, rfl, by rw [evaluate, evaluateScalar, map_bind]⟩)
    | rank =>
      cases field with
      | rationals =>
        exact .inr (exists_apply matrix_injective fun store levels =>
          ⟨_, rfl, rfl, by rw [evaluate, evaluateScalar, map_bind]⟩)
      | residues modulus => exact .inl ⟨_, fun store levels => by rw [evaluate, evaluateScalar]; rfl⟩
    | rref => exact .inl ⟨_, fun store levels => by rw [evaluate, evaluateScalar]; rfl⟩
  | matrix field =>
    cases function with
    | neg =>
      exact .inr (exists_apply matrix_injective fun store levels =>
        ⟨_, rfl, rfl, by rw [evaluate, evaluateMatrix_unary rfl, map_bind]⟩)
    | rref =>
      exact .inr (exists_apply matrix_injective fun store levels =>
        ⟨_, rfl, rfl, by rw [evaluate, evaluateMatrix_unary rfl, map_bind]⟩)
    | _ => exact .inl ⟨_, fun store levels => by rw [evaluate, evaluateMatrix]; rfl⟩

/-- An operation fails at once, or goes on from the values of its operands. A power goes on from the value of
its base, for its exponent is not evaluated. -/
theorem binary_step (type : ValueType) (operation : BinaryOperation) (l r : Expr) :
    (∃ error, ∀ store levels,
      evaluate store type (.binary operation l r) (levels + 1) = .error error) ∨
    (∃ (first second : ValueType) (combine : Value → Value → Except Error Value),
      operation.operandTypes? type = some (first, second) ∧ ∀ store levels,
        evaluate store type (.binary operation l r) (levels + 1) =
          (evaluate store first l levels >>= fun v =>
            evaluate store second r levels >>= combine v)) ∨
    ∃ modulus text apply, operation = .pow ∧ type = .scalar (.residues modulus) ∧ r = .literal text ∧
      ∀ store levels, evaluate store type (.binary operation l r) (levels + 1) =
        evaluate store type l levels >>= apply := by
  cases type with
  | scalar field =>
    cases operation with
    | pow =>
      cases field with
      | rationals => exact .inl ⟨_, fun store levels => by rw [evaluate, evaluateScalar]; rfl⟩
      | residues modulus =>
        cases r with
        | literal text =>
          obtain ⟨apply, same⟩ := exists_after scalar_injective fun x =>
            Value.scalar <$> x.powerOf text.toList
          refine .inr (.inr ⟨modulus, text, apply, rfl, rfl, rfl, fun store levels => ?_⟩)
          rw [evaluate, evaluateScalar, map_bind]
          exact same _
        | _ =>
          refine .inl ⟨.exponentNotLiteral, fun store levels => ?_⟩
          rw [evaluate, evaluateScalar]
          · rfl
          · simp
    | scale => exact .inl ⟨_, fun store levels => by rw [evaluate, evaluateScalar]; rfl⟩
    | _ =>
      exact .inr (.inl (exists_combine_values scalar_injective scalar_injective rfl fun store levels =>
        ⟨rfl, rfl, by rw [evaluate, evaluateScalar_binary rfl]; simp only [map_bind]; rfl⟩))
  | matrix field =>
    cases operation with
    | scale =>
      exact .inr (.inl (exists_combine_values scalar_injective matrix_injective rfl fun store levels =>
        ⟨rfl, rfl, by simp only [evaluate, evaluateMatrix, map_bind]; rfl⟩))
    | div => exact .inl ⟨_, fun store levels => by rw [evaluate, evaluateMatrix]; rfl⟩
    | pow => exact .inl ⟨_, fun store levels => by rw [evaluate, evaluateMatrix]; rfl⟩
    | _ =>
      exact .inr (.inl (exists_combine_values matrix_injective matrix_injective rfl fun store levels =>
        ⟨rfl, rfl, by rw [evaluate, evaluateMatrix_binary rfl]; simp only [map_bind]; rfl⟩))

/-! ## Levels -/

theorem evaluate_literal (store : Store Value) (levels other : Nat) (type : ValueType)
    (text : String) :
    evaluate store type (.literal text) levels = evaluate store type (.literal text) other := by
  cases type with
  | scalar field => simp only [evaluate, evaluateScalar]
  | matrix field => simp only [evaluate, evaluateMatrix]

theorem evaluate_var (store : Store Value) (levels other : Nat) (type : ValueType) (name : String) :
    evaluate store type (.var name) levels = evaluate store type (.var name) other := by
  cases type with
  | scalar field => simp only [evaluate, evaluateScalar]
  | matrix field => simp only [evaluate, evaluateMatrix]

theorem evaluate_unary_zero :
    evaluate store type (.unary function e) 0 = .error .nestedTooDeeply := by
  cases type with
  | scalar field => rw [evaluate, evaluateScalar]; rfl
  | matrix field => rw [evaluate, evaluateMatrix]; rfl

theorem evaluate_binary_zero :
    evaluate store type (.binary operation l r) 0 = .error .nestedTooDeeply := by
  cases type with
  | scalar field => rw [evaluate, evaluateScalar]; rfl
  | matrix field => rw [evaluate, evaluateMatrix]; rfl

/-- The value, if so many levels leave room for the depth. -/
def within {α : Type} (depth levels : Nat) (value : α) : Except Error α :=
  if depth ≤ levels then .ok value else .error .nestedTooDeeply

section Within
variable {α : Type} {depth : Nat}

theorem within_of_le (room : depth ≤ levels) (value : α) : within depth levels value = .ok value :=
  if_pos room

theorem within_of_lt (tooDeep : levels < depth) (value : α) :
    within depth levels value = .error .nestedTooDeeply :=
  if_neg (Nat.not_le_of_lt tooDeep)

theorem within_succ_succ (depth levels : Nat) (value : α) :
    within (depth + 1) (levels + 1) value = within depth levels value := by
  simp only [within, Nat.succ_le_succ_iff]

/-- Whether there is room does not depend on what is wrapped around the value. -/
theorem eq_within_of_map {wrap : α → Value} (injective : Injective wrap) {computation : Except Error α}
    {x : α} (wrapped : wrap <$> computation = within depth levels (wrap x)) :
    computation = within depth levels x := by
  rcases Nat.lt_or_ge levels depth with tooDeep | room
  · rw [within_of_lt tooDeep] at wrapped ⊢
    cases computation with
    | error error => exact congrArg _ (Except.error.inj wrapped)
    | ok y => cases wrapped
  · rw [within_of_le room] at wrapped ⊢
    obtain ⟨y, rfl, same⟩ := map_eq_ok_iff.mp wrapped
    rw [injective same]

end Within

theorem within_bind {depth levels : Nat} {v w : Value} {apply : Value → Except Error Value}
    (applied : apply v = .ok w) : within depth levels v >>= apply = within depth levels w := by
  rcases Nat.lt_or_ge levels depth with tooDeep | room
  · rw [within_of_lt tooDeep, within_of_lt tooDeep]
    rfl
  · rw [within_of_le room, within_of_le room]
    exact applied

theorem within_bind_both {left right levels : Nat} {v w value : Value}
    {combine : Value → Value → Except Error Value} (combined : combine v w = .ok value) :
    (within left levels v >>= fun x => within right levels w >>= combine x) =
      within (max left right) levels value := by
  rcases Nat.lt_or_ge levels left with tooDeep | room
  · rw [within_of_lt tooDeep, within_of_lt (lt_max_of_lt_left tooDeep)]
    rfl
  · rw [within_of_le room]
    refine (within_bind combined).trans ?_
    rcases Nat.lt_or_ge levels right with tooDeep | roomRight
    · rw [within_of_lt tooDeep, within_of_lt (lt_max_of_lt_right tooDeep)]
    · rw [within_of_le roomRight, within_of_le (max_le room roomRight)]

/-- Where an expression has a value within some levels, it has the same within any other levels that leave
room for it, and is nested too deeply for those that do not. -/
theorem evaluate_of_ok (evaluated : evaluate store type e levels = .ok value) (other : Nat) :
    evaluate store type e other = within e.depth other value := by
  induction e generalizing levels type value other with
  | literal text =>
    rw [depth, within, if_pos (Nat.zero_le other), ← evaluated]
    exact evaluate_literal store other levels type text
  | var name =>
    rw [depth, within, if_pos (Nat.zero_le other), ← evaluated]
    exact evaluate_var store other levels type name
  | unary function e ih =>
    cases levels with
    | zero => cases evaluate_unary_zero.symm.trans evaluated
    | succ levels =>
      rcases unary_step type function e with ⟨error, failed⟩ | ⟨apply, step⟩
      · cases (failed store levels).symm.trans evaluated
      · obtain ⟨inner, place, whole⟩ := step store levels
        obtain ⟨v, operand, applied⟩ := bind_eq_ok_iff.mp (whole.symm.trans evaluated)
        cases other with
        | zero => rw [evaluate_unary_zero, depth, within_of_lt (Nat.succ_pos _)]
        | succ other =>
          obtain ⟨inner', place', whole'⟩ := step store other
          obtain rfl : inner = inner' := Option.some.inj (place.symm.trans place')
          rw [whole', ih operand, depth, within_succ_succ]
          exact within_bind applied
  | binary operation l r left right =>
    cases levels with
    | zero => cases evaluate_binary_zero.symm.trans evaluated
    | succ levels =>
      cases other with
      | zero => rw [evaluate_binary_zero, depth, within_of_lt (Nat.succ_pos _)]
      | succ other =>
        rcases binary_step type operation l r with ⟨error, failed⟩ |
          ⟨first, second, combine, -, step⟩ | ⟨modulus, text, apply, rfl, rfl, rfl, step⟩
        · cases (failed store levels).symm.trans evaluated
        · obtain ⟨v, one, rest⟩ := bind_eq_ok_iff.mp ((step store levels).symm.trans evaluated)
          obtain ⟨w, two, combined⟩ := bind_eq_ok_iff.mp rest
          rw [step, left one, right two, depth, within_succ_succ]
          exact within_bind_both combined
        · obtain ⟨v, base, applied⟩ := bind_eq_ok_iff.mp ((step store levels).symm.trans evaluated)
          rw [step, left base, depth, depth, Nat.max_zero, within_succ_succ]
          exact within_bind applied

/-- A number that is the value of an expression is computed within any levels that leave room for it. -/
theorem evaluateScalar_of_ok {field : NumberField} {s : Scalar}
    (evaluated : evaluate store (.scalar field) e levels = .ok (.scalar s)) (other : Nat) :
    evaluateScalar store other field e = within e.depth other s :=
  eq_within_of_map scalar_injective (evaluate_of_ok evaluated other)

theorem evaluateMatrix_of_ok {field : NumberField} {a : Matrix}
    (evaluated : evaluate store (.matrix field) e levels = .ok (.matrix a)) (other : Nat) :
    evaluateMatrix store other field e = within e.depth other a :=
  eq_within_of_map matrix_injective (evaluate_of_ok evaluated other)

end Abacus.Expr
