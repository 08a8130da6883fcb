import Abacus.Proofs.Pieces

/-!
# The grammar of expressions

The tokens that spell an expression, with the nesting that they need, are those of a prefix grammar
(`Expr.Spells`). Whatever nesting is allowed, reading a line recognises exactly the spellings with no more of
it, and fails on every other line with an error of syntax (`Expr.ofText_recognises`). No tokens spell two
expressions (`Expr.Spells.unique`).
-/

namespace Abacus

/-! ## Looking up operations -/

/-- What is looked up by a text is what has the text, if no two have the same. -/
theorem find?_text_eq_some_iff {α : Type} {text : α → String} {list : List α}
    (distinct : ∀ x ∈ list, ∀ y ∈ list, text x = text y → x = y) {word : String} {x : α} :
    list.find? (fun y => text y == word) = some x ↔ x ∈ list ∧ text x = word := by
  constructor
  · intro found
    exact ⟨List.mem_of_find?_eq_some found, by simpa using List.find?_some found⟩
  · rintro ⟨mem, rfl⟩
    cases found : list.find? (fun y => text y == text x) with
    | none => exact absurd (beq_self_eq_true _) (List.find?_eq_none.mp found x mem)
    | some y =>
      have same : text y = text x := by simpa using List.find?_some found
      rw [distinct y (List.mem_of_find?_eq_some found) x mem same]

theorem find?_text_eq_none_iff {α : Type} {text : α → String} {list : List α} {word : String} :
    list.find? (fun y => text y == word) = none ↔ word ∉ list.map text := by
  simp [List.find?_eq_none]

theorem UnaryFunction.ofText?_eq_some_iff {word : String} {function : UnaryFunction} :
    UnaryFunction.ofText? word = some function ↔ function.text = word := by
  rw [UnaryFunction.ofText?, find?_text_eq_some_iff (by decide), and_iff_right]
  cases function <;> decide

theorem BinaryOperation.ofName?_eq_some_iff {word : String} {operation : BinaryOperation} :
    BinaryOperation.ofName? word = some operation ↔
      operation ∈ BinaryOperation.names ∧ operation.text = word :=
  find?_text_eq_some_iff (by decide)

theorem BinaryOperation.ofSign?_eq_some_iff {word : String} {operation : BinaryOperation} :
    BinaryOperation.ofSign? word = some operation ↔
      operation ∈ BinaryOperation.signs ∧ operation.text = word :=
  find?_text_eq_some_iff (by decide)

namespace Expr

/-! ## The grammar -/

/-- The names that stand for a function. -/
def functionNames : List String :=
  UnaryFunction.all.map UnaryFunction.text ++ BinaryOperation.names.map BinaryOperation.text

example : functionNames = ["neg", "inv", "det", "rank", "rref", "pow", "scale"] := rfl

/-- The token that an expression can begin with. -/
inductive Head.Spells : Piece → Head → Prop
  | literal (text : String) : Spells (.literal, text) (.leaf (.literal text))
  | var {name : String} (free : name ∉ functionNames) : Spells (.name, name) (.leaf (.var name))
  | unary (function : UnaryFunction) : Spells (.name, function.text) (.unary function)
  | sign {operation : BinaryOperation} (sign : operation ∈ BinaryOperation.signs) :
      Spells (.special, operation.text) (.binary operation)
  | named {operation : BinaryOperation} (named : operation ∈ BinaryOperation.names) :
      Spells (.name, operation.text) (.binary operation)
  | group : Spells (.special, "(") .group

/-- With the given levels of nesting, the tokens spell the expression: a literal or variable alone, a
function or operation before its operands, or a spelling between parentheses. -/
inductive Spells : Nat → List Piece → Expr → Prop
  | leaf {piece : Piece} {e : Expr} (head : Head.Spells piece (.leaf e)) : Spells 0 [piece] e
  | unary {piece : Piece} {function : UnaryFunction} {n : Nat} {pieces : List Piece} {e : Expr}
      (head : Head.Spells piece (.unary function)) (operand : Spells n pieces e) :
      Spells (n + 1) (piece :: pieces) (.unary function e)
  | binary {piece : Piece} {operation : BinaryOperation} {m n : Nat} {first second : List Piece}
      {l r : Expr} (head : Head.Spells piece (.binary operation)) (left : Spells m first l)
      (right : Spells n second r) :
      Spells (max m n + 1) (piece :: (first ++ second)) (.binary operation l r)
  | group {piece : Piece} {n : Nat} {pieces : List Piece} {e : Expr}
      (head : Head.Spells piece .group) (inner : Spells n pieces e) :
      Spells (n + 1) (piece :: (pieces ++ [(.special, ")")])) e

/-! ## Heads -/

/-- The name is that of no function exactly if both tables lack it. -/
theorem not_mem_functionNames_iff {name : String} :
    name ∉ functionNames ↔ UnaryFunction.ofText? name = none ∧ BinaryOperation.ofName? name = none := by
  rw [UnaryFunction.ofText?, BinaryOperation.ofName?, find?_text_eq_none_iff, find?_text_eq_none_iff,
    functionNames, List.mem_append, not_or]

theorem Head.spells_of_ofToken {kind : TokenKind} {text : String} {position : Nat} {head : Head}
    (found : Head.ofToken ⟨kind, text, position⟩ = .ok head) : Head.Spells (kind, text) head := by
  cases kind with
  | literal =>
    cases found
    exact .literal text
  | name =>
    dsimp only [Head.ofToken] at found
    split at found
    · rename_i function unary
      cases found
      obtain rfl := UnaryFunction.ofText?_eq_some_iff.mp unary
      exact .unary function
    · rename_i operation _ binary
      cases found
      obtain ⟨named, rfl⟩ := BinaryOperation.ofName?_eq_some_iff.mp binary
      exact .named named
    · rename_i noUnary noBinary
      cases found
      exact .var (not_mem_functionNames_iff.mpr ⟨noUnary, noBinary⟩)
  | special =>
    dsimp only [Head.ofToken] at found
    split_ifs at found with opens
    · cases found
      obtain rfl := opens
      exact .group
    · split at found
      · rename_i operation binary
        cases found
        obtain ⟨sign, rfl⟩ := BinaryOperation.ofSign?_eq_some_iff.mp binary
        exact .sign sign
      · cases found
  | lineEnd => cases found

theorem Head.Spells.ofToken {kind : TokenKind} {text : String} {head : Head}
    (spells : Head.Spells (kind, text) head) (position : Nat) :
    Head.ofToken ⟨kind, text, position⟩ = .ok head := by
  cases spells with
  | literal => rfl
  | var free =>
    obtain ⟨noUnary, noBinary⟩ := not_mem_functionNames_iff.mp free
    simp only [Head.ofToken, noUnary, noBinary]
  | unary function => cases function <;> rfl
  | @sign operation sign =>
    cases operation with
    | pow | scale => exact absurd sign (by decide)
    | add | sub | mul | div => rfl
  | @named operation named =>
    cases operation with
    | add | sub | mul | div => exact absurd named (by decide)
    | pow | scale => rfl
  | group => rfl

theorem Head.ofToken_eq_ok_iff {token : Token} {head : Head} :
    Head.ofToken token = .ok head ↔ Head.Spells token.piece head :=
  ⟨spells_of_ofToken, fun spells => spells.ofToken token.position⟩

theorem Head.Spells.unique {piece : Piece} {head other : Head} (spells : Head.Spells piece head)
    (again : Head.Spells piece other) : head = other := by
  have found := spells.ofToken 0
  have refound := again.ofToken 0
  exact Except.ok.inj (found.symm.trans refound)

/-! ## At most one expression -/

/-- In a spelling that begins with the head, the pieces are what follows. -/
inductive Completes : Head → Nat → List Piece → Expr → Prop
  | leaf (e : Expr) : Completes (.leaf e) 0 [] e
  | unary {function : UnaryFunction} {n : Nat} {pieces : List Piece} {e : Expr}
      (operand : Spells n pieces e) : Completes (.unary function) (n + 1) pieces (.unary function e)
  | binary {operation : BinaryOperation} {m n : Nat} {first second : List Piece} {l r : Expr}
      (left : Spells m first l) (right : Spells n second r) :
      Completes (.binary operation) (max m n + 1) (first ++ second) (.binary operation l r)
  | group {n : Nat} {pieces : List Piece} {e : Expr} (inner : Spells n pieces e) :
      Completes .group (n + 1) (pieces ++ [(.special, ")")]) e

theorem Spells.completes {piece : Piece} {rest : List Piece} {n : Nat} {e : Expr} {head : Head}
    (spells : Spells n (piece :: rest) e) (begins : Head.Spells piece head) :
    Completes head n rest e := by
  cases spells with
  | leaf own =>
    cases own.unique begins
    exact .leaf e
  | unary own operand =>
    cases own.unique begins
    exact .unary operand
  | binary own left right =>
    cases own.unique begins
    exact .binary left right
  | group own inner =>
    cases own.unique begins
    exact .group inner

/-- A spelling at the beginning of the tokens begins with the head that their first one is. -/
theorem Spells.completes_of_append_eq {piece : Piece} {pieces first rest : List Piece} {n : Nat} {e : Expr}
    {head : Head} (spells : Spells n first e) (begins : Head.Spells piece head)
    (same : piece :: pieces = first ++ rest) :
    ∃ tail, first = piece :: tail ∧ pieces = tail ++ rest ∧ Completes head n tail e := by
  cases first with
  | nil => cases spells
  | cons other tail =>
    obtain ⟨rfl, behind⟩ := List.cons.inj same
    exact ⟨tail, rfl, behind, spells.completes begins⟩

/-- Of two spellings that begin the same tokens, none goes on longer than the other. -/
theorem Spells.eq_of_append_eq {m n : Nat} {first second rest others : List Piece} {e f : Expr}
    (spells : Spells m first e) (again : Spells n second f) (same : first ++ rest = second ++ others) :
    m = n ∧ first = second ∧ e = f := by
  induction spells generalizing n second rest others f with
  | leaf head =>
    obtain ⟨tail, rfl, -, completes⟩ := again.completes_of_append_eq head same
    cases completes with
    | leaf => exact ⟨rfl, rfl, rfl⟩
  | unary head operand ih =>
    obtain ⟨tail, rfl, behind, completes⟩ := again.completes_of_append_eq head same
    cases completes with
    | unary operand' =>
      obtain ⟨rfl, rfl, rfl⟩ := ih operand' behind
      exact ⟨rfl, rfl, rfl⟩
  | binary head left right leftIh rightIh =>
    obtain ⟨tail, rfl, behind, completes⟩ := again.completes_of_append_eq head same
    cases completes with
    | binary left' right' =>
      rw [List.append_eq, List.append_assoc, List.append_assoc] at behind
      obtain ⟨rfl, rfl, rfl⟩ := leftIh left' behind
      obtain ⟨rfl, rfl, rfl⟩ := rightIh right' (List.append_cancel_left behind)
      exact ⟨rfl, rfl, rfl⟩
  | group head inner ih =>
    obtain ⟨tail, rfl, behind, completes⟩ := again.completes_of_append_eq head same
    cases completes with
    | group inner' =>
      rw [List.append_eq, List.append_assoc, List.append_assoc] at behind
      obtain ⟨rfl, rfl, rfl⟩ := ih inner' behind
      exact ⟨rfl, rfl, rfl⟩

/-- Tokens spell at most one expression, with one nesting. -/
theorem Spells.unique {m n : Nat} {pieces : List Piece} {e f : Expr} (spells : Spells m pieces e)
    (again : Spells n pieces f) : m = n ∧ e = f := by
  have same : pieces ++ [] = pieces ++ [] := rfl
  obtain ⟨nesting, -, expression⟩ := spells.eq_of_append_eq again same
  exact ⟨nesting, expression⟩

/-! ## What is read -/

variable {lexer after : Lexer}

theorem readHead_eq_ok_iff {head : Head} :
    readHead lexer = .ok head after ↔
      ∃ token, Lexer.next lexer = .ok token after ∧ Head.Spells token.piece head := by
  rw [readHead, Lexer.bind_eq_ok_iff]
  simp only [← Head.ofToken_eq_ok_iff]
  refine exists_congr fun token => ⟨?_, ?_⟩
  · rintro ⟨middle, step, turned⟩
    cases found : Head.ofToken token with
    | ok own =>
      rw [found] at turned
      cases turned
      exact ⟨step, rfl⟩
    | error error =>
      rw [found] at turned
      cases turned
  · rintro ⟨step, found⟩
    refine ⟨after, step, ?_⟩
    rw [found]
    rfl

theorem Head.Spells.kind_ne {token : Token} {head : Head} (spells : Head.Spells token.piece head) :
    token.kind ≠ .lineEnd := by
  intro ends
  rw [Token.piece, ends] at spells
  cases spells

/-- With enough levels, a spelling is read. -/
theorem readNested_of_spells {n levels : Nat} {pieces : List Piece} {e : Expr}
    (spells : Spells n pieces e) (within : n ≤ levels) (hands : lexer.Hands pieces after) :
    readNested levels lexer = .ok e after := by
  induction spells generalizing levels lexer after with
  | leaf head =>
    obtain ⟨token, middle, step, rfl, later⟩ := hands.uncons
    cases later
    have begins := readHead_eq_ok_iff.mpr ⟨token, step, head⟩
    cases levels <;> exact Lexer.bind_eq_ok_iff.mpr ⟨_, _, begins, rfl⟩
  | unary head operand ih =>
    obtain ⟨levels, rfl⟩ := Nat.exists_eq_add_of_le' (Nat.one_le_of_lt within)
    obtain ⟨token, middle, step, rfl, later⟩ := hands.uncons
    have begins := readHead_eq_ok_iff.mpr ⟨token, step, head⟩
    have inner := ih (Nat.le_of_succ_le_succ within) later
    refine Lexer.bind_eq_ok_iff.mpr ⟨_, _, begins, ?_⟩
    exact Lexer.bind_eq_ok_iff.mpr ⟨_, _, inner, rfl⟩
  | binary head left right leftIh rightIh =>
    obtain ⟨levels, rfl⟩ := Nat.exists_eq_add_of_le' (Nat.one_le_of_lt within)
    obtain ⟨token, middle, step, rfl, later⟩ := hands.uncons
    obtain ⟨between, front, back⟩ := later.part
    have begins := readHead_eq_ok_iff.mpr ⟨token, step, head⟩
    obtain ⟨leftWithin, rightWithin⟩ := max_le_iff.mp (Nat.le_of_succ_le_succ within)
    have first := leftIh leftWithin front
    have second := rightIh rightWithin back
    refine Lexer.bind_eq_ok_iff.mpr ⟨_, _, begins, ?_⟩
    refine Lexer.bind_eq_ok_iff.mpr ⟨_, _, first, ?_⟩
    exact Lexer.bind_eq_ok_iff.mpr ⟨_, _, second, rfl⟩
  | group head inner ih =>
    obtain ⟨levels, rfl⟩ := Nat.exists_eq_add_of_le' (Nat.one_le_of_lt within)
    obtain ⟨token, middle, step, rfl, later⟩ := hands.uncons
    obtain ⟨between, front, back⟩ := later.part
    obtain ⟨closing, last, closes, same, none⟩ := back.uncons
    cases none
    have begins := readHead_eq_ok_iff.mpr ⟨token, step, head⟩
    have nested := ih (Nat.le_of_succ_le_succ within) front
    have closed := Lexer.expect_eq_ok_iff.mpr ⟨closing, closes, same⟩
    refine Lexer.bind_eq_ok_iff.mpr ⟨_, _, begins, ?_⟩
    refine Lexer.bind_eq_ok_iff.mpr ⟨_, _, nested, ?_⟩
    exact Lexer.bind_eq_ok_iff.mpr ⟨_, _, closed, rfl⟩

/-- What is read is spelled by what the lexer has handed out. -/
theorem spells_of_readNested {levels : Nat} {e : Expr} (done : readNested levels lexer = .ok e after) :
    ∃ n pieces, n ≤ levels ∧ lexer.Hands pieces after ∧ Spells n pieces e := by
  induction levels generalizing lexer after e with
  | zero =>
    rw [readNested, Lexer.bind_eq_ok_iff] at done
    obtain ⟨head, middle, begins, done⟩ := done
    obtain ⟨token, step, spells⟩ := readHead_eq_ok_iff.mp begins
    cases head with
    | leaf expression =>
      cases done
      exact ⟨0, _, le_rfl, .one step spells.kind_ne, .leaf spells⟩
    | group => cases done
    | unary function => cases done
    | binary operation => cases done
  | succ levels ih =>
    rw [readNested, Lexer.bind_eq_ok_iff] at done
    obtain ⟨head, middle, begins, done⟩ := done
    obtain ⟨token, step, spells⟩ := readHead_eq_ok_iff.mp begins
    have inLine := spells.kind_ne
    cases head with
    | leaf expression =>
      cases done
      exact ⟨0, _, Nat.zero_le _, .one step inLine, .leaf spells⟩
    | group =>
      obtain ⟨inner, between, nested, done⟩ := Lexer.bind_eq_ok_iff.mp done
      obtain ⟨⟨⟩, last, closed, done⟩ := Lexer.bind_eq_ok_iff.mp done
      cases done
      obtain ⟨n, pieces, within, hands, spelled⟩ := ih nested
      obtain ⟨closing, closes, same⟩ := Lexer.expect_eq_ok_iff.mp closed
      refine ⟨n + 1, _, Nat.succ_le_succ within, .cons step inLine (hands.append ?_),
        .group spells spelled⟩
      rw [← same]
      refine .one closes ?_
      rw [(Prod.mk.inj same).1]
      decide
    | unary function =>
      obtain ⟨operand, between, inner, done⟩ := Lexer.bind_eq_ok_iff.mp done
      cases done
      obtain ⟨n, pieces, within, hands, spelled⟩ := ih inner
      exact ⟨n + 1, _, Nat.succ_le_succ within, .cons step inLine hands, .unary spells spelled⟩
    | binary operation =>
      obtain ⟨left, between, first, done⟩ := Lexer.bind_eq_ok_iff.mp done
      obtain ⟨right, last, second, done⟩ := Lexer.bind_eq_ok_iff.mp done
      cases done
      obtain ⟨m, front, leftWithin, handsFront, spelledLeft⟩ := ih first
      obtain ⟨n, back, rightWithin, handsBack, spelledRight⟩ := ih second
      exact ⟨max m n + 1, _, Nat.succ_le_succ (max_le leftWithin rightWithin),
        .cons step inLine (handsFront.append handsBack), .binary spells spelledLeft spelledRight⟩

/-- A line is read as an expression exactly if all of it spells the expression, within the levels of
nesting. -/
theorem ofText_eq_ok_iff {line : String} {levels : Nat} {e : Expr} :
    ofText line levels = .ok e ↔
      ∃ pieces n, Lexer.Splits line pieces ∧ Spells n pieces e ∧ n ≤ levels := by
  rw [ofText, Lexer.read_toEnd_eq_ok_iff]
  simp only [Lexer.splits_iff]
  constructor
  · rintro ⟨after, last, done, ends⟩
    obtain ⟨n, pieces, within, hands, spells⟩ := spells_of_readNested done
    exact ⟨pieces, n, ⟨after, last, hands, ends⟩, spells, within⟩
  · rintro ⟨pieces, n, ⟨after, last, hands, ends⟩, spells, within⟩
    exact ⟨after, last, readNested_of_spells spells within hands, ends⟩

/-! ## Lines that spell nothing -/

theorem Head.isSyntactic_of_ofToken {token : Token} {error : Error}
    (failed : Head.ofToken token = .error error) : error.IsSyntactic := by
  obtain ⟨kind, text, position⟩ := token
  cases kind with
  | literal => cases failed
  | name =>
    dsimp only [Head.ofToken] at failed
    split at failed <;> cases failed
  | special =>
    dsimp only [Head.ofToken] at failed
    split_ifs at failed
    split at failed
    · cases failed
    · cases failed
      exact .inl rfl
  | lineEnd =>
    cases failed
    exact .inl rfl

theorem readHead_complains : Complains readHead := by
  refine Lexer.next_complains.bind fun token => ?_
  split
  · exact .pure _
  · rename_i failed
    exact .throw (Head.isSyntactic_of_ofToken failed)

theorem readNested_complains (levels : Nat) : Complains (readNested levels) := by
  induction levels with
  | zero =>
    refine readHead_complains.bind fun head => ?_
    cases head with
    | leaf expression => exact .pure _
    | group => exact .throw (.inl rfl)
    | unary function => exact .throw (.inl rfl)
    | binary operation => exact .throw (.inl rfl)
  | succ levels ih =>
    refine readHead_complains.bind fun head => ?_
    cases head with
    | leaf expression => exact .pure _
    | group => exact ih.bind fun inner => (Lexer.expect_complains ")").bind fun _ => .pure inner
    | unary function => exact ih.bind fun operand => .pure _
    | binary operation => exact ih.bind fun left => ih.bind fun right => .pure _

theorem isSyntactic_of_ofText {line : String} {levels : Nat} {error : Error}
    (failed : ofText line levels = .error error) : error.IsSyntactic := by
  have complains : Complains (do
      let expression ← readNested levels
      Lexer.expectEnd
      return expression) :=
    (readNested_complains levels).bind fun e => Lexer.expectEnd_complains.bind fun _ => .pure e
  exact Lexer.sort_of_read complains failed

/-- Whatever number of levels of nesting is allowed, reading recognises exactly the grammar. A line is read as
an expression if and only if all of it spells the expression within these levels; every other line fails with
an error of its syntax. No tokens spell two expressions, and whatever spells an expression within the levels is
read as the expression again. -/
theorem ofText_recognises (levels : Nat) :
    (∀ line e, ofText line levels = .ok e ↔
      ∃ pieces n, Lexer.Splits line pieces ∧ Spells n pieces e ∧ n ≤ levels) ∧
    (∀ line, (∃ e, ofText line levels = .ok e) ∨
      ∃ error, ofText line levels = .error error ∧
        (error.kind = .invalidSyntax ∨ error.kind = .unknownCharacter)) ∧
    (∀ pieces m n e f, Spells m pieces e → Spells n pieces f → e = f ∧ m = n) ∧
    (∀ pieces n e, Spells n pieces e → (∀ piece ∈ pieces, piece.IsGenuine) → n ≤ levels →
      ofText (spaced pieces) levels = .ok e) := by
  refine ⟨fun line e => ofText_eq_ok_iff, ?_, ?_, ?_⟩
  · intro line
    cases read : ofText line levels with
    | ok e => exact .inl ⟨e, rfl⟩
    | error error => exact .inr ⟨error, rfl, isSyntactic_of_ofText read⟩
  · intro pieces m n e f spells again
    exact (spells.unique again).symm
  · intro pieces n e spells genuine within
    exact ofText_eq_ok_iff.mpr ⟨pieces, n, Lexer.splits_spaced genuine, spells, within⟩

/-- Parentheses may stand around any expression, as often as they like. -/
example : ofText "+ (neg a) ((b))" = .ok (.binary .add (.unary .neg (.var "a")) (.var "b")) := by
  decide +kernel

end Expr

end Abacus
