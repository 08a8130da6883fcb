import Abacus.Proofs.Decimal
import Abacus.Proofs.Reading

/-!
# Spelling tokens

A token that is spelled out, after any gap and before characters in which it does not go on, is the next
token of its line (`Lexer.next_spelled`). Behind the last token comes the end of the line
(`Lexer.next_lineEnd`).
-/

namespace Abacus

/-- A word of letters is a name. -/
theorem isName_word (word : String) (nonempty : word.toList ≠ [])
    (letters : word.toList.all Char.isAlpha = true) : IsName word.toList := by
  have each := List.all_eq_true.mp letters
  cases chars : word.toList with
  | nil => exact absurd chars nonempty
  | cons first rest =>
    rw [chars] at each
    refine .intro (.inl (each first List.mem_cons_self)) fun c member => ?_
    exact .inl (each c (List.mem_cons_of_mem first member))

namespace Token

/-- The characters are those of a token of the given kind. -/
inductive Spells : TokenKind → List Char → Prop
  | special {c : Char} (single : isSpecial c = true) : Spells .special [c]
  | literal {chars : List Char} {n : Int} (numeral : Numeral chars n) : Spells .literal chars
  | name {chars : List Char} (isName : IsName chars) : Spells .name chars

/-- A token of the kind does not go on with the character. -/
def Stops (kind : TokenKind) (c : Char) : Prop :=
  match kind with
  | .name => continuesName c = false
  | .special | .literal | .lineEnd => c.isDigit = false

theorem Stops.not_isDigit {c : Char} (stops : Stops .name c) : c.isDigit = false := by
  have apart : continuesName c = false := stops
  rw [continuesName, Bool.or_eq_false_iff] at apart
  exact apart.2

/-- What ends a name ends every token. -/
theorem Stops.ofKind {c : Char} (stops : Stops .name c) (kind : TokenKind) : Stops kind c := by
  cases kind with
  | name => exact stops
  | special | literal | lineEnd => exact stops.not_isDigit

/-- No token goes on with what is neither a digit nor a letter of names. -/
theorem stops_of_neither {c : Char} (notDigit : c.isDigit = false) (notLetter : startsName c = false)
    (kind : TokenKind) : Stops kind c := by
  have stops : Stops .name c := by rw [Stops, continuesName, notLetter, notDigit, Bool.or_self]
  exact stops.ofKind kind

/-- A token of the kind and characters does not go on in what follows: no digit comes after a literal or a
minus sign, and nothing that continues a name after a name. -/
def EndsBefore (kind : TokenKind) (lexeme rest : List Char) : Prop :=
  ∀ c ∈ rest.head?,
    match kind with
    | .special => lexeme = ['-'] → c.isDigit = false
    | .literal => c.isDigit = false
    | .name => continuesName c = false
    | .lineEnd => True

theorem endsBefore_of_stops {kind : TokenKind} {lexeme rest : List Char}
    (stops : ∀ c ∈ rest.head?, Stops kind c) : EndsBefore kind lexeme rest := by
  intro c head
  cases kind with
  | special => exact fun _ => stops c head
  | literal | name => exact stops c head
  | lineEnd => trivial

/-! ## Kinds of characters -/

theorem not_startsName_of_isDigit {c : Char} (digit : c.isDigit = true) : startsName c = false := by
  obtain ⟨-, high⟩ := isDigit_iff.mp digit
  have below : ∀ letter : Char, 57 < letter.toNat → ¬ letter.val ≤ c.val :=
    fun letter above reached =>
      absurd (above.trans_le ((UInt32.le_iff_toNat_le.mp reached).trans high)) (lt_irrefl 57)
  rw [Bool.eq_false_iff]
  intro starts
  rcases Bool.or_eq_true_iff.mp starts with letter | line
  · have cased : c.isUpper = true ∨ c.isLower = true := Bool.or_eq_true_iff.mp letter
    rcases cased with upper | lower
    · exact below 'A' (by decide) (of_decide_eq_true upper).1
    · exact below 'a' (by decide) (of_decide_eq_true (Bool.and_eq_true_iff.mp lower).1)
  · obtain rfl : c = '_' := beq_iff_eq.mp line
    exact absurd high (by decide)

/-- A special character is no part of any other token. -/
theorem isSpecial_cases {c : Char} (single : isSpecial c = true) :
    c.isDigit = false ∧ startsName c = false := by
  simp only [isSpecial, List.contains_iff_mem, List.mem_cons, List.not_mem_nil, or_false] at single
  rcases single with rfl | rfl | rfl | rfl | rfl | rfl | rfl | rfl <;> decide

/-- A character that begins a name begins nothing else. -/
theorem startsName_cases {c : Char} (starts : startsName c = true) :
    c.isDigit = false ∧ isSpecial c = false := by
  constructor
  · rw [Bool.eq_false_iff]
    exact fun digit => Bool.eq_false_iff.mp (not_startsName_of_isDigit digit) starts
  · rw [Bool.eq_false_iff]
    exact fun single => Bool.eq_false_iff.mp (isSpecial_cases single).2 starts

/-- What separates tokens begins none. -/
theorem isGap_cases {c : Char} (gap : isGap c = true) :
    c.isDigit = false ∧ isSpecial c = false ∧ startsName c = false := by
  simp only [isGap, Bool.or_eq_true, beq_iff_eq] at gap
  rcases gap with rfl | rfl <;> decide

theorem isGap_of_mem_space {c : Char} (member : c ∈ [' ']) : isGap c = true := by
  rw [List.mem_singleton.mp member]
  rfl

theorem stops_of_isGap {c : Char} (gap : isGap c = true) (kind : TokenKind) : Stops kind c := by
  obtain ⟨notDigit, -, notLetter⟩ := isGap_cases gap
  exact stops_of_neither notDigit notLetter kind

theorem stops_blank (kind : TokenKind) : Stops kind ' ' :=
  stops_of_isGap rfl kind

theorem Spells.ne_nil {kind : TokenKind} {lexeme : List Char} (spells : Spells kind lexeme) :
    lexeme ≠ [] := by
  cases spells with
  | special single => exact List.cons_ne_nil _ _
  | literal numeral => exact numeral.isNumberText.nonempty
  | name isName => cases isName with
    | intro begins continues => exact List.cons_ne_nil _ _

/-- The end of the line is not spelled out. -/
theorem Spells.kind_ne {kind : TokenKind} {lexeme : List Char} (spells : Spells kind lexeme) :
    kind ≠ .lineEnd := by
  rintro rfl
  cases spells

theorem Spells.not_isGap {kind : TokenKind} {first : Char} {others : List Char}
    (spells : Spells kind (first :: others)) : isGap first = false := by
  rw [Bool.eq_false_iff]
  intro gap
  obtain ⟨notDigit, notSpecial, notLetter⟩ := isGap_cases gap
  cases spells with
  | special single => exact Bool.eq_false_iff.mp notSpecial single
  | literal numeral =>
    cases numeral with
    | unsigned word => exact Bool.eq_false_iff.mp notDigit (word.all first List.mem_cons_self)
    | signed word => exact absurd gap (by decide)
  | name isName =>
    cases isName with
    | intro begins continues => exact Bool.eq_false_iff.mp notLetter (startsName_iff.mpr begins)

/-! ## Tokens -/

/-- A token that is spelled out is found up to where it stops. -/
theorem lexeme?_of_spells {kind : TokenKind} {first : Char} {others rest : List Char}
    (spells : Spells kind (first :: others)) (ends : EndsBefore kind (first :: others) rest) :
    lexeme? first (others ++ rest) = some (kind, first :: others) := by
  cases spells with
  | special single =>
    obtain ⟨notDigit, -⟩ := isSpecial_cases single
    have noSign : (first == '-' && !(([] ++ rest).takeWhile Char.isDigit).isEmpty) = false := by
      by_cases minus : first = '-'
      · subst minus
        have noDigits : ([] ++ rest).takeWhile Char.isDigit = [] :=
          takeWhile_run nofun fun c head => ends c head rfl
        rw [noDigits]
        rfl
      · rw [beq_eq_false_iff_ne.mpr minus, Bool.false_and]
    simp only [lexeme?, noSign, notDigit, single, Bool.or_self, Bool.false_eq_true, if_false, if_true]
  | literal numeral =>
    cases numeral with
    | unsigned word =>
      obtain ⟨begins, continues⟩ := List.forall_mem_cons.mp word.all
      simp only [lexeme?, takeWhile_run continues ends, begins, Bool.true_or, if_true]
    | signed word =>
      have some : others.isEmpty = false := by simpa using word.nonempty
      simp only [lexeme?, takeWhile_run word.all ends, some]
      rfl
  | name isName =>
    cases isName with
    | intro begins continues =>
      have starts := startsName_iff.mpr begins
      obtain ⟨notDigit, notSpecial⟩ := startsName_cases starts
      have notMinus : (first == '-') = false := by
        rw [beq_eq_false_iff_ne]
        rintro rfl
        exact absurd starts (by decide)
      have goesOn := fun c member => continuesName_iff.mpr (continues c member)
      simp only [lexeme?, takeWhile_run goesOn ends, notDigit, notMinus, notSpecial, starts,
        Bool.false_and, Bool.or_self, Bool.false_eq_true, if_false, if_true]

end Token

namespace Lexer
open Token (isGap Spells EndsBefore)

/-- The next token is the one that is spelled out after a gap. -/
theorem next_spelled {kind : TokenKind} {gap lexeme rest : List Char}
    (blank : ∀ c ∈ gap, isGap c = true) (spells : Spells kind lexeme)
    (ends : EndsBefore kind lexeme rest) (position : Nat) :
    next ⟨gap ++ (lexeme ++ rest), position, none⟩ =
      .ok ⟨kind, String.ofList lexeme, position + gap.length⟩
        ⟨rest, position + gap.length + lexeme.length, none⟩ := by
  cases lexeme with
  | nil => exact absurd rfl spells.ne_nil
  | cons first others =>
    have solid : ∀ c ∈ (first :: (others ++ rest)).head?, isGap c = false := fun c head => by
      obtain rfl : first = c := Option.some.inj head
      exact spells.not_isGap
    have found := Token.lexeme?_of_spells spells ends
    have left : (first :: (others ++ rest)).drop (others.length + 1) = rest := List.drop_left
    rw [List.cons_append]
    simp only [next, scan, takeWhile_run blank solid, dropWhile_run blank solid, found,
      List.length_cons, left]

/-- After a last gap comes the end of the line. -/
theorem next_lineEnd {gap : List Char} (blank : ∀ c ∈ gap, isGap c = true) (position : Nat) :
    next ⟨gap, position, none⟩ =
      .ok ⟨.lineEnd, "", position + gap.length⟩ ⟨[], position + gap.length, none⟩ := by
  have all : gap.takeWhile isGap = gap := List.takeWhile_eq_self_iff.mpr blank
  have nothing : gap.dropWhile isGap = [] := List.dropWhile_eq_nil_iff.mpr blank
  simp only [next, scan, all, nothing]

end Lexer

end Abacus
