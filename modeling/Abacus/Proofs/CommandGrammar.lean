import Abacus.Command.Reader
import Abacus.Proofs.GroundField
import Abacus.Proofs.Recognition

/-!
# The grammar of commands

The pieces that spell a command (`Command.Spells`), and the pieces at the beginning of a line that end its
reading because of a modulus that is none (`Command.Fault`). Each reader recognises its part of the grammar, so
a line is read as a command exactly if all of it spells the command, and every other line fails for its syntax
or for a modulus (`Command.ofText_recognises_commands`).
-/

namespace Abacus.Command

/-! ## The grammar -/

/-- A literal without a sign and with at most ten digits behind leading zeros spells what it denotes. -/
@[mk_iff]
inductive NumberSpells : List Piece → Nat → Prop
  | intro {text : String} (word : IsDigits text.toList)
      (short : (text.toList.dropWhile (· == '0')).length ≤ maxDigits) :
      NumberSpells [(.literal, text)] (Abacus.digitsValue text.toList)

/-- `Q`, or `Z` and a prime below 2^32. -/
@[mk_iff]
inductive FieldSpells : List Piece → NumberField → Prop
  | rationals : FieldSpells [(.name, "Q")] .rationals
  | residues {pieces : List Piece} {m : Nat} (number : NumberSpells pieces m) (prime : m.Prime)
      (fits : m < 2 ^ 32) : FieldSpells ((.name, "Z") :: pieces) (.residues m)

/-- A field, or a field in brackets behind `Matrix`. -/
@[mk_iff]
inductive TypeSpells : List Piece → ValueType → Prop
  | scalar {pieces : List Piece} {field : NumberField} (inner : FieldSpells pieces field) :
      TypeSpells pieces (.scalar field)
  | matrix {pieces : List Piece} {field : NumberField} (inner : FieldSpells pieces field) :
      TypeSpells ((.name, "Matrix") :: (.special, "[") :: (pieces ++ [(.special, "]")])) (.matrix field)

/-- What stands behind the type of a definition: the name of a number; height, width and name of a matrix. -/
@[mk_iff]
inductive DefinitionSpells : ValueType → List Piece → Command → Prop
  | scalar {field : NumberField} {name : String} (free : name ∉ reservedNames) :
      DefinitionSpells (.scalar field) [(.name, name)] (.defineScalar field name)
  | matrix {field : NumberField} {first second : List Piece} {height width : Nat} {name : String}
      (tall : NumberSpells first height ∧ height ≠ 0) (wide : NumberSpells second width ∧ width ≠ 0)
      (free : name ∉ reservedNames) :
      DefinitionSpells (.matrix field) (first ++ (second ++ [(.name, name)]))
        (.defineMatrix field height width name)

/-- The pieces spell the command. -/
@[mk_iff]
inductive Spells : List Piece → Command → Prop
  | exit : Spells [(.name, "EXIT")] .exit
  | evaluate {pieces : List Piece} {type : ValueType} (typed : TypeSpells pieces type) :
      Spells ((.name, "EVAL") :: pieces) (.evaluate type)
  | define {pieces rest : List Piece} {type : ValueType} {command : Command}
      (typed : TypeSpells pieces type) (definition : DefinitionSpells type rest command) :
      Spells ((.name, "DEF") :: (pieces ++ rest)) command

/-- The pieces spell a number that is no modulus. -/
@[mk_iff]
inductive ModulusFault : List Piece → Error → Prop
  | intro {pieces : List Piece} {m : Nat} (number : NumberSpells pieces m)
      (unfit : ¬ (m.Prime ∧ m < 2 ^ 32)) : ModulusFault pieces (.compositeModulus m)

/-- A field up to a modulus that is none. -/
@[mk_iff]
inductive FieldFault : List Piece → Error → Prop
  | residues {pieces : List Piece} {error : Error} (modulus : ModulusFault pieces error) :
      FieldFault ((.name, "Z") :: pieces) error

/-- A type up to a modulus that is none. -/
@[mk_iff]
inductive TypeFault : List Piece → Error → Prop
  | scalar {pieces : List Piece} {error : Error} (inner : FieldFault pieces error) : TypeFault pieces error
  | matrix {pieces : List Piece} {error : Error} (inner : FieldFault pieces error) :
      TypeFault ((.name, "Matrix") :: (.special, "[") :: pieces) error

/-- A command up to a modulus that is none. -/
@[mk_iff]
inductive Fault : List Piece → Error → Prop
  | evaluate {pieces : List Piece} {error : Error} (typed : TypeFault pieces error) :
      Fault ((.name, "EVAL") :: pieces) error
  | define {pieces : List Piece} {error : Error} (typed : TypeFault pieces error) :
      Fault ((.name, "DEF") :: pieces) error

/-! ## Numbers -/

theorem digitsValue_eq (digits : List Char) : digitsValue digits = Abacus.digitsValue digits := by
  rw [digitsValue, Abacus.digitsValue, Nat.ofDigitChars_eq_foldl]
  simp only [Nat.mul_comm 10]

theorem smallNumber_digits (complaint : Option Nat → Error) {token : Token} (literal : token.kind = .literal)
    (word : IsDigits token.text.toList)
    (short : (token.text.toList.dropWhile (· == '0')).length ≤ maxDigits) :
    smallNumber complaint token = .ok (Abacus.digitsValue token.text.toList) := by
  simp only [smallNumber]
  rw [if_neg (by simp [literal, word.head?_ne_minus]), if_neg (Nat.not_lt_of_le short), digitsValue_eq,
    digitsValue_dropWhile]

theorem isSyntactic_of_smallNumber {complaint : Option Nat → Error}
    (syntactic : ∀ digits, (complaint digits).IsSyntactic) {token : Token} {error : Error}
    (failed : smallNumber complaint token = .error error) : error.IsSyntactic := by
  simp only [smallNumber] at failed
  split_ifs at failed
  · cases failed
    exact syntactic _
  · cases failed
    exact syntactic _

/-- A genuine token is judged by what it spells. -/
theorem numberSpells_cons_iff (complaint : Option Nat → Error) {token : Token} (genuine : token.Genuine)
    {rest : List Piece} {n : Nat} :
    NumberSpells (token.piece :: rest) n ↔ rest = [] ∧ smallNumber complaint token = .ok n := by
  constructor
  · rw [numberSpells_iff]
    rintro ⟨text, word, short, same, rfl⟩
    obtain ⟨piece, rfl⟩ := List.cons.inj same
    obtain ⟨literal, rfl⟩ := Prod.mk.inj piece
    exact ⟨rfl, smallNumber_digits complaint literal word short⟩
  · rintro ⟨rfl, judged⟩
    simp only [smallNumber] at judged
    split_ifs at judged with signed long
    obtain ⟨literal, unsigned⟩ := not_or.mp signed
    obtain ⟨_, numeral⟩ := genuine.literal (not_not.mp literal)
    cases judged
    rw [digitsValue_eq, digitsValue_dropWhile, Token.piece, not_not.mp literal]
    exact .intro (numeral.isDigits unsigned) (Nat.le_of_not_lt long)

theorem NumberSpells.begins {pieces : List Piece} {n : Nat} (spells : NumberSpells pieces n) :
    Begins pieces := by
  cases spells
  exact .intro (by decide)

theorem readSmallNumber_recognises {complaint : Option Nat → Error}
    (syntactic : ∀ digits, (complaint digits).IsSyntactic) :
    Recognises (readSmallNumber complaint) NumberSpells Blameless := by
  refine .token (fun token genuine => ?_) (fun _ _ => NumberSpells.begins) fun _ _ => False.elim
  cases judged : smallNumber complaint token with
  | ok number =>
    refine (Recognises.pure number).congr (fun rest n => ?_) fun _ _ _ => Iff.rfl
    rw [numberSpells_cons_iff complaint genuine, judged, Except.ok.injEq, eq_comm (a := number)]
  | error error =>
    refine (Recognises.complaint (isSyntactic_of_smallNumber syntactic judged)).congr (fun rest n => ?_)
      fun _ _ _ => Iff.rfl
    simp [numberSpells_cons_iff complaint genuine, judged]

theorem ofInt?_recognises (m : Nat) :
    Recognises
      (match Modulus.ofInt? m with
        | .ok modulus => pure modulus
        | .error error => throw error : EStateM Error Lexer Modulus)
      (fun rest p => rest = [] ∧ p.value = m)
      (fun rest error => rest = [] ∧ ¬ (m.Prime ∧ m < 2 ^ 32) ∧ error = .compositeModulus m) := by
  simp only [← Modulus.ofInt?_eq_ok_iff, ← Modulus.ofInt?_eq_error_iff]
  cases Modulus.ofInt? m with
  | ok p => exact (Recognises.pure p).congr (by simp [eq_comm]) (by simp)
  | error error => exact (Recognises.throw error).congr (by simp) (by simp [eq_comm])

theorem readModulus_recognises :
    Recognises readModulus (fun pieces p => NumberSpells pieces p.value) ModulusFault :=
  ((readSmallNumber_recognises fun _ => .inl rfl).check ofInt?_recognises).congr (by simp)
    (by simp [modulusFault_iff])

theorem readDimension_recognises :
    Recognises readDimension (fun pieces n => NumberSpells pieces n ∧ n ≠ 0) Blameless := by
  have judged (n : Nat) : Recognises
      (if n = 0 then throw (.invalidDimension none) else pure n : EStateM Error Lexer Nat)
      (fun rest m => rest = [] ∧ m = n ∧ n ≠ 0) (fun rest _ => rest = [] ∧ False) := by
    split
    · rename_i zero
      exact (Recognises.complaint (.inl rfl)).congr (by simp [zero]) (by simp)
    · rename_i nonzero
      exact (Recognises.pure n).congr (by simp [nonzero]) (by simp)
  exact ((readSmallNumber_recognises fun _ => .inl rfl).check judged).congr (by simp) (by simp)

/-! ## Types -/

theorem fieldSpells_cons_iff {piece : Piece} {rest : List Piece} {field : NumberField} :
    FieldSpells (piece :: rest) field ↔
      piece = (.name, "Q") ∧ rest = [] ∧ field = .rationals ∨
      piece = (.name, "Z") ∧ ∃ p : Modulus, NumberSpells rest p.value ∧ field = .residues p.value := by
  rw [fieldSpells_iff]
  constructor
  · rintro (⟨same, rfl⟩ | ⟨pieces, m, number, prime, fits, same, rfl⟩)
    · obtain ⟨rfl, rfl⟩ := List.cons.inj same
      exact .inl ⟨rfl, rfl, rfl⟩
    · obtain ⟨rfl, rfl⟩ := List.cons.inj same
      exact .inr ⟨rfl, .ofPrime m prime fits, number, rfl⟩
  · rintro (⟨rfl, rfl, rfl⟩ | ⟨rfl, p, number, rfl⟩)
    · exact .inl ⟨rfl, rfl⟩
    · exact .inr ⟨rest, p.value, number, p.prime_value, p.fits, rfl, rfl⟩

theorem FieldSpells.begins {pieces : List Piece} {field : NumberField} (spells : FieldSpells pieces field) :
    Begins pieces := by
  cases spells <;> exact .intro (by decide)

theorem FieldFault.begins {pieces : List Piece} {error : Error} (fault : FieldFault pieces error) :
    Begins pieces := by
  cases fault
  exact .intro (by decide)

theorem readFieldFrom_recognises (token : Token) :
    Recognises (readFieldFrom token) (fun rest => FieldSpells (token.piece :: rest))
      (fun rest => FieldFault (token.piece :: rest)) := by
  rw [readFieldFrom]
  split
  · rename_i rationals
    refine (Recognises.pure _).congr (fun rest field => ?_) fun rest error _ => ?_
    · simp [fieldSpells_cons_iff, Token.piece, rationals]
    · simp [fieldFault_iff, Token.piece, rationals]
  · rename_i others
    split
    · rename_i residues
      refine (readModulus_recognises.map _).congr (fun rest field => ?_) fun rest error _ => ?_
      · simp [fieldSpells_cons_iff, Token.piece, residues]
      · simp [fieldFault_iff, Token.piece, residues]
    · rename_i none
      refine (Recognises.complaint (.inl rfl)).congr (fun rest field => ?_) fun rest error _ => ?_
      · simp [fieldSpells_cons_iff, Token.piece, others, none]
      · simp [fieldFault_iff, Token.piece, none]

theorem readField_recognises : Recognises (Lexer.next >>= readFieldFrom) FieldSpells FieldFault :=
  .token (fun token _ => readFieldFrom_recognises token) (fun _ _ => FieldSpells.begins)
    fun _ _ => FieldFault.begins

theorem typeSpells_matrix_iff {rest : List Piece} {type : ValueType} :
    TypeSpells ((.name, "Matrix") :: rest) type ↔
      ∃ field inner, rest = (.special, "[") :: (inner ++ [(.special, "]")]) ∧ FieldSpells inner field ∧
        type = .matrix field := by
  rw [exists_comm]
  simp [typeSpells_iff, fieldSpells_cons_iff, and_left_comm]

theorem typeSpells_cons_iff {piece : Piece} (number : piece ≠ (.name, "Matrix")) {rest : List Piece}
    {type : ValueType} :
    TypeSpells (piece :: rest) type ↔ ∃ field, FieldSpells (piece :: rest) field ∧ type = .scalar field := by
  simp [typeSpells_iff, number]

theorem readType_recognises : Recognises readType TypeSpells TypeFault := by
  refine .token (fun token _ => ?_) ?_ ?_
  · split
    · rename_i matrix
      have piece : token.piece = (.name, "Matrix") := by simp [Token.piece, matrix]
      -- the reader of the field is joined with what takes its first token
      have bracketed := (Recognises.expect "[").bind fun _ => readField_recognises.bind fun field =>
        (Recognises.expect "]").map fun _ => ValueType.matrix field
      rw [bind_assoc] at bracketed
      refine bracketed.congr (fun rest type => ?_) fun rest error _ => ?_
      · rw [piece, typeSpells_matrix_iff]
        simp
      · simp [piece, typeFault_iff, fieldFault_iff, and_comm]
    · rename_i scalar
      have number : token.piece ≠ (.name, "Matrix") := by simpa [Token.piece] using scalar
      refine ((readFieldFrom_recognises token).map _).congr (fun rest type => ?_) fun rest error _ => ?_
      · exact typeSpells_cons_iff number
      · simp [typeFault_iff, number]
  · rintro _ _ (inner | inner)
    · exact inner.begins
    · exact .intro (by decide)
  · rintro _ _ (inner | inner)
    · exact inner.begins
    · exact .intro (by decide)

/-! ## Commands -/

theorem readName_recognises :
    Recognises readName (fun pieces name => pieces = [(.name, name)] ∧ name ∉ reservedNames) Blameless := by
  refine .token (fun token _ => ?_) ?_ fun _ _ => False.elim
  · split
    · rename_i other
      exact (Recognises.complaint (.inl rfl)).congr (by simp [Token.piece, other]) fun _ _ _ => Iff.rfl
    · rename_i named
      have piece : token.piece = (.name, token.text) := by rw [Token.piece, not_not.mp named]
      split
      · rename_i reserved
        refine (Recognises.complaint (.inl rfl)).congr (fun rest name => ?_) fun _ _ _ => Iff.rfl
        simp only [piece, List.cons.injEq, Prod.mk.injEq, iff_false]
        rintro ⟨⟨⟨-, rfl⟩, -⟩, free⟩
        exact free (by simpa using reserved)
      · rename_i free
        refine (Recognises.pure token.text).congr (fun rest name => ?_) fun _ _ _ => Iff.rfl
        simp only [piece, List.cons.injEq, Prod.mk.injEq, true_and]
        constructor
        · rintro ⟨⟨rfl, rfl⟩, -⟩
          exact ⟨rfl, rfl⟩
        · rintro ⟨rfl, rfl⟩
          exact ⟨⟨rfl, rfl⟩, by simpa using free⟩
  · rintro _ _ ⟨rfl, -⟩
    exact .intro (by decide)

theorem readDefinition_recognises :
    Recognises readDefinition
      (fun pieces command => ∃ type front back, pieces = front ++ back ∧ TypeSpells front type ∧
        DefinitionSpells type back command) TypeFault := by
  refine (readType_recognises.bind fun type =>
    show Recognises _ (DefinitionSpells type) Blameless from ?_).congr (fun _ _ => Iff.rfl) (by simp)
  cases type with
  | scalar field =>
    exact (readName_recognises.map _).congr (by simp [definitionSpells_iff, and_assoc, and_left_comm])
      fun _ _ _ => Iff.rfl
  | matrix field =>
    have sized := readDimension_recognises.bind fun height => readDimension_recognises.bind fun width =>
      readName_recognises.map (Command.defineMatrix field height width)
    refine sized.congr (fun rest command => ?_) (by simp)
    rw [definitionSpells_iff]
    constructor
    · rintro (⟨_, _, _, ⟨⟩, -⟩ | ⟨_, first, second, height, width, name, tall, wide, free, ⟨⟩, rfl, rfl⟩)
      exact ⟨height, first, _, rfl, tall, width, second, _, rfl, wide, name, ⟨rfl, free⟩, rfl⟩
    · rintro ⟨height, first, _, rfl, tall, width, second, _, rfl, wide, name, ⟨rfl, free⟩, rfl⟩
      exact .inr ⟨field, first, second, height, width, name, tall, wide, free, rfl, rfl, rfl⟩

theorem spells_cons_iff {word : String} {rest : List Piece} {command : Command} :
    Spells ((.name, word) :: rest) command ↔
      word = "EXIT" ∧ rest = [] ∧ command = .exit ∨
      word = "EVAL" ∧ (∃ type, TypeSpells rest type ∧ command = .evaluate type) ∨
      word = "DEF" ∧ ∃ type front back, rest = front ++ back ∧ TypeSpells front type ∧
        DefinitionSpells type back command := by
  rw [spells_iff]
  constructor
  · rintro (⟨same, rfl⟩ | ⟨pieces, type, typed, same, rfl⟩ | ⟨front, back, type, typed, definition, same⟩)
    · cases same
      exact .inl ⟨rfl, rfl, rfl⟩
    · cases same
      exact .inr (.inl ⟨rfl, type, typed, rfl⟩)
    · cases same
      exact .inr (.inr ⟨rfl, type, front, back, rfl, typed, definition⟩)
  · rintro (⟨rfl, rfl, rfl⟩ | ⟨rfl, type, typed, rfl⟩ | ⟨rfl, type, front, back, rfl, typed, definition⟩)
    · exact .inl ⟨rfl, rfl⟩
    · exact .inr (.inl ⟨rest, type, typed, rfl, rfl⟩)
    · exact .inr (.inr ⟨front, back, type, typed, definition, rfl⟩)

theorem fault_cons_iff {word : String} {rest : List Piece} {error : Error} :
    Fault ((.name, word) :: rest) error ↔ (word = "EVAL" ∨ word = "DEF") ∧ TypeFault rest error := by
  simp [fault_iff, or_and_right, and_comm]

theorem readCommand_recognises (line : String) : Recognises (readCommand line) Spells Fault := by
  refine .token (fun token _ => ?_) ?_ ?_
  · split
    · rename_i other
      refine (Recognises.complaint (.inl rfl)).congr (fun rest name => ?_) fun _ _ _ => ?_
      · simp [spells_iff, Token.piece, other]
      · simp [fault_iff, Token.piece, other]
    · rename_i named
      simp only [Token.piece, not_not.mp named]
      split
      · rename_i word
        exact (Recognises.pure _).congr (by simp [spells_cons_iff, word]) (by simp [fault_cons_iff, word])
      · rename_i word
        exact (readType_recognises.map _).congr (by simp [spells_cons_iff, word])
          (by simp [fault_cons_iff, word])
      · rename_i word
        exact readDefinition_recognises.congr (by simp [spells_cons_iff, word])
          (by simp [fault_cons_iff, word])
      · rename_i noExit noEval noDef
        have none : token.text ≠ "EXIT" ∧ token.text ≠ "EVAL" ∧ token.text ≠ "DEF" :=
          ⟨noExit, noEval, noDef⟩
        exact (Recognises.complaint (.inl rfl)).congr (by simp [spells_cons_iff, none])
          (by simp [fault_cons_iff, none])
  · rintro _ _ (_ | _ | _) <;> exact .intro (by decide)
  · rintro _ _ (_ | _) <;> exact .intro (by decide)

/-! ## Whole lines -/

theorem Fault.isComposite {pieces : List Piece} {error : Error} (fault : Fault pieces error) :
    ∃ m, error = .compositeModulus m := by
  have ofField {pieces : List Piece} (fault : FieldFault pieces error) : ∃ m, error = .compositeModulus m := by
    obtain ⟨⟨number, unfit⟩⟩ := fault
    exact ⟨_, rfl⟩
  obtain (inner | inner) | (inner | inner) := fault <;> exact ofField inner

theorem ofText_eq_ok_iff {line : String} {command : Command} :
    ofText line = .ok command ↔ ∃ pieces, Lexer.Splits line pieces ∧ Spells pieces command :=
  (readCommand_recognises line).read_eq_ok_iff

theorem ofText_eq_error_iff {line : String} {error : Error} (grave : ¬ error.IsSyntactic) :
    ofText line = .error error ↔ ∃ pieces after, (Lexer.ofText line).Hands pieces after ∧ Fault pieces error :=
  (readCommand_recognises line).read_eq_error_iff grave

/-- A line that is no command fails for its syntax or for a modulus. -/
theorem cause_of_ofText {line : String} {error : Error} (failed : ofText line = .error error) :
    error.IsSyntactic ∨ ∃ m, error = .compositeModulus m := by
  by_cases syntactic : error.IsSyntactic
  · exact .inl syntactic
  · obtain ⟨pieces, after, -, fault⟩ := (ofText_eq_error_iff syntactic).mp failed
    exact .inr fault.isComposite

/-- A line is read as a command if and only if all of it spells the command. Every other line fails for its
syntax, an unknown character or a modulus. It fails for a modulus if and only if it begins with a command up to
a number of at most ten digits that is no prime below 2^32. What spells a command is read as the command from
the line that it makes up. -/
theorem ofText_recognises_commands :
    (∀ line command, ofText line = .ok command ↔
      ∃ pieces, Lexer.Splits line pieces ∧ Spells pieces command) ∧
    (∀ line, (∃ command, ofText line = .ok command) ∨
      ∃ error, ofText line = .error error ∧
        (error.kind = .invalidSyntax ∨ error.kind = .unknownCharacter ∨ ∃ m, error = .compositeModulus m)) ∧
    (∀ line m, ofText line = .error (.compositeModulus m) ↔
      ∃ pieces after, (Lexer.ofText line).Hands pieces after ∧ Fault pieces (.compositeModulus m)) ∧
    (∀ pieces command, Spells pieces command → (∀ piece ∈ pieces, piece.IsGenuine) →
      ofText (spaced pieces) = .ok command) := by
  refine ⟨fun line command => ofText_eq_ok_iff, ?_, fun line m => ofText_eq_error_iff ?_, ?_⟩
  · intro line
    cases read : ofText line with
    | ok command => exact .inl ⟨command, rfl⟩
    | error error => exact .inr ⟨error, rfl, or_assoc.mp (cause_of_ofText read)⟩
  · rintro (kind | kind) <;> cases kind
  · intro pieces command spells genuine
    exact ofText_eq_ok_iff.mpr ⟨pieces, Lexer.splits_spaced genuine, spells⟩

/-- Zeros in front of a number do not count. A modulus is checked before the rest of the line is looked at. -/
example :
    ofText "DEF Matrix[Z 00000000007] 2 03 A" = .ok (.defineMatrix (.residues 7) 2 3 "A") ∧
      ofText "DEF Matrix[Z 9 $" = .error (.compositeModulus 9) := by
  decide +kernel

end Abacus.Command
