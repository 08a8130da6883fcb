import Abacus.Command.Reader
import Abacus.Expr.Reader
import Abacus.Proofs.Peeking
import Abacus.Proofs.Pieces
import Abacus.Proofs.Tiling

/-!
# Lines with the same tokens

Two lexers that hand out the same kinds and texts up to the same ending (`Lexer.SameTokens`) are read alike,
token by token (`ReadsAlike`): the readers come to the same result, or to errors of one kind. The places of the
tokens go into no more than the wording of an error. So lines with the same tokens make up the same command and
the same expression (`Command.ofText_alike`, `Expr.ofText_alike`).
-/

namespace Abacus

/-- Both come to the same answer, or both to errors of the same kind. -/
inductive Alike {α : Type} : Except Error α → Except Error α → Prop
  | ok (answer : α) : Alike (.ok answer) (.ok answer)
  | error {error other : Error} (sameKind : error.kind = other.kind) : Alike (.error error) (.error other)

namespace Lexer

/-- Neither lexer has scanned ahead, and both hand out the same pieces before they end in the same way. -/
structure SameTokens (lexer other : Lexer) : Prop where
  fresh : lexer.peeked = none
  freshOther : other.peeked = none
  pieces : lexer.iterate.1.map Token.piece = other.iterate.1.map Token.piece
  ending : outcome lexer.iterate.2 = outcome other.iterate.2

variable {lexer other after otherAfter : Lexer} {token otherToken : Token} {error : Error}

/-! ## The next token -/

theorem peeked_of_next (fresh : lexer.peeked = none) (step : next lexer = .ok token after) :
    after.peeked = none := by
  have kept := peeked_remains_next fresh
  rwa [step] at kept

/-- At the end of the line a lexer stays, and nothing is spelled out. -/
theorem iterate_of_ended (fresh : lexer.peeked = none) (step : next lexer = .ok token after)
    (ends : token.kind = .lineEnd) : token.text = "" ∧ iterate after = ([], .ok () after) := by
  have kept := peeked_of_next fresh step
  rw [next_of_peeked_none fresh] at step
  obtain ⟨again, empty⟩ := scan_of_lineEnd step ends
  exact ⟨empty, iterate_of_lineEnd ((next_of_peeked_none kept).trans again) ends⟩

namespace SameTokens

/-- Lexers with the same tokens fail together. -/
theorem next_error (same : SameTokens lexer other) (step : next lexer = .error error after) :
    ∃ otherAfter, next other = .error error otherAfter := by
  obtain ⟨-, -, pieces, ending⟩ := same
  rw [iterate_of_error step] at pieces ending
  cases otherStep : next other with
  | error stuck otherAfter =>
    rw [iterate_of_error otherStep] at ending
    cases ending
    exact ⟨otherAfter, rfl⟩
  | ok token otherAfter =>
    by_cases ends : token.kind = .lineEnd
    · rw [iterate_of_lineEnd otherStep ends] at ending
      cases ending
    · rw [iterate_of_next otherStep ends] at pieces
      cases pieces

/-- Lexers with the same tokens hand out the same piece, and have the same tokens behind it. -/
theorem next_ok (same : SameTokens lexer other) (step : next lexer = .ok token after)
    (otherStep : next other = .ok otherToken otherAfter) :
    token.piece = otherToken.piece ∧ SameTokens after otherAfter := by
  obtain ⟨fresh, freshOther, pieces, ending⟩ := same
  have settled := peeked_of_next fresh step
  have settledOther := peeked_of_next freshOther otherStep
  by_cases ends : token.kind = .lineEnd <;> by_cases endsOther : otherToken.kind = .lineEnd
  · obtain ⟨empty, stays⟩ := iterate_of_ended fresh step ends
    obtain ⟨emptyOther, staysOther⟩ := iterate_of_ended freshOther otherStep endsOther
    refine ⟨?_, settled, settledOther, by rw [stays, staysOther], by rw [stays, staysOther]; rfl⟩
    rw [Token.piece, Token.piece, ends, endsOther, empty, emptyOther]
  · rw [iterate_of_lineEnd step ends, iterate_of_next otherStep endsOther] at pieces
    cases pieces
  · rw [iterate_of_next step ends, iterate_of_lineEnd otherStep endsOther] at pieces
    cases pieces
  · rw [iterate_of_next step ends, iterate_of_next otherStep endsOther] at pieces ending
    obtain ⟨here, behind⟩ := List.cons.inj pieces
    exact ⟨here, settled, settledOther, behind, ending⟩

theorem symm (same : SameTokens lexer other) : SameTokens other lexer :=
  ⟨same.freshOther, same.fresh, same.pieces.symm, same.ending.symm⟩

end SameTokens

end Lexer

open Lexer (SameTokens)

/-! ## Readers -/

/-- Both readers return the same and leave lexers with the same tokens, or both fail with errors of one kind. -/
inductive SameReading {α : Type} : EStateM.Result Error Lexer α → EStateM.Result Error Lexer α → Prop
  | ok (result : α) {after otherAfter : Lexer} (onward : SameTokens after otherAfter) :
      SameReading (.ok result after) (.ok result otherAfter)
  | error {error other : Error} (sameKind : error.kind = other.kind) (after otherAfter : Lexer) :
      SameReading (.error error after) (.error other otherAfter)

/-- Where the tokens are the same, the readers read the same. -/
def ReadsAlike {α : Type} (reader other : EStateM Error Lexer α) : Prop :=
  ∀ ⦃lexer otherLexer : Lexer⦄, SameTokens lexer otherLexer → SameReading (reader lexer) (other otherLexer)

namespace ReadsAlike
variable {α β : Type} {reader other : EStateM Error Lexer α}

theorem pure (result : α) : ReadsAlike (Pure.pure result) (Pure.pure result) :=
  fun _ _ same => .ok result same

theorem throw {error other : Error} (sameKind : error.kind = other.kind) :
    ReadsAlike (throw error : EStateM Error Lexer α) (throw other) :=
  fun _ _ _ => .error sameKind _ _

theorem bind {next otherNext : α → EStateM Error Lexer β} (begins : ReadsAlike reader other)
    (continues : ∀ result, ReadsAlike (next result) (otherNext result)) :
    ReadsAlike (reader >>= next) (other >>= otherNext) := by
  intro lexer otherLexer same
  show SameReading (EStateM.bind reader next lexer) (EStateM.bind other otherNext otherLexer)
  have first := begins same
  rw [EStateM.bind, EStateM.bind]
  generalize reader lexer = read, other otherLexer = otherRead at first ⊢
  cases first with
  | ok result onward => exact continues result onward
  | error sameKind after otherAfter => exact .error sameKind after otherAfter

/-- The readers take the next token, and go on in the same way wherever it stands. -/
theorem token {next otherNext : Token → EStateM Error Lexer α}
    (continues : ∀ kind text place otherPlace,
      ReadsAlike (next ⟨kind, text, place⟩) (otherNext ⟨kind, text, otherPlace⟩)) :
    ReadsAlike (Lexer.next >>= next) (Lexer.next >>= otherNext) := by
  intro lexer otherLexer same
  show SameReading (EStateM.bind Lexer.next next lexer) (EStateM.bind Lexer.next otherNext otherLexer)
  rw [EStateM.bind, EStateM.bind]
  cases step : Lexer.next lexer with
  | error error after =>
    obtain ⟨otherAfter, otherStep⟩ := same.next_error step
    rw [otherStep]
    exact .error rfl after otherAfter
  | ok token after =>
    cases otherStep : Lexer.next otherLexer with
    | error error otherAfter =>
      obtain ⟨stuck, failed⟩ := same.symm.next_error otherStep
      rw [failed] at step
      cases step
    | ok otherToken otherAfter =>
      obtain ⟨piece, onward⟩ := same.next_ok step otherStep
      obtain ⟨kind, text, place⟩ := token
      obtain ⟨otherKind, otherText, otherPlace⟩ := otherToken
      cases piece
      exact continues kind text place otherPlace onward

theorem ite {condition : Prop} [Decidable condition] {yes no otherYes otherNo : EStateM Error Lexer α}
    (holds : ReadsAlike yes otherYes) (fails : ReadsAlike no otherNo) :
    ReadsAlike (if condition then yes else no) (if condition then otherYes else otherNo) := by
  split
  · exact holds
  · exact fails

/-- Lines with the same tokens are read alike. -/
theorem read (alike : ReadsAlike reader other) {line otherLine : String}
    (same : SameTokens (Lexer.ofText line) (Lexer.ofText otherLine)) :
    Alike (Lexer.read reader line) (Lexer.read other otherLine) := by
  have whole := alike same
  rw [Lexer.read, Lexer.read]
  generalize reader (Lexer.ofText line) = read, other (Lexer.ofText otherLine) = otherRead at whole ⊢
  cases whole with
  | ok result onward => exact .ok result
  | error sameKind after otherAfter => exact .error sameKind

end ReadsAlike

namespace Lexer

theorem expect_alike (sought : String) : ReadsAlike (expect sought) (expect sought) :=
  .token fun _ _ _ _ => .ite (.pure ()) (.throw rfl)

theorem expectEnd_alike : ReadsAlike expectEnd expectEnd :=
  .token fun _ _ _ _ => .ite (.pure ()) (.throw rfl)

/-- What is read to the end of the line is alike if it is alike before the end. -/
theorem read_toEnd_alike {α : Type} {reader other : EStateM Error Lexer α} (alike : ReadsAlike reader other)
    {line otherLine : String} (same : SameTokens (ofText line) (ofText otherLine)) :
    Alike (read (do let result ← reader; expectEnd; return result) line)
      (read (do let result ← other; expectEnd; return result) otherLine) :=
  ReadsAlike.read (alike.bind fun result => expectEnd_alike.bind fun _ => .pure result) same

end Lexer

/-! ## Expressions -/

namespace Expr

/-- The place of a token decides nothing about the beginning of an expression. -/
theorem Head.ofToken_alike (kind : TokenKind) (text : String) (place otherPlace : Nat) :
    Alike (Head.ofToken ⟨kind, text, place⟩) (Head.ofToken ⟨kind, text, otherPlace⟩) := by
  cases kind with
  | literal => exact .ok _
  | lineEnd => exact .error rfl
  | name =>
    simp only [Head.ofToken]
    split <;> exact .ok _
  | special =>
    simp only [Head.ofToken]
    split
    · exact .ok _
    · split
      · exact .ok _
      · exact .error rfl

theorem readHead_alike : ReadsAlike readHead readHead := by
  refine .token fun kind text place otherPlace => ?_
  have alike := Head.ofToken_alike kind text place otherPlace
  generalize Head.ofToken ⟨kind, text, place⟩ = head,
    Head.ofToken ⟨kind, text, otherPlace⟩ = otherHead at alike ⊢
  cases alike with
  | ok head => exact .pure head
  | error sameKind => exact .throw sameKind

theorem readNested_alike (levels : Nat) : ReadsAlike (readNested levels) (readNested levels) := by
  induction levels with
  | zero =>
    refine readHead_alike.bind fun head => ?_
    cases head with
    | leaf e => exact .pure e
    | group | unary | binary => exact .throw rfl
  | succ levels ih =>
    refine readHead_alike.bind fun head => ?_
    cases head with
    | leaf e => exact .pure e
    | group => exact ih.bind fun inner => (Lexer.expect_alike ")").bind fun _ => .pure inner
    | unary function => exact ih.bind fun _ => .pure _
    | binary operation => exact ih.bind fun _ => ih.bind fun _ => .pure _

/-- Lines with the same tokens make up the same expression. -/
theorem ofText_alike {line otherLine : String}
    (same : SameTokens (Lexer.ofText line) (Lexer.ofText otherLine)) (levels : Nat) :
    Alike (ofText line levels) (ofText otherLine levels) :=
  Lexer.read_toEnd_alike (readNested_alike levels) same

end Expr

/-! ## Commands -/

namespace Command

theorem readSmallNumber_alike (complaint : Option Nat → Error) :
    ReadsAlike (readSmallNumber complaint) (readSmallNumber complaint) := by
  refine .token fun kind text place otherPlace => ?_
  have placeless : smallNumber complaint ⟨kind, text, otherPlace⟩ =
      smallNumber complaint ⟨kind, text, place⟩ := rfl
  rw [placeless]
  split
  · exact .pure _
  · exact .throw rfl

theorem readModulus_alike : ReadsAlike readModulus readModulus := by
  refine (readSmallNumber_alike .invalidModulus).bind fun value => ?_
  split
  · exact .pure _
  · exact .throw rfl

theorem readDimension_alike : ReadsAlike readDimension readDimension :=
  (readSmallNumber_alike .invalidDimension).bind fun _ => .ite (.throw rfl) (.pure _)

theorem readFieldFrom_alike (kind : TokenKind) (text : String) (place otherPlace : Nat) :
    ReadsAlike (readFieldFrom ⟨kind, text, place⟩) (readFieldFrom ⟨kind, text, otherPlace⟩) :=
  .ite (.pure _) (.ite (readModulus_alike.bind fun _ => .pure _) (.throw rfl))

theorem readType_alike : ReadsAlike readType readType := by
  refine .token fun kind text place otherPlace => .ite ?_ ?_
  · exact (Lexer.expect_alike "[").bind fun _ => .token fun kind text place otherPlace =>
      (readFieldFrom_alike kind text place otherPlace).bind fun field =>
        (Lexer.expect_alike "]").bind fun _ => .pure _
  · exact (readFieldFrom_alike kind text place otherPlace).bind fun field => .pure _

theorem readName_alike : ReadsAlike readName readName :=
  .token fun _ _ _ _ => .ite (.throw rfl) (.ite (.throw rfl) (.pure _))

theorem readDefinition_alike : ReadsAlike readDefinition readDefinition := by
  refine readType_alike.bind fun type => ?_
  cases type with
  | scalar field => exact readName_alike.bind fun name => .pure _
  | matrix field =>
    exact readDimension_alike.bind fun height => readDimension_alike.bind fun width =>
      readName_alike.bind fun name => .pure _

/-- The line goes into no more than the wording of an error. -/
theorem readCommand_alike (line otherLine : String) : ReadsAlike (readCommand line) (readCommand otherLine) := by
  refine .token fun kind text place otherPlace => .ite (.throw rfl) ?_
  dsimp only
  split
  · exact .pure _
  · exact readType_alike.bind fun type => .pure _
  · exact readDefinition_alike
  · exact .throw rfl

/-- Lines with the same tokens make up the same command. -/
theorem ofText_alike {line otherLine : String}
    (same : SameTokens (Lexer.ofText line) (Lexer.ofText otherLine)) : Alike (ofText line) (ofText otherLine) :=
  Lexer.read_toEnd_alike (readCommand_alike line otherLine) same

end Command

end Abacus
