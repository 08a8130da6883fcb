import Abacus.Error
import Abacus.Token

/-!
# Reading tokens

A lexer stands somewhere in a line and hands out its tokens one at a time. Peeking scans the next
token and keeps it, so that it is handed out again. A character that begins no token is reported
each time it is reached; the lexer stays in front of it.
-/

namespace Abacus

/-- A place in a line, and the token scanned ahead of its turn. -/
structure Lexer where
  rest : List Char
  position : Nat
  peeked : Option Token

namespace Lexer

/-- A lexer at the start of `line`. -/
def ofText (line : String) : Lexer :=
  ⟨line.toList, 0, none⟩

def scan : EStateM Error Lexer Token := fun lexer =>
  let start := lexer.position + (lexer.rest.takeWhile Token.isGap).length
  match lexer.rest.dropWhile Token.isGap with
  | [] => .ok ⟨.lineEnd, "", start⟩ { lexer with rest := [], position := start }
  | first :: rest =>
    match Token.lexeme? first rest with
    | some (kind, lexeme) =>
      .ok ⟨kind, String.ofList lexeme, start⟩
        { lexer with
          rest := (first :: rest).drop lexeme.length, position := start + lexeme.length }
    | none =>
      .error (.unknownCharacter first) { lexer with rest := first :: rest, position := start }

/-- Takes the next token; at the end of the line, the line end again and again. -/
def next : EStateM Error Lexer Token := fun lexer =>
  match lexer.peeked with
  | some token => .ok token { lexer with peeked := none }
  | none => scan lexer

/-- Looks at the next token without taking it. -/
def peek : EStateM Error Lexer Token := fun lexer =>
  match lexer.peeked with
  | some token => .ok token lexer
  | none =>
    match scan lexer with
    | .ok token after => .ok token { after with peeked := some token }
    | .error error after => .error error after

/-- How much is left to be taken: characters and the token scanned ahead. -/
def remaining (lexer : Lexer) : Nat :=
  lexer.rest.length + (if lexer.peeked.isSome then 1 else 0)

theorem length_dropWhile_le (p : Char → Bool) (chars : List Char) :
    (chars.dropWhile p).length ≤ chars.length :=
  (List.dropWhile_suffix p).sublist.length_le

/-- Every token but the line end leaves less to be taken. -/
theorem remaining_next_lt {lexer after : Lexer} {token : Token}
    (step : next lexer = .ok token after) (inLine : token.kind ≠ .lineEnd) :
    after.remaining < lexer.remaining := by
  unfold next at step
  split at step
  case h_1 ahead peeked =>
    cases step
    simp [remaining, peeked]
  case h_2 fresh =>
    have gap := length_dropWhile_le Token.isGap lexer.rest
    simp only [scan] at step
    split at step
    case h_1 => cases step; simp at inLine
    case h_2 first rest found =>
      rw [found, List.length_cons] at gap
      split at step
      case h_1 kind lexeme token? =>
        have some := List.length_pos_iff.mpr (Token.lexeme?_ne_nil token?)
        cases step
        simp only [remaining, fresh, Option.isSome_none, List.length_drop, List.length_cons]
        simp
        omega
      case h_2 => cases step

/-- Takes all tokens up to the end of the line. -/
def all (lexer : Lexer) : EStateM.Result Error Lexer (List Token) :=
  match _step : next lexer with
  | .error error after => .error error after
  | .ok token after =>
    if _inLine : token.kind = .lineEnd then .ok [] after
    else
      match all after with
      | .error error last => .error error last
      | .ok tokens last => .ok (token :: tokens) last
termination_by lexer.remaining
decreasing_by exact remaining_next_lt _step _inLine

/-- Takes the special character `sought`. -/
def expect (sought : String) : EStateM Error Lexer Unit := do
  let token ← next
  if token.kind = .special ∧ token.text = sought then return
  else throw (.missing sought token.text)

/-- Requires that nothing is left on the line. -/
def expectEnd : EStateM Error Lexer Unit := do
  let token ← next
  if token.kind = .lineEnd then return else throw (.unexpected token.text token.position)

/-- What `reading` makes of a whole line. -/
def read {α : Type} (reading : EStateM Error Lexer α) (line : String) : Except Error α :=
  match reading (ofText line) with
  | .ok result _ => .ok result
  | .error error _ => .error error

end Lexer

end Abacus
