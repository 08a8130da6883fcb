import Abacus.Proofs.Lexing

/-!
# The pieces of a line

A line is cut into pieces, the kinds and texts of its tokens. They are what its lexer hands out before the
end (`Lexer.splits_iff`), and it fails with errors of the syntax only (`Lexer.next_complains`). Pieces with
blanks between them are the pieces of their line (`Lexer.splits_spaced`). Texts inside a line are put together
from their pieces (`Lexer.Writes`).
-/

namespace Abacus

/-- Kind and text of a token, wherever it stands. -/
abbrev Piece := TokenKind × String

def Token.piece (token : Token) : Piece :=
  (token.kind, token.text)

namespace Lexer

/-! ## Pieces of a line -/

/-- The lexer hands out the pieces one after the other, which leads to the lexer `after`. -/
inductive Hands : Lexer → List Piece → Lexer → Prop
  | nil (lexer : Lexer) : Hands lexer [] lexer
  | cons {lexer middle after : Lexer} {token : Token} {pieces : List Piece}
      (step : next lexer = .ok token middle) (inLine : token.kind ≠ .lineEnd)
      (later : Hands middle pieces after) : Hands lexer (token.piece :: pieces) after

/-- The lexer has nothing to hand out but the end of the line. -/
def AtEnd (lexer last : Lexer) : Prop :=
  ∃ token, next lexer = .ok token last ∧ token.kind = .lineEnd

/-- The whole line consists of the pieces. -/
def Splits (line : String) (pieces : List Piece) : Prop :=
  ∃ tokens last, all (ofText line) = .ok tokens last ∧ tokens.map Token.piece = pieces

variable {lexer after last : Lexer} {pieces first second : List Piece}

namespace Hands

theorem append {middle : Lexer} (front : Hands lexer first middle) (back : Hands middle second after) :
    Hands lexer (first ++ second) after := by
  induction front with
  | nil lexer => exact back
  | cons step inLine later ih => exact .cons step inLine (ih back)

theorem part (hands : Hands lexer (first ++ second) after) :
    ∃ middle, Hands lexer first middle ∧ Hands middle second after := by
  induction first generalizing lexer with
  | nil => exact ⟨lexer, .nil lexer, hands⟩
  | cons piece first ih =>
    cases hands with
    | cons step inLine later =>
      obtain ⟨middle, front, back⟩ := ih later
      exact ⟨middle, .cons step inLine front, back⟩

theorem one {token : Token} (step : next lexer = .ok token after) (inLine : token.kind ≠ .lineEnd) :
    Hands lexer [token.piece] after :=
  .cons step inLine (.nil after)

/-- The first piece is the next token. -/
theorem uncons {piece : Piece} (hands : Hands lexer (piece :: pieces) after) :
    ∃ token middle, next lexer = .ok token middle ∧ token.piece = piece ∧
      Hands middle pieces after := by
  cases hands with
  | cons step inLine later => exact ⟨_, _, step, rfl, later⟩

theorem genuine (hands : Hands lexer pieces after) (genuine : lexer.Genuine) : after.Genuine := by
  induction hands with
  | nil lexer => exact genuine
  | cons step inLine later ih => exact ih (next_yields _ genuine _ _ step).1

/-- The name tokens of a line are names. -/
theorem isName (hands : Hands lexer pieces after) (genuine : lexer.Genuine) {name : String}
    (member : (.name, name) ∈ pieces) : IsName name.toList := by
  induction hands with
  | nil lexer => exact absurd member List.not_mem_nil
  | cons step inLine later ih =>
    obtain ⟨genuine, own⟩ := next_yields _ genuine _ _ step
    rcases List.mem_cons.mp member with same | later
    · obtain ⟨kind, rfl⟩ := Prod.mk.inj same
      exact own.name kind.symm
    · exact ih genuine later

end Hands

theorem hands_of_all {tokens : List Token} (taken : all lexer = .ok tokens last) :
    ∃ middle, Hands lexer (tokens.map Token.piece) middle ∧ AtEnd middle last := by
  induction lexer using all.induct generalizing tokens with
  | case1 lexer error after step =>
    rw [all, step] at taken
    cases taken
  | case2 lexer token after step ends =>
    rw [all, step] at taken
    simp only [ends, dif_pos] at taken
    cases taken
    exact ⟨lexer, .nil lexer, token, step, ends⟩
  | case3 lexer token after step inLine error stuck failed ih =>
    rw [all, step] at taken
    simp only [inLine, dif_neg, not_false_eq_true, failed] at taken
    cases taken
  | case4 lexer token after step inLine others stop done ih =>
    rw [all, step] at taken
    simp only [inLine, dif_neg, not_false_eq_true, done] at taken
    cases taken
    obtain ⟨middle, later, ends⟩ := ih done
    exact ⟨middle, .cons step inLine later, ends⟩

theorem all_of_hands (hands : Hands lexer pieces after) (ends : AtEnd after last) :
    ∃ tokens, all lexer = .ok tokens last ∧ tokens.map Token.piece = pieces := by
  induction hands with
  | nil lexer =>
    obtain ⟨token, step, lineEnd⟩ := ends
    refine ⟨[], ?_, rfl⟩
    rw [all, step]
    simp only [lineEnd, dif_pos]
  | @cons lexer middle after token pieces step inLine later ih =>
    obtain ⟨tokens, done, same⟩ := ih ends
    refine ⟨token :: tokens, ?_, congrArg _ same⟩
    rw [all, step]
    simp only [inLine, dif_neg, not_false_eq_true, done]

/-- A line consists of the pieces that its lexer hands out before the end. -/
theorem splits_iff {line : String} :
    Splits line pieces ↔ ∃ after last, Hands (ofText line) pieces after ∧ AtEnd after last := by
  constructor
  · rintro ⟨tokens, last, taken, rfl⟩
    obtain ⟨after, hands, ends⟩ := hands_of_all taken
    exact ⟨after, last, hands, ends⟩
  · rintro ⟨after, last, hands, ends⟩
    obtain ⟨tokens, taken, same⟩ := all_of_hands hands ends
    exact ⟨tokens, last, taken, same⟩

/-! ## Readers -/

theorem expect_eq_ok_iff {sought : String} :
    expect sought lexer = .ok () after ↔
      ∃ token, next lexer = .ok token after ∧ token.piece = (.special, sought) := by
  rw [expect, bind_eq_ok_iff]
  simp only [Token.piece, Prod.mk.injEq]
  refine exists_congr fun token => ⟨?_, ?_⟩
  · rintro ⟨middle, step, checked⟩
    split at checked
    · rename_i found
      cases checked
      exact ⟨step, found⟩
    · cases checked
  · rintro ⟨step, found⟩
    refine ⟨after, step, ?_⟩
    rw [if_pos found]
    rfl

theorem expectEnd_eq_ok_iff : expectEnd lexer = .ok () last ↔ AtEnd lexer last := by
  rw [expectEnd, bind_eq_ok_iff, AtEnd]
  refine exists_congr fun token => ⟨?_, ?_⟩
  · rintro ⟨middle, step, checked⟩
    split at checked
    · rename_i ends
      cases checked
      exact ⟨step, ends⟩
    · cases checked
  · rintro ⟨step, ends⟩
    refine ⟨last, step, ?_⟩
    rw [if_pos ends]
    rfl

/-- A line is read to its end where the reader stops before the end. -/
theorem read_toEnd_eq_ok_iff {α : Type} {reader : EStateM Error Lexer α} {line : String} {result : α} :
    read (do let value ← reader; expectEnd; return value) line = .ok result ↔
      ∃ after last, reader (ofText line) = .ok result after ∧ AtEnd after last := by
  simp only [read_eq_ok_iff, bind_eq_ok_iff]
  constructor
  · rintro ⟨last, value, after, done, ⟨⟩, end', ended, same⟩
    cases same
    exact ⟨after, last, done, expectEnd_eq_ok_iff.mp ended⟩
  · rintro ⟨after, last, done, ends⟩
    exact ⟨last, result, after, done, (), last, expectEnd_eq_ok_iff.mpr ends, rfl⟩

end Lexer

/-! ## Errors of the syntax -/

/-- The error is one of the syntax of a line. -/
def Error.IsSyntactic (error : Error) : Prop :=
  error.kind = .invalidSyntax ∨ error.kind = .unknownCharacter

/-- The reader fails with errors of the given sort only. -/
def ComplainsOf {α : Type} (sort : Error → Prop) (reader : EStateM Error Lexer α) : Prop :=
  ∀ lexer error after, reader lexer = .error error after → sort error

/-- The reader fails with errors of the syntax only. -/
abbrev Complains {α : Type} (reader : EStateM Error Lexer α) : Prop :=
  ComplainsOf Error.IsSyntactic reader

namespace ComplainsOf
variable {α β : Type} {sort : Error → Prop}

theorem pure (result : α) : ComplainsOf sort (Pure.pure result) := by
  intro lexer error after failed
  cases failed

theorem throw {error : Error} (sorted : sort error) :
    ComplainsOf sort (throw error : EStateM Error Lexer α) := by
  intro lexer other after failed
  cases failed
  exact sorted

theorem bind {first : EStateM Error Lexer α} {next : α → EStateM Error Lexer β}
    (begins : ComplainsOf sort first) (continues : ∀ result, ComplainsOf sort (next result)) :
    ComplainsOf sort (first >>= next) := by
  intro lexer error after failed
  change EStateM.bind first next lexer = _ at failed
  rw [EStateM.bind] at failed
  split at failed
  · exact continues _ _ _ _ failed
  · rename_i stuck early
    cases failed
    exact begins _ _ _ early

end ComplainsOf

namespace Lexer

theorem next_complains : Complains next := by
  intro lexer error after failed
  rw [next] at failed
  split at failed
  · cases failed
  · simp only [scan] at failed
    split at failed
    · cases failed
    · split at failed
      · cases failed
      · cases failed
        exact .inr rfl

theorem sort_of_read {α : Type} {sort : Error → Prop} {reading : EStateM Error Lexer α}
    (complains : ComplainsOf sort reading) {line : String} {error : Error}
    (failed : read reading line = .error error) : sort error := by
  rw [read] at failed
  split at failed
  · cases failed
  · rename_i stuck
    cases failed
    exact complains _ _ _ stuck

theorem expect_complains (sought : String) : Complains (expect sought) := by
  refine next_complains.bind fun token => ?_
  split
  · exact .pure ()
  · exact .throw (.inl rfl)

theorem expectEnd_complains : Complains expectEnd := by
  refine next_complains.bind fun token => ?_
  split
  · exact .pure ()
  · exact .throw (.inl rfl)

end Lexer

/-! ## Spelling out -/

/-- The texts of the pieces with blanks between them. -/
def spaced (pieces : List Piece) : String :=
  " ".intercalate (pieces.map Prod.snd)

theorem toList_spaced (pieces : List Piece) :
    (spaced pieces).toList = [' '].intercalate (pieces.map fun piece => piece.2.toList) := by
  rw [spaced, String.toList_intercalate, List.map_map]
  rfl

/-- The piece can be one of a line. -/
def Piece.IsGenuine (piece : Piece) : Prop :=
  Token.Spells piece.1 piece.2.toList

namespace Lexer

/-- From any position on, the characters are handed out as the pieces before the end of the line. -/
def HandsOut (chars : List Char) (pieces : List Piece) : Prop :=
  ∀ position, ∃ after last, Hands ⟨chars, position, none⟩ pieces after ∧ AtEnd after last

theorem HandsOut.nil {gap : List Char} (blank : ∀ c ∈ gap, Token.isGap c = true) : HandsOut gap [] :=
  fun position => ⟨_, _, .nil _, _, next_lineEnd blank position, rfl⟩

/-- A genuine piece is handed out before whatever it does not go on with. -/
theorem HandsOut.cons {kind : TokenKind} {text : String} {gap chars : List Char}
    (later : HandsOut chars pieces) (genuine : Token.Spells kind text.toList)
    (blank : ∀ c ∈ gap, Token.isGap c = true) (ends : ∀ c ∈ chars.head?, Token.Stops kind c) :
    HandsOut (gap ++ (text.toList ++ chars)) ((kind, text) :: pieces) := by
  intro position
  obtain ⟨after, last, hands, atEnd⟩ := later (position + gap.length + text.toList.length)
  have step := next_spelled blank genuine (Token.endsBefore_of_stops ends) position
  rw [String.ofList_toList] at step
  exact ⟨after, last, .cons step genuine.kind_ne hands, atEnd⟩

theorem handsOut_spaced (genuine : ∀ piece ∈ pieces, piece.IsGenuine) {gap : List Char}
    (blank : ∀ c ∈ gap, Token.isGap c = true) : HandsOut (gap ++ (spaced pieces).toList) pieces := by
  rw [toList_spaced]
  induction pieces generalizing gap with
  | nil =>
    rw [List.map_nil, List.intercalate_nil, List.append_nil]
    exact .nil blank
  | cons piece pieces ih =>
    obtain ⟨first, others⟩ := List.forall_mem_cons.mp genuine
    cases pieces with
    | nil =>
      rw [List.map_cons, List.map_nil, List.intercalate_singleton, ← List.append_nil piece.2.toList]
      exact .cons (.nil (by simp)) first blank (by simp)
    | cons next pieces =>
      have behind : HandsOut ([' '] ++ [' '].intercalate
          ((next :: pieces).map fun piece => piece.2.toList)) (next :: pieces) :=
        ih others fun c => Token.isGap_of_mem_space
      rw [List.map_cons, List.map_cons, List.intercalate_cons_cons, List.append_assoc]
      refine behind.cons first blank ?_
      rintro c ⟨⟩
      exact Token.stops_blank piece.1

/-- Genuine pieces with blanks between them are the pieces of their line. -/
theorem splits_spaced (genuine : ∀ piece ∈ pieces, piece.IsGenuine) : Splits (spaced pieces) pieces := by
  have none : ∀ c ∈ ([] : List Char), Token.isGap c = true := by simp
  exact splits_iff.mpr (handsOut_spaced genuine none 0)

/-! ### Texts inside a line -/

/-- Behind any gap, and in front of whatever ends a name, the characters are handed out as the pieces. -/
def Writes (chars : List Char) (pieces : List Piece) : Prop :=
  ∀ ⦃gap rest : List Char⦄ ⦃later : List Piece⦄, (∀ c ∈ gap, Token.isGap c = true) →
    (∀ c ∈ rest.head?, Token.Stops .name c) → HandsOut rest later →
    HandsOut (gap ++ (chars ++ rest)) (pieces ++ later)

namespace Writes
variable {chars others : List Char}

theorem token {kind : TokenKind} {text : String} (spells : Token.Spells kind text.toList) :
    Writes text.toList [(kind, text)] :=
  fun _ _ _ blank ends later => later.cons spells blank fun c head => (ends c head).ofKind kind

/-- One text behind another, with a blank between them. -/
theorem spaced (front : Writes chars first) (back : Writes others second) :
    Writes (chars ++ ' ' :: others) (first ++ second) := by
  intro gap rest later blank ends behind
  have next : HandsOut ([' '] ++ (others ++ rest)) (second ++ later) :=
    back (fun c => Token.isGap_of_mem_space) ends behind
  rw [List.append_assoc, List.append_assoc]
  refine front blank ?_ next
  rintro c ⟨⟩
  exact Token.stops_blank .name

theorem cons {kind : TokenKind} {text : String} (spells : Token.Spells kind text.toList)
    (back : Writes others second) : Writes (text.toList ++ ' ' :: others) ((kind, text) :: second) :=
  (token spells).spaced back

theorem splits {line : String} (writes : Writes line.toList pieces) : Splits line pieces := by
  have handsOut : HandsOut ([] ++ (line.toList ++ [])) (pieces ++ []) :=
    writes (by simp) (by simp) (.nil (by simp))
  rw [List.nil_append, List.append_nil, List.append_nil] at handsOut
  exact splits_iff.mpr (handsOut 0)

end Writes

end Lexer

end Abacus
