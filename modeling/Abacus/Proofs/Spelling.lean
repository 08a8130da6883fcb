import Abacus.Proofs.SameTokens

/-!
# Spelling and blanks

Pieces that are written with blanks around them are the tokens of their line, at the places where they are
written (`Lexer.all_spelling`). How many blanks there are decides nothing about what a line is read as: neither
between the pieces of two spellings (`Lexer.sameTokens_spellings`) nor where a line of any kind gets more of them
around its tokens (`Lexer.sameTokens_widening`).
-/

namespace Abacus
open Token (isGap isKnown Spells EndsBefore Stops Tiles)

/-! ## Pieces and blanks -/

/-- The pieces, each behind the characters that it comes with, and in front of the last characters. -/
def written : List (List Char × Piece) → List Char → List Char
  | [], last => last
  | (gap, piece) :: items, last => gap ++ (piece.2.toList ++ written items last)

/-- The tokens that the pieces are where they are written from the position on. -/
def placed : Nat → List (List Char × Piece) → List Token
  | _, [] => []
  | position, (gap, piece) :: items =>
    ⟨piece.1, piece.2, position + gap.length⟩ :: placed (position + gap.length + piece.2.length) items

/-- Pieces with blanks around them: any number in front of the first and behind the last, and at least one
between two of them. -/
structure Spelling where
  items : List (List Char × Piece)
  last : List Char
  genuine : ∀ item ∈ items, item.2.IsGenuine
  blank : ∀ item ∈ items, ∀ c ∈ item.1, isGap c = true
  apart : ∀ item ∈ items.tail, item.1 ≠ []
  blankLast : ∀ c ∈ last, isGap c = true

namespace Spelling

def line (spelling : Spelling) : String :=
  String.ofList (written spelling.items spelling.last)

def tokens (spelling : Spelling) : List Token :=
  placed 0 spelling.items

def pieces (spelling : Spelling) : List Piece :=
  spelling.items.map Prod.snd

/-- The pieces with the same blanks in front of each of them. -/
def evenly (gap : List Char) (some : gap ≠ []) (blank : ∀ c ∈ gap, isGap c = true) (pieces : List Piece)
    (genuine : ∀ piece ∈ pieces, piece.IsGenuine) : Spelling where
  items := pieces.map fun piece => (gap, piece)
  last := []
  genuine := List.forall_mem_map.mpr genuine
  blank := List.forall_mem_map.mpr fun _ _ => blank
  apart := by
    rw [← List.map_tail]
    exact List.forall_mem_map.mpr fun _ _ => some
  blankLast := nofun

end Spelling

/-- The characters from the position on, each behind what is put in front of its place. -/
def spread (extra : Nat → List Char) : Nat → List Char → List Char
  | _, [] => []
  | position, c :: chars => extra position ++ c :: spread extra (position + 1) chars

/-- Blanks to be put into a line, in front of the places of its characters and behind the last. None of these
places is inside a token. -/
structure Widening (line : String) where
  extra : Nat → List Char
  blank : ∀ place, ∀ c ∈ extra place, isGap c = true
  outside : ∀ token ∈ (Lexer.ofText line).iterate.1, ∀ place, token.position < place → place < token.finish →
    extra place = []

/-- The line with the blanks put in. -/
def Widening.wide {line : String} (widening : Widening line) : String :=
  String.ofList (spread widening.extra 0 line.toList ++ widening.extra line.length)

namespace Token
variable {kind : TokenKind} {lexeme rest otherRest : List Char}

theorem EndsBefore.of_head (ends : EndsBefore kind lexeme rest) (same : otherRest.head? = rest.head?) :
    EndsBefore kind lexeme otherRest :=
  fun c head => ends c (same ▸ head)

/-- Blanks in between do not make a token go on. -/
theorem EndsBefore.behind_gap {gap : List Char} (blank : ∀ c ∈ gap, isGap c = true)
    (ends : EndsBefore kind lexeme rest) : EndsBefore kind lexeme (gap ++ rest) := by
  cases gap with
  | nil => exact ends
  | cons first others =>
    refine endsBefore_of_stops fun c head => ?_
    obtain rfl : first = c := Option.some.inj head
    exact stops_of_isGap (blank first List.mem_cons_self) kind

end Token

/-! ## Spellings -/

section Written
variable {items : List (List Char × Piece)} {last : List Char}

theorem head_written (blank : ∀ item ∈ items, ∀ c ∈ item.1, isGap c = true)
    (apart : ∀ item ∈ items, item.1 ≠ []) (blankLast : ∀ c ∈ last, isGap c = true) :
    ∀ c ∈ (written items last).head?, isGap c = true := by
  intro c head
  cases items with
  | nil => exact blankLast c (List.mem_of_mem_head? head)
  | cons item items =>
    obtain ⟨gap, piece⟩ := item
    cases gap with
    | nil => exact absurd rfl (apart _ List.mem_cons_self)
    | cons first others =>
      obtain rfl : first = c := Option.some.inj head
      exact blank _ List.mem_cons_self first List.mem_cons_self

/-- What is written is tiled by the pieces at their places. -/
theorem tiles_written (genuine : ∀ item ∈ items, item.2.IsGenuine)
    (blank : ∀ item ∈ items, ∀ c ∈ item.1, isGap c = true) (apart : ∀ item ∈ items.tail, item.1 ≠ [])
    (blankLast : ∀ c ∈ last, isGap c = true) (position : Nat) :
    Tiles [] position (written items last) (placed position items) := by
  induction items generalizing position with
  | nil => exact .gap blankLast
  | cons item items ih =>
    obtain ⟨gap, kind, text⟩ := item
    obtain ⟨spells, genuine⟩ := List.forall_mem_cons.mp genuine
    obtain ⟨blankHere, blank⟩ := List.forall_mem_cons.mp blank
    -- Each of the later pieces is behind a blank, so the first one ends there.
    have ends : EndsBefore kind text.toList (written items last ++ []) := by
      rw [List.append_nil]
      exact Token.endsBefore_of_stops fun c head =>
        Token.stops_of_isGap (head_written blank apart blankLast c head) kind
    have later := ih genuine blank (fun item member => apart item (List.mem_of_mem_tail member))
      (position + gap.length + text.toList.length)
    have tiles := Tiles.token blankHere spells ends later
    rwa [String.ofList_toList, String.length_toList] at tiles

end Written

/-! ## More blanks -/

section Spread
variable {extra : Nat → List Char} {chars others gap rest otherRest : List Char} {position : Nat}

theorem spread_append (position : Nat) (chars others : List Char) :
    spread extra position (chars ++ others) =
      spread extra position chars ++ spread extra (position + chars.length) others := by
  induction chars generalizing position with
  | nil => rfl
  | cons c chars ih =>
    rw [List.cons_append, spread, spread, ih, List.append_assoc, List.length_cons, Nat.add_comm chars.length,
      ← Nat.add_assoc]
    rfl

/-- Behind some characters and the blanks that are put there, the line goes on with the same character. -/
theorem exists_spread_append (extra : Nat → List Char) (position : Nat) (chars rest : List Char) :
    ∃ otherRest, otherRest.head? = rest.head? ∧
      spread extra position (chars ++ rest) ++ extra (position + (chars ++ rest).length) =
        spread extra position chars ++ extra (position + chars.length) ++ otherRest := by
  cases rest with
  | nil => exact ⟨[], rfl, by simp only [List.append_nil]⟩
  | cons c rest =>
    refine ⟨c :: (spread extra (position + chars.length + 1) rest ++
      extra (position + (chars ++ c :: rest).length)), rfl, ?_⟩
    simp only [spread_append, spread, List.append_assoc, List.cons_append]

/-- With blanks put into it, a gap stays a gap. -/
theorem isGap_spread (extraBlank : ∀ place, ∀ c ∈ extra place, isGap c = true)
    (blank : ∀ c ∈ gap, isGap c = true) (position : Nat) : ∀ c ∈ spread extra position gap, isGap c = true := by
  induction gap generalizing position with
  | nil => exact nofun
  | cons first others ih =>
    obtain ⟨blankFirst, blankOthers⟩ := List.forall_mem_cons.mp blank
    exact List.forall_mem_append.mpr
      ⟨extraBlank position, List.forall_mem_cons.mpr ⟨blankFirst, ih blankOthers (position + 1)⟩⟩

/-- With nothing put into them, characters stay together. -/
theorem spread_of_nothing (nothing : ∀ place, position ≤ place → place < position + chars.length →
    extra place = []) : spread extra position chars = chars := by
  induction chars generalizing position with
  | nil => rfl
  | cons c chars ih =>
    rw [List.length_cons] at nothing
    rw [spread, nothing position le_rfl (by omega), List.nil_append, ih]
    exact fun place upFrom below => nothing place (by omega) (by omega)

/-- A token stays together behind what is put in front of it. -/
theorem spread_lexeme (nonempty : chars ≠ [])
    (nothing : ∀ place, position < place → place < position + chars.length → extra place = []) :
    spread extra position chars = extra position ++ chars := by
  cases chars with
  | nil => exact absurd rfl nonempty
  | cons first others =>
    rw [List.length_cons] at nothing
    rw [spread, spread_of_nothing]
    exact fun place upFrom below => nothing place (by omega) (by omega)

/-- What is in front of a character or of the end begins with the blanks that are put there. -/
theorem head_spread (sameHead : otherRest.head? = rest.head?) (position : Nat) (chars : List Char) :
    (spread extra position chars ++ extra (position + chars.length) ++ otherRest).head? =
      (extra position ++ (chars ++ rest)).head? := by
  cases chars with
  | nil => simp only [spread, List.nil_append, List.length_nil, Nat.add_zero, List.head?_append, sameHead]
  | cons c chars => simp only [spread, List.append_assoc, List.head?_append, List.cons_append, List.head?_cons]

/-- Blanks that are put around tiles leave the same pieces. -/
theorem Token.Tiles.widen {tokens : List Token} (tiles : Tiles rest position chars tokens)
    (extraBlank : ∀ place, ∀ c ∈ extra place, isGap c = true)
    (outside : ∀ token ∈ tokens, ∀ place, token.position < place → place < token.finish → extra place = [])
    (sameHead : otherRest.head? = rest.head?) (start : Nat) :
    ∃ others, Tiles otherRest start (spread extra position chars ++ extra (position + chars.length)) others ∧
      others.map Token.piece = tokens.map Token.piece := by
  induction tiles generalizing start with
  | gap blank =>
    exact ⟨[], .gap (List.forall_mem_append.mpr ⟨isGap_spread extraBlank blank _, extraBlank _⟩), rfl⟩
  | @token position gap lexeme chars kind tokens blank spells ends later ih =>
    obtain ⟨here, outside⟩ := List.forall_mem_cons.mp outside
    -- The blanks in front of the token join its gap, and the token itself stays together.
    have together : spread extra (position + gap.length) lexeme = extra (position + gap.length) ++ lexeme := by
      refine spread_lexeme spells.ne_nil ?_
      simpa only [Token.finish, String.length_ofList] using here
    have wider : ∀ c ∈ spread extra position gap ++ extra (position + gap.length), isGap c = true :=
      List.forall_mem_append.mpr ⟨isGap_spread extraBlank blank position, extraBlank _⟩
    have split : spread extra position (gap ++ (lexeme ++ chars)) ++
        extra (position + (gap ++ (lexeme ++ chars)).length) =
        (spread extra position gap ++ extra (position + gap.length)) ++ (lexeme ++
          (spread extra (position + gap.length + lexeme.length) chars ++
            extra (position + gap.length + lexeme.length + chars.length))) := by
      simp only [spread_append, together, List.length_append, List.append_assoc, Nat.add_assoc]
    obtain ⟨others, tiles, same⟩ := ih outside _
    rw [split]
    refine ⟨_, .token wider spells ?_ tiles, congrArg (List.cons (kind, String.ofList lexeme)) same⟩
    exact (ends.behind_gap (extraBlank _)).of_head (head_spread sameHead _ _)

end Spread

namespace Lexer
variable {rest otherRest chars otherChars : List Char} {position otherPosition : Nat}
  {tokens otherTokens : List Token}

/-- How an iteration ends is decided by the character that it ends at. -/
theorem outcome_stopAt (sameHead : otherRest.head? = rest.head?) (position otherPosition : Nat) :
    outcome (stopAt rest position) = outcome (stopAt otherRest otherPosition) := by
  cases rest with
  | nil =>
    obtain rfl : otherRest = [] := List.head?_eq_none_iff.mp sameHead
    rfl
  | cons c rest =>
    obtain ⟨others, rfl⟩ := List.head?_eq_some_iff.mp sameHead
    rfl

/-- Tiles of the same pieces are the same tokens where they end alike. -/
theorem sameTokens_of_tiles (tiles : Tiles rest position chars tokens)
    (otherTiles : Tiles otherRest otherPosition otherChars otherTokens)
    (stop : ∀ c ∈ rest.head?, isKnown c = false) (sameHead : otherRest.head? = rest.head?)
    (samePieces : otherTokens.map Token.piece = tokens.map Token.piece) :
    SameTokens ⟨chars ++ rest, position, none⟩ ⟨otherChars ++ otherRest, otherPosition, none⟩ := by
  have iterated := iterate_of_tiles tiles stop
  have otherIterated := iterate_of_tiles otherTiles (sameHead ▸ stop)
  refine ⟨rfl, rfl, ?_, ?_⟩
  · rw [iterated, otherIterated]
    exact samePieces.symm
  · rw [iterated, otherIterated]
    exact outcome_stopAt sameHead _ _

/-! ## Lines -/

theorem tiles_spelling (spelling : Spelling) : Tiles [] 0 spelling.line.toList spelling.tokens := by
  rw [Spelling.line, String.toList_ofList]
  exact tiles_written spelling.genuine spelling.blank spelling.apart spelling.blankLast 0

theorem piece_placed (position : Nat) (items : List (List Char × Piece)) :
    (placed position items).map Token.piece = items.map Prod.snd := by
  induction items generalizing position with
  | nil => rfl
  | cons item items ih => exact congrArg _ (ih _)

/-- The tokens of a line that is spelled out are the pieces at the places where they are written. -/
theorem all_spelling (spelling : Spelling) :
    all (ofText spelling.line) = .ok spelling.tokens ⟨[], spelling.line.length, none⟩ := by
  have iterated := iterate_of_tiles (tiles_spelling spelling) nofun
  rw [List.append_nil] at iterated
  rw [all_eq_iterate, ofText, iterated, stopAt, Nat.zero_add, String.length_toList]

/-- Two spellings of the same pieces have the same tokens. -/
theorem sameTokens_spellings {spelling other : Spelling} (same : other.pieces = spelling.pieces) :
    SameTokens (ofText spelling.line) (ofText other.line) := by
  have pieces : other.tokens.map Token.piece = spelling.tokens.map Token.piece :=
    (piece_placed 0 _).trans (same.trans (piece_placed 0 _).symm)
  have sameTokens := sameTokens_of_tiles (tiles_spelling spelling) (tiles_spelling other) nofun rfl pieces
  rwa [List.append_nil, List.append_nil] at sameTokens

/-- Every line is tiled up to its end or to the first unknown character. -/
theorem exists_tiles_line (line : List Char) :
    ∃ chars rest tokens, line = chars ++ rest ∧ (∀ c ∈ rest.head?, isKnown c = false) ∧
      Tiles rest 0 chars tokens := by
  have known : ∀ c ∈ line.takeWhile isKnown, isKnown c = true := fun c => List.mem_takeWhile_imp
  have stop : ∀ c ∈ (line.dropWhile isKnown).head?, isKnown c = false := fun c => head_dropWhile
  obtain ⟨tokens, tiles⟩ := Token.exists_tiles known stop 0
  exact ⟨_, _, tokens, List.takeWhile_append_dropWhile.symm, stop, tiles⟩

/-- More blanks around its tokens leave a line with the same tokens. -/
theorem sameTokens_widening {line : String} (widening : Widening line) :
    SameTokens (ofText line) (ofText widening.wide) := by
  obtain ⟨chars, rest, tokens, split, stop, tiles⟩ := exists_tiles_line line.toList
  have outside := widening.outside
  rw [ofText, split, iterate_of_tiles tiles stop] at outside
  obtain ⟨otherRest, sameHead, wide⟩ := exists_spread_append widening.extra 0 chars rest
  obtain ⟨others, otherTiles, samePieces⟩ := tiles.widen widening.blank outside sameHead 0
  have sameTokens := sameTokens_of_tiles tiles otherTiles stop sameHead samePieces
  rw [← wide, ← split, Nat.zero_add, String.length_toList] at sameTokens
  rwa [ofText, ofText, Widening.wide, String.toList_ofList]

/-- Lexing undoes spelling: the tokens of pieces with blanks around them are the pieces, at the places where they
are written. So two spellings of the same pieces are read as the same command and the same expression, or with
errors of the same kind. The same goes for any line and the line with more blanks around its tokens. -/
theorem lexing_undoes_spelling :
    (∀ spelling : Spelling,
      all (ofText spelling.line) = .ok spelling.tokens ⟨[], spelling.line.length, none⟩ ∧
      spelling.tokens.map Token.piece = spelling.pieces) ∧
    (∀ spelling other : Spelling, other.pieces = spelling.pieces →
      Alike (Command.ofText spelling.line) (Command.ofText other.line) ∧
      ∀ levels, Alike (Expr.ofText spelling.line levels) (Expr.ofText other.line levels)) ∧
    ∀ (line : String) (widening : Widening line),
      Alike (Command.ofText line) (Command.ofText widening.wide) ∧
      ∀ levels, Alike (Expr.ofText line levels) (Expr.ofText widening.wide levels) := by
  refine ⟨fun spelling => ⟨all_spelling spelling, piece_placed 0 _⟩, fun spelling other same => ?_,
    fun line widening => ?_⟩
  · have sameTokens := sameTokens_spellings same
    exact ⟨Command.ofText_alike sameTokens, Expr.ofText_alike sameTokens⟩
  · have sameTokens := sameTokens_widening widening
    exact ⟨Command.ofText_alike sameTokens, Expr.ofText_alike sameTokens⟩

theorem genuine_minus : ∀ piece ∈ [(TokenKind.special, "-"), (.literal, "-1"), (.name, "x")],
    Piece.IsGenuine piece := by
  intro piece member
  simp only [List.mem_cons, List.not_mem_nil, or_false] at member
  rcases member with rfl | rfl | rfl
  · exact .special (c := '-') rfl
  · exact .literal (.signed (isDigits_singleton (c := '1') rfl))
  · exact .name (isName_word "x" nofun rfl)

theorem iterate_literals : (ofText "2-1").iterate.1 = [⟨.literal, "2", 0⟩, ⟨.literal, "-1", 1⟩] := by
  have two : next (ofText "2-1") = .ok ⟨.literal, "2", 0⟩ ⟨['-', '1'], 1, none⟩ := rfl
  have minusOne : next ⟨['-', '1'], 1, none⟩ = .ok ⟨.literal, "-1", 1⟩ ⟨[], 3, none⟩ := rfl
  have lineEnd : next ⟨[], 3, none⟩ = .ok ⟨.lineEnd, "", 3⟩ ⟨[], 3, none⟩ := rfl
  rw [iterate_of_next two nofun, iterate_of_next minusOne nofun, iterate_of_lineEnd lineEnd rfl]

/-- Two literals that touch each other, with blanks in front of both. -/
def widenedLiterals : Widening "2-1" where
  extra
    | 0 => [' ']
    | 1 => ['\t']
    | _ => []
  blank
    | 0 | 1 => List.forall_mem_singleton.mpr rfl
    | _ + 2 => nofun
  outside := by
    rw [iterate_literals]
    intro token member place
    simp only [List.mem_cons, List.not_mem_nil, or_false] at member
    rcases member with rfl | rfl
    · intro (behind : 0 < place) (before : place < 1)
      omega
    · intro (behind : 1 < place) (before : place < 3)
      obtain rfl : place = 2 := by omega
      rfl

theorem lexing_undoes_spelling_minus :
    (∃ spelling other : Spelling, spelling.line = " - -1 x" ∧ other.line = "\t -\t -1\t x" ∧
      all (ofText " - -1 x") =
        .ok [⟨.special, "-", 1⟩, ⟨.literal, "-1", 3⟩, ⟨.name, "x", 6⟩] ⟨[], 7, none⟩ ∧
      Alike (Expr.ofText " - -1 x") (Expr.ofText "\t -\t -1\t x")) ∧
    widenedLiterals.wide = " 2\t-1" ∧ Alike (Expr.ofText "2-1") (Expr.ofText " 2\t-1") := by
  obtain ⟨placed, alike, wide⟩ := lexing_undoes_spelling
  constructor
  · let spelling := Spelling.evenly [' '] nofun (fun c => Token.isGap_of_mem_space) _ genuine_minus
    let other := Spelling.evenly ['\t', ' '] nofun (List.all_eq_true.mp rfl) _ genuine_minus
    have line : spelling.line = " - -1 x" := by decide +kernel
    have otherLine : other.line = "\t -\t -1\t x" := by decide +kernel
    have tokens := (placed spelling).1
    have same := (alike spelling other rfl).2 Expr.maxLevels
    rw [line] at tokens same
    rw [otherLine] at same
    exact ⟨spelling, other, line, otherLine, tokens, same⟩
  · have wider : widenedLiterals.wide = " 2\t-1" := by decide +kernel
    have same := (wide "2-1" widenedLiterals).2 Expr.maxLevels
    rw [wider] at same
    exact ⟨wider, same⟩

end Lexer

end Abacus
