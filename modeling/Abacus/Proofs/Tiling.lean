import Abacus.Proofs.Lexing

/-!
# Tokens tile the line

Known characters fall into gaps and tokens, each token as long as it can be (`Token.exists_tiles`). A lexer
hands out these tokens up to the end of the line or the first unknown character, and stops there
(`Lexer.iterate_of_tiles`). So whatever the line, its tokens cover it up to that place (`Lexer.tokens_tile`).
-/

namespace Abacus

namespace Token

/-- Whether `c` can be part of a token or of a gap. -/
def isKnown (c : Char) : Bool :=
  isGap c || isSpecial c || c.isDigit || startsName c

/-- The place behind the last character of the token. -/
def finish (token : Token) : Nat :=
  token.position + token.text.length

/-- From a position on and in front of `rest`, the characters are those of the tokens, with gaps around them
and each token as long as it can be. -/
inductive Tiles (rest : List Char) : Nat → List Char → List Token → Prop
  | gap {position : Nat} {gap : List Char} (blank : ∀ c ∈ gap, isGap c = true) : Tiles rest position gap []
  | token {position : Nat} {gap lexeme chars : List Char} {kind : TokenKind} {tokens : List Token}
      (blank : ∀ c ∈ gap, isGap c = true) (spells : Spells kind lexeme)
      (ends : EndsBefore kind lexeme (chars ++ rest))
      (later : Tiles rest (position + gap.length + lexeme.length) chars tokens) :
      Tiles rest position (gap ++ (lexeme ++ chars))
        (⟨kind, String.ofList lexeme, position + gap.length⟩ :: tokens)

/-- The token is a piece of the source, of the shape of its kind and as long as it can be. -/
structure StandsIn (source : List Char) (token : Token) : Prop where
  slice : (source.drop token.position).take token.text.length = token.text.toList
  spells : Spells token.kind token.text.toList
  ends : EndsBefore token.kind token.text.toList (source.drop token.finish)

/-- Between `start` and `stop` the source consists of the tokens, one after the other, and of gaps. -/
structure Covers (source : List Char) (start stop : Nat) (tokens : List Token) : Prop where
  standing : ∀ t ∈ tokens, t.StandsIn source
  inside : ∀ t ∈ tokens, start ≤ t.position ∧ t.finish ≤ stop
  increasing : tokens.Pairwise fun s t => s.position < t.position
  apart : tokens.Pairwise fun s t => s.finish ≤ t.position
  /-- What belongs to no token is a gap. -/
  blank : ∀ i c, start ≤ i → i < stop → source[i]? = some c →
    (∀ t ∈ tokens, i < t.position ∨ t.finish ≤ i) → isGap c = true

section Characters
variable {kind : TokenKind} {c first : Char} {lexeme chars rest : List Char}

theorem isKnown_cases (known : isKnown c = true) :
    isGap c = true ∨ isSpecial c = true ∨ c.isDigit = true ∨ startsName c = true := by
  simpa [isKnown, or_assoc] using known

theorem not_isKnown_cases (unknown : isKnown c = false) :
    isGap c = false ∧ isSpecial c = false ∧ c.isDigit = false ∧ startsName c = false := by
  simpa [isKnown, and_assoc] using unknown

/-- No token goes on with an unknown character. -/
theorem stops_of_unknown (unknown : isKnown c = false) (kind : TokenKind) : Stops kind c := by
  obtain ⟨-, -, notDigit, notLetter⟩ := not_isKnown_cases unknown
  exact stops_of_neither notDigit notLetter kind

theorem EndsBefore.append (ends : EndsBefore kind lexeme chars)
    (stop : ∀ c ∈ rest.head?, isKnown c = false) : EndsBefore kind lexeme (chars ++ rest) := by
  cases chars with
  | nil => exact endsBefore_of_stops fun c head => stops_of_unknown (stop c head) kind
  | cons first others => exact ends

theorem EndsBefore.front (ends : EndsBefore kind lexeme (chars ++ rest)) : EndsBefore kind lexeme chars := by
  cases chars with
  | nil => exact nofun
  | cons first others => exact ends

/-- Every known character outside a gap begins a token, which is as long as it can be. -/
theorem exists_spells (known : isKnown first = true) (solid : isGap first = false) (rest : List Char) :
    ∃ kind others behind, rest = others ++ behind ∧ Spells kind (first :: others) ∧
      EndsBefore kind (first :: others) behind := by
  have digits : ∀ c ∈ rest.takeWhile Char.isDigit, c.isDigit = true := fun c => List.mem_takeWhile_imp
  rcases isKnown_cases known with gap | special | digit | letter
  · exact absurd gap (by simp [solid])
  · -- A minus sign belongs to the digits behind it, and is a token by itself where there are none.
    by_cases signs : first = '-' ∧ rest.takeWhile Char.isDigit ≠ []
    · obtain ⟨rfl, some⟩ := signs
      exact ⟨.literal, _, _, List.takeWhile_append_dropWhile.symm, .literal (.signed ⟨some, digits⟩),
        fun c head => head_dropWhile head⟩
    · refine ⟨.special, [], rest, rfl, .special special, ?_⟩
      intro c head same
      have none : rest.takeWhile Char.isDigit = [] :=
        not_not.mp fun some => signs ⟨(List.cons.inj same).1, some⟩
      have dropped : rest.dropWhile Char.isDigit = rest := by
        simpa [none] using List.takeWhile_append_dropWhile (p := Char.isDigit) (l := rest)
      exact head_dropWhile (dropped.symm ▸ head)
  · exact ⟨.literal, _, _, List.takeWhile_append_dropWhile.symm,
      .literal (.unsigned (isDigits_cons digit digits)), fun c head => head_dropWhile head⟩
  · exact ⟨.name, _, _, List.takeWhile_append_dropWhile.symm, .name (isName_cons_takeWhile letter rest),
      fun c head => head_dropWhile head⟩

end Characters

/-! ## Tiles of known characters -/

section Tiles
variable {position : Nat} {chars rest : List Char} {tokens : List Token}

/-- Known characters are tiled. -/
theorem exists_tiles (known : ∀ c ∈ chars, isKnown c = true) (stop : ∀ c ∈ rest.head?, isKnown c = false)
    (position : Nat) : ∃ tokens, Tiles rest position chars tokens := by
  -- What is behind the first token is shorter, but not the tail of the list.
  induction length : chars.length using Nat.strong_induction_on generalizing chars position with
  | h size ih =>
    have blank : ∀ c ∈ chars.takeWhile isGap, isGap c = true := fun c => List.mem_takeWhile_imp
    have split := List.takeWhile_append_dropWhile (p := isGap) (l := chars)
    cases solid : chars.dropWhile isGap with
    | nil =>
      rw [solid, List.append_nil] at split
      exact ⟨[], .gap (split ▸ blank)⟩
    | cons first others =>
      have notGap : isGap first = false := head_dropWhile (p := isGap) (by rw [solid]; rfl)
      rw [solid] at split
      rw [← split] at known length
      obtain ⟨knownFirst, knownOthers⟩ := List.forall_mem_cons.mp (List.forall_mem_append.mp known).2
      obtain ⟨kind, lexeme, behind, rfl, spells, ends⟩ := exists_spells knownFirst notGap others
      simp only [List.length_append, List.length_cons] at length
      obtain ⟨tokens, later⟩ := ih behind.length (by omega) (List.forall_mem_append.mp knownOthers).2
        (position + (chars.takeWhile isGap).length + (first :: lexeme).length) rfl
      rw [← split]
      exact ⟨_, .token blank spells (ends.append stop) later⟩

/-- The tiles in front of something are tiles without it. -/
theorem Tiles.alone (tiles : Tiles rest position chars tokens) : Tiles [] position chars tokens := by
  induction tiles with
  | gap blank => exact .gap blank
  | token blank spells ends later ih =>
    refine .token blank spells ?_ ih
    rw [List.append_nil]
    exact ends.front

end Tiles

/-! ## Places in the line -/

section Places
variable {source front middle rest : List Char} {start stop i : Nat} {c : Char} {token : Token}
  {tokens : List Token}

theorem mem_of_getElem?_append (upFrom : front.length ≤ i) (below : i < front.length + middle.length)
    (found : (front ++ (middle ++ rest))[i]? = some c) : c ∈ middle := by
  rw [List.getElem?_append_right upFrom, List.getElem?_append_left (by omega)] at found
  exact List.mem_of_getElem? found

/-- A token in front of what is covered already. -/
theorem Covers.cons (later : Covers source token.finish stop tokens) (standing : token.StandsIn source)
    (upFrom : start ≤ token.position) (upTo : token.finish ≤ stop)
    (blank : ∀ i c, start ≤ i → i < token.position → source[i]? = some c → isGap c = true) :
    Covers source start stop (token :: tokens) := by
  have nonempty : token.position < token.finish := by
    have some := List.length_pos_iff.mpr standing.spells.ne_nil
    rw [String.length_toList] at some
    exact Nat.lt_add_of_pos_right some
  refine ⟨List.forall_mem_cons.mpr ⟨standing, later.standing⟩,
    List.forall_mem_cons.mpr ⟨⟨upFrom, upTo⟩, fun t member => ?_⟩,
    List.pairwise_cons.mpr ⟨fun t member => ?_, later.increasing⟩,
    List.pairwise_cons.mpr ⟨fun t member => (later.inside t member).1, later.apart⟩, ?_⟩
  · obtain ⟨behind, before⟩ := later.inside t member
    exact ⟨by omega, before⟩
  · exact nonempty.trans_le (later.inside t member).1
  · intro i c after before found outside
    obtain ⟨here, others⟩ := List.forall_mem_cons.mp outside
    rcases here with earlier | behind
    · exact blank i c after earlier found
    · exact later.blank i c behind before found others

/-- Tiles cover the characters that they are made of, wherever these stand in a line. -/
theorem Tiles.covers {position : Nat} {chars : List Char} (tiles : Tiles rest position chars tokens)
    (front : List Char) (place : front.length = position) :
    Covers (front ++ (chars ++ rest)) position (position + chars.length) tokens := by
  induction tiles generalizing front with
  | gap blank =>
    subst place
    refine ⟨nofun, nofun, .nil, .nil, fun i c upFrom below found _ => ?_⟩
    exact blank c (mem_of_getElem?_append upFrom below found)
  | @token position gap lexeme chars kind tokens blank spells ends later ih =>
    -- The later tiles stand behind the gap and the token, which join what is in front of them.
    subst place
    have reached : (front ++ gap ++ lexeme).length = front.length + gap.length + lexeme.length := by
      simp only [List.length_append]
    have covers := ih (front ++ gap ++ lexeme) reached
    have line : front ++ gap ++ lexeme ++ (chars ++ rest) =
        front ++ (gap ++ (lexeme ++ chars) ++ rest) := by
      simp only [List.append_assoc]
    have total : front.length + gap.length + lexeme.length + chars.length =
        front.length + (gap ++ (lexeme ++ chars)).length := by
      simp only [List.length_append, Nat.add_assoc]
    rw [line, total] at covers
    have text : (String.ofList lexeme).length = lexeme.length := String.length_ofList
    have finish : Token.finish ⟨kind, String.ofList lexeme, front.length + gap.length⟩ =
        front.length + gap.length + lexeme.length := by
      rw [Token.finish, text]
    have behind : (front ++ (gap ++ (lexeme ++ chars) ++ rest)).drop
        (front.length + gap.length + lexeme.length) = chars ++ rest := by
      rw [← line, ← reached, List.drop_left]
    refine Covers.cons (finish ▸ covers) ⟨?_, ?_, ?_⟩ (Nat.le_add_right _ _) ?_ ?_
    · have before : front ++ (gap ++ (lexeme ++ chars) ++ rest) =
          (front ++ gap) ++ (lexeme ++ (chars ++ rest)) := by
        simp only [List.append_assoc]
      rw [text, String.toList_ofList, before, ← List.length_append, List.drop_left, List.take_left]
    · rwa [String.toList_ofList]
    · rwa [String.toList_ofList, finish, behind]
    · rw [finish, ← total]
      exact Nat.le_add_right _ _
    · intro i c upFrom below found
      rw [List.append_assoc] at found
      exact blank c (mem_of_getElem?_append upFrom below found)

end Places

end Token

/-! ## Iteration -/

namespace Lexer
open Token (isGap isKnown Tiles Covers)

/-- The tokens in front of the end of the line or of an unknown character, and how the iteration ends there. -/
def iterate (lexer : Lexer) : List Token × EStateM.Result Error Lexer Unit :=
  match _step : next lexer with
  | .error error after => ([], .error error after)
  | .ok token after =>
    if _inLine : token.kind = .lineEnd then ([], .ok () after)
    else (token :: (iterate after).1, (iterate after).2)
termination_by lexer.remaining
decreasing_by all_goals exact remaining_next_lt _step _inLine

variable {gap chars rest : List Char} {position : Nat} {tokens : List Token} {first : Char}
  {lexer after : Lexer} {token : Token} {error : Error}

theorem iterate_of_next (step : next lexer = .ok token after) (inLine : token.kind ≠ .lineEnd) :
    iterate lexer = (token :: (iterate after).1, (iterate after).2) := by
  rw [iterate, step]
  simp only [inLine, dif_neg, not_false_eq_true]

theorem iterate_of_lineEnd (step : next lexer = .ok token after) (ends : token.kind = .lineEnd) :
    iterate lexer = ([], .ok () after) := by
  rw [iterate, step]
  simp only [ends, dif_pos]

theorem iterate_of_error (step : next lexer = .error error after) :
    iterate lexer = ([], .error error after) := by
  rw [iterate, step]

/-- All tokens are taken if the iteration comes to the end of the line. -/
theorem all_eq_iterate (lexer : Lexer) :
    all lexer =
      match (iterate lexer).2 with
      | .ok () last => .ok (iterate lexer).1 last
      | .error error last => .error error last := by
  fun_induction all lexer with
  | case1 lexer error after step => rw [iterate_of_error step]
  | case2 lexer token after step ends => rw [iterate_of_lineEnd step ends]
  | case3 lexer token after step inLine error last failed ih =>
    rw [iterate_of_next step inLine]
    rw [failed] at ih
    cases ending : (iterate after).2 with
    | ok done rest =>
      rw [ending] at ih
      cases ih
    | error stuck rest =>
      rw [ending] at ih
      exact ih
  | case4 lexer token after step inLine others last done ih =>
    rw [iterate_of_next step inLine]
    rw [done] at ih
    cases ending : (iterate after).2 with
    | ok done rest =>
      rw [ending] at ih
      cases ih
      rfl
    | error stuck rest =>
      rw [ending] at ih
      cases ih

/-- Behind any gap, an unknown character stops the lexer. -/
theorem next_unknown (blank : ∀ c ∈ gap, isGap c = true) (unknown : isKnown first = false) (position : Nat) :
    next ⟨gap ++ first :: rest, position, none⟩ =
      .error (.unknownCharacter first) ⟨first :: rest, position + gap.length, none⟩ := by
  obtain ⟨notGap, notSpecial, notDigit, notLetter⟩ := Token.not_isKnown_cases unknown
  have solid : ∀ c ∈ (first :: rest).head?, isGap c = false := fun c head => Option.some.inj head ▸ notGap
  have notMinus : (first == '-') = false := by
    rw [beq_eq_false_iff_ne]
    rintro rfl
    exact absurd notSpecial (by decide)
  have none : Token.lexeme? first rest = none := by
    simp [Token.lexeme?, notMinus, notSpecial, notDigit, notLetter]
  simp only [next, scan, takeWhile_run blank solid, dropWhile_run blank solid, none]

/-- How an iteration ends where no further token begins: with the line, or at an unknown character. -/
def stopAt : List Char → Nat → EStateM.Result Error Lexer Unit
  | [], position => .ok () ⟨[], position, none⟩
  | c :: rest, position => .error (.unknownCharacter c) ⟨c :: rest, position, none⟩

/-- The lexer hands out the tiles and stops behind them. -/
theorem iterate_of_tiles (tiles : Tiles rest position chars tokens)
    (stop : ∀ c ∈ rest.head?, isKnown c = false) :
    iterate ⟨chars ++ rest, position, none⟩ = (tokens, stopAt rest (position + chars.length)) := by
  induction tiles with
  | @gap position gap blank =>
    cases rest with
    | nil => rw [List.append_nil, iterate_of_lineEnd (next_lineEnd blank position) rfl, stopAt]
    | cons c rest => rw [iterate_of_error (next_unknown blank (stop c rfl) position), stopAt]
  | @token position gap lexeme chars kind tokens blank spells ends later ih =>
    have step := next_spelled blank spells ends position
    have line : gap ++ (lexeme ++ chars) ++ rest = gap ++ (lexeme ++ (chars ++ rest)) := by
      simp only [List.append_assoc]
    rw [line, iterate_of_next step spells.kind_ne, ih]
    simp only [List.length_append, Nat.add_assoc]

/-- Known characters have the same tokens whether the line ends there or an unknown character follows. -/
theorem exists_tokens (known : ∀ c ∈ chars, isKnown c = true) (stop : ∀ c ∈ rest.head?, isKnown c = false) :
    ∃ tokens, Covers (chars ++ rest) 0 chars.length tokens ∧
      iterate ⟨chars ++ rest, 0, none⟩ = (tokens, stopAt rest chars.length) ∧
      iterate ⟨chars, 0, none⟩ = (tokens, stopAt [] chars.length) := by
  obtain ⟨tokens, tiles⟩ := Token.exists_tiles known stop 0
  have covers := tiles.covers [] rfl
  have iterated := iterate_of_tiles tiles stop
  have alone := iterate_of_tiles tiles.alone nofun
  rw [Nat.zero_add] at covers iterated alone
  rw [List.append_nil] at alone
  exact ⟨tokens, covers, iterated, alone⟩

/-- The tokens of a line cover it, one after the other and each as long as it can be, up to the end of the
line if all its characters are known, and otherwise up to the first unknown one: there the iteration fails
and leaves the lexer, and the tokens so far are those of the line up to there. -/
theorem tokens_tile (line : String) :
    ∃ tokens stop, Covers line.toList 0 stop tokens ∧
      ((∀ c ∈ line.toList, isKnown c = true) →
        stop = line.length ∧ (ofText line).iterate = (tokens, .ok () ⟨[], stop, none⟩) ∧
        all (ofText line) = .ok tokens ⟨[], stop, none⟩) ∧
      ∀ front c rest, line.toList = front ++ c :: rest → (∀ d ∈ front, isKnown d = true) →
        isKnown c = false →
        stop = front.length ∧
        (ofText line).iterate = (tokens, .error (.unknownCharacter c) ⟨c :: rest, stop, none⟩) ∧
        all (ofText line) = .error (.unknownCharacter c) ⟨c :: rest, stop, none⟩ ∧
        (ofText (String.ofList front)).iterate = (tokens, .ok () ⟨[], stop, none⟩) := by
  have known : ∀ c ∈ line.toList.takeWhile isKnown, isKnown c = true := fun c => List.mem_takeWhile_imp
  have stop : ∀ c ∈ (line.toList.dropWhile isKnown).head?, isKnown c = false := fun c => head_dropWhile
  obtain ⟨tokens, covers, iterated, alone⟩ := exists_tokens known stop
  rw [List.takeWhile_append_dropWhile] at covers iterated
  refine ⟨tokens, _, covers, fun allKnown => ?_, fun front c rest split knownFront unknown => ?_⟩
  · have whole : line.toList.takeWhile isKnown = line.toList := List.takeWhile_eq_self_iff.mpr allKnown
    rw [List.dropWhile_eq_nil_iff.mpr allKnown] at iterated
    refine ⟨by rw [whole, String.length_toList], iterated, ?_⟩
    rw [all_eq_iterate, ofText, iterated, stopAt]
  · have stops : ∀ d ∈ (c :: rest).head?, isKnown d = false := fun d head => Option.some.inj head ▸ unknown
    have first : line.toList.takeWhile isKnown = front := by
      rw [split, takeWhile_run knownFront stops]
    have others : line.toList.dropWhile isKnown = c :: rest := by
      rw [split, dropWhile_run knownFront stops]
    have text : front = (String.ofList front).toList := String.toList_ofList.symm
    rw [others] at iterated
    rw [first] at iterated alone ⊢
    rw [all_eq_iterate, ofText, ofText, ← text]
    refine ⟨rfl, iterated, ?_, alone⟩
    rw [iterated, stopAt]

end Lexer

end Abacus
