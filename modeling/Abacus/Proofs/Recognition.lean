import Abacus.Proofs.Pieces

/-!
# What readers recognise

A reader recognises a language of pieces: it takes exactly the pieces that spell what it returns, and it fails,
errors of the syntax aside, exactly behind pieces that are to blame (`Recognises`). The language of a reader is
put together from those of its parts, in which the lexer no longer occurs.
-/

namespace Abacus

/-- The pieces begin with one that stands on the line. -/
def Begins (pieces : List Piece) : Prop :=
  ∃ piece rest, pieces = piece :: rest ∧ piece.1 ≠ .lineEnd

theorem Begins.intro {kind : TokenKind} {text : String} {rest : List Piece} (inLine : kind ≠ .lineEnd) :
    Begins ((kind, text) :: rest) :=
  ⟨_, _, rfl, inLine⟩

/-- The reader returns a result exactly if the lexer hands out pieces that spell it, and then stands behind
them. It fails with an error that is not one of the syntax exactly if the lexer hands out pieces that are to
blame. -/
structure Recognises {α : Type} (reader : EStateM Error Lexer α) (spells : List Piece → α → Prop)
    (blames : List Piece → Error → Prop) : Prop where
  ok_iff {lexer after : Lexer} {result : α} (genuine : lexer.Genuine) :
    reader lexer = .ok result after ↔ ∃ pieces, lexer.Hands pieces after ∧ spells pieces result
  error_iff {lexer after : Lexer} {error : Error} (genuine : lexer.Genuine)
    (grave : ¬ error.IsSyntactic) :
    reader lexer = .error error after ↔ ∃ pieces, lexer.Hands pieces after ∧ blames pieces error

/-- No pieces are to blame for an error. -/
abbrev Blameless : List Piece → Error → Prop :=
  fun _ _ => False

namespace Recognises
variable {α β : Type} {reader : EStateM Error Lexer α} {spells goal : List Piece → α → Prop}
  {blames faults : List Piece → Error → Prop}

/-- A language may be described in another way. -/
theorem congr (recognises : Recognises reader spells blames)
    (same : ∀ pieces result, goal pieces result ↔ spells pieces result)
    (fault : ∀ pieces error, ¬ error.IsSyntactic → (faults pieces error ↔ blames pieces error)) :
    Recognises reader goal faults where
  ok_iff genuine := by simp only [recognises.ok_iff genuine, same]
  error_iff {lexer after error} genuine grave := by
    simp only [recognises.error_iff genuine grave, fault _ error grave]

/-! ## One step -/

theorem pure (result : α) :
    Recognises (Pure.pure result) (fun pieces other => pieces = [] ∧ other = result) Blameless where
  ok_iff {lexer after other} genuine := by
    constructor
    · intro done
      cases done
      exact ⟨[], .nil lexer, rfl, rfl⟩
    · rintro ⟨_, hands, rfl, rfl⟩
      cases hands
      rfl
  error_iff genuine grave := by
    simp only [and_false, exists_false, iff_false]
    intro failed
    cases failed

theorem throw (error : Error) :
    Recognises (MonadExcept.throw error : EStateM Error Lexer α) (fun _ _ => False)
      (fun pieces other => pieces = [] ∧ other = error) where
  ok_iff genuine := by
    simp only [and_false, exists_false, iff_false]
    intro done
    cases done
  error_iff {lexer after other} genuine grave := by
    constructor
    · intro failed
      cases failed
      exact ⟨[], .nil lexer, rfl, rfl⟩
    · rintro ⟨_, hands, rfl, rfl⟩
      cases hands
      rfl

theorem complaint {error : Error} (syntactic : error.IsSyntactic) :
    Recognises (MonadExcept.throw error : EStateM Error Lexer α) (fun _ _ => False) Blameless := by
  refine (throw error).congr (fun _ _ => Iff.rfl) fun pieces other grave => ?_
  rw [false_iff]
  rintro ⟨-, rfl⟩
  exact grave syntactic

/-- The first piece decides how a reader goes on. -/
theorem token {next : Token → EStateM Error Lexer α}
    (each : ∀ token : Token, token.Genuine → Recognises (next token)
      (fun rest => spells (token.piece :: rest)) (fun rest => blames (token.piece :: rest)))
    (spelled : ∀ pieces result, spells pieces result → Begins pieces)
    (blamed : ∀ pieces error, blames pieces error → Begins pieces) :
    Recognises (Lexer.next >>= next) spells blames where
  ok_iff {lexer after result} genuine := by
    rw [Lexer.bind_eq_ok_iff]
    constructor
    · rintro ⟨token, middle, step, late⟩
      obtain ⟨genuine, own⟩ := Lexer.next_yields _ genuine _ _ step
      obtain ⟨rest, hands, spells⟩ := ((each token own).ok_iff genuine).mp late
      obtain ⟨_, _, ⟨⟩, inLine⟩ := spelled _ _ spells
      exact ⟨_, .cons step inLine hands, spells⟩
    · rintro ⟨pieces, hands, spells⟩
      obtain ⟨piece, rest, rfl, -⟩ := spelled _ _ spells
      obtain ⟨token, middle, step, rfl, later⟩ := hands.uncons
      obtain ⟨genuine, own⟩ := Lexer.next_yields _ genuine _ _ step
      exact ⟨token, middle, step, ((each token own).ok_iff genuine).mpr ⟨rest, later, spells⟩⟩
  error_iff {lexer after error} genuine grave := by
    rw [Lexer.bind_eq_error_iff]
    constructor
    · rintro (early | ⟨token, middle, step, late⟩)
      · exact absurd (Lexer.next_complains _ _ _ early) grave
      · obtain ⟨genuine, own⟩ := Lexer.next_yields _ genuine _ _ step
        obtain ⟨rest, hands, blames⟩ := ((each token own).error_iff genuine grave).mp late
        obtain ⟨_, _, ⟨⟩, inLine⟩ := blamed _ _ blames
        exact ⟨_, .cons step inLine hands, blames⟩
    · rintro ⟨pieces, hands, blames⟩
      obtain ⟨piece, rest, rfl, -⟩ := blamed _ _ blames
      obtain ⟨token, middle, step, rfl, later⟩ := hands.uncons
      obtain ⟨genuine, own⟩ := Lexer.next_yields _ genuine _ _ step
      exact .inr ⟨token, middle, step,
        ((each token own).error_iff genuine grave).mpr ⟨rest, later, blames⟩⟩

/-! ## One reader after the other -/

theorem bind {next : α → EStateM Error Lexer β} {later : α → List Piece → β → Prop}
    {laterBlames : α → List Piece → Error → Prop} (begins : Recognises reader spells blames)
    (continues : ∀ value, Recognises (next value) (later value) (laterBlames value)) :
    Recognises (reader >>= next)
      (fun pieces result =>
        ∃ value front back, pieces = front ++ back ∧ spells front value ∧ later value back result)
      (fun pieces error => blames pieces error ∨
        ∃ value front back, pieces = front ++ back ∧ spells front value ∧ laterBlames value back error) where
  ok_iff {lexer after result} genuine := by
    rw [Lexer.bind_eq_ok_iff]
    constructor
    · rintro ⟨value, middle, early, late⟩
      obtain ⟨front, hands, spelled⟩ := (begins.ok_iff genuine).mp early
      obtain ⟨back, hands', spelled'⟩ := ((continues value).ok_iff (hands.genuine genuine)).mp late
      exact ⟨front ++ back, hands.append hands', value, front, back, rfl, spelled, spelled'⟩
    · rintro ⟨_, hands, value, front, back, rfl, spelled, spelled'⟩
      obtain ⟨middle, hands, hands'⟩ := hands.part
      exact ⟨value, middle, (begins.ok_iff genuine).mpr ⟨front, hands, spelled⟩,
        ((continues value).ok_iff (hands.genuine genuine)).mpr ⟨back, hands', spelled'⟩⟩
  error_iff {lexer after error} genuine grave := by
    rw [Lexer.bind_eq_error_iff]
    constructor
    · rintro (early | ⟨value, middle, early, late⟩)
      · obtain ⟨pieces, hands, blamed⟩ := (begins.error_iff genuine grave).mp early
        exact ⟨pieces, hands, .inl blamed⟩
      · obtain ⟨front, hands, spelled⟩ := (begins.ok_iff genuine).mp early
        obtain ⟨back, hands', blamed⟩ :=
          ((continues value).error_iff (hands.genuine genuine) grave).mp late
        exact ⟨front ++ back, hands.append hands', .inr ⟨value, front, back, rfl, spelled, blamed⟩⟩
    · rintro ⟨pieces, hands, blamed | ⟨value, front, back, rfl, spelled, blamed⟩⟩
      · exact .inl ((begins.error_iff genuine grave).mpr ⟨pieces, hands, blamed⟩)
      · obtain ⟨middle, hands, hands'⟩ := hands.part
        exact .inr ⟨value, middle, (begins.ok_iff genuine).mpr ⟨front, hands, spelled⟩,
          ((continues value).error_iff (hands.genuine genuine) grave).mpr ⟨back, hands', blamed⟩⟩

/-- What has been read is judged without taking anything else. -/
theorem check {next : α → EStateM Error Lexer β} {outcome : α → β → Prop} {objects : α → Error → Prop}
    (begins : Recognises reader spells blames)
    (judged : ∀ value, Recognises (next value) (fun rest result => rest = [] ∧ outcome value result)
      (fun rest error => rest = [] ∧ objects value error)) :
    Recognises (reader >>= next) (fun pieces result => ∃ value, spells pieces value ∧ outcome value result)
      (fun pieces error => blames pieces error ∨ ∃ value, spells pieces value ∧ objects value error) := by
  refine (begins.bind judged).congr (fun pieces result => ?_) fun pieces error _ => or_congr_right ?_
  · refine exists_congr fun value => ⟨fun ⟨spelled, holds⟩ => ?_, ?_⟩
    · exact ⟨pieces, [], (List.append_nil _).symm, spelled, rfl, holds⟩
    · rintro ⟨front, _, rfl, spelled, rfl, holds⟩
      exact ⟨by rwa [List.append_nil], holds⟩
  · refine exists_congr fun value => ⟨fun ⟨spelled, objected⟩ => ?_, ?_⟩
    · exact ⟨pieces, [], (List.append_nil _).symm, spelled, rfl, objected⟩
    · rintro ⟨front, _, rfl, spelled, rfl, objected⟩
      exact ⟨by rwa [List.append_nil], objected⟩

theorem map (begins : Recognises reader spells blames) (f : α → β) :
    Recognises (reader >>= fun value => Pure.pure (f value))
      (fun pieces result => ∃ value, spells pieces value ∧ result = f value) blames := by
  have judged (value : α) : Recognises (Pure.pure (f value))
      (fun rest result => rest = [] ∧ result = f value) (fun rest _ => rest = [] ∧ False) :=
    (pure (f value)).congr (fun _ _ => Iff.rfl) (by simp)
  exact (begins.check judged).congr (fun _ _ => Iff.rfl) (by simp)

theorem expect (sought : String) :
    Recognises (Lexer.expect sought) (fun pieces _ => pieces = [(.special, sought)]) Blameless := by
  refine .token (fun token _ => ?_) ?_ fun _ _ => False.elim
  · have found_iff (rest : List Piece) : token.piece :: rest = [(.special, sought)] ↔
        rest = [] ∧ token.kind = .special ∧ token.text = sought := by
      simp [Token.piece, and_comm]
    simp only [found_iff]
    split
    · rename_i found
      exact (pure ()).congr (by simp [found]) fun _ _ _ => Iff.rfl
    · rename_i other
      exact (complaint (.inl rfl)).congr (by simp [other]) fun _ _ _ => Iff.rfl
  · rintro _ _ rfl
    exact .intro (by decide)

/-! ## Whole lines -/

/-- A reader followed by the end of the line returns what the whole line spells. -/
theorem read_eq_ok_iff (recognises : Recognises reader spells blames) {line : String} {result : α} :
    Lexer.read (do let value ← reader; Lexer.expectEnd; return value) line = .ok result ↔
      ∃ pieces, Lexer.Splits line pieces ∧ spells pieces result := by
  have genuine : (Lexer.ofText line).Genuine := nofun
  simp only [Lexer.read_toEnd_eq_ok_iff, recognises.ok_iff genuine, Lexer.splits_iff]
  constructor
  · rintro ⟨after, last, ⟨pieces, hands, spelled⟩, ends⟩
    exact ⟨pieces, ⟨after, last, hands, ends⟩, spelled⟩
  · rintro ⟨pieces, ⟨after, last, hands, ends⟩, spelled⟩
    exact ⟨after, last, ⟨pieces, hands, spelled⟩, ends⟩

/-- What is to blame stands at the beginning of the line; the rest of the line does not matter. -/
theorem read_eq_error_iff (recognises : Recognises reader spells blames) {line : String} {error : Error}
    (grave : ¬ error.IsSyntactic) :
    Lexer.read (do let value ← reader; Lexer.expectEnd; return value) line = .error error ↔
      ∃ pieces after, (Lexer.ofText line).Hands pieces after ∧ blames pieces error := by
  have genuine : (Lexer.ofText line).Genuine := nofun
  have ending (value : α) : Complains (do Lexer.expectEnd; return value) :=
    Lexer.expectEnd_complains.bind fun _ => .pure value
  rw [Lexer.read_eq_error_iff, exists_comm]
  refine exists_congr fun after => ?_
  rw [Lexer.bind_eq_error_iff, recognises.error_iff genuine grave]
  refine or_iff_left ?_
  rintro ⟨value, middle, -, late⟩
  exact grave (ending value _ _ _ late)

end Recognises

end Abacus
