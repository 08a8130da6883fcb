import Abacus.Expr.Reader
import Abacus.Proofs.Meaning

/-!
# What can be read

Literal tokens are numerals and name tokens are names. So every literal of an expression that is read
is a numeral; and no expression that is read is nested more deeply than expressions are evaluated.
-/

namespace Abacus

/-- A letter or underscore followed by letters, digits and underscores, all of them ASCII. -/
inductive IsName : List Char → Prop
  | intro {first : Char} {rest : List Char} (begins : first.isAlpha ∨ first = '_')
      (continues : ∀ c ∈ rest, c.isAlpha ∨ c.isDigit ∨ c = '_') : IsName (first :: rest)

namespace Lexer

/-- A sequence of readers returns what the second one makes of what the first one returns. -/
theorem bind_eq_ok_iff {α β : Type} {lexer after : Lexer} {reader : EStateM Error Lexer α}
    {next : α → EStateM Error Lexer β} {result : β} :
    (reader >>= next) lexer = .ok result after ↔
      ∃ value middle, reader lexer = .ok value middle ∧ next value middle = .ok result after := by
  show EStateM.bind reader next lexer = _ ↔ _
  rw [EStateM.bind]
  cases reader lexer with
  | ok value middle =>
    constructor
    · exact fun later => ⟨value, middle, rfl, later⟩
    · rintro ⟨_, _, step, later⟩
      cases step
      exact later
  | error error middle =>
    constructor
    · intro failed
      cases failed
    · rintro ⟨_, _, step, -⟩
      cases step

/-- A sequence of readers fails where one of the two does. -/
theorem bind_eq_error_iff {α β : Type} {lexer after : Lexer} {reader : EStateM Error Lexer α}
    {next : α → EStateM Error Lexer β} {error : Error} :
    (reader >>= next) lexer = .error error after ↔
      reader lexer = .error error after ∨
        ∃ value middle, reader lexer = .ok value middle ∧ next value middle = .error error after := by
  show EStateM.bind reader next lexer = _ ↔ _
  rw [EStateM.bind]
  cases reader lexer with
  | ok value middle => simp
  | error stuck middle => simp

theorem read_eq_ok_iff {α : Type} {reading : EStateM Error Lexer α} {line : String} {result : α} :
    read reading line = .ok result ↔ ∃ last, reading (ofText line) = .ok result last := by
  rw [read]
  cases reading (ofText line) with
  | ok value last => simp
  | error error last => simp

theorem read_eq_error_iff {α : Type} {reading : EStateM Error Lexer α} {line : String} {error : Error} :
    read reading line = .error error ↔ ∃ last, reading (ofText line) = .error error last := by
  rw [read]
  cases reading (ofText line) with
  | ok value last => simp
  | error stuck last => simp

end Lexer

/-- The text of a token is what its kind says. -/
structure Token.Genuine (token : Token) : Prop where
  literal : token.kind = .literal → ∃ n, Numeral token.text.toList n
  name : token.kind = .name → IsName token.text.toList

/-- The token that a lexer has scanned ahead is genuine. -/
def Lexer.Genuine (lexer : Lexer) : Prop :=
  ∀ token, lexer.peeked = some token → token.Genuine

/-- Between genuine lexers, what a reader returns has the property `post`. -/
def Yields {α : Type} (reader : EStateM Error Lexer α) (post : α → Prop) : Prop :=
  ∀ lexer, lexer.Genuine → ∀ result after, reader lexer = .ok result after →
    after.Genuine ∧ post result

namespace Yields
variable {α β : Type} {post : α → Prop} {goal : β → Prop}

theorem pure {result : α} (holds : post result) :
    Yields (Pure.pure result : EStateM Error Lexer α) post := by
  intro lexer genuine other after step
  cases step
  exact ⟨genuine, holds⟩

theorem throw (error : Error) : Yields (throw error : EStateM Error Lexer α) post := by
  intro lexer genuine result after step
  cases step

theorem bind {first : EStateM Error Lexer α} {next : α → EStateM Error Lexer β}
    (begins : Yields first post) (continues : ∀ result, post result → Yields (next result) goal) :
    Yields (first >>= next) goal := by
  intro lexer genuine result after step
  obtain ⟨value, middle, early, late⟩ := Lexer.bind_eq_ok_iff.mp step
  obtain ⟨genuine, holds⟩ := begins lexer genuine value middle early
  exact continues value holds middle genuine result after late

end Yields

theorem Lexer.post_of_read {α : Type} {reading : EStateM Error Lexer α} {post : α → Prop}
    (yields : Yields reading post) {line : String} {result : α}
    (done : Lexer.read reading line = .ok result) : post result := by
  obtain ⟨last, step⟩ := Lexer.read_eq_ok_iff.mp done
  refine (yields _ ?_ result last step).2
  intro token absent
  cases absent

theorem Token.startsName_iff {c : Char} : startsName c = true ↔ c.isAlpha ∨ c = '_' := by
  simp [startsName]

theorem Token.continuesName_iff {c : Char} : continuesName c = true ↔ c.isAlpha ∨ c.isDigit ∨ c = '_' := by
  simp only [continuesName, startsName, Bool.or_eq_true, beq_iff_eq]
  tauto

/-- What begins a name goes on as one. -/
theorem Token.isName_cons_takeWhile {first : Char} (begins : startsName first = true) (rest : List Char) :
    IsName (first :: rest.takeWhile continuesName) :=
  .intro (startsName_iff.mp begins) fun _ member => continuesName_iff.mp (List.mem_takeWhile_imp member)

theorem Token.numeral_of_lexeme? {first : Char} {rest lexeme : List Char}
    (found : lexeme? first rest = some (.literal, lexeme)) : ∃ n, Numeral lexeme n := by
  have digits : ∀ c ∈ rest.takeWhile Char.isDigit, c.isDigit = true := fun c member =>
    List.mem_takeWhile_imp member
  simp only [lexeme?] at found
  split at found
  · rename_i begins
    obtain ⟨-, rfl⟩ := Prod.mk.inj (Option.some.inj found)
    rcases Bool.or_eq_true_iff.mp begins with digit | sign
    · exact ⟨_, .unsigned (isDigits_cons digit digits)⟩
    · obtain ⟨minus, some⟩ := Bool.and_eq_true_iff.mp sign
      obtain rfl : first = '-' := beq_iff_eq.mp minus
      refine ⟨_, .signed ⟨?_, digits⟩⟩
      rintro none
      rw [none] at some
      exact Bool.noConfusion some
  · split at found
    · cases found
    · split at found
      · cases found
      · cases found

theorem Token.isName_of_lexeme? {first : Char} {rest lexeme : List Char}
    (found : lexeme? first rest = some (.name, lexeme)) : IsName lexeme := by
  simp only [lexeme?] at found
  split at found
  · cases found
  · split at found
    · cases found
    · split at found
      · rename_i begins
        obtain ⟨-, rfl⟩ := Prod.mk.inj (Option.some.inj found)
        exact isName_cons_takeWhile begins rest
      · cases found

theorem Lexer.scan_yields : Yields scan Token.Genuine := by
  intro lexer genuine token after step
  simp only [scan] at step
  split at step
  · cases step
    exact ⟨genuine, ⟨nofun, nofun⟩⟩
  · split at step
    · rename_i first rest _ kind lexeme found
      cases step
      refine ⟨genuine, ⟨fun literal => ?_, fun name => ?_⟩⟩
      · obtain rfl : kind = .literal := literal
        rw [String.toList_ofList]
        exact Token.numeral_of_lexeme? found
      · obtain rfl : kind = .name := name
        rw [String.toList_ofList]
        exact Token.isName_of_lexeme? found
    · cases step

theorem Lexer.next_yields : Yields next Token.Genuine := by
  intro lexer genuine token after step
  rw [next] at step
  split at step
  · rename_i ahead peeked
    cases step
    refine ⟨?_, genuine token peeked⟩
    intro other absent
    cases absent
  · exact scan_yields lexer genuine token after step

namespace Expr

/-- The expression has numerals for literals and at most the given levels of nesting. -/
structure Nested (levels : Nat) (e : Expr) : Prop where
  numerals : e.HasNumerals
  depth_le : e.depth ≤ levels

theorem nested_leaf {e : Expr} (numerals : e.HasNumerals) (flat : e.depth = 0) (levels : Nat) :
    Nested levels e :=
  ⟨numerals, flat ▸ Nat.zero_le levels⟩

/-- A head that is an expression already is a numeral or a variable. -/
def Head.Genuine (head : Head) : Prop :=
  ∀ e, head = .leaf e → e.HasNumerals ∧ e.depth = 0

theorem Head.genuine_of_ofToken {token : Token} (genuine : token.Genuine) {head : Head}
    (found : Head.ofToken token = .ok head) : head.Genuine := by
  rintro e rfl
  rw [Head.ofToken] at found
  split at found
  · rename_i literal
    cases found
    exact ⟨genuine.literal literal, rfl⟩
  · split at found
    · cases found
    · cases found
    · cases found
      exact ⟨trivial, rfl⟩
  · split at found
    · cases found
    · split at found
      · cases found
      · cases found
  · cases found

theorem readHead_yields : Yields readHead Head.Genuine := by
  refine Lexer.next_yields.bind fun token genuine => ?_
  split
  · rename_i head found
    exact .pure (Head.genuine_of_ofToken genuine found)
  · exact .throw _

theorem expect_yields (sought : String) : Yields (Lexer.expect sought) fun _ => True := by
  refine Lexer.next_yields.bind fun token genuine => ?_
  split
  · exact .pure trivial
  · exact .throw _

theorem expectEnd_yields : Yields Lexer.expectEnd fun _ => True := by
  refine Lexer.next_yields.bind fun token genuine => ?_
  split
  · exact .pure trivial
  · exact .throw _

theorem readNested_yields (levels : Nat) : Yields (readNested levels) (Nested levels) := by
  induction levels with
  | zero =>
    rw [readNested]
    refine readHead_yields.bind fun head genuine => ?_
    cases head with
    | leaf e =>
      obtain ⟨numerals, flat⟩ := genuine e rfl
      exact .pure (nested_leaf numerals flat 0)
    | group => exact .throw _
    | unary function => exact .throw _
    | binary operation => exact .throw _
  | succ levels ih =>
    rw [readNested]
    refine readHead_yields.bind fun head genuine => ?_
    cases head with
    | leaf e =>
      obtain ⟨numerals, flat⟩ := genuine e rfl
      exact .pure (nested_leaf numerals flat _)
    | group =>
      refine ih.bind fun e nested => ?_
      refine (expect_yields ")").bind fun _ _ => .pure ?_
      exact ⟨nested.numerals, Nat.le_succ_of_le nested.depth_le⟩
    | unary function =>
      refine ih.bind fun e nested => .pure ?_
      exact ⟨nested.numerals, Nat.succ_le_succ nested.depth_le⟩
    | binary operation =>
      refine ih.bind fun l left => ?_
      refine ih.bind fun r right => .pure ?_
      exact ⟨⟨left.numerals, right.numerals⟩,
        Nat.succ_le_succ (max_le left.depth_le right.depth_le)⟩

theorem nested_of_ofText {line : String} {levels : Nat} {e : Expr} (read : ofText line levels = .ok e) :
    Nested levels e := by
  refine Lexer.post_of_read ?_ read
  refine (readNested_yields levels).bind fun e nested => ?_
  exact expectEnd_yields.bind fun _ _ => .pure nested

end Expr

end Abacus
