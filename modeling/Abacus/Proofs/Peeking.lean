import Abacus.Proofs.Lexing

/-!
# Looking ahead

A lexer is asked for its next token or for a look at it. Both are answered alike, and after a look the lexer goes
on exactly as it would have before (`next_of_peek`), so looks can be left out (`answers_filter`). Behind the last
token a lexer stays where it is: at the end of the line, or in front of an unknown character (`next_of_isLast`).
-/

namespace Abacus.Lexer
open Token (isGap)

/-- What a lexer is asked for: its next token, or a look at it. -/
inductive Request where
  | next
  | peek
deriving DecidableEq

/-- How a lexer serves a request. -/
def serve : Request → EStateM Error Lexer Token
  | .next => next
  | .peek => peek

/-- What a request is answered, wherever it leaves the lexer. -/
def outcome {α : Type} : EStateM.Result Error Lexer α → Except Error α
  | .ok result _ => .ok result
  | .error error _ => .error error

/-- The lexer after a request, also if it has failed. -/
def remains : EStateM.Result Error Lexer Token → Lexer
  | .ok _ after | .error _ after => after

/-- A request and what it is answered. -/
abbrev Answer := Request × Except Error Token

/-- The requests with their answers, one after the other. A failure is an answer and ends nothing. -/
def answers (lexer : Lexer) : List Request → List Answer
  | [] => []
  | request :: later =>
    (request, outcome (serve request lexer)) :: answers (remains (serve request lexer)) later

/-- No token of the line comes after the answer. -/
def IsLast : Except Error Token → Prop
  | .ok token => token.kind = .lineEnd
  | .error _ => True

/-- The lexer goes on like one that has scanned nothing ahead. -/
def Plain (lexer : Lexer) : Prop :=
  ∃ fresh, fresh.peeked = none ∧ next lexer = next fresh

variable {lexer other after : Lexer} {token : Token} {error : Error} {request : Request}
  {requests : List Request}

/-! ## Scanning -/

theorem peeked_of_scan_ok (scanned : scan lexer = .ok token after) : after.peeked = lexer.peeked := by
  simp only [scan] at scanned
  split at scanned
  · cases scanned
    rfl
  · split at scanned
    · cases scanned
      rfl
    · cases scanned

/-- A lexer that has come to an unknown character stays in front of it. -/
theorem scan_of_scan_error (scanned : scan lexer = .error error after) :
    after.peeked = lexer.peeked ∧ scan after = .error error after ∧ ∃ c, error = .unknownCharacter c := by
  simp only [scan] at scanned
  split at scanned
  · cases scanned
  · rename_i first rest found
    split at scanned
    · cases scanned
    · rename_i noToken
      cases scanned
      have solid : isGap first = false := head_dropWhile (p := isGap) (by rw [found]; rfl)
      refine ⟨rfl, ?_, first, rfl⟩
      simp only [scan, List.takeWhile_cons, List.dropWhile_cons, solid, noToken, Bool.false_eq_true, if_false,
        List.length_nil, Nat.add_zero]

/-- At the end of the line a lexer stays there, and nothing is spelled out. -/
theorem scan_of_lineEnd (scanned : scan lexer = .ok token after) (ends : token.kind = .lineEnd) :
    scan after = .ok token after ∧ token.text = "" := by
  simp only [scan] at scanned
  split at scanned
  · cases scanned
    exact ⟨rfl, rfl⟩
  · split at scanned
    · rename_i found
      cases scanned
      exact absurd ends (Token.lexeme?_kind_ne found)
    · cases scanned

/-! ## One request -/

theorem next_of_peeked_none (fresh : lexer.peeked = none) : next lexer = scan lexer := by
  rw [next, fresh]

/-- A look is answered as the request for the token would be. -/
theorem outcome_serve (request : Request) (lexer : Lexer) :
    outcome (serve request lexer) = outcome (next lexer) := by
  cases request with
  | next => rfl
  | peek =>
    rw [serve, peek, next]
    cases lexer.peeked with
    | some token => rfl
    | none => cases scan lexer <;> rfl

/-- After a look the lexer goes on as it would have before. -/
theorem next_of_peek (lexer : Lexer) : next (remains (peek lexer)) = next lexer := by
  cases ahead : lexer.peeked with
  | some token => simp only [peek, ahead, remains]
  | none =>
    rw [next_of_peeked_none ahead]
    cases scanned : scan lexer with
    | ok token after =>
      have kept : after.peeked = none := (peeked_of_scan_ok scanned).trans ahead
      have looked : peek lexer = .ok token { after with peeked := some token } := by
        simp only [peek, ahead, scanned]
      rw [looked]
      show EStateM.Result.ok token { after with peeked := none } = .ok token after
      rw [← kept]
    | error error after =>
      obtain ⟨kept, stuck, -⟩ := scan_of_scan_error scanned
      have looked : peek lexer = .error error after := by simp only [peek, ahead, scanned]
      rw [looked]
      exact (next_of_peeked_none (kept.trans ahead)).trans stuck

/-- A request leaves nothing scanned ahead but what a look has found. -/
theorem peeked_remains_next (fresh : lexer.peeked = none) : (remains (next lexer)).peeked = none := by
  rw [next_of_peeked_none fresh]
  cases scanned : scan lexer with
  | ok token after => exact (peeked_of_scan_ok scanned).trans fresh
  | error error after => exact (scan_of_scan_error scanned).1.trans fresh

theorem Plain.serve (plain : lexer.Plain) (request : Request) : (remains (serve request lexer)).Plain := by
  obtain ⟨fresh, none, same⟩ := plain
  cases request with
  | peek => exact ⟨fresh, none, (next_of_peek lexer).trans same⟩
  | next => exact ⟨remains (next lexer), same ▸ peeked_remains_next none, rfl⟩

/-- Once a lexer has given its last answer, it goes on giving it. -/
theorem next_of_isLast (plain : lexer.Plain) (last : IsLast (outcome (next lexer))) (request : Request) :
    next (remains (Lexer.serve request lexer)) = next lexer := by
  cases request with
  | peek => exact next_of_peek lexer
  | next =>
    obtain ⟨fresh, none, same⟩ := plain
    show next (remains (next lexer)) = next lexer
    rw [same] at last ⊢
    rw [next_of_peeked_none (peeked_remains_next none)]
    rw [next_of_peeked_none none] at last ⊢
    cases scanned : scan fresh with
    | ok token after =>
      rw [scanned] at last
      exact (scan_of_lineEnd scanned last).1
    | error error after => exact (scan_of_scan_error scanned).2.1

/-- A lexer fails at unknown characters only. -/
theorem exists_unknownCharacter (failed : outcome (next lexer) = .error error) :
    ∃ c, error = .unknownCharacter c := by
  rw [next] at failed
  split at failed
  · cases failed
  · cases scanned : scan lexer with
    | ok token after =>
      rw [scanned] at failed
      cases failed
    | error stuck after =>
      rw [scanned] at failed
      cases failed
      exact (scan_of_scan_error scanned).2.2

/-! ## All requests -/

/-- Without the looks, the other requests are answered as before. -/
theorem answers_filter (same : next lexer = next other) (requests : List Request) :
    (lexer.answers requests).filter (fun answer => answer.1 = .next) =
      other.answers (requests.filter (· = .next)) := by
  induction requests generalizing lexer other with
  | nil => rfl
  | cons request later ih =>
    cases request with
    | next =>
      have onward : next (remains (next lexer)) = next (remains (next other)) := by rw [same]
      have first : outcome (next lexer) = outcome (next other) := by rw [same]
      simp only [answers, Lexer.serve, first, decide_true, List.filter_cons_of_pos, ih onward]
    | peek =>
      have onward : next (remains (peek lexer)) = next other := (next_of_peek lexer).trans same
      simpa only [answers, Lexer.serve, reduceCtorEq, decide_false, Bool.false_eq_true, not_false_eq_true,
        List.filter_cons_of_neg] using ih onward

/-- Every answer is what the next token would have been, of a lexer that goes on to give the later answers. -/
theorem exists_reached (plain : lexer.Plain) {before after : List Answer}
    {answer : Except Error Token} (split : lexer.answers requests = before ++ (request, answer) :: after) :
    ∃ (reached : Lexer) (later : List Request), reached.Plain ∧ answer = outcome (next reached) ∧
      after = (remains (Lexer.serve request reached)).answers later := by
  induction before generalizing lexer requests with
  | nil =>
    cases requests with
    | nil => cases split
    | cons first later =>
      cases split
      exact ⟨lexer, later, plain, outcome_serve request lexer, rfl⟩
  | cons earlier before ih =>
    cases requests with
    | nil => cases split
    | cons first later => exact ih (plain.serve first) (List.cons.inj split).2

/-- After looks alone, the next token is what the first of them has shown. -/
theorem given_of_peeks (same : next lexer = next other) {peeks after : List Answer}
    (looks : ∀ look ∈ peeks, look.1 = .peek) {given : Except Error Token}
    (split : lexer.answers requests = peeks ++ (.next, given) :: after) : given = outcome (next other) := by
  induction peeks generalizing lexer requests with
  | nil =>
    cases requests with
    | nil => cases split
    | cons first later =>
      cases split
      exact congrArg outcome same
  | cons look peeks ih =>
    obtain ⟨own, others⟩ := List.forall_mem_cons.mp looks
    cases requests with
    | nil => cases split
    | cons first later =>
      obtain ⟨here, behind⟩ := List.cons.inj split
      obtain rfl : first = .peek := (congrArg Prod.fst here).trans own
      exact ih ((next_of_peek lexer).trans same) others behind

/-- Behind the last answer, all answers are the same. -/
theorem answer_of_isLast (plain : lexer.Plain) (last : IsLast (outcome (next lexer)))
    {later : Answer} (member : later ∈ lexer.answers requests) :
    later.2 = outcome (next lexer) := by
  induction requests generalizing lexer with
  | nil => cases member
  | cons request rest ih =>
    have onward := next_of_isLast plain last request
    rcases List.mem_cons.mp member with rfl | behind
    · exact outcome_serve request lexer
    · rw [← onward] at last ⊢
      exact ih (plain.serve request) last behind

theorem answer_of_reached {reached : Lexer} (plain : reached.Plain) (last : IsLast (outcome (next reached)))
    {later : List Request} {answer : Answer}
    (member : answer ∈ (remains (Lexer.serve request reached)).answers later) :
    answer.2 = outcome (next reached) := by
  have onward := next_of_isLast plain last request
  rw [← onward] at last ⊢
  exact answer_of_isLast (plain.serve request) last member

/-- Looking ahead changes no answer to a request for a token. A look shows what the next of these requests is
answered, be it a token or a failure. Once the end of the line has been handed out or shown, every later request
is answered with it; and once a request has failed, which only an unknown character is a reason for, every later
one fails at the same character. -/
theorem looks_change_nothing (line : String) (requests : List Request) :
    ((ofText line).answers requests).filter (fun answer => answer.1 = .next) =
      (ofText line).answers (requests.filter (· = .next)) ∧
    (∀ (before looks after : List Answer) (shown given : Except Error Token),
      (ofText line).answers requests = before ++ (.peek, shown) :: (looks ++ (.next, given) :: after) →
      (∀ look ∈ looks, look.1 = .peek) → shown = given) ∧
    (∀ (before after : List Answer) (request : Request) (token : Token),
      (ofText line).answers requests = before ++ (request, .ok token) :: after → token.kind = .lineEnd →
      ∀ later ∈ after, later.2 = .ok token) ∧
    ∀ (before after : List Answer) (request : Request) (error : Error),
      (ofText line).answers requests = before ++ (request, .error error) :: after →
      (∃ c, error = .unknownCharacter c) ∧ ∀ later ∈ after, later.2 = .error error := by
  have plain : (ofText line).Plain := ⟨ofText line, rfl, rfl⟩
  refine ⟨answers_filter rfl requests, ?_, ?_, ?_⟩
  · intro before looks after shown given split peeks
    obtain ⟨reached, later, -, rfl, behind⟩ := exists_reached plain split
    exact (given_of_peeks (next_of_peek reached) peeks behind.symm).symm
  · intro before after request token split ends later member
    obtain ⟨reached, rest, settled, answer, rfl⟩ := exists_reached plain split
    have last : IsLast (outcome (next reached)) := answer ▸ ends
    exact (answer_of_reached settled last member).trans answer.symm
  · intro before after request error split
    obtain ⟨reached, rest, settled, answer, rfl⟩ := exists_reached plain split
    have last : IsLast (outcome (next reached)) := answer ▸ trivial
    exact ⟨exists_unknownCharacter answer.symm, fun later member =>
      (answer_of_reached settled last member).trans answer.symm⟩

theorem looks_change_nothing_unknown :
    (∃ shown given c, (ofText "a ?").answers [.next, .peek, .next] =
        [(.next, .ok ⟨.name, "a", 0⟩), (.peek, shown), (.next, given)] ∧
      shown = given ∧ given = .error (.unknownCharacter c)) ∧
    ∃ last given, (ofText "a").answers [.next, .peek, .next] =
        [(.next, .ok ⟨.name, "a", 0⟩), (.peek, .ok last), (.next, given)] ∧ given = .ok last := by
  let named : Answer := (.next, .ok ⟨.name, "a", 0⟩)
  let unknown : Except Error Token := .error (.unknownCharacter '?')
  let lineEnd : Token := ⟨.lineEnd, "", 1⟩
  have failing : (ofText "a ?").answers [.next, .peek, .next] =
      [named, (.peek, unknown), (.next, unknown)] := by
    decide +kernel
  have ending : (ofText "a").answers [.next, .peek, .next] =
      [named, (.peek, .ok lineEnd), (.next, .ok lineEnd)] := by
    decide +kernel
  obtain ⟨-, shown, -, stuck⟩ := looks_change_nothing "a ?" [.next, .peek, .next]
  obtain ⟨-, -, ended, -⟩ := looks_change_nothing "a" [.next, .peek, .next]
  have fails := stuck [named] [(.next, unknown)] .peek (.unknownCharacter '?') failing
  have ends := ended [named] [(.next, .ok lineEnd)] .peek lineEnd ending rfl
  refine ⟨⟨unknown, unknown, '?', failing, ?_, ?_⟩, lineEnd, .ok lineEnd, ending, ?_⟩
  · exact shown [named] [] [] unknown unknown failing (List.forall_mem_nil _)
  · exact fails.2 (.next, unknown) List.mem_cons_self
  · exact ends (.next, .ok lineEnd) List.mem_cons_self

end Abacus.Lexer
