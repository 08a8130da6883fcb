import Abacus.Proofs.Turns

/-!
# The course of a session

A session is a course of finished commands (`Session.Course`), after which the calculator has been left or
a command is cut off; there is no other such course (`Session.Course.unique`). Every session ends, with its exit
code and a farewell (`Session.run_ends`). A command that fails, or that only shows something, leaves nothing
behind but what it wrote: without its lines the session goes the same (`Session.run_without_passing`).
-/

namespace Abacus

namespace Session

/-- The texts that a session writes in the course of some events. -/
def texts (events : List Event) : List String :=
  (Transcript.mk events []).written

/-- How often a session asks for a line in the course of some events. -/
def reads (events : List Event) : Nat :=
  (Transcript.mk events []).prompts.length

section Events
variable (settings : Settings)

@[simp] theorem texts_append (first second : List Event) :
    texts (first ++ second) = texts first ++ texts second :=
  List.filterMap_append

@[simp] theorem reads_append (first second : List Event) :
    reads (first ++ second) = reads first + reads second := by
  rw [reads, Transcript.prompts, List.filterMap_append, List.length_append]
  rfl

@[simp] theorem texts_written (lines : List String) : texts (lines.map .written) = lines := by
  simp [texts, Transcript.written, List.filterMap_map]

@[simp] theorem reads_written (lines : List String) : reads (lines.map .written) = 0 := by
  simp [reads, Transcript.prompts, List.filterMap_map]

@[simp] theorem texts_prompt_cons (text : String) (events : List Event) :
    texts (.prompt text :: events) = texts events := rfl

@[simp] theorem reads_prompt_cons (text : String) (events : List Event) :
    reads (.prompt text :: events) = reads events + 1 := rfl

@[simp] theorem texts_asking (count : Nat) : texts (asking settings count) = [] := by
  simp [texts, Transcript.written, asking]

@[simp] theorem reads_asking (count : Nat) : reads (asking settings count) = count := by
  simp [reads, Transcript.prompts, asking]

@[simp] theorem texts_events (turn : Turn) : texts (turn.events settings) = turn.verdict.texts := by
  simp [Turn.events]

@[simp] theorem reads_events (turn : Turn) : reads (turn.events settings) = turn.taken.length := by
  simp [Turn.events, Turn.taken]

end Events

/-! ## Courses -/

/-- With some lines to come, commands are finished one after the other, which leads to the calculator `last`
with the `rest` of the lines to come. -/
inductive Course : Calculator → List Line → List Turn → Calculator → List Line → Prop
  | nil (calculator : Calculator) (lines : List Line) : Course calculator lines [] calculator lines
  | cons {before after last : Calculator} {middle rest : List Line} {turn : Turn} {turns : List Turn}
      (opened : before.exited = false) (finished : Finishes before middle turn after)
      (later : Course after middle turns last rest) :
      Course before (turn.taken ++ middle) (turn :: turns) last rest

namespace Course
variable {before last : Calculator} {lines rest : List Line} {turns : List Turn}

/-- The lines are those that the commands took, one after the other, and the rest. -/
theorem lines_eq (course : Course before lines turns last rest) :
    lines = turns.flatMap Turn.taken ++ rest := by
  induction course with
  | nil calculator lines => rfl
  | cons opened finished later ih => rw [ih, List.flatMap_cons, List.append_assoc]

/-- A session writes what its commands write, and goes on after them. -/
theorem converse_eq (settings : Settings) (course : Course before lines turns last rest) :
    converse settings ⟨before, none⟩ lines =
      (converse settings ⟨last, none⟩ rest).after (turns.flatMap (Turn.events settings)) := by
  induction course with
  | nil calculator lines => rfl
  | cons opened finished later ih =>
    rw [converse_of_finishes opened finished, ih, Transcript.after_after, List.flatMap_cons]

/-- The commands are finished in the same way with other lines after them. -/
theorem other (course : Course before lines turns last rest) (other : List Line) :
    Course before (turns.flatMap Turn.taken ++ other) turns last other := by
  induction course with
  | nil calculator lines => exact .nil calculator other
  | @cons before after last middle rest turn turns opened finished later ih =>
    rw [List.flatMap_cons, List.append_assoc]
    exact .cons opened (finished.other _) ih

theorem append {between : Calculator} {middle : List Line} {first second : List Turn}
    (front : Course before lines first between middle) (back : Course between middle second last rest) :
    Course before lines (first ++ second) last rest := by
  induction front with
  | nil calculator lines => exact back
  | cons opened finished later ih => exact .cons opened finished (ih back)

/-- A course can be parted anywhere between its commands. -/
theorem part {first second : List Turn} (course : Course before lines (first ++ second) last rest) :
    ∃ between middle, Course before lines first between middle ∧
      Course between middle second last rest := by
  induction first generalizing before lines with
  | nil => exact ⟨before, lines, .nil before lines, course⟩
  | cons turn first ih =>
    cases course with
    | cons opened finished later =>
      obtain ⟨between, middle, front, back⟩ := ih later
      exact ⟨between, middle, .cons opened finished front, back⟩

/-- Only a command to leave the calculator leaves it. -/
theorem exited_iff (course : Course before lines turns last rest) :
    last.exited = true ↔ before.exited = true ∨ ∃ turn ∈ turns, turn.verdict = .left := by
  induction course with
  | nil calculator lines => simp
  | cons opened finished later ih =>
    rw [ih, finished.exited_iff, List.exists_mem_cons_iff, or_assoc]

/-- Once the calculator has been left there are no more commands. -/
theorem exists_leaving (course : Course before lines turns last rest) (opened : before.exited = false)
    (left : last.exited = true) :
    ∃ earlier turn, turns = earlier ++ [turn] ∧ turn.verdict = .left := by
  induction course with
  | nil calculator lines => cases opened.symm.trans left
  | @cons before after last middle rest turn turns _ finished later ih =>
    cases later with
    | nil =>
      refine ⟨[], turn, rfl, (finished.exited_iff.mp left).resolve_left ?_⟩
      simp [opened]
    | cons stillOpened next others =>
      obtain ⟨earlier, leaving, split, verdict⟩ := ih stillOpened left
      exact ⟨turn :: earlier, leaving, congrArg _ split, verdict⟩

end Course

/-- No command is finished any more: the calculator has been left, or the next command is cut off. -/
inductive Stops (last : Calculator) (rest : List Line) : Prop
  | left (exited : last.exited = true)
  | cut {unread : List Line} (opened : last.exited = false) (cut : Cut last rest unread)

/-- Every session takes a course until it stops. -/
theorem exists_course (before : Calculator) (lines : List Line) :
    ∃ turns last rest, Course before lines turns last rest ∧ Stops last rest := by
  induction size : lines.length using Nat.strong_induction_on generalizing before lines with
  | _ count ih =>
    cases opened : before.exited with
    | true => exact ⟨[], before, lines, .nil before lines, .left opened⟩
    | false =>
      rcases finishes_or_cut before lines with ⟨turn, middle, after, rfl, finished⟩ | ⟨unread, cut⟩
      · have shorter : middle.length < count := by
          rw [← size, List.length_append, Turn.taken, List.length_cons]
          omega
        obtain ⟨turns, last, rest, later, ends⟩ := ih _ shorter after middle rfl
        exact ⟨turn :: turns, last, rest, .cons opened finished later, ends⟩
      · exact ⟨[], before, lines, .nil before lines, .cut opened cut⟩

/-- Where a course stops, no command is finished. -/
theorem Stops.not_finishes {last after : Calculator} {rest : List Line} {turn : Turn}
    (stops : Stops last (turn.taken ++ rest)) (opened : last.exited = false) :
    ¬ Finishes last rest turn after := by
  intro finished
  cases stops with
  | left exited => cases opened.symm.trans exited
  | cut _ cut => exact finished.not_cut cut

/-- There is only one course that stops. -/
theorem Course.unique {before last otherLast : Calculator} {lines rest otherRest : List Line}
    {turns others : List Turn} (course : Course before lines turns last rest) (stops : Stops last rest)
    (other : Course before lines others otherLast otherRest) (otherStops : Stops otherLast otherRest) :
    turns = others ∧ last = otherLast ∧ rest = otherRest := by
  induction course generalizing others with
  | nil calculator lines =>
    cases other with
    | nil => exact ⟨rfl, rfl, rfl⟩
    | cons opened finished later => exact absurd finished (stops.not_finishes opened)
  | @cons before after last middle rest turn turns opened finished later ih =>
    generalize taken : turn.taken ++ middle = lines at other
    cases other with
    | nil =>
      rw [← taken] at otherStops
      exact absurd finished (otherStops.not_finishes opened)
    | cons _ otherFinished otherLater =>
      obtain ⟨rfl, rfl, rfl⟩ := finished.unique otherFinished taken
      obtain ⟨rfl, sameEnd⟩ := ih stops otherLater
      exact ⟨rfl, sameEnd⟩

/-! ## Whole sessions -/

variable {settings : Settings} {lines rest : List Line} {turns : List Turn} {last : Calculator}

theorem texts_flatMap (settings : Settings) (turns : List Turn) :
    texts (turns.flatMap (Turn.events settings)) = turns.flatMap fun turn => turn.verdict.texts := by
  induction turns with
  | nil => rfl
  | cons turn turns ih => simp only [List.flatMap_cons, texts_append, texts_events, ih]

theorem reads_flatMap (settings : Settings) (turns : List Turn) :
    reads (turns.flatMap (Turn.events settings)) = (turns.flatMap Turn.taken).length := by
  induction turns with
  | nil => rfl
  | cons turn turns ih =>
    simp only [List.flatMap_cons, reads_append, reads_events, ih, List.length_append]

/-- What a session comes to whose course ends with the events `closing`. -/
theorem run_of_course (course : Course .new lines turns last rest) {closing : List Event}
    {unread : List Line} (ends : converse settings ⟨last, none⟩ rest = ⟨closing, unread⟩) :
    (run settings lines).2.unread = unread ∧
      (run settings lines).2.written =
        opening settings ++ turns.flatMap (fun turn => turn.verdict.texts) ++ texts closing ∧
      (run settings lines).2.prompts.length =
        (turns.flatMap Turn.taken).length + reads closing := by
  have whole : (run settings lines).2 = ⟨(opening settings).map .written ++
      (turns.flatMap (Turn.events settings) ++ closing), unread⟩ := by
    show (converse settings ⟨.new, none⟩ lines).after _ = _
    rw [course.converse_eq, ends]
    rfl
  rw [whole]
  refine ⟨rfl, ?_, ?_⟩
  · show texts _ = _
    simp only [texts_append, texts_written, texts_flatMap, List.append_assoc]
  · show reads _ = _
    simp only [reads_append, reads_written, reads_flatMap, Nat.zero_add]

/-- Every session ends with exit code 0 and a farewell, after at most one prompt more than there are lines.
It finishes one command after the other, which write their texts. Either the last of them leaves the
calculator, and no further line is read; or none of them does, a command is cut off by the end of the input
or an interruption, and the farewell stands below an empty line. -/
theorem run_ends (settings : Settings) (lines : List Line) :
    (run settings lines).1 = 0 ∧
      (run settings lines).2.prompts.length ≤ lines.length + 1 ∧
      ∃ turns last rest, Course .new lines turns last rest ∧
        ((∃ earlier turn, turns = earlier ++ [turn] ∧ turn.verdict = .left) ∧
            (run settings lines).2.unread = rest ∧
            (run settings lines).2.prompts.length = (turns.flatMap Turn.taken).length ∧
            (run settings lines).2.written =
              opening settings ++ turns.flatMap (fun turn => turn.verdict.texts) ++ ["Goodbye!"] ∨
          (∀ turn ∈ turns, turn.verdict ≠ .left) ∧
            Cut last rest (run settings lines).2.unread ∧
            (run settings lines).2.written =
              opening settings ++ turns.flatMap (fun turn => turn.verdict.texts) ++
                ["", "Goodbye!"]) := by
  obtain ⟨turns, last, rest, course, stops⟩ := exists_course .new lines
  have size : lines.length = (turns.flatMap Turn.taken).length + rest.length := by
    rw [course.lines_eq, List.length_append]
  refine ⟨rfl, ?_⟩
  cases stops with
  | left exited =>
    have ends : converse settings ⟨last, none⟩ rest = ⟨[.written farewell], rest⟩ := by
      rw [converse.eq_def, if_pos exited]
    obtain ⟨unread, written, prompts⟩ := run_of_course course ends
    refine ⟨?_, turns, last, rest, course, .inl ⟨?_, unread, prompts, written⟩⟩
    · rw [prompts, size]
      exact Nat.le_add_right_of_le (Nat.le_add_right _ _)
    · exact course.exists_leaving rfl exited
  | cut opened cut =>
    obtain ⟨count, ends, bound⟩ := converse_of_cut settings opened cut
    obtain ⟨unread, written, prompts⟩ := run_of_course course ends
    refine ⟨?_, turns, last, rest, course, .inr ⟨?_, unread ▸ cut, ?_⟩⟩
    · rw [prompts, size]
      simp only [List.cons_append, reads_prompt_cons, reads_append, reads_asking]
      show _ + (count + 0 + 1) ≤ _
      omega
    · intro turn mem left
      have exited := course.exited_iff.mpr (.inr ⟨turn, mem, left⟩)
      cases opened.symm.trans exited
    · rw [written]
      simp only [List.cons_append, texts_prompt_cons, texts_append, texts_asking]
      rfl

/-- Without the lines of a command that does nothing but write, a course leads to the same end. -/
theorem Course.without {before : Calculator} {earlier later : List Turn} {turn : Turn}
    (course : Course before lines (earlier ++ turn :: later) last rest)
    (passing : turn.verdict.IsPassing) :
    Course before (earlier.flatMap Turn.taken ++ (later.flatMap Turn.taken ++ rest)) (earlier ++ later)
      last rest := by
  obtain ⟨between, middle, front, back⟩ := course.part
  cases back with
  | cons opened finished behind =>
    obtain rfl := finished.eq_of_isPassing passing
    exact (front.other _).append (behind.other rest)

/-- The commands of a session are those of the only course that it can take until it stops. Those of them that
fail, are blank, ask for help or show a value leave no trace: without the lines of any one of them the session
has the same exit code, the same unread lines, and the same texts but for those of the command. -/
theorem run_without_passing (settings : Settings) (lines : List Line) :
    ∃ turns last rest, Course .new lines turns last rest ∧ Stops last rest ∧
      (∀ others otherLast otherRest, Course .new lines others otherLast otherRest →
        Stops otherLast otherRest → others = turns ∧ otherLast = last ∧ otherRest = rest) ∧
      ∀ earlier turn later, turns = earlier ++ turn :: later → turn.verdict.IsPassing →
        ∃ following texts,
          lines = earlier.flatMap Turn.taken ++ turn.taken ++ following ∧
          (run settings lines).2.written = opening settings ++
            earlier.flatMap (fun turn => turn.verdict.texts) ++ turn.verdict.texts ++ texts ∧
          let shortened := run settings (earlier.flatMap Turn.taken ++ following)
          shortened.1 = (run settings lines).1 ∧
            shortened.2.unread = (run settings lines).2.unread ∧
            shortened.2.written =
              opening settings ++ earlier.flatMap (fun turn => turn.verdict.texts) ++ texts := by
  obtain ⟨turns, last, rest, course, stops⟩ := exists_course .new lines
  refine ⟨turns, last, rest, course, stops, fun others otherLast otherRest other otherStops =>
    other.unique otherStops course stops, ?_⟩
  rintro earlier turn later rfl passing
  generalize ends : converse settings ⟨last, none⟩ rest = closing
  obtain ⟨unread, written, -⟩ := run_of_course course ends
  obtain ⟨unread', written', -⟩ := run_of_course (course.without passing) ends
  refine ⟨later.flatMap Turn.taken ++ rest,
    later.flatMap (fun turn => turn.verdict.texts) ++ texts closing.events, ?_, ?_, rfl, ?_, ?_⟩
  · rw [course.lines_eq, List.flatMap_append, List.flatMap_cons]
    simp only [List.append_assoc]
  · rw [written, List.flatMap_append, List.flatMap_cons]
    simp only [List.append_assoc]
  · rw [unread, unread']
  · rw [written', List.flatMap_append]
    simp only [List.append_assoc]

/-- A division that fails leaves nothing but its report behind. -/
example :
    let quiet : Settings := ⟨"Calculator", "> ", "", false, .warning, by decide⟩
    let before : List Line := [.text "DEF Q x", .text "1/2"]
    let following : List Line := [.text "EVAL Q", .text "x", .text "EXIT", .text "HELP"]
    (run quiet (before ++ [.text "EVAL Q", .text "/ x 0"] ++ following)).2.written =
        ["ERROR: division by zero", "RESULT: 1/2", "Goodbye!"] ∧
      (run quiet (before ++ following)).2.written = ["RESULT: 1/2", "Goodbye!"] := by
  decide +kernel

end Session

end Abacus
