import Abacus.Text.Blank
import Mathlib.Data.List.DropRight

/-!
# Stripping blanks

Stripping leaves what stands between the blanks on both sides (`Text.strips_strip`), and whatever stands there
is what stripping leaves (`Text.strip_of_strips`). Around a character that is no blank, the part before it and
the part after it are stripped on their outer sides only, and stripping them again strips them altogether
(`Text.strip_append_cons`, `Text.strip_dropWhile`, `Text.strip_rdropWhile`).
-/

namespace Abacus

/-! ## Runs of characters -/

section Runs
variable {p : Char → Bool} {c : Char} {run rest front back : List Char}

/-- A run of characters ends before the first character of another kind. -/
theorem takeWhile_run (inside : ∀ c ∈ run, p c = true) (ends : ∀ c ∈ rest.head?, p c = false) :
    (run ++ rest).takeWhile p = run := by
  rw [List.takeWhile_append_of_pos inside]
  cases rest with
  | nil => exact List.append_nil run
  | cons c rest => rw [List.takeWhile_cons, if_neg (by simp [ends c rfl]), List.append_nil]

theorem dropWhile_run (inside : ∀ c ∈ run, p c = true) (ends : ∀ c ∈ rest.head?, p c = false) :
    (run ++ rest).dropWhile p = rest := by
  rw [List.dropWhile_append_of_pos inside]
  cases rest with
  | nil => rfl
  | cons c rest => rw [List.dropWhile_cons, if_neg (by simp [ends c rfl])]

theorem rdropWhile_run (inside : ∀ c ∈ run, p c = true) (begins : ∀ c ∈ rest.getLast?, p c = false) :
    (rest ++ run).rdropWhile p = rest := by
  have insideTurned : ∀ c ∈ run.reverse, p c = true := fun c member =>
    inside c (List.mem_reverse.mp member)
  have beginsTurned : ∀ c ∈ rest.reverse.head?, p c = false := by
    rwa [List.head?_reverse]
  rw [List.rdropWhile, List.reverse_append, dropWhile_run insideTurned beginsTurned, List.reverse_reverse]

/-- Only what is to be dropped is dropped. -/
theorem mem_dropWhile_of_neg (member : c ∈ front) (stays : p c = false) : c ∈ front.dropWhile p := by
  rw [← List.takeWhile_append_dropWhile (p := p) (l := front), List.mem_append] at member
  rcases member with taken | left
  · exact absurd (List.mem_takeWhile_imp taken) (by simp [stays])
  · exact left

theorem mem_rdropWhile_of_neg (member : c ∈ front) (stays : p c = false) : c ∈ front.rdropWhile p :=
  List.mem_reverse.mpr (mem_dropWhile_of_neg (List.mem_reverse.mpr member) stays)

/-- A character that stays keeps all that is behind it. -/
theorem dropWhile_append_cons (stays : p c = false) :
    (front ++ c :: back).dropWhile p = front.dropWhile p ++ c :: back := by
  rw [List.dropWhile_append]
  split
  · rename_i none
    rw [List.dropWhile_cons, if_neg (by simp [stays]), List.isEmpty_iff.mp none, List.nil_append]
  · rfl

/-- A character that stays keeps all that is in front of it. -/
theorem rdropWhile_append_cons (stays : p c = false) :
    (front ++ c :: back).rdropWhile p = front ++ c :: back.rdropWhile p := by
  have turned : (front ++ c :: back).reverse = back.reverse ++ c :: front.reverse := by simp
  rw [List.rdropWhile, turned, dropWhile_append_cons stays, List.rdropWhile]
  simp

/-- Dropping goes on up to a character that stays. -/
theorem head_dropWhile {chars : List Char} (first : c ∈ (chars.dropWhile p).head?) : p c = false := by
  have stays := List.head?_dropWhile_not p chars
  rwa [Option.mem_def.mp first] at stays

theorem getLast_rdropWhile {chars : List Char} (last : c ∈ (chars.rdropWhile p).getLast?) : p c = false := by
  rw [List.rdropWhile, List.getLast?_reverse] at last
  exact head_dropWhile last

end Runs

namespace Text
variable {chars inner front back : List Char} {c : Char}

/-- Between blanks on both sides, `inner` is what is left of `chars`. -/
inductive Strips : (chars inner : List Char) → Prop
  | intro {before inner after : List Char} (blankBefore : ∀ c ∈ before, isBlank c = true)
      (blankAfter : ∀ c ∈ after, isBlank c = true) (begins : ∀ c ∈ inner.head?, isBlank c = false)
      (ends : ∀ c ∈ inner.getLast?, isBlank c = false) : Strips (before ++ (inner ++ after)) inner

theorem strip_eq_rdropWhile (chars : List Char) :
    strip chars = (chars.dropWhile isBlank).rdropWhile isBlank :=
  rfl

theorem strips_strip (chars : List Char) : Strips chars (strip chars) := by
  have front := List.takeWhile_append_dropWhile (p := isBlank) (l := chars)
  have back := List.rdropWhile_append_rtakeWhile (p := isBlank) (l := chars.dropWhile isBlank)
  rw [← strip_eq_rdropWhile] at back
  have strips : Strips (chars.takeWhile isBlank ++
      (strip chars ++ (chars.dropWhile isBlank).rtakeWhile isBlank)) (strip chars) := by
    refine .intro (fun c => List.mem_takeWhile_imp) (fun c => List.mem_rtakeWhile_imp) ?_ ?_
    · intro c first
      have stays : c ∈ (chars.dropWhile isBlank).head? := by
        rw [← back, List.head?_append, Option.mem_def.mp first]
        rfl
      exact head_dropWhile stays
    · exact fun c last => getLast_rdropWhile last
  rwa [back, front] at strips

theorem strip_of_strips (strips : Strips chars inner) : strip chars = inner := by
  cases strips with
  | @intro before inner after blankBefore blankAfter begins ends =>
    rw [strip_eq_rdropWhile]
    cases inner with
    | nil =>
      rw [List.nil_append, List.dropWhile_append_of_pos blankBefore,
        List.dropWhile_eq_nil_iff.mpr blankAfter, List.rdropWhile_nil]
    | cons first rest =>
      have dropped : (before ++ (first :: rest ++ after)).dropWhile isBlank = first :: rest ++ after :=
        dropWhile_run blankBefore begins
      rw [dropped, rdropWhile_run blankAfter ends]

theorem strip_append_cons (solid : isBlank c = false) :
    strip (front ++ c :: back) = front.dropWhile isBlank ++ c :: back.rdropWhile isBlank := by
  rw [strip_eq_rdropWhile, dropWhile_append_cons solid, rdropWhile_append_cons solid]

theorem strip_dropWhile (chars : List Char) : strip (chars.dropWhile isBlank) = strip chars := by
  rw [strip_eq_rdropWhile, List.dropWhile_idempotent, strip_eq_rdropWhile]

theorem Strips.rdropWhile (strips : Strips chars inner) : Strips (chars.rdropWhile isBlank) inner := by
  cases strips with
  | @intro before inner after blankBefore blankAfter begins ends =>
    cases inner with
    | nil =>
      have none : (before ++ ([] ++ after)).rdropWhile isBlank = [] := by
        rw [List.rdropWhile_eq_nil_iff, List.nil_append]
        exact fun c member => (List.mem_append.mp member).elim (blankBefore c) (blankAfter c)
      have empty : Strips ([] ++ ([] ++ [])) [] := .intro nofun nofun nofun nofun
      rwa [none]
    | cons first rest =>
      have last : ∀ c ∈ (before ++ first :: rest).getLast?, isBlank c = false := by
        rwa [List.getLast?_append_of_ne_nil before (List.cons_ne_nil first rest)]
      have kept : (before ++ (first :: rest ++ after)).rdropWhile isBlank =
          before ++ (first :: rest ++ []) := by
        rw [← List.append_assoc, rdropWhile_run blankAfter last, List.append_nil]
      rw [kept]
      exact .intro blankBefore nofun begins ends

theorem strip_rdropWhile (chars : List Char) : strip (chars.rdropWhile isBlank) = strip chars :=
  strip_of_strips (strips_strip chars).rdropWhile

theorem strip_strip (chars : List Char) : strip (strip chars) = strip chars :=
  (strip_rdropWhile (chars.dropWhile isBlank)).trans (strip_dropWhile chars)

theorem mem_strip (member : c ∈ chars) (solid : isBlank c = false) : c ∈ strip chars :=
  mem_rdropWhile_of_neg (mem_dropWhile_of_neg member solid) solid

theorem mem_of_mem_strip (member : c ∈ strip chars) : c ∈ chars :=
  (List.dropWhile_suffix isBlank).subset ((List.rdropWhile_prefix isBlank _).subset member)

end Text

end Abacus
