import Abacus.Proofs.Commands

/-!
# Writing commands

Every command can be written as a line, and the line is read as that command (`Command.ofText_text`) if
its names are legal, its fields are ground fields and its matrices have at least one row and column and
no dimension of more than ten digits.
-/

namespace Abacus
open Lexer (HandsOut Writes)
open Token (Stops)

namespace Command

/-- A line that says what the command says. -/
def text : Command → String
  | exit => "EXIT"
  | defineScalar field name => "DEF " ++ (ValueType.scalar field).text ++ " " ++ name
  | defineMatrix field height width name =>
    "DEF " ++ (ValueType.matrix field).text ++ " " ++ toString height ++ " " ++ toString width ++
      " " ++ name
  | evaluate type => "EVAL " ++ type.text

/-- The command has a line that is read as it. -/
inductive Writable : Command → Prop
  | exit : Writable .exit
  | defineScalar (F : GroundField) {name : String} (legal : LegalName name) :
      Writable (.defineScalar F.name name)
  | defineMatrix (F : GroundField) {height width : Nat} {name : String} (tall : 0 < height)
      (low : height < 10 ^ maxDigits) (wide : 0 < width) (narrow : width < 10 ^ maxDigits)
      (legal : LegalName name) : Writable (.defineMatrix F.name height width name)
  | evaluate (F : GroundField) {type : ValueType} (ground : type.field = F.name) :
      Writable (.evaluate type)

/-! ## The pieces of what is written -/

theorem numberSpells_toDigits {n : Nat} (short : n < 10 ^ maxDigits) :
    NumberSpells [(.literal, String.ofList (Nat.toDigits 10 n))] n := by
  have text : (String.ofList (Nat.toDigits 10 n)).toList = Nat.toDigits 10 n := String.toList_ofList
  have fits : ((Nat.toDigits 10 n).dropWhile (· == '0')).length ≤ maxDigits :=
    (List.dropWhile_suffix _).sublist.length_le.trans (Nat.toDigits_length 10 n _ (by decide) short)
  have spells := NumberSpells.intro (text.symm ▸ isDigits_toDigits n) (text.symm ▸ fits)
  rwa [text, digitsValue_toDigits] at spells

theorem writes_toDigits (n : Nat) :
    Writes (Nat.toDigits 10 n) [(.literal, String.ofList (Nat.toDigits 10 n))] := by
  have text : (String.ofList (Nat.toDigits 10 n)).toList = Nat.toDigits 10 n := String.toList_ofList
  have writes := Writes.token (.literal (text.symm ▸ numeral_toDigits n))
  rwa [text] at writes

theorem toList_text_residues (p : Modulus) :
    (GroundField.residues p).name.text.toList = "Z".toList ++ ' ' :: Nat.toDigits 10 p.value := by
  have digits : toString (p.value : Int) = p.value.repr := rfl
  rw [GroundField.name_residues, NumberField.text, String.toList_append, digits, Nat.toList_repr]
  rfl

theorem writes_field (F : GroundField) :
    ∃ pieces, Writes F.name.text.toList pieces ∧ FieldSpells pieces F.name := by
  cases F with
  | rationals => exact ⟨_, .token (.name (isName_word "Q" nofun rfl)), .rationals⟩
  | residues p =>
    rw [toList_text_residues]
    have short : p.value < 10 ^ maxDigits := p.fits.trans (by decide)
    exact ⟨_, .cons (.name (isName_word "Z" nofun rfl)) (writes_toDigits p.value),
      .residues (numberSpells_toDigits short) p.prime_value p.fits⟩

/-- An opening bracket ends in front of a field. -/
theorem stops_field (F : GroundField) {rest : List Char} :
    ∀ c ∈ (F.name.text.toList ++ rest).head?, Stops .special c := by
  cases F with
  | rationals =>
    rintro c ⟨⟩
    rfl
  | residues p =>
    rw [toList_text_residues]
    rintro c ⟨⟩
    rfl

theorem writes_matrix {F : GroundField} {pieces : List Piece} (field : Writes F.name.text.toList pieces) :
    Writes (ValueType.matrix F.name).text.toList
      ((.name, "Matrix") :: (.special, "[") :: (pieces ++ [(.special, "]")])) := by
  intro gap rest later blank ends behind
  -- from the last piece to the first, since each must end in front of what follows
  have none : ∀ c ∈ ([] : List Char), Token.isGap c = true := by simp
  have closed : HandsOut ([] ++ ("]".toList ++ rest)) ((.special, "]") :: later) :=
    behind.cons (.special rfl) none fun c head => (ends c head).ofKind .special
  have inner := field none (by rintro c ⟨⟩; rfl) closed
  have opened : HandsOut ([] ++ ("[".toList ++ _)) ((.special, "[") :: _) :=
    inner.cons (.special rfl) none (stops_field F)
  have whole := opened.cons (.name (isName_word "Matrix" nofun rfl)) blank (by rintro c ⟨⟩; rfl)
  have spelled : (ValueType.matrix F.name).text.toList =
      "Matrix".toList ++ ("[".toList ++ (F.name.text.toList ++ "]".toList)) := by
    rw [ValueType.text, String.toList_append, String.toList_append]
    simp
  rw [spelled]
  simpa using whole

theorem writes_type {F : GroundField} {type : ValueType} (ground : type.field = F.name) :
    ∃ pieces, Writes type.text.toList pieces ∧ TypeSpells pieces type := by
  obtain ⟨pieces, writes, spells⟩ := writes_field F
  cases type with
  | scalar field =>
    obtain rfl : field = F.name := ground
    exact ⟨pieces, writes, .scalar spells⟩
  | matrix field =>
    obtain rfl : field = F.name := ground
    exact ⟨_, writes_matrix writes, .matrix spells⟩

/-- A command is written with pieces that spell it. -/
theorem writes_text {command : Command} (writable : command.Writable) :
    ∃ pieces, Writes command.text.toList pieces ∧ Spells pieces command := by
  cases writable with
  | exit => exact ⟨_, .token (.name (isName_word "EXIT" nofun rfl)), .exit⟩
  | @defineScalar F name legal =>
    have spelled : (defineScalar F.name name).text.toList =
        "DEF".toList ++ ' ' :: ((ValueType.scalar F.name).text.toList ++ ' ' :: name.toList) := by
      simp [text]
    obtain ⟨pieces, typed, spells⟩ := writes_type (show (ValueType.scalar F.name).field = F.name from rfl)
    rw [spelled]
    exact ⟨_, .cons (.name (isName_word "DEF" nofun rfl)) (typed.spaced (.token (.name legal.isName))),
      .define spells (.scalar legal.notReserved)⟩
  | @defineMatrix F height width name tall low wide narrow legal =>
    have spelled : (defineMatrix F.name height width name).text.toList =
        "DEF".toList ++ ' ' :: ((ValueType.matrix F.name).text.toList ++ ' ' :: (Nat.toDigits 10 height ++
          ' ' :: (Nat.toDigits 10 width ++ ' ' :: name.toList))) := by
      simp [text]
    obtain ⟨pieces, typed, spells⟩ := writes_type (show (ValueType.matrix F.name).field = F.name from rfl)
    rw [spelled]
    have sized := (writes_toDigits height).spaced ((writes_toDigits width).spaced (.token (.name legal.isName)))
    exact ⟨_, .cons (.name (isName_word "DEF" nofun rfl)) (typed.spaced sized),
      .define spells (.matrix ⟨numberSpells_toDigits low, tall.ne'⟩ ⟨numberSpells_toDigits narrow, wide.ne'⟩
        legal.notReserved)⟩
  | @evaluate F type ground =>
    have spelled : (evaluate type).text.toList = "EVAL".toList ++ ' ' :: type.text.toList := by
      simp [text]
    obtain ⟨pieces, typed, spells⟩ := writes_type ground
    rw [spelled]
    exact ⟨_, .cons (.name (isName_word "EVAL" nofun rfl)) typed, .evaluate spells⟩

/-- A command that is written is read again. -/
theorem ofText_text {command : Command} (writable : command.Writable) :
    ofText command.text = .ok command := by
  obtain ⟨pieces, writes, spells⟩ := writes_text writable
  exact ofText_eq_ok_iff.mpr ⟨pieces, writes.splits, spells⟩

end Command

end Abacus
