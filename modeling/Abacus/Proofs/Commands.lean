import Abacus.Proofs.CommandGrammar

/-!
# Commands that can be read

A command that is read defines only variables with a legal name, at a type over the rationals or over
the residues modulo a prime, and only matrices with at least one row and one column. It evaluates only at
such a type.
-/

namespace Abacus

/-- A name that a variable can have. -/
structure LegalName (name : String) : Prop where
  isName : IsName name.toList
  notReserved : name ∉ Command.reservedNames

/-- What the command defines has a legal name and a type over a ground field, and is not empty. What it
evaluates is of a type over a ground field. -/
inductive Command.Legal : Command → Prop
  | exit : Legal .exit
  | defineScalar (F : GroundField) {name : String} (legal : LegalName name) :
      Legal (.defineScalar F.name name)
  | defineMatrix (F : GroundField) {height width : Nat} {name : String} (tall : 0 < height)
      (wide : 0 < width) (legal : LegalName name) : Legal (.defineMatrix F.name height width name)
  | evaluate (F : GroundField) {type : ValueType} (ground : type.field = F.name) :
      Legal (.evaluate type)

namespace Command

/-- A type is spelled over a ground field only. -/
theorem TypeSpells.ground {pieces : List Piece} {type : ValueType} (spells : TypeSpells pieces type) :
    ∃ F : GroundField, type.field = F.name := by
  have ofField {pieces : List Piece} {field : NumberField} (inner : FieldSpells pieces field) :
      ∃ F : GroundField, field = F.name := by
    cases inner with
    | rationals => exact ⟨.rationals, rfl⟩
    | residues number prime fits => exact ⟨.residues (.ofPrime _ prime fits), rfl⟩
  cases spells with
  | scalar inner => exact ofField inner
  | matrix inner => exact ofField inner

/-- If the name tokens are names, then what is spelled is legal. -/
theorem Spells.legal {pieces : List Piece} {command : Command} (spells : Spells pieces command)
    (names : ∀ name, (TokenKind.name, name) ∈ pieces → IsName name.toList) : command.Legal := by
  cases spells with
  | exit => exact .exit
  | evaluate typed =>
    obtain ⟨F, ground⟩ := typed.ground
    exact .evaluate F ground
  | define typed definition =>
    obtain ⟨F, ground⟩ := typed.ground
    cases definition with
    | scalar free =>
      cases ground
      exact .defineScalar F ⟨names _ (by simp), free⟩
    | matrix tall wide free =>
      cases ground
      exact .defineMatrix F (Nat.pos_of_ne_zero tall.2) (Nat.pos_of_ne_zero wide.2)
        ⟨names _ (by simp), free⟩

theorem legal_of_ofText {line : String} {command : Command} (read : ofText line = .ok command) :
    command.Legal := by
  obtain ⟨pieces, splits, spells⟩ := ofText_eq_ok_iff.mp read
  obtain ⟨after, last, hands, -⟩ := Lexer.splits_iff.mp splits
  exact spells.legal fun name member => hands.isName nofun member

end Command

end Abacus
