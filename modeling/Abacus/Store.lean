import Abacus.Error

/-!
# Variables

A store binds names to values, each under a type. A name has one binding; defining it again
replaces the old one, whatever its type.
-/

namespace Abacus

/-- What a name is bound to. -/
structure Binding (α : Type) where
  type : ValueType
  value : α
deriving DecidableEq

/-- Names and their bindings, the latest definition first. -/
structure Store (α : Type) where
  entries : List (String × Binding α)
  distinct : (entries.map Prod.fst).Nodup

namespace Store
variable {α : Type}

/-- The store that binds nothing. -/
def empty : Store α :=
  ⟨[], List.nodup_nil⟩

/-- The binding of a name. -/
def get? (store : Store α) (name : String) : Option (Binding α) :=
  store.entries.lookup name

/-- The number of names that are bound. -/
def size (store : Store α) : Nat :=
  store.entries.length

/-- Binds `name`, in place of what it was bound to before. -/
def define (store : Store α) (name : String) (type : ValueType) (value : α) : Store α where
  entries := (name, ⟨type, value⟩) :: store.entries.filter fun entry => entry.1 != name
  distinct := by
    rw [List.map_cons, List.nodup_cons]
    refine ⟨?_, ((List.filter_sublist).map Prod.fst).nodup store.distinct⟩
    simp

/-- The type that a name is bound under. -/
def typeOf? (store : Store α) (name : String) : Option ValueType :=
  (store.get? name).map Binding.type

/-- Why a variable stored under one type cannot be used at another: it is a value of another
kind, or its residues have another modulus. -/
def mismatch (name : String) (stored requested : ValueType) : Error :=
  match stored, requested with
  | .scalar (.residues m), .scalar (.residues n) => .incompatibleModuli m n
  | .matrix (.residues m), .matrix (.residues n) => .incompatibleModuli m n
  | _, _ => .wrongType name requested stored

/-- The value of a variable, which must be bound under the type `requested`. -/
def lookup (store : Store α) (name : String) (requested : ValueType) : Except Error α :=
  match store.get? name with
  | none => .error (.undefinedVariable name)
  | some binding =>
    if binding.type = requested then .ok binding.value
    else .error (mismatch name binding.type requested)

@[simp] theorem get?_define_self (store : Store α) (name : String) (type : ValueType) (value : α) :
    (store.define name type value).get? name = some ⟨type, value⟩ := by
  simp [get?, define]

theorem get?_define_of_ne (store : Store α) {name other : String} (type : ValueType) (value : α)
    (differ : other ≠ name) : (store.define name type value).get? other = store.get? other := by
  have apart : (other == name) = false := by simpa using differ
  simp only [get?, define, List.lookup_cons, apart]
  induction store.entries with
  | nil => rfl
  | cons entry rest ih =>
    obtain ⟨key, binding⟩ := entry
    by_cases same : key = name
    · subst same
      simpa [List.lookup_cons, apart] using ih
    · cases found : other == key <;> simp [List.lookup_cons, same, found, ih]

end Store

end Abacus
