/-!
# Bindings

A finite map from names, kept in the order in which the names came in. Giving a name a new value
leaves it in its place. `get?` is the view: each operation is described by what it does to it.
-/

namespace ScriptLang

/-- A finite map from names. -/
structure Bindings (α : Type) where
  entries : List (String × α)

namespace Bindings

variable {α : Type}

/-- The map without names. -/
def empty : Bindings α := ⟨[]⟩

instance : Inhabited (Bindings α) := ⟨empty⟩

/-- The value of a name in a list of entries. -/
def find? (name : String) : List (String × α) → Option α
  | [] => none
  | (key, value) :: rest => if key = name then some value else find? name rest

/-- A list of entries in which a name has a new value. -/
def replace (name : String) (value : α) : List (String × α) → List (String × α)
  | [] => [(name, value)]
  | (key, old) :: rest =>
    if key = name then (key, value) :: rest else (key, old) :: replace name value rest

/-- The value of a name. -/
def get? (b : Bindings α) (name : String) : Option α := find? name b.entries

/-- Gives a name a value. -/
def set (b : Bindings α) (name : String) (value : α) : Bindings α :=
  ⟨replace name value b.entries⟩

/-- Whether a name has a value. -/
def contains (b : Bindings α) (name : String) : Bool := (b.get? name).isSome

/-- The names that have values, in the order in which they came in. -/
def names (b : Bindings α) : List String := b.entries.map (·.1)

/-- Nothing is bound at first. -/
@[simp] theorem get?_empty (name : String) : (empty : Bindings α).get? name = none := rfl

/-- After a replacement the name is found with the new value, and other names as before. -/
theorem find?_replace (name other : String) (value : α) (entries : List (String × α)) :
    find? other (replace name value entries) =
      if name = other then some value else find? other entries := by
  induction entries with
  | nil => simp [replace, find?]
  | cons entry rest ih =>
    obtain ⟨key, old⟩ := entry
    by_cases h : key = name
    · subst h
      by_cases hk : key = other <;> simp [replace, find?, hk]
    · by_cases hk : key = other
      · subst hk
        simp [replace, find?, h, Ne.symm h]
      · simp [replace, find?, h, hk, ih]

/-- A new value is seen under its name and nowhere else. -/
@[simp] theorem get?_set (b : Bindings α) (name other : String) (value : α) :
    (b.set name value).get? other = if name = other then some value else b.get? other :=
  find?_replace name other value b.entries

/-- Names and values sorted by name, in the order of code points. -/
def sortByName (entries : List (String × α)) : List (String × α) :=
  entries.mergeSort fun a b => decide (a.1 ≤ b.1)

end Bindings

end ScriptLang
