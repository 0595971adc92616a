import ScriptLang.Bindings

/-!
# The interface

What a host finds by name. Some names are those of types; all others are looked up on one engine
that everyone shares who asks.
-/

namespace ScriptLang.Interface

/-- What stands behind a name. -/
inductive Member where
  | type | union | package | engine | library | session | method
  deriving DecidableEq, Repr

/-- What messages call the type of a member. No session is begun at first. -/
def Member.typeName : Member → String
  | type => "type"
  | union => "UnionType"
  | package => "module"
  | engine => "Runtime"
  | library => "Library"
  | session => "NoneType"
  | method => "method"

/-- The names of the interface itself. -/
def own : Bindings Member :=
  ⟨[("Function", .type), ("Value", .union), ("Runtime", .type), ("PcliError", .type),
    ("PcliParseError", .type), ("PcliIncompleteParse", .type), ("PcliNameError", .type),
    ("PcliValueError", .type), ("PcliRuntimeError", .type), ("PcliTypeError", .type),
    ("PcliArityError", .type), ("lark", .package), ("_RUNTIME", .engine)]⟩

/-- The names of an engine. -/
def ofEngine : Bindings Member :=
  ⟨[("library", .library), ("session", .session), ("parse", .method), ("run", .method),
    ("execute", .method), ("reset", .method), ("register_builtin", .method),
    ("register_alias", .method), ("list_builtins", .method), ("is_function", .method),
    ("to_value", .method), ("from_value", .method)]⟩

/-- What a name stands for, or the message that it stands for nothing. -/
def find (name : String) : Except String Member :=
  match own.get? name with
  | some member => .ok member
  | none =>
    match ofEngine.get? name with
    | some member => .ok member
    | none => .error ("'Runtime' object has no attribute '" ++ name ++ "'")

end ScriptLang.Interface
