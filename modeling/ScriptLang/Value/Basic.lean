import ScriptLang.Program.Basic

/-!
# Values

What expressions yield: numbers, strings, booleans, lists and functions. Values never change, and a
function captures nothing, so it is only its name, its parameters and its body.
-/

namespace ScriptLang

/-- A function that a script can call. -/
structure FunctionValue where
  name : String
  parameters : List String
  body : Block

/-- How many arguments a function takes. -/
def FunctionValue.arity (f : FunctionValue) : Nat := f.parameters.length

/-- A value of a script. -/
inductive Value where
  | number (value : Float)
  | string (value : String)
  | boolean (value : Bool)
  | list (elements : List Value)
  | function (f : FunctionValue)

instance : Inhabited Value := ⟨.boolean false⟩

/-- The names of types in messages. Beside the types of values there is one for the lack of a value,
and there are two for what only a host can hand over. -/
inductive TypeName where
  | number | string | boolean | list | function | nothing | integer | mapping
  deriving DecidableEq, Repr

/-- The name of a type as messages write it. -/
def TypeName.text : TypeName → String
  | number => "number"
  | string => "string"
  | boolean => "boolean"
  | list => "list"
  | function => "function"
  | nothing => "nothing"
  | integer => "int"
  | mapping => "dict"

/-- The type of a value. -/
def Value.typeName : Value → TypeName
  | number _ => .number
  | string _ => .string
  | boolean _ => .boolean
  | list _ => .list
  | function _ => .function

/-- The type of what an expression may yield. -/
def TypeName.ofResult : Option Value → TypeName
  | some value => value.typeName
  | none => .nothing

end ScriptLang
