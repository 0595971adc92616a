import ScriptLang.Program.Printer
import ScriptLang.Value.Basic

/-!
# Values as text

Values have two texts. Printing shows strings as they are and lists with spaces inside the brackets
(`text`); echoes and traces quote strings and write lists tightly (`echo`).
-/

namespace ScriptLang

/-- A boolean as scripts write it. -/
def booleanText (value : Bool) : String := if value then "true" else "false"

/-- The text of a function. -/
def FunctionValue.text (f : FunctionValue) : String := "<fn " ++ f.name ++ ">"

namespace Value

mutual

/-- A value as it is printed. -/
def text : Value → String
  | number value => Number.text value
  | string value => value
  | boolean value => booleanText value
  | list elements => "[ " ++ commaSeparated (texts elements) ++ " ]"
  | function f => f.text

/-- Values as they are printed. -/
def texts : List Value → List String
  | [] => []
  | value :: rest => text value :: texts rest

end

mutual

/-- A value as it is echoed. -/
def echo : Value → String
  | number value => Number.text value
  | string value => quote value
  | boolean value => booleanText value
  | list elements => "[" ++ commaSeparated (echoes elements) ++ "]"
  | function f => f.text

/-- Values as they are echoed. -/
def echoes : List Value → List String
  | [] => []
  | value :: rest => echo value :: echoes rest

end

end Value

end ScriptLang
