import ScriptLang.Number.Printer
import ScriptLang.Program.Basic
import ScriptLang.Token.Literal

/-!
# Programs as text

The one-line text of an expression or a statement, as traces show it. Operations of two operands
stand between parentheses, and blocks are left out. An assignment shows its target by name:
`target?` is that name, and `nameless?` finds the first target that a text would have to show and
that has none.
-/

namespace ScriptLang

/-- A string between double quotes, with its quotes and backslashes escaped. -/
def quote (text : String) : String := String.ofList (Token.Literal.encode text.toList)

/-- Texts with a separator between them. -/
def commaSeparated (texts : List String) : String := ", ".intercalate texts

/-- A list of parameters. -/
def parametersText (parameters : List String) : String :=
  "(" ++ commaSeparated parameters ++ ")"

/-- What stands for a block. -/
def elidedBlock : String := "\x7b … \x7d"

namespace Expression

/-- The name that an expression shows as the target of an assignment. -/
def target? : Expression → Option String
  | identifier name => some name
  | member _ name => some name
  | _ => none

mutual

/-- The text of an expression. -/
def text : Expression → String
  | number value => Number.text value
  | string value => quote value
  | boolean value => if value then "true" else "false"
  | identifier name => name
  | assign target value => target.target?.getD "" ++ " = " ++ text value
  | binary left operator right =>
    "(" ++ text left ++ " " ++ operator.symbol ++ " " ++ text right ++ ")"
  | unary operator operand => operator.symbol ++ text operand
  | call callee arguments => text callee ++ "(" ++ commaSeparated (texts arguments) ++ ")"
  | list elements => "[" ++ commaSeparated (texts elements) ++ "]"
  | function parameters _ => "fn " ++ parametersText parameters ++ " " ++ elidedBlock
  | member target name => text target ++ "." ++ name
  | index target place => text target ++ "[" ++ text place ++ "]"
  | unknown => "Expression()"

/-- The texts of several expressions. -/
def texts : List Expression → List String
  | [] => []
  | expression :: rest => text expression :: texts rest

end

mutual

/-- The first assignment target without a name that the text of an expression comes to. -/
def nameless? : Expression → Option Expression
  | assign target value => if target.target?.isNone then some target else nameless? value
  | binary left _ right => (nameless? left).or (nameless? right)
  | unary _ operand => nameless? operand
  | call callee arguments => (nameless? callee).or (namelessAmong? arguments)
  | list elements => namelessAmong? elements
  | member target _ => nameless? target
  | index target place => (nameless? target).or (nameless? place)
  | _ => none

/-- The first assignment target without a name in several expressions. -/
def namelessAmong? : List Expression → Option Expression
  | [] => none
  | expression :: rest => (nameless? expression).or (namelessAmong? rest)

end

end Expression

namespace Form

/-- The one-line text of a statement. -/
def text : Form → String
  | declare name value => "let " ++ name ++ " = " ++ value.text
  | define name parameters _ => "fn " ++ name ++ parametersText parameters ++ " " ++ elidedBlock
  | branch condition _ _ => "if " ++ condition.text ++ " " ++ elidedBlock
  | loop _ name (some iterable) =>
    "loop (let " ++ name.getD "None" ++ " : " ++ iterable.text ++ ") " ++ elidedBlock
  | loop _ _ none => "loop " ++ elidedBlock
  | returns none => "return"
  | returns (some value) => "return " ++ value.text
  | breakLoop => "break"
  | continueLoop => "continue"
  | evaluate expression => expression.text
  | unknown => "Statement()"

/-- The expression that the text of a statement shows, if it shows one. -/
def shown? : Form → Option Expression
  | declare _ value => some value
  | branch condition _ _ => some condition
  | loop _ _ iterable => iterable
  | returns value => value
  | evaluate expression => some expression
  | _ => none

/-- The first assignment target without a name that the text of a statement comes to. -/
def nameless? (form : Form) : Option Expression := form.shown?.bind Expression.nameless?

end Form

end ScriptLang
