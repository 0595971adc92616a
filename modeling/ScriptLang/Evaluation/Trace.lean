import ScriptLang.Program.Printer
import ScriptLang.Text.Layout

/-!
# Traces

The lines that a traced run writes: one for each statement before it runs, with its number, its line
and its text, and one for each call, with the texts of its arguments. Both are indented by the
number of open scopes.
-/

namespace ScriptLang.Trace

/-- The width that the text of a statement is cut to. -/
def standardWidth : Int := 72

/-- Two spaces for each open scope. -/
def indentation (depth : Int) : String := String.ofList (List.replicate (2 * depth.toNat) ' ')

/-- A text of at most a width. A longer one is cut and ends in a mark. -/
def fit (width : Int) (text : String) : String :=
  if width < text.length then String.ofList (Text.take (width - 2) text.toList) ++ " …" else text

/-- The line of a statement as the trace shows it. -/
def lineText : Option Int → String
  | some line => Text.padLeft 4 (toString line)
  | none => "   ?"

/-- The trace of a statement. -/
def stepLine (number : Int) (statement : Statement) (depth width : Int) : String :=
  "\x1b[90m" ++ Text.padLeft 3 (toString number) ++ " :\x1b[0m \x1b[36m" ++
    lineText statement.line ++ "\x1b[0m  " ++ indentation depth ++
    fit width statement.form.text ++ "\n"

/-- The trace of a call, given the texts of its arguments. -/
def callLine (name : String) (arguments : List String) (depth : Int) : String :=
  "\x1b[90m  → :\x1b[0m       " ++ indentation depth ++ "\x1b[97m" ++ name ++ "\x1b[0m(" ++
    commaSeparated arguments ++ ")\n"

end ScriptLang.Trace
