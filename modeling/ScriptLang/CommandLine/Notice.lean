import ScriptLang.Diagnostic
import ScriptLang.Engine

/-!
# Notices

What a command line tells of a script that did not come to its end: a banner for the kind of
problem, a detail, the name of the error, and an excerpt of the script where there is one to show.
-/

namespace ScriptLang.CommandLine

/-- What is told of a problem. -/
structure Notice where
  banner : String
  detail : String
  label : String
  context : String
  deriving DecidableEq, Repr

/-- The text of a notice. -/
def Notice.text (n : Notice) : String :=
  "\x1b[30;43m " ++ n.banner ++ " \x1b[0m " ++ n.detail ++ " (Exception: \x1b[33m" ++ n.label ++
    "\x1b[0m)\n" ++ n.context ++ "\n"

/-- A name in bright colour, between backticks. -/
def brightName (name : String) : String := "`\x1b[97m" ++ name ++ "\x1b[0m`"

/-- Line feeds and tabs shown as spaces. -/
def onOneLine (text : String) : String :=
  text.map fun c => if c = '\n' ∨ c = '\t' then ' ' else c

/-- What messages call an error in the text of a script. -/
def syntaxLabel (e : SyntaxError) : String :=
  if e.isIncomplete then "PcliIncompleteParse" else "PcliParseError"

/-- The notice of an error in the text of a script. -/
def syntaxNotice (file source : String) (e : SyntaxError) : Notice where
  banner := "SYNTAX ERROR."
  detail := "Parsing " ++ brightName file ++ " caused a problem!"
  label := syntaxLabel e
  context :=
    Diagnostic.errorContext file (some e.position.line) (some e.position.column) e.found
      (Diagnostic.linesOf source none) ++
    "\n\x1b[90m" ++ onOneLine e.message ++ "\x1b[0m\n"

/-- The notice of an error of a script that ran. -/
def errorNotice (file source : String) (e : ScriptError) : Notice :=
  let message := e.cause.message
  let label := e.cause.kind.label
  let context := "\n" ++ Diagnostic.sourceLines file e.line (Diagnostic.linesOf source none) 0
  match e.cause.kind with
  | .name =>
    let detail := "Name `\x1b[1;97m" ++ e.cause.token?.getD "None" ++ "\x1b[0m` from " ++
      brightName file ++ " is not defined! " ++ message
    ⟨"NAME ERROR.", detail, label, context⟩
  | .type | .arity => ⟨"TYPE ERROR.", message, label, context⟩
  | .value | .runtime => ⟨"RUNTIME ERROR.", message, label, context⟩

/-- The notice of a fault from outside the language. -/
def faultNotice (file label message : String) : Notice where
  banner := "INTERNAL ERROR."
  detail := "Running " ++ brightName file ++ " caused an unexpected error!"
  label := label
  context := label ++ ": " ++ message ++ "\n"

/-- The notice of a problem. -/
def notice (file source : String) : Problem → Notice
  | .malformed e => syntaxNotice file source e
  | .failed (.error e) => errorNotice file source e
  | .failed (.fault f) => faultNotice file f.label f.message
  | .unfinished => faultNotice file "Unfinished" "the script did not come to an end"

end ScriptLang.CommandLine
