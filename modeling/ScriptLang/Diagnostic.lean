import ScriptLang.Text.Layout
import ScriptLang.Text.Lines

/-!
# Diagnostics

Excerpts of a script around an error. The lines are those of `Text.lines`, numbered from one. An
error of a run shows the line of the statement; an error of the text shows two lines before and
after it and marks the word at which it was found.
-/

namespace ScriptLang.Diagnostic

/-- Starts a bright text. -/
def bright : String := "\x1b[97m"

/-- Starts a dim text. -/
def dim : String := "\x1b[90m"

/-- Ends a coloured text. -/
def plain : String := "\x1b[0m"

/-- A file name as diagnostics show it. -/
def fileText : Option String → String
  | some name => name
  | none => "None"

/-- The lines of a script: those of the text that is given, else those of what its file holds. There
are none if the file cannot be read either. -/
def linesOf (source content : Option String) : List (List Char) :=
  match source.or content with
  | some text => Text.lines text.toList
  | none => []

/-- The heading of an excerpt. -/
def heading (file : Option String) (line : Option Int) : String :=
  let place := match line with
    | some line => ", line " ++ toString line
    | none => ""
  bright ++ "  File \"" ++ fileText file ++ "\"" ++ place ++ plain

/-- Numbers lines from one on. -/
def number (lines : List (List Char)) : List (Nat × List Char) :=
  lines.zipIdx.map fun (text, place) => (place + 1, text)

/-- The numbered lines from one number up to another. -/
def window (lines : List (List Char)) (first last : Int) : List (Nat × List Char) :=
  (number lines).filter fun (n, _) => decide (first ≤ n ∧ n ≤ last)

/-- A line of an excerpt. -/
def numbered (colour : String) (n : Nat) (text : String) : String :=
  colour ++ Text.padLeft 5 (toString n) ++ " |" ++ plain ++ " " ++ text

/-- The excerpt around the line of a statement, with some lines of context. There is none for a line
that the script does not have. -/
def sourceLines (file : Option String) (line : Option Int) (lines : List (List Char))
    (context : Int) : String :=
  match line with
  | none => ""
  | some line =>
    if 0 < line ∧ line ≤ lines.length then
      let shown := (window lines (line - context) (line + context)).map fun (n, text) =>
        numbered (if (n : Int) = line then bright else dim) n (String.ofList text)
      heading file line ++ "\n" ++ "\n".intercalate shown ++ "\n"
    else ""

/-- A line in which some characters from a column on are marked. A column outside the line marks
nothing. -/
def marked (text : List Char) (column : Int) (width : Nat) : List Char :=
  if 0 < column ∧ column ≤ text.length then
    let start := column.toNat - 1
    text.take start ++ "\x1b[48;5;30m\x1b[1;97m".toList ++
      Text.slice start (start + width) text ++ plain.toList ++ text.drop (start + width)
  else text

/-- The excerpt around an error of the text, found at a word. -/
def errorContext (file : Option String) (line column : Option Int) (found : String)
    (lines : List (List Char)) : String :=
  match line with
  | none => heading file none ++ "\n"
  | some line =>
    let shown := (window lines (line - 2) (line + 2)).map fun (n, text) =>
      if (n : Int) = line then
        numbered bright n (String.ofList (marked text (column.getD 0) (max 1 found.length)))
      else numbered dim n (String.ofList text)
    "\n" ++ "\n".intercalate (heading file (some line) :: shown) ++ "\n"

end ScriptLang.Diagnostic
