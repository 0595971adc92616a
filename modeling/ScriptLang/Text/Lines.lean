/-!
# Lines

Two ways to see a text as lines. Scripts are stored with any of three line ends, which reading turns
into the line feed (`normalizeLineEnds`). Diagnostics cut a text at every line boundary of Unicode
(`lines`), and a boundary at the very end opens no further line.
-/

namespace ScriptLang.Text

/-- Turns each carriage return, alone or before a line feed, into one line feed. -/
def normalizeLineEnds : List Char → List Char
  | [] => []
  | '\r' :: '\n' :: rest => '\n' :: normalizeLineEnds rest
  | '\r' :: rest => '\n' :: normalizeLineEnds rest
  | c :: rest => c :: normalizeLineEnds rest

/-- A character that ends a line for the diagnostics. -/
def isLineEnd (c : Char) : Bool :=
  let n := c.toNat
  (0x0A ≤ n && n ≤ 0x0D) || (0x1C ≤ n && n ≤ 0x1E) || n == 0x85 || n == 0x2028 || n == 0x2029

/-- The lines of a text, given the part of the first line that was already read, newest first. -/
def linesFrom : List Char → List Char → List (List Char)
  | [], [] => []
  | [], line => [line.reverse]
  | '\r' :: '\n' :: rest, line => line.reverse :: linesFrom rest []
  | c :: rest, line =>
    if isLineEnd c then line.reverse :: linesFrom rest [] else linesFrom rest (c :: line)

/-- The lines of a text, without their ends. -/
def lines (text : List Char) : List (List Char) := linesFrom text []

/-- The lines of typed input: each line feed ends one, and what stands after the last is one too,
unless it is empty. -/
def inputLinesFrom : List Char → List Char → List (List Char)
  | [], [] => []
  | [], line => [line.reverse]
  | '\n' :: rest, line => line.reverse :: inputLinesFrom rest []
  | c :: rest, line => inputLinesFrom rest (c :: line)

/-- The lines of typed input, without their line feeds. -/
def inputLines (text : List Char) : List (List Char) := inputLinesFrom text []

end ScriptLang.Text
