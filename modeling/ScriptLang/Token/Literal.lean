/-!
# String literals

A string stands between double quotes. Inside, a backslash gives the next character a meaning: a
line feed, a tab, a carriage return, a double quote or a backslash. Before any other character the
backslash stands for itself. `encode` writes a string with the two escapes it needs, `decode` reads
a literal.
-/

namespace ScriptLang.Token.Literal

/-- The character that a backslash and this character stand for. -/
def escaped? (c : Char) : Option Char :=
  if c = 'n' then some '\n'
  else if c = 't' then some '\t'
  else if c = 'r' then some '\r'
  else if c = '\x22' ∨ c = '\\' then some c
  else none

/-- Resolves the escapes of a text. -/
def unescape : List Char → List Char
  | '\\' :: c :: rest =>
    match escaped? c with
    | some d => d :: unescape rest
    | none => '\\' :: c :: unescape rest
  | c :: rest => c :: unescape rest
  | [] => []

/-- The string that a literal stands for: all but its first and last character, with the escapes
resolved. -/
def decode (literal : List Char) : List Char := unescape (literal.drop 1).dropLast

/-- A character as a literal spells it. -/
def escapeChar (c : Char) : List Char := if c = '\\' ∨ c = '\x22' then ['\\', c] else [c]

/-- The literal of a string. -/
def encode (text : List Char) : List Char := '\x22' :: (text.flatMap escapeChar ++ ['\x22'])

/-- A character that was escaped is read as itself. -/
theorem unescape_escapeChar_append (c : Char) (rest : List Char) :
    unescape (escapeChar c ++ rest) = c :: unescape rest := by
  by_cases slash : c = '\\'
  · subst slash
    simp [escapeChar, unescape, escaped?]
  · by_cases quote : c = '\x22'
    · subst quote
      simp [escapeChar, unescape, escaped?]
    · simp [escapeChar, unescape, slash, quote]

/-- Unescaping undoes the escapes of a text. -/
theorem unescape_flatMap_escapeChar (text : List Char) :
    unescape (text.flatMap escapeChar) = text := by
  induction text with
  | nil => rfl
  | cons c rest ih => simp [unescape_escapeChar_append, ih]

/-- The literal of a string stands for that string. -/
theorem decode_encode (text : List Char) : decode (encode text) = text := by
  simp [decode, encode, unescape_flatMap_escapeChar]

end ScriptLang.Token.Literal
