import ScriptLang.Text.Printable

/-!
# Quoted text

How a message shows a character or a text of the host: between apostrophes, or between double quotes
when it holds an apostrophe and no double quote. The closing quote and the backslash are escaped,
tab, line feed and carriage return have names, and a character that is not printable is shown by
its code point in hexadecimal, with two, four or eight digits.
-/

namespace ScriptLang.Text

/-- The hexadecimal digits of a number, in lower case, at least `width` of them. -/
def hex (width n : Nat) : List Char :=
  let digits := Nat.toDigits 16 n
  List.replicate (width - digits.length) '0' ++ digits

/-- One character between quotes of the given kind. -/
def quotedChar (quote c : Char) : List Char :=
  if c = quote ∨ c = '\\' then ['\\', c]
  else if c = '\t' then ['\\', 't']
  else if c = '\n' then ['\\', 'n']
  else if c = '\r' then ['\\', 'r']
  else if isPrintable c then [c]
  else if c.toNat < 0x100 then '\\' :: 'x' :: hex 2 c.toNat
  else if c.toNat < 0x10000 then '\\' :: 'u' :: hex 4 c.toNat
  else '\\' :: 'U' :: hex 8 c.toNat

/-- The quote that a text is put between. -/
def quoteFor (cs : List Char) : Char :=
  if cs.contains '\x27' && !cs.contains '\x22' then '\x22' else '\x27'

/-- A text between quotes. -/
def quoted (cs : List Char) : List Char :=
  let quote := quoteFor cs
  quote :: (cs.flatMap (quotedChar quote) ++ [quote])

end ScriptLang.Text
