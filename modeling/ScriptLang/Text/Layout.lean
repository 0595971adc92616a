/-!
# Columns

Padding to a column, cutting at a width and grouping of digits, all counted in characters.
-/

namespace ScriptLang.Text

/-- A text padded with spaces on the left to a width. -/
def padLeft (width : Nat) (text : String) : String :=
  String.ofList (List.replicate (width - text.length) ' ') ++ text

/-- The first characters of a text. A negative count leaves out that many at the end. -/
def take (count : Int) (cs : List Char) : List Char :=
  if 0 ≤ count then cs.take count.toNat else cs.take (cs.length - count.natAbs)

/-- The characters of `cs` from place `start` up to, not including, place `stop`. -/
def slice (start stop : Nat) (cs : List Char) : List Char :=
  (cs.take stop).drop start

/-- Puts a comma before each group of three digits, counted from the end. The digits come in
reverse. -/
def groupThousands : List Char → List Char
  | a :: b :: c :: d :: rest => a :: b :: c :: ',' :: groupThousands (d :: rest)
  | digits => digits

/-- A whole number with its digits in groups of three. -/
def thousands (n : Int) : String :=
  let digits := String.ofList (groupThousands (toString n.natAbs).toList.reverse).reverse
  if n < 0 then "-" ++ digits else digits

end ScriptLang.Text
