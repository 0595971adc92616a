import ScriptLang.Number.Shortest

/-!
# Numbers as text

Two forms. `roundTrip` writes the shortest decimal that reads back, with a point or an exponent so
that it is seen to be a number with a fraction. `text`, the form scripts see, writes a whole number
with all its digits and no point, and every other number in the first form.
-/

namespace ScriptLang.Number

/-- The exponents that are written positionally. -/
def isPositional (exponent : Int) : Bool := -4 ≤ exponent && exponent < 16

/-- The digits of a decimal without the zeros at their end. -/
def significantDigits (d : Decimal) : List Char :=
  let digits := (Nat.toDigits 10 d.digits).reverse.dropWhile (· = '0')
  if digits.isEmpty then ['0'] else digits.reverse

/-- The exponent of the first digit. -/
def scientificExponent (d : Decimal) : Int := decimalLength d.digits + d.exponent - 1

/-- Digits with a point after the digit of exponent zero. -/
def positional (digits : List Char) (exponent : Int) : List Char :=
  if exponent < 0 then
    '0' :: '.' :: (List.replicate (exponent.natAbs - 1) '0' ++ digits)
  else
    let count := exponent.toNat + 1
    let whole := digits.take count ++ List.replicate (count - digits.length) '0'
    let fraction := digits.drop count
    whole ++ '.' :: (if fraction.isEmpty then ['0'] else fraction)

/-- Digits with a point after the first and an exponent of at least two digits. -/
def scientific (digits : List Char) (exponent : Int) : List Char :=
  let fraction := match digits.drop 1 with
    | [] => []
    | rest => '.' :: rest
  let power := Nat.toDigits 10 exponent.natAbs
  digits.take 1 ++ fraction ++ 'e' :: (if exponent < 0 then '-' else '+') ::
    (List.replicate (2 - power.length) '0' ++ power)

/-- The text of a positive decimal. -/
def decimalText (d : Decimal) : List Char :=
  let digits := significantDigits d
  let exponent := scientificExponent d
  if isPositional exponent then positional digits exponent else scientific digits exponent

/-- Puts a minus sign before the text of a negative number. -/
def withSign (negative : Bool) (text : List Char) : List Char :=
  if negative then '-' :: text else text

/-- The shortest text that reads back as the number and shows that it is one. -/
def roundTrip (x : Float) : String :=
  match shape x with
  | .nan => "nan"
  | .infinite negative => String.ofList (withSign negative ['i', 'n', 'f'])
  | .finite negative significand exponent =>
    let digits := if significand = 0 then ['0', '.', '0']
      else decimalText (shortest significand exponent)
    String.ofList (withSign negative digits)

/-- The text of a number as scripts print it. -/
def text (x : Float) : String :=
  match whole? x with
  | some n => toString n
  | none => roundTrip x

end ScriptLang.Number
