import ScriptLang.Number.Shortest
import ScriptLang.Text.Blank
import ScriptLang.Text.Digit

/-!
# Numbers from text

`ofDecimal` takes a decimal to the nearest number, a tie to the even one. `literal` reads the digits
of a script, `read?` the texts that a host writes: a sign, digits in groups joined by underscores, a
point, an exponent, or the name of an infinity or of the value that is not a number. `readInt?`
reads a whole number of any size. A host may write the digits of any script.
-/

namespace ScriptLang.Number

/-- The number that a run of decimal digits counts, read from the left. -/
def ofDigits (digits : List Nat) : Nat := digits.foldl (fun n digit => 10 * n + digit) 0

/-- The value of a digit of ASCII. -/
def digitValue (c : Char) : Nat := c.toNat - '0'.toNat

/-- The positive infinity. -/
def infinity : Float := 1.0 / 0.0

/-- The value that is not a number. -/
def notANumber : Float := 0.0 / 0.0

/-- The number nearest to `digits · 10 ^ exponent`. Beyond 400 places before or after the point
there is only infinity or zero. -/
def ofDecimal (d : Decimal) : Float :=
  let magnitude := decimalLength d.digits + d.exponent
  if d.digits = 0 ∨ magnitude < -400 then 0.0
  else if 400 < magnitude then infinity
  else if d.exponent < 0 then Float.ofScientific d.digits true d.exponent.natAbs
  else Float.ofScientific (d.digits * powerAbove 10 d.exponent) false 0

/-- The number of digits with at most one point among them. -/
def literal (cs : List Char) : Float :=
  let whole := cs.takeWhile (· ≠ '.')
  let fraction := (cs.dropWhile (· ≠ '.')).drop 1
  ofDecimal ⟨ofDigits ((whole ++ fraction).map digitValue), -fraction.length⟩

/-- The values of a run of digits at the start of a text, in groups joined by single underscores,
and the rest. -/
def digitGroups : List Char → List Nat × List Char
  | [] => ([], [])
  | c :: '_' :: d :: rest =>
    match Text.digit? c with
    | none => ([], c :: '_' :: d :: rest)
    | some value =>
      if (Text.digit? d).isNone then ([value], '_' :: d :: rest)
      else
        let (values, rest) := digitGroups (d :: rest)
        (value :: values, rest)
  | c :: rest =>
    match Text.digit? c with
    | none => ([], c :: rest)
    | some value =>
      let (values, rest) := digitGroups rest
      (value :: values, rest)

/-- A text of digits without a sign as a whole number. -/
def natural? (cs : List Char) : Option Nat :=
  match digitGroups cs with
  | ([], _) => none
  | (digits, []) => some (ofDigits digits)
  | _ => none

/-- A text of digits as a whole number, possibly with a sign. -/
def integer? : List Char → Option Int
  | '-' :: rest => (natural? rest).map fun n => -(n : Int)
  | '+' :: rest => (natural? rest).map fun n => (n : Int)
  | cs => (natural? cs).map fun n => (n : Int)

/-- The exponent at the end of a text. -/
def exponent? : List Char → Option Int
  | [] => some 0
  | c :: rest => if c = 'e' ∨ c = 'E' then integer? rest else none

/-- A text without a sign as a number. -/
def unsigned? (cs : List Char) : Option Float :=
  match String.ofList (cs.map Char.toLower) with
  | "inf" | "infinity" => some infinity
  | "nan" => some notANumber
  | _ =>
    let (whole, rest) := digitGroups cs
    let (fraction, rest) := match rest with
      | '.' :: rest => digitGroups rest
      | _ => ([], rest)
    if whole.isEmpty && fraction.isEmpty then none
    else (exponent? rest).map fun e =>
      ofDecimal ⟨ofDigits (whole ++ fraction), e - fraction.length⟩

/-- A text of a host as a number. -/
def read? (text : String) : Option Float :=
  match Text.trim text.toList with
  | '-' :: rest => (unsigned? rest).map (-·)
  | '+' :: rest => unsigned? rest
  | cs => unsigned? cs

/-- A text of a host as a whole number. -/
def readInt? (text : String) : Option Int := integer? (Text.trim text.toList)

/-- The number nearest to a whole number, unless that is beyond all numbers. -/
def ofInt? (n : Int) : Option Float :=
  let x := ofDecimal ⟨n.natAbs, 0⟩
  if x.isInf then none else some (if n < 0 then -x else x)

end ScriptLang.Number
