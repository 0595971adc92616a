import ScriptLang.Number.Binary

/-!
# The shortest decimal of a number

The numbers leave gaps, and every decimal in the interval around a number reads back as that number.
`shortest` takes the fewest digits for which a decimal lies in the interval and, of those, the one
nearest to the number, of two that are equally near the one with the even last digit. The ends
belong to the interval when the significand is even, since reading rounds a tie to even.
-/

namespace ScriptLang.Number

/-- The decimal `digits · 10 ^ exponent`. -/
structure Decimal where
  digits : Nat
  exponent : Int
  deriving DecidableEq, Repr

/-- How many decimal digits a whole number has. -/
def decimalLength (n : Nat) : Nat := (Nat.toDigits 10 n).length

/-- The interval of a positive number, its ends and the number itself as multiples of
`unit · 2 ^ exponent`. -/
structure Interval where
  lower : Nat
  value : Nat
  upper : Nat
  exponent : Int
  closed : Bool
  deriving DecidableEq, Repr

/-- The interval of decimals that read as `significand · 2 ^ exponent`. The gap below a power of two
is half the gap above it. -/
def interval (significand : Nat) (exponent : Int) : Interval where
  lower :=
    if significand = twoPow 52 ∧ leastExponent < exponent then 4 * significand - 1
    else 4 * significand - 2
  value := 4 * significand
  upper := 4 * significand + 2
  exponent := exponent - 2
  closed := significand % 2 == 0

/-- The part of a power that stands above a fraction line. -/
def powerAbove (base : Nat) (exponent : Int) : Nat := Nat.pow base exponent.toNat

/-- The part of a power that stands below a fraction line. -/
def powerBelow (base : Nat) (exponent : Int) : Nat := Nat.pow base (-exponent).toNat

/-- The exponent `e` with `10 ^ (e - 1) ≤ n / d < 10 ^ e`. -/
def decimalMagnitude (n d : Nat) : Int :=
  if d ≤ n then decimalLength (n / d) else 1 - (decimalLength ((d - 1) / n) : Int)

/-- Whether `digits · grid` lies in the interval, whose ends are multiples of `scale`. -/
def Interval.holds (i : Interval) (scale grid digits : Nat) : Bool :=
  if i.closed then i.lower * scale ≤ digits * grid && digits * grid ≤ i.upper * scale
  else i.lower * scale < digits * grid && digits * grid < i.upper * scale

/-- The decimal on the grid of `10 ^ exponent` that lies in the interval nearest to its number. -/
def Interval.onGrid? (i : Interval) (exponent : Int) : Option Decimal :=
  let scale := powerAbove 2 i.exponent * powerBelow 10 exponent
  let grid := powerAbove 10 exponent * powerBelow 2 i.exponent
  let value := i.value * scale
  let below := value / grid
  let above := below + 1
  match i.holds scale grid below, i.holds scale grid above with
  | true, true =>
    let toBelow := value - below * grid
    let toAbove := above * grid - value
    let isBelow := toBelow < toAbove || (toBelow == toAbove && below % 2 == 0)
    some ⟨if isBelow then below else above, exponent⟩
  | true, false => some ⟨below, exponent⟩
  | false, true => some ⟨above, exponent⟩
  | false, false => none

/-- Tries grids of one digit more each time. -/
def Interval.search (i : Interval) (magnitude : Int) : Nat → Nat → Decimal
  | 0, count => ⟨i.value * powerAbove 2 i.exponent, magnitude - count⟩
  | fuel + 1, count =>
    match i.onGrid? (magnitude - count) with
    | some decimal => decimal
    | none => i.search magnitude fuel (count + 1)

/-- The shortest decimal that reads as `significand · 2 ^ exponent`. Seventeen digits always do. -/
def shortest (significand : Nat) (exponent : Int) : Decimal :=
  let i := interval significand exponent
  let magnitude :=
    decimalMagnitude (i.value * powerAbove 2 i.exponent) (powerBelow 2 i.exponent)
  i.search magnitude 18 1

end ScriptLang.Number
