/-!
# Numbers as binary fractions

Every finite number is a whole significand times a power of two. `Shape` shows a number that way,
and `ofBinary` builds the number back. Whole numbers, remainders and decimal texts are computed on
the shape, in exact arithmetic.
-/

namespace ScriptLang.Number

/-- What a number is: not a number, an infinity, or `significand · 2 ^ exponent` with a sign. -/
inductive Shape where
  | nan
  | infinite (negative : Bool)
  | finite (negative : Bool) (significand : Nat) (exponent : Int)
  deriving DecidableEq, Repr

/-- A power of two. -/
def twoPow (n : Nat) : Nat := Nat.pow 2 n

/-- The least exponent of a number. -/
def leastExponent : Int := -1074

/-- The shape of a number. -/
def shape (x : Float) : Shape :=
  let bits := x.toBits.toNat
  let negative := bits / twoPow 63 == 1
  let biased : Nat := bits / twoPow 52 % twoPow 11
  let fraction : Nat := bits % twoPow 52
  if biased = twoPow 11 - 1 then
    if fraction = 0 then .infinite negative else .nan
  else if biased = 0 then .finite negative fraction leastExponent
  else .finite negative (twoPow 52 + fraction) ((biased : Int) - 1075)

/-- The number `significand · 2 ^ exponent`, for one that is a number. -/
def ofBinary (negative : Bool) (significand : Nat) (exponent : Int) : Float :=
  let sign := if negative then twoPow 63 else 0
  if significand = 0 then Float.ofBits (UInt64.ofNat sign)
  else
    let top := max leastExponent (exponent + Nat.log2 significand - 52)
    let scaled :=
      if top ≤ exponent then significand * twoPow (exponent - top).toNat
      else significand / twoPow (top - exponent).toNat
    let bits := if scaled < twoPow 52 then scaled else (top + 1074).toNat * twoPow 52 + scaled
    Float.ofBits (UInt64.ofNat (sign + bits))

/-- Gives a whole number its sign. -/
def signed (negative : Bool) (n : Nat) : Int := if negative then -n else n

/-- The whole number that a number is, if it is one. -/
def whole? (x : Float) : Option Int :=
  match shape x with
  | .finite negative significand exponent =>
    if 0 ≤ exponent then some (signed negative (significand * twoPow exponent.toNat))
    else if significand % twoPow exponent.natAbs = 0 then
      some (signed negative (significand / twoPow exponent.natAbs))
    else none
  | _ => none

end ScriptLang.Number
