import ScriptLang.Number.Binary

/-!
# Remainders

The remainder of a division that is rounded toward zero: it has the sign of the dividend and is
smaller than the divisor. It is computed exactly, on whole multiples of a common power of two.
-/

namespace ScriptLang.Number

/-- The remainder of `x` by `y`, which is not zero. An infinite dividend has none. -/
def remainder? (x y : Float) : Option Float :=
  match shape x, shape y with
  | .nan, _ => some x
  | _, .nan => some y
  | .infinite _, _ => none
  | .finite .., .infinite _ => some x
  | .finite negative m p, .finite _ n q =>
    let least := min p q
    let m := m * twoPow (p - least).toNat
    let n := n * twoPow (q - least).toNat
    some (ofBinary negative (m % n) least)

end ScriptLang.Number
