/-!
# Decimal digits

The characters that stand for the digits of decimal numbers, in every script that has some. The ten
digits of a script follow one another from zero to nine, so the table lists the zeros only, in
order, by the assignments of Unicode 14. The digits of ASCII come first and have the values that
they have everywhere.
-/

namespace ScriptLang.Text

/-- The code points of the digits that stand for zero. -/
def digitZeros : List Nat := [
  0x30, 0x660, 0x6F0, 0x7C0, 0x966, 0x9E6, 0xA66, 0xAE6, 0xB66, 0xBE6, 0xC66, 0xCE6, 0xD66,
  0xDE6, 0xE50, 0xED0, 0xF20, 0x1040, 0x1090, 0x17E0, 0x1810, 0x1946, 0x19D0, 0x1A80, 0x1A90,
  0x1B50, 0x1BB0, 0x1C40, 0x1C50, 0xA620, 0xA8D0, 0xA900, 0xA9D0, 0xA9F0, 0xAA50, 0xABF0,
  0xFF10, 0x104A0, 0x10D30, 0x11066, 0x110F0, 0x11136, 0x111D0, 0x112F0, 0x11450, 0x114D0,
  0x11650, 0x116C0, 0x11730, 0x118E0, 0x11950, 0x11C50, 0x11D50, 0x11DA0, 0x16A60, 0x16AC0,
  0x16B50, 0x1D7CE, 0x1D7D8, 0x1D7E2, 0x1D7EC, 0x1D7F6, 0x1E140, 0x1E2F0, 0x1E950, 0x1FBF0]

/-- The value of a decimal digit. -/
def digit? (c : Char) : Option Nat :=
  (digitZeros.find? fun first => first ≤ c.toNat && c.toNat ≤ first + 9).map (c.toNat - ·)

/-- A digit is less than ten. -/
theorem digit?_lt {c : Char} {value : Nat} (h : digit? c = some value) : value < 10 := by
  obtain ⟨first, found, e⟩ := Option.map_eq_some_iff.1 h
  have range := List.find?_some found
  simp only [Bool.and_eq_true, decide_eq_true_eq] at range
  omega

/-- Every character that the core library calls a digit is one, with the value it has there. -/
theorem digit?_of_isDigit {c : Char} (h : c.isDigit = true) :
    digit? c = some (c.toNat - '0'.toNat) := by
  simp only [Char.isDigit, Bool.and_eq_true, decide_eq_true_eq, ge_iff_le, UInt32.le_iff_toNat_le]
    at h
  have low : 0x30 ≤ c.toNat := h.1
  have high : c.toNat ≤ 0x30 + 9 := h.2
  simp [digit?, digitZeros, low, high]

end ScriptLang.Text
