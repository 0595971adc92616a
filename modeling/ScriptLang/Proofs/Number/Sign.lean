import Mathlib
import ScriptLang.Number.Printer

/-!
# The sign of a number

A number is a sign, an exponent and a significand, packed into bits, and to take its absolute value
or its negative is to replace the sign. So a number is its absolute value or the negative of that.
The text of a number tells which of the two (`head?_text`), but for the negative zero, which is
written without a sign.
-/

namespace ScriptLang.Number

open Float.Model (UnpackedFloat Format)
open Float.Model.UnpackedFloat

/-- A number with another sign. -/
def resigned (sign : Sign) : UnpackedFloat → UnpackedFloat
  | .infinity _ => .infinity sign
  | .notANumber => .notANumber
  | .zero _ => .zero sign
  | .finite _ m e pos => .finite sign m e pos

/-- The absolute value has the positive sign. -/
lemma abs_eq_resigned (u : UnpackedFloat) : u.abs = resigned .positive u := by
  cases u <;> rfl

/-- The negated absolute value has the negative sign. -/
lemma neg_abs_eq_resigned (u : UnpackedFloat) : u.abs.neg = resigned .negative u := by
  cases u <;> rfl

section
variable {spec : Format} {sign : Sign} {e : BitVec spec.exponentBits}
  {m : BitVec spec.mantissaBitsWithoutImplicit}

/-- Numbers of the same exponent and significand only differ in their sign. -/
lemma unpack_packComponents (sign sign' : Sign) (e : BitVec spec.exponentBits)
    (m : BitVec spec.mantissaBitsWithoutImplicit) :
    UnpackedFloat.unpack spec (packComponents spec sign e m) =
      resigned sign (UnpackedFloat.unpack spec (packComponents spec sign' e m)) := by
  unfold UnpackedFloat.unpack
  simp only [unpackExponent_packComponents, unpackMantissa_packComponents,
    unpackSign_packComponents, Sign.ofBitVec_toBitVec]
  split_ifs <;> rfl

/-- An unpacked number keeps the sign that its bits have. -/
lemma resigned_unpack (b : BitVec spec.numBits) :
    resigned (Sign.ofBitVec (unpackSign b)) (UnpackedFloat.unpack spec b) =
      UnpackedFloat.unpack spec b := by
  unfold UnpackedFloat.unpack
  dsimp only
  split_ifs <;> rfl

/-- The only value that is no number has no sign. -/
lemma valid_positive (h : spec.Valid (packComponents spec sign e m)) :
    spec.Valid (packComponents spec .positive e m) where
  eq_packedNaN exponent mantissa := by
    have same := h.eq_packedNaN
    simp only [unpackExponent_packComponents, unpackMantissa_packComponents]
      at same exponent mantissa
    have significand := congrArg unpackMantissa (same exponent mantissa)
    rw [unpackMantissa_packComponents] at significand
    unfold packedNaN at significand ⊢
    rw [unpackMantissa_packComponents] at significand
    rw [exponent, significand]

/-- Absolute values are packed without loss. -/
lemma unpack_pack_abs {b : BitVec spec.numBits} (valid : spec.Valid b)
    (bits : 2 ≤ spec.exponentBits) :
    UnpackedFloat.unpack spec ((UnpackedFloat.unpack spec b).abs.pack spec) =
      (UnpackedFloat.unpack spec b).abs := by
  have parts := packComponents_unpackSign_unpackExponent_unpackMantissa b
  rw [← parts] at valid ⊢
  rw [abs_eq_resigned, ← unpack_packComponents, pack_unpack_of_valid (valid_positive valid) bits]

end

/-- Whether a number has a minus sign. -/
def Shape.isNegative : Shape → Bool
  | .nan => false
  | .infinite negative | .finite negative _ _ => negative

/-- Numbers with the same parts are the same. -/
lemma eq_of_unpacked {x y : Float} (h : x.toModel.unpack = y.toModel.unpack) : x = y :=
  Float.toBits_inj.1 (UInt64.toBitVec_inj.1
    ((unpack_inj_of_valid x.toModel.valid y.toModel.valid).1 h))

/-- The sign is the first bit. -/
lemma ofBitVec_unpackSign (b : BitVec Format.binary64.numBits) :
    Sign.ofBitVec (unpackSign b) = if b.toNat / 2 ^ 63 == 1 then .negative else .positive := by
  have bit : (unpackSign b).toNat = b.toNat / 2 ^ 63 := by
    have lt : b.toNat < 2 ^ 64 := b.isLt
    rw [unpackSign_def, BitVec.extractLsb'_toNat, Nat.shiftRight_eq_div_pow]
    show b.toNat / 2 ^ 63 % 2 = _
    omega
  have cases : unpackSign b = 0#1 ∨ unpackSign b = 1#1 := by
    generalize unpackSign b = v
    revert v
    decide
  rw [← bit]
  rcases cases with zero | one
  · rw [zero]
    rfl
  · rw [one]
    rfl

/-- A number is negative if and only if its first bit is set. -/
lemma isNegative_shape {x : Float} (h : shape x ≠ .nan) :
    (shape x).isNegative = (x.toBits.toNat / 2 ^ 63 == 1) := by
  revert h
  unfold shape
  dsimp only
  split_ifs
  · exact fun _ => rfl
  · exact fun h => absurd rfl h
  · exact fun _ => rfl
  · exact fun _ => rfl

/-- The parts of a number have the sign that its shape shows. -/
lemma resigned_unpacked {x : Float} (h : shape x ≠ .nan) :
    resigned (if (shape x).isNegative then .negative else .positive) x.toModel.unpack =
      x.toModel.unpack := by
  rw [isNegative_shape h]
  exact ofBitVec_unpackSign x.toBits.toBitVec ▸ resigned_unpack _

/-- A number without a minus sign is its absolute value. -/
lemma abs_of_not_isNegative {x : Float} (h : shape x ≠ .nan) (sign : (shape x).isNegative = false) :
    x.abs = x := by
  have parts := resigned_unpacked h
  rw [sign, if_neg Bool.false_ne_true, ← abs_eq_resigned] at parts
  exact eq_of_unpacked ((unpack_pack_abs x.toModel.valid (by decide)).trans parts)

/-- A number with a minus sign is the negative of its absolute value. -/
lemma neg_abs_of_isNegative {x : Float} (h : shape x ≠ .nan) (sign : (shape x).isNegative = true) :
    -x.abs = x := by
  have parts := resigned_unpacked h
  rw [sign, if_pos rfl, ← neg_abs_eq_resigned] at parts
  have abs : x.abs.toModel.unpack = x.toModel.unpack.abs :=
    unpack_pack_abs x.toModel.valid (by decide)
  have bits : (-x.abs).toBits.toBitVec = x.abs.toModel.unpack.neg.pack .binary64 := rfl
  rw [abs, parts] at bits
  exact Float.toBits_inj.1 (UInt64.toBitVec_inj.1
    (bits.trans (pack_unpack_of_valid x.toModel.valid)))

/-- Only the negative zero has no significand and a minus sign. -/
lemma eq_negative_zero {x : Float} {exponent : Int} (h : shape x = .finite true 0 exponent) :
    x = -0.0 := by
  have lt := x.toBits.toNat_lt
  have zero : (-0.0 : Float).toBits.toNat = 2 ^ 63 := by decide +kernel
  have bits : x.toBits.toNat / 2 ^ 63 = 1 ∧ x.toBits.toNat / 2 ^ 52 % 2 ^ 11 = 0 ∧
      x.toBits.toNat % 2 ^ 52 = 0 := by
    unfold shape at h
    dsimp only at h
    split_ifs at h with top _ bottom
    · obtain ⟨negative, fraction, _⟩ := Shape.finite.inj h
      exact ⟨eq_of_beq negative, bottom, fraction⟩
    · obtain ⟨_, fraction, _⟩ := Shape.finite.inj h
      have implicit : 0 < twoPow 52 := by decide
      omega
  refine Float.toBits_inj.1 (UInt64.toNat_inj.1 ?_)
  rw [zero]
  omega

/-- There is at least one significant digit. -/
lemma significantDigits_eq_cons (d : Decimal) :
    ∃ c rest, significantDigits d = c :: rest ∧ c.isDigit = true := by
  have digits : ∀ c ∈ significantDigits d, c.isDigit = true := by
    intro c mem
    unfold significantDigits at mem
    dsimp only at mem
    split at mem
    case isTrue =>
      rw [List.mem_singleton.1 mem]
      rfl
    case isFalse =>
      have kept := (List.dropWhile_suffix _).subset (List.mem_reverse.1 mem)
      exact Nat.isDigit_of_mem_toDigits (by decide) (by decide) (List.mem_reverse.1 kept)
  have ne : significantDigits d ≠ [] := by
    unfold significantDigits
    dsimp only
    split
    case isTrue => exact List.cons_ne_nil _ _
    case isFalse h => simpa using h
  obtain ⟨c, rest, e⟩ := List.exists_cons_of_ne_nil ne
  exact ⟨c, rest, e, digits c (by rw [e]; exact List.mem_cons_self ..)⟩

/-- The text of a decimal does not start with a sign. -/
lemma head?_decimalText (d : Decimal) : (decimalText d).head? ≠ some '-' := by
  obtain ⟨c, rest, e, digit⟩ := significantDigits_eq_cons d
  have ne : c ≠ '-' := by
    rintro rfl
    cases digit
  unfold decimalText
  dsimp only
  rw [e]
  split
  · unfold positional
    split
    · exact fun h => nomatch h
    · exact fun h => ne (Option.some.inj h)
  · exact fun h => ne (Option.some.inj h)

/-- A text starts with a minus sign if and only if the sign is negative. -/
lemma head?_withSign {digits : List Char} (h : digits.head? ≠ some '-') (negative : Bool) :
    (withSign negative digits).head? = some '-' ↔ negative = true := by
  cases negative with
  | false => simpa [withSign] using h
  | true => simp [withSign]

/-- The text of a natural number does not start with a sign. -/
lemma head?_toString_natCast (n : Nat) : (toString (n : Int)).toList.head? ≠ some '-' := by
  intro h
  have digits : (toString (n : Int)).toList = Nat.toDigits 10 n := Nat.toList_repr
  rw [digits] at h
  cases Nat.isDigit_of_mem_toDigits (by decide) (by decide) (List.mem_of_mem_head? h)

/-- The text of a signed number starts with a minus sign if and only if it is negative. -/
lemma head?_toString_signed {n : Nat} (ne : n ≠ 0) (negative : Bool) :
    (toString (signed negative n)).toList.head? = some '-' ↔ negative = true := by
  cases negative with
  | false =>
    rw [iff_false_intro Bool.false_ne_true, iff_false]
    exact head?_toString_natCast n
  | true =>
    obtain ⟨k, rfl⟩ := Nat.exists_eq_succ_of_ne_zero ne
    have text : toString (signed true (k + 1)) = "-" ++ (k + 1).repr := rfl
    rw [text]
    simp

/-- What is no number is written so. -/
lemma text_of_nan {x : Float} (h : shape x = .nan) : text x = "nan" := by
  unfold text whole? roundTrip
  rw [h]

/-- The whole number that a number is has its sign, and is zero for the zeros only. -/
lemma whole?_eq_some {x : Float} {n : Int} (h : whole? x = some n) :
    ∃ negative significand exponent k, shape x = .finite negative significand exponent ∧
      n = signed negative k ∧ (k = 0 → significand = 0) := by
  unfold whole? at h
  split at h
  case h_1 negative significand exponent found =>
    refine ⟨negative, significand, exponent, ?_⟩
    have power (m : Nat) : 0 < twoPow m := Nat.pow_pos (by decide)
    split_ifs at h with _ exact
    · exact ⟨_, found, (Option.some.inj h).symm, fun zero =>
        (Nat.mul_eq_zero.1 zero).resolve_right (Nat.ne_of_gt (power _))⟩
    · refine ⟨_, found, (Option.some.inj h).symm, fun zero => ?_⟩
      have lt := (Nat.div_eq_zero_iff_lt (power _)).1 zero
      rwa [Nat.mod_eq_of_lt lt] at exact
  case h_2 => cases h

/-- A number but the negative zero is written with a minus sign if it has one. -/
lemma head?_text {x : Float} (h : x ≠ -0.0) :
    (text x).toList.head? = some '-' ↔ (shape x).isNegative = true := by
  unfold text
  cases whole : whole? x with
  | some n =>
    obtain ⟨negative, significand, exponent, k, found, rfl, zero⟩ := whole?_eq_some whole
    dsimp only
    rw [found]
    cases negative with
    | false => exact iff_of_false (head?_toString_natCast k) Bool.false_ne_true
    | true =>
      refine head?_toString_signed (fun none => h ?_) true
      rw [zero none] at found
      exact eq_negative_zero found
  | none =>
    dsimp only
    unfold roundTrip
    cases found : shape x with
    | nan => exact iff_of_false (by decide) Bool.false_ne_true
    | infinite negative =>
      dsimp only
      rw [String.toList_ofList]
      exact head?_withSign (by decide) negative
    | finite negative significand exponent =>
      dsimp only
      rw [String.toList_ofList]
      refine head?_withSign ?_ negative
      split
      · decide
      · exact head?_decimalText _

end ScriptLang.Number
