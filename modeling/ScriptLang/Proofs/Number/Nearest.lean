import Mathlib
import ScriptLang.Number.Reader
import ScriptLang.Proofs.Number.Sign

/-!
# Whole numbers as numbers

A whole number of the host may have more digits than a significand has room for. It is then rounded:
digits are cut off, and the two bits kept beside a significand tell on which side of the middle it
was cut (`Represents`). So a whole number becomes the nearest number (`nearest_of_ofInt?`), unless
it is half a unit or more above the greatest (`ofInt?_eq_none_iff`).
-/

namespace ScriptLang.Number
open Float.Model (UnpackedFloat Format)
open Float.Model.UnpackedFloat

/-- A whole number that is nearest to a fraction, the even one of two that are. -/
def NearestWhole (k : Nat) (x : ℚ) : Prop :=
  |(k : ℚ) - x| ≤ 1 / 2 ∧ (|(k : ℚ) - x| = 1 / 2 → k % 2 = 0)

namespace NearestWhole
variable {k j : Nat} {x : ℚ}

/-- A whole number up to the given number is no greater than the nearest one. -/
lemma ge (h : NearestWhole k x) (le : j ≤ x) : j ≤ k := by
  have lt : (j : ℚ) < k + 1 := by linarith [(abs_le.1 h.1).1]
  exact Nat.lt_succ_iff.1 (by exact_mod_cast lt)

/-- A whole number from the given number on is no less than the nearest one. -/
lemma le (h : NearestWhole k x) (le : x ≤ j) : k ≤ j := by
  have lt : (k : ℚ) < j + 1 := by linarith [(abs_le.1 h.1).2]
  exact Nat.lt_succ_iff.1 (by exact_mod_cast lt)

/-- No other whole number is nearer. -/
lemma nearer (h : NearestWhole k x) {j : ℤ} (ne : j ≠ k) :
    |(k : ℚ) - x| < |(j : ℚ) - x| ∨ |(k : ℚ) - x| = |(j : ℚ) - x| ∧ k % 2 = 0 := by
  have apart : (1 : ℚ) ≤ |(j : ℚ) - k| := by
    have one : 1 ≤ |j - k| := Int.one_le_abs (sub_ne_zero.2 ne)
    exact_mod_cast one
  have triangle : |(j : ℚ) - k| ≤ |(j : ℚ) - x| + |(k : ℚ) - x| := by
    rw [abs_sub_comm (k : ℚ) x]
    exact abs_sub_le _ _ _
  obtain ⟨near, even⟩ := h
  rcases near.lt_or_eq with lt | tie
  · exact .inl (by linarith)
  · rcases (show |(k : ℚ) - x| ≤ |(j : ℚ) - x| by linarith).lt_or_eq with lt | eq
    · exact .inl lt
    · exact .inr ⟨eq, even tie⟩

/-- No whole number is nearer. -/
lemma abs_sub_le (h : NearestWhole k x) (j : ℤ) : |(k : ℚ) - x| ≤ |(j : ℚ) - x| := by
  by_cases same : j = k
  · rw [same, Int.cast_natCast]
  · exact (h.nearer same).elim le_of_lt fun tie => tie.1.le

end NearestWhole

/-- A fraction that a significand with two bits beside it stands for: the first bit is the next
digit, the second tells whether there are more. -/
def Represents (digits : ExtendedMantissa) (x : ℚ) : Prop :=
  match digits with
  | ⟨m, false, false⟩ => x = m
  | ⟨m, false, true⟩ => (m : ℚ) < x ∧ x < m + 1 / 2
  | ⟨m, true, false⟩ => x = m + 1 / 2
  | ⟨m, true, true⟩ => (m : ℚ) + 1 / 2 < x ∧ x < m + 1

namespace Represents
variable {digits : ExtendedMantissa} {x : ℚ}

/-- A shift by one place halves the number. -/
lemma shiftRightOne (h : Represents digits x) : Represents digits.shiftRightOne (x / 2) := by
  obtain ⟨m, round, sticky⟩ := digits
  have parts : (m : ℚ) = 2 * (m / 2 : Nat) + (m % 2 : Nat) := by
    exact_mod_cast (Nat.div_add_mod m 2).symm
  unfold ExtendedMantissa.shiftRightOne
  dsimp only
  rcases Nat.mod_two_eq_zero_or_one m with last | last
  · rw [last] at parts ⊢
    cases round <;> cases sticky <;> simp only [Represents] at h ⊢ <;> grind
  · rw [last] at parts ⊢
    cases round <;> cases sticky <;> simp only [Represents] at h ⊢ <;> grind

/-- A shift by some places divides by the power of two. -/
lemma shiftRight (h : Represents digits x) (n : Nat) : Represents (digits >>> n) (x / 2 ^ n) := by
  induction n with
  | zero =>
    rw [pow_zero, div_one]
    exact h
  | succ n ih =>
    rw [pow_succ, ← div_div]
    exact ih.shiftRightOne

/-- The rounded digits are a nearest whole number. -/
lemma nearestWhole (h : Represents digits x) : NearestWhole digits.roundedMantissa x := by
  obtain ⟨m, round, sticky⟩ := digits
  unfold NearestWhole
  rw [abs_le]
  cases round <;> cases sticky
  · obtain rfl : x = m := h
    change (_ ≤ (m : ℚ) - m ∧ (m : ℚ) - m ≤ _) ∧ (|(m : ℚ) - m| = _ → _)
    norm_num
  · obtain ⟨lt, lt'⟩ : (m : ℚ) < x ∧ x < m + 1 / 2 := h
    change (_ ≤ (m : ℚ) - x ∧ (m : ℚ) - x ≤ _) ∧ (|(m : ℚ) - x| = _ → _)
    rw [abs_of_neg (by linarith)]
    exact ⟨⟨by linarith, by linarith⟩, fun tie => by linarith⟩
  · obtain rfl : x = m + 1 / 2 := h
    change (_ ≤ ((m + m % 2 : Nat) : ℚ) - _ ∧ ((m + m % 2 : Nat) : ℚ) - _ ≤ _) ∧
      (_ → (m + m % 2) % 2 = 0)
    refine ⟨?_, fun _ => by omega⟩
    rcases Nat.mod_two_eq_zero_or_one m with last | last <;> rw [last] <;> push_cast <;>
      constructor <;> linarith
  · obtain ⟨lt, lt'⟩ : (m : ℚ) + 1 / 2 < x ∧ x < m + 1 := h
    change (_ ≤ ((m + 1 : Nat) : ℚ) - x ∧ ((m + 1 : Nat) : ℚ) - x ≤ _) ∧
      (|((m + 1 : Nat) : ℚ) - x| = _ → _)
    push_cast
    rw [abs_of_pos (by linarith)]
    exact ⟨⟨by linarith, by linarith⟩, fun tie => by linarith⟩

end Represents

/-- A significand and an exponent that a fraction is rounded to in units of `2 ^ t`. If that is a
power of two, the units of the significand are twice as large. -/
structure Rounds (v : ℚ) (t : ℤ) (m : Nat) (e : ℤ) : Prop where
  ge : 2 ^ 52 ≤ m
  lt : m < 2 ^ 53
  whole : ∃ k : Nat, NearestWhole k (v / 2 ^ t) ∧
    (k = m ∧ e = t ∨ k = 2 ^ 53 ∧ m = 2 ^ 52 ∧ e = t + 1)

/-- Where places are in excess they are shifted out. -/
lemma shiftToTargetExponent_eq {m : Nat} {e : ℤ} {accuracy : Accuracy} {n : Nat}
    (h : Format.binary64.targetExponent (Float.Model.totalExponent m e) = e + n) :
    shiftToTargetExponent .binary64 m e accuracy =
      (ExtendedMantissa.ofMantissaAndAccuracy m accuracy >>> n, e + n) := by
  unfold shiftToTargetExponent shiftToExponent
  dsimp only
  rw [h, add_sub_cancel_left, Int.toNat_natCast]

/-- The target exponent leaves 53 places, unless it is the least one. -/
lemma targetExponent_eq (m : Nat) (e : ℤ) :
    Format.binary64.targetExponent (Float.Model.totalExponent m e) =
      max (m.log2 + e - 52) (-1074) := by
  unfold Format.targetExponent Float.Model.totalExponent
  have digits : (Format.binary64.mantissaBits : ℤ) = 53 := rfl
  have least : Format.binary64.minExponent = -1074 := rfl
  rw [digits, least]
  congr 1
  omega

/-- Rounded digits may be one too many, and then the last is none. -/
lemma roundWithAccuracy_eq {sign : Sign} {m k n : Nat} {e : ℤ}
    (target : Format.binary64.targetExponent (Float.Model.totalExponent m e) = e + n)
    (rounded : (ExtendedMantissa.ofMantissaAndAccuracy m .exact >>> n).roundedMantissa = k)
    (least : -1074 ≤ e + n) (ge : 2 ^ 52 ≤ k) (le : k ≤ 2 ^ 53) :
    ∃ m' e' pos, roundWithAccuracy .binary64 sign m e .exact = .finite sign m' e' pos ∧
      2 ^ 52 ≤ m' ∧ m' < 2 ^ 53 ∧
      (k = m' ∧ e' = e + n ∨ k = 2 ^ 53 ∧ m' = 2 ^ 52 ∧ e' = e + n + 1) := by
  unfold roundWithAccuracy
  rw [shiftToTargetExponent_eq target]
  dsimp only
  rw [rounded]
  rcases Nat.lt_or_eq_of_le le with lt | rfl
  · have log : k.log2 = 52 := (Nat.log2_eq_iff (by omega)).2 ⟨ge, lt⟩
    have again : Format.binary64.targetExponent (Float.Model.totalExponent k (e + n)) =
        e + n + (0 : Nat) := by
      rw [targetExponent_eq, log]
      omega
    rw [shiftToTargetExponent_eq again]
    have ne : k ≠ 0 := by omega
    exact ⟨k, _, Nat.pos_of_ne_zero ne, dif_neg ne, ge, lt, .inl ⟨rfl, add_zero _⟩⟩
  · have again : Format.binary64.targetExponent (Float.Model.totalExponent (2 ^ 53) (e + n)) =
        e + n + (1 : Nat) := by
      rw [targetExponent_eq, Nat.log2_two_pow]
      omega
    rw [shiftToTargetExponent_eq again]
    exact ⟨2 ^ 52, _, by norm_num, rfl, le_rfl, by norm_num, .inr ⟨rfl, rfl, rfl⟩⟩

/-- Enough digits are rounded to those that a significand has. -/
lemma roundWithAccuracy_rounds {sign : Sign} {m : Nat} {e : ℤ} (digits : 52 ≤ m.log2)
    (least : -1022 ≤ m.log2 + e) :
    ∃ m' e' pos, roundWithAccuracy .binary64 sign m e .exact = .finite sign m' e' pos ∧
      Rounds (m * 2 ^ e) (m.log2 + e - 52) m' e' := by
  obtain ⟨n, hn⟩ : ∃ n, m.log2 = 52 + n := ⟨m.log2 - 52, by omega⟩
  have pos : m ≠ 0 := by
    rintro rfl
    rw [Nat.log2_zero] at hn
    omega
  have target : Format.binary64.targetExponent (Float.Model.totalExponent m e) = e + n := by
    rw [targetExponent_eq]
    omega
  have unit : (0 : ℚ) < 2 ^ n := by positivity
  -- Without its last `n` digits the number has as many as a significand.
  have low : ((2 ^ 52 : Nat) : ℚ) ≤ m / 2 ^ n := by
    have le : 2 ^ (52 + n) ≤ m := hn ▸ Nat.log2_self_le pos
    rw [le_div_iff₀ unit]
    rw [pow_add] at le
    exact_mod_cast le
  have high : (m / 2 ^ n : ℚ) ≤ (2 ^ 53 : Nat) := by
    have lt : m < 2 ^ (52 + n + 1) := hn ▸ Nat.lt_log2_self
    rw [div_le_iff₀ unit]
    rw [Nat.add_right_comm, pow_add] at lt
    exact_mod_cast lt.le
  have near := (Represents.shiftRight
    (show Represents (.ofMantissaAndAccuracy m .exact) m from rfl) n).nearestWhole
  obtain ⟨m', e', pos, rounded, ge, lt, whole⟩ :=
    roundWithAccuracy_eq target rfl (by omega) (near.ge low) (near.le high)
  have exponent : (m.log2 : ℤ) + e - 52 = e + n := by omega
  have fraction : (m * 2 ^ e : ℚ) / 2 ^ (e + n) = m / 2 ^ n := by
    rw [zpow_add₀ two_ne_zero, zpow_natCast, mul_comm (m : ℚ),
      mul_div_mul_left _ _ (zpow_ne_zero e two_ne_zero)]
  rw [← fraction] at near
  rw [exponent]
  exact ⟨m', e', pos, rounded, ge, lt, _, near, whole⟩

/-- A number in range is packed without loss. -/
lemma unpack_pack_finite {sign : Sign} {m : Nat} {e : ℤ} {pos : 0 < m} (ge : 2 ^ 52 ≤ m)
    (lt : m < 2 ^ 53) (least : -1074 ≤ e) (most : e ≤ 971) :
    UnpackedFloat.unpack .binary64 ((UnpackedFloat.finite sign m e pos).pack .binary64) =
      .finite sign m e pos := by
  have log : m.log2 = 52 := (Nat.log2_eq_iff (by omega)).2 ⟨ge, lt⟩
  obtain ⟨b, hb⟩ : ∃ b : Nat, e + 1075 = b := ⟨(e + 1075).toNat, by omega⟩
  have packed : (UnpackedFloat.finite sign m e pos).pack .binary64 =
      packComponents .binary64 sign (BitVec.ofNat _ b) (BitVec.ofNat _ m) := by
    have biased : (e + Format.binary64.exponentBias + (52 : Nat)).toNat = b := by
      change (e + (1023 : Nat) + (52 : Nat)).toNat = b
      omega
    unfold UnpackedFloat.pack
    dsimp only
    rw [biased, if_neg (by norm_num; omega), if_pos (by rw [log]; rfl)]
  rw [packed]
  unfold UnpackedFloat.unpack
  simp only [unpackExponent_packComponents, unpackMantissa_packComponents,
    unpackSign_packComponents, Sign.ofBitVec_toBitVec]
  have count : (BitVec.ofNat 11 b).toNat = b := by
    rw [BitVec.toNat_ofNat]
    omega
  -- The stored exponent is neither of the two that are kept for special numbers.
  have finite : BitVec.ofNat 11 b ≠ -1#11 := fun h => by
    have := congrArg BitVec.toNat h
    rw [count] at this
    change b = 2047 at this
    omega
  have normal : BitVec.ofNat 11 b ≠ 0#11 := fun h => by
    have := congrArg BitVec.toNat h
    rw [count] at this
    change b = 0 at this
    omega
  have significand : (1#1 ++ BitVec.ofNat 52 m).toNat = m := by
    rw [BitVec.toNat_append, BitVec.toNat_ofNat, BitVec.toNat_ofNat,
      ← Nat.shiftLeft_add_eq_or_of_lt (by omega), Nat.shiftLeft_eq]
    omega
  rw [if_neg finite, if_neg normal]
  congr 1
  rw [count]
  change (b : ℤ) - ((1023 : Nat) + (52 : Nat)) = e
  omega

/-- A number out of range is packed as an infinity. -/
lemma unpack_pack_infinite (sign : Sign) {m : Nat} {e : ℤ} (pos : 0 < m) (large : 972 ≤ e) :
    UnpackedFloat.unpack .binary64 ((UnpackedFloat.finite sign m e pos).pack .binary64) =
      .infinity sign := by
  have packed : (UnpackedFloat.finite sign m e pos).pack .binary64 =
      (UnpackedFloat.infinity sign).pack .binary64 := by
    have biased : (e + Format.binary64.exponentBias + (52 : Nat)).toNat = (e + 1075).toNat := by
      change (e + (1023 : Nat) + (52 : Nat)).toNat = _
      omega
    unfold UnpackedFloat.pack
    dsimp only
    rw [biased, if_pos (by norm_num; omega)]
  rw [packed]
  cases sign <;> rfl

/-- A factor that is a power of two adds its exponent. -/
lemma log2_mul_two_pow {n : Nat} (ne : n ≠ 0) (k : Nat) : (n * 2 ^ k).log2 = n.log2 + k := by
  rw [Nat.log2_eq_iff (by positivity), pow_add, Nat.add_right_comm, pow_add]
  exact ⟨Nat.mul_le_mul_right _ (Nat.log2_self_le ne),
    Nat.mul_lt_mul_of_pos_right Nat.lt_log2_self (by positivity)⟩

/-- A whole number is rounded alike however it is scaled. -/
lemma roundWithAccuracy_nat {n : Nat} (ne : n ≠ 0) {k : Nat} (digits : 52 ≤ n.log2 + k) :
    ∃ m e pos, roundWithAccuracy .binary64 .positive (n * 2 ^ k) (-k) .exact =
      .finite .positive m e pos ∧ Rounds n (n.log2 - 52) m e := by
  have log := log2_mul_two_pow ne k
  obtain ⟨m, e, pos, rounded, rounds⟩ := roundWithAccuracy_rounds (m := n * 2 ^ k) (e := -k)
    (by omega) (by omega)
  refine ⟨m, e, pos, rounded, ?_⟩
  have value : ((n * 2 ^ k : Nat) : ℚ) * 2 ^ (-k : ℤ) = n := by
    rw [zpow_neg, zpow_natCast]
    push_cast
    field_simp
  have exponent : ((n * 2 ^ k).log2 : ℤ) + -k - 52 = n.log2 - 52 := by omega
  rwa [value, exponent] at rounds

/-- A small whole number is not rounded. -/
lemma Rounds.eq_of_small {n m : Nat} {e : ℤ} (h : Rounds n (n.log2 - 52) m e)
    (small : n < 2 ^ 53) (ne : n ≠ 0) :
    m = n * 2 ^ (52 - n.log2) ∧ e = n.log2 - 52 := by
  have log : n.log2 ≤ 52 := Nat.lt_succ_iff.1 ((Nat.log2_lt ne).2 small)
  obtain ⟨k, near, cases⟩ := h.whole
  have value : (n : ℚ) / 2 ^ (n.log2 - 52 : ℤ) = (n * 2 ^ (52 - n.log2) : Nat) := by
    obtain ⟨j, hj⟩ : ∃ j, n.log2 + j = 52 := ⟨52 - n.log2, by omega⟩
    rw [show 52 - n.log2 = j by omega, show (n.log2 : ℤ) - 52 = -j by omega, zpow_neg,
      zpow_natCast]
    push_cast
    field_simp
  rw [value] at near
  have same : k = n * 2 ^ (52 - n.log2) := le_antisymm (near.le le_rfl) (near.ge le_rfl)
  have lt : n * 2 ^ (52 - n.log2) < 2 ^ 53 := by
    calc n * 2 ^ (52 - n.log2) < 2 ^ (n.log2 + 1) * 2 ^ (52 - n.log2) :=
          Nat.mul_lt_mul_of_pos_right Nat.lt_log2_self (by positivity)
      _ = 2 ^ 53 := by
          rw [← pow_add]
          congr 1
          omega
  rcases cases with ⟨rfl, rfl⟩ | ⟨rfl, _⟩
  · exact ⟨same, rfl⟩
  · omega

/-- The bits of the number one. -/
lemma unpack_one : (Float.ofBits 0x3FF0000000000000).toModel.unpack =
    .finite .positive (2 ^ 52) (-52) (by norm_num) := rfl

/-- A whole number that has room in a word is scaled before it is rounded. -/
lemma toModel_toFloat {n : Nat} (ne : n ≠ 0) (small : n < 2 ^ 53) :
    n.toUInt64.toFloat.toModel =
      .pack (roundWithAccuracy .binary64 .positive (n * 2 ^ (52 - n.log2)) (-(52 - n.log2 : Nat))
        .exact) := by
  have log : n.log2 ≤ 52 := Nat.lt_succ_iff.1 ((Nat.log2_lt ne).2 small)
  have word : n.toUInt64.toNat = n := by
    rw [Nat.toUInt64, UInt64.toNat_ofNat']
    omega
  change Float.Model.pack (UnpackedFloat.ofNat .binary64 n.toUInt64.toNat) = _
  rw [word]
  unfold UnpackedFloat.ofNat UnpackedFloat.ofInt UnpackedFloat.normalize
  rw [compare_gt_iff_gt.2 (by omega)]
  dsimp only
  unfold UnpackedFloat.round decreaseExponent
  rw [Int.toNat_natCast, targetExponent_eq]
  dsimp only
  have shift : (0 - max ((n.log2 : ℤ) + 0 - 52) (-1074)).toNat = 52 - n.log2 := by omega
  rw [shift, Nat.shiftLeft_eq, zero_sub]

/-- A whole number that is small enough is rounded to a number with its own parts. -/
lemma ofScientific_of_small {n : Nat} (ne : n ≠ 0) (small : n < 2 ^ 53) :
    ∃ m e pos, (Float.ofScientific n false 0).toModel = .pack (.finite .positive m e pos) ∧
      Rounds n (n.log2 - 52) m e := by
  have log : n.log2 ≤ 52 := Nat.lt_succ_iff.1 ((Nat.log2_lt ne).2 small)
  obtain ⟨m, e, pos, rounded, rounds⟩ := roundWithAccuracy_nat ne (k := 52 - n.log2) (by omega)
  obtain ⟨rfl, rfl⟩ := rounds.eq_of_small small ne
  obtain ⟨m, e, pos', rounded', rounds'⟩ :=
    roundWithAccuracy_nat ne (k := 52 - n.log2 + 52) (by omega)
  refine ⟨m, e, pos', ?_, rounds'⟩
  have scaled : n.toUInt64.toFloat.toModel.unpack =
      .finite .positive (n * 2 ^ (52 - n.log2)) (n.log2 - 52) pos := by
    rw [toModel_toFloat ne small, rounded]
    exact unpack_pack_finite rounds.ge rounds.lt (by omega) (by omega)
  have quick : Float.ofScientific n false 0 =
      n.toUInt64.toFloat * Float.ofBits 0x3FF0000000000000 := by
    unfold Float.ofScientific
    rw [dif_pos (by omega)]
    rfl
  rw [quick]
  change Float.Model.pack (UnpackedFloat.mul .binary64 n.toUInt64.toFloat.toModel.unpack
    (Float.ofBits 0x3FF0000000000000).toModel.unpack) = _
  rw [scaled, unpack_one]
  change Float.Model.pack (roundWithAccuracy .binary64 .positive
    (n * 2 ^ (52 - n.log2) * 2 ^ 52) (n.log2 - 52 + -52) .exact) = _
  have exponent : (n.log2 : ℤ) - 52 + -52 = -(52 - n.log2 + 52 : Nat) := by omega
  rw [mul_assoc, ← pow_add, exponent, rounded']

/-- A large whole number is rounded. -/
lemma ofScientific_of_large {n : Nat} (large : ¬ n < 2 ^ 53) :
    ∃ m e pos, (Float.ofScientific n false 0).toModel = .pack (.finite .positive m e pos) ∧
      Rounds n (n.log2 - 52) m e := by
  have ne : n ≠ 0 := by omega
  obtain ⟨m, e, pos, rounded, rounds⟩ := roundWithAccuracy_nat ne (k := 53) (by omega)
  refine ⟨m, e, pos, ?_, rounds⟩
  have slow : (Float.ofScientific n false 0).toModel = Float.Model.ofScientific n 0 := by
    unfold Float.ofScientific
    rw [dif_neg (by omega)]
    rfl
  rw [slow]
  unfold Float.Model.ofScientific UnpackedFloat.ofScientific
  rw [dif_neg ne, if_neg (by norm_num), if_neg (by norm_num), if_pos le_rfl]
  change Float.Model.pack
    (roundWithAccuracy .binary64 .positive (n <<< 53 * 1) (-(53 : Nat) + 0) .exact) = _
  rw [Nat.shiftLeft_eq, mul_one, add_zero, rounded]

/-- A whole number is rounded to the places that there are. -/
lemma ofScientific_rounds {n : Nat} (ne : n ≠ 0) :
    ∃ m e pos, (Float.ofScientific n false 0).toModel = .pack (.finite .positive m e pos) ∧
      Rounds n (n.log2 - 52) m e := by
  by_cases small : n < 2 ^ 53
  · exact ofScientific_of_small ne small
  · exact ofScientific_of_large small

/-- The fraction that a number is, if it is one. -/
def value? (x : Float) : Option ℚ :=
  match x.toModel.unpack with
  | .zero _ => some 0
  | .finite sign m e _ => some (sign.apply m * 2 ^ e)
  | .infinity _ | .notANumber => none

/-- Whether the significand of a number is even. -/
def HasEvenSignificand (x : Float) : Prop :=
  match x.toModel.unpack with
  | .finite _ m _ _ => m % 2 = 0
  | _ => True

/-- No number is nearer to a whole number; if another is as near, this one is even. -/
def Nearest (n : ℤ) (x : Float) : Prop :=
  ∃ v, value? x = some v ∧ ∀ y w, value? y = some w → w ≠ v →
    |v - n| < |w - n| ∨ |v - n| = |w - n| ∧ HasEvenSignificand x

/-- A significand has no more than 53 places. -/
lemma significand_lt {x : Float} {sign : Sign} {m : Nat} {e : ℤ} {pos : 0 < m}
    (h : x.toModel.unpack = .finite sign m e pos) : m < 2 ^ 53 := by
  unfold Float.Model.unpack UnpackedFloat.unpack at h
  dsimp only at h
  split_ifs at h
  · cases h
    exact (BitVec.isLt _).trans (by norm_num)
  · cases h
    exact BitVec.isLt _

/-- Numbers are multiples of powers of two by at most 53 digits. -/
lemma value?_eq {x : Float} {v : ℚ} (h : value? x = some v) :
    ∃ (s e : ℤ), |s| < 2 ^ 53 ∧ v = s * 2 ^ e := by
  unfold value? at h
  split at h
  · obtain rfl := Option.some.inj h
    exact ⟨0, 0, by norm_num, by norm_num⟩
  · rename_i sign m e pos parts
    obtain rfl := Option.some.inj h
    refine ⟨sign.apply m, e, ?_, rfl⟩
    have lt : (m : ℤ) < 2 ^ 53 := by exact_mod_cast significand_lt parts
    cases sign
    · exact (abs_neg (m : ℤ)).trans_lt ((Nat.abs_cast m).trans_lt lt)
    · exact (Nat.abs_cast m).trans_lt lt
  · cases h
  · cases h

/-- The least whole number out of range, half a unit above the greatest number. -/
def rangeEnd : Nat := 2 ^ 1024 - 2 ^ 970

/-- The end of the range lies half a place beyond the largest number. -/
lemma rangeEnd_eq : (rangeEnd : ℚ) = (2 ^ 53 - 1 / 2) * 2 ^ (971 : ℤ) := by
  have whole : rangeEnd = (2 ^ 54 - 1) * 2 ^ 970 := by decide +kernel
  rw [whole, show (971 : ℤ) = (970 : Nat) + 1 from rfl, zpow_add_one₀ two_ne_zero, zpow_natCast,
    Nat.cast_mul, Nat.cast_pow, Nat.cast_ofNat]
  generalize (2 : ℚ) ^ 970 = power
  norm_num
  ring

namespace Rounds
variable {n m : Nat} {t e : ℤ}

/-- What is rounded is a nearest whole number of places, and even if that is. -/
lemma value (h : Rounds n t m e) :
    ∃ k, NearestWhole k (n / 2 ^ t) ∧ (m : ℚ) * 2 ^ e = k * 2 ^ t ∧
      (k % 2 = 0 → m % 2 = 0) := by
  obtain ⟨k, near, ⟨rfl, rfl⟩ | ⟨rfl, rfl, rfl⟩⟩ := h.whole
  · exact ⟨k, near, rfl, id⟩
  · refine ⟨2 ^ 53, near, ?_, fun _ => by norm_num⟩
    rw [zpow_add_one₀ two_ne_zero]
    push_cast
    ring

/-- Where a binade begins, in units of 53 digits. -/
lemma binade_eq (b : ℤ) : (2 : ℚ) ^ b = (2 ^ 52 : ℤ) * 2 ^ (b - 52) := by
  have power : ((2 ^ 52 : ℤ) : ℚ) = 2 ^ (52 : ℤ) := by norm_num
  rw [power, ← zpow_add₀ two_ne_zero]
  congr 1
  omega

/-- In a binade, and above, all numbers of 53 digits are multiples of one unit. -/
lemma exists_multiple {b s e : ℤ} (digits : |s| < 2 ^ 53) (within : (2 : ℚ) ^ b ≤ s * 2 ^ e) :
    ∃ j : ℤ, (s : ℚ) * 2 ^ e = j * 2 ^ (b - 52) := by
  have unit_le : b - 52 ≤ e := by
    by_contra lt
    have small : (2 : ℚ) ^ e ≤ 2 ^ (b - 53) := zpow_le_zpow_right₀ one_le_two (by omega)
    have few : (s : ℚ) < 2 ^ 53 := by exact_mod_cast (le_abs_self s).trans_lt digits
    have below : (s : ℚ) * 2 ^ e < 2 ^ 53 * 2 ^ (b - 53) := by
      have pos : (0 : ℚ) < 2 ^ e := by positivity
      nlinarith
    have start : (2 : ℚ) ^ 53 * 2 ^ (b - 53) = 2 ^ b := by
      rw [← zpow_natCast (2 : ℚ) 53, ← zpow_add₀ two_ne_zero]
      congr 1
      omega
    linarith
  obtain ⟨d, rfl⟩ : ∃ d : Nat, e = d + (b - 52) := ⟨(e - (b - 52)).toNat, by omega⟩
  refine ⟨s * 2 ^ d, ?_⟩
  rw [zpow_add₀ two_ne_zero, zpow_natCast]
  push_cast
  ring

/-- Nothing of 53 digits is nearer. -/
lemma nearest (h : Rounds n (n.log2 - 52) m e) (ne : n ≠ 0) {s e' : ℤ} (digits : |s| < 2 ^ 53)
    (other : (s : ℚ) * 2 ^ e' ≠ m * 2 ^ e) :
    |(m : ℚ) * 2 ^ e - n| < |(s : ℚ) * 2 ^ e' - n| ∨
      |(m : ℚ) * 2 ^ e - n| = |(s : ℚ) * 2 ^ e' - n| ∧ m % 2 = 0 := by
  obtain ⟨k, near, value, even⟩ := h.value
  rw [value] at other ⊢
  have unit : (0 : ℚ) < 2 ^ (n.log2 - 52 : ℤ) := by positivity
  have scale (j : ℚ) : |j * 2 ^ (n.log2 - 52 : ℤ) - n| =
      |j - n / 2 ^ (n.log2 - 52 : ℤ)| * 2 ^ (n.log2 - 52 : ℤ) := by
    rw [← abs_of_pos unit, ← abs_mul, abs_of_pos unit, sub_mul, div_mul_cancel₀ _ unit.ne']
  have least : (2 : ℚ) ^ (n.log2 : ℤ) ≤ n := by
    rw [zpow_natCast]
    exact_mod_cast Nat.log2_self_le ne
  by_cases within : (2 : ℚ) ^ (n.log2 : ℤ) ≤ s * 2 ^ e'
  · obtain ⟨j, multiple⟩ := exists_multiple digits within
    rw [multiple] at other ⊢
    have apart : j ≠ k := by
      rintro rfl
      exact other rfl
    rw [scale, scale]
    rcases near.nearer apart with lt | ⟨eq, tie⟩
    · exact .inl (mul_lt_mul_of_pos_right lt unit)
    · exact .inr ⟨by rw [eq], even tie⟩
  · -- What is below the binade is farther away than where the binade begins.
    have below : (s : ℚ) * 2 ^ e' < 2 ^ (n.log2 : ℤ) := not_le.1 within
    have far : (n : ℚ) - 2 ^ (n.log2 : ℤ) < |(s : ℚ) * 2 ^ e' - n| := by
      rw [abs_sub_comm]
      exact (by linarith : (n : ℚ) - 2 ^ (n.log2 : ℤ) < n - s * 2 ^ e').trans_le (le_abs_self _)
    have close : |(k : ℚ) * 2 ^ (n.log2 - 52 : ℤ) - n| ≤ n - 2 ^ (n.log2 : ℤ) := by
      have start : |((2 ^ 52 : ℤ) : ℚ) * 2 ^ (n.log2 - 52 : ℤ) - n| = n - 2 ^ (n.log2 : ℤ) := by
        rw [← binade_eq, abs_sub_comm, abs_of_nonneg (by linarith)]
      rw [← start, scale, scale]
      exact mul_le_mul_of_nonneg_right (near.abs_sub_le _) unit.le
    exact .inl (close.trans_lt far)

/-- What is half a unit above the greatest number, or more, is out of range. -/
lemma large_iff (h : Rounds n (n.log2 - 52) m e) (ne : n ≠ 0) :
    972 ≤ e ↔ rangeEnd ≤ n := by
  constructor
  · intro le
    by_contra! lt
    have bits : n.log2 < 1024 := (Nat.log2_lt ne).2 (lt.trans (by decide +kernel))
    obtain ⟨k, near, value, -⟩ := h.value
    have pos : (0 : ℚ) < 2 ^ (n.log2 - 52 : ℤ) := by positivity
    have step : (2 : ℚ) ^ (n.log2 - 52 : ℤ) ≤ 2 ^ (971 : ℤ) :=
      zpow_le_zpow_right₀ one_le_two (by omega)
    have next : (2 : ℚ) ^ (972 : ℤ) ≤ 2 ^ e := zpow_le_zpow_right₀ one_le_two le
    rw [← Nat.cast_lt (α := ℚ), rangeEnd_eq] at lt
    rw [show (972 : ℤ) = 971 + 1 from rfl, zpow_add_one₀ two_ne_zero] at next
    generalize (2 : ℚ) ^ (971 : ℤ) = top at *
    have digits : (2 ^ 52 : ℚ) ≤ m := by exact_mod_cast h.ge
    have close := mul_le_mul_of_nonneg_right (abs_le.1 near.1).2 pos.le
    rw [sub_mul, div_mul_cancel₀ _ pos.ne', ← value] at close
    have reached : (2 ^ 52 : ℚ) * (top * 2) ≤ m * 2 ^ e :=
      mul_le_mul digits next (by linarith) (Nat.cast_nonneg m)
    linarith
  · intro ge
    have bits : 1023 ≤ n.log2 := (Nat.le_log2 ne).2 (ge.trans' (by decide +kernel))
    obtain ⟨k, near, ⟨rfl, rfl⟩ | ⟨-, -, rfl⟩⟩ := h.whole
    · by_contra lt
      -- Only the last binade is left, and there the greatest significand is odd.
      have last : (n.log2 : ℤ) - 52 = 971 := by omega
      rw [last] at near
      have pos : (0 : ℚ) < 2 ^ (971 : ℤ) := by positivity
      rw [← Nat.cast_le (α := ℚ), rangeEnd_eq] at ge
      generalize (2 : ℚ) ^ (971 : ℤ) = top at *
      have far : (2 : ℚ) ^ 53 - 1 / 2 ≤ n / top := (le_div_iff₀ pos).2 ge
      have few : (k : ℚ) + 1 ≤ 2 ^ 53 := by exact_mod_cast h.lt
      obtain ⟨low, high⟩ := abs_le.1 near.1
      have greatest : k + 1 = 2 ^ 53 := by
        have : (k : ℚ) + 1 = 2 ^ 53 := by linarith
        exact_mod_cast this
      have even := near.2 (by rw [abs_of_neg (by linarith)]; linarith)
      omega
    · omega

end Rounds

/-- The number of digits tells how large a whole number is. -/
lemma decimalLength_le_iff {n k : Nat} (pos : 0 < k) : decimalLength n ≤ k ↔ n < 10 ^ k :=
  Nat.length_toDigits_le_iff (by decide) pos

/-- A whole number of few digits is read as any other. -/
lemma ofDecimal_of_short {n : Nat} (ne : n ≠ 0) (short : n < 10 ^ 400) :
    ofDecimal ⟨n, 0⟩ = Float.ofScientific n false 0 := by
  have length : decimalLength n ≤ 400 := (decimalLength_le_iff (by decide)).2 short
  unfold ofDecimal
  dsimp only
  rw [if_neg (by omega), if_neg (by omega), if_neg (by omega)]
  exact congrArg (Float.ofScientific · false 0) (Nat.mul_one n)

/-- A whole number of too many digits is infinite. -/
lemma ofDecimal_of_long {n : Nat} (long : 10 ^ 400 ≤ n) : ofDecimal ⟨n, 0⟩ = infinity := by
  have length : 400 < decimalLength n :=
    not_le.1 fun le => not_lt.2 long ((decimalLength_le_iff (by decide)).1 le)
  have ne : n ≠ 0 := by
    rintro rfl
    exact absurd length (by decide)
  unfold ofDecimal
  dsimp only
  rw [if_neg (by omega), if_pos (by omega)]

/-- A whole number out of range is read as an infinity. -/
lemma isInf_of_rangeEnd_le {n : Nat} (ge : rangeEnd ≤ n) : (ofDecimal ⟨n, 0⟩).isInf = true := by
  have ne : n ≠ 0 := fun h => absurd (h ▸ ge) (by decide +kernel)
  by_cases short : n < 10 ^ 400
  · obtain ⟨m, e, pos, model, rounds⟩ := ofScientific_rounds ne
    change (ofDecimal ⟨n, 0⟩).toModel.unpack.isInf = true
    rw [ofDecimal_of_short ne short, model]
    have infinite := unpack_pack_infinite .positive pos ((rounds.large_iff ne).2 ge)
    exact congrArg UnpackedFloat.isInf infinite
  · rw [ofDecimal_of_long (not_lt.1 short)]
    decide +kernel

/-- A whole number in range is rounded. -/
lemma unpack_ofDecimal {n : Nat} (ne : n ≠ 0) (lt : n < rangeEnd) :
    ∃ m e pos, (ofDecimal ⟨n, 0⟩).toModel.unpack = .finite .positive m e pos ∧
      -1074 ≤ e ∧ e ≤ 971 ∧ Rounds n (n.log2 - 52) m e := by
  obtain ⟨m, e, pos, model, rounds⟩ := ofScientific_rounds ne
  have most : e ≤ 971 := by
    by_contra large
    exact not_le.2 lt ((rounds.large_iff ne).1 (by omega))
  have least : -1074 ≤ e := by
    obtain ⟨k, -, ⟨-, rfl⟩ | ⟨-, -, rfl⟩⟩ := rounds.whole <;> omega
  refine ⟨m, e, pos, ?_, least, most, rounds⟩
  rw [ofDecimal_of_short ne (lt.trans (by decide +kernel)), model]
  exact unpack_pack_finite rounds.ge rounds.lt least most

/-- Only whole numbers out of range become no number. -/
lemma ofInt?_eq_none_iff (n : ℤ) : ofInt? n = none ↔ rangeEnd ≤ n.natAbs := by
  unfold ofInt?
  dsimp only
  constructor
  · intro h
    by_contra lt
    split at h
    · rename_i inf
      by_cases ne : n.natAbs = 0
      · rw [ne] at inf
        exact absurd inf (by decide +kernel)
      · obtain ⟨m, e, pos, parts, -⟩ := unpack_ofDecimal ne (not_le.1 lt)
        change (ofDecimal ⟨n.natAbs, 0⟩).toModel.unpack.isInf = true at inf
        rw [parts] at inf
        cases inf
    · cases h
  · intro ge
    rw [if_pos (isInf_of_rangeEnd_le ge)]

/-- The number nearest to zero is zero. -/
lemma nearest_zero : Nearest 0 0.0 := by
  refine ⟨0, rfl, fun y w _ ne => .inl ?_⟩
  rw [Int.cast_zero, sub_zero, sub_zero, abs_zero]
  exact abs_pos.2 ne

/-- A number that is rounded from a whole number is nearest to it. -/
lemma Rounds.nearest_of_unpack {n : ℤ} {x : Float} {sign : Sign} {m : Nat} {e : ℤ} {pos : 0 < m}
    (h : Rounds n.natAbs (n.natAbs.log2 - 52) m e) (ne : n ≠ 0)
    (parts : x.toModel.unpack = .finite sign m e pos) (same : sign.apply n.natAbs = n) :
    Nearest n x := by
  have value : value? x = some ((sign.apply m : ℤ) * 2 ^ e : ℚ) := by
    unfold value?
    rw [parts]
  have even : HasEvenSignificand x ↔ m % 2 = 0 := by
    unfold HasEvenSignificand
    rw [parts]
  refine ⟨_, value, fun y w hw other => ?_⟩
  obtain ⟨s, e', digits, rfl⟩ := value?_eq hw
  rw [even]
  generalize n.natAbs = k at *
  subst same
  have ne' : k ≠ 0 := by
    rintro rfl
    cases sign <;> exact ne rfl
  cases sign with
  | positive => exact h.nearest ne' digits other
  | negative =>
    -- The other number is seen from the other side of zero.
    have number : ((Sign.negative.apply m : ℤ) : ℚ) * 2 ^ e = -((m : ℚ) * 2 ^ e) := by
      rw [← neg_mul]
      exact congrArg (· * (2 : ℚ) ^ e) (Int.cast_neg (m : ℤ))
    have whole : ((Sign.negative.apply k : ℤ) : ℚ) = -(k : ℚ) := Int.cast_neg (k : ℤ)
    have mirrored : (s : ℚ) * 2 ^ e' = -(((-s : ℤ) : ℚ) * 2 ^ e') := by
      push_cast
      ring
    rw [number, mirrored] at other ⊢
    rw [whole, neg_sub_neg, neg_sub_neg, abs_sub_comm, abs_sub_comm (k : ℚ)]
    exact h.nearest ne' (by rwa [abs_neg]) fun eq => other (congrArg _ eq)

/-- What a whole number becomes is nearest to it. -/
lemma nearest_of_ofInt? {n : ℤ} {x : Float} (h : ofInt? n = some x) : Nearest n x := by
  have lt : n.natAbs < rangeEnd := by
    by_contra ge
    rw [(ofInt?_eq_none_iff n).2 (not_lt.1 ge)] at h
    cases h
  unfold ofInt? at h
  dsimp only at h
  split at h
  · cases h
  obtain rfl := Option.some.inj h
  by_cases zero : n = 0
  · subst zero
    exact nearest_zero
  obtain ⟨m, e, pos, parts, least, most, rounds⟩ := unpack_ofDecimal (Int.natAbs_ne_zero.2 zero) lt
  split
  · rename_i negative
    have parts' : (-ofDecimal ⟨n.natAbs, 0⟩).toModel.unpack = .finite .negative m e pos := by
      change UnpackedFloat.unpack .binary64
        ((ofDecimal ⟨n.natAbs, 0⟩).toModel.unpack.neg.pack .binary64) = _
      rw [parts]
      exact unpack_pack_finite rounds.ge rounds.lt least most
    refine rounds.nearest_of_unpack zero parts' ?_
    change -(n.natAbs : ℤ) = n
    omega
  · refine rounds.nearest_of_unpack zero parts ?_
    change (n.natAbs : ℤ) = n
    omega

end ScriptLang.Number
