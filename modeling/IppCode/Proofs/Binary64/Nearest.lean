import IppCode.Proofs.Binary64.Exact
import Mathlib.Data.Rat.Floor
import Mathlib.Tactic.FieldSimp
import Mathlib.Tactic.Linarith

/-!
# Rounding to nearest

The rational number that a finite number denotes, the order of numbers by it (`rank_lt_iff`), and
rounding as the choice of the nearest number, of two the one with an even significand
(`nearest_ofRatio`).
-/

namespace IppCode.Binary64

variable {x y : Binary64} {a b c d q s : Nat}

def signOf (negative : Bool) : ℚ := if negative then -1 else 1

def toRat (x : Binary64) : ℚ :=
  signOf x.negative *
    if x.biasedExponent = 0 then x.fraction / (2 : ℚ) ^ 52 * (2 : ℚ) ^ (-1022 : ℤ)
    else (1 + x.fraction / (2 : ℚ) ^ 52) * (2 : ℚ) ^ ((x.biasedExponent : ℤ) - 1023)

theorem cast_one_pos : (0 : ℚ) < one := by
  exact_mod_cast one_pos

theorem units_div_one (x : Binary64) :
    (x.units : ℚ) / one =
      if x.biasedExponent = 0 then x.fraction / (2 : ℚ) ^ 52 * (2 : ℚ) ^ (-1022 : ℤ)
      else (1 + x.fraction / (2 : ℚ) ^ 52) * (2 : ℚ) ^ ((x.biasedExponent : ℤ) - 1023) := by
  have place := binaryPlaces_eq
  have two : (2 : ℚ) ≠ 0 := by norm_num
  have unit : (one : ℚ)⁻¹ = 2 ^ (-(binaryPlaces : ℤ)) := by
    rw [one_eq, zpow_neg, zpow_natCast]
    push_cast
    rfl
  have lead : (leadingBit : ℚ) = 2 ^ (52 : ℤ) := by norm_num [leadingBit]
  have fraction : (2 : ℚ) ^ 52 = 2 ^ (52 : ℤ) := by norm_num
  rw [units, div_eq_mul_inv, unit, fraction, div_eq_mul_inv, ← zpow_neg]
  split
  · rw [mul_assoc, ← zpow_add₀ two]
    congr 2
  · rename_i normal
    have power : ((Nat.pow 2 (x.biasedExponent - 1) : Nat) : ℚ) =
        2 ^ ((x.biasedExponent : ℤ) - 1) := by
      have exponent : (x.biasedExponent : ℤ) - 1 = (x.biasedExponent - 1 : Nat) := by omega
      rw [exponent, zpow_natCast]
      exact Nat.cast_pow 2 _
    have shifted : (2 : ℚ) ^ ((x.biasedExponent : ℤ) - 1023) =
        2 ^ (52 : ℤ) * (2 ^ ((x.biasedExponent : ℤ) - 1) * 2 ^ (-(binaryPlaces : ℤ))) := by
      rw [← zpow_add₀ two, ← zpow_add₀ two]
      congr 1
      omega
    have cancel : (2 : ℚ) ^ (-(52 : ℤ)) * 2 ^ (52 : ℤ) = 1 := by norm_num
    rw [shifted, Nat.cast_mul, power, Nat.cast_add, lead]
    calc ((2 : ℚ) ^ (52 : ℤ) + x.fraction) * 2 ^ ((x.biasedExponent : ℤ) - 1) *
          2 ^ (-(binaryPlaces : ℤ))
      _ = (2 ^ (52 : ℤ) + x.fraction * 1) *
          (2 ^ ((x.biasedExponent : ℤ) - 1) * 2 ^ (-(binaryPlaces : ℤ))) := by ring
      _ = (1 + x.fraction * 2 ^ (-(52 : ℤ))) * (2 ^ (52 : ℤ) *
          (2 ^ ((x.biasedExponent : ℤ) - 1) * 2 ^ (-(binaryPlaces : ℤ)))) := by
        rw [← cancel]
        ring

theorem cast_signedUnits (x : Binary64) : (x.signedUnits : ℚ) = signOf x.negative * x.units := by
  unfold signedUnits signOf
  cases x.negative <;> simp

theorem toRat_eq (x : Binary64) : x.toRat = x.signedUnits / one := by
  rw [toRat, ← units_div_one, cast_signedUnits, mul_div_assoc]

theorem signOf_mul_self (negative : Bool) : signOf negative * signOf negative = 1 := by
  cases negative <;> norm_num [signOf]

theorem abs_signOf (negative : Bool) : |signOf negative| = 1 := by
  cases negative <;> norm_num [signOf]

theorem exists_normalForm (x : Binary64) :
    ∃ c d, c < 2 * leadingBit ∧ (d = 0 ∨ leadingBit ≤ c) ∧ x.magnitude = d * leadingBit + c := by
  simp only [leadingBit]
  by_cases small : x.magnitude < 0x10000000000000
  · exact ⟨x.magnitude, 0, by omega, .inl rfl, by omega⟩
  · exact ⟨0x10000000000000 + x.magnitude % 0x10000000000000,
      x.magnitude / 0x10000000000000 - 1, by omega, .inr (by omega), by omega⟩

theorem scaled_le (exponents : d < s) (small : c ≤ 2 * leadingBit) (large : leadingBit ≤ q) :
    c * 2 ^ d ≤ q * 2 ^ s := by
  calc c * 2 ^ d
    _ ≤ 2 * leadingBit * 2 ^ d := Nat.mul_le_mul_right _ small
    _ = leadingBit * 2 ^ (d + 1) := by ring
    _ ≤ q * 2 ^ s := Nat.mul_le_mul large (Nat.pow_le_pow_right (by decide) exponents)

theorem scaled_lt (exponents : d < s) (small : c < 2 * leadingBit) (large : leadingBit ≤ q) :
    c * 2 ^ d < q * 2 ^ s := by
  refine lt_of_lt_of_le ?_ (scaled_le exponents small large)
  exact Nat.mul_lt_mul_of_pos_right (Nat.lt_succ_self c) (Nat.two_pow_pos d)

theorem units_lt_of_magnitude_lt (less : x.magnitude < y.magnitude) : x.units < y.units := by
  obtain ⟨c, d, significand, normal, magnitude⟩ := exists_normalForm x
  obtain ⟨q, s, significand', normal', magnitude'⟩ := exists_normalForm y
  rw [units_eq significand normal magnitude, units_eq significand' normal' magnitude']
  have lead : leadingBit = 0x10000000000000 := rfl
  rcases lt_trichotomy d s with below | rfl | above
  · exact scaled_lt below significand (normal'.resolve_left (by omega))
  · exact Nat.mul_lt_mul_of_pos_right (by omega) (Nat.two_pow_pos d)
  · have large := normal.resolve_left (by omega)
    have order : s * leadingBit + leadingBit ≤ d * leadingBit := by
      rw [← Nat.succ_mul]
      exact Nat.mul_le_mul_right _ above
    omega

theorem units_lt_iff : x.units < y.units ↔ x.magnitude < y.magnitude := by
  refine ⟨fun less => ?_, units_lt_of_magnitude_lt⟩
  rcases lt_trichotomy x.magnitude y.magnitude with below | same | above
  · exact below
  · unfold units biasedExponent fraction at less
    rw [same] at less
    exact absurd less (lt_irrefl _)
  · have := units_lt_of_magnitude_lt above
    omega

theorem rank_lt_iff : x.rank < y.rank ↔ x.signedUnits < y.signedUnits := by
  have positive (z : Binary64) : 0 < z.units ↔ 0 < z.magnitude := by
    rw [← units_zero false, units_lt_iff]
    rfl
  have left := positive x
  have right := positive y
  have order := units_lt_iff (x := x) (y := y)
  have order' := units_lt_iff (x := y) (y := x)
  unfold rank signedUnits
  cases x.negative <;> cases y.negative <;> simp <;> omega

theorem compare?_eq (left : x.isFinite = true) (right : y.isFinite = true) :
    x.compare? y = some (compare x.signedUnits y.signedUnits) := by
  rw [compare?, isNaN_of_finite left, isNaN_of_finite right]
  refine congrArg some ?_
  rcases lt_trichotomy x.rank y.rank with below | same | above
  · rw [Int.compare_eq_lt.2 below, Int.compare_eq_lt.2 (rank_lt_iff.1 below)]
  · have order := rank_lt_iff (x := x) (y := y)
    have order' := rank_lt_iff (x := y) (y := x)
    have same' : x.signedUnits = y.signedUnits := by omega
    rw [Int.compare_eq_eq.2 same, Int.compare_eq_eq.2 same']
  · rw [Int.compare_eq_gt.2 above, Int.compare_eq_gt.2 (rank_lt_iff.1 above)]

theorem units_gap (bound : q < 2 * leadingBit) (normal : s = 0 ∨ leadingBit ≤ q) (y : Binary64) :
    y.units ≤ q * 2 ^ s ∨ (q + 1) * 2 ^ s ≤ y.units := by
  obtain ⟨c, d, significand, normal', magnitude⟩ := exists_normalForm y
  rw [units_eq significand normal' magnitude]
  rcases lt_trichotomy d s with below | rfl | above
  · exact .inl (scaled_lt below significand (normal.resolve_left (by omega))).le
  · rcases Nat.lt_or_ge q c with greater | less
    · exact .inr (Nat.mul_le_mul_right _ greater)
    · exact .inl (Nat.mul_le_mul_right _ less)
  · exact .inr (scaled_le above bound (normal'.resolve_left (by omega)))

theorem quotient_normal (a b : Nat) :
    a / (b * 2 ^ (Nat.log2 (a / b) - 52)) < 2 * leadingBit ∧
      (Nat.log2 (a / b) - 52 = 0 ∨
        leadingBit ≤ a / (b * 2 ^ (Nat.log2 (a / b) - 52))) := by
  rw [← Nat.div_div_eq_div_mul]
  generalize a / b = n
  have lead : leadingBit = 2 ^ 52 := by norm_num [leadingBit]
  by_cases zero : n = 0
  · subst zero
    exact ⟨by simp [leadingBit], .inl (by simp)⟩
  · have high := Nat.lt_log2_self (n := n)
    have low := Nat.log2_self_le zero
    rcases Nat.le_total n.log2 52 with small | large
    · rw [Nat.sub_eq_zero_of_le small, pow_zero, Nat.div_one, lead, ← pow_succ']
      exact ⟨high.trans_le (Nat.pow_le_pow_right (by decide) (by omega)), .inl rfl⟩
    · obtain ⟨s, bits⟩ := Nat.exists_eq_add_of_le large
      rw [bits, Nat.add_sub_cancel_left, Nat.div_lt_iff_lt_mul (Nat.two_pow_pos s),
        Nat.le_div_iff_mul_le (Nat.two_pow_pos s), lead, ← pow_succ', ← pow_add, ← pow_add]
      rw [bits] at high low
      exact ⟨by rwa [Nat.add_right_comm] at high, .inr low⟩

theorem units_eq_of_carry (significand : c ≤ 2 * leadingBit) (normal : d = 0 ∨ leadingBit ≤ c)
    (magnitude : x.magnitude = d * leadingBit + c) : x.units = c * 2 ^ d := by
  rcases significand.lt_or_eq with less | rfl
  · exact units_eq less normal magnitude
  · rw [units_eq (c := leadingBit) (d := d + 1) (by decide) (.inr le_rfl) (by rw [magnitude]; ring)]
    ring

theorem roundQuotient_cases (a b : Nat) :
    (roundQuotient a b = a / b ∧ 2 * (a % b) ≤ b ∨
      roundQuotient a b = a / b + 1 ∧ b ≤ 2 * (a % b)) ∧
    (2 * (a % b) = b → roundQuotient a b % 2 = 0) := by
  unfold roundQuotient
  simp only
  split_ifs <;> omega

theorem isFinite_ofRatio (negative : Bool) (small : Nat.log2 (a / b) < 2097) :
    (ofRatio negative a b).isFinite = true := by
  obtain ⟨bound, -⟩ := quotient_normal a b
  have rounding := (roundQuotient_cases a (b * 2 ^ (Nat.log2 (a / b) - 52))).1
  have below : nearestMagnitude a b < infinityMagnitude := by
    refine lt_of_le_of_lt (Nat.min_le_left _ _) ?_
    have power : Nat.pow 2 (Nat.log2 (a / b) - 52) = 2 ^ (Nat.log2 (a / b) - 52) := rfl
    simp only [leadingBit, infinityMagnitude, power] at *
    omega
  exact decide_eq_true below

theorem ofRatio_eq_zero (negative : Bool) (small : 2 * a < b) :
    ofRatio negative a b = zero negative := by
  have quotient : a / b = 0 := Nat.div_eq_of_lt (by omega)
  have remainder : a % b = a := Nat.mod_eq_of_lt (by omega)
  have log : Nat.log2 0 - 52 = 0 := by simp
  refine ext rfl ?_
  rw [magnitude_ofRatio, nearestMagnitude, quotient, log]
  have unit : b * Nat.pow 2 0 = b := Nat.mul_one b
  simp only [unit, roundQuotient, quotient, remainder, if_pos small, Nat.zero_mul, Nat.add_zero]
  exact Nat.zero_min _

theorem ofRatio_eq_infinity (negative : Bool) (large : 2 ^ (1024 + binaryPlaces) ≤ a / b) :
    ofRatio negative a b = infinity negative := by
  have place := binaryPlaces_eq
  have nonzero : a / b ≠ 0 := (lt_of_lt_of_le (Nat.two_pow_pos _) large).ne'
  have bits : 1024 + binaryPlaces ≤ Nat.log2 (a / b) := (Nat.le_log2 nonzero).2 large
  obtain ⟨-, normal⟩ := quotient_normal a b
  have rounding := (roundQuotient_cases a (b * 2 ^ (Nat.log2 (a / b) - 52))).1
  have power : Nat.pow 2 (Nat.log2 (a / b) - 52) = 2 ^ (Nat.log2 (a / b) - 52) := rfl
  refine ext rfl ?_
  rw [magnitude_ofRatio, nearestMagnitude]
  simp only [power]
  refine Nat.min_eq_right ?_
  have shift : 2046 ≤ Nat.log2 (a / b) - 52 := by omega
  have lead := normal.resolve_left (by omega)
  simp only [leadingBit, infinityMagnitude] at *
  omega

theorem exists_rounding (negative : Bool) (finite : (ofRatio negative a b).isFinite = true) :
    ∃ s, a / (b * 2 ^ s) < 2 * leadingBit ∧ (s = 0 ∨ leadingBit ≤ a / (b * 2 ^ s)) ∧
      (ofRatio negative a b).units = roundQuotient a (b * 2 ^ s) * 2 ^ s ∧
      (ofRatio negative a b).fraction % 2 = roundQuotient a (b * 2 ^ s) % 2 := by
  obtain ⟨bound, normal⟩ := quotient_normal a b
  have rounding := (roundQuotient_cases a (b * 2 ^ (Nat.log2 (a / b) - 52))).1
  have below := below_infinity finite
  have magnitude : (ofRatio negative a b).magnitude =
      (Nat.log2 (a / b) - 52) * leadingBit +
        roundQuotient a (b * 2 ^ (Nat.log2 (a / b) - 52)) := by
    rw [magnitude_ofRatio] at below ⊢
    unfold nearestMagnitude at below ⊢
    exact min_eq_left_of_lt ((min_lt_iff.1 below).resolve_right (lt_irrefl _))
  refine ⟨Nat.log2 (a / b) - 52, bound, normal, ?_, ?_⟩
  · exact units_eq_of_carry (by omega) (by omega) magnitude
  · rw [fraction, magnitude]
    simp only [leadingBit]
    omega

/-- The number is one of those nearest to a value, and of two the one whose last bit is zero. -/
structure Nearest (x : Binary64) (v : ℚ) : Prop where
  finite : x.isFinite = true
  closest : ∀ y : Binary64, y.isFinite = true → |x.toRat - v| ≤ |y.toRat - v|
  even : ∀ y : Binary64, y.isFinite = true → y.toRat ≠ x.toRat →
    |y.toRat - v| = |x.toRat - v| → x.fraction % 2 = 0

theorem closest_of_gap {low high u v w : ℚ} (gap : v ≤ low ∨ high ≤ v) (above : low ≤ u)
    (below : u ≤ high) (choice : w = low ∧ u - low ≤ high - u ∨ w = high ∧ high - u ≤ u - low) :
    |w - u| ≤ |v - u| ∧ (v ≠ w → |v - u| = |w - u| → u - low = high - u) := by
  have left {z : ℚ} (less : z ≤ low) : |z - u| = u - z := by
    rw [abs_of_nonpos (by linarith), neg_sub]
  have right {z : ℚ} (greater : high ≤ z) : |z - u| = z - u := abs_of_nonneg (by linarith)
  rcases choice with ⟨rfl, nearer⟩ | ⟨rfl, nearer⟩
  · rcases gap with less | greater
    · rw [left less, left le_rfl]
      exact ⟨by linarith, fun other same => absurd (by linarith) other⟩
    · rw [right greater, left le_rfl]
      exact ⟨by linarith, fun _ same => by linarith⟩
  · rcases gap with less | greater
    · rw [left less, right le_rfl]
      exact ⟨by linarith, fun _ same => by linarith⟩
    · rw [right greater, right le_rfl]
      exact ⟨by linarith, fun other same => absurd (by linarith) other⟩

theorem abs_toRat_sub (y : Binary64) (negative : Bool) (u : ℚ) :
    |y.toRat - signOf negative * u / one| = |signOf negative * y.signedUnits - u| / one := by
  have unit := signOf_mul_self negative
  have difference : y.toRat - signOf negative * u / one =
      signOf negative * (signOf negative * y.signedUnits - u) / one := by
    rw [toRat_eq, mul_sub, ← mul_assoc, unit, one_mul, sub_div]
  rw [difference, abs_div, abs_mul, abs_signOf, one_mul, abs_of_pos cast_one_pos]

theorem signed_gap (bound : q < 2 * leadingBit) (normal : s = 0 ∨ leadingBit ≤ q) (negative : Bool)
    (y : Binary64) :
    signOf negative * (y.signedUnits : ℚ) ≤ ((q * 2 ^ s : Nat) : ℚ) ∨
      (((q + 1) * 2 ^ s : Nat) : ℚ) ≤ signOf negative * (y.signedUnits : ℚ) := by
  rw [cast_signedUnits, ← mul_assoc]
  by_cases same : y.negative = negative
  · rw [same, signOf_mul_self, one_mul]
    exact_mod_cast units_gap bound normal y
  · have opposite : signOf negative * signOf y.negative = -1 := by
      revert same
      cases y.negative <;> cases negative <;> simp [signOf]
    left
    rw [opposite, neg_one_mul]
    have low : (0 : ℚ) ≤ (q * 2 ^ s : Nat) := Nat.cast_nonneg _
    have units : (0 : ℚ) ≤ y.units := Nat.cast_nonneg _
    linarith

theorem neighbours (a : Nat) (s : Nat) (positive : 0 < b) :
    (a : ℚ) / b - (a / (b * 2 ^ s) * 2 ^ s : Nat) = (a % (b * 2 ^ s) : Nat) / b ∧
      ((a / (b * 2 ^ s) + 1) * 2 ^ s : Nat) - (a : ℚ) / b =
        ((b * 2 ^ s : Nat) - (a % (b * 2 ^ s) : Nat)) / b := by
  have divisor : (b : ℚ) ≠ 0 := by exact_mod_cast positive.ne'
  have parts : ((b * 2 ^ s * (a / (b * 2 ^ s)) + a % (b * 2 ^ s) : Nat) : ℚ) = a := by
    rw [Nat.div_add_mod]
  push_cast at parts ⊢
  constructor
  · field_simp
    linarith
  · field_simp
    linarith

theorem rounded_neighbour (a s : Nat) (positive : 0 < b) :
    ((a / (b * 2 ^ s) * 2 ^ s : Nat) : ℚ) ≤ a / b ∧
    (a : ℚ) / b ≤ ((a / (b * 2 ^ s) + 1) * 2 ^ s : Nat) ∧
    (((roundQuotient a (b * 2 ^ s) * 2 ^ s : Nat) : ℚ) = (a / (b * 2 ^ s) * 2 ^ s : Nat) ∧
        (a : ℚ) / b - (a / (b * 2 ^ s) * 2 ^ s : Nat) ≤
          ((a / (b * 2 ^ s) + 1) * 2 ^ s : Nat) - (a : ℚ) / b ∨
      ((roundQuotient a (b * 2 ^ s) * 2 ^ s : Nat) : ℚ) = ((a / (b * 2 ^ s) + 1) * 2 ^ s : Nat) ∧
        ((a / (b * 2 ^ s) + 1) * 2 ^ s : Nat) - (a : ℚ) / b ≤
          (a : ℚ) / b - (a / (b * 2 ^ s) * 2 ^ s : Nat)) ∧
    ((a : ℚ) / b - (a / (b * 2 ^ s) * 2 ^ s : Nat) =
        ((a / (b * 2 ^ s) + 1) * 2 ^ s : Nat) - (a : ℚ) / b →
      roundQuotient a (b * 2 ^ s) % 2 = 0) := by
  obtain ⟨rounding, tie⟩ := roundQuotient_cases a (b * 2 ^ s)
  obtain ⟨toLow, toHigh⟩ := neighbours a s positive
  have divisor : (0 : ℚ) < b := by exact_mod_cast positive
  have small : a % (b * 2 ^ s) < b * 2 ^ s :=
    Nat.mod_lt a (Nat.mul_pos positive (Nat.two_pow_pos s))
  generalize a / (b * 2 ^ s) = quotient at *
  generalize a % (b * 2 ^ s) = remainder at *
  refine ⟨?_, ?_, ?_, fun middle => ?_⟩
  · have nonneg : (0 : ℚ) ≤ remainder / b := by positivity
    linarith
  · have less : (remainder : ℚ) ≤ (b * 2 ^ s : Nat) := by exact_mod_cast small.le
    have nonneg : (0 : ℚ) ≤ ((b * 2 ^ s : Nat) - remainder) / b :=
      div_nonneg (by linarith) divisor.le
    linarith
  · rw [toLow, toHigh, div_le_div_iff_of_pos_right divisor, div_le_div_iff_of_pos_right divisor]
    rcases rounding with ⟨down, nearer⟩ | ⟨up, nearer⟩
    · have nearer : (2 * remainder : ℚ) ≤ (b * 2 ^ s : Nat) := by exact_mod_cast nearer
      exact .inl ⟨by rw [down], by linarith⟩
    · have nearer : ((b * 2 ^ s : Nat) : ℚ) ≤ 2 * remainder := by exact_mod_cast nearer
      exact .inr ⟨by rw [up], by linarith⟩
  · rw [toLow, toHigh, div_left_inj' divisor.ne'] at middle
    have middle : (2 * remainder : ℚ) = (b * 2 ^ s : Nat) := by linarith
    exact tie (by exact_mod_cast middle)

theorem signOf_ne_zero (negative : Bool) : signOf negative ≠ 0 := by
  cases negative <;> norm_num [signOf]

theorem nearest_ofRatio (negative : Bool) (positive : 0 < b)
    (finite : (ofRatio negative a b).isFinite = true) :
    Nearest (ofRatio negative a b) (signOf negative * (a / b) / one) := by
  obtain ⟨s, bound, normal, units, last⟩ := exists_rounding negative finite
  obtain ⟨above, below, choice, tie⟩ := rounded_neighbour a s positive
  have value : signOf negative * ((ofRatio negative a b).signedUnits : ℚ) =
      (roundQuotient a (b * 2 ^ s) * 2 ^ s : Nat) := by
    rw [cast_signedUnits, negative_ofRatio, ← mul_assoc, signOf_mul_self, one_mul, units]
  have closest (y : Binary64) :=
    closest_of_gap (signed_gap bound normal negative y) above below choice
  refine ⟨finite, fun y _ => ?_, fun y _ other same => ?_⟩
  · rw [abs_toRat_sub, abs_toRat_sub, value]
    exact div_le_div_of_nonneg_right (closest y).1 cast_one_pos.le
  · rw [abs_toRat_sub, abs_toRat_sub, value, div_left_inj' cast_one_pos.ne'] at same
    refine last.trans (tie ((closest y).2 (fun equal => other ?_) same))
    rw [← value] at equal
    rw [toRat_eq, toRat_eq, mul_left_cancel₀ (signOf_ne_zero negative) equal]

theorem Nearest.between {v : ℚ} {z : Binary64} (nearest : Nearest x v)
    (least : y.isFinite = true) (greatest : z.isFinite = true) (above : y.toRat ≤ v)
    (below : v ≤ z.toRat) : y.toRat ≤ x.toRat ∧ x.toRat ≤ z.toRat := by
  have left := nearest.closest y least
  have right := nearest.closest z greatest
  rw [abs_of_nonpos (by linarith : y.toRat - v ≤ 0)] at left
  rw [abs_of_nonneg (by linarith : 0 ≤ z.toRat - v)] at right
  have first := abs_le.1 left
  have second := abs_le.1 right
  exact ⟨by linarith, by linarith⟩

end IppCode.Binary64
