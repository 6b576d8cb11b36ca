import IppCode.Binary64.Arithmetic
import Mathlib.Data.Nat.Log
import Mathlib.Tactic.Ring

/-!
# Exact results

Rounding leaves a ratio that is the value of a finite number as it is (`nearestMagnitude_units`). So
an operation gives the number that is its exact result, if there is one, and the checked operations,
which refuse every other result, succeed (`IsUnits.addExactly?`, `IsUnits.mulExactly?`,
`IsUnits.divExactly?`).
-/

namespace IppCode.Binary64

variable {x y z : Binary64} {a b c d k : Nat}

@[ext] theorem ext (sign : x.negative = y.negative) (magnitude : x.magnitude = y.magnitude) :
    x = y := by
  cases x
  cases y
  cases sign
  cases magnitude
  rfl

def binaryPlaces : Nat := 1074

theorem binaryPlaces_eq : binaryPlaces = 1074 := rfl

theorem one_eq : one = 2 ^ binaryPlaces := by
  unfold one binaryPlaces
  -- With a variable in its place the power is not evaluated.
  generalize 1074 = k
  rfl

theorem one_pos : 0 < one := by
  rw [one_eq]
  exact pow_pos (by decide) _

theorem below_infinity (finite : x.isFinite = true) : x.magnitude < infinityMagnitude :=
  of_decide_eq_true finite

theorem biasedExponent_eq (significand : c < 2 * leadingBit) (normal : d = 0 ∨ leadingBit ≤ c)
    (magnitude : x.magnitude = d * leadingBit + c) :
    x.biasedExponent = if c < leadingBit then 0 else d + 1 := by
  rw [biasedExponent, magnitude]
  split
  · rename_i small
    have least : d = 0 := by omega
    simp [least, Nat.div_eq_of_lt small]
  · simp only [leadingBit] at *
    omega

theorem fraction_eq (significand : c < 2 * leadingBit) (normal : d = 0 ∨ leadingBit ≤ c)
    (magnitude : x.magnitude = d * leadingBit + c) :
    x.fraction = if c < leadingBit then c else c - leadingBit := by
  rw [fraction, magnitude]
  split
  · rename_i small
    have least : d = 0 := by omega
    simp [least, Nat.mod_eq_of_lt small]
  · simp only [leadingBit] at *
    omega

theorem units_eq (significand : c < 2 * leadingBit) (normal : d = 0 ∨ leadingBit ≤ c)
    (magnitude : x.magnitude = d * leadingBit + c) : x.units = c * 2 ^ d := by
  rw [units, biasedExponent_eq significand normal magnitude,
    fraction_eq significand normal magnitude]
  by_cases small : c < leadingBit
  · have least : d = 0 := by omega
    simp [small, least]
  · have power : Nat.pow 2 d = 2 ^ d := rfl
    simp only [small, if_false, Nat.succ_ne_zero, Nat.add_sub_cancel, power]
    rw [Nat.add_sub_cancel' (not_lt.1 small)]

theorem exists_significand (finite : x.isFinite = true) :
    ∃ c d, c < 2 * leadingBit ∧ (d = 0 ∨ leadingBit ≤ c) ∧ d ≤ 2045 ∧
      x.magnitude = d * leadingBit + c := by
  have bound := below_infinity finite
  simp only [leadingBit, infinityMagnitude] at *
  by_cases small : x.magnitude < 0x10000000000000
  · exact ⟨x.magnitude, 0, by omega, .inl rfl, by omega, by omega⟩
  · exact ⟨0x10000000000000 + x.magnitude % 0x10000000000000,
      x.magnitude / 0x10000000000000 - 1, by omega, .inr (by omega), by omega, by omega⟩

theorem units_lt (finite : x.isFinite = true) : ∃ k ≤ 2045, x.units < 2 ^ (53 + k) := by
  obtain ⟨c, d, significand, normal, range, magnitude⟩ := exists_significand finite
  refine ⟨d, range, ?_⟩
  rw [units_eq significand normal magnitude, pow_add]
  exact Nat.mul_lt_mul_of_pos_right significand (Nat.two_pow_pos d)

/-- The number has no sign and is worth so many units. -/
structure IsUnits (x : Binary64) (n : Nat) : Prop where
  finite : x.isFinite = true
  positive : x.negative = false
  units : x.units = n

theorem exists_isUnits_normal (significand : c < 2 * leadingBit) (normal : d = 0 ∨ leadingBit ≤ c)
    (range : d ≤ 2045) : ∃ x, IsUnits x (c * 2 ^ d) := by
  have bound : d * leadingBit + c < infinityMagnitude := by
    simp only [leadingBit, infinityMagnitude] at *
    omega
  have below : d * leadingBit + c < signBit := bound.trans (by decide)
  exact ⟨⟨false, d * leadingBit + c, below⟩, decide_eq_true bound, rfl,
    units_eq significand normal rfl⟩

theorem exists_isUnits (significand : c < 2 ^ 53) (small : c * 2 ^ d < 2 ^ (53 + k))
    (range : k ≤ 2045) : ∃ x, IsUnits x (c * 2 ^ d) := by
  induction d generalizing c with
  | zero => exact exists_isUnits_normal significand (.inl rfl) (by decide)
  | succ d ih =>
    by_cases normal : leadingBit ≤ c
    · refine exists_isUnits_normal significand (.inr normal) ?_
      have least : 2 ^ 52 * 2 ^ (d + 1) ≤ c * 2 ^ (d + 1) := Nat.mul_le_mul_right _ normal
      rw [← pow_add] at least
      have exponents := (Nat.pow_lt_pow_iff_right (by decide)).1 (least.trans_lt small)
      omega
    · have shifted : c * 2 ^ (d + 1) = 2 * c * 2 ^ d := by ring
      simp only [leadingBit] at normal
      rw [shifted] at small ⊢
      exact ih (by omega) small

theorem exists_isUnits_le (significand : c < 2 ^ 53) (range : d ≤ 2045) :
    ∃ x, IsUnits x (c * 2 ^ d) := by
  refine exists_isUnits significand ?_ range
  rw [pow_add]
  exact Nat.mul_lt_mul_of_pos_right significand (Nat.two_pow_pos d)

theorem roundQuotient_mul (positive : 0 < b) : roundQuotient (a * b) b = a := by
  simp [roundQuotient, Nat.mul_div_cancel _ positive, positive]

theorem log2_significand (significand : c < 2 * leadingBit) (normal : d = 0 ∨ leadingBit ≤ c) :
    Nat.log2 (c * 2 ^ d) - 52 = d := by
  rcases normal with rfl | normal
  · rw [pow_zero, mul_one, Nat.sub_eq_zero_iff_le]
    by_cases zero : c = 0
    · simp [zero]
    · exact Nat.le_of_lt_succ ((Nat.log2_lt zero).2 significand)
  · have nonzero : c * 2 ^ d ≠ 0 := by
      simp only [leadingBit] at normal
      exact Nat.mul_ne_zero (by omega) (Nat.two_pow_pos d).ne'
    have low : 52 + d ≤ Nat.log2 (c * 2 ^ d) := by
      rw [Nat.le_log2 nonzero, pow_add]
      exact Nat.mul_le_mul_right _ normal
    have high : Nat.log2 (c * 2 ^ d) < 53 + d := by
      rw [Nat.log2_lt nonzero, pow_add]
      exact Nat.mul_lt_mul_of_pos_right significand (Nat.two_pow_pos d)
    omega

theorem nearestMagnitude_significand (significand : c < 2 * leadingBit)
    (normal : d = 0 ∨ leadingBit ≤ c) (positive : 0 < b) :
    nearestMagnitude (c * 2 ^ d * b) b = min (d * leadingBit + c) infinityMagnitude := by
  have power : Nat.pow 2 d = 2 ^ d := rfl
  have ratio : c * 2 ^ d * b = c * (b * 2 ^ d) := by ring
  rw [nearestMagnitude, Nat.mul_div_cancel _ positive]
  simp only [log2_significand significand normal, power, ratio]
  rw [roundQuotient_mul (Nat.mul_pos positive (Nat.two_pow_pos d))]

theorem nearestMagnitude_units (finite : x.isFinite = true) (positive : 0 < b) :
    nearestMagnitude (x.units * b) b = x.magnitude := by
  obtain ⟨c, d, significand, normal, -, magnitude⟩ := exists_significand finite
  rw [units_eq significand normal magnitude,
    nearestMagnitude_significand significand normal positive, ← magnitude,
    Nat.min_eq_left (below_infinity finite).le]

@[simp] theorem negative_ofRatio (negative : Bool) : (ofRatio negative a b).negative = negative :=
  rfl

theorem magnitude_ofRatio (negative : Bool) :
    (ofRatio negative a b).magnitude = nearestMagnitude a b := rfl

theorem ofRatio_eq (finite : z.isFinite = true) (positive : 0 < b) (ratio : a = z.units * b) :
    ofRatio z.negative a b = z := by
  refine ext (negative_ofRatio _) ?_
  rw [magnitude_ofRatio, ratio, nearestMagnitude_units finite positive]

theorem isUnits_ofRatio (value : IsUnits z c) (positive : 0 < b) (ratio : a = c * b) :
    IsUnits (ofRatio false a b) c := by
  have same : ofRatio false a b = z := by
    rw [← value.positive]
    exact ofRatio_eq value.finite positive (value.units.symm ▸ ratio)
  exact same ▸ value

theorem finite_ofRatio_of_isUnits (negative : Bool) (value : IsUnits z c) (positive : 0 < b)
    (ratio : a = c * b) :
    (ofRatio negative a b).isFinite = true ∧ (ofRatio negative a b).units = c := by
  obtain ⟨finite, -, units⟩ := isUnits_ofRatio value positive ratio
  exact ⟨finite, units⟩

theorem eq_of_units (finite : x.isFinite = true) (other : y.isFinite = true)
    (sign : x.negative = y.negative) (units : x.units = y.units) : x = y := by
  apply ext sign
  rw [← nearestMagnitude_units finite Nat.one_pos, ← nearestMagnitude_units other Nat.one_pos,
    units]

theorem isNaN_of_finite (finite : x.isFinite = true) : x.isNaN = false :=
  decide_eq_false (below_infinity finite).le.not_gt

theorem isInfinite_of_finite (finite : x.isFinite = true) : x.isInfinite = false :=
  beq_eq_false_iff_ne.2 (below_infinity finite).ne

theorem finite_zero (negative : Bool) : (zero negative).isFinite = true := by
  cases negative <;> decide

theorem units_zero (negative : Bool) : (zero negative).units = 0 := by
  cases negative <;> decide

theorem isZero_iff (finite : x.isFinite = true) : x.isZero = true ↔ x.units = 0 := by
  obtain ⟨c, d, significand, normal, -, magnitude⟩ := exists_significand finite
  have power : 2 ^ d ≠ 0 := (Nat.two_pow_pos d).ne'
  rw [units_eq significand normal magnitude, isZero, beq_iff_eq, magnitude]
  simp only [leadingBit, mul_eq_zero, power, or_false] at *
  omega

theorem mul_eq (left : x.isFinite = true) (right : y.isFinite = true) (finite : z.isFinite = true)
    (sign : z.negative = (x.negative != y.negative)) (product : x.units * y.units = z.units * one) :
    mul x y = z := by
  simp only [mul, isNaN_of_finite left, isNaN_of_finite right, isInfinite_of_finite left,
    isInfinite_of_finite right, ← sign]
  exact ofRatio_eq finite one_pos product

theorem mul_of_finite (left : x.isFinite = true) (right : y.isFinite = true)
    (positive : y.negative = false) : mul x y = ofRatio x.negative (x.units * y.units) one := by
  simp [mul, isNaN_of_finite left, isNaN_of_finite right, isInfinite_of_finite left,
    isInfinite_of_finite right, positive]

theorem infinity_mul (negative : Bool) (number : y.isNaN = false) (nonzero : y.isZero = false)
    (positive : y.negative = false) : mul (infinity negative) y = infinity negative := by
  have infinite : (infinity negative).isNaN = false ∧ (infinity negative).isInfinite = true ∧
      (infinity negative).isZero = false ∧ (infinity negative).negative = negative := by
    cases negative <;> decide
  simp [mul, infinite, number, nonzero, positive]

theorem div_eq (left : x.isFinite = true) (right : y.isFinite = true) (finite : z.isFinite = true)
    (sign : z.negative = (x.negative != y.negative)) (nonzero : y.units ≠ 0)
    (quotient : x.units * one = z.units * y.units) : div x y = z := by
  have divisor : y.isZero = false := by
    rw [← Bool.not_eq_true, isZero_iff right]
    exact nonzero
  simp only [div, isNaN_of_finite left, isNaN_of_finite right, isInfinite_of_finite left,
    isInfinite_of_finite right, divisor, ← sign]
  exact ofRatio_eq finite (Nat.pos_of_ne_zero nonzero) quotient

theorem add_eq (left : x.isFinite = true) (right : y.isFinite = true) (finite : z.isFinite = true)
    (sum : x.signedUnits + y.signedUnits = z.signedUnits)
    (sign : z.units = 0 → z.negative = (x.negative && y.negative)) : add x y = z := by
  simp only [add, isNaN_of_finite left, isNaN_of_finite right, isInfinite_of_finite left,
    isInfinite_of_finite right, sum]
  by_cases vanishes : z.units = 0
  · have zeroUnits : z.signedUnits = 0 := by simp [signedUnits, vanishes]
    simp only [zeroUnits, if_true, ← sign vanishes]
    exact eq_of_units (finite_zero _) finite rfl ((units_zero _).trans vanishes.symm)
  · have nonzero : z.signedUnits ≠ 0 := by
      unfold signedUnits
      split <;> omega
    have negative : decide (z.signedUnits < 0) = z.negative := by
      unfold signedUnits
      cases z.negative
      · simp
      · simp
        omega
    have size : z.signedUnits.natAbs = z.units * 1 := by
      unfold signedUnits
      split <;> omega
    simp only [nonzero, if_false, negative]
    exact ofRatio_eq finite Nat.one_pos size

/-- The sum of finite numbers, if it needs no rounding. -/
def addExactly? (x y : Binary64) : Option Binary64 :=
  if x.isFinite ∧ y.isFinite ∧ (add x y).isFinite ∧
    (add x y).signedUnits = x.signedUnits + y.signedUnits then some (add x y) else none

def mulExactly? (x y : Binary64) : Option Binary64 :=
  if x.isFinite ∧ y.isFinite ∧ (mul x y).isFinite ∧
    (mul x y).signedUnits * one = x.signedUnits * y.signedUnits then some (mul x y) else none

def divExactly? (x y : Binary64) : Option Binary64 :=
  if x.isFinite ∧ y.isFinite ∧ y.units ≠ 0 ∧ (div x y).isFinite ∧
    (div x y).signedUnits * y.signedUnits = x.signedUnits * one then some (div x y) else none

theorem eq_of_addExactly? (h : addExactly? x y = some z) : add x y = z := by
  unfold addExactly? at h
  split at h
  · exact Option.some.inj h
  · cases h

theorem eq_of_mulExactly? (h : mulExactly? x y = some z) : mul x y = z := by
  unfold mulExactly? at h
  split at h
  · exact Option.some.inj h
  · cases h

theorem eq_of_divExactly? (h : divExactly? x y = some z) : div x y = z := by
  unfold divExactly? at h
  split at h
  · exact Option.some.inj h
  · cases h

namespace IsUnits

theorem signedUnits (value : IsUnits x a) : x.signedUnits = a := by
  simp [Binary64.signedUnits, value.positive, value.units]

theorem lt (value : IsUnits x a) : a < 2 ^ (1024 + binaryPlaces) := by
  have place := binaryPlaces_eq
  obtain ⟨k, range, small⟩ := units_lt value.finite
  rw [value.units] at small
  have reach : 53 + k ≤ 1024 + binaryPlaces := by omega
  generalize 1024 + binaryPlaces = bits at reach ⊢
  exact lt_of_lt_of_le small (Nat.pow_le_pow_right two_pos reach)

theorem unique (value : IsUnits x a) (other : IsUnits y a) : x = y :=
  eq_of_units value.finite other.finite (value.positive.trans other.positive.symm)
    (value.units.trans other.units.symm)

theorem more (value : IsUnits x (c * 2 ^ d)) (nonzero : c ≠ 0) :
    (x.isFinite && !x.isZero) = true := by
  have units : x.units ≠ 0 := value.units ▸ Nat.mul_ne_zero nonzero (Nat.two_pow_pos d).ne'
  have proper : x.isZero = false := by
    rw [← Bool.not_eq_true, isZero_iff value.finite]
    exact units
  rw [value.finite, proper, Bool.not_false, Bool.and_true]

theorem addExactly? (left : IsUnits x a) (right : IsUnits y b) (value : IsUnits z c)
    (sum : c = a + b) : addExactly? x y = some z := by
  have exact : x.signedUnits + y.signedUnits = z.signedUnits := by
    rw [left.signedUnits, right.signedUnits, value.signedUnits, sum, Nat.cast_add]
  have result : add x y = z := by
    refine add_eq left.finite right.finite value.finite exact fun _ => ?_
    rw [value.positive, left.positive, Bool.false_and]
  rw [Binary64.addExactly?, result]
  exact if_pos ⟨left.finite, right.finite, value.finite, exact.symm⟩

theorem mulExactly? (left : IsUnits x a) (right : IsUnits y b) (value : IsUnits z c)
    (product : c * one = a * b) : mulExactly? x y = some z := by
  have exact : z.signedUnits * one = x.signedUnits * y.signedUnits := by
    rw [left.signedUnits, right.signedUnits, value.signedUnits]
    exact_mod_cast product
  have result : mul x y = z := by
    refine mul_eq left.finite right.finite value.finite ?_ ?_
    · rw [value.positive, left.positive, right.positive, bne_self_eq_false]
    · rw [left.units, right.units, value.units, product]
  rw [Binary64.mulExactly?, result]
  exact if_pos ⟨left.finite, right.finite, value.finite, exact⟩

theorem divExactly? (left : IsUnits x a) (right : IsUnits y b) (value : IsUnits z c)
    (nonzero : b ≠ 0) (quotient : c * b = a * one) : divExactly? x y = some z := by
  have exact : z.signedUnits * y.signedUnits = x.signedUnits * one := by
    rw [left.signedUnits, right.signedUnits, value.signedUnits]
    exact_mod_cast quotient
  have divisor : y.units ≠ 0 := right.units.symm ▸ nonzero
  have result : div x y = z := by
    refine div_eq left.finite right.finite value.finite ?_ divisor ?_
    · rw [value.positive, left.positive, right.positive, bne_self_eq_false]
    · rw [left.units, right.units, value.units, quotient]
  rw [Binary64.divExactly?, result]
  exact if_pos ⟨left.finite, right.finite, divisor, value.finite, exact⟩

end IsUnits

end IppCode.Binary64
