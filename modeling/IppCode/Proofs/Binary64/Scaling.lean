import IppCode.Binary64.Hexadecimal
import IppCode.Proofs.Binary64.Exact

/-!
# Exact scaling

A number that is multiplied by a power of two and stays a number is scaled without any rounding
(`scaleExactly?_eq`): the normal numbers are brought between one and two, and every piece of the
power leads to a number again.
-/

namespace IppCode.Binary64.Hexadecimal

variable {x y z : Binary64} {a c d k m n times : Nat} {e : Int}

theorem exists_isUnits_power (range : k ≤ 2097) : ∃ x, IsUnits x (2 ^ k) := by
  have small : 1 * 2 ^ k < 2 ^ (53 + (k - 52)) := by
    rw [one_mul]
    exact Nat.pow_lt_pow_right (by decide) (by omega)
  simpa using exists_isUnits (by decide) small (by omega)

theorem isUnits_powerOfTwo (exponent : e + binaryPlaces = k) (range : k ≤ 2097) :
    IsUnits (powerOfTwo e) (2 ^ k) := by
  have place := binaryPlaces_eq
  have power (k : Nat) : Nat.pow 2 k = 2 ^ k := rfl
  obtain ⟨z, value⟩ := exists_isUnits_power range
  unfold powerOfTwo
  split
  · refine isUnits_ofRatio value Nat.one_pos ?_
    rw [power, one_eq, mul_one, ← pow_add]
    congr 1
    omega
  · refine isUnits_ofRatio value (Nat.two_pow_pos _) ?_
    rw [power, one_eq, ← pow_add]
    congr 1
    omega

theorem isUnits_piece (low : -binaryPlaces ≤ e) (high : e ≤ 1023) :
    IsUnits (powerOfTwo e) (2 ^ (e + binaryPlaces).toNat) := by
  have place := binaryPlaces_eq
  exact isUnits_powerOfTwo (by omega) (by omega)

theorem rebalance {m' n' : Nat} (scaled : c * 2 ^ m = a * 2 ^ n) (same : m + n' = m' + n) :
    c * 2 ^ m' = a * 2 ^ n' := by
  refine Nat.eq_of_mul_eq_mul_right (Nat.two_pow_pos m) ?_
  calc c * 2 ^ m' * 2 ^ m
    _ = c * 2 ^ m * 2 ^ m' := by ring
    _ = a * 2 ^ (m' + n) := by rw [scaled, pow_add]; ring
    _ = a * 2 ^ n' * 2 ^ m := by rw [← same, pow_add]; ring

theorem ne_zero_of_scaled (scaled : c * 2 ^ m = a * 2 ^ n) (nonzero : a ≠ 0) :
    c ≠ 0 := by
  rintro rfl
  rw [Nat.zero_mul] at scaled
  exact nonzero ((Nat.mul_eq_zero.1 scaled.symm).resolve_right (Nat.two_pow_pos n).ne')

theorem exponent_lt (scaled : c * 2 ^ m = a * 2 ^ n) (nonzero : c ≠ 0)
    (bound : a < 2 ^ k) : m < k + n := by
  refine (Nat.pow_lt_pow_iff_right (a := 2) (by decide)).1 ?_
  calc 2 ^ m
    _ ≤ c * 2 ^ m := Nat.le_mul_of_pos_left _ (Nat.pos_of_ne_zero nonzero)
    _ = a * 2 ^ n := scaled
    _ < 2 ^ k * 2 ^ n := Nat.mul_lt_mul_of_pos_right bound (Nat.two_pow_pos n)
    _ = 2 ^ (k + n) := (pow_add 2 k n).symm

def isNormal (x : Binary64) : Bool := decide (x.biasedExponent ≠ 0) && x.isFinite

def normalShift (x : Binary64) : Int := if isNormal x then (x.biasedExponent : Int) - 1023 else 0

def normalized (x : Binary64) : Binary64 :=
  if isNormal x then mul x (powerOfTwo (-normalShift x)) else x

def bounded (exponent : Int) : Int := max leastExponent (min exponent greatestExponent)

def applyPower (x : Binary64) (exponent : Int) : Binary64 :=
  if 1023 < exponent then
    let times := (exponent.toNat - 1) / 1023
    mul (repeatScaling (powerOfTwo 1023) times x) (powerOfTwo (exponent - 1023 * times))
  else if exponent < -1022 then
    let times := ((-exponent).toNat - 1) / 1022
    mul (repeatScaling (powerOfTwo (-1022)) times x) (powerOfTwo (exponent + 1022 * times))
  else mul x (powerOfTwo exponent)

theorem scaleByPowerOfTwo_eq :
    scaleByPowerOfTwo x e = applyPower (normalized x) (bounded (e + normalShift x)) := rfl

def normalizedExactly? (x : Binary64) : Option Binary64 :=
  if isNormal x then mulExactly? x (powerOfTwo (-normalShift x)) else some x

def repeatScalingExactly? (factor : Binary64) : Nat → Binary64 → Option Binary64
  | 0, x => some x
  | times + 1, x =>
    if x.isFinite && !x.isZero then do
      let product ← mulExactly? x factor
      repeatScalingExactly? factor times product
    else some x

def applyPowerExactly? (x : Binary64) (exponent : Int) : Option Binary64 :=
  if 1023 < exponent then do
    let times := (exponent.toNat - 1) / 1023
    let power ← repeatScalingExactly? (powerOfTwo 1023) times x
    mulExactly? power (powerOfTwo (exponent - 1023 * times))
  else if exponent < -1022 then do
    let times := ((-exponent).toNat - 1) / 1022
    let power ← repeatScalingExactly? (powerOfTwo (-1022)) times x
    mulExactly? power (powerOfTwo (exponent + 1022 * times))
  else mulExactly? x (powerOfTwo exponent)

/-- As `scaleByPowerOfTwo`, if none of the multiplications rounds. -/
def scaleExactly? (x : Binary64) (exponent : Int) : Option Binary64 := do
  let one ← normalizedExactly? x
  applyPowerExactly? one (bounded (exponent + normalShift x))

theorem eq_of_repeatScalingExactly? {factor : Binary64}
    (h : repeatScalingExactly? factor times x = some z) : repeatScaling factor times x = z := by
  induction times generalizing x with
  | zero => exact Option.some.inj h
  | succ times ih =>
    rw [repeatScalingExactly?] at h
    rw [repeatScaling]
    split at h
    · rename_i more
      obtain ⟨product, first, rest⟩ := Option.bind_eq_some_iff.1 h
      rw [if_pos more, eq_of_mulExactly? first, ih rest]
    · rename_i stop
      rw [if_neg stop, Option.some.inj h]

theorem eq_of_applyPowerExactly? (h : applyPowerExactly? x e = some z) : applyPower x e = z := by
  unfold applyPowerExactly? at h
  unfold applyPower
  split at h
  · rename_i large
    obtain ⟨power, repeated, last⟩ := Option.bind_eq_some_iff.1 h
    simp only [if_pos large, eq_of_repeatScalingExactly? repeated, eq_of_mulExactly? last]
  · rename_i moderate
    rw [if_neg moderate]
    split at h
    · rename_i small
      obtain ⟨power, repeated, last⟩ := Option.bind_eq_some_iff.1 h
      simp only [if_pos small, eq_of_repeatScalingExactly? repeated, eq_of_mulExactly? last]
    · rename_i large
      rw [if_neg large, eq_of_mulExactly? h]

theorem eq_of_scaleExactly? (h : scaleExactly? x e = some z) : scaleByPowerOfTwo x e = z := by
  unfold scaleExactly? at h
  obtain ⟨y, first, rest⟩ := Option.bind_eq_some_iff.1 h
  have same : normalized x = y := by
    unfold normalizedExactly? at first
    unfold normalized
    split at first
    · rename_i normal
      rw [if_pos normal, eq_of_mulExactly? first]
    · rename_i subnormal
      rw [if_neg subnormal, Option.some.inj first]
  rw [scaleByPowerOfTwo_eq, same, eq_of_applyPowerExactly? rest]

theorem repeatScalingExactly?_zero {factor : Binary64} (zero : IsUnits x 0) :
    repeatScalingExactly? factor times x = some x := by
  have stop : x.isZero = true := (isZero_iff zero.finite).2 zero.units
  cases times with
  | zero => rfl
  | succ times => simp [repeatScalingExactly?, stop]

theorem repeatScalingExactly?_up (value : IsUnits x (c * 2 ^ d)) (significand : c < 2 ^ 53)
    (nonzero : c ≠ 0) (small : c * 2 ^ (d + 1023 * times) < 2 ^ (53 + k)) (range : k ≤ 2045) :
    ∃ y, repeatScalingExactly? (powerOfTwo 1023) times x = some y ∧
      IsUnits y (c * 2 ^ (d + 1023 * times)) := by
  induction times generalizing x d with
  | zero => exact ⟨x, rfl, value⟩
  | succ times ih =>
    have exponents : d + 1023 + 1023 * times = d + 1023 * (times + 1) := by ring
    rw [← exponents] at small ⊢
    have less : c * 2 ^ (d + 1023) < 2 ^ (53 + k) := by
      refine lt_of_le_of_lt (Nat.mul_le_mul_left c ?_) small
      exact Nat.pow_le_pow_right (by decide) (by omega)
    obtain ⟨y, product⟩ := exists_isUnits significand less range
    have factor : IsUnits (powerOfTwo 1023) (2 ^ (1023 + binaryPlaces)) :=
      isUnits_powerOfTwo (by omega) (by rw [binaryPlaces_eq])
    have first : mulExactly? x (powerOfTwo 1023) = some y := by
      refine value.mulExactly? factor product ?_
      rw [one_eq, mul_assoc, mul_assoc, ← pow_add, ← pow_add, Nat.add_assoc]
    obtain ⟨w, rest, result⟩ := ih product small
    refine ⟨w, ?_, result⟩
    rw [repeatScalingExactly?, if_pos (value.more nonzero), first]
    exact rest

theorem applyPowerExactly?_zero (zero : IsUnits x 0) : applyPowerExactly? x e = some x := by
  have place := binaryPlaces_eq
  have last {rest : Int} (low : -binaryPlaces ≤ rest) (high : rest ≤ 1023) :
      mulExactly? x (powerOfTwo rest) = some x :=
    zero.mulExactly? (isUnits_piece low high) zero (by rw [Nat.zero_mul, Nat.zero_mul])
  unfold applyPowerExactly?
  split
  · simp only [repeatScalingExactly?_zero zero]
    exact last (by omega) (by omega)
  · split
    · simp only [repeatScalingExactly?_zero zero]
      exact last (by omega) (by omega)
    · exact last (by omega) (by omega)

theorem applyPowerExactly?_eq (value : IsUnits y (a * 2 ^ d)) (significand : a < 2 ^ 53)
    (nonzero : a ≠ 0) (place : d = 0 ∨ d = 1022) (result : IsUnits z c)
    (scaled : c * 2 ^ m = a * 2 ^ n) (exponent : (n : Int) - m = d + e) :
    applyPowerExactly? y e = some z := by
  have unit := binaryPlaces_eq
  obtain ⟨k, range, small⟩ := units_lt result.finite
  rw [result.units] at small
  have last {w : Binary64} {j i : Nat} {rest : Int} (reached : IsUnits w (a * 2 ^ j))
      (exponent : rest + binaryPlaces = i) (range : i ≤ 2097)
      (left : m + (j + i) = binaryPlaces + n) : mulExactly? w (powerOfTwo rest) = some z := by
    refine reached.mulExactly? (isUnits_powerOfTwo exponent range) result ?_
    rw [one_eq, rebalance scaled left, pow_add]
    ring
  unfold applyPowerExactly?
  split
  · rename_i large
    have least : a * 2 ^ (d + 1023 * ((e.toNat - 1) / 1023)) < 2 ^ (53 + k) := by
      refine lt_of_le_of_lt ?_ small
      have whole : c * 2 ^ 0 = a * 2 ^ (d + e.toNat) := rebalance scaled (by omega)
      rw [← mul_one c, ← pow_zero 2, whole]
      exact Nat.mul_le_mul_left a (Nat.pow_le_pow_right (by decide) (by omega))
    obtain ⟨w, repeated, reached⟩ := repeatScalingExactly?_up value significand nonzero least range
    simp only [repeated]
    exact last (i := (e - 1023 * ((e.toNat - 1) / 1023 : Nat) + binaryPlaces).toNat) reached
      (by omega) (by omega) (by omega)
  · split
    · rename_i large small
      -- The result is at least one unit, so a single piece is enough.
      have whole : c * 2 ^ (-e).toNat = a * 2 ^ d := rebalance scaled (by omega)
      have exponents := exponent_lt whole (ne_zero_of_scaled scaled nonzero) significand
      have high : d = 1022 := by omega
      have once : ((-e).toNat - 1) / 1022 = 1 := by omega
      obtain ⟨w, reached⟩ :=
        exists_isUnits_normal (c := a) (d := 0) significand (.inl rfl) (by decide)
      have factor : IsUnits (powerOfTwo (-1022)) (2 ^ 52) :=
        isUnits_powerOfTwo (by omega) (by decide)
      have first : mulExactly? y (powerOfTwo (-1022)) = some w := by
        refine value.mulExactly? factor reached ?_
        rw [one_eq, high, mul_assoc, mul_assoc, ← pow_add, ← pow_add]
        congr 2
      have repeated : repeatScalingExactly? (powerOfTwo (-1022)) 1 y = some w := by
        rw [repeatScalingExactly?, if_pos (value.more nonzero), first]
        rfl
      simp only [once, repeated]
      exact last (i := (e + 1022 * (1 : Nat) + binaryPlaces).toNat) reached (by omega) (by omega)
        (by omega)
    · exact last (i := (e + binaryPlaces).toNat) value (by omega) (by omega) (by omega)

theorem bounded_eq (low : leastExponent ≤ e) (high : e ≤ greatestExponent) : bounded e = e := by
  unfold bounded
  omega

theorem normalShift_of_large (finite : x.isFinite = true) (large : leadingBit ≤ c)
    (biased : x.biasedExponent = if c < leadingBit then 0 else d + 1) :
    isNormal x = true ∧ normalShift x = (d : Int) - 1022 := by
  have isNormal : isNormal x = true := by simp [isNormal, biased, not_lt.2 large, finite]
  refine ⟨isNormal, ?_⟩
  simp only [normalShift, isNormal, biased, not_lt.2 large, if_true, if_false]
  omega

theorem normalShift_of_small (small : c < leadingBit)
    (biased : x.biasedExponent = if c < leadingBit then 0 else d + 1) :
    isNormal x = false ∧ normalShift x = 0 := by
  have subnormal : isNormal x = false := by simp [isNormal, biased, small]
  exact ⟨subnormal, by simp [normalShift, subnormal]⟩

theorem normalizedExactly?_eq (value : IsUnits x (c * 2 ^ d)) (significand : c < 2 * leadingBit)
    (normal : d = 0 ∨ leadingBit ≤ c) (range : d ≤ 2045)
    (biased : x.biasedExponent = if c < leadingBit then 0 else d + 1) :
    ∃ y, ∃ k : Nat, normalizedExactly? x = some y ∧ IsUnits y (c * 2 ^ k) ∧
      (k = 0 ∨ k = 1022) ∧ k + normalShift x = d := by
  have unit := binaryPlaces_eq
  by_cases large : leadingBit ≤ c
  · obtain ⟨isNormal, shift⟩ := normalShift_of_large value.finite large biased
    obtain ⟨y, reached⟩ := exists_isUnits_normal (d := 1022) significand (.inr large) (by decide)
    have factor : IsUnits (powerOfTwo (-normalShift x)) (2 ^ (2096 - d)) :=
      isUnits_powerOfTwo (by omega) (by omega)
    refine ⟨y, 1022, ?_, reached, .inr rfl, by omega⟩
    rw [normalizedExactly?, if_pos isNormal]
    refine value.mulExactly? factor reached ?_
    rw [one_eq, mul_assoc, mul_assoc, ← pow_add, ← pow_add]
    congr 2
    omega
  · obtain ⟨subnormal, shift⟩ := normalShift_of_small (not_le.1 large) biased
    obtain rfl : d = 0 := normal.resolve_right large
    refine ⟨x, 0, ?_, value, .inl rfl, ?_⟩
    · simp [normalizedExactly?, subnormal]
    · rw [shift, Nat.cast_zero, add_zero]

theorem scaleExactly?_eq (value : IsUnits x a) (result : IsUnits z c)
    (scaled : c * 2 ^ m = a * 2 ^ n) (exponent : (n : Int) - m = e) :
    scaleExactly? x e = some z := by
  have unit := binaryPlaces_eq
  have least : leastExponent = -2147483648 := rfl
  have greatest : greatestExponent = 2147483647 := rfl
  obtain ⟨s, d, significand, normal, range, magnitude⟩ := exists_significand value.finite
  obtain rfl : a = s * 2 ^ d := value.units.symm.trans (units_eq significand normal magnitude)
  obtain ⟨y, place, first, reached, places, shift⟩ := normalizedExactly?_eq value significand normal
    range (biasedExponent_eq significand normal magnitude)
  rw [mul_assoc, ← pow_add] at scaled
  simp only [scaleExactly?, first]
  by_cases zero : s = 0
  · rw [zero, Nat.zero_mul] at reached scaled
    have nothing : c = 0 := (Nat.mul_eq_zero.1 scaled).resolve_right (Nat.two_pow_pos m).ne'
    have same : y = z := reached.unique (nothing ▸ result)
    exact (applyPowerExactly?_zero reached).trans (congrArg some same)
  · -- The result is neither too small nor too large for the exponent to leave its bounds.
    obtain ⟨k, small, below⟩ := units_lt result.finite
    rw [result.units] at below
    have under := exponent_lt (k := 53) scaled (ne_zero_of_scaled scaled zero) significand
    have beyond := exponent_lt scaled.symm zero below
    refine (congrArg (applyPowerExactly? y) (bounded_eq (by omega) (by omega))).trans ?_
    exact applyPowerExactly?_eq reached significand zero places result scaled (by omega)

end IppCode.Binary64.Hexadecimal
