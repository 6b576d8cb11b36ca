import IppCode.Proofs.Binary64.Rounding
import IppCode.Proofs.Binary64.RoundTrip

/-!
# Scaling with a single rounding

The pieces of a power of two are multiplied one after the other, but none except the last leads to
a number that has to be rounded, unless the result is zero or infinity anyway. So every finite
number is scaled as if by one multiplication (`scaling_rounded_once`).
-/

namespace IppCode.Binary64.Hexadecimal

variable {x y z : Binary64} {e r piece : Int} {c d m n : Nat}

/-- A finite number times a power of two, rounded once. What is not finite stays as it is. -/
def scaledOnce (x : Binary64) (e : Int) : Binary64 :=
  if x.isFinite then ofRatio x.negative (x.units * 2 ^ e.toNat) (2 ^ (-e).toNat) else x

theorem scaledOnce_eq (finite : x.isFinite = true) (exponent : (n : Int) - m = e) :
    scaledOnce x e = ofRatio x.negative (x.units * 2 ^ n) (2 ^ m) := by
  obtain ⟨t, up⟩ : ∃ t, n = e.toNat + t := ⟨n - e.toNat, by omega⟩
  have down : m = (-e).toNat + t := by omega
  rw [scaledOnce, if_pos finite, up, down, pow_add, pow_add, ← mul_assoc,
    ofRatio_mul_right _ _ _ (Nat.two_pow_pos t)]

theorem isNaN_scaledOnce (number : x.isNaN = false) (e : Int) : (scaledOnce x e).isNaN = false := by
  unfold scaledOnce
  split
  · exact isNaN_ofRatio ..
  · exact number

theorem rounded_scaledOnce (finite : x.isFinite = true) (e : Int) :
    Rounded (scaledOnce x e) (x.toRat * 2 ^ e) := by
  have exponent : (e.toNat : Int) - (-e).toNat = e := by omega
  have power : (2 : ℚ) ^ e = 2 ^ e.toNat / 2 ^ (-e).toNat := by
    rw [← zpow_natCast, ← zpow_natCast, ← zpow_sub₀ two_ne_zero, exponent]
  have value : x.toRat * 2 ^ e =
      signOf x.negative * ((x.units * 2 ^ e.toNat : Nat) / (2 ^ (-e).toNat : Nat)) / one := by
    rw [toRat_eq, cast_signedUnits, power, Nat.cast_mul, Nat.cast_pow, Nat.cast_pow]
    generalize (one : ℚ) = unit
    push_cast
    ring
  rw [value, scaledOnce_eq finite exponent]
  exact rounded_ofRatio x.negative (Nat.two_pow_pos _)

theorem scaledOnce_exact (finite : x.isFinite = true) (result : IsUnits z c)
    (scaled : c * 2 ^ m = x.units * 2 ^ n) (exponent : (n : Int) - m = r) :
    (scaledOnce x r).isFinite = true ∧ (scaledOnce x r).negative = x.negative ∧
      (scaledOnce x r).units = c := by
  rw [scaledOnce_eq finite exponent]
  obtain ⟨finite', units⟩ :=
    finite_ofRatio_of_isUnits x.negative result (pow_pos two_pos m) scaled.symm
  exact ⟨finite', negative_ofRatio _, units⟩

theorem scaledOnce_scaledOnce (finite : x.isFinite = true) (result : IsUnits z c)
    (scaled : c * 2 ^ m = x.units * 2 ^ n) (exponent : (n : Int) - m = r) (e : Int) :
    scaledOnce (scaledOnce x r) e = scaledOnce x (r + e) := by
  obtain ⟨finite', sign, units⟩ := scaledOnce_exact finite result scaled exponent
  have numerator : c * 2 ^ e.toNat * 2 ^ m = x.units * 2 ^ (n + e.toNat) := by
    rw [pow_add, ← mul_assoc, ← scaled]
    ring
  rw [scaledOnce_eq (n := e.toNat) (m := (-e).toNat) finite' (by omega), sign, units,
    scaledOnce_eq (n := n + e.toNat) (m := (-e).toNat + m) finite (by omega), ← numerator, pow_add,
    ofRatio_mul_right _ _ _ (Nat.two_pow_pos m)]

theorem scaledOnce_of_overflow (finite : x.isFinite = true)
    (large : 2 ^ (1024 + binaryPlaces) ≤ x.units * 2 ^ n) (exponent : n ≤ e) :
    scaledOnce x e = infinity x.negative := by
  rw [scaledOnce_eq (n := e.toNat) (m := 0) finite (by omega)]
  refine ofRatio_eq_infinity _ ?_
  rw [pow_zero, Nat.div_one]
  exact large.trans (Nat.mul_le_mul_left _ (Nat.pow_le_pow_right two_pos (by omega)))

theorem scaledOnce_of_underflow (finite : x.isFinite = true) (small : x.units < 2 ^ n)
    (exponent : e < -n) : scaledOnce x e = zero x.negative := by
  rw [scaledOnce_eq (n := 0) (m := (-e).toNat) finite (by omega)]
  refine ofRatio_eq_zero _ ?_
  calc 2 * (x.units * 2 ^ 0)
    _ < 2 ^ (n + 1) := by omega
    _ ≤ 2 ^ (-e).toNat := Nat.pow_le_pow_right two_pos (by omega)

theorem scaledOnce_of_zero (finite : x.isFinite = true) (nothing : x.units = 0) (e : Int) :
    scaledOnce x e = x := by
  have same : x = zero x.negative :=
    eq_of_units finite (finite_zero _) rfl (nothing.trans (units_zero _).symm)
  rw [scaledOnce, if_pos finite, nothing, Nat.zero_mul]
  exact (ofRatio_eq_zero _ (Nat.two_pow_pos _)).trans same.symm

theorem scaledOnce_of_stopped (stop : ¬ (x.isFinite && !x.isZero) = true) (e : Int) :
    scaledOnce x e = x := by
  by_cases finite : x.isFinite = true
  · have nothing : x.isZero = true := by simpa [finite] using stop
    exact scaledOnce_of_zero finite ((isZero_iff finite).1 nothing) e
  · rw [scaledOnce, if_neg finite]

theorem scaledOnce_bounded (finite : x.isFinite = true) (e : Int) :
    scaledOnce x (bounded e) = scaledOnce x e := by
  have place := binaryPlaces_eq
  have least : leastExponent = -2147483648 := rfl
  have greatest : greatestExponent = 2147483647 := rfl
  have small := (isUnits_size finite).lt
  by_cases nothing : x.units = 0
  · rw [scaledOnce_of_zero finite nothing, scaledOnce_of_zero finite nothing]
  · have large : 2 ^ (1024 + binaryPlaces) ≤ x.units * 2 ^ (1024 + binaryPlaces) :=
      Nat.le_mul_of_pos_left _ (Nat.pos_of_ne_zero nothing)
    rcases lt_trichotomy e (bounded e) with below | same | above
    · have saturated : bounded e = leastExponent := by unfold bounded at below ⊢; omega
      rw [scaledOnce_of_underflow finite small (by omega),
        scaledOnce_of_underflow finite small (by omega)]
    · rw [← same]
    · have saturated : bounded e = greatestExponent := by unfold bounded at above ⊢; omega
      rw [scaledOnce_of_overflow finite large (by omega),
        scaledOnce_of_overflow finite large (by omega)]

theorem negative_powerOfTwo (r : Int) : (powerOfTwo r).negative = false := by
  unfold powerOfTwo
  split <;> rfl

theorem isNaN_powerOfTwo (r : Int) : (powerOfTwo r).isNaN = false := by
  unfold powerOfTwo
  split <;> exact isNaN_ofRatio ..

theorem isFinite_powerOfTwo (high : r ≤ 1023) : (powerOfTwo r).isFinite = true := by
  have place := binaryPlaces_eq
  by_cases low : -binaryPlaces ≤ r
  · exact (isUnits_piece low high).finite
  · have less : 2 ^ binaryPlaces < 2 ^ (-r).toNat := pow_lt_pow_right₀ one_lt_two (by omega)
    have power : Nat.pow 2 (-r).toNat = 2 ^ (-r).toNat := rfl
    rw [powerOfTwo, if_neg (by omega), power, one_eq]
    refine isFinite_ofRatio _ ?_
    rw [Nat.div_eq_of_lt less, Nat.log2_zero]
    exact Nat.succ_pos _

theorem isZero_powerOfTwo (low : -binaryPlaces ≤ r) : (powerOfTwo r).isZero = false := by
  have place := binaryPlaces_eq
  by_cases high : r ≤ 1023
  · have value := isUnits_piece low high
    rw [← Bool.not_eq_true, isZero_iff value.finite, value.units]
    exact (Nat.two_pow_pos _).ne'
  · have power : Nat.pow 2 r.toNat = 2 ^ r.toNat := rfl
    rw [powerOfTwo, if_pos (by omega), power, one_eq, ofRatio_eq_infinity]
    · rfl
    · rw [Nat.div_one, ← pow_add]
      exact pow_le_pow_right₀ one_le_two (by omega)

theorem mul_powerOfTwo (finite : x.isFinite = true) (low : -binaryPlaces ≤ r) (high : r ≤ 1023) :
    mul x (powerOfTwo r) = scaledOnce x r := by
  have factor := isUnits_piece low high
  rw [mul_of_finite finite factor.finite factor.positive, factor.units, one_eq,
    scaledOnce_eq finite (n := (r + binaryPlaces).toNat) (m := binaryPlaces) (by omega)]

theorem mul_powerOfTwo_of_number (number : x.isNaN = false)
    (low : -binaryPlaces ≤ r ∨ x.isZero = true) (high : r ≤ 1023 ∨ x.isFinite = false) :
    mul x (powerOfTwo r) = scaledOnce x r := by
  by_cases finite : x.isFinite = true
  · have high := high.resolve_right (by simp [finite])
    by_cases nothing : x.units = 0
    · rw [mul_of_finite finite (isFinite_powerOfTwo high) (negative_powerOfTwo r),
        scaledOnce, if_pos finite, nothing, Nat.zero_mul, Nat.zero_mul, ofRatio_eq_zero _ one_pos,
        ofRatio_eq_zero _ (Nat.two_pow_pos _)]
    · rw [← isZero_iff finite] at nothing
      exact mul_powerOfTwo finite (low.resolve_right nothing) high
  · have infinite : x = infinity x.negative :=
      (isInfinite_or_isFinite number).resolve_right finite
    have proper : x.isZero = false := infinite ▸ rfl
    have factor := isZero_powerOfTwo (low.resolve_right (by simp [proper]))
    rw [scaledOnce, if_neg finite, infinite]
    exact infinity_mul _ (isNaN_powerOfTwo r) factor (negative_powerOfTwo r)

/-- The loops that apply a power of two piece by piece, one upwards and one downwards, as the
relation of the number and exponent that they are given to those that they end with. Before each
pass the exponent and the number are tested. What is left of the power is applied afterwards. -/
inductive Passes : Binary64 → Int → Binary64 → Int → Prop where
  | up {x y : Binary64} {e r : Int} (large : 1023 < e) (finite : x.isFinite = true)
      (rest : Passes (mul x (powerOfTwo 1023)) (e - 1023) y r) : Passes x e y r
  | down {x y : Binary64} {e r : Int} (small : e < -1022) (nonzero : x.isZero = false)
      (rest : Passes (mul x (powerOfTwo (-1022))) (e + 1022) y r) : Passes x e y r
  | stop {x : Binary64} {e : Int} (above : e ≤ 1023 ∨ x.isFinite = false)
      (below : -1022 ≤ e ∨ x.isZero = true) : Passes x e x e

theorem exists_passes (x : Binary64) (e : Int) : ∃ y r, Passes x e y r := by
  by_cases up : 1023 < e ∧ x.isFinite = true
  · obtain ⟨y, r, rest⟩ := exists_passes (mul x (powerOfTwo 1023)) (e - 1023)
    exact ⟨y, r, .up up.1 up.2 rest⟩
  · by_cases down : e < -1022 ∧ x.isZero = false
    · obtain ⟨y, r, rest⟩ := exists_passes (mul x (powerOfTwo (-1022))) (e + 1022)
      exact ⟨y, r, .down down.1 down.2 rest⟩
    · rw [not_and_or, not_lt, Bool.not_eq_true] at up
      rw [not_and_or, not_lt, Bool.not_eq_false] at down
      exact ⟨x, e, .stop up down⟩
-- Each pass brings the exponent closer to zero.
termination_by e.natAbs
decreasing_by all_goals omega

/-- Where the loops can be. As long as the exponent is below the range, the number is a significand
in the last place, or one with 1022 zeros behind it. -/
structure Ready (x : Binary64) (e : Int) : Prop where
  number : x.isNaN = false
  staged : e < -1022 → x.isFinite = true ∧
    ∃ c d, c < 2 ^ 53 ∧ (d = 0 ∨ d = 1022) ∧ x.units = c * 2 ^ d

theorem pass_up (finite : x.isFinite = true) (large : 1023 < e) :
    Ready (mul x (powerOfTwo 1023)) (e - 1023) ∧
      scaledOnce (mul x (powerOfTwo 1023)) (e - 1023) = scaledOnce x e := by
  have place := binaryPlaces_eq
  rw [mul_powerOfTwo finite (by omega) le_rfl]
  refine ⟨⟨isNaN_scaledOnce (isNaN_of_finite finite) _, fun small => by omega⟩, ?_⟩
  -- Beyond the greatest number, one multiplication overflows as the whole power does.
  by_cases fits : x.units * 2 ^ 1023 < 2 ^ (1024 + binaryPlaces)
  · obtain ⟨c, d, significand, normal, -, magnitude⟩ := exists_significand finite
    have units := units_eq significand normal magnitude
    have shifted : x.units * 2 ^ 1023 = c * 2 ^ (d + 1023) := by rw [units, pow_add, mul_assoc]
    have bits : 1024 + binaryPlaces = 53 + 2045 := by omega
    obtain ⟨z, result⟩ := exists_isUnits significand (bits ▸ shifted ▸ fits) le_rfl
    rw [← shifted] at result
    rw [scaledOnce_scaledOnce finite result (m := 0) (n := 1023) (by rw [pow_zero, mul_one])
      (by omega), add_sub_cancel]
  · have overflow := not_lt.1 fits
    rw [scaledOnce_of_overflow (e := 1023) finite overflow (by omega),
      scaledOnce_of_overflow (e := e) finite overflow (by omega)]
    exact if_neg Bool.false_ne_true

theorem pass_down (ready : Ready x e) (small : e < -1022) :
    Ready (mul x (powerOfTwo (-1022))) (e + 1022) ∧
      scaledOnce (mul x (powerOfTwo (-1022))) (e + 1022) = scaledOnce x e := by
  have place := binaryPlaces_eq
  obtain ⟨finite, c, d, significand, staged, units⟩ := ready.staged small
  rw [mul_powerOfTwo finite (by omega) (by omega)]
  have number := isNaN_scaledOnce ready.number (-1022)
  -- Without the zeros behind it, the number is so small that its product is zero at once.
  obtain rfl | rfl := staged
  · have less : x.units < 2 ^ 53 := by omega
    have nothing := scaledOnce_of_underflow (e := -1022) finite less (by omega)
    rw [nothing, scaledOnce_of_zero (finite_zero _) (units_zero _),
      scaledOnce_of_underflow finite less (by omega)]
    exact ⟨⟨nothing ▸ number, fun _ => ⟨finite_zero _, 0, 0, by decide, .inl rfl, units_zero _⟩⟩,
      rfl⟩
  · obtain ⟨z, result⟩ := exists_isUnits_normal (c := c) (d := 0) significand (.inl rfl) (by decide)
    rw [pow_zero, mul_one] at result
    have scaled : c * 2 ^ 1022 = x.units * 2 ^ 0 := by rw [units, pow_zero, mul_one]
    obtain ⟨finite', -, units'⟩ :=
      scaledOnce_exact (m := 1022) (n := 0) (r := -1022) finite result scaled (by omega)
    refine ⟨⟨number, fun _ => ⟨finite', c, 0, significand, .inl rfl, ?_⟩⟩, ?_⟩
    · rw [units', pow_zero, mul_one]
    · have exponents : -1022 + (e + 1022) = e := by omega
      rw [scaledOnce_scaledOnce (m := 1022) (n := 0) finite result scaled (by omega), exponents]

theorem Passes.result (passes : Passes x e y r) (ready : Ready x e) :
    mul y (powerOfTwo r) = scaledOnce x e := by
  have place := binaryPlaces_eq
  induction passes with
  | up large finite _ ih =>
    obtain ⟨next, same⟩ := pass_up finite large
    rw [ih next, same]
  | down small _ _ ih =>
    obtain ⟨next, same⟩ := pass_down ready small
    rw [ih next, same]
  | stop above below =>
    exact mul_powerOfTwo_of_number ready.number (below.imp_left (by omega)) above

def IsPiece (piece e : Int) : Prop := piece = 1023 ∧ 1023 < e ∨ piece = -1022 ∧ e < -1022

theorem pass (due : IsPiece piece e) (ready : Ready x e) (finite : x.isFinite = true) :
    Ready (mul x (powerOfTwo piece)) (e - piece) ∧
      scaledOnce (mul x (powerOfTwo piece)) (e - piece) = scaledOnce x e := by
  obtain ⟨rfl, large⟩ | ⟨rfl, small⟩ := due
  · exact pass_up finite large
  · rw [sub_neg_eq_add]
    exact pass_down ready small

theorem repeatScaling_once (piece : Int) (times : Nat)
    (pieces : ∀ i < times, IsPiece piece (e - piece * i)) (ready : Ready x e) :
    (repeatScaling (powerOfTwo piece) times x).isNaN = false ∧
      scaledOnce (repeatScaling (powerOfTwo piece) times x) (e - piece * times) =
        scaledOnce x e := by
  induction times generalizing x e with
  | zero => exact ⟨ready.number, by simp [repeatScaling]⟩
  | succ times ih =>
    rw [repeatScaling]
    split
    · rename_i more
      rw [Bool.and_eq_true] at more
      have first : IsPiece piece e := by simpa using pieces 0 (Nat.succ_pos times)
      obtain ⟨next, same⟩ := pass first ready more.1
      have later (k : Nat) : e - piece - piece * k = e - piece * (k + 1 : Nat) := by
        push_cast
        ring
      rw [← same, ← later]
      refine ih (fun i less => ?_) next
      rw [later]
      exact pieces (i + 1) (Nat.succ_lt_succ less)
    · rename_i stop
      exact ⟨ready.number, by rw [scaledOnce_of_stopped stop, scaledOnce_of_stopped stop]⟩

theorem applyPower_once (ready : Ready x e) : applyPower x e = scaledOnce x e := by
  have place := binaryPlaces_eq
  unfold applyPower
  split
  · rename_i large
    obtain ⟨number, same⟩ := repeatScaling_once 1023 ((e.toNat - 1) / 1023)
      (fun i less => .inl ⟨rfl, by omega⟩) ready
    rw [← same]
    exact mul_powerOfTwo_of_number number (.inl (by omega)) (.inl (by omega))
  · split
    · rename_i small
      obtain ⟨number, same⟩ := repeatScaling_once (-1022) (((-e).toNat - 1) / 1022)
        (fun i less => .inr ⟨rfl, by omega⟩) ready
      rw [← same, neg_mul, sub_neg_eq_add]
      exact mul_powerOfTwo_of_number number (.inl (by omega)) (.inl (by omega))
    · exact mul_powerOfTwo_of_number ready.number (.inl (by omega)) (.inl (by omega))

theorem ready_normalized (finite : x.isFinite = true) (e : Int) :
    Ready (normalized x) e ∧ scaledOnce (normalized x) (e + normalShift x) = scaledOnce x e := by
  obtain ⟨c, d, significand, normal, range, magnitude⟩ := exists_significand finite
  have units := units_eq significand normal magnitude
  have biased := biasedExponent_eq significand normal magnitude
  have place := binaryPlaces_eq
  by_cases large : leadingBit ≤ c
  · obtain ⟨isNormal, shift⟩ := normalShift_of_large finite large biased
    obtain ⟨z, result⟩ := exists_isUnits_normal (d := 1022) significand (.inr large) (by decide)
    have scaled : c * 2 ^ 1022 * 2 ^ d = x.units * 2 ^ 1022 := by rw [units, mul_right_comm]
    have exponent : ((1022 : Nat) : Int) - d = -normalShift x := by omega
    obtain ⟨finite', -, units'⟩ := scaledOnce_exact finite result scaled exponent
    rw [normalized, if_pos isNormal, mul_powerOfTwo finite (by omega) (by omega)]
    refine ⟨⟨isNaN_of_finite finite', fun _ => ⟨finite', c, 1022, significand, .inr rfl, units'⟩⟩,
      ?_⟩
    rw [scaledOnce_scaledOnce finite result scaled exponent, neg_add_cancel_comm_assoc]
  · obtain ⟨subnormal, shift⟩ := normalShift_of_small (not_le.1 large) biased
    obtain rfl : d = 0 := normal.resolve_right large
    have same : normalized x = x := by simp [normalized, subnormal]
    rw [same, shift, add_zero]
    exact ⟨⟨isNaN_of_finite finite, fun _ => ⟨finite, c, 0, significand, .inl rfl, units⟩⟩, rfl⟩

theorem scaleByPowerOfTwo_once (finite : x.isFinite = true) (e : Int) :
    scaleByPowerOfTwo x e = scaledOnce x e := by
  have ready (k : Int) : Ready (normalized x) k := (ready_normalized finite k).1
  have bound : scaledOnce (normalized x) (bounded (e + normalShift x)) =
      scaledOnce (normalized x) (e + normalShift x) :=
    scaledOnce_bounded ((ready (-1023)).staged (by decide)).1 _
  rw [scaleByPowerOfTwo_eq, applyPower_once (ready _), bound, (ready_normalized finite e).2]

/-- Every finite number times any power of two is rounded to nearest, with ties to even and with
overflow to infinity, and is never a NaN. That the exponent is kept within bounds makes no
difference. The loops end, with a number and an exponent that lead to the result. -/
theorem scaling_rounded_once (finite : x.isFinite = true) (e : Int) :
    Rounded (scaleByPowerOfTwo x e) (x.toRat * 2 ^ e) ∧
      (scaleByPowerOfTwo x e).negative = x.negative ∧ (scaleByPowerOfTwo x e).isNaN = false ∧
      scaleByPowerOfTwo x e = applyPower (normalized x) (e + normalShift x) ∧
      (∃ y r, Passes (normalized x) (bounded (e + normalShift x)) y r) ∧
      ∀ y r, Passes (normalized x) (bounded (e + normalShift x)) y r →
        mul y (powerOfTwo r) = scaleByPowerOfTwo x e := by
  have ready (k : Int) : Ready (normalized x) k := (ready_normalized finite k).1
  have once : applyPower (normalized x) (e + normalShift x) = scaledOnce x e := by
    rw [applyPower_once (ready _), (ready_normalized finite e).2]
  have loops (y : Binary64) (r : Int)
      (passes : Passes (normalized x) (bounded (e + normalShift x)) y r) :
      mul y (powerOfTwo r) = scaleByPowerOfTwo x e := by
    rw [passes.result (ready _), ← applyPower_once (ready _), scaleByPowerOfTwo_eq]
  refine ⟨?_, ?_, ?_, ?_, exists_passes _ _, loops⟩
  · rw [scaleByPowerOfTwo_once finite]
    exact rounded_scaledOnce finite e
  · rw [scaleByPowerOfTwo_once finite, scaledOnce, if_pos finite, negative_ofRatio]
  · rw [scaleByPowerOfTwo_once finite]
    exact isNaN_scaledOnce (isNaN_of_finite finite) e
  · rw [scaleByPowerOfTwo_once finite, once]

/-- A number a little above half the least one, with a bit that rounding twice would lose. -/
theorem scaling_rounded_once_half :
    (ofBits 0x3FF0000000000001).isFinite = true ∧
      scaleByPowerOfTwo (ofBits 0x3FF0000000000001) (-1075) = ofBits 1 ∧
      Rounded (ofBits 1) ((ofBits 0x3FF0000000000001).toRat * 2 ^ (-1075 : ℤ)) := by
  have finite : (ofBits 0x3FF0000000000001).isFinite = true := by decide
  have result : scaleByPowerOfTwo (ofBits 0x3FF0000000000001) (-1075) = ofBits 1 := by
    decide +kernel
  exact ⟨finite, result, result ▸ (scaling_rounded_once finite (-1075)).1⟩

end IppCode.Binary64.Hexadecimal
