import IppCode.Proofs.Binary64.Nearest

/-!
# Rounding with overflow

What rounding does to any value: the nearest number up to the middle between the greatest number
and the next power of two, and infinity from there on (`rounded_ofRatio`). It depends on the value
of a ratio only (`ofRatio_mul_right`).
-/

namespace IppCode.Binary64

variable {x : Binary64} {a b c k q : Nat}

theorem roundQuotient_mul_right (a b : Nat) (positive : 0 < k) :
    roundQuotient (a * k) (b * k) = roundQuotient a b := by
  have less : 2 * (a % b * k) < b * k ↔ 2 * (a % b) < b := by
    rw [← mul_assoc, Nat.mul_lt_mul_right positive]
  have greater : b * k < 2 * (a % b * k) ↔ b < 2 * (a % b) := by
    rw [← mul_assoc, Nat.mul_lt_mul_right positive]
  simp only [roundQuotient, Nat.mul_div_mul_right _ _ positive, Nat.mul_mod_mul_right, less,
    greater]

theorem ofRatio_mul_right (negative : Bool) (a b : Nat) (positive : 0 < k) :
    ofRatio negative (a * k) (b * k) = ofRatio negative a b := by
  refine ext rfl ?_
  have power (s : Nat) : b * k * Nat.pow 2 s = b * Nat.pow 2 s * k := Nat.mul_right_comm _ _ _
  simp only [magnitude_ofRatio, nearestMagnitude, Nat.mul_div_mul_right _ _ positive, power,
    roundQuotient_mul_right _ _ positive]

theorem roundQuotient_le_iff (positive : 0 < b) (odd : q % 2 = 1) :
    roundQuotient a b ≤ q ↔ 2 * a < (2 * q + 1) * b := by
  obtain ⟨rounding, tie⟩ := roundQuotient_cases a b
  have small := Nat.mod_lt a positive
  have parts := Nat.div_add_mod a b
  -- In the middle between `q` and the next number, the even one is taken.
  rcases lt_trichotomy (a / b) q with below | same | above
  · have next : b * (a / b) + b ≤ b * q := Nat.mul_le_mul_left b below
    have double : (2 * q + 1) * b = 2 * (b * q) + b := by ring
    omega
  · have double : (2 * q + 1) * b = 2 * (b * (a / b)) + b := by rw [same]; ring
    omega
  · have next : b * q + b ≤ b * (a / b) := Nat.mul_le_mul_left b above
    have double : (2 * q + 1) * b = 2 * (b * q) + b := by ring
    omega

theorem isFinite_ofRatio_iff (negative : Bool) (positive : 0 < b) :
    (ofRatio negative a b).isFinite = true ↔
      2 * a < (2 ^ 54 - 1) * (b * 2 ^ (971 + binaryPlaces)) := by
  have place := binaryPlaces_eq
  have order (k s : Nat) : 2 ^ (k + s) * b = 2 ^ k * (b * 2 ^ s) := by ring
  have less {k : Nat} (below : Nat.log2 (a / b) < k) : a / b < 2 ^ k :=
    Nat.lt_log2_self.trans_le (Nat.pow_le_pow_right two_pos below)
  -- Only in the last binade are there numbers on one side and infinity on the other.
  rcases lt_trichotomy (Nat.log2 (a / b)) (52 + (971 + binaryPlaces)) with below | last | above
  · refine iff_of_true (isFinite_ofRatio negative (by omega)) ?_
    have small := less below
    rw [Nat.div_lt_iff_lt_mul positive, order] at small
    omega
  · have shift : Nat.log2 (a / b) - 52 = 971 + binaryPlaces := by omega
    have scaled : 0 < b * 2 ^ (971 + binaryPlaces) := Nat.mul_pos positive (Nat.two_pow_pos _)
    have bound := roundQuotient_le_iff (a := a) (q := 2 ^ 53 - 1) scaled (by decide)
    have power (k : Nat) : Nat.pow 2 k = 2 ^ k := rfl
    rw [isFinite, decide_eq_true_iff, magnitude_ofRatio, nearestMagnitude, shift, power]
    simp only [leadingBit, infinityMagnitude] at *
    omega
  · have nonzero : a / b ≠ 0 := fun zero => by simp [zero] at above
    have large : 2 ^ (53 + (971 + binaryPlaces)) ≤ a / b := (Nat.le_log2 nonzero).1 (by omega)
    have bits : 1024 + binaryPlaces = 53 + (971 + binaryPlaces) := by omega
    have overflow : ofRatio negative a b = infinity negative := by
      apply ofRatio_eq_infinity
      rwa [bits]
    rw [Nat.le_div_iff_mul_le positive, order] at large
    refine iff_of_false ?_ (by omega)
    rw [overflow]
    exact Bool.false_ne_true

/-- The middle between the greatest number, which is `(2 ^ 53 - 1) * 2 ^ 971`, and `2 ^ 1024`. -/
def overflowBound : ℚ := (2 ^ 53 - 1 / 2) * 2 ^ 971

structure Rounded (x : Binary64) (v : ℚ) : Prop where
  nearest : |v| < overflowBound → Nearest x v
  overflow : overflowBound ≤ |v| → x = infinity (decide (v < 0))

theorem overflowBound_pos : 0 < overflowBound :=
  mul_pos (by norm_num) (pow_pos two_pos _)

theorem ratio_lt_overflowBound_iff (positive : 0 < b) :
    (a : ℚ) / b / one < overflowBound ↔
      2 * a < (2 ^ 54 - 1) * (b * 2 ^ (971 + binaryPlaces)) := by
  have divisor : (0 : ℚ) < b := by exact_mod_cast positive
  have power : ((2 ^ (971 + binaryPlaces) : Nat) : ℚ) = 2 ^ 971 * one := by
    rw [pow_add, ← one_eq, Nat.cast_mul, Nat.cast_pow, Nat.cast_ofNat]
  have factor : ((2 ^ 54 - 1 : Nat) : ℚ) = 2 * (2 ^ 53 - 1 / 2) := by norm_num
  have bound : ((2 ^ 54 - 1 : Nat) : ℚ) * (b * (2 ^ (971 + binaryPlaces) : Nat)) =
      2 * (overflowBound * one * b) := by
    rw [power, factor, overflowBound]
    generalize (2 : ℚ) ^ 971 = unit
    ring
  rw [div_lt_iff₀ cast_one_pos, div_lt_iff₀ divisor, ← Nat.cast_lt (α := ℚ), Nat.cast_mul,
    Nat.cast_mul, Nat.cast_mul, bound]
  exact (mul_lt_mul_iff_right₀ two_pos).symm

theorem isNaN_ofRatio (negative : Bool) (a b : Nat) : (ofRatio negative a b).isNaN = false :=
  decide_eq_false (Nat.min_le_right _ _).not_gt

theorem infinity_of_not_finite (negative : Bool)
    (infinite : ¬ (ofRatio negative a b).isFinite = true) :
    ofRatio negative a b = infinity negative := by
  rw [isFinite, decide_eq_true_iff, not_lt, magnitude_ofRatio] at infinite
  exact ext rfl ((Nat.min_le_right _ _).antisymm infinite)

theorem decide_neg_of_signOf {v : ℚ} (negative : Bool) (positive : 0 < v) :
    decide (signOf negative * v < 0) = negative := by
  cases negative <;> simp [signOf, positive, positive.le]

theorem rounded_ofRatio (negative : Bool) (positive : 0 < b) :
    Rounded (ofRatio negative a b) (signOf negative * (a / b) / one) := by
  have finite := isFinite_ofRatio_iff (a := a) negative positive
  have nearest := nearest_ofRatio (a := a) negative positive
  have nonneg : (0 : ℚ) ≤ a / b / one :=
    div_nonneg (div_nonneg (Nat.cast_nonneg _) (Nat.cast_nonneg _)) cast_one_pos.le
  rw [← ratio_lt_overflowBound_iff positive] at finite
  rw [mul_div_assoc] at nearest ⊢
  generalize (a : ℚ) / b / one = v at *
  have size : |signOf negative * v| = v := by
    rw [abs_mul, abs_signOf, one_mul, abs_of_nonneg nonneg]
  constructor
  · intro below
    exact nearest (finite.2 (size ▸ below))
  · intro above
    rw [size] at above
    rw [infinity_of_not_finite negative fun number => (finite.1 number).not_ge above,
      decide_neg_of_signOf negative (overflowBound_pos.trans_le above)]

end IppCode.Binary64
