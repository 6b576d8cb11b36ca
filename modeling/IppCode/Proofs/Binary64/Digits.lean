import IppCode.Proofs.Binary64.Nearest
import IppCode.Proofs.Binary64.RoundTrip
import IppCode.Proofs.Binary64.Spelling

/-!
# How many digits are read exactly

The digits are gathered before the exponent is applied, so it does not bring back what the range of
the type has cut off before. Each place is worth a sixteenth of the one before it until nothing is
left (`isUnits_placeValue`, `placeValue_of_many`), and digits before the point that are too large
become infinite for good (`Numeral.value?_of_large`). A text whose value is a number is read as that
number just if neither happens to its digits (`representable_read_iff`).
-/

namespace IppCode.Binary64.Hexadecimal

open Text

variable {numeral : Numeral} {x y z value : Binary64} {text : List Char} {c : Char}
variable {a b d k m n s : Nat}

def digitsValue (digits : List Char) : Nat := (hexValue? 0 digits).getD 0

/-- The digits, each place a sixteenth of the one before it, times a power of two. -/
def Numeral.toRat (numeral : Numeral) : ℚ :=
  signOf numeral.negative * digitsValue (numeral.whole ++ numeral.places) *
    (2 : ℚ) ^ (numeral.exponent - 4 * numeral.places.length)

/-- The digits before the point are less than the first power of two beyond the numbers, and those
after the last place that is worth anything are zeros. -/
structure Numeral.Gathered (numeral : Numeral) : Prop where
  whole : digitsValue numeral.whole < 2 ^ 1024
  places : ∀ c ∈ numeral.places.drop 268, hexDigitValue? c = some 0

theorem Spells.hexValue? (spells : Spells numeral text) :
    ∃ m n, Text.hexValue? 0 numeral.whole = some m ∧ Text.hexValue? m numeral.places = some n := by
  obtain ⟨m, whole⟩ := exists_hexValue? 0 spells.whole
  obtain ⟨n, places⟩ := exists_hexValue? m spells.places
  exact ⟨m, n, whole, places⟩

theorem digitsValue_eq (digits : hexValue? 0 text = some n) : digitsValue text = n := by
  rw [digitsValue, digits, Option.getD_some]

theorem Numeral.toRat_eq (whole : hexValue? 0 numeral.whole = some m)
    (places : hexValue? m numeral.places = some n) :
    numeral.toRat = signOf numeral.negative * n *
      (2 : ℚ) ^ (numeral.exponent - 4 * numeral.places.length) := by
  have digits : digitsValue (numeral.whole ++ numeral.places) = n :=
    digitsValue_eq (by rw [hexValue?_append, whole, Option.bind_some, places])
  rw [toRat, digits]

theorem scaled_of_toRat (whole : hexValue? 0 numeral.whole = some m)
    (places : hexValue? m numeral.places = some n) (sign : x.negative = numeral.negative)
    (value : x.toRat = numeral.toRat) (exponent : (d : Int) - b = numeral.exponent) :
    x.units * 2 ^ (b + 4 * numeral.places.length) = n * 2 ^ (d + binaryPlaces) := by
  have two : (2 : ℚ) ≠ 0 := two_ne_zero
  have unit : (one : ℚ) = 2 ^ binaryPlaces := by
    rw [one_eq]
    push_cast
    rfl
  rw [Binary64.toRat_eq, cast_signedUnits, numeral.toRat_eq whole places, sign, mul_div_assoc,
    mul_assoc] at value
  have units : (x.units : ℚ) = n * 2 ^ (numeral.exponent - 4 * numeral.places.length) * one := by
    rw [← mul_left_cancel₀ (signOf_ne_zero _) value, div_mul_cancel₀ _ cast_one_pos.ne']
  have powers : (2 : ℚ) ^ (numeral.exponent - 4 * numeral.places.length) * one *
      2 ^ (b + 4 * numeral.places.length) = 2 ^ (d + binaryPlaces) := by
    rw [unit, ← zpow_natCast, ← zpow_natCast, ← zpow_natCast, ← zpow_add₀ two, ← zpow_add₀ two]
    congr 1
    push_cast
    omega
  have cast : (x.units : ℚ) * 2 ^ (b + 4 * numeral.places.length) = n * 2 ^ (d + binaryPlaces) := by
    rw [units, mul_assoc, mul_assoc, ← mul_assoc ((2 : ℚ) ^ _), powers]
  exact_mod_cast cast

/-! ## Places -/

def placeValue : Nat → Binary64
  | 0 => sixteenth
  | k + 1 => div (placeValue k) sixteen

theorem isUnits_placeValue (few : k ≤ 267) :
    IsUnits (placeValue k) (2 ^ (binaryPlaces - 4 * (k + 1))) := by
  have place := binaryPlaces_eq
  induction k with
  | zero =>
    rw [Nat.zero_add, Nat.mul_one]
    exact isUnits_sixteenth
  | succ k ih =>
    have bits : binaryPlaces - 4 * (k + 1) = binaryPlaces - 4 * (k + 1 + 1) + 4 := by omega
    have before := ih (by omega)
    rw [bits] at before
    obtain ⟨next, divided, value⟩ := exists_next before (by omega)
    have step : placeValue (k + 1) = next := eq_of_divExactly? divided
    exact step ▸ value

theorem div_sixteen_eq_zero (value : IsUnits x n) (small : n < 8) :
    div x sixteen = zero false := by
  have divisor : sixteen.isZero = false := by
    rw [← Bool.not_eq_true, isZero_iff isUnits_sixteen.finite, isUnits_sixteen.units]
    exact (Nat.two_pow_pos _).ne'
  have vanishes : 2 * (n * one) < 2 ^ (binaryPlaces + 4) := by
    rw [one_eq, ← mul_assoc, pow_add, mul_comm (2 ^ binaryPlaces)]
    exact Nat.mul_lt_mul_of_pos_right (by omega) (Nat.two_pow_pos _)
  simp only [div, isNaN_of_finite value.finite, isNaN_of_finite isUnits_sixteen.finite,
    isInfinite_of_finite value.finite, isInfinite_of_finite isUnits_sixteen.finite, divisor,
    value.positive, isUnits_sixteen.positive, value.units, isUnits_sixteen.units]
  exact ofRatio_eq_zero false vanishes

theorem placeValue_of_many (many : 268 ≤ k) : placeValue k = zero false := by
  induction k, many using Nat.le_induction with
  | base =>
    -- This place is worth a quarter of the unit, which is rounded to nothing.
    have last := isUnits_placeValue (k := 267) le_rfl
    have bits : binaryPlaces - 4 * (267 + 1) = 2 := by rw [binaryPlaces_eq]
    rw [bits] at last
    exact div_sixteen_eq_zero last (by decide)
  | succ k many ih =>
    rw [placeValue, ih]
    exact div_sixteen_eq_zero (isUnits_zero (k := 0)) (by decide)

theorem mul_zero_of_digit (digit : d < 16) : mul (ofInt d) (zero false) = zero false :=
  eq_of_mulExactly? ((isUnits_digit digit).mulExactly? (isUnits_zero (k := 0))
    (isUnits_zero (k := 0)) (by ring))

theorem exists_product (digit : d < 16) (k : Nat) :
    ∃ a, IsUnits (mul (ofInt d) (placeValue k)) a := by
  have place := binaryPlaces_eq
  by_cases few : k ≤ 267
  · obtain ⟨product, value⟩ :=
      exists_isUnits_le (c := d) (d := binaryPlaces - 4 * (k + 1)) (by omega) (by omega)
    have exact :=
      (isUnits_digit digit).mulExactly? (isUnits_placeValue few) value (by rw [one_eq]; ring)
    exact ⟨_, eq_of_mulExactly? exact ▸ value⟩
  · rw [placeValue_of_many (by omega), mul_zero_of_digit digit]
    exact ⟨_, isUnits_zero (k := 0)⟩

theorem gatherPlaces_cons (digit : hexDigitValue? c = some d) :
    gatherPlaces value (placeValue k) (c :: text) =
      gatherPlaces (add value (mul (ofInt d) (placeValue k))) (placeValue (k + 1)) text := by
  rw [gatherPlaces, digit]
  rfl

theorem gatherPlaces_append (value : Binary64) (k : Nat) (front back : List Char) :
    gatherPlaces value (placeValue k) (front ++ back) =
      (gatherPlaces value (placeValue k) front).bind
        (gatherPlaces · (placeValue (k + front.length)) back) := by
  induction front generalizing value k with
  | nil => rfl
  | cons c front ih =>
    have length : k + (c :: front).length = k + 1 + front.length := by
      rw [List.length_cons]
      omega
    rw [List.cons_append, length]
    cases digit : hexDigitValue? c with
    | none => simp [gatherPlaces, digit]
    | some d => rw [gatherPlaces_cons digit, gatherPlaces_cons digit, ih]

theorem gatherPlaces_eq (digits : hexValue? m text = some n) (short : Short n)
    (small : n * 2 ^ (binaryPlaces - 4 * (k + text.length)) < 2 ^ (1024 + binaryPlaces))
    (gathered : IsUnits value (m * 2 ^ (binaryPlaces - 4 * k))) (few : k + text.length ≤ 268) :
    ∃ z, gatherPlaces value (placeValue k) text = some z ∧
      IsUnits z (n * 2 ^ (binaryPlaces - 4 * (k + text.length))) := by
  have place := binaryPlaces_eq
  induction text generalizing value k m with
  | nil =>
    obtain rfl := Option.some.inj digits
    exact ⟨value, rfl, gathered⟩
  | cons c rest ih =>
    obtain ⟨d, digit, digits⟩ := Option.bind_eq_some_iff.1 digits
    have length : k + (c :: rest).length = k + 1 + rest.length := by
      rw [List.length_cons]
      omega
    rw [length] at small few ⊢
    have before : binaryPlaces - 4 * k = binaryPlaces - 4 * (k + 1) + 4 := by omega
    have here : binaryPlaces - 4 * (k + 1) =
        binaryPlaces - 4 * (k + 1 + rest.length) + 4 * rest.length := by omega
    rw [before] at gathered
    obtain ⟨product, sum, multiplied, added, second⟩ := exists_placed gathered
      (isUnits_placeValue (by omega)) (of_hexDigitValue? digit).1 (short.of_prefix digits) (by omega)
      (lt_of_le_of_lt (here ▸ scaled_prefix_le digits _) small)
    obtain ⟨z, later, result⟩ := ih digits small second few
    refine ⟨z, ?_, result⟩
    rw [gatherPlaces_cons digit, eq_of_mulExactly? multiplied, eq_of_addExactly? added, later]

theorem gatherPlaces_of_many (digits : ∀ c ∈ text, hexDigitValue? c ≠ none)
    (gathered : IsUnits value a) (many : 268 ≤ k) :
    gatherPlaces value (placeValue k) text = some value := by
  induction text generalizing k with
  | nil => rfl
  | cons c rest ih =>
    obtain ⟨first, later⟩ := List.forall_mem_cons.1 digits
    obtain ⟨d, digit⟩ := Option.ne_none_iff_exists'.1 first
    have sum := eq_of_addExactly? (gathered.addExactly? (isUnits_zero (k := 0)) gathered (by ring))
    rw [gatherPlaces_cons digit, placeValue_of_many many,
      mul_zero_of_digit (of_hexDigitValue? digit).1, sum, ih later (by omega)]

theorem gatherPlaces_take (first : gatherPlaces value sixteenth (text.take 268) = some z)
    (gathered : IsUnits z a) (back : ∀ c ∈ text.drop 268, hexDigitValue? c ≠ none) :
    gatherPlaces value sixteenth text = some z := by
  have later : gatherPlaces z (placeValue (0 + (text.take 268).length)) (text.drop 268) = some z := by
    rcases Nat.le_total text.length 268 with short | long
    · rw [List.drop_eq_nil_of_le short]
      rfl
    · refine gatherPlaces_of_many back gathered ?_
      rw [List.length_take_of_le long]
  have start : placeValue 0 = sixteenth := rfl
  have parts := gatherPlaces_append value 0 (text.take 268) (text.drop 268)
  rwa [List.take_append_drop, start, first, Option.bind_some, later] at parts

/-! ## Digits that are too large -/

theorem mul_infinity (value : IsUnits x a) (nonzero : a ≠ 0) :
    mul (infinity false) x = infinity false := by
  have factor : x.isZero = false := by
    rw [← Bool.not_eq_true, isZero_iff value.finite, value.units]
    exact nonzero
  exact infinity_mul false (isNaN_of_finite value.finite) factor value.positive

theorem add_infinity (value : IsUnits x a) : add (infinity false) x = infinity false := by
  have infinite : (infinity false).isNaN = false ∧ (infinity false).isInfinite = true := by decide
  simp [add, infinite, isNaN_of_finite value.finite, isInfinite_of_finite value.finite]

theorem gatherWhole_cons (digit : hexDigitValue? c = some d) :
    gatherWhole value (c :: text) = gatherWhole (add (mul value sixteen) (ofInt d)) text := by
  rw [gatherWhole, digit]
  rfl

theorem gatherWhole_infinity (digits : ∀ c ∈ text, hexDigitValue? c ≠ none) :
    gatherWhole (infinity false) text = some (infinity false) := by
  induction text with
  | nil => rfl
  | cons c rest ih =>
    obtain ⟨first, later⟩ := List.forall_mem_cons.1 digits
    obtain ⟨d, digit⟩ := Option.ne_none_iff_exists'.1 first
    rw [gatherWhole_cons digit, mul_infinity isUnits_sixteen (Nat.two_pow_pos _).ne',
      add_infinity (isUnits_digit (of_hexDigitValue? digit).1), ih later]

theorem gatherPlaces_infinity (digits : ∀ c ∈ text, hexDigitValue? c ≠ none) :
    gatherPlaces (infinity false) (placeValue k) text = some (infinity false) := by
  induction text generalizing k with
  | nil => rfl
  | cons c rest ih =>
    obtain ⟨first, later⟩ := List.forall_mem_cons.1 digits
    obtain ⟨d, digit⟩ := Option.ne_none_iff_exists'.1 first
    obtain ⟨a, product⟩ := exists_product (of_hexDigitValue? digit).1 k
    rw [gatherPlaces_cons digit, add_infinity product, ih later]

theorem repeatScaling_infinity (factor : Binary64) (times : Nat) :
    repeatScaling factor times (infinity false) = infinity false := by
  cases times with
  | zero => rfl
  | succ times => rfl

theorem scaleByPowerOfTwo_infinity (e : Int) :
    scaleByPowerOfTwo (infinity false) e = infinity false := by
  have place := binaryPlaces_eq
  have last {rest : Int} (low : -binaryPlaces ≤ rest) (high : rest ≤ 1023) :
      mul (infinity false) (powerOfTwo rest) = infinity false :=
    mul_infinity (isUnits_piece low high) (Nat.two_pow_pos _).ne'
  have normal : normalized (infinity false) = infinity false := rfl
  rw [scaleByPowerOfTwo_eq, normal, applyPower]
  simp only [repeatScaling_infinity]
  split
  · exact last (by omega) (by omega)
  · split
    · exact last (by omega) (by omega)
    · exact last (by omega) (by omega)

theorem le_of_shifted (digit : d < 16) (large : 2 ^ s ≤ 16 * m + d) (bits : s = k + 4) :
    2 ^ k ≤ m := by
  rw [bits, pow_add] at large
  omega

theorem mul_sixteen_of_large (gathered : IsUnits value (m * 2 ^ binaryPlaces))
    (large : 2 ^ 1020 ≤ m) : mul value sixteen = infinity false := by
  have product :
      m * 2 ^ binaryPlaces * 2 ^ (binaryPlaces + 4) / one = m * 2 ^ (binaryPlaces + 4) := by
    rw [one_eq, mul_right_comm, Nat.mul_div_cancel _ (Nat.two_pow_pos _)]
  have bits : 1024 + binaryPlaces = 1020 + (binaryPlaces + 4) := by omega
  rw [mul_of_finite gathered.finite isUnits_sixteen.finite isUnits_sixteen.positive,
    gathered.positive, gathered.units, isUnits_sixteen.units]
  refine ofRatio_eq_infinity false ?_
  rw [product, bits, pow_add 2 1020]
  exact Nat.mul_le_mul_right _ large

theorem gatherWhole_of_large (digits : hexValue? m text = some n) (short : Short n)
    (gathered : IsUnits value (m * 2 ^ binaryPlaces)) (small : m < 2 ^ 1024)
    (large : 2 ^ 1024 ≤ n) : gatherWhole value text = some (infinity false) := by
  induction text generalizing value m with
  | nil =>
    obtain rfl := Option.some.inj digits
    exact absurd large (not_le.2 small)
  | cons c rest ih =>
    have before := short.of_prefix digits
    have valid := isHexDigit_of_hexValue? digits
    obtain ⟨d, digit, digits⟩ := Option.bind_eq_some_iff.1 digits
    have bound := (of_hexDigitValue? digit).1
    by_cases less : 16 * m + d < 2 ^ 1024
    · obtain ⟨shifted, sum, multiplied, added, second⟩ :=
        exists_shifted gathered bound before (short.of_prefix digits) less
      rw [gatherWhole_cons digit, eq_of_mulExactly? multiplied, eq_of_addExactly? added]
      exact ih digits second less
    · have overflow := mul_sixteen_of_large gathered (le_of_shifted bound (not_lt.1 less) rfl)
      rw [gatherWhole_cons digit, overflow, add_infinity (isUnits_digit bound)]
      exact gatherWhole_infinity (List.forall_mem_cons.1 valid).2

/-! ## Readings -/

theorem signed_infinity (negative : Bool) :
    (if negative then (infinity false).neg else infinity false) = infinity negative := by
  cases negative <;> rfl

theorem Numeral.value?_of_large (whole : hexValue? 0 numeral.whole = some m)
    (places : hexValue? m numeral.places = some n) (short : Short n) (large : 2 ^ 1024 ≤ m) :
    numeral.value? = some (infinity numeral.negative) := by
  have front := gatherWhole_of_large whole (short.of_prefix places) isUnits_zero
    (lt_power (by decide) (by decide)) large
  have later : gatherPlaces (infinity false) sixteenth numeral.places = some (infinity false) :=
    gatherPlaces_infinity (k := 0) (isHexDigit_of_hexValue? places)
  simp only [value?, front, Option.bind_eq_bind, Option.bind_some, later,
    scaleByPowerOfTwo_infinity, signed_infinity]
  rfl

theorem Numeral.value?_of_small (whole : hexValue? 0 numeral.whole = some m)
    (front : hexValue? m (numeral.places.take 268) = some n)
    (back : ∀ c ∈ numeral.places.drop 268, hexDigitValue? c ≠ none) (short : Short n)
    (small : m < 2 ^ 1024) (result : IsUnits y a)
    (scaled : a * 2 ^ (b + 4 * (numeral.places.take 268).length) = n * 2 ^ (d + binaryPlaces))
    (exponent : (d : Int) - b = numeral.exponent) :
    numeral.value? = some (if numeral.negative then y.neg else y) := by
  have place := binaryPlaces_eq
  have few : (numeral.places.take 268).length ≤ 268 := List.length_take_le _ _
  obtain ⟨v, first, gathered⟩ :=
    gatherWholeExactly?_eq whole (short.of_prefix front) small isUnits_zero
  have bits : binaryPlaces = binaryPlaces - 4 * 0 := by rw [mul_zero, Nat.sub_zero]
  rw [bits] at gathered
  obtain ⟨w, second, gathered⟩ := gatherPlaces_eq (k := 0) front short
    (placed_lt front small (by omega)) gathered (by omega)
  have digits : gatherPlaces v sixteenth numeral.places = some w :=
    gatherPlaces_take second gathered back
  have power : scaleByPowerOfTwo w numeral.exponent = y := by
    refine eq_of_scaleExactly? (scaleExactly?_eq gathered result (m := b) (n := d) ?_ exponent)
    rw [mul_assoc, ← pow_add]
    exact rebalance scaled (by omega)
  simp only [value?, gatherWhole_of_exactly first, digits, power, Option.bind_eq_bind,
    Option.bind_some]
  rfl

/-- What is left of a number when digits are cut off is still a number: either the digits were
zeros, or the last of them that is left is worth at least a unit. -/
theorem exists_shortened (value : IsUnits z s) (scaled : s * 2 ^ a = n * 2 ^ b)
    (short : Short m) (cut : n / 2 ^ k = m) :
    ∃ y t, IsUnits y t ∧ t * 2 ^ a = m * 2 ^ k * 2 ^ b := by
  have less : m * 2 ^ k ≤ n := cut ▸ Nat.div_mul_le_self n _
  rcases Nat.le_total a (k + b) with whole | parts
  · obtain ⟨t, bits⟩ := Nat.exists_eq_add_of_le whole
    have units : m * 2 ^ t * 2 ^ a = m * 2 ^ k * 2 ^ b := by
      rw [mul_assoc, mul_assoc, ← pow_add, ← pow_add, bits, Nat.add_comm]
    have below : m * 2 ^ t ≤ s := by
      refine Nat.le_of_mul_le_mul_right ?_ (Nat.two_pow_pos a)
      rw [units, scaled]
      exact Nat.mul_le_mul_right _ less
    obtain ⟨y, shortened⟩ := short.exists_isUnits (lt_of_le_of_lt below value.lt)
    exact ⟨y, m * 2 ^ t, shortened, units⟩
  · obtain ⟨t, bits⟩ := Nat.exists_eq_add_of_le parts
    have same : s * 2 ^ (k + t) = n * 2 ^ 0 := rebalance scaled (by omega)
    have zeros : m * 2 ^ k = n := by
      rw [← cut]
      refine Nat.div_mul_cancel ⟨s * 2 ^ t, ?_⟩
      rw [← mul_one n, ← pow_zero 2, ← same, pow_add]
      ring
    exact ⟨z, s, value, by rw [zeros, scaled]⟩

theorem Numeral.value?_eq_iff (whole : hexValue? 0 numeral.whole = some m)
    (places : hexValue? m numeral.places = some n) (short : Short n) (small : m < 2 ^ 1024)
    (finite : x.isFinite = true) (sign : x.negative = numeral.negative)
    (scaled : x.units * 2 ^ (b + 4 * numeral.places.length) = n * 2 ^ (d + binaryPlaces))
    (exponent : (d : Int) - b = numeral.exponent) :
    numeral.value? = some x ↔ ∀ c ∈ numeral.places.drop 268, hexDigitValue? c = some 0 := by
  have digits := places
  rw [← List.take_append_drop 268 numeral.places, hexValue?_append] at digits
  obtain ⟨l, front, back⟩ := Option.bind_eq_some_iff.1 digits
  have cut := hexValue?_div back
  rw [sixteen_pow] at cut
  obtain ⟨y, t, shortened, units⟩ :=
    exists_shortened (isUnits_size finite) scaled (short.of_prefix back) cut
  have length : (numeral.places.take 268).length + (numeral.places.drop 268).length =
      numeral.places.length := by
    rw [← List.length_append, List.take_append_drop]
  have read := numeral.value?_of_small whole front (isHexDigit_of_hexValue? back)
    (short.of_prefix back) small shortened (b := b) (d := d) (by
      rw [mul_assoc, ← pow_add] at units
      exact rebalance units (by omega)) exponent
  have same : t = x.units ↔ n = l * 2 ^ (4 * (numeral.places.drop 268).length) := by
    constructor
    · rintro rfl
      exact Nat.eq_of_mul_eq_mul_right (Nat.two_pow_pos _) (scaled.symm.trans units)
    · intro equal
      rw [← equal] at units
      exact Nat.eq_of_mul_eq_mul_right (Nat.two_pow_pos _) (units.trans scaled.symm)
  rw [← hexValue?_eq_mul_iff back, sixteen_pow, read, ← sign, Option.some_inj, ← same]
  constructor
  · intro equal
    rw [← equal, ← shortened.units]
    cases x.negative <;> rfl
  · intro equal
    rw [equal] at shortened
    rw [shortened.unique (isUnits_size finite), neg_size]

/-- A text whose value is a number is read as that number just if the digits before its point are
below `2 ^ 1024` and those after the 268th place are zeros. If the former are not, infinity is
read. -/
theorem representable_read_iff (spelt : Spells numeral text) (finite : x.isFinite = true)
    (sign : x.negative = numeral.negative) (value : x.toRat = numeral.toRat) :
    (Binary64.read? text = some x ↔ numeral.Gathered) ∧
      (2 ^ 1024 ≤ digitsValue numeral.whole →
        Binary64.read? text = some (infinity numeral.negative)) := by
  obtain ⟨m, n, whole, places⟩ := spelt.hexValue?
  have exponent : (numeral.exponent.toNat : Int) - (-numeral.exponent).toNat = numeral.exponent := by
    omega
  have scaled := scaled_of_toRat whole places sign value exponent
  have short : Short n := .of_finite finite scaled
  have infinite (large : 2 ^ 1024 ≤ m) := numeral.value?_of_large whole places short large
  rw [read?_of_spells spelt, digitsValue_eq whole]
  refine ⟨⟨fun read => ?_, fun gathered => ?_⟩, infinite⟩
  · have small : m < 2 ^ 1024 := by
      by_contra large
      rw [infinite (not_lt.1 large), Option.some_inj] at read
      rw [← read] at finite
      cases finite
    refine ⟨digitsValue_eq whole ▸ small, ?_⟩
    exact (numeral.value?_eq_iff whole places short small finite sign scaled exponent).1 read
  · have small : m < 2 ^ 1024 := digitsValue_eq whole ▸ gathered.whole
    exact (numeral.value?_eq_iff whole places short small finite sign scaled exponent).2
      gathered.places

theorem representable_read_shifted :
    Binary64.read? "-0x0.001p+1034".toList = some (ofBits 0xFFD0000000000000) := by
  have spelt : Spells ⟨true, ['0'], ['0', '0', '1'], 1034⟩ "-0x0.001p+1034".toList :=
    ⟨⟨true, ['-'], ['0', 'x'], ['0', '.', '0', '0', '1'], ['p', '+', '1', '0', '3', '4'], rfl,
      .minus, .lower, .pointed ['0'] _,
      @ExponentText.present true false 'p' ['+'] ['1', '0', '3', '4'] (.inl rfl) .plus
        (List.cons_ne_nil _ _) (List.all_eq_true.1 rfl)⟩,
      isHexDigit_of_hexValue? (m := 0) (n := 0) rfl, isHexDigit_of_hexValue? (m := 0) (n := 1) rfl,
      .inl (List.cons_ne_nil _ _), by decide⟩
  have digits : Numeral.toRat ⟨true, ['0'], ['0', '0', '1'], 1034⟩ = -2 ^ (1022 : ℤ) := by
    rw [Numeral.toRat_eq (m := 0) (n := 1) rfl rfl]
    simp [signOf]
  have bits : (ofBits 0xFFD0000000000000).toRat = -2 ^ (1022 : ℤ) := by
    have biased : (ofBits 0xFFD0000000000000).biasedExponent = 2045 := by decide
    have fraction : (ofBits 0xFFD0000000000000).fraction = 0 := by decide
    have sign : (ofBits 0xFFD0000000000000).negative = true := by decide
    simp [toRat, biased, fraction, sign, signOf]
  exact (representable_read_iff spelt (by decide) (by decide) (bits.trans digits.symm)).1.2
    ⟨lt_power (by decide) (by decide), List.forall_mem_nil _⟩

/-- One is read as infinity if its only digit is so far before the point that no number is as
large. -/
theorem representable_read_overflow :
    let numeral : Numeral := ⟨false, '1' :: List.replicate 256 '0', [], -1024⟩
    let text := ['0', 'x'] ++ (('1' :: List.replicate 256 '0') ++ ['p', '-', '1', '0', '2', '4'])
    Spells numeral text ∧ (ofBits 0x3FF0000000000000).isFinite = true ∧
      (ofBits 0x3FF0000000000000).toRat = numeral.toRat ∧
      Binary64.read? text = some (infinity false) := by
  have zeros : ∀ c ∈ List.replicate 256 '0', hexDigitValue? c = some 0 := fun c inside => by
    rw [List.eq_of_mem_replicate inside]
    rfl
  have length : (List.replicate 256 '0').length = 256 := List.length_replicate
  -- As a variable the zeros are not read one by one.
  obtain ⟨tail, same⟩ : ∃ tail, List.replicate 256 '0' = tail := ⟨_, rfl⟩
  rw [same] at zeros length ⊢
  have whole : hexValue? 0 ('1' :: tail) = some (1 * 2 ^ (4 * tail.length)) := by
    rw [← sixteen_pow]
    exact hexValue?_zeros 1 zeros
  have range : leastExponent ≤ -1024 ∧ -1024 ≤ greatestExponent := by decide
  have spelt : Spells ⟨false, '1' :: tail, [], -1024⟩
      (['0', 'x'] ++ (('1' :: tail) ++ ['p', '-', '1', '0', '2', '4'])) :=
    ⟨⟨true, [], ['0', 'x'], '1' :: tail, ['p', '-', '1', '0', '2', '4'], rfl, .missing, .lower,
      .unpointed _, @ExponentText.present true true 'p' ['-'] ['1', '0', '2', '4'] (.inl rfl) .minus
        (List.cons_ne_nil _ _) (List.all_eq_true.1 rfl)⟩,
      isHexDigit_of_hexValue? whole, List.forall_mem_nil _, .inl (List.cons_ne_nil _ _), range⟩
  have value : Numeral.toRat ⟨false, '1' :: tail, [], -1024⟩ = 1 := by
    have exponent : (-1024 : ℤ) = -(4 * tail.length : Nat) := by omega
    have cancel (k : Nat) : signOf false * ((1 * 2 ^ k : Nat) : ℚ) *
        (2 : ℚ) ^ (-(k : ℤ) - 4 * ([] : List Char).length) = 1 := by
      simp [signOf]
    rw [Numeral.toRat_eq whole (n := 1 * 2 ^ (4 * tail.length)) rfl, exponent]
    exact cancel _
  have bits : (ofBits 0x3FF0000000000000).toRat = 1 := by
    have biased : (ofBits 0x3FF0000000000000).biasedExponent = 1023 := by decide
    have fraction : (ofBits 0x3FF0000000000000).fraction = 0 := by decide
    have sign : (ofBits 0x3FF0000000000000).negative = false := by decide
    simp [toRat, biased, fraction, sign, signOf]
  refine ⟨spelt, by decide, bits.trans value.symm, ?_⟩
  rw [read?_of_spells spelt]
  have reach : 1024 ≤ 4 * tail.length := by omega
  refine Numeral.value?_of_large whole (n := 1 * 2 ^ (4 * tail.length)) rfl
    (Short.mul (.of_lt (by decide)) _) ?_
  rw [one_mul]
  exact pow_le_pow_right₀ one_le_two reach

end IppCode.Binary64.Hexadecimal
