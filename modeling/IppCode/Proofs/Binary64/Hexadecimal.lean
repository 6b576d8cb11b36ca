import IppCode.Proofs.Binary64.Scaling
import IppCode.Proofs.Text.Numeral
import IppCode.Proofs.Text.Split

/-!
# Reading hexadecimal text without rounding

The reader as a text that is taken apart and a value that is computed from its parts (`read?_eq`).
If the digits fit into a significand, each of them has a place and the number is finite, it is read
without rounding once (`Numeral.exactly?_eq`).
-/

namespace IppCode.Binary64.Hexadecimal

open Text

variable {value scale z : Binary64} {text places rest : List Char} {c : Char} {a b d k m n t : Nat}

/-- What a text is made of, before its digits are gathered. -/
structure Numeral where
  negative : Bool
  whole : List Char
  places : List Char
  exponent : Int

def exponentAfter? (marked : Bool) : List Char → Option Int
  | [] => if marked then some 0 else none
  | _ :: tail => boundedInteger? leastExponent greatestExponent tail

def numeral? (text : List Char) : Option Numeral :=
  let (negative, body) := splitSign text
  let (marked, body) := stripMark body
  let mantissa := body.takeWhile (!isExponentMark ·)
  let (whole, places) := (splitFirst? '.' mantissa).getD (mantissa, [])
  (exponentAfter? marked (body.dropWhile (!isExponentMark ·))).bind fun exponent =>
    if whole.isEmpty && places.isEmpty then none else some ⟨negative, whole, places, exponent⟩

def Numeral.value? (numeral : Numeral) : Option Binary64 := do
  let value ← gatherWhole (zero false) numeral.whole
  let value ← gatherPlaces value sixteenth numeral.places
  let scaled := scaleByPowerOfTwo value numeral.exponent
  return if numeral.negative then scaled.neg else scaled

theorem read?_eq : read? text = (numeral? text).bind Numeral.value? := by
  unfold read? numeral?
  generalize splitSign text = signed
  obtain ⟨negative, body⟩ := signed
  simp only
  generalize stripMark body = stripped
  obtain ⟨marked, body⟩ := stripped
  simp only
  generalize (splitFirst? '.' _).getD _ = parts
  obtain ⟨whole, places⟩ := parts
  cases body.dropWhile (!isExponentMark ·) with
  | nil =>
    cases marked with
    | false => rfl
    | true =>
      cases whole.isEmpty && places.isEmpty <;> simp [exponentAfter?, Numeral.value?]
  | cons mark tail =>
    simp only [exponentAfter?, Option.bind_eq_bind, Option.bind_assoc]
    congr 1
    funext exponent
    cases whole.isEmpty && places.isEmpty <;> simp [Numeral.value?]

def gatherWholeExactly? : Binary64 → List Char → Option Binary64
  | value, [] => some value
  | value, c :: rest => do
    let digit ← hexDigitValue? c
    let shifted ← mulExactly? value sixteen
    let sum ← addExactly? shifted (ofInt digit)
    gatherWholeExactly? sum rest

def gatherPlacesExactly? : Binary64 → Binary64 → List Char → Option Binary64
  | value, _, [] => some value
  | value, scale, c :: rest => do
    let digit ← hexDigitValue? c
    let place ← mulExactly? (ofInt digit) scale
    let sum ← addExactly? value place
    let next ← divExactly? scale sixteen
    gatherPlacesExactly? sum next rest

def Numeral.exactly? (numeral : Numeral) : Option Binary64 := do
  let value ← gatherWholeExactly? (zero false) numeral.whole
  let value ← gatherPlacesExactly? value sixteenth numeral.places
  let scaled ← scaleExactly? value numeral.exponent
  return if numeral.negative then scaled.neg else scaled

/-- As `read?`, if none of the operations on the way rounds. -/
def readExactly? (text : List Char) : Option Binary64 := (numeral? text).bind Numeral.exactly?

theorem gatherWhole_of_exactly (h : gatherWholeExactly? value text = some z) :
    gatherWhole value text = some z := by
  induction text generalizing value with
  | nil => exact h
  | cons c rest ih =>
    simp only [gatherWholeExactly?, Option.bind_eq_bind, Option.bind_eq_some_iff] at h
    obtain ⟨digit, read, shifted, first, sum, second, later⟩ := h
    simp only [gatherWhole, read, Option.bind_eq_bind, Option.bind_some, eq_of_mulExactly? first,
      eq_of_addExactly? second, ih later]

theorem gatherPlaces_of_exactly (h : gatherPlacesExactly? value scale text = some z) :
    gatherPlaces value scale text = some z := by
  induction text generalizing value scale with
  | nil => exact h
  | cons c rest ih =>
    simp only [gatherPlacesExactly?, Option.bind_eq_bind, Option.bind_eq_some_iff] at h
    obtain ⟨digit, read, place, first, sum, second, next, third, later⟩ := h
    simp only [gatherPlaces, read, Option.bind_eq_bind, Option.bind_some, eq_of_mulExactly? first,
      eq_of_addExactly? second, eq_of_divExactly? third, ih later]

theorem read?_of_readExactly? (h : readExactly? text = some z) : read? text = some z := by
  obtain ⟨numeral, parts, h⟩ := Option.bind_eq_some_iff.1 h
  simp only [Numeral.exactly?, Option.bind_eq_bind, Option.bind_eq_some_iff] at h
  obtain ⟨whole, first, value, second, scaled, third, result⟩ := h
  simp only [read?_eq, parts, Option.bind_some, Numeral.value?, Option.bind_eq_bind,
    gatherWhole_of_exactly first, gatherPlaces_of_exactly second, eq_of_scaleExactly? third]
  exact result

theorem sixteen_pow (k : Nat) : 16 ^ k = 2 ^ (4 * k) := by
  rw [pow_mul]
  norm_num

/-- A number without more than 53 bits from the first one that is set to the last one. -/
def Short (n : Nat) : Prop := ∃ c k, n = c * 2 ^ k ∧ c < 2 ^ 53

namespace Short

theorem of_lt (small : n < 2 ^ 53) : Short n := ⟨n, 0, (mul_one n).symm, small⟩

theorem mul (short : Short n) (k : Nat) : Short (n * 2 ^ k) := by
  obtain ⟨c, d, rfl, significand⟩ := short
  exact ⟨c, d + k, by rw [pow_add, mul_assoc], significand⟩

theorem div (short : Short n) (k : Nat) : Short (n / 2 ^ k) := by
  obtain ⟨c, d, rfl, significand⟩ := short
  rcases Nat.le_total k d with whole | parts
  · obtain ⟨d, rfl⟩ := Nat.exists_eq_add_of_le whole
    rw [pow_add, mul_left_comm, Nat.mul_div_cancel_left _ (Nat.two_pow_pos k)]
    exact ⟨c, d, rfl, significand⟩
  · obtain ⟨k, rfl⟩ := Nat.exists_eq_add_of_le parts
    rw [pow_add, mul_comm, Nat.mul_div_mul_left _ _ (Nat.two_pow_pos d)]
    exact of_lt (lt_of_le_of_lt (Nat.div_le_self c _) significand)

theorem of_prefix (short : Short n) (digits : hexValue? m text = some n) : Short m := by
  rw [← hexValue?_div digits, sixteen_pow]
  exact short.div _

theorem of_scaled (scaled : a * 2 ^ b = n * 2 ^ d) (significand : a < 2 ^ 53) : Short n := by
  rcases Nat.le_total d b with more | less
  · obtain ⟨k, rfl⟩ := Nat.exists_eq_add_of_le more
    have same : a * 2 ^ k = n * 2 ^ 0 := rebalance scaled (by omega)
    exact ⟨a, k, by rw [same, pow_zero, mul_one], significand⟩
  · obtain ⟨k, rfl⟩ := Nat.exists_eq_add_of_le less
    have same : a * 2 ^ 0 = n * 2 ^ k := rebalance scaled (by omega)
    rw [pow_zero, mul_one] at same
    exact of_lt (lt_of_le_of_lt (Nat.le_mul_of_pos_right n (Nat.two_pow_pos k)) (same ▸ significand))

theorem of_finite (finite : z.isFinite = true) (scaled : z.units * 2 ^ b = n * 2 ^ d) : Short n := by
  obtain ⟨c, k, significand, normal, -, magnitude⟩ := exists_significand finite
  rw [units_eq significand normal magnitude, mul_assoc, ← pow_add] at scaled
  exact of_scaled scaled significand

theorem exists_isUnits (short : Short n) (small : n * 2 ^ d < 2 ^ (1024 + binaryPlaces)) :
    ∃ x, IsUnits x (n * 2 ^ d) := by
  obtain ⟨c, k, rfl, significand⟩ := short
  have unit := binaryPlaces_eq
  have reach : 1024 + binaryPlaces = 53 + (971 + binaryPlaces) := by omega
  rw [mul_assoc, ← pow_add] at small ⊢
  rw [reach] at small
  exact Binary64.exists_isUnits significand small (by omega)

end Short

theorem lt_power (small : n < 2 ^ 53) (more : 53 ≤ k) : n < 2 ^ k :=
  lt_of_lt_of_le small (Nat.pow_le_pow_right two_pos more)

theorem mul_places_lt (small : n < 2 ^ 1024) : n * 2 ^ binaryPlaces < 2 ^ (1024 + binaryPlaces) := by
  rw [pow_add]
  exact Nat.mul_lt_mul_of_pos_right small (Nat.two_pow_pos _)

theorem placed_lt (digits : hexValue? m text = some n) (small : m < 2 ^ 1024)
    (bits : k + 4 * text.length = binaryPlaces) : n * 2 ^ k < 2 ^ (1024 + binaryPlaces) := by
  rw [← hexValue?_div digits, Nat.div_lt_iff_lt_mul (by positivity), sixteen_pow, ← pow_add]
    at small
  calc n * 2 ^ k
    _ < 2 ^ (1024 + 4 * text.length) * 2 ^ k :=
      Nat.mul_lt_mul_of_pos_right small (Nat.two_pow_pos k)
    _ = 2 ^ (1024 + binaryPlaces) := by rw [← pow_add, ← bits, Nat.add_assoc, Nat.add_comm k]

theorem scaled_prefix_le (digits : hexValue? m text = some n) (k : Nat) :
    m * 2 ^ (k + 4 * text.length) ≤ n * 2 ^ k := by
  rw [pow_add, ← sixteen_pow, mul_comm (2 ^ k), ← mul_assoc]
  exact Nat.mul_le_mul_right _ (hexValue?_mul_le digits)

theorem isUnits_ofInt (small : n < 2 ^ 53) : IsUnits (ofInt n) (n * 2 ^ binaryPlaces) := by
  obtain ⟨z, value⟩ := exists_isUnits_le (d := binaryPlaces) small (by rw [binaryPlaces_eq]; decide)
  have sign : decide ((n : Int) < 0) = false := decide_eq_false (by omega)
  rw [ofInt, sign]
  refine isUnits_ofRatio value Nat.one_pos ?_
  rw [Int.natAbs_natCast, one_eq, mul_one]

theorem isUnits_digit (digit : d < 16) : IsUnits (ofInt d) (d * 2 ^ binaryPlaces) :=
  isUnits_ofInt (by omega)

theorem isUnits_sixteen : IsUnits sixteen (2 ^ (binaryPlaces + 4)) := by
  have units : 2 ^ (binaryPlaces + 4) = 16 * 2 ^ binaryPlaces := by ring
  have value : IsUnits (ofInt (16 : Nat)) (16 * 2 ^ binaryPlaces) := isUnits_ofInt (by norm_num)
  rw [units]
  exact value

theorem isUnits_sixteenth : IsUnits sixteenth (2 ^ (binaryPlaces - 4)) := by
  have place := binaryPlaces_eq
  exact isUnits_powerOfTwo (by omega) (by omega)

theorem exists_shifted (gathered : IsUnits value (m * 2 ^ binaryPlaces)) (digit : d < 16)
    (short : Short m) (short' : Short (16 * m + d)) (small : 16 * m + d < 2 ^ 1024) :
    ∃ shifted sum, mulExactly? value sixteen = some shifted ∧
      addExactly? shifted (ofInt d) = some sum ∧
      IsUnits sum ((16 * m + d) * 2 ^ binaryPlaces) := by
  have shift : m * 2 ^ 4 = 16 * m := by ring
  obtain ⟨shifted, first⟩ :=
    (short.mul 4).exists_isUnits (mul_places_lt (by omega : m * 2 ^ 4 < 2 ^ 1024))
  obtain ⟨sum, second⟩ := short'.exists_isUnits (mul_places_lt small)
  refine ⟨shifted, sum, ?_, ?_, second⟩
  · refine gathered.mulExactly? isUnits_sixteen first ?_
    rw [one_eq]
    ring
  · exact first.addExactly? (isUnits_digit digit) second (by rw [shift]; ring)

theorem exists_placed (gathered : IsUnits value (m * 2 ^ (k + 4))) (place : IsUnits scale (2 ^ k))
    (digit : d < 16) (short : Short (16 * m + d)) (range : k ≤ 2045)
    (small : (16 * m + d) * 2 ^ k < 2 ^ (1024 + binaryPlaces)) :
    ∃ product sum, mulExactly? (ofInt d) scale = some product ∧
      addExactly? value product = some sum ∧ IsUnits sum ((16 * m + d) * 2 ^ k) := by
  obtain ⟨product, first⟩ := exists_isUnits_le (c := d) (d := k) (by omega) range
  obtain ⟨sum, second⟩ := short.exists_isUnits small
  refine ⟨product, sum, ?_, ?_, second⟩
  · refine (isUnits_digit digit).mulExactly? place first ?_
    rw [one_eq]
    ring
  · exact gathered.addExactly? first second (by ring)

theorem exists_next (place : IsUnits scale (2 ^ (k + 4))) (range : k ≤ 2045) :
    ∃ next, divExactly? scale sixteen = some next ∧ IsUnits next (2 ^ k) := by
  obtain ⟨next, value⟩ := exists_isUnits_power (k := k) (by omega)
  refine ⟨next, place.divExactly? isUnits_sixteen value (Nat.two_pow_pos _).ne' ?_, value⟩
  rw [one_eq]
  ring

theorem gatherWholeExactly?_eq (digits : hexValue? m text = some n) (short : Short n)
    (small : n < 2 ^ 1024) (gathered : IsUnits value (m * 2 ^ binaryPlaces)) :
    ∃ z, gatherWholeExactly? value text = some z ∧ IsUnits z (n * 2 ^ binaryPlaces) := by
  induction text generalizing value m with
  | nil =>
    obtain rfl := Option.some.inj digits
    exact ⟨value, rfl, gathered⟩
  | cons c rest ih =>
    have before := short.of_prefix digits
    obtain ⟨d, digit, digits⟩ := Option.bind_eq_some_iff.1 digits
    have below := hexValue?_le digits
    obtain ⟨shifted, sum, multiplied, added, second⟩ := exists_shifted gathered
      (of_hexDigitValue? digit).1 before (short.of_prefix digits) (by omega)
    obtain ⟨z, later, result⟩ := ih digits second
    refine ⟨z, ?_, result⟩
    simp only [gatherWholeExactly?, digit, Option.bind_eq_bind, Option.bind_some, multiplied, added,
      later]

theorem gatherPlacesExactly?_eq (digits : hexValue? m text = some n) (short : Short n)
    (small : n * 2 ^ (t + 4) < 2 ^ (1024 + binaryPlaces))
    (gathered : IsUnits value (m * 2 ^ (t + 4 + 4 * text.length)))
    (place : IsUnits scale (2 ^ (t + 4 * text.length))) (range : t + 4 * text.length ≤ 2045) :
    ∃ z, gatherPlacesExactly? value scale text = some z ∧ IsUnits z (n * 2 ^ (t + 4)) := by
  induction text generalizing value scale m with
  | nil =>
    obtain rfl := Option.some.inj digits
    exact ⟨value, rfl, gathered⟩
  | cons c rest ih =>
    obtain ⟨d, digit, digits⟩ := Option.bind_eq_some_iff.1 digits
    have before : t + 4 + 4 * (c :: rest).length = t + 4 + 4 * rest.length + 4 := by
      rw [List.length_cons]
      omega
    have here : t + 4 * (c :: rest).length = t + 4 + 4 * rest.length := by
      rw [List.length_cons]
      omega
    rw [before] at gathered
    rw [here] at place range
    obtain ⟨product, sum, multiplied, added, second⟩ := exists_placed gathered place
      (of_hexDigitValue? digit).1 (short.of_prefix digits) range
      (lt_of_le_of_lt (scaled_prefix_le digits (t + 4)) small)
    rw [Nat.add_right_comm] at place
    obtain ⟨next, divided, third⟩ := exists_next place (by omega)
    obtain ⟨z, later, result⟩ := ih digits second third (by omega)
    refine ⟨z, ?_, result⟩
    simp only [gatherPlacesExactly?, Option.bind_eq_bind]
    rw [digit, Option.bind_some, multiplied, Option.bind_some, added, Option.bind_some, divided,
      Option.bind_some, later]

theorem isUnits_zero : IsUnits (zero false) (0 * 2 ^ k) := by
  rw [Nat.zero_mul]
  exact ⟨finite_zero false, rfl, units_zero false⟩

theorem Numeral.exactly?_eq {numeral : Numeral} (whole : hexValue? 0 numeral.whole = some m)
    (places : hexValue? m numeral.places = some n) (short : Short n) (small : m < 2 ^ 1024)
    (few : numeral.places.length ≤ 267) (result : IsUnits z a)
    (scaled : a * 2 ^ (b + 4 * numeral.places.length) = n * 2 ^ (d + binaryPlaces))
    (exponent : (d : Int) - b = numeral.exponent) :
    numeral.exactly? = some (if numeral.negative then z.neg else z) := by
  have unit := binaryPlaces_eq
  obtain ⟨t, bits⟩ : ∃ t, t + 4 + 4 * numeral.places.length = binaryPlaces :=
    ⟨binaryPlaces - 4 - 4 * numeral.places.length, by omega⟩
  have place : IsUnits sixteenth (2 ^ (t + 4 * numeral.places.length)) := by
    have four : binaryPlaces - 4 = t + 4 * numeral.places.length := by omega
    exact four ▸ isUnits_sixteenth
  obtain ⟨v, first, front⟩ :=
    gatherWholeExactly?_eq whole (short.of_prefix places) small isUnits_zero
  rw [← bits] at front
  obtain ⟨w, second, gathered⟩ := gatherPlacesExactly?_eq places short
    (placed_lt places small bits) front place (by omega)
  have third : scaleExactly? w numeral.exponent = some z := by
    refine scaleExactly?_eq gathered result (m := b) (n := d) ?_ exponent
    rw [mul_assoc, ← pow_add]
    exact rebalance scaled (by omega)
  simp only [exactly?, Option.bind_eq_bind]
  rw [first, Option.bind_some, second, Option.bind_some, third, Option.bind_some]
  rfl

end IppCode.Binary64.Hexadecimal
