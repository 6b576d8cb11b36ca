import IppCode.Text.Blank
import IppCode.Text.Numeral
import Mathlib.Algebra.Order.Ring.Nat
import Mathlib.Tactic.IntervalCases

/-!
# Numerals

A whole number is read back from its decimal digits, with its sign (`integer?_toString`) and within
its bounds. The hexadecimal digits of a number have its value (`hexValue?_hexDigits`).
-/

namespace IppCode.Text

variable {c : Char} {text rest : List Char}

theorem isBlank_eq_false (printable : 32 < c.toNat) (ascii : c.toNat < 128) :
    isBlank c = false := by
  simp only [isBlank, blankRanges, inRanges, Bool.and_eq_false_iff, Bool.or_eq_false_iff,
    decide_eq_false_iff_not]
  omega

theorem trim_eq_self (unbroken : ∀ c ∈ text, isBlank c = false) : trim text = text := by
  have start {text : List Char} (unbroken : ∀ c ∈ text, isBlank c = false) :
      text.dropWhile isBlank = text := by
    cases text with
    | nil => rfl
    | cons c text => simp [unbroken c List.mem_cons_self]
  rw [trim, start unbroken, start fun c inside => unbroken c (List.mem_reverse.1 inside),
    List.reverse_reverse]

/-- Every character is between the plus sign and the end of ASCII. -/
def Plain (text : List Char) : Prop := ∀ c ∈ text, 43 ≤ c.toNat ∧ c.toNat < 128

instance : Decidable (Plain text) := List.decidableBAll _ text

theorem Plain.unblank (plain : Plain text) : ∀ c ∈ text, isBlank c = false := fun c inside => by
  obtain ⟨low, high⟩ := plain c inside
  exact isBlank_eq_false (by omega) high

theorem toNat_of_isDigit (digit : c.isDigit = true) : 48 ≤ c.toNat ∧ c.toNat ≤ 57 :=
  Char.isDigit_iff_toNat.1 digit

theorem isBlank_of_isDigit (digit : c.isDigit = true) : isBlank c = false := by
  have ⟨low, high⟩ := toNat_of_isDigit digit
  exact isBlank_eq_false (by omega) (by omega)

theorem isDigit_of_mem_toDigits {n : Nat} (digit : c ∈ Nat.toDigits 10 n) : c.isDigit = true :=
  Nat.isDigit_of_mem_toDigits (by decide) (by decide) digit

theorem digitValue_digitChar {d : Nat} (small : d < 10) : digitValue d.digitChar = d := by
  interval_cases d <;> rfl

theorem hexDigitValue?_digitChar {d : Nat} (small : d < 16) :
    hexDigitValue? d.digitChar = some d := by
  interval_cases d <;> rfl

theorem natural?_of_digits (nonempty : text ≠ []) (digits : ∀ c ∈ text, c.isDigit = true) :
    natural? text = some (decimalValue text) := by
  have all : text.all Char.isDigit = true := List.all_eq_true.2 digits
  simp [natural?, nonempty, all]

theorem of_natural? {n : Nat} (read : natural? text = some n) :
    text ≠ [] ∧ (∀ c ∈ text, c.isDigit = true) ∧ n = decimalValue text := by
  unfold natural? at read
  split at read
  · rename_i digits
    simp only [Bool.and_eq_true, Bool.not_eq_true', List.isEmpty_eq_false_iff,
      List.all_eq_true] at digits
    exact ⟨digits.1, digits.2, (Option.some.inj read).symm⟩
  · cases read

theorem natural?_toDigits (n : Nat) : natural? (Nat.toDigits 10 n) = some n := by
  have value : decimalValue (Nat.toDigits 10 n) = n := Nat.ofDigitChars_ten_toDigits
  rw [natural?_of_digits Nat.toDigits_ne_nil fun _ => isDigit_of_mem_toDigits, value]

theorem splitSign_of_head (plus : text.head? ≠ some '+') (minus : text.head? ≠ some '-') :
    splitSign text = (false, text) := by
  unfold splitSign
  split
  · exact absurd rfl minus
  · exact absurd rfl plus
  · rfl

theorem head?_ne_of_digits (digits : ∀ c ∈ text, c.isDigit = true) (other : c.isDigit = false) :
    text.head? ≠ some c := fun first => by
  cases other.symm.trans (digits c (List.mem_of_mem_head? first))

theorem splitSign_of_digits (digits : ∀ c ∈ text, c.isDigit = true) :
    splitSign text = (false, text) :=
  splitSign_of_head (head?_ne_of_digits digits rfl) (head?_ne_of_digits digits rfl)

theorem integer?_minus (n : Nat) : integer? ('-' :: Nat.toDigits 10 n) = some (-n : Int) := by
  simp [integer?, splitSign, natural?_toDigits]

theorem integer?_toDigits (n : Nat) : integer? (Nat.toDigits 10 n) = some (n : Int) := by
  simp [integer?, splitSign_of_digits fun _ => isDigit_of_mem_toDigits, natural?_toDigits]

theorem toList_toString_int (n : Int) :
    (toString n).toList = if n < 0 then '-' :: Nat.toDigits 10 n.natAbs
      else Nat.toDigits 10 n.natAbs := by
  cases n with
  | ofNat n => simp [toString, Int.repr]
  | negSucc n => simp [toString, Int.repr, Int.negSucc_lt_zero]

theorem plain_of_digits (digits : ∀ c ∈ text, c.isDigit = true) : Plain text := fun c inside => by
  have range := toNat_of_isDigit (digits c inside)
  omega

theorem plain_toString_int (n : Int) : Plain (toString n).toList := by
  have digits : Plain (Nat.toDigits 10 n.natAbs) := plain_of_digits fun _ => isDigit_of_mem_toDigits
  rw [toList_toString_int]
  split
  · exact List.forall_mem_cons.2 ⟨by decide, digits⟩
  · exact digits

theorem integer?_toString (n : Int) : integer? (toString n).toList = some n := by
  rw [toList_toString_int]
  split
  · rw [integer?_minus]
    congr 1
    omega
  · rw [integer?_toDigits]
    congr 1
    omega

theorem boundedInteger?_eq_some {least greatest n : Int} (read : integer? text = some n)
    (above : least ≤ n) (below : n ≤ greatest) :
    boundedInteger? least greatest text = some n := by
  simp [boundedInteger?, read, above, below]

def hexValue? : Nat → List Char → Option Nat
  | m, [] => some m
  | m, c :: rest => (hexDigitValue? c).bind fun d => hexValue? (16 * m + d) rest

theorem of_hexDigitValue? {d : Nat} (digit : hexDigitValue? c = some d) :
    d < 16 ∧ (48 ≤ c.toNat ∧ c.toNat ≤ 57 ∨ 65 ≤ c.toNat ∧ c.toNat ≤ 70 ∨
      97 ≤ c.toNat ∧ c.toNat ≤ 102) := by
  unfold hexDigitValue? at digit
  split at digit
  · rename_i decimal
    have ⟨low, high⟩ := toNat_of_isDigit decimal
    obtain rfl := Option.some.inj digit
    have zero : '0'.toNat = 48 := rfl
    omega
  · split at digit
    · rename_i letter
      have low : 'a'.toNat ≤ c.toNat := letter.1
      have high : c.toNat ≤ 'f'.toNat := letter.2
      obtain rfl := Option.some.inj digit
      have first : 'a'.toNat = 97 := rfl
      have last : 'f'.toNat = 102 := rfl
      omega
    · split at digit
      · rename_i letter
        have low : 'A'.toNat ≤ c.toNat := letter.1
        have high : c.toNat ≤ 'F'.toNat := letter.2
        obtain rfl := Option.some.inj digit
        have first : 'A'.toNat = 65 := rfl
        have last : 'F'.toNat = 70 := rfl
        omega
      · cases digit

theorem hexValue?_append (m : Nat) (first second : List Char) :
    hexValue? m (first ++ second) = (hexValue? m first).bind (hexValue? · second) := by
  induction first generalizing m with
  | nil => rfl
  | cons c first ih => simp only [List.cons_append, hexValue?, ih, Option.bind_assoc]

theorem hexValue?_div {m n : Nat} (digits : hexValue? m text = some n) :
    n / 16 ^ text.length = m := by
  induction text generalizing m with
  | nil =>
    obtain rfl := Option.some.inj digits
    exact Nat.div_one m
  | cons c rest ih =>
    obtain ⟨d, digit, digits⟩ := Option.bind_eq_some_iff.1 digits
    have small := (of_hexDigitValue? digit).1
    rw [List.length_cons, pow_succ, ← Nat.div_div_eq_div_mul, ih digits]
    omega

theorem hexValue?_le {m n : Nat} (digits : hexValue? m text = some n) : m ≤ n := by
  rw [← hexValue?_div digits]
  exact Nat.div_le_self n _

theorem hexValue?_mul_le {m n : Nat} (digits : hexValue? m text = some n) :
    m * 16 ^ text.length ≤ n := by
  rw [← hexValue?_div digits]
  exact Nat.div_mul_le_self n _

theorem exists_hexValue? (m : Nat) (digits : ∀ c ∈ text, hexDigitValue? c ≠ none) :
    ∃ n, hexValue? m text = some n := by
  induction text generalizing m with
  | nil => exact ⟨m, rfl⟩
  | cons c rest ih =>
    obtain ⟨first, later⟩ := List.forall_mem_cons.1 digits
    obtain ⟨d, digit⟩ := Option.ne_none_iff_exists'.1 first
    obtain ⟨n, value⟩ := ih (16 * m + d) later
    exact ⟨n, by rw [hexValue?, digit, Option.bind_some, value]⟩

theorem isHexDigit_of_hexValue? {m n : Nat} (digits : hexValue? m text = some n) :
    ∀ c ∈ text, hexDigitValue? c ≠ none := by
  induction text generalizing m with
  | nil => simp
  | cons c rest ih =>
    obtain ⟨d, digit, digits⟩ := Option.bind_eq_some_iff.1 digits
    exact List.forall_mem_cons.2 ⟨Option.ne_none_iff_exists'.2 ⟨d, digit⟩, ih digits⟩

theorem hexValue?_zeros (m : Nat) (zeros : ∀ c ∈ text, hexDigitValue? c = some 0) :
    hexValue? m text = some (m * 16 ^ text.length) := by
  induction text generalizing m with
  | nil => rw [List.length_nil, pow_zero, mul_one, hexValue?]
  | cons c rest ih =>
    obtain ⟨first, later⟩ := List.forall_mem_cons.1 zeros
    rw [hexValue?, first, Option.bind_some, ih _ later, List.length_cons, pow_succ', Nat.add_zero,
      ← mul_assoc, mul_comm m]

theorem hexValue?_eq_mul_iff {m n : Nat} (digits : hexValue? m text = some n) :
    n = m * 16 ^ text.length ↔ ∀ c ∈ text, hexDigitValue? c = some 0 := by
  induction text generalizing m with
  | nil =>
    obtain rfl := Option.some.inj digits
    simp
  | cons c rest ih =>
    obtain ⟨d, digit, digits⟩ := Option.bind_eq_some_iff.1 digits
    have least := hexValue?_mul_le digits
    have shifted : m * 16 ^ (c :: rest).length = 16 * m * 16 ^ rest.length := by
      rw [List.length_cons, pow_succ', ← mul_assoc, mul_comm m]
    rw [List.forall_mem_cons, ← ih digits, digit, Option.some_inj, shifted]
    constructor
    · intro same
      have none : d = 0 := by
        by_contra nonzero
        have more : 16 * m * 16 ^ rest.length < (16 * m + d) * 16 ^ rest.length :=
          Nat.mul_lt_mul_of_pos_right (by omega) (by positivity)
        omega
      exact ⟨none, by rw [none, same, Nat.add_zero]⟩
    · rintro ⟨rfl, same⟩
      rw [same, Nat.add_zero]

theorem hexValue?_hexDigits {width n : Nat} (m : Nat) (small : n < 16 ^ width) :
    hexValue? m (hexDigits width n) = some (m * 16 ^ width + n) := by
  induction width generalizing n with
  | zero =>
    have none : n = 0 := by simpa using small
    simp [hexDigits, hexValue?, none]
  | succ width ih =>
    have front : n / 16 < 16 ^ width := by
      rw [Nat.div_lt_iff_lt_mul (by decide), ← pow_succ]
      exact small
    have last : hexDigitValue? (n % 16).digitChar = some (n % 16) :=
      hexDigitValue?_digitChar (Nat.mod_lt n (by decide))
    rw [hexDigits, hexValue?_append, ih front]
    simp only [Option.bind_some, hexValue?, last, Option.some.injEq, pow_succ, ← mul_assoc]
    omega

theorem isHexDigit_of_mem_hexDigits {width n : Nat} (inside : c ∈ hexDigits width n) :
    hexDigitValue? c ≠ none := by
  induction width generalizing n with
  | zero => cases inside
  | succ width ih =>
    rcases List.mem_append.1 inside with front | last
    · exact ih front
    · rw [List.mem_singleton.1 last, hexDigitValue?_digitChar (Nat.mod_lt n (by decide))]
      exact Option.some_ne_none _

theorem length_hexDigits (width n : Nat) : (hexDigits width n).length = width := by
  induction width generalizing n with
  | zero => rfl
  | succ width ih => rw [hexDigits, List.length_append, ih, List.length_singleton]

end IppCode.Text
