import IppCode.Binary64.Reader
import IppCode.Proofs.Binary64.Hexadecimal
import Mathlib.Data.List.TakeWhile

/-!
# The spelling of hexadecimal text

What a hexadecimal text is made of: a sign, a mark, digits with a point and an exponent, of which
some may be missing. A text that is put together in this way is taken apart again
(`numeral?_of_spells`), and is never read as a decimal one (`read?_of_spells`).
-/

namespace IppCode.Binary64

open Text

variable {negative marked : Bool} {text rest sign body mantissa whole places : List Char}
variable {c d : Char} {e : Int}

def IsHexLetter (c : Char) : Prop := c = 'x' ∨ c = 'X' ∨ c = 'p' ∨ c = 'P'

namespace IsHexLetter

theorem of_dropWhile (letter : IsHexLetter c) (inside : c ∈ text) :
    c ∈ text.dropWhile Char.isDigit := by
  rw [← List.takeWhile_append_dropWhile (p := Char.isDigit) (l := text), List.mem_append] at inside
  refine inside.resolve_left fun digits => ?_
  have digit := List.mem_takeWhile_imp digits
  rcases letter with rfl | rfl | rfl | rfl <;> cases digit

theorem of_cons (letter : IsHexLetter c) (inside : c ∈ d :: text) (other : ¬ IsHexLetter d) :
    c ∈ text := by
  refine (List.mem_cons.1 inside).resolve_left ?_
  rintro rfl
  exact other letter

theorem of_splitSign (letter : IsHexLetter c) (inside : c ∈ text) : c ∈ (splitSign text).2 := by
  unfold splitSign
  split
  · exact letter.of_cons inside (by unfold IsHexLetter; decide)
  · exact letter.of_cons inside (by unfold IsHexLetter; decide)
  · exact inside

end IsHexLetter

namespace Decimal

theorem special?_eq_none (letter : IsHexLetter c) (inside : c ∈ text) :
    special? negative text = none := by
  have lower : c.toLower ∈ text.map Char.toLower := List.mem_map_of_mem inside
  have other (word : String) (clean : 'x' ∉ word.toList ∧ 'p' ∉ word.toList) :
      String.ofList (text.map Char.toLower) ≠ word := by
    rintro rfl
    rw [String.toList_ofList] at clean
    rcases letter with rfl | rfl | rfl | rfl
    · exact clean.1 lower
    · exact clean.1 lower
    · exact clean.2 lower
    · exact clean.2 lower
  rw [special?]
  simp only [other "inf" (by decide), other "infinity" (by decide), other "nan" (by decide),
    or_false, if_false]

theorem exponent?_eq_none (letter : IsHexLetter c) (inside : c ∈ text) : exponent? text = none := by
  have digits : (splitSign text).2.all Char.isDigit = false := by
    rw [List.all_eq_false]
    refine ⟨c, letter.of_splitSign inside, ?_⟩
    rcases letter with rfl | rfl | rfl | rfl <;> decide
  unfold exponent?
  simp [digits]

theorem unsigned?_eq_none (letter : IsHexLetter c) (inside : c ∈ text) :
    unsigned? negative text = none := by
  have exponent {d : Char} {tail : List Char} (inside : c ∈ d :: tail) (e : d = 'e' ∨ d = 'E') :
      exponent? tail = none := by
    refine exponent?_eq_none letter (letter.of_cons inside ?_)
    rcases e with rfl | rfl <;> (unfold IsHexLetter; decide)
  have later := letter.of_dropWhile inside
  unfold unsigned?
  generalize text.dropWhile Char.isDigit = rest at later
  simp only [Option.bind_eq_bind]
  -- The letter is neither a digit nor the point, so something is left where an exponent is read.
  split
  · rename_i tail
    have last := letter.of_dropWhile (letter.of_cons later (by unfold IsHexLetter; decide))
    cases rest : tail.dropWhile Char.isDigit with
    | nil => cases rest ▸ last
    | cons d tail =>
      rw [rest] at last
      by_cases e : d = 'e' ∨ d = 'E'
      · simp [e, exponent last e]
      · simp [e]
  · cases rest with
    | nil => cases later
    | cons d tail =>
      by_cases e : d = 'e' ∨ d = 'E'
      · simp [e, exponent later e]
      · simp [e]

theorem read?_eq_none (letter : IsHexLetter c) (inside : c ∈ text) : read? text = none := by
  have inside := letter.of_splitSign inside
  unfold read?
  simp only [special?_eq_none letter inside, unsigned?_eq_none letter inside, Option.orElse_none]

end Decimal

namespace Hexadecimal

inductive SignText : Bool → List Char → Prop
  | missing : SignText false []
  | plus : SignText false ['+']
  | minus : SignText true ['-']

inductive MarkText : Bool → List Char → Prop
  | missing : MarkText false []
  | lower : MarkText true ['0', 'x']
  | upper : MarkText true ['0', 'X']

inductive MantissaText : List Char → List Char → List Char → Prop
  | unpointed (whole : List Char) : MantissaText whole [] whole
  | pointed (whole places : List Char) : MantissaText whole places (whole ++ '.' :: places)

inductive ExponentText : Bool → Int → List Char → Prop
  | missing : ExponentText true 0 []
  | present {marked negative : Bool} {c : Char} {sign digits : List Char}
      (letter : c = 'p' ∨ c = 'P') (signed : SignText negative sign) (nonempty : digits ≠ [])
      (decimal : ∀ d ∈ digits, d.isDigit = true) :
      ExponentText marked
        (if negative then -(decimalValue digits : Int) else decimalValue digits)
        (c :: (sign ++ digits))

/-- A text in hexadecimal form, and the numeral that it stands for. -/
structure Spells (numeral : Numeral) (text : List Char) : Prop where
  parts : ∃ marked sign mark mantissa exponent, text = sign ++ (mark ++ (mantissa ++ exponent)) ∧
    SignText numeral.negative sign ∧ MarkText marked mark ∧
    MantissaText numeral.whole numeral.places mantissa ∧
    ExponentText marked numeral.exponent exponent
  whole : ∀ c ∈ numeral.whole, hexDigitValue? c ≠ none
  places : ∀ c ∈ numeral.places, hexDigitValue? c ≠ none
  nonempty : numeral.whole ≠ [] ∨ numeral.places ≠ []
  range : leastExponent ≤ numeral.exponent ∧ numeral.exponent ≤ greatestExponent

theorem SignText.splitSign (signed : SignText negative sign) (plus : rest.head? ≠ some '+')
    (minus : rest.head? ≠ some '-') : splitSign (sign ++ rest) = (negative, rest) := by
  cases signed with
  | plus => rfl
  | minus => rfl
  | missing => exact splitSign_of_head plus minus

theorem SignText.plain (signed : SignText negative sign) : Plain sign := by
  cases signed <;> decide

def IsPlace (c : Char) : Prop := c = '.' ∨ hexDigitValue? c ≠ none

theorem IsPlace.toNat (place : IsPlace c) :
    c.toNat = 46 ∨ 48 ≤ c.toNat ∧ c.toNat ≤ 57 ∨ 65 ≤ c.toNat ∧ c.toNat ≤ 70 ∨
      97 ≤ c.toNat ∧ c.toNat ≤ 102 := by
  rcases place with rfl | digit
  · exact .inl rfl
  · obtain ⟨d, value⟩ := Option.ne_none_iff_exists'.1 digit
    exact .inr (of_hexDigitValue? value).2

theorem IsPlace.ne (place : IsPlace c)
    (other : d = '+' ∨ d = '-' ∨ d = 'x' ∨ d = 'X' ∨ d = 'p' ∨ d = 'P') : c ≠ d := by
  rintro rfl
  have range := place.toNat
  rcases other with rfl | rfl | rfl | rfl | rfl | rfl <;> revert range <;> decide

theorem IsPlace.not_isExponentMark (place : IsPlace c) : (!isExponentMark c) = true := by
  have small : c ≠ 'p' := place.ne (by simp)
  have large : c ≠ 'P' := place.ne (by simp)
  simp [isExponentMark, small, large]

theorem MantissaText.isPlace (mantissa : MantissaText whole places text)
    (whole : ∀ c ∈ whole, hexDigitValue? c ≠ none)
    (places : ∀ c ∈ places, hexDigitValue? c ≠ none) : ∀ c ∈ text, IsPlace c := by
  cases mantissa with
  | unpointed => exact fun c inside => .inr (whole c inside)
  | pointed =>
    simp only [List.forall_mem_append, List.forall_mem_cons]
    exact ⟨fun c inside => .inr (whole c inside), .inl rfl,
      fun c inside => .inr (places c inside)⟩

theorem MantissaText.ne_nil (mantissa : MantissaText whole places text)
    (nonempty : whole ≠ [] ∨ places ≠ []) : text ≠ [] := by
  cases mantissa with
  | unpointed => exact nonempty.resolve_right (not_not_intro rfl)
  | pointed => simp

theorem MantissaText.splitFirst? (mantissa : MantissaText whole places text)
    (digits : ∀ c ∈ whole, hexDigitValue? c ≠ none) :
    (splitFirst? '.' text).getD (text, []) = (whole, places) := by
  have point : '.' ∉ whole := fun inside => digits '.' inside rfl
  cases mantissa with
  | unpointed => rw [splitFirst?_eq_none point, Option.getD_none]
  | pointed => rw [splitFirst?_append point, Option.getD_some]

theorem ExponentText.exponentAfter? (exponent : ExponentText marked e text)
    (low : leastExponent ≤ e) (high : e ≤ greatestExponent) :
    exponentAfter? marked text = some e := by
  cases exponent with
  | missing => rfl
  | present letter signed nonempty decimal =>
    refine boundedInteger?_eq_some ?_ low high
    rw [integer?, signed.splitSign (head?_ne_of_digits decimal rfl)
      (head?_ne_of_digits decimal rfl)]
    simp only [natural?_of_digits nonempty decimal]
    rfl

theorem ExponentText.isExponentMark (exponent : ExponentText marked e (c :: text)) :
    isExponentMark c = true := by
  cases exponent with
  | present letter => rcases letter with rfl | rfl <;> rfl

theorem ExponentText.plain (exponent : ExponentText marked e text) : Plain text := by
  cases exponent with
  | missing => decide
  | present letter signed nonempty decimal =>
    refine List.forall_mem_cons.2 ⟨?_, List.forall_mem_append.2 ⟨signed.plain, plain_of_digits decimal⟩⟩
    rcases letter with rfl | rfl <;> decide

theorem ExponentText.clean (exponent : ExponentText marked e text) : 'x' ∉ text ∧ 'X' ∉ text := by
  cases exponent with
  | missing => simp
  | present letter signed nonempty decimal =>
    have small := mt (decimal 'x') (by decide)
    have large := mt (decimal 'X') (by decide)
    rcases letter with rfl | rfl <;> cases signed <;> simp [small, large]

theorem ExponentText.exists_letter (exponent : ExponentText false e text) :
    ∃ c ∈ text, IsHexLetter c := by
  cases exponent with
  | present letter => exact ⟨_, List.mem_cons_self, .inr (.inr letter)⟩

theorem MarkText.stripMark (mark : MarkText marked sign) (small : 'x' ∉ rest) (large : 'X' ∉ rest) :
    stripMark (sign ++ rest) = (marked, rest) := by
  cases mark with
  | lower => rfl
  | upper => rfl
  | missing =>
    rw [List.nil_append]
    unfold Hexadecimal.stripMark
    split
    · simp at small
    · simp at large
    · rfl

theorem takeWhile_mantissa (places : ∀ c ∈ mantissa, IsPlace c)
    (exponent : ExponentText marked e text) :
    (mantissa ++ text).takeWhile (!isExponentMark ·) = mantissa ∧
      (mantissa ++ text).dropWhile (!isExponentMark ·) = text := by
  refine span_append (p := (!isExponentMark ·)) (fun c place => (places c place).not_isExponentMark)
    fun c first => ?_
  cases text with
  | nil => cases first
  | cons mark text =>
    obtain rfl := Option.some.inj first
    simp [exponent.isExponentMark]

theorem Spells.isPlace {numeral : Numeral} (spells : Spells numeral text)
    (form : MantissaText numeral.whole numeral.places mantissa) : ∀ c ∈ mantissa, IsPlace c :=
  form.isPlace spells.whole spells.places

theorem numeral?_of_spells {numeral : Numeral} (spells : Spells numeral text) :
    numeral? text = some numeral := by
  obtain ⟨marked, sign, mark, mantissa, exponent, rfl, signed, marking, form, power⟩ := spells.parts
  have places := spells.isPlace form
  have start {d : Char} (other : d = '+' ∨ d = '-') :
      (mark ++ (mantissa ++ exponent)).head? ≠ some d := by
    cases marking with
    | lower | upper => rcases other with rfl | rfl <;> simp
    | missing =>
      cases mantissa with
      | nil => exact absurd rfl (form.ne_nil spells.nonempty)
      | cons c rest =>
        have first : c ≠ d := (places c List.mem_cons_self).ne (by tauto)
        simpa using first
  have clean {d : Char} (other : d = 'x' ∨ d = 'X') : d ∉ mantissa ++ exponent := by
    rw [List.mem_append, not_or]
    refine ⟨fun inside => (places d inside).ne (by tauto) rfl, ?_⟩
    rcases other with rfl | rfl
    · exact power.clean.1
    · exact power.clean.2
  obtain ⟨front, back⟩ := takeWhile_mantissa places power
  have nonempty : (numeral.whole.isEmpty && numeral.places.isEmpty) = false := by
    rw [Bool.and_eq_false_iff, List.isEmpty_eq_false_iff, List.isEmpty_eq_false_iff]
    exact spells.nonempty
  simp only [numeral?, signed.splitSign (start (.inl rfl)) (start (.inr rfl)),
    marking.stripMark (clean (.inl rfl)) (clean (.inr rfl)), front, back,
    form.splitFirst? spells.whole, power.exponentAfter? spells.range.1 spells.range.2,
    Option.bind_some, nonempty, Bool.false_eq_true, if_false]

theorem Spells.plain {numeral : Numeral} (spells : Spells numeral text) : Plain text := by
  obtain ⟨marked, sign, mark, mantissa, exponent, rfl, signed, marking, form, power⟩ := spells.parts
  have places : Plain mantissa := fun c inside => by
    have range := (spells.isPlace form c inside).toNat
    omega
  have marking : Plain mark := by cases marking <;> decide
  simp only [Plain, List.forall_mem_append]
  exact ⟨signed.plain, marking, places, power.plain⟩

theorem Spells.exists_letter {numeral : Numeral} (spells : Spells numeral text) :
    ∃ c ∈ text, IsHexLetter c := by
  obtain ⟨marked, sign, mark, mantissa, exponent, rfl, -, marking, -, power⟩ := spells.parts
  cases marking with
  | missing =>
    obtain ⟨c, inside, letter⟩ := power.exists_letter
    exact ⟨c, by simp [inside], letter⟩
  | lower => exact ⟨'x', by simp, .inl rfl⟩
  | upper => exact ⟨'X', by simp, .inr (.inl rfl)⟩

theorem read?_of_spells {numeral : Numeral} (spells : Spells numeral text) :
    Binary64.read? text = numeral.value? := by
  obtain ⟨c, inside, letter⟩ := spells.exists_letter
  rw [Binary64.read?, trim_eq_self spells.plain.unblank]
  simp only [Decimal.read?_eq_none letter inside, Option.orElse_none]
  rw [read?_eq, numeral?_of_spells spells, Option.bind_some]

end Hexadecimal

end IppCode.Binary64
