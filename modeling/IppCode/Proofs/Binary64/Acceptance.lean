import IppCode.Proofs.Binary64.Spelling
import IppCode.Proofs.Text.Slice

/-!
# Accepted texts

The texts of which a number is read, as a grammar (`accepted_iff_spelled`). Decimal text is a sign
and a word, or a sign and digits with a point and an exponent (`Decimal.read?_isSome`). Hexadecimal
text is what `Hexadecimal.Spells` says (`Hexadecimal.read?_isSome`). Its reader may as well cut the
bytes of the encoding, since no offset lies inside a character (`Hexadecimal.sliced?_eq`).
-/

namespace IppCode.Binary64

open Text

variable {negative marked : Bool} {text mantissa whole places power : List Char}
variable {c : Char} {e : Int}

namespace Hexadecimal

theorem exists_signText (text : List Char) :
    ∃ sign, text = sign ++ (splitSign text).2 ∧ SignText (splitSign text).1 sign := by
  unfold splitSign
  split
  · exact ⟨['-'], rfl, .minus⟩
  · exact ⟨['+'], rfl, .plus⟩
  · exact ⟨[], rfl, .missing⟩

end Hexadecimal

/-! ## Decimal text -/

namespace Decimal

open Hexadecimal (SignText MantissaText exists_signText)

inductive PowerText : List Char → Prop
  | missing : PowerText []
  | present {negative : Bool} {c : Char} {sign digits : List Char} (letter : c = 'e' ∨ c = 'E')
      (signed : SignText negative sign) (nonempty : digits ≠ [])
      (decimal : ∀ d ∈ digits, d.isDigit = true) : PowerText (c :: (sign ++ digits))

/-- A word in any case, or digits with at most one point and an exponent. -/
inductive UnsignedText : List Char → Prop
  | word {text : List Char}
      (named : String.ofList (text.map Char.toLower) ∈ ["inf", "infinity", "nan"]) :
      UnsignedText text
  | number {whole places mantissa power : List Char} (form : MantissaText whole places mantissa)
      (decimal : ∀ d ∈ whole ++ places, d.isDigit = true) (nonempty : whole ++ places ≠ [])
      (scaled : PowerText power) : UnsignedText (mantissa ++ power)

def Spells (text : List Char) : Prop :=
  ∃ negative sign body, text = sign ++ body ∧ SignText negative sign ∧ UnsignedText body

theorem special?_isSome : (special? negative text).isSome ↔
    String.ofList (text.map Char.toLower) ∈ ["inf", "infinity", "nan"] := by
  unfold special?
  simp only [List.mem_cons, List.not_mem_nil, or_false, ← or_assoc]
  split
  · rename_i word
    simp [word]
  · rename_i finite
    simp [finite]

theorem exponent?_isSome : (exponent? text).isSome ↔
    (splitSign text).2 ≠ [] ∧ ∀ d ∈ (splitSign text).2, d.isDigit = true := by
  unfold exponent?
  simp

def power? : List Char → Option Int
  | [] => some 0
  | c :: tail => if c = 'e' ∨ c = 'E' then exponent? tail else none

theorem power?_isSome : (power? text).isSome ↔ PowerText text := by
  constructor
  · intro read
    cases text with
    | nil => exact .missing
    | cons c tail =>
      rw [power?] at read
      split at read
      · rename_i letter
        obtain ⟨nonempty, decimal⟩ := exponent?_isSome.1 read
        obtain ⟨sign, same, signed⟩ := exists_signText tail
        rw [same]
        exact .present letter signed nonempty decimal
      · cases read
  · rintro (_ | ⟨letter, signed, nonempty, decimal⟩)
    · rfl
    · rw [power?, if_pos letter, exponent?_isSome, signed.splitSign
        (head?_ne_of_digits decimal rfl) (head?_ne_of_digits decimal rfl)]
      exact ⟨nonempty, decimal⟩

def afterPoint : List Char → List Char × List Char
  | '.' :: tail => (tail.takeWhile Char.isDigit, tail.dropWhile Char.isDigit)
  | rest => ([], rest)

theorem afterPoint_of_head (other : text.head? ≠ some '.') : afterPoint text = ([], text) := by
  unfold afterPoint
  split
  · exact absurd rfl other
  · rfl

/-- The number that the parts of a text make. -/
def assembled? (negative : Bool) (whole places power : List Char) : Option Binary64 := do
  let digits := whole ++ places
  if digits.isEmpty then none
  let exponent ← match power with
    | [] => some 0
    | c :: tail => if c = 'e' ∨ c = 'E' then exponent? tail else none
  return scale negative (decimalValue digits) digits.length (exponent - places.length)

theorem unsigned?_eq (negative : Bool) (text : List Char) : unsigned? negative text =
    assembled? negative (text.takeWhile Char.isDigit) (afterPoint (text.dropWhile Char.isDigit)).1
      (afterPoint (text.dropWhile Char.isDigit)).2 := by
  unfold unsigned?
  cases text.dropWhile Char.isDigit with
  | nil => rfl
  | cons c tail =>
    by_cases point : c = '.'
    · subst point
      rfl
    · -- Without a point the places are empty, and the power begins here.
      have other : (c :: tail).head? ≠ some '.' := fun first => point (Option.some.inj first)
      rw [afterPoint_of_head other]
      dsimp only
      split
      · rename_i same
        exact absurd (List.cons.inj same).1 point
      · rfl

theorem assembled?_isSome : (assembled? negative whole places power).isSome ↔
    whole ++ places ≠ [] ∧ PowerText power := by
  rw [assembled?, ← power?_isSome]
  cases whole ++ places with
  | nil => simp
  | cons =>
    cases power with
    | nil => simp [power?]
    | cons c tail =>
      by_cases letter : c = 'e' ∨ c = 'E'
      · cases exponent : exponent? tail <;> simp [power?, letter, exponent]
      · simp [power?, letter]

theorem PowerText.letter (scaled : PowerText power) : ∀ c ∈ power.head?, c = 'e' ∨ c = 'E' := by
  cases scaled with
  | missing => simp
  | present letter => simpa using letter

theorem UnsignedText.head?_ne (form : UnsignedText text) (other : c = '+' ∨ c = '-') :
    text.head? ≠ some c := fun first => by
  cases form with
  | word named =>
    have lower : (text.map Char.toLower).head? = some c := by
      rw [List.head?_map, first]
      rcases other with rfl | rfl <;> rfl
    have same {word : String} (same : String.ofList (text.map Char.toLower) = word) :
        word.toList.head? = some c := by
      rw [← same, String.toList_ofList, lower]
    simp only [List.mem_cons, List.not_mem_nil, or_false] at named
    rcases named with named | named | named <;> rcases other with rfl | rfl <;> cases same named
  | @number whole places _ power form decimal nonempty scaled =>
    have inside : c ∈ whole ++ places ∨ c = '.' := by
      cases form with
      | unpointed =>
        cases whole with
        | nil => exact absurd rfl nonempty
        | cons d whole =>
          obtain rfl := Option.some.inj first
          exact .inl List.mem_cons_self
      | pointed =>
        cases whole with
        | nil => exact .inr (Option.some.inj first).symm
        | cons d whole =>
          obtain rfl := Option.some.inj first
          exact .inl List.mem_cons_self
    rcases inside with inside | rfl
    · have digit := decimal c inside
      rcases other with rfl | rfl <;> cases digit
    · rcases other with other | other <;> cases other

theorem span_mantissa (form : MantissaText whole places mantissa)
    (decimal : ∀ d ∈ whole ++ places, d.isDigit = true) (scaled : PowerText power) :
    (mantissa ++ power).takeWhile Char.isDigit = whole ∧
      afterPoint ((mantissa ++ power).dropWhile Char.isDigit) = (places, power) := by
  obtain ⟨front, back⟩ := List.forall_mem_append.1 decimal
  have letter : ∀ c ∈ power.head?, c.isDigit = false := fun c first => by
    rcases scaled.letter c first with rfl | rfl <;> rfl
  cases form with
  | unpointed =>
    obtain ⟨digits, tail⟩ := span_append front letter
    refine ⟨digits, ?_⟩
    rw [tail, afterPoint_of_head fun first => ?_]
    rcases scaled.letter _ first with same | same <;> cases same
  | pointed =>
    have point : ∀ c ∈ ('.' :: (places ++ power)).head?, c.isDigit = false := by
      rintro _ ⟨⟩
      rfl
    obtain ⟨digits, tail⟩ := span_append front point
    obtain ⟨digits', tail'⟩ := span_append back letter
    rw [List.append_assoc, List.cons_append, digits, tail]
    exact ⟨rfl, Prod.ext digits' tail'⟩

theorem exists_mantissaText (text : List Char) : ∃ whole places mantissa power,
    text = mantissa ++ power ∧ MantissaText whole places mantissa ∧
      (∀ d ∈ whole ++ places, d.isDigit = true) ∧ text.takeWhile Char.isDigit = whole ∧
      afterPoint (text.dropWhile Char.isDigit) = (places, power) := by
  have whole := List.takeWhile_append_dropWhile (p := Char.isDigit) (l := text)
  have decimal {text : List Char} : ∀ d ∈ text.takeWhile Char.isDigit, d.isDigit = true :=
    fun d inside => List.mem_takeWhile_imp inside
  by_cases point : (text.dropWhile Char.isDigit).head? = some '.'
  · obtain ⟨tail, later⟩ := List.head?_eq_some_iff.1 point
    have places := List.takeWhile_append_dropWhile (p := Char.isDigit) (l := tail)
    rw [later] at whole ⊢
    refine ⟨_, _, _, _, ?_, .pointed _ _, List.forall_mem_append.2 ⟨decimal, decimal⟩, rfl, rfl⟩
    rw [List.append_assoc, List.cons_append, places, whole]
  · refine ⟨_, _, _, _, whole.symm, .unpointed _, ?_, rfl, afterPoint_of_head point⟩
    rw [List.append_nil]
    exact decimal

theorem read?_isSome : (read? text).isSome ↔ Spells text := by
  have alternatives : (read? text).isSome ↔
      (special? (splitSign text).1 (splitSign text).2).isSome ∨
        (unsigned? (splitSign text).1 (splitSign text).2).isSome := by
    unfold read?
    cases word : special? (splitSign text).1 (splitSign text).2 <;> simp [word]
  rw [alternatives, special?_isSome, unsigned?_eq, assembled?_isSome]
  constructor
  · intro read
    obtain ⟨sign, same, signed⟩ := exists_signText text
    refine ⟨_, sign, _, same, signed, ?_⟩
    rcases read with named | ⟨nonempty, scaled⟩
    · exact .word named
    · obtain ⟨whole, places, mantissa, power, parts, form, decimal, digits, rest⟩ :=
        exists_mantissaText (splitSign text).2
      rw [digits, rest] at nonempty
      rw [rest] at scaled
      exact parts ▸ .number form decimal nonempty scaled
  · rintro ⟨negative, sign, body, rfl, signed, form⟩
    rw [signed.splitSign (form.head?_ne (.inl rfl)) (form.head?_ne (.inr rfl))]
    cases form with
    | word named => exact .inl named
    | number form decimal nonempty scaled =>
      obtain ⟨digits, rest⟩ := span_mantissa form decimal scaled
      rw [digits, rest]
      exact .inr ⟨nonempty, scaled⟩

end Decimal

/-! ## Hexadecimal text -/

namespace Hexadecimal

theorem exists_markText (text : List Char) :
    ∃ mark, text = mark ++ (stripMark text).2 ∧ MarkText (stripMark text).1 mark := by
  unfold stripMark
  split
  · exact ⟨['0', 'x'], rfl, .lower⟩
  · exact ⟨['0', 'X'], rfl, .upper⟩
  · exact ⟨[], rfl, .missing⟩

theorem mantissaText_of_splitFirst?
    (split : (splitFirst? '.' text).getD (text, []) = (whole, places)) :
    MantissaText whole places text := by
  cases point : splitFirst? '.' text with
  | none =>
    obtain ⟨rfl, rfl⟩ := Prod.mk.inj (point ▸ split)
    exact .unpointed _
  | some parts =>
    obtain rfl : parts = (whole, places) := by
      rw [point] at split
      exact split
    exact eq_append_of_splitFirst? point ▸ .pointed whole places

theorem of_boundedInteger? {least greatest n : Int}
    (read : boundedInteger? least greatest text = some n) :
    ∃ negative sign digits, text = sign ++ digits ∧ SignText negative sign ∧ digits ≠ [] ∧
      (∀ d ∈ digits, d.isDigit = true) ∧
      n = (if negative then -(decimalValue digits : Int) else decimalValue digits) ∧
      least ≤ n ∧ n ≤ greatest := by
  obtain ⟨read, range⟩ := Option.filter_eq_some_iff.1 read
  obtain ⟨sign, same, signed⟩ := exists_signText text
  obtain ⟨_, magnitude, value⟩ := Option.map_eq_some_iff.1 read
  obtain ⟨m, digits, whole⟩ := Option.bind_eq_some_iff.1 magnitude
  obtain rfl := Option.some.inj whole
  obtain ⟨nonempty, decimal, rfl⟩ := of_natural? digits
  exact ⟨_, sign, _, same, signed, nonempty, decimal, value.symm, of_decide_eq_true range⟩

theorem exponentText_of_exponentAfter? (after : exponentAfter? marked text = some e)
    (mark : ∀ c ∈ text.head?, isExponentMark c = true) :
    ExponentText marked e text ∧ leastExponent ≤ e ∧ e ≤ greatestExponent := by
  cases text with
  | nil =>
    rw [exponentAfter?] at after
    split at after
    · rename_i marked
      obtain rfl := Option.some.inj after
      exact ⟨marked ▸ .missing, by decide⟩
    · cases after
  | cons c tail =>
    obtain ⟨negative, sign, digits, rfl, signed, nonempty, decimal, rfl, range⟩ :=
      of_boundedInteger? after
    have letter : c = 'p' ∨ c = 'P' := by simpa [isExponentMark] using mark c rfl
    exact ⟨.present letter signed nonempty decimal, range⟩

theorem spells_of_numeral? {numeral : Numeral} (read : numeral? text = some numeral)
    (digits : ∀ c ∈ numeral.whole ++ numeral.places, hexDigitValue? c ≠ none) :
    Spells numeral text := by
  obtain ⟨sign, signs, signed⟩ := exists_signText text
  obtain ⟨mark, marks, marking⟩ := exists_markText (splitSign text).2
  have parts := List.takeWhile_append_dropWhile (p := (!isExponentMark ·))
    (l := (stripMark (splitSign text).2).2)
  unfold numeral? at read
  simp only at read
  obtain ⟨e, after, read⟩ := Option.bind_eq_some_iff.1 read
  split at read
  · cases read
  · rename_i nonempty
    obtain rfl := Option.some.inj read
    have letter : ∀ c ∈ ((stripMark (splitSign text).2).2.dropWhile (!isExponentMark ·)).head?,
        isExponentMark c = true := fun c first => by
      have stops := List.head?_dropWhile_not (!isExponentMark ·) (stripMark (splitSign text).2).2
      simpa [Option.mem_def.1 first] using stops
    obtain ⟨power, range⟩ := exponentText_of_exponentAfter? after letter
    obtain ⟨front, back⟩ := List.forall_mem_append.1 digits
    refine ⟨⟨_, sign, mark, _, _, ?_, signed, marking, mantissaText_of_splitFirst? rfl, power⟩,
      front, back, ?_, range⟩
    · rw [parts, ← marks, ← signs]
    · simpa only [Bool.and_eq_true, List.isEmpty_iff, not_and_or] using nonempty

theorem gatherWhole_isSome (value : Binary64) :
    (gatherWhole value text).isSome ↔ ∀ c ∈ text, hexDigitValue? c ≠ none := by
  induction text generalizing value with
  | nil => simp [gatherWhole]
  | cons c rest ih =>
    rw [gatherWhole, List.forall_mem_cons]
    cases hexDigitValue? c with
    | none => simp
    | some d => simp [ih]

theorem gatherPlaces_isSome (value scale : Binary64) :
    (gatherPlaces value scale text).isSome ↔ ∀ c ∈ text, hexDigitValue? c ≠ none := by
  induction text generalizing value scale with
  | nil => simp [gatherPlaces]
  | cons c rest ih =>
    rw [gatherPlaces, List.forall_mem_cons]
    cases hexDigitValue? c with
    | none => simp
    | some d => simp [ih]

theorem Numeral.value?_isSome (numeral : Numeral) : numeral.value?.isSome ↔
    ∀ c ∈ numeral.whole ++ numeral.places, hexDigitValue? c ≠ none := by
  rw [List.forall_mem_append, ← gatherWhole_isSome (zero false), Numeral.value?]
  cases gatherWhole (zero false) numeral.whole with
  | none => simp
  | some value =>
    rw [← gatherPlaces_isSome value sixteenth, Option.bind_eq_bind, Option.bind_some]
    cases gatherPlaces value sixteenth numeral.places <;> simp

theorem read?_isSome : (read? text).isSome ↔ ∃ numeral, Spells numeral text := by
  rw [read?_eq]
  constructor
  · intro read
    obtain ⟨value, read⟩ := Option.isSome_iff_exists.1 read
    obtain ⟨numeral, parts, value⟩ := Option.bind_eq_some_iff.1 read
    exact ⟨numeral, spells_of_numeral? parts
      (numeral.value?_isSome.1 (Option.isSome_of_eq_some value))⟩
  · rintro ⟨numeral, spells⟩
    rw [numeral?_of_spells spells, Option.bind_some, numeral.value?_isSome]
    exact List.forall_mem_append.2 ⟨spells.whole, spells.places⟩

def slicedSign? (text : List Char) : Option (Bool × List Char) :=
  let first := (bytes (.ofList text)).head?
  if first = some 0x2D then (splitAtByte? 1 text).map fun (_, body) => (true, body)
  else if first = some 0x2B then (splitAtByte? 1 text).map fun (_, body) => (false, body)
  else some (false, text)

def slicedExponent? (marked : Bool) (body : List Char) : Option (List Char × Option Int) :=
  match findByte? isExponentMark body with
  | none => some (body, if marked then some 0 else none)
  | some offset => do
    let (mantissa, _) ← splitAtByte? offset body
    let (_, tail) ← splitAtByte? (offset + 1) body
    return (mantissa, boundedInteger? leastExponent greatestExponent tail)

/-- The parts of a text that is cut at offsets in bytes. There is no result if one of the offsets is
not the end of a character. -/
def sliced? (text : List Char) : Option (Option Numeral) := do
  let (negative, body) ← slicedSign? text
  let (marked, body) := stripMark body
  let (mantissa, exponent) ← slicedExponent? marked body
  let (whole, places) := (splitFirst? '.' mantissa).getD (mantissa, [])
  return exponent.bind fun exponent =>
    if whole.isEmpty && places.isEmpty then none else some ⟨negative, whole, places, exponent⟩

theorem slicedSign?_eq (text : List Char) : slicedSign? text = some (splitSign text) := by
  have minus := head?_bytes text (c := '-') (b := 0x2D) rfl (by decide)
  have plus := head?_bytes text (c := '+') (b := 0x2B) rfl (by decide)
  have cut {c : Char} (body : List Char) (single : c.utf8Size = 1) :
      splitAtByte? 1 (c :: body) = some ([c], body) :=
    splitAtByte?_eq_some.2 ⟨rfl, by simp [single]⟩
  unfold slicedSign?
  simp only [minus, plus]
  split
  · rename_i first
    obtain ⟨body, rfl⟩ := List.head?_eq_some_iff.1 first
    rw [cut body rfl]
    rfl
  · split
    · rename_i first
      obtain ⟨body, rfl⟩ := List.head?_eq_some_iff.1 first
      rw [cut body rfl]
      rfl
    · rename_i other
      rw [splitSign_of_head other ‹_›]

theorem slicedExponent?_eq (marked : Bool) (body : List Char) : slicedExponent? marked body =
    some (body.takeWhile (!isExponentMark ·),
      exponentAfter? marked (body.dropWhile (!isExponentMark ·))) := by
  unfold slicedExponent?
  cases found : findByte? isExponentMark body with
  | none =>
    have clean : ∀ c ∈ body, (!isExponentMark c) = true := by
      simpa using findByte?_eq_none.1 found
    rw [List.takeWhile_eq_self_iff.2 clean, List.dropWhile_eq_nil_iff.2 clean]
    rfl
  | some offset =>
    obtain ⟨mantissa, c, tail, rfl, clean, mark, length⟩ := exists_of_findByte? found
    -- Both marks are one byte, so the second cut lies right behind the character.
    have single : c.utf8Size = 1 := by
      have letter : c = 'p' ∨ c = 'P' := by simpa [isExponentMark] using mark
      rcases letter with rfl | rfl <;> rfl
    have first : splitAtByte? offset (mantissa ++ c :: tail) = some (mantissa, c :: tail) :=
      splitAtByte?_eq_some.2 ⟨rfl, length⟩
    have second : splitAtByte? (offset + 1) (mantissa ++ c :: tail) =
        some (mantissa ++ [c], tail) := splitAtByte?_eq_some.2 ⟨by simp, by simp [single, length]⟩
    have inside : ∀ d ∈ mantissa, (!isExponentMark d) = true := by simpa using clean
    have outside : ∀ d ∈ (c :: tail).head?, (!isExponentMark d) = false := by simpa using mark
    obtain ⟨front, back⟩ := span_append inside outside
    rw [front, back]
    simp only [first, second, Option.bind_eq_bind, Option.bind_some]
    rfl

theorem sliced?_eq (text : List Char) : sliced? text = some (numeral? text) := by
  unfold sliced? numeral?
  rw [slicedSign?_eq]
  simp only [Option.bind_eq_bind, Option.bind_some, slicedExponent?_eq]
  rfl

end Hexadecimal

/-! ## Both forms -/

/-- The texts that are read, without the blanks around them, are those in decimal form, which are
read as such, and those in hexadecimal form. Hexadecimal digits alone are no such form. Wherever the
text is cut, its encoding is cut between two characters. -/
theorem accepted_iff_spelled (text : List Char) :
    ((read? text).isSome ↔ (Decimal.read? (trim text)).isSome ∨
      ∃ numeral, Hexadecimal.Spells numeral (trim text)) ∧
    ((Decimal.read? (trim text)).isSome ↔ Decimal.Spells (trim text)) ∧
    ((∀ c ∈ trim text, ¬ IsHexLetter c) → read? text = Decimal.read? (trim text)) ∧
    (Hexadecimal.sliced? (trim text)).map (·.bind Hexadecimal.Numeral.value?) =
      some (Hexadecimal.read? (trim text)) := by
  refine ⟨?_, Decimal.read?_isSome, fun unlettered => ?_, ?_⟩
  · rw [read?, ← Hexadecimal.read?_isSome]
    cases Decimal.read? (trim text) <;> simp
  · have other : Hexadecimal.read? (trim text) = none := by
      rw [← Option.not_isSome_iff_eq_none, Hexadecimal.read?_isSome]
      rintro ⟨numeral, spells⟩
      obtain ⟨c, inside, letter⟩ := spells.exists_letter
      exact unlettered c inside letter
    rw [read?, other]
    cases Decimal.read? (trim text) <;> rfl
  · rw [Hexadecimal.sliced?_eq, Option.map_some, Hexadecimal.read?_eq]

theorem accepted_iff_spelled_beef :
    (∀ c ∈ trim " beef\n".toList, ¬ IsHexLetter c) ∧ read? " beef\n".toList = none ∧
      (read? "\t+beef.p-1".toList).isSome := by
  have word : trim " beef\n".toList = ['b', 'e', 'e', 'f'] := by decide
  have unlettered : ∀ c ∈ trim " beef\n".toList, ¬ IsHexLetter c := by
    rw [word]
    simp [IsHexLetter]
  have spells : Hexadecimal.Spells ⟨false, ['b', 'e', 'e', 'f'], [], -1⟩
      (trim "\t+beef.p-1".toList) :=
    { parts := ⟨false, ['+'], [], _, _, rfl, .plus, .missing, .pointed _ _,
        @Hexadecimal.ExponentText.present false true 'p' ['-'] ['1'] (.inl rfl) .minus (by simp)
          (List.all_eq_true.1 rfl)⟩
      whole := isHexDigit_of_hexValue? (m := 0) (n := 0xBEEF) rfl
      places := by simp
      nonempty := by simp
      range := by decide }
  exact ⟨unlettered, ((accepted_iff_spelled _).2.2.1 unlettered).trans (by decide),
    (accepted_iff_spelled _).1.2 (.inr ⟨_, spells⟩)⟩

end IppCode.Binary64
